import InterfaceGen.Text.Basic

/-! JSON strings. Between the quotes a backslash starts an escape; quotes, backslashes and control
characters must be escaped. A character beyond the sixteen-bit range may be escaped as a pair of
surrogates; a surrogate on its own names no character. Reading goes from left to right and is
refused at the first character that cannot be right. -/

namespace InterfaceGen.Json

/-- Why a text is refused. -/
inductive Refusal
  /-- It is not JSON. -/
  | malformed
  /-- It ends too early. -/
  | unfinished
  /-- It is JSON, but not a value that is wanted here. -/
  | unwanted
deriving DecidableEq, Repr

def quote : Char := '\x22'

def backslash : Char := '\x5c'

/-- The escapes that consist of a backslash and one character, by that character. -/
def shortEscapes : List (Char × Char) :=
  [(quote, quote), (backslash, backslash), ('b', '\x08'), ('t', '\t'), ('n', '\n'), ('f', '\x0c'),
    ('r', '\r')]

def hexDigits : Text := "0123456789abcdef".toList

/-- The written form of a character. -/
def escape (c : Char) : Text :=
  match shortEscapes.find? (·.2 == c) with
  | some (short, _) => [backslash, short]
  | none =>
    if c.toNat < 0x20 then
      [backslash, 'u', '0', '0', hexDigits.getD (c.toNat / 16) '0',
        hexDigits.getD (c.toNat % 16) '0']
    else [c]

/-- The written form of a string. -/
def quoted (t : Text) : Text := quote :: t.flatMap escape ++ [quote]

/-- The value of a hexadecimal digit in either case. -/
def hexValue? (c : Char) : Option Nat :=
  if '0' ≤ c ∧ c ≤ '9' then some (c.toNat - '0'.toNat)
  else if 'a' ≤ c ∧ c ≤ 'f' then some (c.toNat - 'a'.toNat + 10)
  else if 'A' ≤ c ∧ c ≤ 'F' then some (c.toNat - 'A'.toNat + 10)
  else none

def isLeadingSurrogate (n : Nat) : Bool := 0xd800 ≤ n && n < 0xdc00

def isTrailingSurrogate (n : Nat) : Bool := 0xdc00 ≤ n && n < 0xe000

/-- The code point that two surrogates stand for together. -/
def paired (leading trailing : Nat) : Nat :=
  0x10000 + (leading - 0xd800) * 0x400 + (trailing - 0xdc00)

/-- Where inside a string a reader is. -/
inductive Cursor
  | plain
  /-- Behind a backslash. -/
  | escaped
  /-- Behind `read` of the four digits of an escape, of the given value so far; `leading?` is the
  surrogate whose partner they are to be. -/
  | digits (leading? : Option Nat) (read value : Nat)
  /-- Behind a leading surrogate, before the backslash of its partner. -/
  | partner (leading : Nat)
  /-- Between the backslash of a partner and its `u`. -/
  | partnerMark (leading : Nat)
deriving DecidableEq, Repr

/-- What a reader does at a character. -/
inductive Move
  | refuse (r : Refusal)
  | close
  | go (cursor : Cursor)
  /-- A character of the string is complete. -/
  | emit (c : Char)

/-- The digits of an escape come next; whether that many bytes are left is looked at first. -/
def beginDigits (leading? : Option Nat) (rest : Text) : Move :=
  if Text.utf8Size (rest.take 4) < 4 then .refuse .unfinished else .go (.digits leading? 0 0)

/-- What four digits stand for. Unless `pairs` is set, surrogates need no partner. -/
def endDigits (pairs : Bool) : Option Nat → Nat → Move
  | none, n =>
    if pairs && isTrailingSurrogate n then .refuse .malformed
    else if pairs && isLeadingSurrogate n then .go (.partner n)
    else .emit (Char.ofNat n)
  | some leading, n =>
    if isTrailingSurrogate n then .emit (Char.ofNat (paired leading n)) else .refuse .malformed

def move (pairs : Bool) (cursor : Cursor) (c : Char) (rest : Text) : Move :=
  match cursor with
  | .plain =>
    if c = quote then .close
    else if c = backslash then .go .escaped
    else if c.toNat < 0x20 then .refuse .malformed
    else .emit c
  | .escaped =>
    if c = 'u' then beginDigits none rest
    else if c = '/' then .emit '/'
    else
      match shortEscapes.lookup c with
      | some d => .emit d
      | none => .refuse .malformed
  | .digits leading? read value =>
    match hexValue? c with
    | none => .refuse .malformed
    | some d =>
      if read = 3 then endDigits pairs leading? (value * 16 + d)
      else .go (.digits leading? (read + 1) (value * 16 + d))
  | .partner leading =>
    if c = backslash then .go (.partnerMark leading) else .refuse .malformed
  | .partnerMark leading => if c = 'u' then beginDigits (some leading) rest else .refuse .malformed

/-- Reads a string up to its closing quote. The opening quote lies behind. -/
def unquote (pairs : Bool) : Cursor → Text → Except Refusal (Text × Text)
  | _, [] => .error .unfinished
  | cursor, c :: t =>
    match move pairs cursor c t with
    | .refuse r => .error r
    | .close => .ok ([], t)
    | .go cursor' => unquote pairs cursor' t
    | .emit d => (unquote pairs .plain t).map fun (s, rest) => (d :: s, rest)

end InterfaceGen.Json
