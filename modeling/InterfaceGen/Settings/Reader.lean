import InterfaceGen.Json.Skip
import InterfaceGen.Settings.Basic

/-! Reading settings from JSON: an object whose keys may be left out, each of the known ones written
at most once and the others passed over, or a list of the values in the order of the keys. The text
is read from left to right and refused at the first thing that is wrong. -/

namespace InterfaceGen

open Json

namespace Json

/-- Why the value that starts with the first character of `t` is refused where a value of another
kind is wanted. Of a list or an object no more than the bracket is looked at. -/
def valueRefusal (t : Text) : Refusal :=
  let whole (rest : Except Refusal Text) : Refusal :=
    match rest with
    | .ok _ => .unwanted
    | .error r => r
  match t with
  | 'n' :: t => whole (expect "ull".toList t)
  | 't' :: t => whole (expect "rue".toList t)
  | 'f' :: t => whole (expect "alse".toList t)
  | '[' :: _ => .unwanted
  | c :: rest =>
    if c = '\x7b' then .unwanted
    else if c = quote then whole ((unquote true .plain rest).map (·.2))
    else if c = '-' || isDigit c then numberRefusal t
    else .malformed
  | [] => .unfinished

def readString (t : Text) : Except Refusal (Text × Text) :=
  match dropSpace t with
  | [] => .error .unfinished
  | c :: rest => if c = quote then unquote true .plain rest else .error (valueRefusal (c :: rest))

/-- Reads a string or `null`. -/
def readString? (t : Text) : Except Refusal (Option Text × Text) :=
  match dropSpace t with
  | 'n' :: rest => (expect "ull".toList rest).map (none, ·)
  | rest => (readString rest).map fun (s, rest) => (some s, rest)

def readBool (t : Text) : Except Refusal (Bool × Text) :=
  match dropSpace t with
  | 't' :: rest => (expect "rue".toList rest).map (true, ·)
  | 'f' :: rest => (expect "alse".toList rest).map (false, ·)
  | rest => .error (valueRefusal rest)

/-- Reads the strings of a list behind the first one. Each takes characters of the text, so `fuel`
may be its length. -/
def readMoreStrings : (fuel : Nat) → Text → Except Refusal (List Text × Text)
  | 0, _ => .error .unfinished
  | fuel + 1, t =>
    match dropSpace t with
    | [] => .error .unfinished
    | ']' :: t => .ok ([], t)
    | ',' :: t => do
      let (s, t) ← readString t
      let (ss, t) ← readMoreStrings fuel t
      return (s :: ss, t)
    | _ => .error .malformed

/-- Reads a list of strings. -/
def readStrings (t : Text) : Except Refusal (List Text × Text) :=
  match dropSpace t with
  | '[' :: t =>
    match dropSpace t with
    | ']' :: t => .ok ([], t)
    | t => do
      let (s, t) ← readString t
      let (ss, t) ← readMoreStrings t.length t
      return (s :: ss, t)
  | t => .error (valueRefusal t)

end Json

namespace Settings

/-- Reads the value of a key into the settings. -/
def readValue (s : Settings) (key : Key) (t : Text) : Except Refusal (Settings × Text) :=
  match key with
  | .working => (readString? t).map fun (v, t) => ({ s with working? := v }, t)
  | .output => (readString? t).map fun (v, t) => ({ s with output? := v }, t)
  | .banner => (readBool t).map fun (v, t) => ({ s with banner := v }, t)
  | .suffix => (readString? t).map fun (v, t) => ({ s with suffix? := v }, t)
  | .extensions => (readStrings t).map fun (v, t) => ({ s with extensions := v }, t)
  | .dates => (readBool t).map fun (v, t) => ({ s with dates := v }, t)
  | .extension => (readString t).map fun (v, t) => ({ s with extension := v }, t)

/-- Settings that are being read, and the keys met so far. -/
structure Draft where
  settings : Settings := {}
  seen : List Key := []
deriving DecidableEq, Repr

/-- Reads a member behind the opening quote of its key. -/
def readMember (p : Draft) (t : Text) : Except Refusal (Draft × Text) := do
  let (name, t) ← unquote true .plain t
  match Key.ofText? name with
  | none => return (p, ← skipValue (← expectColon t))
  | some key =>
    if key ∈ p.seen then throw .unwanted
    let (settings, t) ← readValue p.settings key (← expectColon t)
    return (⟨settings, key :: p.seen⟩, t)

/-- Reads members up to the end of the object; `t` starts with the first of them. Each takes
characters of the text, so `fuel` may be its length. -/
def readMembers : (fuel : Nat) → Draft → Text → Except Refusal (Settings × Text)
  | 0, _, _ => .error .unfinished
  | fuel + 1, p, t =>
    match dropSpace t with
    | [] => .error .unfinished
    | c :: t => do
      if c ≠ quote then throw .malformed
      let (p, t) ← readMember p t
      match dropSpace t with
      | [] => throw .unfinished
      | c :: t =>
        if c = ',' then readMembers fuel p t
        else if c = '\x7d' then return (p.settings, t)
        else throw .malformed

/-- Reads the members of an object behind its opening bracket. -/
def readObject (t : Text) : Except Refusal (Settings × Text) :=
  match dropSpace t with
  | [] => .error .unfinished
  | c :: rest => if c = '\x7d' then .ok ({}, rest) else readMembers t.length {} (c :: rest)

/-- Reads the closing bracket of a list. -/
def closeList (s : Settings) (t : Text) : Except Refusal (Settings × Text) :=
  match dropSpace t with
  | [] => .error .unfinished
  | ']' :: t => .ok (s, t)
  | _ => .error .malformed

/-- Reads the values of some keys behind another value. A list may end early. -/
def readMoreValues : List Key → Settings → Text → Except Refusal (Settings × Text)
  | [], s, t => closeList s t
  | key :: keys, s, t =>
    match dropSpace t with
    | [] => .error .unfinished
    | ']' :: t => .ok (s, t)
    | ',' :: t => do
      let (s, t) ← readValue s key t
      readMoreValues keys s t
    | _ => .error .malformed

/-- Reads the values of a list behind its opening bracket. -/
def readList (t : Text) : Except Refusal (Settings × Text) :=
  match dropSpace t with
  | [] => .error .unfinished
  | ']' :: t => .ok ({}, t)
  | t => do
    let (s, t) ← readValue {} .working t
    readMoreValues Key.all.tail s t

/-- The settings that a text stands for. Nothing but white space may follow them. -/
def ofText (t : Text) : Except Refusal Settings := do
  let (s, rest) ← match dropSpace t with
    | [] => throw .unfinished
    | '[' :: t => readList t
    | c :: t => if c = '\x7b' then readObject t else throw (valueRefusal (c :: t))
  if (dropSpace rest).isEmpty then return s else throw .malformed

end Settings

end InterfaceGen
