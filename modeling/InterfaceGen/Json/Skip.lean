import InterfaceGen.Json.Number

/-! Skipping a JSON value of any kind and depth. The lists and objects that are open are kept on a
stack. Inside a skipped string surrogates need no partner. -/

namespace InterfaceGen.Json

def isSpace (c : Char) : Bool := c == ' ' || c == '\n' || c == '\t' || c == '\r'

def dropSpace (t : Text) : Text := t.dropWhile isSpace

/-- Skips what is left of a word. -/
def expect : (word t : Text) → Except Refusal Text
  | [], t => .ok t
  | _ :: _, [] => .error .unfinished
  | a :: word, c :: t => if a = c then expect word t else .error .malformed

/-- Skips a string up to its closing quote. -/
def skipString (t : Text) : Except Refusal Text := (unquote false .plain t).map (·.2)

/-- Skips a colon and the space before it. -/
def expectColon (t : Text) : Except Refusal Text :=
  match dropSpace t with
  | [] => .error .unfinished
  | ':' :: t => .ok t
  | _ => .error .malformed

/-- The two kinds of values that hold others. -/
inductive Frame
  | list
  | object
deriving DecidableEq, Repr

def Frame.closer : Frame → Char
  | .list => ']'
  | .object => '\x7d'

/-- Skips what stands before a value inside a frame: a key with its colon, or nothing. -/
def enter : Frame → Text → Except Refusal Text
  | .list, t => .ok t
  | .object, t =>
    match dropSpace t with
    | [] => .error .unfinished
    | c :: t => if c = quote then do expectColon (← skipString t) else .error .malformed

/-- Goes on behind a complete value, to the next value or to the end of the outermost frame. -/
def leave : List Frame → Text → Except Refusal (List Frame × Text)
  | [], t => .ok ([], t)
  | f :: frames, t =>
    match dropSpace t with
    | [] => .error .unfinished
    | c :: t =>
      if c = ',' then (enter f t).map (f :: frames, ·)
      else if c = f.closer then leave frames t
      else .error .malformed

/-- Opens a list or an object: to its first value or, if it is empty, behind it. -/
def openFrame (f : Frame) (frames : List Frame) (t : Text) : Except Refusal (List Frame × Text) :=
  if (dropSpace t).head? = some f.closer then leave frames (dropSpace t).tail
  else (enter f t).map (f :: frames, ·)

/-- Skips a value that holds no other, or opens one that does. -/
def skipStep (frames : List Frame) (t : Text) : Except Refusal (List Frame × Text) := do
  match dropSpace t with
  | [] => .error .unfinished
  | '[' :: t => openFrame .list frames t
  | 'n' :: t => leave frames (← expect "ull".toList t)
  | 't' :: t => leave frames (← expect "rue".toList t)
  | 'f' :: t => leave frames (← expect "alse".toList t)
  | c :: t =>
    if c = '\x7b' then openFrame .object frames t
    else if c = quote then leave frames (← skipString t)
    else leave frames (← skipNumber (c :: t))

/-- Skips values until no frame is open. Every step takes a character, so `fuel` may be the length
of the text. -/
def skipAll : (fuel : Nat) → List Frame → Text → Except Refusal Text
  | 0, _, _ => .error .unfinished
  | fuel + 1, frames, t => do
    match ← skipStep frames t with
    | ([], t) => return t
    | (frames, t) => skipAll fuel frames t

/-- Skips one value. -/
def skipValue (t : Text) : Except Refusal Text := skipAll (t.length + 1) [] t

end InterfaceGen.Json
