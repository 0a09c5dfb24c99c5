import InterfaceGen.Json.Magnitude
import InterfaceGen.Json.Quoted

/-! JSON numbers, none of which is wanted anywhere. Skipping one checks its form only. Refusing one
looks at its size too, since a number that comes out infinite is not read at all. -/

namespace InterfaceGen.Json

/-- Skips the digits at the start, of which there must be one. -/
def skipDigits (t : Text) : Except Refusal Text :=
  if (t.takeWhile isDigit).isEmpty then .error .malformed else .ok (t.dropWhile isDigit)

def skipExponent : Text → Except Refusal Text
  | 'e' :: '+' :: t | 'e' :: '-' :: t | 'E' :: '+' :: t | 'E' :: '-' :: t => skipDigits t
  | 'e' :: t | 'E' :: t => skipDigits t
  | t => .ok t

def skipFraction : Text → Except Refusal Text
  | '.' :: t => do skipExponent (← skipDigits t)
  | t => skipExponent t

/-- Skips a number without its sign. A zero in front stands alone. -/
def skipMagnitude : Text → Except Refusal Text
  | '0' :: t => if (t.head?.any isDigit) then .error .malformed else skipFraction t
  | t => do skipFraction (← skipDigits t)

def skipNumber : Text → Except Refusal Text
  | '-' :: t => skipMagnitude t
  | t => skipMagnitude t

/-- Why a number of the given size is refused. -/
def sizeRefusal (m : Magnitude) : Refusal := if m.isInfinite then .malformed else .unwanted

/-- Why digits are missing before `t`. -/
def missingDigits (t : Text) : Refusal := if t.isEmpty then .unfinished else .malformed

/-- Why `m` is refused, with the digits of a further exponent coming next. -/
def exponentRefusal (m : Magnitude) (negative : Bool) (t : Text) : Refusal :=
  let digits := t.takeWhile isDigit
  if digits.isEmpty then missingDigits t
  else if negative then sizeRefusal (m.scale (-digitsValue digits))
  else sizeRefusal (m.scale (digitsValue digits))

def scaleRefusal (m : Magnitude) : Text → Refusal
  | 'e' :: '+' :: t | 'E' :: '+' :: t => exponentRefusal m false t
  | 'e' :: '-' :: t | 'E' :: '-' :: t => exponentRefusal m true t
  | 'e' :: t | 'E' :: t => exponentRefusal m false t
  | _ => sizeRefusal m

/-- Why a number with the integer part `m` is refused, whose fraction may come next. -/
def fractionRefusal (m : Magnitude) : Text → Refusal
  | '.' :: t =>
    let digits := t.takeWhile isDigit
    if digits.isEmpty then missingDigits t
    else scaleRefusal (m.withFraction digits) (t.dropWhile isDigit)
  | t => scaleRefusal m t

def magnitudeRefusal : Text → Refusal
  | '0' :: t => if (t.head?.any isDigit) then .malformed else fractionRefusal ⟨0, 0⟩ t
  | t =>
    let digits := t.takeWhile isDigit
    if digits.isEmpty then missingDigits t
    else fractionRefusal (.ofWhole 0 digits) (t.dropWhile isDigit)

/-- Why a number is refused where none is wanted. -/
def numberRefusal : Text → Refusal
  | '-' :: t => magnitudeRefusal t
  | t => magnitudeRefusal t

end InterfaceGen.Json
