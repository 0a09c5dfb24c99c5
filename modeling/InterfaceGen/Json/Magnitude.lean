import InterfaceGen.Text.Basic

/-! How large a number comes out that is read in double precision. Its digits are kept as far as
they fit into 64 bits; digits and power of ten are then rounded to double precision, each on its
own, and so is their product. Near the greatest double this differs from rounding the number
itself. -/

namespace InterfaceGen.Json

def isDigit (c : Char) : Bool := '0' ≤ c && c ≤ '9'

def digitValue (c : Char) : Nat := c.toNat - '0'.toNat

def digitsValue (t : Text) : Nat := t.foldl (fun n c => n * 10 + digitValue c) 0

/-- The bits that double precision keeps. -/
def doubleBits : Nat := 53

/-- The natural number nearest to `n` that needs no more bits than double precision keeps, apart
from zeros at the end; between two equally near ones, that with the even last bit. -/
def roundToDouble (n : Nat) : Nat :=
  let unit := Nat.pow 2 (n.log2 + 1 - doubleBits)
  let whole := n / unit
  let up := unit < 2 * (n % unit) || (unit == 2 * (n % unit) && whole % 2 == 1)
  (if up then whole + 1 else whole) * unit

/-- The number `digits · 10 ^ exponent`. -/
structure Magnitude where
  digits : Nat
  exponent : Int
deriving DecidableEq, Repr

namespace Magnitude

/-- What the kept digits stay below. -/
def digitsBound : Nat := Nat.pow 2 64

/-- The value of kept digits with `c` behind them, if it can be kept too. -/
def keep? (digits : Nat) (c : Char) : Option Nat :=
  let longer := digits * 10 + digitValue c
  if longer < digitsBound then some longer else none

/-- The digits of an integer behind kept ones. From the first that cannot be kept, each stands for a
zero. -/
def ofWhole : (digits : Nat) → Text → Magnitude
  | digits, [] => ⟨digits, 0⟩
  | digits, c :: t =>
    match keep? digits c with
    | some longer => ofWhole longer t
    | none => ⟨digits, t.length + 1⟩

/-- The number with the digits of a fraction behind it, up to the first that cannot be kept. -/
def withFraction (m : Magnitude) : Text → Magnitude
  | [] => m
  | c :: t =>
    match keep? m.digits c with
    | some longer => withFraction ⟨longer, m.exponent - 1⟩ t
    | none => m

/-- The number times `10 ^ e`. -/
def scale (m : Magnitude) (e : Int) : Magnitude := { m with exponent := m.exponent + e }

/-- The greatest power of ten that is a double. -/
def maxExponent : Int := 308

/-- Whether the number comes out infinite. -/
def isInfinite (m : Magnitude) : Bool :=
  if m.digits = 0 ∨ m.exponent < 0 then false
  else if maxExponent < m.exponent then true
  else
    let power := roundToDouble (Nat.pow 10 m.exponent.toNat)
    Nat.pow 2 1024 ≤ roundToDouble (roundToDouble m.digits * power)

end Magnitude

end InterfaceGen.Json
