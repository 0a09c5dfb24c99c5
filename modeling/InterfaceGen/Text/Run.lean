/-! Sets of code points as ascending runs. A run steps through its range by one or, where two cases
of a letter alternate, by two. -/

namespace InterfaceGen.Text

/-- The code points `first`, `first + step`, … up to `last`. -/
structure Run where
  first : Nat
  last : Nat
  step : Nat
deriving DecidableEq, Repr

namespace Run

def one (n : Nat) : Run := ⟨n, n, 1⟩

def span (first last : Nat) : Run := ⟨first, last, 1⟩

def alternate (first last : Nat) : Run := ⟨first, last, 2⟩

def contains (r : Run) (n : Nat) : Bool :=
  r.first ≤ n && n ≤ r.last && (n - r.first) % r.step == 0

end Run

/-- Whether one of the runs, listed in ascending order, contains `n`. -/
def covers : List Run → Nat → Bool
  | [], _ => false
  | r :: rest, n => if n < r.first then false else r.contains n || covers rest n

end InterfaceGen.Text
