/-! A stable sort by a decidable relation, and the lexicographic order of lists. Both recurse on
lists alone, so that a sort of a given list can be computed step by step. -/

namespace InterfaceGen.Sorting

variable {α : Type} (r : α → α → Prop) [DecidableRel r]

/-- Puts `a` before the first element that it may precede. -/
def insert (a : α) : List α → List α
  | [] => [a]
  | b :: l => if r a b then a :: b :: l else b :: insert a l

/-- Sorts by `r`; elements that precede each other keep their order. -/
def sort : List α → List α
  | [] => []
  | a :: l => insert r a (sort l)

/-- Whether the first elements in which two lists differ stand in the order `le`; a list comes
before those that continue it. -/
def lexicographic [DecidableEq α] (le : α → α → Bool) : List α → List α → Bool
  | [], _ => true
  | _ :: _, [] => false
  | a :: l, b :: k => if a = b then lexicographic le l k else le a b

end InterfaceGen.Sorting
