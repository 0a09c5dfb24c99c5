import InterfaceGen.Text.Blank

/-! The parent that a type declaration names after its first colon. -/

namespace InterfaceGen.Parent

open Text

/-- The word that turns what follows the colon into a constraint on a type parameter. -/
def constraintWord : Text := "where".toList

/-- The characters that end the name of a parent. -/
def endsName (c : Char) : Bool :=
  c == '<' || c == '[' || c == ',' || c == '\x7b' || c == '('

def ofLine? (line : Text) : Option Text := do
  let (head, tail) ← splitAt? ':' line
  if (tokens head).contains constraintWord then none
  else
    let name := (← (tokens tail).head?).takeWhile (!endsName ·)
    if name.isEmpty then none else some name

end InterfaceGen.Parent
