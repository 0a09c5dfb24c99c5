import InterfaceGen.Declaration.Parent
import InterfaceGen.Finding
import InterfaceGen.Model.Basic

/-! From lines to a model. Every line contributes on its own, and what the lines contribute is
joined in their order: the first parent counts, members and findings line up. A line that declares
no member although it looks like one is reported and left out. -/

namespace InterfaceGen

open Text

/-- What some lines contribute to a model. -/
structure Extract where
  parent? : Option Text := none
  members : List Member := []
  findings : List Finding := []
deriving DecidableEq, Repr

namespace Extract

def append (a b : Extract) : Extract :=
  ⟨a.parent? <|> b.parent?, a.members ++ b.members, a.findings ++ b.findings⟩

instance : Append Extract := ⟨append⟩

/-- The finding for line `n` of a file whose text `line` has the given defect. -/
def malformed (path : Path) (n : Nat) (line : Text) (defect : Member.Defect) : Finding where
  severity := .warning
  rule := "malformed-field".toList
  message := [defect.message, ": `".toList, strip line, "`".toList].flatten
  location := .line path n
  suggestion? := some "declare fields as `public <Type> <Name>;`".toList

/-- What line `n` contributes. -/
def ofLine (path : Path) (n : Nat) (line : Text) : Extract :=
  if Line.isInheritance line then { parent? := Parent.ofLine? (Line.code line) }
  else if Line.isField line then
    match Member.ofLine line with
    | .ok member => { members := [member] }
    | .error defect => { findings := [malformed path n line defect] }
  else {}

/-- What lines contribute of which the first has number `n`. -/
def ofLines (path : Path) : Nat → List Text → Extract
  | _, [] => {}
  | n, line :: rest => ofLine path n line ++ ofLines path (n + 1) rest

end Extract

/-- What the lines of a source contribute; they are counted from one. -/
def Source.extract (s : Source) : Extract := Extract.ofLines s.path 1 s.lines

/-- The model that a source declares. -/
def Source.model (s : Source) : Model :=
  ⟨s.name, s.group, s.path, s.extract.parent?, s.extract.members⟩

def Source.findings (s : Source) : List Finding := s.extract.findings

end InterfaceGen
