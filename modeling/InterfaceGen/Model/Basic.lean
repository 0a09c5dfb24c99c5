import InterfaceGen.Declaration.Member
import InterfaceGen.Path.Basic

/-! Sources and models. A source is a class file as read; a model is the type that it declares.
Both belong to a group, the directory below the working directory in which the file lies; files
directly in the working directory have the empty group. -/

namespace InterfaceGen

/-- A class file: the type name that its file name stands for, and its lines. -/
structure Source where
  name : Text
  group : Text
  path : Path
  lines : List Text
deriving DecidableEq, Repr

/-- A type with its parent, if it names one, and its members in the order of declaration. -/
structure Model where
  name : Text
  group : Text
  path : Path
  parent? : Option Text
  members : List Member
deriving DecidableEq, Repr

namespace Model

/-- A model without parent and members whose path is made from its group and name. -/
def named (name group : Text) : Model :=
  ⟨name, group, if group.isEmpty then ⟨name⟩ else (⟨group⟩ : Path).child name, none, []⟩

end Model

end InterfaceGen
