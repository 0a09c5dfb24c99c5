import InterfaceGen.Declaration.ElementType
import InterfaceGen.Declaration.Line

/-! Member declarations: modifiers, a type, and a name up to an initializer or an accessor block. -/

namespace InterfaceGen

/-- One public member of a class. -/
structure Member where
  name : Text
  /-- The type as written, such as `ICollection<Tag>`. -/
  declaredType : Text
  /-- The type without its decorations, such as `Tag`. -/
  typeName : Text
  isArray : Bool
deriving DecidableEq, Repr

namespace Member

open Text

/-- The words that may stand before the type without being part of it. -/
def modifiers : List Text :=
  ["public".toList, "static".toList, "const".toList, "readonly".toList, "virtual".toList,
    "override".toList, "required".toList, "new".toList]

/-- Why a line declares no member. -/
inductive Defect
  | incomplete
  | unbalancedType (declared : Text)
  | unnamed
  | emptyType (declared : Text)
deriving DecidableEq, Repr

def Defect.message : Defect → Text
  | .incomplete => "expected `<type> <name>` after modifiers".toList
  | .unbalancedType declared => ["unsupported generic type `".toList, declared, "`".toList].flatten
  | .unnamed => "missing member name".toList
  | .emptyType declared => ["cannot determine type from `".toList, declared, "`".toList].flatten

/-- The characters that end a member name. -/
def endsName (c : Char) : Bool := c == ';' || c == '=' || c == '\x7b'

/-- The member that the type token and the token after it declare. -/
def ofTokens (declared second : Text) : Except Defect Member :=
  let name := second.takeWhile (!endsName ·)
  let element := ElementType.ofDeclared declared
  if declared.count '<' ≠ declared.count '>' then .error (.unbalancedType declared)
  else if name.isEmpty then .error .unnamed
  else if element.name.isEmpty then .error (.emptyType declared)
  else .ok ⟨name, declared, element.name, element.isArray⟩

/-- The member that a line declares. -/
def ofLine (line : Text) : Except Defect Member :=
  match (tokens (Line.code line)).filter (!modifiers.contains ·) with
  | declared :: second :: _ => ofTokens declared second
  | _ => .error .incomplete

end Member

end InterfaceGen
