import InterfaceGen.Text.Blank

/-! The type that a declared type comes down to: `int[]` and `ICollection<int>` are arrays of `int`,
`int?` is an `int`. -/

namespace InterfaceGen

/-- A type name without decoration, and whether there are many of it. -/
structure ElementType where
  name : Text
  isArray : Bool
deriving DecidableEq, Repr

namespace ElementType

open Text

/-- Generic types that hold many values of their argument. -/
def collections : List Text := ["ICollection".toList, "IEnumerable".toList]

/-- What a collection without a type argument holds. -/
def anything : Text := "object".toList

def arrayMark : Text := "[]".toList

/-- What stands between a leading `<` and a closing `>`. -/
def argument? : Text → Option Text
  | '<' :: t => withoutTail? ['>'] t
  | _ => none

/-- A type written as the collection `marker`, bare or with a type argument. -/
inductive Collection
  | bare
  | of (argument : Text)
deriving DecidableEq, Repr

def collection? (t marker : Text) : Option Collection :=
  match withoutLead? marker t with
  | none => none
  | some [] => some .bare
  | some rest => (argument? rest).map .of

def withoutArrayMarks : Text → Text
  | '[' :: ']' :: t => withoutArrayMarks t
  | c :: t => c :: withoutArrayMarks t
  | [] => []

/-- Without array marks, then without angle brackets and question marks. -/
def undecorated (t : Text) : Text :=
  (withoutArrayMarks t).filter fun c => !(c == '<' || c == '>' || c == '?')

def ofDeclared (declared : Text) : ElementType :=
  let t := trimEnd (· == '?') (strip declared)
  let (t, isArray) := match withoutTail? arrayMark t with
    | some element => (element, true)
    | none => (t, false)
  match collections.findSome? (collection? t) with
  | some .bare => ⟨anything, true⟩
  | some (.of argument) => ⟨undecorated argument, true⟩
  | none => ⟨undecorated t, isArray⟩

end ElementType

end InterfaceGen
