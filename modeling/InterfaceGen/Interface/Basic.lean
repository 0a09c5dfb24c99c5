import InterfaceGen.Path.Basic

/-! Interfaces: models whose type names have been resolved, each either to another model or to a
built-in type of TypeScript. -/

namespace InterfaceGen

/-- The built-in types that occur in generated interfaces. -/
inductive Builtin
  | number
  | boolean
  | string
  | date
  /-- Stands for every name that means nothing else. -/
  | any
deriving DecidableEq, Repr

def Builtin.text : Builtin → Text
  | .number => "number".toList
  | .boolean => "boolean".toList
  | .string => "string".toList
  | .date => "Date".toList
  | .any => "any".toList

/-- Another interface, and the path from which to import it. -/
structure Reference where
  name : Text
  importPath : Text
deriving DecidableEq, Repr

inductive PropertyType
  | builtin (b : Builtin)
  | model (r : Reference)
deriving DecidableEq, Repr

namespace PropertyType

def name : PropertyType → Text
  | .builtin b => b.text
  | .model r => r.name

def reference? : PropertyType → Option Reference
  | .builtin _ => none
  | .model r => some r

end PropertyType

structure Property where
  name : Text
  declaredType : Text
  isArray : Bool
  type : PropertyType
deriving DecidableEq, Repr

structure Interface where
  name : Text
  group : Text
  /-- Present when the parent is a known model. -/
  parent? : Option Reference
  properties : List Property
deriving DecidableEq, Repr

/-- What an interface refers to: its parent, then the types of its properties. -/
def Interface.references (i : Interface) : List Reference :=
  i.parent?.toList ++ i.properties.filterMap (·.type.reference?)

end InterfaceGen
