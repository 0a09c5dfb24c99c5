import InterfaceGen.Identifier
import InterfaceGen.Interface.Basic
import InterfaceGen.Model.Catalogue

/-! Linking turns the models of a catalogue into interfaces. A type name that is the name of a model
refers to that model; any other stands for a built-in type. A parent that is no known model is
dropped and reported. -/

namespace InterfaceGen

/-- The path by which a file of the group `source` imports the file of `name` in the group
`target`. Groups are one directory deep, so one step up always reaches the directory of all. -/
def importPath (source target name : Text) : Text :=
  let file := Identifier.camel name
  if source = target then "./".toList ++ file
  else if source.isEmpty then ["./".toList, target, "/".toList, file].flatten
  else if target.isEmpty then "../".toList ++ file
  else ["../".toList, target, "/".toList, file].flatten

namespace Builtin

/-- The names of the number types. -/
def numberNames : List Text :=
  ["byte".toList, "sbyte".toList, "decimal".toList, "double".toList, "float".toList, "int".toList,
    "uint".toList, "long".toList, "ulong".toList, "short".toList, "ushort".toList]

/-- The built-in type for a type name; dates are told apart only when `dates` is set. -/
def ofName (dates : Bool) (name : Text) : Builtin :=
  if numberNames.contains name then .number
  else if name = "bool".toList then .boolean
  else if name = "string".toList then .string
  else if dates && name = "DateTime".toList then .date
  else .any

end Builtin

namespace Catalogue

/-- The reference by which a model refers to the model called `name`. -/
def reference? (c : Catalogue) (m : Model) (name : Text) : Option Reference :=
  (c.find? name).map fun target => ⟨target.name, importPath m.group target.group target.name⟩

def propertyType (c : Catalogue) (dates : Bool) (m : Model) (name : Text) : PropertyType :=
  match c.reference? m name with
  | some r => .model r
  | none => .builtin (.ofName dates name)

def property (c : Catalogue) (dates : Bool) (m : Model) (member : Member) : Property :=
  ⟨member.name, member.declaredType, member.isArray, c.propertyType dates m member.typeName⟩

/-- The interface of a model. -/
def link (c : Catalogue) (dates : Bool) (m : Model) : Interface where
  name := m.name
  group := m.group
  parent? := m.parent?.bind (c.reference? m)
  properties := m.members.map (c.property dates m)

/-- The finding for a model whose parent `name` is no known model. -/
def unresolvedParent (m : Model) (name : Text) : Finding where
  severity := .info
  rule := "unresolved-base".toList
  message := ["base type `".toList, name,
    "` is not a known model; no `extends` emitted".toList].flatten
  location := .file m.path
  suggestion? := none

def parentFinding? (c : Catalogue) (m : Model) : Option Finding := do
  let name ← m.parent?
  match c.reference? m name with
  | some _ => none
  | none => some (unresolvedParent m name)

/-- The interfaces of all models, in their order. -/
def interfaces (c : Catalogue) (dates : Bool) : List Interface := c.models.map (c.link dates)

/-- Hidden models first, then dropped parents. -/
def findings (c : Catalogue) : List Finding := c.duplicates ++ c.models.filterMap c.parentFinding?

end Catalogue

end InterfaceGen
