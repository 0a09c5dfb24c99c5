import InterfaceGen.Identifier
import InterfaceGen.Interface.Basic
import InterfaceGen.Interface.Page

/-! The file of an interface: a banner, the imports, and the declaration with one line for each
property. -/

namespace InterfaceGen

/-- How interface files are laid out and named. -/
structure Layout where
  banner : Bool := true
  indent : Text := ['\t']
  /-- The extension of the files, without its dot. -/
  extension : Text := "ts".toList
deriving DecidableEq, Repr

def bannerLine : Text := "/* Auto Generated */".toList

def Reference.importLine (r : Reference) : Text :=
  ["import \x7b ".toList, r.name, " \x7d from \"".toList, r.importPath, "\"".toList].flatten

def Property.typeText (p : Property) : Text :=
  p.type.name ++ if p.isArray then "[]".toList else []

def Property.line (p : Property) : Text :=
  [Identifier.camel p.name, ": ".toList, p.typeText, ";".toList].flatten

namespace Interface

/-- The opening line of the declaration. -/
def header (i : Interface) : Text :=
  match i.parent? with
  | some r =>
    ["export interface ".toList, i.name, " extends ".toList, r.name, " \x7b".toList].flatten
  | none => ["export interface ".toList, i.name, " \x7b".toList].flatten

/-- The closing line of the declaration. -/
def footer : Text := "\x7d".toList

/-- Adds a reference unless it is listed already or bears the name of the interface itself, which
an import would declare a second time. -/
def addImport (i : Interface) (listed : List Reference) (r : Reference) : List Reference :=
  if r.name = i.name ∨ r ∈ listed then listed else listed ++ [r]

/-- What the file of an interface imports, each reference once and in the order of first use. -/
def imports (i : Interface) : List Reference := i.references.foldl i.addImport []

/-- The contents of the file of an interface. -/
def contents (layout : Layout) (i : Interface) : Text :=
  let page : Page := { unit := layout.indent }
  let page := if layout.banner then (page.addLine bannerLine).addBlankLine else page
  let page := page.addLines (i.imports.map (·.importLine))
  let page := if i.imports.isEmpty then page else page.addBlankLine
  let page := (page.addLine i.header).indent.addLines (i.properties.map (·.line))
  (page.dedent.addLine footer).text

/-- Where the file of an interface lies below the output directory. -/
def outputPath (extension : Text) (i : Interface) : Path :=
  let file : Path := ⟨[Identifier.camel i.name, ".".toList, extension].flatten⟩
  if i.group.isEmpty then file else (⟨i.group⟩ : Path).join file

end Interface

end InterfaceGen
