import InterfaceGen.Conversion.Plan

/-! The settings of a project and the conversion that they ask for. -/

namespace InterfaceGen

structure Settings where
  /-- The working directory, seen from the directory of the project. -/
  working? : Option Text := none
  /-- The output directory, seen from the directory of the project. It is emptied before each run
  if it is set. -/
  output? : Option Text := none
  banner : Bool := true
  suffix? : Option Text := some "Resource".toList
  extensions : List Text := []
  dates : Bool := true
  /-- The extension of the generated files. -/
  extension : Text := "ts".toList
deriving DecidableEq, Repr

namespace Settings

/-- The name of the file that holds the settings of a project. -/
def fileName : Text := "mtt.config.json".toList

/-- A directory that may be set, seen from the directory `project`. -/
def directory (project : Path) (dir? : Option Text) : Path :=
  match dir? with
  | some dir => project.join ⟨dir⟩
  | none => project

def workingDirectory (s : Settings) (project : Path) : Path := directory project s.working?

def outputDirectory (s : Settings) (project : Path) : Path := directory project s.output?

/-- Whether the output directory is set. -/
def hasOutput (s : Settings) : Bool := s.output?.isSome

/-- The conversion that the settings of `project` ask for. -/
def plan (s : Settings) (project : Path) : Plan where
  working := s.workingDirectory project
  output := s.outputDirectory project
  clean := s.hasOutput
  selection := ⟨s.suffix?, s.extensions⟩
  dates := s.dates
  layout := { banner := s.banner, extension := s.extension }

/-- The keys under which the settings are written, in their order. -/
inductive Key
  | working
  | output
  | banner
  | suffix
  | extensions
  | dates
  | extension
deriving DecidableEq, Repr

namespace Key

def all : List Key := [working, output, banner, suffix, extensions, dates, extension]

def text : Key → Text
  | working => "workingDirectory".toList
  | output => "convertDirectory".toList
  | banner => "autoGeneratedTag".toList
  | suffix => "nameSuffix".toList
  | extensions => "extensions".toList
  | dates => "mapDateTime".toList
  | extension => "outputExtension".toList

def ofText? (t : Text) : Option Key := all.find? (·.text == t)

end Key

end Settings

end InterfaceGen
