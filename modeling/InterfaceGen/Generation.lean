import InterfaceGen.Interface.Linking
import InterfaceGen.Interface.Printer
import InterfaceGen.Model.Extraction

/-! From sources to interface files. All models are known before the first is linked, since any of
them may refer to any other. -/

namespace InterfaceGen

/-- An interface file that has not been written yet. -/
structure GeneratedFile where
  model : Text
  /-- The place of the file below the output directory. -/
  path : Path
  contents : Text
deriving DecidableEq, Repr

/-- The files for some sources, and what there is to report about them. -/
structure Generation where
  files : List GeneratedFile
  findings : List Finding
deriving DecidableEq, Repr

namespace Generation

def fileOf (layout : Layout) (i : Interface) : GeneratedFile :=
  ⟨i.name, i.outputPath layout.extension, i.contents layout⟩

def catalogue (sources : List Source) : Catalogue := .ofModels (sources.map (·.model))

def ofSources (dates : Bool) (layout : Layout) (sources : List Source) : Generation :=
  let c := catalogue sources
  ⟨(c.interfaces dates).map (fileOf layout), sources.flatMap (·.findings) ++ c.findings⟩

end Generation

end InterfaceGen
