import InterfaceGen.Conversion.Delivery
import InterfaceGen.Conversion.Directories
import InterfaceGen.Storage.Disk

/-! A conversion as a whole: prepare the directories, generate every file, write the files. -/

namespace InterfaceGen

/-- What a finished conversion has to tell. -/
structure Report where
  /-- The paths of the written files, in the order of the models. -/
  written : List Path
  findings : List Finding
deriving DecidableEq, Repr

def Report.warnings (r : Report) : Nat := (r.findings.filter (·.isWarning)).length

namespace Plan

variable {m : Type → Type} [Monad m]

/-- How the sources of a working directory are read. -/
abbrev Reader (m : Type → Type) := Selection → Path → ExceptT SourceError m (List Source)

/-- Reads from a disk that is not the storage at hand and stays as it is. -/
def readingFrom (d : Disk) : Reader m := fun s root =>
  ExceptT.mk (pure ((Source.load s root : ExceptT SourceError (StateM Disk) _).run.run d).1)

/-- Reads the sources and produces every file, without writing any. -/
def generate (read : Reader m) (plan : Plan) : ExceptT ConversionError m Generation := do
  let sources ← ExceptT.adapt .source (read plan.selection plan.working)
  return .ofSources plan.dates plan.layout sources

/-- Reads the sources as `read` does, and prepares and writes in the storage at hand. -/
def convert [Storage m] (read : Reader m) (plan : Plan) : ExceptT ConversionError m Report := do
  plan.prepare
  let generation ← plan.generate read
  return ⟨← GeneratedFile.deliverAll plan.output generation.files, generation.findings⟩

end Plan

end InterfaceGen
