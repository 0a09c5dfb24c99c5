import InterfaceGen.Source.Loading

/-! Why a conversion stops. -/

namespace InterfaceGen

inductive ConversionError
  | workingNotCreated (dir : Path) (e : StorageError)
  | notLocated (dir : Path) (e : StorageError)
  | outputHoldsWorking (output working : Path)
  | outputNotCleared (dir : Path) (e : StorageError)
  | outputNotCreated (dir : Path) (e : StorageError)
  | source (e : SourceError)
  | notWritten (path : Path) (e : StorageError)
deriving DecidableEq, Repr

namespace ConversionError

/-- A directory that cannot be used as the plan asks. -/
def directoryMessage (what : String) (dir : Path) (e : StorageError) : Text :=
  ["Configuration error: cannot ".toList, what.toList, " ".toList, dir.text, ": ".toList,
    e.message].flatten

def message : ConversionError → Text
  | .workingNotCreated dir e => directoryMessage "create working directory" dir e
  | .notLocated dir e => directoryMessage "resolve directory" dir e
  | .outputHoldsWorking output working =>
    ["Configuration error: refusing to clear convert directory ".toList, output.text,
      " because it contains the working directory ".toList, working.text].flatten
  | .outputNotCleared dir e => directoryMessage "clear convert directory" dir e
  | .outputNotCreated dir e => directoryMessage "create convert directory" dir e
  | .source e => e.message
  | .notWritten path e => ["Failed to write ".toList, path.text, ": ".toList, e.message].flatten

end ConversionError

/-- Runs an operation on files and says what its failure means for the conversion. -/
def attempt {m : Type → Type} [Monad m] {α : Type} (operation : m (Except StorageError α))
    (meaning : StorageError → ConversionError) : ExceptT ConversionError m α :=
  ExceptT.mk do return (← operation).mapError meaning

end InterfaceGen
