import InterfaceGen.Conversion.Error
import InterfaceGen.Generation

/-! Writing the generated files. The first failure stops it; what has been written stays. -/

namespace InterfaceGen.GeneratedFile

variable {m : Type → Type} [Monad m] [Storage m]

/-- Creates the directory of a file that is to be written. -/
def makeParent (path : Path) : ExceptT ConversionError m Unit :=
  match path.parent? with
  | none => return ()
  | some parent => attempt (Storage.makeDirectories parent) (.notWritten parent)

/-- Writes a file below the output directory and returns its path. -/
def deliver (output : Path) (f : GeneratedFile) : ExceptT ConversionError m Path := do
  let path := output.join f.path
  makeParent path
  attempt (Storage.write path f.contents) (.notWritten path)
  return path

/-- Writes files one after the other and returns their paths. -/
def deliverAll (output : Path) : List GeneratedFile → ExceptT ConversionError m (List Path)
  | [] => return []
  | f :: rest => do
    let path ← deliver output f
    return path :: (← deliverAll output rest)

end InterfaceGen.GeneratedFile
