import InterfaceGen.Command.Run

/-! The program on the files of the machine. -/

namespace InterfaceGen.Machine

def nameOf (p : Path) : String := String.ofList p.text

/-- What an error of the machine means. -/
def fault : IO.Error → Fault
  | .noFileOrDirectory .. => .system .noEntry
  | .permissionDenied _ 13 _ => .system .denied
  | .alreadyExists .. => .system .alreadyExists
  | .resourceBusy .. => .system .busy
  | .unsatisfiedConstraints .. => .system .notEmpty
  | .inappropriateType _ 20 _ => .system .notDirectory
  | .inappropriateType _ 21 _ => .system .isDirectory
  | e => .other (toString e).toList

def located (p : Path) (operation : IO Unit) : IO (Except StorageError Unit) := do
  return (← operation.toBaseIO).mapError fun e => ⟨p, fault e⟩

/-- The text of a file, whose bytes may be no text. -/
def readText (p : Path) : IO (Except Fault Text) := do
  match ← (IO.FS.readBinFile (nameOf p)).toBaseIO with
  | .error e => return .error (fault e)
  | .ok bytes =>
    match String.fromUTF8? bytes with
    | none => return .error .notText
    | some text => return .ok text.toList

/-- The entries of a directory. -/
def entries (p : Path) : IO (Except Fault (List Entry)) := do
  let list : IO (List Entry) := do
    let found ← (← IO.FS.realPath (nameOf p)).readDir
    found.toList.mapM fun entry => do
      return ⟨entry.fileName.toList, !(← entry.path.isDir)⟩
  return (← list.toBaseIO).mapError fault

instance : Storage IO where
  pathExists p := do
    match ← (IO.FS.realPath (nameOf p)).toBaseIO with
    | .ok real => real.pathExists
    | .error _ => return false
  makeDirectories p := located p (IO.FS.createDirAll (nameOf p))
  removeTree p := located p (IO.FS.removeDirAll (nameOf p))
  write p contents := located p (IO.FS.writeFile (nameOf p) (String.ofList contents))
  locate p := do
    match ← (IO.FS.realPath (nameOf p)).toBaseIO with
    | .ok real => return .ok (.ofPath (.ofString real.toString))
    | .error e => return .error ⟨p, fault e⟩

instance : SourceTree IO where
  isDirectory p := do
    match ← (IO.FS.realPath (nameOf p)).toBaseIO with
    | .ok real => real.isDir
    | .error _ => return false
  entries := entries
  readText := readText

end InterfaceGen.Machine

/-- Carries out the command line in the current directory. -/
def main (arguments : List String) : IO UInt32 := do
  let project : InterfaceGen.Path := .ofString (← IO.currentDir).toString
  let result ← (InterfaceGen.Command.run project (arguments.map String.toList) : IO _)
  IO.print (String.ofList result.transcript.output)
  IO.eprint (String.ofList result.transcript.errors)
  return result.exitCode.toUInt32
