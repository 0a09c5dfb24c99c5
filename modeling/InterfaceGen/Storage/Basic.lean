import InterfaceGen.Path.Place

/-! What a conversion asks of the place where its files live, and why an operation there may fail.
The operations are given for any monad, so that a conversion runs in the same way on files in
memory, on a modelled disk and on the disk of the machine. -/

namespace InterfaceGen

/-- The reasons an operating system gives for refusing an operation on files. -/
inductive SystemError
  | noEntry
  | denied
  | busy
  | alreadyExists
  | notDirectory
  | isDirectory
  | invalid
  | nameTooLong
  | notEmpty
deriving DecidableEq, Repr

def SystemError.message : SystemError → Text
  | .noEntry => "No such file or directory (os error 2)".toList
  | .denied => "Permission denied (os error 13)".toList
  | .busy => "Device or resource busy (os error 16)".toList
  | .alreadyExists => "File exists (os error 17)".toList
  | .notDirectory => "Not a directory (os error 20)".toList
  | .isDirectory => "Is a directory (os error 21)".toList
  | .invalid => "Invalid argument (os error 22)".toList
  | .nameTooLong => "File name too long (os error 36)".toList
  | .notEmpty => "Directory not empty (os error 39)".toList

/-- Why an operation on files fails. -/
inductive Fault
  | system (e : SystemError)
  /-- A path with a null character names nothing. -/
  | nullInPath
  /-- The bytes of a file are no text. -/
  | notText
  | writeRefused
  | missingParent
  | noSuchPath
  /-- A failure that was asked for. -/
  | injected
  /-- Any other reason, in the words of the machine. -/
  | other (message : Text)
deriving DecidableEq, Repr

def Fault.message : Fault → Text
  | .system e => e.message
  | .nullInPath => "file name contained an unexpected NUL byte".toList
  | .notText => "stream did not contain valid UTF-8".toList
  | .writeRefused => "write refused".toList
  | .missingParent => "parent directory missing".toList
  | .noSuchPath => "no such path".toList
  | .injected => "injected fault".toList
  | .other message => message

/-- A fault together with the path of the operation, as it was given. -/
structure StorageError where
  path : Path
  fault : Fault
deriving DecidableEq, Repr

def StorageError.message (e : StorageError) : Text :=
  ["IO error at ".toList, e.path.text, ": ".toList, e.fault.message].flatten

/-- A file system to prepare directories in and to write files to. -/
class Storage (m : Type → Type) where
  /-- Whether a file or a directory is there. -/
  pathExists : Path → m Bool
  /-- Creates a directory and those above it that are missing. -/
  makeDirectories : Path → m (Except StorageError Unit)
  /-- Deletes a directory with everything below it. -/
  removeTree : Path → m (Except StorageError Unit)
  /-- Writes a file, replacing what it held. -/
  write : Path → Text → m (Except StorageError Unit)
  /-- The place that a path leads to. -/
  locate : Path → m (Except StorageError Place)

/-- One entry of a directory. -/
structure Entry where
  name : Text
  isFile : Bool
deriving DecidableEq, Repr

/-- A file system to read from. -/
class SourceTree (m : Type → Type) where
  isDirectory : Path → m Bool
  /-- The entries of a directory, in any order. -/
  entries : Path → m (Except Fault (List Entry))
  readText : Path → m (Except Fault Text)

end InterfaceGen
