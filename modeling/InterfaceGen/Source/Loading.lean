import InterfaceGen.Model.Basic
import InterfaceGen.Sorting
import InterfaceGen.Source.Selection
import InterfaceGen.Storage.Basic

/-! Reading the sources of a working directory: the class files in it, and those in the directories
directly below it, which are the groups. Hidden files and directories are passed over, and so is
everything deeper. -/

namespace InterfaceGen

/-- Why no sources can be had. -/
inductive SourceError
  | missingRoot (root : Path)
  /-- A directory in the walk through the working directory `root` cannot be listed. -/
  | unlisted (root dir : Path) (fault : Fault)
  | unreadable (path : Path) (fault : Fault)
deriving DecidableEq, Repr

def SourceError.message : SourceError → Text
  | .missingRoot root =>
    "Working directory does not exist or is not a directory: ".toList ++ root.text
  | .unlisted root dir fault =>
    ["Failed to read directory ".toList, root.text, ": IO error for operation on ".toList, dir.text,
      ": ".toList, fault.message].flatten
  | .unreadable path fault =>
    ["Failed to read model file ".toList, path.text, ": ".toList, fault.message].flatten

/-- A class file that has been found but not read. -/
structure ClassFile where
  group : Text
  name : Text
  path : Path
deriving DecidableEq, Repr

namespace ClassFile

variable {m : Type → Type} [Monad m] [SourceTree m]

/-- The entries of a directory that are not hidden, in the order of their names. -/
def visible (root dir : Path) : ExceptT SourceError m (List Entry) := do
  match ← (SourceTree.entries dir : m (Except Fault (List Entry))) with
  | .ok entries =>
    let shown := entries.filter (!FileName.isHidden ·.name)
    return Sorting.sort (fun a b => Text.le a.name b.name) shown
  | .error fault => throw (.unlisted root dir fault)

/-- The class files among the entries of the directory of a group. -/
def inGroup (s : Selection) (group : Text) (dir : Path) (entries : List Entry) :
    List ClassFile :=
  (entries.filter fun e => e.isFile && s.accepts e.name).map fun e =>
    ⟨group, e.name, dir.child e.name⟩

/-- The class files to which one entry of the working directory leads. -/
def ofEntry (s : Selection) (root : Path) (e : Entry) : ExceptT SourceError m (List ClassFile) := do
  if e.isFile then return inGroup s [] root [e]
  else return inGroup s e.name (root.child e.name) (← visible root (root.child e.name))

def read (s : Selection) (f : ClassFile) : ExceptT SourceError m Source := do
  match ← (SourceTree.readText f.path : m (Except Fault Text)) with
  | .ok text => return ⟨Selection.typeName s.suffix? f.name, f.group, f.path, text.lines⟩
  | .error fault => throw (.unreadable f.path fault)

/-- The sources in the class files to which one entry of the working directory leads. -/
def readEntry (s : Selection) (root : Path) (e : Entry) : ExceptT SourceError m (List Source) := do
  (← ofEntry s root e).mapM (read s)

end ClassFile

/-- The sources of a working directory: first those without a group, then group by group, in the
order of the names. They are read entry by entry, and the first directory that cannot be listed or
file that cannot be read stops the reading. -/
def Source.load {m : Type → Type} [Monad m] [SourceTree m] (s : Selection) (root : Path) :
    ExceptT SourceError m (List Source) := do
  if ← (SourceTree.isDirectory root : m Bool) then
    let found ← (← ClassFile.visible root root).mapM (ClassFile.readEntry s root)
    return Sorting.sort (fun a b => Text.le a.group b.group) found.flatten
  else throw (.missingRoot root)

end InterfaceGen
