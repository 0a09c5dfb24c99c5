import InterfaceGen.Storage.Basic
import InterfaceGen.Storage.Tree

/-! A disk as an operating system of the Unix family shows it. A path is walked from directory to
directory, so a double dot behind a missing directory leads nowhere. There are no links. A locked
file or directory cannot be opened to be read; every directory may be walked through and changed, and
every file be written. Files hold bytes. -/

namespace InterfaceGen

/-- The files of a machine and the directory in which a program runs. -/
structure Disk where
  tree : Tree ByteArray := { dirs := [.root] }
  current : Place := .root

namespace Disk

/-- The bytes that the name of an entry may take at most. -/
def nameLimit : Nat := 255

/-- The bytes that a path must stay below. -/
def pathLimit : Nat := 4096

/-- Walks along the segments of a path. Every segment, an idle one too, asks for a directory. -/
def walk (d : Disk) : Place → List Text → Except Fault Place
  | p, [] => .ok p
  | p, s :: rest =>
    if !d.tree.hasDir p then .error (.system .notDirectory)
    else if Path.isIdle s then d.walk p rest
    else if s = ['.', '.'] then d.walk p.above rest
    else if Text.utf8Size s > nameLimit then .error (.system .nameTooLong)
    else if d.tree.contains (p.child s) then d.walk (p.child s) rest
    else .error (.system .noEntry)

/-- Where the walk along a path starts. -/
def origin (d : Disk) (p : Path) : Place := if p.isAbsolute then .root else d.current

/-- The fault of a text that cannot be a path on any disk. -/
def pathFault? (p : Path) : Option Fault :=
  if p.text.contains '\x00' then some .nullInPath
  else if p.text.isEmpty then some (.system .noEntry)
  else if Text.utf8Size p.text ≥ pathLimit then some (.system .nameTooLong)
  else none

/-- The place that a path leads to. -/
def locate (d : Disk) (p : Path) : Except Fault Place :=
  match pathFault? p with
  | some fault => .error fault
  | none => d.walk (d.origin p) p.segments

/-- The directory that holds the last component of a path, and that component. Only slashes may
follow it. -/
def holder (d : Disk) (p : Path) : Except Fault (Place × Component) :=
  match pathFault? p with
  | some fault => .error fault
  | none =>
    match p.segments.reverse.dropWhile (·.isEmpty) with
    | [] => .ok (.root, .root)
    | last :: above => do
      let dir ← d.walk (d.origin p) above.reverse
      if d.tree.hasDir dir then .ok (dir, .ofSegment last) else .error (.system .notDirectory)

def pathExists (d : Disk) (p : Path) : Bool := (d.locate p).isOk

def isDirectory (d : Disk) (p : Path) : Bool :=
  match d.locate p with
  | .ok place => d.tree.hasDir place
  | .error _ => false

/-- Creates a directory in one that exists. -/
def makeDirectory (d : Disk) (p : Path) : Except Fault Disk := do
  match ← d.holder p with
  | (dir, .name n) =>
    if Text.utf8Size n > nameLimit then .error (.system .nameTooLong)
    else if d.tree.contains (dir.child n) then .error (.system .alreadyExists)
    else .ok { d with tree := d.tree.addDir (dir.child n) }
  | _ => .error (.system .alreadyExists)

/-- The outcome of an operation that may stop halfway: what was done before a fault stays. -/
abbrev Outcome := Except Fault Unit × Disk

/-- Creates the first path of a list; when its directory is missing, the rest of the list comes
first. A directory that is already there is no fault. -/
def makeLineage (d : Disk) : List Path → Outcome
  | [] => (.ok (), d)
  | p :: above =>
    match d.makeDirectory p with
    | .ok d' => (.ok (), d')
    | .error (.system .noEntry) =>
      match d.makeLineage above with
      | (.error fault, d') => (.error fault, d')
      | (.ok (), d') =>
        match d'.makeDirectory p with
        | .ok d'' => (.ok (), d'')
        | .error fault => (if d'.isDirectory p then .ok () else .error fault, d')
    | .error fault => (if d.isDirectory p then .ok () else .error fault, d)

/-- Creates a directory and those above it that are missing. -/
def makeDirectories (d : Disk) (p : Path) : Outcome := d.makeLineage p.lineage

/-- Deletes an empty directory. -/
def removeDirectory (d : Disk) (p : Path) : Except Fault Disk := do
  match ← d.holder p with
  | (_, .root) => .error (.system .busy)
  | (_, .here) => .error (.system .invalid)
  | (_, .up) => .error (.system .notEmpty)
  | (dir, .name n) =>
    let place := dir.child n
    if !d.tree.contains place then .error (.system .noEntry)
    else if !d.tree.hasDir place then .error (.system .notDirectory)
    else .ok { d with tree := d.tree.remove (· == place) }

/-- Whether a locked directory lies at a place or below it. -/
def holdsLocked (d : Disk) (place : Place) : Bool :=
  d.tree.dirs.any fun q => q.isWithin place && d.tree.isLocked q

/-- Empties a directory and then deletes it. Every directory is opened to be emptied, so a locked one
stops it; in the order taken here the way to that one comes first, and nothing has been deleted by
then. When the way to the directory led through one below it, the path leads nowhere after the first
step, and the directory stays, empty. -/
def removeTree (d : Disk) (p : Path) : Outcome :=
  match d.locate p with
  | .error fault => (.error fault, d)
  | .ok place =>
    if !d.tree.hasDir place then (.error (.system .notDirectory), d)
    else if d.holdsLocked place then (.error (.system .denied), d)
    else
      let emptied := { d with tree := d.tree.remove fun q => q.isWithin place && q != place }
      match emptied.removeDirectory p with
      | .ok d' => (.ok (), d')
      | .error (.system .noEntry) => (.ok (), emptied)
      | .error fault => (.error fault, emptied)

/-- Writes a file into a directory that exists. -/
def write (d : Disk) (p : Path) (contents : ByteArray) : Except Fault Disk := do
  match ← d.holder p with
  | (dir, .name n) =>
    if p.text.getLast? == some '/' then .error (.system .isDirectory)
    else if Text.utf8Size n > nameLimit then .error (.system .nameTooLong)
    else if d.tree.hasDir (dir.child n) then .error (.system .isDirectory)
    else .ok { d with tree := d.tree.addFile (dir.child n) contents }
  | _ => .error (.system .isDirectory)

/-- The text of a file. -/
def readText (d : Disk) (p : Path) : Except Fault Text := do
  let place ← d.locate p
  if d.tree.isLocked place then .error (.system .denied)
  else
    match d.tree.file? place with
    | none => .error (.system .isDirectory)
    | some bytes =>
      match String.fromUTF8? bytes with
      | none => .error .notText
      | some text => .ok text.toList

/-- The entry that a place is in the directory `dir`. -/
def entryAt? (dir place : Place) (isFile : Bool) : Option Entry :=
  match place.names.getLast? with
  | some n => if place = dir.child n then some ⟨n, isFile⟩ else none
  | none => none

/-- What lies in the directory `dir`. -/
def entriesAt (d : Disk) (dir : Place) : List Entry :=
  d.tree.dirs.filterMap (entryAt? dir · false) ++ d.tree.files.filterMap (entryAt? dir ·.1 true)

/-- The entries of a directory. -/
def entries (d : Disk) (p : Path) : Except Fault (List Entry) := do
  let dir ← d.locate p
  if !d.tree.hasDir dir then .error (.system .notDirectory)
  else if d.tree.isLocked dir then .error (.system .denied)
  else return d.entriesAt dir

/-- The outcome of an operation on `p` with its fault located. -/
def settle (p : Path) : Outcome → Except StorageError Unit × Disk
  | (outcome, d) => (outcome.mapError (⟨p, ·⟩), d)

instance : Storage (StateM Disk) where
  pathExists p := do return (← get).pathExists p
  makeDirectories p := fun d => settle p (d.makeDirectories p)
  removeTree p := fun d => settle p (d.removeTree p)
  write p contents := fun d =>
    match d.write p (String.ofList contents).toUTF8 with
    | .ok d' => (.ok (), d')
    | .error fault => (.error ⟨p, fault⟩, d)
  locate p := do return ((← get).locate p).mapError (⟨p, ·⟩)

instance : SourceTree (StateM Disk) where
  isDirectory p := do return (← get).isDirectory p
  entries p := do return (← get).entries p
  readText p := do return (← get).readText p

end Disk

end InterfaceGen
