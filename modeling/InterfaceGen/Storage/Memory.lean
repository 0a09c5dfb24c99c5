import InterfaceGen.Storage.Basic
import InterfaceGen.Storage.Tree

/-! Files in memory. Paths are taken by their normal form, so there are no links and a double dot
asks for no directory. Single operations can be told to fail. -/

namespace InterfaceGen

/-- The operations that can be told to fail. -/
inductive Operation
  | makeDirectories
  | removeTree
  | write
  | locate
deriving DecidableEq, Repr

structure Memory where
  tree : Tree Text := {}
  /-- Writing to this place is refused. -/
  refused? : Option Path := none
  /-- Each of these operations fails when it is given a path with the same components. -/
  faults : List (Operation × Path) := []
deriving DecidableEq

namespace Memory

def fails (m : Memory) (op : Operation) (p : Path) : Bool :=
  m.faults.any fun (o, q) => o == op && decide (q.Same p)

def pathExists (m : Memory) (p : Path) : Bool := m.tree.contains (.ofPath p)

/-- The contents of the file that a path leads to. -/
def read? (m : Memory) (p : Path) : Option Text := m.tree.file? (.ofPath p)

def addDir (m : Memory) (p : Path) : Memory := { m with tree := m.tree.addDir (.ofPath p) }

def addFile (m : Memory) (p : Path) (contents : Text) : Memory :=
  { m with tree := m.tree.addFile (.ofPath p) contents }

def makeDirectories (m : Memory) (p : Path) : Except Fault Memory :=
  if m.fails .makeDirectories p then .error .injected
  else .ok { m with tree := (Place.ofPath p).lineage.foldl Tree.addDir m.tree }

def removeTree (m : Memory) (p : Path) : Except Fault Memory :=
  if m.fails .removeTree p then .error .injected
  else .ok { m with tree := m.tree.remove (·.isWithin (.ofPath p)) }

/-- Whether the directory in which `p` is to lie is there. -/
def hasParent (m : Memory) (p : Place) : Bool :=
  match p.parent? with
  | none => true
  | some q => m.tree.hasDir q

def write (m : Memory) (p : Path) (contents : Text) : Except Fault Memory :=
  if m.fails .write p then .error .injected
  else if m.refused?.map Place.ofPath = some (.ofPath p) then .error .writeRefused
  else if m.hasParent (.ofPath p) then .ok (m.addFile p contents)
  else .error .missingParent

def locate (m : Memory) (p : Path) : Except Fault Place :=
  if m.fails .locate p then .error .injected
  else if m.pathExists p then .ok (.ofPath p)
  else .error .noSuchPath

/-- The outcome of an operation on `p`: a failed one leaves the memory as it was. -/
def settle (p : Path) (m : Memory) : Except Fault Memory → Except StorageError Unit × Memory
  | .ok m' => (.ok (), m')
  | .error fault => (.error ⟨p, fault⟩, m)

instance : Storage (StateM Memory) where
  pathExists p := do return (← get).pathExists p
  makeDirectories p := fun m => settle p m (m.makeDirectories p)
  removeTree p := fun m => settle p m (m.removeTree p)
  write p contents := fun m => settle p m (m.write p contents)
  locate p := do return ((← get).locate p).mapError (⟨p, ·⟩)

end Memory

end InterfaceGen
