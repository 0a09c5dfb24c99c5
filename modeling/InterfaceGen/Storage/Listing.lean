import InterfaceGen.Sorting
import InterfaceGen.Storage.Disk
import InterfaceGen.Storage.Memory

/-! Listings of what a file system holds, in a fixed order, and disks made from such a listing. -/

namespace InterfaceGen

namespace Memory

def sortedDirs (m : Memory) : List Place := Sorting.sort (fun p q => p.le q) m.tree.dirs

def sortedFiles (m : Memory) : List (Place × Text) :=
  Sorting.sort (fun p q => p.1.le q.1) m.tree.files

end Memory

namespace Disk

/-- Puts a directory, or a file with the given bytes, at a path seen from the current directory,
with all directories above it. -/
def plant (d : Disk) (p : Path) (bytes? : Option ByteArray) : Disk :=
  let place := p.components.foldl Place.step d.current
  match bytes? with
  | none => { d with tree := place.lineage.foldl Tree.addDir d.tree }
  | some bytes =>
    { d with tree := (place.above.lineage.foldl Tree.addDir d.tree).addFile place bytes }

/-- A place below the current directory as a path from there. -/
def below? (d : Disk) (place : Place) : Option Path :=
  if place.isWithin d.current && place != d.current then
    some (Place.toPath ⟨false, place.names.drop d.current.names.length⟩)
  else none

/-- Every directory and every file below the current directory, in the order of their paths. -/
def listing (d : Disk) : List (Path × Option ByteArray) :=
  let dirs := d.tree.dirs.filterMap fun p => (d.below? p).map (·, none)
  let files := d.tree.files.filterMap fun (p, bytes) => (d.below? p).map (·, some bytes)
  Sorting.sort (fun a b => Text.le a.1.text b.1.text) (dirs ++ files)

end Disk

end InterfaceGen
