import InterfaceGen.Path.Place

/-! Directories and files by their places, and which of them may be read. Nothing is required of a
tree here: a file may lie where no directory is. -/

namespace InterfaceGen

/-- A set of directories, and files with contents of type `α`. -/
structure Tree (α : Type) where
  dirs : List Place := []
  files : List (Place × α) := []
  /-- The directories and files that may not be opened to be read. -/
  locked : List Place := []
deriving DecidableEq

namespace Tree

variable {α : Type}

def hasDir (t : Tree α) (p : Place) : Bool := t.dirs.contains p

/-- The contents of the file at `p`. -/
def file? (t : Tree α) (p : Place) : Option α := t.files.lookup p

def contains (t : Tree α) (p : Place) : Bool := t.hasDir p || (t.file? p).isSome

def isLocked (t : Tree α) (p : Place) : Bool := t.locked.contains p

def addDir (t : Tree α) (p : Place) : Tree α :=
  if t.hasDir p then t else { t with dirs := t.dirs ++ [p] }

/-- The file at `p` gets the given contents, whether it was there or not. -/
def addFile (t : Tree α) (p : Place) (contents : α) : Tree α :=
  { t with files := t.files.filter (·.1 != p) ++ [(p, contents)] }

/-- Without what satisfies `gone`. -/
def remove (t : Tree α) (gone : Place → Bool) : Tree α :=
  ⟨t.dirs.filter (!gone ·), t.files.filter (!gone ·.1), t.locked.filter (!gone ·)⟩

end Tree

end InterfaceGen
