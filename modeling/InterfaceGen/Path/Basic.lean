import InterfaceGen.Text.Basic

/-! Paths in which slashes separate the components. A path keeps its text as it was given, since
messages quote it. Two spellings name the same components when they differ in repeated slashes, in
a trailing slash or in dots other than a leading one. -/

namespace InterfaceGen

structure Path where
  text : Text
deriving DecidableEq, Repr

/-- One component of a path: the root, the directory itself, the one above, or a name. -/
inductive Component
  | root
  | here
  | up
  | name (n : Text)
deriving DecidableEq, Repr

def Component.ofSegment (s : Text) : Component :=
  if s = ['.'] then .here else if s = ['.', '.'] then .up else .name s

namespace Path

def ofString (s : String) : Path := ⟨s.toList⟩

def isAbsolute (p : Path) : Bool := p.text.head? == some '/'

/-- What stands between the slashes; the first segment of an absolute path is empty. -/
def segments (p : Path) : List Text := p.text.splitOn '/'

/-- Segments that lead nowhere: the empty one between two slashes, and the dot. -/
def isIdle (s : Text) : Bool := s.isEmpty || s == ['.']

def components (p : Path) : List Component :=
  match p.segments with
  | [] => []
  | first :: rest =>
    let below := (rest.filter (!isIdle ·)).map Component.ofSegment
    if first.isEmpty then if rest.isEmpty then [] else .root :: below
    else .ofSegment first :: below

/-- Whether two paths have the same components. -/
def Same (p q : Path) : Prop := p.components = q.components

instance (p q : Path) : Decidable (p.Same q) := inferInstanceAs (Decidable (_ = _))

/-- The path `q` seen from the directory `p`. -/
def join (p q : Path) : Path :=
  if q.isAbsolute then q
  else if p.text.isEmpty || p.text.getLast? == some '/' then ⟨p.text ++ q.text⟩
  else ⟨p.text ++ '/' :: q.text⟩

/-- The path of the entry `n` of the directory `p`. -/
def child (p : Path) (n : Text) : Path := p.join ⟨n⟩

def withoutIdleEnd (segments : List Text) : List Text :=
  (segments.reverse.dropWhile isIdle).reverse

/-- The path without its last component; the root and the empty path have no parent. -/
def parent? (p : Path) : Option Path :=
  match p.segments with
  | [] => none
  | first :: rest =>
    match (withoutIdleEnd rest).reverse with
    | [] => if first.isEmpty then none else some ⟨[]⟩
    | _ :: above =>
      let above := withoutIdleEnd above.reverse
      if first.isEmpty then some ⟨'/' :: ['/'].intercalate above⟩
      else some ⟨['/'].intercalate (first :: above)⟩

/-- The last `n` steps upwards from a path, the path itself first. -/
def climb : Nat → Path → List Path
  | 0, _ => []
  | n + 1, p =>
    p :: match p.parent? with
      | none => []
      | some q => climb n q

/-- The path and the paths above it, except for the root and the empty path. -/
def lineage (p : Path) : List Path :=
  (p.climb (p.components.length + 1)).filter fun q => q.parent?.isSome

/-- The last component, if it is a name. -/
def fileName? (p : Path) : Option Text :=
  match p.components.getLast? with
  | some (.name n) => some n
  | _ => none

/-- Skips the first `n` segments that lead somewhere. -/
def dropSegments : Nat → List Text → List Text
  | 0, segments => segments
  | n + 1, segments =>
    match segments.dropWhile isIdle with
    | [] => []
    | _ :: rest => dropSegments n rest

/-- What follows the components of `base` in a path that begins with them. -/
def relativeTo? (p base : Path) : Option Path :=
  if base.components.isPrefixOf p.components then
    match base.components.length, p.segments with
    | n + 1, _ :: rest =>
      some ⟨['/'].intercalate (withoutIdleEnd ((dropSegments n rest).dropWhile isIdle))⟩
    | _, _ => some p
  else none

end Path

/-! A file name is cut at its last dot. A dot in front starts a hidden name, no extension. -/

namespace FileName

/-- The stem and the extension of a file name. -/
def cut (n : Text) : Text × Option Text :=
  match Text.splitAt? '.' n.reverse with
  | none => (n, none)
  | some (extension, stem) =>
    if stem.isEmpty then (n, none) else (stem.reverse, some extension.reverse)

def stem (n : Text) : Text := (cut n).1

def extension? (n : Text) : Option Text := (cut n).2

/-- Whether the name starts with a dot. -/
def isHidden (n : Text) : Bool := n.head? == some '.'

end FileName

end InterfaceGen
