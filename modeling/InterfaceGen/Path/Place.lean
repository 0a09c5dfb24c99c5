import InterfaceGen.Path.Basic

/-! Places are the normal forms of paths: a dot is dropped and a double dot takes the name before it
away, without asking which directories exist. The double dot has no effect at the root or where
nothing is left to take away. -/

namespace InterfaceGen

/-- A list of names, seen from the root or from an unnamed starting point. -/
structure Place where
  rooted : Bool
  names : List Text
deriving DecidableEq, Repr

namespace Place

/-- Where a walk starts. -/
def start : Place := ⟨false, []⟩

def root : Place := ⟨true, []⟩

def components (p : Place) : List Component :=
  (if p.rooted then [.root] else []) ++ p.names.map .name

def child (p : Place) (n : Text) : Place := ⟨p.rooted, p.names ++ [n]⟩

/-- One name less; the root and the starting point stay. -/
def above (p : Place) : Place := ⟨p.rooted, p.names.dropLast⟩

def step (p : Place) : Component → Place
  | .root => root
  | .here => p
  | .up => p.above
  | .name n => p.child n

def ofPath (p : Path) : Place := p.components.foldl step start

def toPath (p : Place) : Path :=
  ⟨(if p.rooted then ['/'] else []) ++ ['/'].intercalate p.names⟩

/-- Whether a place is `base` or lies below it. -/
def isWithin (p base : Place) : Bool := base.components.isPrefixOf p.components

/-- The place that must be a directory before something can be put at `p`, if there is one. -/
def parent? (p : Place) : Option Place :=
  if p.names.isEmpty then none else if p.above = start then none else some p.above

/-- The place and all places above it, the starting point aside. -/
def lineage (p : Place) : List Place :=
  ((List.range (p.names.length + 1)).map fun k => (⟨p.rooted, p.names.take k⟩ : Place)).filter
    (· ≠ start)

/-- The order of the component lists: a root before a name, and what ends first before the rest. -/
def le (p q : Place) : Bool :=
  match p.rooted, q.rooted with
  | true, false => !q.names.isEmpty
  | false, true => p.names.isEmpty
  | _, _ => Sorting.lexicographic Text.le p.names q.names

end Place

/-- The normal form of a path. -/
def Path.normalize (p : Path) : Path := (Place.ofPath p).toPath

end InterfaceGen
