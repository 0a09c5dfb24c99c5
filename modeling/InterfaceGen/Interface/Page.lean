import InterfaceGen.Text.Basic

/-! A page of text under construction. Lines are indented by as many units as the current depth. -/

namespace InterfaceGen

structure Page where
  /-- The unit of indentation. -/
  unit : Text
  depth : Nat := 0
  text : Text := []
deriving DecidableEq, Repr

namespace Page

def add (p : Page) (t : Text) : Page := { p with text := p.text ++ t }

/-- Indentation, then the text. -/
def addIndented (p : Page) (t : Text) : Page :=
  p.add ((List.replicate p.depth p.unit).flatten ++ t)

def addLine (p : Page) (t : Text) : Page := (p.addIndented t).add ['\n']

/-- An empty line is not indented. -/
def addBlankLine (p : Page) : Page := p.add ['\n']

def addLines (p : Page) (ts : List Text) : Page := ts.foldl addLine p

def indent (p : Page) : Page := { p with depth := p.depth + 1 }

/-- The depth does not fall below zero. -/
def dedent (p : Page) : Page := { p with depth := p.depth - 1 }

end Page

end InterfaceGen
