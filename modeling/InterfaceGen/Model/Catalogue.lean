import InterfaceGen.Finding
import InterfaceGen.Model.Basic

/-! A catalogue holds all models of a run and finds them by name. Of several models with one name
the first counts; each of the others is reported. -/

namespace InterfaceGen

structure Catalogue where
  /-- All models, in the order given. -/
  models : List Model := []
  /-- The first model of each name, in the same order. -/
  firsts : List Model := []
  /-- One finding per model that an earlier one of its name hides. -/
  duplicates : List Finding := []
deriving DecidableEq, Repr

namespace Catalogue

/-- The first model with the given name. -/
def find? (c : Catalogue) (name : Text) : Option Model := c.firsts.find? (·.name == name)

/-- The finding for a model that `first` hides. -/
def duplicate (first m : Model) : Finding where
  severity := .warning
  rule := "duplicate-model".toList
  message := ["model `".toList, m.name, "` is also defined in ".toList, first.path.text,
    "; references resolve to that one".toList].flatten
  location := .file m.path
  suggestion? := some "rename one of the files".toList

def add (c : Catalogue) (m : Model) : Catalogue :=
  match c.find? m.name with
  | none => { c with models := c.models ++ [m], firsts := c.firsts ++ [m] }
  | some first =>
    { c with models := c.models ++ [m], duplicates := c.duplicates ++ [duplicate first m] }

def ofModels (models : List Model) : Catalogue := models.foldl add {}

end Catalogue

end InterfaceGen
