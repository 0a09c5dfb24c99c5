import InterfaceGen.Interface.Printer
import InterfaceGen.Source.Selection

/-! What one conversion is to do. -/

namespace InterfaceGen

structure Plan where
  /-- The working directory, in which the class files lie. -/
  working : Path
  /-- The directory below which the interface files are written. -/
  output : Path
  /-- Whether an existing output directory is emptied first. -/
  clean : Bool := true
  selection : Selection := {}
  /-- Whether `DateTime` has a type of its own. -/
  dates : Bool := true
  layout : Layout := {}
deriving DecidableEq, Repr

end InterfaceGen
