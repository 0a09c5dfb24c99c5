import InterfaceGen.Path.Basic

/-! Findings: what the program reports about its input without stopping. -/

namespace InterfaceGen

inductive Severity
  | warning
  | info
deriving DecidableEq, Repr

def Severity.label : Severity → Text
  | .warning => "warning".toList
  | .info => "info".toList

/-- A file, and the line in it where one line is meant; lines count from one. -/
structure Location where
  path : Path
  line? : Option Nat
deriving DecidableEq, Repr

namespace Location

def file (path : Path) : Location := ⟨path, none⟩

def line (path : Path) (n : Nat) : Location := ⟨path, some n⟩

/-- `path` or `path:line`. -/
def render (l : Location) : Text :=
  match l.line? with
  | none => l.path.text
  | some n => l.path.text ++ ':' :: Nat.toDigits 10 n

end Location

structure Finding where
  severity : Severity
  /-- The short name of the check that fired. -/
  rule : Text
  message : Text
  location : Location
  suggestion? : Option Text
deriving DecidableEq, Repr

namespace Finding

def isWarning (f : Finding) : Bool := f.severity == .warning

/-- `severity [rule] location: message`. -/
def render (f : Finding) : Text :=
  [f.severity.label, " [".toList, f.rule, "] ".toList, f.location.render, ": ".toList,
    f.message].flatten

end Finding

end InterfaceGen
