import InterfaceGen.Conversion.Run
import InterfaceGen.Settings.Reader

/-! What a command writes to its two channels, and why it may give up. What it has written by then
stays written. -/

namespace InterfaceGen.Command

/-- What has been written to the output and to the error channel. -/
structure Transcript where
  output : Text := []
  errors : Text := []
deriving DecidableEq, Repr

inductive Failure
  | conversion (e : ConversionError)
  | storage (fault : Fault)
  | settings (r : Json.Refusal)
deriving DecidableEq, Repr

def Failure.message : Failure → Text
  | .conversion e => e.message
  | .storage fault => fault.message
  | .settings .malformed => "the settings are not valid JSON".toList
  | .settings .unfinished => "the settings end too early".toList
  | .settings .unwanted => "the settings hold a value of the wrong type".toList

/-- A command at work. -/
abbrev Session (m : Type → Type) := ExceptT Failure (StateT Transcript m)

namespace Session

variable {m : Type → Type} [Monad m]

/-- Writes a line to the output. -/
def say (parts : List Text) : Session m Unit :=
  modify fun t => { t with output := t.output ++ parts.flatten ++ ['\n'] }

/-- Writes text to the output that brings its own line ends. -/
def put (text : Text) : Session m Unit := modify fun t => { t with output := t.output ++ text }

/-- Writes a line to the error channel. -/
def warn (parts : List Text) : Session m Unit :=
  modify fun t => { t with errors := t.errors ++ parts.flatten ++ ['\n'] }

/-- Asks the file system something that cannot fail. -/
def ask {α : Type} (question : m α) : Session m α := fun t => do return (.ok (← question), t)

/-- Runs something that may fail on the file system. -/
def perform {ε α : Type} (cause : ε → Failure) (action : m (Except ε α)) : Session m α :=
  fun t => do return ((← action).mapError cause, t)

end Session

/-- The settings of a project; a project without a settings file has the default ones. -/
def loadSettings {m : Type → Type} [Monad m] [Storage m] [SourceTree m] (project : Path) :
    Session m Settings := do
  let file := project.child Settings.fileName
  if ← Session.ask (Storage.pathExists file) then
    let text ← Session.perform .storage (SourceTree.readText file)
    Session.perform .settings (pure (Settings.ofText text))
  else return {}

end InterfaceGen.Command
