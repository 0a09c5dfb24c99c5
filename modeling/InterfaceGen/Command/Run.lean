import InterfaceGen.Command.Convert
import InterfaceGen.Command.Help
import InterfaceGen.Command.Setup

/-! The program: arguments in, an exit code and two channels of text out. -/

namespace InterfaceGen.Command

/-- What a run of the program leaves behind besides its files. -/
structure Result where
  exitCode : Nat
  transcript : Transcript
deriving DecidableEq, Repr

def versionText : Text := "mtt 0.1.0\n".toList

/-- A run that prints some text and does nothing else. -/
def Result.printing (text : Text) : Result := ⟨0, { output := text }⟩

/-- The result of wrong arguments. -/
def Result.rejection : Result := ⟨2, { errors := "error: invalid arguments\n".toList }⟩

variable {m : Type → Type} [Monad m]

/-- Runs a command from its start to its end; a failure is told on the error channel. -/
def Session.result (session : Session m Unit) : m Result := do
  match ← session.run.run {} with
  | (.ok (), t) => return ⟨0, t⟩
  | (.error failure, t) =>
    let told := ["\nError: ".toList, failure.message, "\n\n".toList].flatten
    return ⟨1, { t with errors := t.errors ++ told }⟩

def Request.run [Storage m] [SourceTree m] (project : Path) : Request → m Result
  | .setup r => (Command.setup project r).result
  | .convert r => (Command.convert project r).result
  | .help topic => return .printing (topic.lines.flatMap (· ++ ['\n']))
  | .version => return .printing versionText

/-- Runs the program in the directory `project`. -/
def run [Storage m] [SourceTree m] (project : Path) (arguments : List Text) : m Result :=
  match Request.ofArguments arguments with
  | none => return .rejection
  | some request => request.run project

end InterfaceGen.Command
