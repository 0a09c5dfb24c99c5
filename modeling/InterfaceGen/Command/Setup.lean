import InterfaceGen.Command.Basic
import InterfaceGen.Command.Session
import InterfaceGen.Settings.Printer

/-! The command that sets up a project: a working directory with an example, and the settings. What
is already there is left alone. -/

namespace InterfaceGen.Command

def exampleName : Text := "ExampleResource.cs".toList

/-- The class file that a new project starts with. -/
def exampleText : Text :=
  ["public class Example\n".toList,
    "\x7b\n".toList,
    "    public int Id \x7b get; set; \x7d\n".toList,
    "    public string Name \x7b get; set; \x7d\n".toList,
    "    public DateTime CreatedAt \x7b get; set; \x7d\n".toList,
    "    public ICollection<string> Tags \x7b get; set; \x7d\n".toList,
    "\x7d\n".toList].flatten

/-- The settings of a new project. -/
def SetupRequest.settings (r : SetupRequest) : Settings where
  working? := some r.working
  output? := some r.output
  extensions := ["cs".toList]

variable {m : Type → Type} [Monad m] [Storage m]

/-- Runs an operation on files and keeps of its failure the fault alone. -/
def performStorage (operation : m (Except StorageError Unit)) : Session m Unit :=
  Session.perform (fun e => .storage e.fault) operation

/-- Creates the working directory if it is missing. -/
def createWorking (r : SetupRequest) (working : Path) : Session m Unit := do
  if ← Session.ask (Storage.pathExists working) then return ()
  else
    performStorage (Storage.makeDirectories working)
    Session.say ["  ✓ Created ".toList, r.working, "/".toList]

/-- Writes the example if no file of its name is there. -/
def createExample (working : Path) : Session m Unit := do
  if ← Session.ask (Storage.pathExists (working.child exampleName)) then return ()
  else
    performStorage (Storage.write (working.child exampleName) exampleText)
    Session.say ["  ✓ Created ".toList, exampleName]

/-- What to do with a new project. -/
def nextSteps (r : SetupRequest) : List (List Text) :=
  [[], ["✅ Project initialized!".toList], [], ["Next steps:".toList],
    ["  1. Add model classes to ".toList, r.working, "/".toList],
    ["  2. Run: mtt convert".toList],
    ["  3. Check output in ".toList, r.output, "/".toList]]

def setup (project : Path) (r : SetupRequest) : Session m Unit := do
  let file := project.child Settings.fileName
  if (← Session.ask (Storage.pathExists file)) && !r.force then
    Session.say ["\u26a0\ufe0f ".toList, Settings.fileName, " already exists".toList]
    Session.say ["Use --force to overwrite".toList]
  else
    Session.say ["📝 Initializing MTT project...".toList]
    let working := project.child r.working
    createWorking r working
    createExample working
    performStorage (Storage.write file r.settings.toText)
    Session.say ["  ✓ Created ".toList, Settings.fileName]
    (nextSteps r).forM Session.say

end InterfaceGen.Command
