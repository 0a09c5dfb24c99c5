import InterfaceGen.Command.Basic
import InterfaceGen.Command.Session

/-! The command that converts a project, or prints what a conversion would write. -/

namespace InterfaceGen.Command

/-- The settings with what the request overrides. An empty suffix means none. -/
def ConvertRequest.apply (r : ConvertRequest) (s : Settings) : Settings where
  working? := r.working? <|> s.working?
  output? := r.output? <|> s.output?
  banner := s.banner && !r.noBanner
  suffix? :=
    match r.suffix? with
    | none => s.suffix?
    | some suffix => if suffix.isEmpty then none else some suffix
  extensions := s.extensions
  dates := s.dates && !r.noDates
  extension := s.extension

variable {m : Type → Type} [Monad m]

/-- Writes findings to the error channel; mere information only when `verbose` is set. -/
def reportFindings (verbose : Bool) (findings : List Finding) : Session m Unit :=
  (findings.filter fun f => f.isWarning || verbose).forM fun f => do
    Session.warn ["  ".toList, f.render]
    f.suggestion?.toList.forM fun s => Session.warn ["    💡 ".toList, s]

/-- Prints a generated file under its path. -/
def printFile (f : GeneratedFile) : Session m Unit := do
  Session.say []
  Session.say ["// ".toList, f.path.text]
  Session.put f.contents

/-- The closing line of a conversion. -/
def summary (r : Report) : List Text :=
  let count := Nat.toDigits 10 r.written.length
  if r.warnings = 0 then ["✅ Converted ".toList, count, " models successfully".toList]
  else
    ["\u26a0\ufe0f Converted ".toList, count, " models, ".toList, Nat.toDigits 10 r.warnings,
      " warnings".toList]

/-- Tells what has been written, seen from the output directory. -/
def reportWritten (plan : Plan) (r : Report) : Session m Unit := do
  if r.written.isEmpty then Session.say ["\u26a0\ufe0f  No model files found".toList]
  else
    r.written.forM fun p =>
      Session.say ["  ✓ ".toList, ((p.relativeTo? plan.output).getD p).text]
    Session.say []
    Session.say (summary r)

def convert [Storage m] [SourceTree m] (project : Path) (r : ConvertRequest) :
    Session m Unit := do
  let plan := (r.apply (← loadSettings project)).plan project
  Session.say ["🔨 Converting models...".toList]
  Session.say ["   Models: ".toList, plan.working.text]
  if r.toStdout then
    let generation ← Session.perform .conversion (plan.generate Source.load).run
    reportFindings r.verbose generation.findings
    generation.files.forM printFile
  else
    Session.say ["   Output: ".toList, plan.output.text]
    let report ← Session.perform .conversion (plan.convert Source.load).run
    reportFindings r.verbose report.findings
    reportWritten plan report

end InterfaceGen.Command
