import InterfaceGen.Conversion.Error
import InterfaceGen.Conversion.Plan

/-! Getting the directories of a conversion ready. Clearing the output directory is the only
deletion there is, and it is refused when the working directory lies in the output directory. -/

namespace InterfaceGen.Plan

variable {m : Type → Type} [Monad m] [Storage m]

/-- Creates the working directory if it is missing; there is nothing to convert then. -/
def ensureWorking (plan : Plan) : ExceptT ConversionError m Unit := do
  if ← (Storage.pathExists plan.working : m Bool) then return ()
  else attempt (Storage.makeDirectories plan.working) (.workingNotCreated plan.working)

def locate (dir : Path) : ExceptT ConversionError m Place :=
  attempt (Storage.locate dir) (.notLocated dir)

/-- Deletes the output directory if it is there and does not hold the working directory. -/
def clearOutput (plan : Plan) : ExceptT ConversionError m Unit := do
  if ← (Storage.pathExists plan.output : m Bool) then
    let working ← locate plan.working
    let output ← locate plan.output
    if working.isWithin output then throw (.outputHoldsWorking plan.output plan.working)
    else attempt (Storage.removeTree plan.output) (.outputNotCleared plan.output)
  else return ()

/-- Gets both directories ready. -/
def prepare (plan : Plan) : ExceptT ConversionError m Unit := do
  ensureWorking plan
  (if plan.clean then clearOutput plan else return ())
  attempt (Storage.makeDirectories plan.output) (.outputNotCreated plan.output)

end InterfaceGen.Plan
