/-
  ChaosController.Experiment.Checks

  Checks of experiments whose failures are errors of the controller.
-/

import ChaosController.Error
import ChaosController.Experiment

namespace ChaosController

/-- Reads the name of a phase, which has to be known. -/
def Phase.read (name : String) : Except Error Phase :=
  match ofText? name with
  | some phase => .ok phase
  | none => .error (.serialization ("invalid experiment phase: " ++ name ++
      ", expected one of: Pending, Running, Completed, Failed"))

/-- The error of an experiment whose spec is invalid. -/
def SpecError.error (experiment : String) (cause : SpecError) : Error :=
  .validation experiment cause.message

/-- The result of a check, unless it aborts the process. -/
def Verdict.result? (experiment : String) : Verdict → Option (Except Error (Option Duration))
  | valid duration => some (.ok duration)
  | invalid cause => some (.error (cause.error experiment))
  | abort => none

namespace Spec

/-- The duration of a spec, unless reading it aborts the process. Errors name no
    experiment. -/
def readDuration (text : Option String) : Option (Except Error (Option Duration)) :=
  (checkDuration text).result? Error.unknownContext

/-- Checks the spec of an experiment and gives its duration, unless reading it aborts the
    process. -/
def validate (experiment : String) (s : Spec) : Option (Except Error (Option Duration)) :=
  s.verdict.result? experiment

end Spec

end ChaosController
