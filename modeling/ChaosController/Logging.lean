/-
  ChaosController.Logging

  Setting up the log of the program.

  A process has one log. It is set up once, and a second attempt fails and changes nothing.
-/

namespace ChaosController

/-- Which entries the log keeps. -/
def defaultLogFilter : String := "info,kubechaos=debug,kube=info,tower=warn,hyper=warn"

/-- How log entries are written. -/
inductive LogFormat
  /-- For people to read. -/
  | text
  /-- One JSON document a line. -/
  | json
deriving DecidableEq, Repr

/-- The log of a process. -/
structure Log where
  format : LogFormat
  filter : String
deriving DecidableEq, Repr

/-- Why a log is not set up. -/
inductive LogError
  | alreadyInstalled
deriving DecidableEq, Repr

/-- The wording of an error. -/
def LogError.message : LogError → String
  | alreadyInstalled => "failed to initialize tracing subscriber: " ++
      "a global default trace dispatcher has already been set"

/-- Sets up the log of a process that has the log `installed`, if any. -/
def installLog (installed : Option Log) (format : LogFormat) : Except LogError Log :=
  match installed with
  | some _ => .error .alreadyInstalled
  | none => .ok ⟨format, defaultLogFilter⟩

end ChaosController
