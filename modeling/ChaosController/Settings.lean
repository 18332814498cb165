/-
  ChaosController.Settings

  How long the controller waits before it looks at an experiment again.
-/

import ChaosController.Error

namespace ChaosController

/-- When an experiment is looked at again. -/
inductive Revisit
  /-- When its record changes. -/
  | onChange
  /-- After a delay. -/
  | after (delay : Duration)
deriving DecidableEq, Repr

/-- The delays of the controller, the deadline of an invocation, and whether events are
    published. -/
structure Settings where
  /-- After an experiment is initialized. -/
  initRevisit : Duration
  /-- After no pod matched the selector. -/
  noTargetsBackoff : Duration
  /-- After an error. -/
  errorBackoff : Duration
  /-- After a conflict. -/
  conflictBackoff : Duration
  /-- Between the attacks of a recurring experiment without a duration. -/
  recurringInterval : Duration
  reconcileTimeout : Duration
  recordEvents : Bool
deriving DecidableEq, Repr

namespace Settings

/-- The settings the controller ships with. No match takes longer to mend than an error, and
    a conflict is gone at once. -/
def standard : Settings where
  initRevisit := ⟨5 * nanosPerSecond, by decide⟩
  noTargetsBackoff := ⟨60 * nanosPerSecond, by decide⟩
  errorBackoff := ⟨30 * nanosPerSecond, by decide⟩
  conflictBackoff := ⟨1 * nanosPerSecond, by decide⟩
  recurringInterval := ⟨60 * nanosPerSecond, by decide⟩
  reconcileTimeout := ⟨30 * nanosPerSecond, by decide⟩
  recordEvents := true

/-- When an experiment is looked at again after a failed invocation. -/
def revisitAfter (settings : Settings) : Error → Revisit
  | .conflict _ => .after settings.conflictBackoff
  | _ => .after settings.errorBackoff

end Settings

end ChaosController
