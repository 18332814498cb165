/-
  ChaosController.Schedule

  What an experiment needs next, told from its mode, its duration, its recorded status and
  the time.

  Nothing but the phase and the time of the last attack is read from the status. A trigger
  that is delivered again inside the duration of a run has to wait, so it cannot kill a
  second pod.
-/

import ChaosController.Experiment

namespace ChaosController

/-- What an experiment needs next. -/
inductive Decision
  /-- It is seen for the first time. -/
  | enroll
  /-- Its next run begins. -/
  | retrigger
  | attack
  | waitFor (delay : Duration)
  /-- Its run is over. -/
  | complete
  /-- Nothing, ever. -/
  | terminate
deriving DecidableEq, Repr

/-- What a finished experiment needs: a recurring one runs again as soon as its duration
    has passed since the last attack. -/
def scheduleFinished (mode : Mode) (duration elapsed : Option Duration) : Decision :=
  match mode, duration, elapsed with
  | .oneShot, _, _ => .terminate
  | .recurring, some d, some e => if e < d then .waitFor (d.minus e) else .retrigger
  | .recurring, _, _ => .retrigger

/-- What an experiment needs that waits for its attack or has been attacked: a run is over
    when its duration has passed since the last attack, and a one-shot run without a
    duration when there has been an attack. -/
def scheduleActive (mode : Mode) (duration elapsed : Option Duration) : Decision :=
  match duration, elapsed with
  | some d, some e => if d ≤ e then .complete else .waitFor (d.minus e)
  | none, some _ => if mode = .oneShot then .complete else .attack
  | _, none => .attack

/-- What an experiment needs next. -/
def schedule (mode : Mode) (duration : Option Duration) (status : Option Status)
    (now : Instant) : Decision :=
  match status.bind Status.phase with
  | none => .enroll
  | some phase =>
    let elapsed := (status.bind Status.lastRun).map now.elapsed
    if phase.isFinished then scheduleFinished mode duration elapsed
    else scheduleActive mode duration elapsed

/-- The delay after an attack, or none if the run is over with it. -/
def delayAfterAttack (mode : Mode) (duration : Option Duration) (interval : Duration) :
    Option Duration :=
  match duration, mode with
  | some d, _ => some d
  | none, .recurring => some interval
  | none, .oneShot => none

end ChaosController
