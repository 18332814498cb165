/-
  ChaosController.Reconcile

  What the controller does when an experiment is to be looked at.

  An invocation reads the record, decides what the experiment needs, and writes each step to
  the record before it takes the next one. Every write rests on the record that was read or
  written last, so a record that somebody else has changed in the meantime is left alone.
  Each accepted write is followed by an event.
-/

import ChaosController.Attack
import ChaosController.Experiment.Checks
import ChaosController.Schedule
import ChaosController.Settings

namespace ChaosController

namespace Reconcile

/-! ## Messages -/

/-- The message of a run that ends with its duration. -/
def completedMessage : String := "Experiment completed successfully."

/-- The message of a one-shot run that ends with its attack. -/
def completedAtOnceMessage : String :=
  "One-shot experiment completed successfully (no duration specified)."

/-! ## Status writes -/

/-- What is constant in an invocation. -/
structure Context where
  settings : Settings
  /-- The name of the experiment that is looked at. -/
  name : String
  now : Instant

/-- The truth value of a statement. -/
def truth (b : Bool) : Truth := if b then .yes else .no

/-- The next status of a record: its own, with phase, message and the two conditions of the
    controller replaced. -/
def nextStatus (base : Experiment) (phase : Phase) (reason : Reason) (message : String)
    (now : Instant) : Status :=
  let progressing : Condition :=
    ⟨"Progressing", truth (!phase.isFinished), reason.text, message, now⟩
  let degraded : Condition := ⟨"Degraded", truth (phase == .failed), reason.text, message, now⟩
  ((((base.status.getD .empty).setPhase phase).setMessage message).setCondition
    progressing).setCondition degraded

/-- Writes a status to a record and gives the new record. -/
def write (base : Experiment) (status : Status) : Attempt Experiment :=
  ExceptT.mk (.request (.update base status))

/-- Publishes an event about an experiment. -/
def publish (about : Experiment) (severity : Severity) (reason : Reason) (activity : Activity)
    (note : String) : Attempt Unit :=
  ExceptT.lift
    (.request (.publish ⟨about.reference, severity, reason.text, activity.text, some note⟩))

/-- Records that an experiment has been seen. -/
def enroll (c : Context) (base : Experiment) : Attempt Experiment := do
  let updated ← write base
    (nextStatus base .pending .initialized "Experiment initialized and pending." c.now)
  publish updated .normal .initialized .reconcile "ChaosExperiment is initialized."
  return updated

/-- Tells that a run is over. -/
def publishCompleted (about : Experiment) : Attempt Unit :=
  publish about .normal .completed .reconcile
    ("ChaosExperiment has completed its " ++ about.spec.mode.text ++ " run.")

/-- Records that a run is over. -/
def complete (c : Context) (base : Experiment) (message : String) : Attempt Experiment := do
  let updated ← write base (nextStatus base .completed .completed message c.now)
  publishCompleted updated
  return updated

/-- Records that the next run begins. -/
def retrigger (c : Context) (base : Experiment) : Attempt Experiment := do
  let updated ← write base
    (nextStatus base .running .retriggered "Recurring experiment re-triggered." c.now)
  publish updated .normal .retriggered .reconcile "Recurring ChaosExperiment re-triggered."
  return updated

/-- Records a failure. -/
def fail (c : Context) (base : Experiment) (reason : Reason) (activity : Activity)
    (message note : String) : Attempt Experiment := do
  let updated ← write base (nextStatus base .failed reason message c.now)
  publish updated .warning reason activity note
  return updated

/-! ## Attacks -/

/-- Records a kill. The kill and the end of a run without a duration share one write. -/
def killed (c : Context) (base : Experiment) (attack : Attack) (duration : Option Duration)
    (pod : Pod) : Attempt Revisit := do
  let next := delayAfterAttack base.spec.mode duration c.settings.recurringInterval
  let status := match next with
    | some _ => nextStatus base .running .podKilled
      (attack.kind.text ++ " attack executed against pod " ++ pod.text ++ ".") c.now
    | none => nextStatus base .completed .completed completedAtOnceMessage c.now
  let updated ← write base (status.recordRun c.now)
  publish updated .normal .podKilled .attack ("Pod " ++ pod.text ++ " was successfully killed.")
  match next with
  | some delay => return .after delay
  | none => do
    publishCompleted updated
    return .onChange

/-- Records that there was nothing to attack. -/
def noTargets (c : Context) (base : Experiment) : Attempt Revisit := do
  let _ ← fail c base .noTargetPods .attack "No target pods found matching the label selector."
    "No target pods found for the experiment."
  return .after c.settings.noTargetsBackoff

/-- Records that an attack failed, and fails with an error that names the attack. That error
    is the same whether or not the record could be written. -/
def attackFailed (c : Context) (base : Experiment) (attack : Attack)
    (failure : AttackFailure) : Attempt Revisit :=
  let (reason, message, note) := match failure with
    | .unapplied pod cause => (Reason.podDeletionFailed, "Failed to delete target pod.",
        "Failed to delete pod " ++ pod.text ++ ": " ++ cause.message)
    | .unresolved cause => (Reason.podListFailed, "Failed to list target pods.",
        "Failed to list target pods: " ++ cause.message)
  ExceptT.mk do
    -- A failed write must not hide why the attack failed.
    let _ ← (fail c base reason .attack message note).run
    return .error (.attack c.name attack.kind.text note)

/-- Attacks a pod of an experiment's target and records what came of it. -/
def attack (c : Context) (base : Experiment) (attack : Attack) (duration : Option Duration) :
    Attempt Revisit := do
  match ← ExceptT.lift (attack.execute base.spec.target) with
  | .ok (.killed pod) => killed c base attack duration pod
  | .ok .noTargets => noTargets c base
  | .error failure => attackFailed c base attack failure

/-! ## Steps -/

/-- Records that a spec is invalid. -/
def misconfigured (c : Context) (base : Experiment) (cause : SpecError) : Attempt Revisit := do
  let message :=
    "Invalid experiment spec: " ++ (cause.error c.name).message
  let _ ← fail c base .validationFailed .validate message message
  return .onChange

/-- Records that an attack is not known. -/
def unsupported (c : Context) (base : Experiment) : Attempt Revisit := do
  let _ ← fail c base .unsupportedAttack .validate "Unsupported attack type."
    ("ChaosExperiment specified an unsupported attack type: " ++ base.spec.attack.text)
  return .onChange

/-- Takes the step of a decision that leads to an attack. -/
def act (c : Context) (base : Experiment) (decision : Decision) (known : Attack)
    (duration : Option Duration) : Attempt Revisit := do
  match decision with
  | .complete => do
    let message := if duration.isSome then completedMessage else completedAtOnceMessage
    let completed ← complete c base message
    -- A recurring experiment goes on with its next run at once.
    if base.spec.mode = .oneShot then return .onChange
    else attack c (← retrigger c completed) known duration
  | .retrigger => attack c (← retrigger c base) known duration
  | _ => attack c base known duration

/-- Checks the spec and the attack before anything else is touched, and acts. -/
def checkAndAct (c : Context) (base : Experiment) (decision : Decision) (verdict : Verdict) :
    Attempt Revisit :=
  match verdict, base.spec.attack.attack? with
  | .valid duration, some known => act c base decision known duration
  | .valid _, none => unsupported c base
  | .invalid cause, _ => misconfigured c base cause
  | .abort, _ => ExceptT.lift .abort

/-- Does what the record of an experiment asks for. -/
def step (c : Context) (base : Experiment) : Attempt Revisit :=
  match base.spec.verdict with
  | .abort => ExceptT.lift .abort
  | verdict =>
    match schedule base.spec.mode verdict.duration? base.status c.now with
    | .enroll => do
      let _ ← enroll c base
      return .after c.settings.initRevisit
    | .terminate => return .onChange
    | .waitFor delay => return .after delay
    | decision => checkAndAct c base decision verdict

end Reconcile

/-- Looks at an experiment at a given time. The trigger only says which one it is: the record
    is read again. -/
def reconcileAt (settings : Settings) (trigger : Experiment) (now : Instant) :
    Attempt Revisit :=
  match trigger.metadata.namespace with
  | none => throw (.internal "reconcile" (trigger.name ++ " has no namespace"))
  | some ns => do
    match ← ExceptT.mk (.request (.get ns trigger.name)) with
    | none => return .onChange
    | some base => Reconcile.step ⟨settings, trigger.name, now⟩ base

/-- How an invocation ends under the deadline of the settings: one that is cut off fails, and
    the record is left as it is. -/
def Ending.underDeadline (settings : Settings) (trigger : Experiment) :
    Ending (Except Error Revisit) → Ending (Except Error Revisit)
  | cutOff => finished (.error (.timeout trigger.name settings.reconcileTimeout))
  | ending => ending

end ChaosController
