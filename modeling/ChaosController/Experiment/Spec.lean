/-
  ChaosController.Experiment.Spec

  What a user asks of an experiment: which pods it may disrupt, how, for how long and how
  often.

  A spec is checked each time it is read (`Spec.verdict`), because whatever admitted it may
  have let a mistake through.
-/

import ChaosController.Duration.Text
import ChaosController.Experiment.Labels

namespace ChaosController

/-- How often an experiment runs. -/
inductive Mode
  /-- Once. -/
  | oneShot
  /-- Again and again, with the experiment's duration between two runs. -/
  | recurring
deriving DecidableEq, Repr

/-- The name of a mode. -/
def Mode.text : Mode → String
  | oneShot => "one-shot"
  | recurring => "recurring"

/-- What is done to a pod. Names that are not known are kept, so that they can be reported. -/
inductive AttackKind
  /-- The pod is deleted. -/
  | podKill
  | unsupported (name : String)
deriving DecidableEq, Repr

namespace AttackKind

/-- The name of an attack. -/
def text : AttackKind → String
  | podKill => "pod-kill"
  | unsupported name => name

/-- The attack with a given name. -/
def ofText (name : String) : AttackKind :=
  if name = "pod-kill" then podKill else unsupported name

theorem text_ofText (name : String) : (ofText name).text = name := by
  unfold ofText
  split
  · rename_i h
    exact h.symm
  · rfl

end AttackKind

/-- Which pods an experiment may disrupt: those of a namespace that carry all the labels. -/
structure Target where
  «namespace» : String
  labels : Labels
deriving DecidableEq

/-- The selector that is sent to list the pods of a target. -/
def Target.selector (t : Target) : String := t.labels.selector

/-- What a user asks of an experiment. -/
structure Spec where
  target : Target
  attack : AttackKind
  /-- The text of the time between a one-shot attack and its completion, or between two
      recurring attacks. -/
  duration : Option String
  mode : Mode
deriving DecidableEq

/-- Why a spec is invalid. -/
inductive SpecError
  | blankNamespace
  | noLabels
  | unreadableDuration (text : String) (cause : Duration.TextError)
  | zeroDuration
deriving DecidableEq

/-- The wording of an error. -/
def SpecError.message : SpecError → String
  | blankNamespace => "target.namespace must not be empty"
  | noLabels => "target.labelSelector must not be empty"
  | unreadableDuration text cause => "invalid duration '" ++ text ++ "': " ++ cause.message
  | zeroDuration => "duration must be greater than zero"

/-- How the check of a spec ends. -/
inductive Verdict
  | valid (duration : Option Duration)
  | invalid (cause : SpecError)
  /-- Reading the duration aborts the process. -/
  | abort
deriving DecidableEq

/-- The duration of a valid spec. -/
def Verdict.duration? : Verdict → Option Duration
  | valid d => d
  | _ => none

/-- Checks the text of a duration. Blanks around it are dropped; zero is not allowed. -/
def checkDuration : Option String → Verdict
  | none => .valid none
  | some text =>
    match Duration.ofChars (trim text.toList) with
    | .ok d => if d = .zero then .invalid .zeroDuration else .valid (some d)
    | .error (.error cause) => .invalid (.unreadableDuration text cause)
    | .error .abort => .abort

/-- Checks a spec. -/
def Spec.verdict (s : Spec) : Verdict :=
  if trim s.target.namespace.toList = [] then .invalid .blankNamespace
  else if s.target.labels.isEmpty then .invalid .noLabels
  else checkDuration s.duration

end ChaosController
