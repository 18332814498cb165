/-
  ChaosController.Experiment.Status

  What the controller records about an experiment: its phase, its last attack, a message
  and conditions for other tools.
-/

import ChaosController.Instant

namespace ChaosController

/-- Where an experiment stands. -/
inductive Phase
  /-- Waiting for its first attack. -/
  | pending
  /-- Attacked, and not yet over. -/
  | running
  /-- Over; a recurring experiment only until its next run. -/
  | completed
  /-- Misconfigured, or its last attack failed. -/
  | failed
deriving DecidableEq, Repr

namespace Phase

/-- The name of a phase. -/
def text : Phase → String
  | pending => "Pending"
  | running => "Running"
  | completed => "Completed"
  | failed => "Failed"

/-- The phase with a given name. -/
def ofText? (name : String) : Option Phase :=
  if name = "Pending" then some pending
  else if name = "Running" then some running
  else if name = "Completed" then some completed
  else if name = "Failed" then some failed
  else none

/-- The phases that a one-shot experiment never leaves. -/
def isFinished : Phase → Bool
  | completed | failed => true
  | pending | running => false

theorem ofText?_text (p : Phase) : ofText? p.text = some p := by
  cases p <;> decide

end Phase

/-- Whether a condition holds. -/
inductive Truth
  | yes | no | unknown
deriving DecidableEq, Repr

/-- The name of a truth value. -/
def Truth.text : Truth → String
  | yes => "True"
  | no => "False"
  | unknown => "Unknown"

/-- A statement about an experiment, for other tools: the controller never reads it. -/
structure Condition where
  kind : String
  status : Truth
  reason : String
  message : String
  /-- Since when the condition has its status. -/
  lastTransition : Instant
deriving DecidableEq

/-- What the controller records about an experiment. -/
structure Status where
  /-- Absent until the controller has seen the experiment. -/
  phase : Option Phase
  /-- When the last attack took place. -/
  lastRun : Option Instant
  message : Option String
  conditions : List Condition
deriving DecidableEq

namespace Status

/-- The status before anything is recorded. -/
def empty : Status := ⟨none, none, none, []⟩

instance : Inhabited Status := ⟨empty⟩

/-- Sets the phase. -/
def setPhase (s : Status) (phase : Phase) : Status := { s with phase := some phase }

/-- Sets the message. -/
def setMessage (s : Status) (message : String) : Status := { s with message := some message }

/-- Records an attack. -/
def recordRun (s : Status) (now : Instant) : Status := { s with lastRun := some now }

/-- The first condition of a kind. -/
def condition? (s : Status) (kind : String) : Option Condition :=
  s.conditions.find? (·.kind == kind)

/-- The given condition, with the transition time of the first condition of its kind if
    the status has not changed. -/
def carryTransition (s : Status) (c : Condition) : Condition :=
  match s.condition? c.kind with
  | some old => if old.status = c.status then { c with lastTransition := old.lastTransition } else c
  | none => c

/-- Puts a condition at the end, in place of all conditions of its kind. -/
def setCondition (s : Status) (c : Condition) : Status :=
  { s with conditions := s.conditions.filter (·.kind != c.kind) ++ [s.carryTransition c] }

@[simp] theorem phase_setPhase (s : Status) (p : Phase) : (s.setPhase p).phase = some p := rfl

@[simp] theorem lastRun_setPhase (s : Status) (p : Phase) :
    (s.setPhase p).lastRun = s.lastRun := rfl

@[simp] theorem conditions_setPhase (s : Status) (p : Phase) :
    (s.setPhase p).conditions = s.conditions := rfl

@[simp] theorem message_setMessage (s : Status) (m : String) :
    (s.setMessage m).message = some m := rfl

@[simp] theorem phase_setMessage (s : Status) (m : String) :
    (s.setMessage m).phase = s.phase := rfl

@[simp] theorem lastRun_setMessage (s : Status) (m : String) :
    (s.setMessage m).lastRun = s.lastRun := rfl

@[simp] theorem conditions_setMessage (s : Status) (m : String) :
    (s.setMessage m).conditions = s.conditions := rfl

@[simp] theorem lastRun_recordRun (s : Status) (now : Instant) :
    (s.recordRun now).lastRun = some now := rfl

@[simp] theorem phase_recordRun (s : Status) (now : Instant) :
    (s.recordRun now).phase = s.phase := rfl

@[simp] theorem conditions_recordRun (s : Status) (now : Instant) :
    (s.recordRun now).conditions = s.conditions := rfl

@[simp] theorem phase_setCondition (s : Status) (c : Condition) :
    (s.setCondition c).phase = s.phase := rfl

@[simp] theorem lastRun_setCondition (s : Status) (c : Condition) :
    (s.setCondition c).lastRun = s.lastRun := rfl

@[simp] theorem message_setCondition (s : Status) (c : Condition) :
    (s.setCondition c).message = s.message := rfl

theorem conditions_setCondition (s : Status) (c : Condition) :
    (s.setCondition c).conditions =
      s.conditions.filter (·.kind != c.kind) ++ [s.carryTransition c] := rfl

/-- Carrying the transition time over changes nothing else. -/
@[simp] theorem kind_carryTransition (s : Status) (c : Condition) :
    (s.carryTransition c).kind = c.kind := by
  unfold carryTransition
  split
  · split <;> rfl
  · rfl

end Status

end ChaosController
