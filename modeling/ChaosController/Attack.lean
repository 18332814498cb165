/-
  ChaosController.Attack

  Attacks on the pods of a target.

  An attack lists the pods that match now, picks one of them and disrupts it; it never
  touches a second one. A pod that is gone before it is disrupted counts as killed.
-/

import ChaosController.Invocation

namespace ChaosController

/-- The attacks that the controller can carry out. -/
inductive Attack
  /-- The pod is deleted. -/
  | podKill
deriving DecidableEq, Repr

/-- The attack of a kind, if the controller can carry it out. -/
def AttackKind.attack? : AttackKind → Option Attack
  | podKill => some .podKill
  | unsupported _ => none

/-- How an attack ends unless it fails. -/
inductive AttackOutcome
  | killed (pod : Pod)
  /-- No pod matched. -/
  | noTargets
deriving DecidableEq, Repr

/-- How an attack fails. -/
inductive AttackFailure
  /-- No pod could be listed or picked. -/
  | unresolved (cause : Error)
  /-- The picked pod could not be disrupted. -/
  | unapplied (pod : Pod) (cause : Error)
deriving DecidableEq, Repr

/-- The position among `count` pods that a random number stands for. -/
def pickBelow (random count : Nat) : Nat := random % count

theorem pickBelow_lt (random : Nat) {count : Nat} (h : 0 < count) :
    pickBelow random count < count := Nat.mod_lt random h

namespace Attack

/-- The kind of an attack. -/
def kind : Attack → AttackKind
  | podKill => .podKill

/-- Lists the pods of a target. -/
def targets (attack : Attack) (target : Target) : Invocation (Except Error (List Pod)) :=
  match attack with
  | podKill => .request (.list target.namespace target.selector)

/-- Disrupts a pod. -/
def apply (attack : Attack) (pod : Pod) : Invocation (Except Error Deletion) :=
  match attack with
  | podKill => .request (.delete pod.namespace pod.name)

/-- The error of a pick that is no position in a list. -/
def pickError (index count : Nat) : Error :=
  .internal "target selection"
    ("picked index " ++ toString index ++ " of " ++ toString count ++ " members")

/-- Disrupts the pod at a position of a list. -/
def applyAt (attack : Attack) (pods : List Pod) (index : Nat) :
    Invocation (Except AttackFailure AttackOutcome) :=
  match pods[index]? with
  | none => return .error (.unresolved (pickError index pods.length))
  | some pod => do
    match ← attack.apply pod with
    | .error cause => return .error (.unapplied pod cause)
    | .ok _ => return .ok (.killed pod)

/-- Carries out an attack on one pod of a target. -/
def execute (attack : Attack) (target : Target) :
    Invocation (Except AttackFailure AttackOutcome) := do
  match ← attack.targets target with
  | .error cause => return .error (.unresolved cause)
  | .ok [] => return .ok .noTargets
  | .ok pods => do
    let index ← Invocation.request (.pick pods.length)
    attack.applyAt pods index

end Attack

end ChaosController
