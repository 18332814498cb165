/-
  ChaosController.Event

  The events by which the controller tells users what it did to an experiment.
-/

import ChaosController.Experiment

namespace ChaosController

/-- Why a status or an event came about. -/
inductive Reason
  | initialized | retriggered | podKilled | completed | noTargetPods | podListFailed
  | podDeletionFailed | unsupportedAttack | validationFailed
deriving DecidableEq, Repr

/-- The name of a reason. -/
def Reason.text : Reason → String
  | initialized => "ExperimentInitialized"
  | retriggered => "ExperimentReTriggered"
  | podKilled => "PodKilled"
  | completed => "ExperimentCompleted"
  | noTargetPods => "NoTargetPods"
  | podListFailed => "PodListFailed"
  | podDeletionFailed => "PodDeletionFailed"
  | unsupportedAttack => "UnsupportedAttackType"
  | validationFailed => "ValidationFailed"

/-- What the controller was doing. -/
inductive Activity
  | reconcile | attack | validate
deriving DecidableEq, Repr

/-- The name of an activity. -/
def Activity.text : Activity → String
  | reconcile => "Reconcile"
  | attack => "Attack"
  | validate => "Validate"

/-- Whether an event calls for attention. -/
inductive Severity
  | normal | warning
deriving DecidableEq, Repr

/-- The name of a severity. -/
def Severity.text : Severity → String
  | normal => "Normal"
  | warning => "Warning"

/-- A reference to a record of the cluster. -/
structure ObjectReference where
  apiVersion : Option String
  fieldPath : Option String
  kind : Option String
  name : Option String
  «namespace» : Option String
  resourceVersion : Option String
  uid : Option String
deriving DecidableEq, Repr

/-- The reference to an experiment. -/
def Experiment.reference (e : Experiment) : ObjectReference :=
  ⟨some Experiment.apiVersion, none, some Experiment.kind, e.metadata.name,
    e.metadata.namespace, none, e.metadata.uid⟩

/-- An event. -/
structure Event where
  regarding : ObjectReference
  severity : Severity
  reason : String
  action : String
  note : Option String
deriving DecidableEq, Repr

/-- The name under which the controller reports events. -/
def controllerName : String := "kubechaos-controller"

end ChaosController
