/-
  ChaosController.Experiment.Wire

  Experiments as JSON documents.

  Fields without a value and empty lists of conditions are left out. Reading is lenient
  where a record must not get lost: an unknown phase is no phase, an unknown attack is kept
  by its name, and a missing mode is one-shot.
-/

import ChaosController.Experiment
import ChaosController.Json.Form

namespace ChaosController

open Json

/-! ## Label maps -/

namespace Labels

/-- The document of a label map. -/
def encode (labels : Labels) : Json :=
  .obj (labels.entries.map fun e => (e.1, .str e.2))

/-- Decodes a label map. -/
def decode (j : Json) : Decoded Labels := do
  return ofList (← decodeMap decodeString j)

end Labels

/-! ## Specs -/

namespace Mode

/-- The modes by name. -/
def variants : List (String × Mode) := [(oneShot.text, oneShot), (recurring.text, recurring)]

/-- The document of a mode. -/
def encode (m : Mode) : Json := .str m.text

/-- Decodes a mode. -/
def decode (source : Source) (j : Json) : Decoded Mode := decodeVariant variants source j

end Mode

namespace AttackKind

/-- The document of an attack's name. -/
def encodeName (k : AttackKind) : Json := .str k.text

/-- Decodes an attack's name. -/
def decodeName (j : Json) : Decoded AttackKind := do return ofText (← decodeString j)

/-- The document of an attack. -/
def encode (k : AttackKind) : Json := .obj [("type", k.encodeName)]

/-- The fields of an attack. -/
def shape : Shape := ⟨"struct ExperimentAttack", [field "type" decodeName]⟩

/-- Decodes an attack. -/
def decode : (source : Source) → Json → Decoded AttackKind :=
  decodeRecord shape fun parts => shape.required parts 0 "type" decodeName

end AttackKind

namespace Target

/-- The document of a target. -/
def encode (t : Target) : Json :=
  .obj [("labelSelector", t.labels.encode), ("namespace", .str t.namespace)]

/-- The fields of a target. -/
def shape : Shape :=
  ⟨"struct ExperimentTarget",
    [field "namespace" decodeString, field "labelSelector" Labels.decode]⟩

/-- Decodes a target. -/
def decode : (source : Source) → Json → Decoded Target :=
  decodeRecord shape fun parts => do
    let ns ← shape.required parts 0 "namespace" decodeString
    let labels ← shape.required parts 1 "labelSelector" Labels.decode
    return ⟨ns, labels⟩

end Target

namespace Spec

/-- The document of a spec. -/
def encode (s : Spec) : Json :=
  .obj ([("attack", s.attack.encode)] ++ member? "duration" (s.duration.map .str) ++
    [("mode", s.mode.encode), ("target", s.target.encode)])

/-- The fields of a spec. -/
def shape (source : Source) : Shape :=
  ⟨"struct ChaosExperimentSpec",
    [field "target" (Target.decode source), field "attack" (AttackKind.decode source),
      field "duration" (nullable decodeString), field "mode" (Mode.decode source)]⟩

/-- Decodes a spec. -/
def decode (source : Source) : Json → Decoded Spec :=
  decodeRecord (shape source) (fun parts => do
    let target ← (shape source).required parts 0 "target" (Target.decode source)
    let attack ← (shape source).required parts 1 "attack" (AttackKind.decode source)
    let duration ← optional parts 2 "duration" none (nullable decodeString)
    let mode ← optional parts 3 "mode" Mode.oneShot (Mode.decode source)
    return ⟨target, attack, duration, mode⟩) source

end Spec

/-! ## Statuses -/

namespace Phase

/-- The phases by name. -/
def variants : List (String × Phase) :=
  [pending, running, completed, failed].map fun p => (p.text, p)

/-- The document of a phase. -/
def encode (p : Phase) : Json := .str p.text

/-- Decodes a phase, which has to be known. -/
def decode (source : Source) (j : Json) : Decoded Phase := decodeVariant variants source j

/-- Decodes a recorded phase: a name that is not known is no phase. -/
def decodeRecorded (j : Json) : Decoded (Option Phase) := do
  return (← nullable decodeString j).bind ofText?

end Phase

namespace Truth

/-- The truth values by name. -/
def variants : List (String × Truth) := [yes, no, unknown].map fun t => (t.text, t)

/-- The document of a truth value. -/
def encode (t : Truth) : Json := .str t.text

/-- Decodes a truth value. -/
def decode (source : Source) (j : Json) : Decoded Truth := decodeVariant variants source j

end Truth

/-- The document of an instant. -/
def Instant.encode (i : Instant) : Json := .str i.text

namespace Condition

/-- The document of a condition. -/
def encode (c : Condition) : Json :=
  .obj [("lastTransitionTime", c.lastTransition.encode), ("message", .str c.message),
    ("reason", .str c.reason), ("status", c.status.encode), ("type", .str c.kind)]

/-- The fields of a condition. -/
def shape (source : Source) : Shape :=
  ⟨"struct Condition",
    [field "type" decodeString, field "status" (Truth.decode source),
      field "reason" decodeString, field "message" decodeString,
      field "lastTransitionTime" decodeTime]⟩

/-- Decodes a condition. -/
def decode (source : Source) : Json → Decoded Condition :=
  decodeRecord (shape source) (fun parts => do
    let kind ← (shape source).required parts 0 "type" decodeString
    let status ← (shape source).required parts 1 "status" (Truth.decode source)
    let reason ← (shape source).required parts 2 "reason" decodeString
    let message ← (shape source).required parts 3 "message" decodeString
    let lastTransition ← (shape source).required parts 4 "lastTransitionTime" decodeTime
    return ⟨kind, status, reason, message, lastTransition⟩) source

end Condition

namespace Status

/-- The document of a status. -/
def encode (s : Status) : Json :=
  .obj (member? "conditions"
      (if s.conditions.isEmpty then none else some (.arr (s.conditions.map Condition.encode))) ++
    member? "lastRunTime" (s.lastRun.map Instant.encode) ++
    member? "message" (s.message.map .str) ++ member? "phase" (s.phase.map Phase.encode))

/-- The fields of a status. -/
def shape (source : Source) : Shape :=
  ⟨"struct ChaosExperimentStatus",
    [field "phase" Phase.decodeRecorded, field "lastRunTime" (nullable decodeTime),
      field "message" (nullable decodeString),
      field "conditions" (decodeList (Condition.decode source))]⟩

/-- Decodes a status. -/
def decode (source : Source) : Json → Decoded Status :=
  decodeRecord (shape source) (fun parts => do
    let phase ← optional parts 0 "phase" none Phase.decodeRecorded
    let lastRun ← optional parts 1 "lastRunTime" none (nullable decodeTime)
    let message ← optional parts 2 "message" none (nullable decodeString)
    let conditions ← optional parts 3 "conditions" [] (decodeList (Condition.decode source))
    return ⟨phase, lastRun, message, conditions⟩) source

end Status

/-! ## Records -/

namespace Metadata

/-- The document of metadata. -/
def encode (m : Metadata) : Json :=
  .obj (member? "generateName" (m.generateName.map .str) ++
    member? "generation" (m.generation.map fun n => .num (.int n)) ++
    member? "labels" (m.labels.map Labels.encode) ++ member? "name" (m.name.map .str) ++
    member? "namespace" (m.namespace.map .str) ++
    member? "resourceVersion" (m.resourceVersion.map .str) ++ member? "uid" (m.uid.map .str))

/-- The form of a reference to an owner. -/
def ownerForm : Form :=
  .record "OwnerReference"
    [("apiVersion", .text), ("blockOwnerDeletion", .flag), ("controller", .flag),
      ("kind", .text), ("name", .text), ("uid", .text)] []

/-- The form of the fields that somebody manages. -/
def managedForm : Form :=
  .record "ManagedFieldsEntry"
    [("apiVersion", .text), ("fieldsType", .text), ("fieldsV1", .anything),
      ("manager", .text), ("operation", .text), ("subresource", .text), ("time", .time)] []

/-- The form of metadata. Not all that is checked is kept. -/
def form : Form :=
  .record "ObjectMeta"
    [("name", .text), ("generateName", .text), ("namespace", .text),
      ("resourceVersion", .text), ("uid", .text), ("generation", .int64),
      ("labels", .textMap), ("annotations", .textMap), ("creationTimestamp", .time),
      ("deletionGracePeriodSeconds", .int64), ("deletionTimestamp", .time),
      ("finalizers", .texts), ("managedFields", .list managedForm),
      ("ownerReferences", .list ownerForm), ("selfLink", .text)] []

/-- What is kept of metadata. A member may be given several times, and the last one
    counts. -/
def kept : Json → Decoded Metadata
  | .obj members => do
    let parts := Parts.named members.reverse
    let name ← optional parts 0 "name" none (nullable decodeString)
    let generateName ← optional parts 1 "generateName" none (nullable decodeString)
    let ns ← optional parts 2 "namespace" none (nullable decodeString)
    let resourceVersion ← optional parts 3 "resourceVersion" none (nullable decodeString)
    let uid ← optional parts 4 "uid" none (nullable decodeString)
    let generation ← optional parts 5 "generation" none
      (nullable (decodeInt "i64" (-9223372036854775808) 9223372036854775807))
    let labels ← optional parts 6 "labels" none (nullable Labels.decode)
    return ⟨name, generateName, ns, resourceVersion, uid, generation, labels⟩
  | j => .error (mismatch "ObjectMeta" j)

/-- Decodes metadata, in which `room` lists and objects may be opened inside each other. -/
def decode (room : Nat) (j : Json) : Decoded Metadata := do
  form.check room j
  kept j

end Metadata

namespace Experiment

/-- The document of an experiment. -/
def encode (e : Experiment) : Json :=
  .obj ([("apiVersion", .str apiVersion), ("kind", .str kind), ("metadata", e.metadata.encode),
    ("spec", e.spec.encode)] ++ member? "status" (e.status.map Status.encode))

/-- The fields of an experiment. -/
def shape (source : Source) : Shape :=
  ⟨"struct ChaosExperiment",
    [field "metadata" (Metadata.decode (depthLimit - 1)), field "spec" (Spec.decode source),
      field "status" (nullable (Status.decode source))]⟩

/-- Decodes an experiment. What API version and kind it names does not matter. -/
def decode (source : Source) : Json → Decoded Experiment :=
  decodeRecord (shape source) (fun parts => do
    let metadata ←
      (shape source).required parts 0 "metadata" (Metadata.decode (depthLimit - 1))
    let spec ← (shape source).required parts 1 "spec" (Spec.decode source)
    let status ← (shape source).nullableField parts 2 "status" (Status.decode source)
    return ⟨metadata, spec, status⟩) source

end Experiment

end ChaosController
