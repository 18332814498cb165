/-
  ChaosController.Api.Resource

  The resources of the API server, apart from experiments, as far as the controller reads
  them.
-/

import ChaosController.Api.Message
import ChaosController.Api.Pod.Form
import ChaosController.Event

namespace ChaosController

open Json

/-! ## Pods -/

/-- Decodes the metadata of a pod, in which `room` lists and objects may be opened inside
    each other. -/
def decodePod (room : Nat) (j : Json) : Decoded Metadata := do
  PodForm.pod.check room j
  match j with
  | .obj members =>
    optional (.named members.reverse) 2 "metadata" Metadata.empty
      (nullAs Metadata.empty Metadata.kept)
  | _ => return Metadata.empty

/-- The form of a list's metadata, of which nothing is kept. -/
def listMetadataForm : Form :=
  .record "ListMeta"
    [("continue", .text), ("remainingItemCount", .int64), ("resourceVersion", .text),
      ("selfLink", .text)] []

/-- Decodes the items of a list of pods, which stand inside an object and a list. -/
def decodePodItems (j : Json) : Decoded (List Metadata) :=
  nullAs [] (decodeList (decodePod (depthLimit - 2))) j

/-- Checks the members of a list of pods in order. Members other than metadata and items are
    only dropped at the end, so they have to be values. -/
def checkListMembers (seen : List String) : List (String × Json) → Decoded Unit
  | [] => .ok ()
  | (name, j) :: rest => do
    if let some e := nameFault? j then throw e
    if name = "metadata" ∨ name = "items" then
      if seen.contains name then throw (.duplicateField name)
      if name = "metadata" then listMetadataForm.check (depthLimit - 1) j
      else do
        let _ ← decodePodItems j
    else Form.anything.check (depthLimit - 1) j
    checkListMembers (name :: seen) rest

/-- Decodes a list of pods, given as an object with items: its metadata, its API version and
    its kind may be missing, and the latter two may be anything. -/
def decodePodList : Json → Decoded (List Metadata)
  | .obj members => do
    checkListMembers [] members
    match members.lookup "items" with
    | none => throw (.missingField "items")
    | some items => decodePodItems items
  | j => .error (mismatch "struct ObjectList" j)

/-! ## Answers to deletions -/

/-- The fields of a cause in an operation's status. -/
def causeShape : Shape :=
  ⟨"struct StatusCause",
    [field "reason" decodeString, field "message" decodeString, field "field" decodeString]⟩

/-- The fields of the details in an operation's status. -/
def detailsShape (source : Source) : Shape :=
  ⟨"struct StatusDetails",
    [field "name" decodeString, field "group" decodeString, field "kind" decodeString,
      field "uid" decodeString,
      field "causes" (decodeList (causeShape.check source)),
      field "retryAfterSeconds" (decodeInt "u32" 0 4294967295)]⟩

/-- The fields of an operation's status. -/
def operationShape (source : Source) : Shape :=
  ⟨"struct Status",
    [field "status" (nullable (decodeVariant [("Success", true), ("Failure", false)] source)),
      field "code" ApiError.decodeCode, field "message" decodeString,
      field "reason" decodeString,
      field "details" (nullable ((detailsShape source).check source))]⟩

/-- Checks an operation's status, of which nothing is kept. -/
def checkOperation (source : Source) : Json → Decoded Unit :=
  (operationShape source).check source

/-- Checks the answer to a deletion: the status of the operation, if its kind says so, or
    the pod. -/
def checkDeletion (body : String) : Except ClusterError Unit :=
  match Json.parse body with
  | .error e => .error (.malformedResponse e.message)
  | .ok j =>
    match j.sorted.get? "kind" with
    | some (.str "Status") => decodeBody checkOperation body
    | _ => do
      let _ ← decodeBody (fun _ => decodePod depthLimit) body
      return ()

/-! ## Answers to events -/

/-- The form of a reference to an object. -/
def referenceForm : Form :=
  .record "ObjectReference"
    [("apiVersion", .text), ("fieldPath", .text), ("kind", .text), ("name", .text),
      ("namespace", .text), ("resourceVersion", .text), ("uid", .text)] []

/-- Decodes a reference to an object. -/
def ObjectReference.decode (j : Json) : Decoded ObjectReference := do
  referenceForm.check depthLimit j
  let parts := Parts.named (match j with
    | .obj members => members.reverse
    | _ => [])
  let text (index : Nat) (name : String) : Decoded (Option String) :=
    optional parts index name none (nullable decodeString)
  return ⟨← text 0 "apiVersion", ← text 1 "fieldPath", ← text 2 "kind", ← text 3 "name",
    ← text 4 "namespace", ← text 5 "resourceVersion", ← text 6 "uid"⟩

/-- The form of an event. -/
def eventForm : Form :=
  .record "Event"
    [("apiVersion", .exactly "events.k8s.io/v1"), ("kind", .exactly "Event"),
      ("metadata", Metadata.form), ("action", .text), ("deprecatedCount", .int32),
      ("deprecatedFirstTimestamp", .time), ("deprecatedLastTimestamp", .time),
      ("deprecatedSource", .record "EventSource" [("component", .text), ("host", .text)] []),
      ("eventTime", .time), ("note", .text), ("reason", .text), ("regarding", referenceForm),
      ("related", referenceForm), ("reportingController", .text),
      ("reportingInstance", .text),
      ("series", .record "EventSeries"
        [("count", .int32), ("lastObservedTime", .time)] ["lastObservedTime"]),
      ("type", .text)] []

/-- Checks that a response holds an event. -/
def checkEvent (body : String) : Except ClusterError Unit :=
  decodeBody (fun _ => eventForm.check depthLimit) body

end ChaosController
