/-
  ChaosController.Api.Calls

  The calls of the controller as messages to the API server, and what their responses mean.

  A status is written by a merge patch that carries the version of the record it was made
  for: the API server refuses it if the stored record has another version.
-/

import ChaosController.Api.Resource
import ChaosController.Invocation
import ChaosController.Text.FormEncoded

namespace ChaosController.Api

open Json

/-! ## Messages -/

/-- Where the experiments of a namespace are. -/
def experimentsPath (ns : String) : String :=
  "/apis/chaos.shanto.dev/v1alpha1/namespaces/" ++ ns ++ "/chaosexperiments"

/-- Where the pods of a namespace are. -/
def podsPath (ns : String) : String := "/api/v1/namespaces/" ++ ns ++ "/pods"

/-- Where the events of a namespace are. -/
def eventsPath (ns : String) : String := "/apis/events.k8s.io/v1/namespaces/" ++ ns ++ "/events"

/-- A name has to be there to be put into a path. -/
def checkName (name : String) : Except RequestError Unit :=
  if name = "" then .error .emptyName else .ok ()

/-- The message that reads an experiment. -/
def getMessage (ns name : String) : Except RequestError Message := do
  checkName name
  return ⟨.get, ← Address.read (experimentsPath ns ++ "/" ++ name), none, none, none⟩

/-- The message that lists pods. -/
def listMessage (ns selector : String) : Except RequestError Message := do
  let address ← Address.read (podsPath ns ++ "?&labelSelector=" ++ formEncoded selector)
  return ⟨.get, address, none, none, none⟩

/-- The message that deletes a pod. -/
def deleteMessage (ns name : String) : Except RequestError Message := do
  checkName name
  let address ← Address.read (podsPath ns ++ "/" ++ name ++ "?")
  return ⟨.delete, address, none, some "application/json", some (.obj [])⟩

/-- The message that creates a resource. -/
def createMessage (path : String) (body : Json) : Except RequestError Message := do
  return ⟨.post, ← Address.read (path ++ "?"), none, some "application/json", some body⟩

/-- The message that merges a document into a resource. -/
def mergeMessage (path : String) (body : Json) : Except RequestError Message := do
  return ⟨.patch, ← Address.read (path ++ "?"), some "application/json",
    some "application/merge-patch+json", some body⟩

/-- The document that is merged into an experiment to replace its status. -/
def statusPatch (version : String) (status : Status) : Json :=
  .obj [("metadata", .obj [("resourceVersion", .str version)]), ("status", status.encode)]

/-- The message that writes a status to the version of a record. -/
def updateMessage (ns name version : String) (status : Status) :
    Except RequestError Message := do
  checkName name
  mergeMessage (experimentsPath ns ++ "/" ++ name ++ "/status") (statusPatch version status)

/-! ## Responses -/

/-- The experiment in a response; a refusal for the reason `NotFound` says there is none. -/
def readGet (r : Response) : Except Error (Option Experiment) :=
  match r.accepted >>= decodeBody Experiment.decode with
  | .ok e => .ok (some e)
  | .error (.api e) => if e.reason = "NotFound" then .ok none else .error (.cluster (.api e))
  | .error e => .error (.cluster e)

/-- The pods in a response that have a name. -/
def readList (ns : String) (r : Response) : Except Error (List Pod) :=
  match r.accepted >>= decodeBody fun _ => decodePodList with
  | .ok pods => .ok (pods.filterMap fun m => m.name.map (Pod.mk ns))
  | .error e => .error (.cluster e)

/-- What became of a pod; a refusal with the code 404 says it was gone. -/
def readDelete (r : Response) : Except Error Deletion :=
  match r.accepted >>= checkDeletion with
  | .ok () => .ok .deleted
  | .error (.api e) => if e.code = 404 then .ok .notFound else .error (.cluster (.api e))
  | .error e => .error (.cluster e)

/-- The record in the response to a status write. -/
def readUpdate (experiment : String) (r : Response) : Except Error Experiment :=
  (r.accepted >>= decodeBody Experiment.decode).mapError (.ofStatusWrite experiment)

/-- Whether the response to an event says that it is recorded. -/
def readPublish (r : Response) : Bool :=
  match r.accepted >>= checkEvent with
  | .ok () => true
  | .error _ => false

/-- The version that a status write needs of the record, and where the record is. -/
def updateTarget (base : Experiment) : Except Error (String × String) :=
  match base.metadata.namespace, base.metadata.resourceVersion with
  | none, _ => .error (.internal "update_status" (base.name ++ " has no namespace"))
  | some _, none => .error (.internal "update_status" (base.name ++ " has no resourceVersion"))
  | some ns, some version => .ok (ns, version)

end ChaosController.Api
