/-
  ChaosController.Cluster

  A cluster in memory, and sessions in which invocations run against it.

  The cluster stores one experiment and some pods. It accepts a status only for the version
  of the record that it stores, and every accepted status makes a new version. It is not the
  stand-in that the controller's own tests use: that one deletes pods by name, whatever their
  namespace, and counts versions without regard to a largest one. A session can
  be told to fail or to delay calls; delays pass on a clock of the session's own, and a
  session with a deadline cuts an invocation off at the first call that would end after it. A
  call waits first and takes effect then, so a call that is cut off has no effect.
-/

import ChaosController.Clock
import ChaosController.Reconcile

namespace ChaosController

/-! ## The cluster -/

/-- What is stored. -/
structure Cluster where
  record : Option Experiment
  pods : List Pod
deriving DecidableEq

/-- The number of a version: decimal digits, possibly after a plus sign, that fit a word of 64
    bits. -/
def versionNumber? (version : String) : Option Nat :=
  let digits := match version.toList with
    | '+' :: rest => rest
    | chars => chars
  if digits ≠ [] ∧ digits.all Char.isDigit ∧ ofDigits digits < wordBound then
    some (ofDigits digits)
  else none

/-- The version after a version. A version that is no number counts as zero, and the largest
    number is its own successor. The stand-in of the controller's tests adds one there as well,
    which is more than a word holds. -/
def nextVersion (version : Option String) : String :=
  let n := (version.bind versionNumber?).getD 0
  toString (if n + 1 < wordBound then n + 1 else n)

namespace Cluster

/-- Deletes a pod, which is told by its namespace and its name. -/
def delete (c : Cluster) (pod : Pod) : Deletion × Cluster :=
  (if c.pods.contains pod then .deleted else .notFound,
    { c with pods := c.pods.filter (· != pod) })

/-- A record with a new status and a new version. -/
def accept (record : Experiment) (status : Status) : Experiment :=
  { record with
    metadata := { record.metadata with
      resourceVersion := some (nextVersion record.metadata.resourceVersion) }
    status := some status }

/-- Writes a status, if the stored record has the version that the status was made for. -/
def update (c : Cluster) (base : Experiment) (status : Status) :
    Except Error Experiment × Cluster :=
  match c.record with
  | none => (.error (.internal Error.unknownContext "experiment deleted"), c)
  | some record =>
    if record.metadata.resourceVersion = base.metadata.resourceVersion then
      (.ok (accept record status), { c with record := some (accept record status) })
    else (.error (.conflict base.name), c)

/-- A write is accepted exactly if the stored record has the version it was made for. -/
theorem update_of_version {c : Cluster} {record base : Experiment} {status : Status}
    (hr : c.record = some record)
    (hv : record.metadata.resourceVersion = base.metadata.resourceVersion) :
    c.update base status =
      (.ok (accept record status), { c with record := some (accept record status) }) := by
  simp [update, hr, hv]

/-- A write that was made for another version leaves the cluster as it is. -/
theorem update_of_stale {c : Cluster} {record base : Experiment} {status : Status}
    (hr : c.record = some record)
    (hv : record.metadata.resourceVersion ≠ base.metadata.resourceVersion) :
    c.update base status = (.error (.conflict base.name), c) := by
  simp [update, hr, hv]

end Cluster

/-! ## Sessions -/

/-- A call as the log of a session holds it. -/
inductive Call
  | get («namespace» name : String)
  | list («namespace» selector : String)
  | pick (count index : Nat)
  | delete («namespace» name : String)
  | update (version : Option String) (status : Status)
deriving DecidableEq

/-- How a deletion is made to fail. -/
inductive DeletionFault
  | error (cause : Error)
  /-- The pod is reported as gone, and stays. -/
  | notFound
deriving DecidableEq, Repr

/-- The failures and delays of a session. -/
structure Faults where
  get : Option Error
  list : Option Error
  delete : Option DeletionFault
  /-- The failures of the first, second, … status write. -/
  updates : List (Option Error)
  getDelay : Duration
  listDelay : Duration
  deleteDelay : Duration
  updateDelay : Duration

/-- No failures and no delays. -/
def Faults.none : Faults :=
  ⟨.none, .none, .none, [], .zero, .zero, .zero, .zero⟩

/-- A cluster and what happens while an invocation runs against it. -/
structure Session where
  cluster : Cluster
  /-- What reading the record gives in place of the stored record. -/
  stale : Option (Option Experiment)
  /-- The picks that are left; zero is picked after them. -/
  picks : List Nat
  faults : Faults
  recordEvents : Bool
  /-- When a running invocation is cut off, in milliseconds. -/
  deadline : Option Nat
  /-- The time since the session began, in milliseconds. -/
  clock : Nat
  /-- The number of status writes so far. -/
  updates : Nat
  calls : List Call
  events : List Event

namespace Session

/-- A session that begins with a given cluster. -/
def start (cluster : Cluster) (faults : Faults) (picks : List Nat) : Session :=
  ⟨cluster, none, picks, faults, true, none, 0, 0, [], []⟩

/-- Logs a call. -/
def log (s : Session) (call : Call) : Session := { s with calls := s.calls ++ [call] }

/-- Lets a delay pass; none if the deadline comes first. A delay that is over together with
    the deadline goes through. -/
def wait? (s : Session) (delay : Duration) : Option Session :=
  let moment := Clock.moment s.clock delay
  if s.deadline.all (moment ≤ ·) then some { s with clock := moment } else none

/-- Answers a call that has been logged: after its delay, unless the deadline comes first. -/
def after {α : Type} (s : Session) (delay : Duration) (effect : Session → α × Session) :
    Option α × Session :=
  match s.wait? delay with
  | none => (none, s)
  | some s =>
    let (a, s) := effect s
    (some a, s)

/-- Reads the record. -/
def read (s : Session) : Except Error (Option Experiment) × Session :=
  match s.faults.get with
  | some e => (.error e, s)
  | none => (.ok (s.stale.getD s.cluster.record), s)

/-- Lists the pods: all of them, whatever the selector. -/
def listPods (s : Session) : Except Error (List Pod) × Session :=
  match s.faults.list with
  | some e => (.error e, s)
  | none => (.ok s.cluster.pods, s)

/-- Deletes a pod. -/
def delete (pod : Pod) (s : Session) : Except Error Deletion × Session :=
  match s.faults.delete with
  | some (.error e) => (.error e, s)
  | some .notFound => (.ok .notFound, s)
  | none =>
    let (deletion, cluster) := s.cluster.delete pod
    (.ok deletion, { s with cluster := cluster })

/-- Writes a status. -/
def update (base : Experiment) (status : Status) (s : Session) :
    Except Error Experiment × Session :=
  let next := { s with updates := s.updates + 1 }
  match s.faults.updates[s.updates]? with
  | some (some e) => (.error e, next)
  | _ =>
    let (result, cluster) := s.cluster.update base status
    (result, { next with cluster := cluster })

/-- Answers a request; without a reply if the deadline comes first. -/
def answer (s : Session) : (r : Request) → Option r.Reply × Session
  | .get ns name => (s.log (.get ns name)).after s.faults.getDelay read
  | .list ns selector => (s.log (.list ns selector)).after s.faults.listDelay listPods
  | .pick count =>
    let index := s.picks.headD 0
    -- A pick takes no time, nor does an event.
    (some index, { s.log (.pick count index) with picks := s.picks.tail })
  | .delete ns name =>
    (s.log (.delete ns name)).after s.faults.deleteDelay (delete ⟨ns, name⟩)
  | .update base status =>
    (s.log (.update base.metadata.resourceVersion status)).after s.faults.updateDelay
      (update base status)
  | .publish event =>
    (some (), if s.recordEvents then { s with events := s.events ++ [event] } else s)

/-- Looks at an experiment under the deadline of the settings. -/
def reconcile (settings : Settings) (trigger : Experiment) (now : Instant) (s : Session) :
    Ending (Except Error Revisit) × Session :=
  let limit := Clock.moment s.clock settings.reconcileTimeout
  let invocation := (reconcileAt settings trigger now).run
  Prod.map (Ending.underDeadline settings trigger) id
    (invocation.run answer { s with deadline := some limit })

end Session

end ChaosController
