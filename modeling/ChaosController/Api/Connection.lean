/-
  ChaosController.Api.Connection

  A connection to an API server whose responses are known in advance, and invocations that
  run over it.

  The connection takes the responses in order and keeps what has been sent. When no response
  is left, the server is unavailable. A response takes no time but is not there at once: it
  is in time for every deadline except one that has come already.
-/

import ChaosController.Api.Recorder
import ChaosController.Reconcile

namespace ChaosController.Api

/-- A connection. -/
structure Connection where
  /-- The responses that are still to come. -/
  responses : List Response
  sent : List Message
  recorder : Recorder
  recordEvents : Bool
  /-- The numbers that are picked; zero is picked after them. -/
  picks : List Nat
  now : Instant

namespace Connection

/-- What comes back when no response is left. -/
def unavailable : Response := .answered 503 ""

/-- Sends a message. -/
def send (c : Connection) (m : Message) : Response × Connection :=
  (c.responses.headD unavailable,
    { c with responses := c.responses.tail, sent := c.sent ++ [m] })

/-- Sends a message, if it could be built, and reads the response. -/
def call {α : Type} (c : Connection) (message : Except RequestError Message)
    (read : Response → Except Error α) : Except Error α × Connection :=
  match message with
  | .error e => (.error (.cluster (.invalidRequest e)), c)
  | .ok m =>
    let (response, c) := c.send m
    (read response, c)

/-- Writes a status to a record. Nothing is sent for a record that could not be found again,
    or whose version is not known. -/
def update (c : Connection) (base : Experiment) (status : Status) :
    Except Error Experiment × Connection :=
  match updateTarget base with
  | .error e => (.error e, c)
  | .ok (ns, version) =>
    c.call (updateMessage ns base.name version status) (readUpdate base.name)

/-- Publishes an event. Failures are not reported. -/
def publish (c : Connection) (event : Event) : Connection :=
  let recorder := c.recorder.forget c.now
  let posted := recorder.next event c.now
  let c := { c with recorder := recorder }
  match posted.message with
  | .error _ => c
  | .ok m =>
    let (response, c) := c.send m
    if readPublish response then { c with recorder := recorder.remember posted } else c

/-- Answers a request. -/
def answer (c : Connection) : (r : Request) → r.Reply × Connection
  | .get ns name => c.call (getMessage ns name) readGet
  | .list ns selector => c.call (listMessage ns selector) (readList ns)
  | .pick _ => (c.picks.headD 0, { c with picks := c.picks.tail })
  | .delete ns name => c.call (deleteMessage ns name) readDelete
  | .update base status => c.update base status
  | .publish event => ((), if c.recordEvents then c.publish event else c)

/-- Runs an invocation, which is never cut off. -/
def run {α : Type} (i : Invocation α) (c : Connection) : Ending α × Connection :=
  i.run (fun c r => ((c.answer r).map some id)) c

/-- Answers a request, unless a message is needed for it: that is given up and not sent. -/
def answerAtOnce (c : Connection) (r : Request) : Option r.Reply × Connection :=
  let (reply, after) := c.answer r
  if after.sent.length = c.sent.length then (some reply, after) else (none, c)

/-- Looks at an experiment under the deadline of the settings. -/
def reconcile (settings : Settings) (trigger : Experiment) (c : Connection) :
    Ending (Except Error Revisit) × Connection :=
  let invocation := (reconcileAt settings trigger c.now).run
  Prod.map (Ending.underDeadline settings trigger) id
    (if settings.reconcileTimeout = .zero then invocation.run answerAtOnce c
    else run invocation c)

end Connection

end ChaosController.Api
