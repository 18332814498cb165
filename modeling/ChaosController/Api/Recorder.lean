/-
  ChaosController.Api.Recorder

  How events are published on the API server.

  An event is posted once. When the same thing happens to the same record again, the posted
  event is turned into a series, which counts how often it has happened. The recorder knows
  the events it has posted for some minutes; an event that was not accepted is forgotten.
-/

import ChaosController.Api.Calls

namespace ChaosController.Api

open Json

/-- The repetitions of an event. -/
structure Series where
  count : Nat
  lastObserved : Instant
deriving DecidableEq, Repr

/-- An event as it is posted. -/
structure PostedEvent where
  event : Event
  name : String
  time : Instant
  reporter : String
  series : Option Series
deriving DecidableEq, Repr

/-- The document of a reference. -/
def encodeReference (r : ObjectReference) : Json :=
  .obj (member? "apiVersion" (r.apiVersion.map .str) ++
    member? "fieldPath" (r.fieldPath.map .str) ++ member? "kind" (r.kind.map .str) ++
    member? "name" (r.name.map .str) ++ member? "namespace" (r.namespace.map .str) ++
    member? "resourceVersion" (r.resourceVersion.map .str) ++ member? "uid" (r.uid.map .str))

/-- The document of a series. -/
def Series.encode (s : Series) : Json :=
  .obj [("count", .ofNat s.count), ("lastObservedTime", .str s.lastObserved.microText)]

namespace PostedEvent

/-- The document of an event. -/
def encode (p : PostedEvent) : Json :=
  .obj ([("action", .str p.event.action), ("apiVersion", .str "events.k8s.io/v1"),
    ("eventTime", .str p.time.microText), ("kind", .str "Event"),
    ("metadata", .obj (("name", .str p.name) ::
      member? "namespace" (p.event.regarding.namespace.map .str)))] ++
    member? "note" (p.event.note.map .str) ++
    [("reason", .str p.event.reason), ("regarding", encodeReference p.event.regarding),
      ("reportingController", .str controllerName), ("reportingInstance", .str p.reporter)] ++
    member? "series" (p.series.map Series.encode) ++
    [("type", .str p.event.severity.text)])

/-- When the event was last seen. -/
def lastSeen (p : PostedEvent) : Instant :=
  match p.series with
  | some s => s.lastObserved
  | none => p.time

/-- The message that posts the event, or turns it into a series. -/
def message (p : PostedEvent) : Except RequestError Message :=
  let path := eventsPath (p.event.regarding.namespace.getD "default")
  match p.series with
  | none => createMessage path p.encode
  | some _ => do
    checkName p.name
    mergeMessage (path ++ "/" ++ p.name) p.encode

end PostedEvent

/-- Who publishes events, and what has been posted. -/
structure Recorder where
  /-- The name of the controller's instance. -/
  reporter : String
  posted : List PostedEvent
deriving DecidableEq, Repr

namespace Recorder

/-- A recorder that has not posted anything. -/
def new (reporter : String) : Recorder := ⟨reporter, []⟩

/-- Whether two events tell of the same thing; their notes may differ. -/
def sameEvent (a b : Event) : Bool :=
  a.severity == b.severity && a.action == b.action && a.reason == b.reason &&
    a.regarding == b.regarding

/-- How long a posted event is known, in nanoseconds. -/
def lifetime : Int := 360 * nanosPerSecond

/-- Forgets the events that have not been seen for long. -/
def forget (r : Recorder) (now : Instant) : Recorder :=
  { r with posted := r.posted.filter fun p => now.since p.lastSeen < lifetime }

/-- The name of an event posted at a given time. -/
def eventName (regarding : ObjectReference) (now : Instant) : String :=
  regarding.name.getD controllerName ++ "." ++ hexDigits now.unixNanos.toNat

/-- What is posted for an event. -/
def next (r : Recorder) (event : Event) (now : Instant) : PostedEvent :=
  match r.posted.find? fun p => sameEvent p.event event with
  | some p =>
    let count := match p.series with
      | some s => s.count + 1
      | none => 2
    { p with series := some ⟨count, now⟩ }
  | none => ⟨event, eventName event.regarding now, now, r.reporter, none⟩

/-- Remembers an event that has been accepted. -/
def remember (r : Recorder) (p : PostedEvent) : Recorder :=
  { r with posted := p :: r.posted.filter fun q => !sameEvent q.event p.event }

end Recorder

end ChaosController.Api
