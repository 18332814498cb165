/-
  ChaosController.Proofs.Announcements

  The events of an invocation tell what it has written, and nothing else.

  Every accepted status is announced before the next call: by one event, which has the reason of
  the status, or by two if the status ends a run with its attack. A status that is not accepted is
  not announced. So the events can be read off the accepted writes (`written_announced`).
-/

import ChaosController.Proofs.Deadline
import ChaosController.Proofs.Provenance

namespace ChaosController

/-! ## Events of a trace -/

/-- The event that is to be published. -/
def Request.event? : Request → Option Event
  | .publish event => some event
  | .get _ _ | .list _ _ | .pick _ | .delete _ _ | .update _ _ => none

theorem Request.eq_publish {r : Request} {event : Event} (h : r.event? = some event) :
    r = .publish event := by
  cases r with
  | publish other => rw [show other = event from Option.some.inj h]
  | get | list | pick | delete | update => cases h

/-- An event is published as it was asked for. -/
theorem Exchange.event?_eq (x : Exchange) : x.event? = x.request.event? := by
  obtain ⟨r, reply⟩ := x
  cases r <;> rfl

/-- How the status is announced that has been accepted in an exchange. -/
def Exchange.announcement (struck : Bool) : Exchange → List Headline
  | ⟨.update _ status, .ok updated⟩ => status.announcement struck updated
  | ⟨.update _ _, .error _⟩ => []
  | ⟨.get _ _, _⟩ | ⟨.list _ _, _⟩ | ⟨.pick _, _⟩ | ⟨.delete _ _, _⟩ | ⟨.publish _, _⟩ => []

namespace Trace

/-- The events that have been published, the earliest first. -/
def events (t : Trace) : List Event := (t.filterMap Exchange.event?).reverse

/-- How the accepted statuses are announced, the earliest first. -/
def announcements : Trace → List Headline
  | [] => []
  | x :: t => announcements t ++ x.announcement (struck t)

theorem events_cons (x : Exchange) (t : Trace) : events (x :: t) = events t ++ x.event?.toList := by
  unfold events
  cases h : x.event? with
  | none => simp [h]
  | some event => simp [h]

end Trace

/-! ## What is due is announced -/

/-- Nothing has to be announced where something else is allowed. -/
theorem Due.headlines_of_allows {d : Due} {r : Request} (h : d.Allows r) (hr : r.event? = none) :
    d.headlines = [] := by
  cases d with
  | free | record => rfl
  | announce next later =>
    cases r with
    | publish event => cases hr
    | get | list | pick | delete | update => exact h.elim

/-- An event that is allowed is the next one that is due. -/
theorem Due.headlines_of_allows_publish {d : Due} {event : Event} (h : d.Allows (.publish event)) :
    ∃ later, d = .announce event.headline later := by
  cases d with
  | free | record => exact h.elim
  | announce next later => exact ⟨later, by rw [show event.headline = next from h]⟩

/-- No event is allowed where nothing has to be announced. -/
theorem Due.event?_eq_none {d : Due} {r : Request} (h : d.Allows r) (hd : d.headlines = []) :
    r.event? = none := by
  cases hevent : r.event? with
  | none => rfl
  | some event =>
    rw [Request.eq_publish hevent] at h
    obtain ⟨later, rfl⟩ := headlines_of_allows_publish h
    cases hd

namespace Reconcile

variable {settings : Settings} {trigger : Experiment} {now : Instant} {t : Trace}
  {rest : Invocation (Except Error Revisit)}

/-- After a call, what it has accepted is due to be announced. -/
theorem headlines_due_cons {x : Exchange} (hx : x.event? = none) :
    (Trace.due (x :: t)).headlines = x.announcement t.struck := by
  obtain ⟨r, reply⟩ := x
  cases r with
  | update base status =>
    cases reply with
    | error e => rfl
    | ok updated => exact Due.headlines_ofHeadlines _
  | delete ns name => cases reply <;> rfl
  | get | list | pick => rfl
  | publish event => cases hx

/-- The events so far, with those that are due, announce what has been accepted so far. -/
theorem headlines_events_append_due (h : (reconcileAt settings trigger now).run.Reaches t rest) :
    (Trace.events t).map Event.headline ++ (Trace.due t).headlines = Trace.announcements t := by
  induction h with
  | start => rfl
  | @exchange t r resume reply hr ih =>
    have hallowed := (fulfils_of_reaches hr).allowed
    cases hevent : r.event? with
    | none =>
      have hx : Exchange.event? ⟨r, reply⟩ = none := by rw [Exchange.event?_eq, hevent]
      rw [Due.headlines_of_allows hallowed hevent, List.append_nil] at ih
      rw [Trace.events_cons, hx, Option.toList_none, List.append_nil, ih, headlines_due_cons hx,
        Trace.announcements]
    | some event =>
      obtain rfl := Request.eq_publish hevent
      obtain ⟨later, hdue⟩ := Due.headlines_of_allows_publish hallowed
      rw [Trace.events_cons, Trace.due_published, hdue, Due.headlines_ofHeadlines,
        Trace.announcements, ← ih, hdue]
      simp [Exchange.event?, Exchange.announcement, Due.headlines]

/-- An invocation that does not go on with an event has nothing to announce. -/
theorem headlines_due_eq_nil (h : (reconcileAt settings trigger now).run.Reaches t rest)
    (hrest : ∀ event resume, rest ≠ .ask (.publish event) resume) :
    (Trace.due t).headlines = [] := by
  by_cases hdue : Trace.due t = .free
  · rw [hdue]
    rfl
  · obtain ⟨r, resume, rfl, hfulfils⟩ := exists_ask_of_due h hdue
    cases r with
    | publish event => exact absurd rfl (hrest event resume)
    | get | list | pick | delete | update => exact Due.headlines_of_allows hfulfils.allowed rfl

/-- The exchanges in which events are published, the latest first. -/
def published (events : List Event) : Trace :=
  (events.map fun event => ⟨.publish event, ()⟩).reverse

/-- What is due comes next, event by event. -/
theorem exists_published_due {later earlier : Trace}
    (h : (reconcileAt settings trigger now).run.Reaches (later ++ earlier) rest)
    (hrest : ∀ event resume, rest ≠ .ask (.publish event) resume) :
    ∃ after events, later = after ++ published events ∧
      events.map Event.headline = (Trace.due earlier).headlines ∧
      ∀ x, after.getLast? = some x → x.event? = none := by
  have hdutiful := dutiful_reconcileAt settings trigger now
  generalize hheadlines : (Trace.due earlier).headlines = headlines
  induction headlines generalizing later earlier with
  | nil =>
    refine ⟨later, [], by simp [published], rfl, fun x hx => ?_⟩
    obtain ⟨after, rfl⟩ := List.getLast?_eq_some_iff.1 hx
    rw [List.append_assoc, List.singleton_append] at h
    rw [Exchange.event?_eq]
    exact Due.event?_eq_none (hdutiful.asked h rfl).allowed hheadlines
  | cons next headlines ih =>
    obtain rfl | ⟨after, y, rfl⟩ := later.eq_nil_or_concat'
    · -- An invocation that has events to publish goes on with one.
      rw [List.nil_append] at h
      rw [headlines_due_eq_nil h hrest] at hheadlines
      cases hheadlines
    · rw [List.append_assoc, List.singleton_append] at h
      have hallowed := (hdutiful.asked h rfl).allowed
      obtain ⟨r, reply⟩ := y
      cases hevent : r.event? with
      | none =>
        rw [Due.headlines_of_allows hallowed hevent] at hheadlines
        cases hheadlines
      | some event =>
        obtain rfl := Request.eq_publish hevent
        obtain ⟨others, hdue⟩ := Due.headlines_of_allows_publish hallowed
        rw [hdue] at hheadlines
        obtain ⟨rfl, rfl⟩ : event.headline = next ∧ others = headlines := List.cons.inj hheadlines
        have hnext : (Trace.due (⟨.publish event, reply⟩ :: earlier)).headlines = others := by
          rw [Trace.due_published, hdue, Due.headlines_ofHeadlines]
          rfl
        obtain ⟨before, events, rfl, hmap, hlast⟩ := ih h hnext
        refine ⟨before, event :: events, ?_, ?_, hlast⟩
        · simp [published]
        · rw [List.map_cons, hmap]

/-! ## Writes that fail -/

/-- After a status that was not accepted no event is published. -/
theorem events_after_failure {later earlier : Trace} {x : Exchange}
    (h : (reconcileAt settings trigger now).run.Reaches (later ++ x :: earlier) rest)
    (hx : x.isFailedWrite = true) :
    Trace.events later = [] ∧ (Trace.due (later ++ x :: earlier)).headlines = [] := by
  induction later generalizing rest with
  | nil =>
    refine ⟨rfl, ?_⟩
    obtain ⟨r, reply⟩ := x
    cases r with
    | update base status =>
      cases reply with
      | error e => rfl
      | ok updated => cases hx
    | get | list | pick | delete | publish => cases hx
  | cons y later ih =>
    rw [List.cons_append] at h
    obtain ⟨resume, hasked⟩ := h.asked
    obtain ⟨hevents, hdue⟩ := ih hasked
    have hy : y.event? = none := by
      rw [Exchange.event?_eq]
      exact Due.event?_eq_none (fulfils_of_reaches hasked).allowed hdue
    refine ⟨by rw [Trace.events_cons, hevents, hy]; rfl, ?_⟩
    rw [List.cons_append, headlines_due_cons hy]
    obtain ⟨r, reply⟩ := y
    cases r with
    | update base status =>
      -- No status is written once a write has failed.
      obtain ⟨read, hstands, -⟩ := lawful_of_reaches hasked
      have hfailed : 0 < Trace.failedWrites (later ++ x :: earlier) :=
        List.countP_pos_iff.2 ⟨x, by simp, hx⟩
      have hnone := hstands.unfailed
      omega
    | get | list | pick | delete | publish => rfl

/-! ## Writes that are accepted -/

/-- The events by which a status is announced that has been written for `base` after `earlier`. -/
inductive Announces (earlier : Trace) (base updated : Experiment) (status : Status) :
    List Event → Prop
  | plain (event : Event) (hplain : Trace.struck earlier = false ∨ status.phase ≠ some .completed)
      (hgives : status.Gives event.reason)
      (hseverity : event.severity = .warning ↔ status.phase = some .failed)
      (hregarding : event.regarding = updated.reference) :
      Announces earlier base updated status [event]
  | merged (killed completed : Event) (hstruck : Trace.struck earlier = true)
      (hphase : status.phase = some .completed) (hgives : status.Gives "ExperimentCompleted")
      (hmode : base.spec.mode = .oneShot)
      (hduration : ∃ read, Trace.read? earlier = some read ∧ read.spec.duration = none)
      (hkilled : killed.headline = ⟨updated.reference, .normal, "PodKilled"⟩)
      (hcompleted : completed.headline = ⟨updated.reference, .normal, "ExperimentCompleted"⟩) :
      Announces earlier base updated status [killed, completed]

/-- A list of events with one headline is one event. -/
theorem eq_singleton_of_map {events : List Event} {headline : Headline}
    (h : events.map Event.headline = [headline]) :
    ∃ event, events = [event] ∧ event.headline = headline := by
  obtain ⟨event, others, rfl, hevent, hothers⟩ := List.map_eq_cons_iff.1 h
  rw [List.map_eq_nil_iff.1 hothers]
  exact ⟨event, rfl, hevent⟩

/-- A status that may be written is announced by the events that are due after it. -/
theorem announces_of_headlines {earlier : Trace} {base updated : Experiment} {status : Status}
    (hlawful : Lawful ⟨settings, trigger.name, now⟩ earlier (.update base status))
    (hfulfils : Fulfils earlier (.update base status)) {events : List Event}
    (hevents : events.map Event.headline = status.announcement (Trace.struck earlier) updated) :
    Announces earlier base updated status events := by
  unfold Status.announcement at hevents
  split at hevents
  next hmerged =>
    obtain ⟨hstruck, hphase⟩ := hmerged
    obtain ⟨-, read, hread, -, hended⟩ := (dated_of_lawful hlawful hfulfils).moved hstruck
    have honce : base.spec.mode = .oneShot ∧ read.spec.duration = none := by
      rw [hphase] at hended
      split at hended
      next honce => exact honce
      next => cases hended
    obtain ⟨killed, others, rfl, hkilled, hothers⟩ := List.map_eq_cons_iff.1 hevents
    obtain ⟨completed, rfl, hcompleted⟩ := eq_singleton_of_map hothers
    exact .merged killed completed hstruck hphase (hfulfils.concluding status rfl hphase) honce.1
      ⟨read, hread, honce.2⟩ hkilled hcompleted
  next hplain =>
    obtain ⟨read, -, hwrites, -⟩ := hlawful
    obtain ⟨reason, hgives⟩ : ∃ reason : Reason, status.Gives reason.text := by
      cases hwrites.derived with
      | kept phase reason message => exact ⟨reason, gives_nextStatus ..⟩
      | run phase reason message => exact ⟨reason, (gives_nextStatus ..).recordRun _⟩
    rw [hgives.progressing, Option.getD_some] at hevents
    obtain ⟨event, rfl, hevent⟩ := eq_singleton_of_map hevents
    obtain ⟨hregarding, hseverity, hreason⟩ := Headline.mk.inj hevent
    refine .plain event ?_ (hreason ▸ hgives) ?_ hregarding
    · cases hstruck : Trace.struck earlier with
      | false => exact .inl rfl
      | true => exact .inr fun hphase => hplain ⟨hstruck, hphase⟩
    · rw [hseverity]
      split
      next hfailed => simp [hfailed]
      next hfailed => simp [hfailed]

end Reconcile

/-- Where nothing has been accepted nothing is announced. -/
theorem Trace.announcements_eq_nil {t : Trace}
    (h : ∀ base status updated, ⟨.update base status, .ok updated⟩ ∉ t) : t.announcements = [] := by
  induction t with
  | nil => rfl
  | cons x t ih =>
    have hearlier : Trace.announcements t = [] :=
      ih fun base status updated hmem => h base status updated (List.mem_cons_of_mem x hmem)
    rw [Trace.announcements, hearlier, List.nil_append]
    obtain ⟨r, reply⟩ := x
    cases r with
    | update base status =>
      cases reply with
      | error e => rfl
      | ok updated => exact absurd List.mem_cons_self (h base status updated)
    | get | list | pick | delete | publish => rfl

/-! ## The main result -/

/-- The events of an invocation, whatever it is told, at its end and whenever it goes on with
    something else than an event. They announce the statuses that have been accepted, in their
    order. Each accepted status is followed at once by the events that announce it: by one that
    gives the reason of its conditions, and warns exactly if it tells a failure, or by two if it
    ends a one-shot run without a duration after a kill. A status that is refused is followed by
    no event, and where no status has been accepted there is none. -/
theorem written_announced {settings : Settings} {trigger : Experiment} {now : Instant}
    {t : Trace} {rest : Invocation (Except Error Revisit)}
    (h : (reconcileAt settings trigger now).run.Reaches t rest)
    (hrest : ∀ event resume, rest ≠ .ask (.publish event) resume) :
    t.events.map Event.headline = t.announcements ∧
    (∀ (later earlier : Trace) (base : Experiment) (status : Status) (updated : Experiment),
      t = later ++ ⟨.update base status, .ok updated⟩ :: earlier →
      ∃ after events, later = after ++ Reconcile.published events ∧
        (∀ x, after.getLast? = some x → x.event? = none) ∧
        Reconcile.Announces earlier base updated status events) ∧
    (∀ (later earlier : Trace) (base : Experiment) (status : Status) (e : Error),
      t = later ++ ⟨.update base status, .error e⟩ :: earlier → later.events = []) ∧
    ((∀ base status updated, ⟨.update base status, .ok updated⟩ ∉ t) → t.events = []) := by
  have hannounced : t.events.map Event.headline = t.announcements := by
    have hdue := Reconcile.headlines_events_append_due h
    rw [Reconcile.headlines_due_eq_nil h hrest, List.append_nil] at hdue
    exact hdue
  refine ⟨hannounced, ?_, ?_, ?_⟩
  · rintro later earlier base status updated rfl
    obtain ⟨after, events, hlater, hevents, hlast⟩ := Reconcile.exists_published_due h hrest
    rw [Trace.due_accepted, Due.headlines_ofHeadlines] at hevents
    refine ⟨after, events, hlater, hlast, ?_⟩
    -- What is known of the request when it is made tells how it is announced.
    have hlawful := (Reconcile.abides_reconcileAt settings trigger now).asked h rfl
    have hfulfils := (Reconcile.dutiful_reconcileAt settings trigger now).asked h rfl
    exact Reconcile.announces_of_headlines hlawful hfulfils hevents
  · rintro later earlier base status e rfl
    exact (Reconcile.events_after_failure h rfl).1
  · intro hnone
    rw [Trace.announcements_eq_nil hnone] at hannounced
    exact List.map_eq_nil_iff.1 hannounced

/-- A one-shot run without a duration: the kill and the end of the run are one write, and each of
    them has its event. -/
theorem written_announced_oneShot :
    let e := Experiment.sample .oneShot none (some .pending) none
    ∃ v : Visit, (∀ event resume, v.rest ≠ .ask (.publish event) resume) ∧
      v.trace.writes = 1 ∧ v.trace.events.map Event.reason = ["PodKilled", "ExperimentCompleted"] ∧
      ∃ later earlier status updated after events,
        v.trace = later ++ ⟨.update e status, .ok updated⟩ :: earlier ∧
        later = after ++ Reconcile.published events ∧
        Reconcile.Announces earlier e updated status events := by
  intro e
  have hact : Reconcile.step ⟨.standard, "sample", .sample 5⟩ e = _ :=
    Reconcile.step_of_acts (d := .attack) (show Spec.verdict _ = .valid none by decide)
      (show AttackKind.attack? _ = some .podKill from rfl) (by decide) rfl
  let start := Visit.begin .standard (.sample .oneShot none none none) (.sample 5)
  let read := start.answered (r := .get "lab" "sample") rfl (.ok (some e))
  have hread : read.rest = .ask (.list "lab" _) _ :=
    (Visit.rest_answered_get rfl rfl).trans ((congrArg ExceptT.run hact).trans rfl)
  let listed := read.answered hread (.ok [⟨"lab", "a"⟩])
  let picked := listed.answered (r := .pick 1) rfl (0 : Nat)
  let struck := picked.answered (r := .delete "lab" "a") rfl (.ok .deleted)
  let written := struck.answered (r := .update e _) rfl (.ok e)
  let told := written.answered (r := .publish _) rfl ()
  let v := told.answered (r := .publish _) rfl ()
  have hrest : ∀ event resume, v.rest ≠ .ask (.publish event) resume := fun _ _ h => nomatch h
  obtain ⟨-, haccepted, -⟩ := written_announced v.reaches hrest
  obtain ⟨after, events, hlater, -, hannounces⟩ := haccepted [_, _] _ e _ e rfl
  exact ⟨v, hrest, rfl, rfl, _, _, _, _, after, events, rfl, hlater, hannounces⟩

end ChaosController
