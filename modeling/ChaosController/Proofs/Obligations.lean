/-
  ChaosController.Proofs.Obligations

  What an invocation owes after an exchange.

  A pod that has been killed has to be recorded, and a status that has been written has to be
  announced; until then nothing else may be asked for. `Trace.due` tells what is due after a
  trace, and `dutiful_reconcileAt` says that an invocation always does it next and never ends
  before it. No status is written after the one that records a kill.
-/

import ChaosController.Proofs.Conditions

namespace ChaosController

/-! ## Kills -/

/-- Whether a pod has been killed: it was deleted, or it was gone already. -/
def Exchange.isKill : Exchange → Bool
  | ⟨.delete _ _, .ok _⟩ => true
  | ⟨.delete _ _, .error _⟩ => false
  | ⟨.get _ _, _⟩ | ⟨.list _ _, _⟩ | ⟨.pick _, _⟩ | ⟨.update _ _, _⟩ | ⟨.publish _, _⟩ => false

namespace Trace

/-- The number of pods that have been killed. -/
def kills (t : Trace) : Nat := t.countP Exchange.isKill

/-- Whether the last exchange has killed a pod. -/
def struck (t : Trace) : Bool := t.head?.any Exchange.isKill

@[simp] theorem kills_cons (x : Exchange) (t : Trace) :
    kills (x :: t) = kills t + if x.isKill then 1 else 0 := List.countP_cons

@[simp] theorem struck_cons (x : Exchange) (t : Trace) : struck (x :: t) = x.isKill := rfl

theorem kills_tail_le (t : Trace) : kills t.tail ≤ t.kills := by
  unfold kills
  exact List.Sublist.countP_le (List.tail_sublist t)

/-- Where no pod has been killed, the last exchange has not killed one. -/
theorem struck_eq_false {t : Trace} (h : t.kills = 0) : t.struck = false := by
  cases t with
  | nil => rfl
  | cons x t =>
    rw [kills_cons] at h
    rw [struck_cons]
    cases hx : x.isKill with
    | false => rfl
    | true => simp [hx] at h

end Trace

/-! ## Announcements -/

/-- What an event is about, apart from its wording. -/
structure Headline where
  regarding : ObjectReference
  severity : Severity
  reason : String
deriving DecidableEq, Repr

/-- The headline of an event. -/
def Event.headline (e : Event) : Headline := ⟨e.regarding, e.severity, e.reason⟩

namespace Status

/-- The reason that a status gives in its first condition of a kind. -/
def reason? (s : Status) (kind : String) : Option String := (s.condition? kind).map Condition.reason

/-- Both conditions of the controller give a reason. -/
structure Gives (s : Status) (reason : String) : Prop where
  progressing : s.reason? "Progressing" = some reason
  degraded : s.reason? "Degraded" = some reason

/-- Recording a run changes no condition. -/
theorem Gives.recordRun {s : Status} {reason : String} (h : s.Gives reason) (now : Instant) :
    (s.recordRun now).Gives reason := ⟨h.progressing, h.degraded⟩

/-- How a status is announced that has been written to a record: with its reason, and with a
    warning if it tells a failure. If it ends a run with the kill before it, the kill is
    announced first. -/
def announcement (s : Status) (struck : Bool) (updated : Experiment) : List Headline :=
  if struck = true ∧ s.phase = some .completed then
    [⟨updated.reference, .normal, Reason.podKilled.text⟩,
      ⟨updated.reference, .normal, Reason.completed.text⟩]
  else
    [⟨updated.reference, if s.phase = some .failed then .warning else .normal,
      (s.reason? "Progressing").getD ""⟩]

/-- Recording a run changes neither the phase nor the conditions. -/
@[simp] theorem announcement_recordRun (s : Status) (now : Instant) (struck : Bool)
    (updated : Experiment) :
    (s.recordRun now).announcement struck updated = s.announcement struck updated := rfl

end Status

namespace Reconcile

/-- The conditions of others give no reason for the controller's. -/
theorem find?_foreign (base : Experiment) {kind : String}
    (hkind : kind = "Progressing" ∨ kind = "Degraded") :
    base.foreign.find? (·.kind == kind) = none := by
  rw [List.find?_eq_none]
  intro c hc hck
  obtain ⟨-, hother⟩ := List.mem_filter.1 hc
  rw [beq_iff_eq] at hck
  obtain rfl | rfl := hkind
  · simp [hck] at hother
  · simp [hck] at hother

/-- The conditions of a status give the reason that it was made with. -/
theorem gives_nextStatus (base : Experiment) (phase : Phase) (reason : Reason) (message : String)
    (now : Instant) : (nextStatus base phase reason message now).Gives reason.text := by
  obtain ⟨progressing, degraded, hconditions, hprogressing, hdegraded⟩ :=
    reports_nextStatus base phase reason message now
  constructor
  · rw [Status.reason?, Status.condition?, hconditions, List.find?_append,
      find?_foreign base (.inl rfl), Option.none_or]
    simp [hprogressing.kind_eq, hprogressing.reason_eq]
  · rw [Status.reason?, Status.condition?, hconditions, List.find?_append,
      find?_foreign base (.inr rfl), Option.none_or]
    simp [hprogressing.kind_eq, hdegraded.kind_eq, hdegraded.reason_eq]

/-- A status is announced with its reason, unless it ends a run with a kill. -/
theorem announcement_nextStatus (base : Experiment) {phase : Phase} (reason : Reason)
    (message : String) (now : Instant) {struck : Bool} (updated : Experiment)
    (h : struck = false ∨ phase ≠ .completed) :
    (nextStatus base phase reason message now).announcement struck updated =
      [⟨updated.reference, if phase = .failed then .warning else .normal, reason.text⟩] := by
  have hplain : ¬ (struck = true ∧ some phase = some Phase.completed) := by
    rintro ⟨hstruck, hphase⟩
    obtain hfalse | hne := h
    · rw [hstruck] at hfalse
      cases hfalse
    · exact hne (Option.some.inj hphase)
  rw [Status.announcement, phase_nextStatus, if_neg hplain,
    (gives_nextStatus base phase reason message now).progressing]
  simp

end Reconcile

/-! ## What is due -/

/-- What an invocation has to do next. -/
inductive Due
  /-- Nothing in particular, but there is nothing to announce. -/
  | free
  /-- Write a status, because a pod has been killed. -/
  | record
  /-- Publish an event with this headline; others are to follow. -/
  | announce (next : Headline) (later : List Headline)
deriving DecidableEq

/-- The status that is to be written. -/
def Request.status? : Request → Option Status
  | .update _ status => some status
  | .get _ _ | .list _ _ | .pick _ | .delete _ _ | .publish _ => none

namespace Due

/-- Events have to be published, one after another. -/
def ofHeadlines : List Headline → Due
  | [] => free
  | next :: later => announce next later

/-- The events that are due. -/
def headlines : Due → List Headline
  | free | record => []
  | announce next later => next :: later

@[simp] theorem headlines_ofHeadlines (l : List Headline) : (ofHeadlines l).headlines = l := by
  cases l <;> rfl

/-- A request does what is due. -/
def Allows : Due → Request → Prop
  | free, .publish _ => False
  | free, .get _ _ | free, .list _ _ | free, .pick _ | free, .delete _ _ | free, .update _ _ => True
  | record, .update _ _ => True
  | record, .get _ _ | record, .list _ _ | record, .pick _ | record, .delete _ _
  | record, .publish _ => False
  | announce next _, .publish event => event.headline = next
  | announce _ _, .get _ _ | announce _ _, .list _ _ | announce _ _, .pick _
  | announce _ _, .delete _ _ | announce _ _, .update _ _ => False

end Due

/-- What is due after an exchange, if `before` was due. -/
def Exchange.due (struck : Bool) (before : Due) : Exchange → Due
  | ⟨.delete _ _, .ok _⟩ => .record
  | ⟨.update _ status, .ok updated⟩ => .ofHeadlines (status.announcement struck updated)
  | ⟨.publish _, _⟩ => .ofHeadlines before.headlines.tail
  | ⟨.delete _ _, .error _⟩ | ⟨.update _ _, .error _⟩ => .free
  | ⟨.get _ _, _⟩ | ⟨.list _ _, _⟩ | ⟨.pick _, _⟩ => .free

namespace Trace

/-- What is due after a trace. -/
def due : Trace → Due
  | [] => .free
  | x :: t => x.due (struck t) (due t)

@[simp] theorem due_refused (base : Experiment) (status : Status) (e : Error) (t : Trace) :
    due (⟨.update base status, .error e⟩ :: t) = .free := rfl

@[simp] theorem due_accepted (base : Experiment) (status : Status) (updated : Experiment)
    (t : Trace) : due (⟨.update base status, .ok updated⟩ :: t) =
      .ofHeadlines (status.announcement t.struck updated) := rfl

@[simp] theorem due_published (event : Event) (t : Trace) :
    due (⟨.publish event, ()⟩ :: t) = .ofHeadlines t.due.headlines.tail := rfl

end Trace

namespace Reconcile

/-- The requests that may follow a trace. What is due comes first; no status is written after the
    one that records a kill; and a status that ends a run gives no other reason than that. -/
structure Fulfils (t : Trace) (r : Request) : Prop where
  allowed : t.due.Allows r
  unrecorded : r.status?.isSome → Trace.kills t.tail = 0
  concluding : ∀ status, r.status? = some status → status.phase = some .completed →
    status.Gives Reason.completed.text

/-- An invocation always does what is due, and ends only if nothing is. -/
abbrev Dutiful {α : Type} (i : Invocation α) (t : Trace) : Prop :=
  i.Keeps Fulfils (fun t _ => t.due = .free) t

/-- Nothing is due, and no pod has been killed. -/
structure Free (t : Trace) : Prop where
  due_eq : t.due = .free
  unkilled : t.kills = 0

section Steps

variable {c : Context} {t : Trace} {base : Experiment}

/-- Where no status is written it is enough to do what is due. -/
theorem fulfils_of_allows {r : Request} (h : t.due.Allows r) (hr : r.status? = none) :
    Fulfils t r := by
  refine ⟨h, fun hsome => ?_, fun status hstatus => ?_⟩
  · rw [hr] at hsome
    cases hsome
  · rw [hr] at hstatus
    cases hstatus

/-- A status may be written that is told from a record. -/
theorem fulfils_write {phase : Phase} {reason : Reason} {status : Status}
    (hstatus : status.Gives reason.text) (hphase : status.phase = some phase)
    (hdue : t.due.Allows (.update base status)) (hkills : Trace.kills t.tail = 0)
    (hreason : phase = .completed → reason = .completed) :
    Fulfils t (.update base status) := by
  refine ⟨hdue, fun _ => hkills, fun other hother hcompleted => ?_⟩
  obtain rfl := Option.some.inj hother
  rw [hphase] at hcompleted
  rw [hreason (Option.some.inj hcompleted)] at hstatus
  exact hstatus

namespace Free

theorem fulfils (h : Free t) {r : Request} (hr : Due.free.Allows r) (hstatus : r.status? = none) :
    Fulfils t r := fulfils_of_allows (h.due_eq ▸ hr) hstatus

theorem fulfils_write (h : Free t) {phase : Phase} {reason : Reason} (message : String)
    (hreason : phase = .completed → reason = .completed) :
    Fulfils t (.update base (nextStatus base phase reason message c.now)) := by
  have hle := t.kills_tail_le
  have hnone := h.unkilled
  refine Reconcile.fulfils_write (gives_nextStatus ..) rfl ?_ (by omega) hreason
  rw [h.due_eq]
  trivial

/-- A call after which nothing is due leaves an invocation free. -/
theorem cons (h : Free t) {x : Exchange} (hdue : x.due t.struck t.due = .free)
    (hx : x.isKill = false) : Free (x :: t) where
  due_eq := hdue
  unkilled := by simp [h.unkilled, hx]

end Free

/-- The event by which a status is announced that is written while nothing is due. -/
theorem Free.due_accepted (h : Free t) (phase : Phase) (reason : Reason) (message : String)
    (updated : Experiment) :
    Trace.due (⟨.update base (nextStatus base phase reason message c.now), .ok updated⟩ :: t) =
      .announce ⟨updated.reference, if phase = .failed then .warning else .normal, reason.text⟩
        [] := by
  have hstruck : t.struck = false := Trace.struck_eq_false h.unkilled
  rw [Trace.due_accepted, announcement_nextStatus _ _ _ _ _ (.inl hstruck)]
  rfl

/-- After a status has been written and announced, the invocation is free again. -/
theorem Free.announced (h : Free t) (phase : Phase) (reason : Reason) (message : String)
    (updated : Experiment) (event : Event) :
    Free (⟨.publish event, ()⟩ ::
      ⟨.update base (nextStatus base phase reason message c.now), .ok updated⟩ :: t) where
  due_eq := by
    rw [Trace.due_published, h.due_accepted]
    rfl
  unkilled := by simp [Exchange.isKill, h.unkilled]

/-- A status is written and announced. -/
theorem dutiful_announce_bind {α : Type} (h : Free t) {phase : Phase} {reason : Reason}
    {message : String} {note : Experiment → String} {severity : Severity} {activity : Activity}
    (hs : severity = if phase = .failed then .warning else .normal)
    (hreason : phase = .completed → reason = .completed)
    {f : Experiment → Attempt α} (hf : ∀ updated t, Free t → Dutiful (f updated).run t) :
    Dutiful (write base (nextStatus base phase reason message c.now) >>= fun updated =>
      publish updated severity reason activity (note updated) >>= fun _ => f updated).run t := by
  rw [Dutiful, keeps_write_bind]
  refine ⟨h.fulfils_write message hreason, fun e => Trace.due_refused .., fun updated => ?_⟩
  rw [keeps_publish_bind]
  refine ⟨fulfils_of_allows ?_ rfl, hf updated _ (h.announced ..)⟩
  rw [h.due_accepted, hs]
  rfl

theorem dutiful_fail_bind {α : Type} (h : Free t) {reason : Reason} {activity : Activity}
    {message note : String} {f : Except Error Experiment → Invocation α}
    (hf : ∀ r t, t.due = .free → Dutiful (f r) t) :
    Dutiful ((fail c base reason activity message note).run >>= f) t := by
  rw [Dutiful, keeps_fail_bind_iff]
  have hreason : Phase.failed = .completed → reason = .completed := nofun
  refine ⟨h.fulfils_write message hreason, fun e => hf _ _ (Trace.due_refused ..),
    fun updated => ?_⟩
  refine ⟨fulfils_of_allows ?_ rfl, hf _ _ (h.announced ..).due_eq⟩
  rw [h.due_accepted]
  rfl

/-- After a kill the next thing is the write that records it. -/
theorem dutiful_killed (h : Free t) (known : Attack) (duration : Option Duration) (pod : Pod)
    (ns name : String) (deletion : Deletion) :
    Dutiful (killed c base known duration pod).run (⟨.delete ns name, .ok deletion⟩ :: t) := by
  unfold killed
  cases delayAfterAttack base.spec.mode duration c.settings.recurringInterval with
  | some delay =>
    have hwrite (message : String) : Fulfils (⟨.delete ns name, .ok deletion⟩ :: t)
        (.update base ((nextStatus base .running .podKilled message c.now).recordRun c.now)) :=
      fulfils_write ((gives_nextStatus ..).recordRun c.now) rfl trivial h.unkilled nofun
    have hdue (message : String) (updated : Experiment) :
        Trace.due (⟨.update base ((nextStatus base .running .podKilled message c.now).recordRun
            c.now), .ok updated⟩ :: ⟨.delete ns name, .ok deletion⟩ :: t) =
          .announce ⟨updated.reference, .normal, Reason.podKilled.text⟩ [] := by
      rw [Trace.due_accepted, Status.announcement_recordRun,
        announcement_nextStatus _ _ _ _ _ (.inr (by decide))]
      rfl
    rw [Dutiful, keeps_write_bind]
    refine ⟨hwrite _, fun e => Trace.due_refused .., fun updated => ?_⟩
    rw [keeps_publish_bind]
    refine ⟨fulfils_of_allows ?_ rfl, ?_⟩
    · rw [hdue]
      rfl
    · show Trace.due _ = .free
      rw [Trace.due_published, hdue]
      rfl
  | none =>
    have hwrite (message : String) : Fulfils (⟨.delete ns name, .ok deletion⟩ :: t)
        (.update base ((nextStatus base .completed .completed message c.now).recordRun c.now)) :=
      fulfils_write ((gives_nextStatus ..).recordRun c.now) rfl trivial h.unkilled fun _ => rfl
    -- Two events are due, because the write ends the run as well.
    have hdue (message : String) (updated : Experiment) :
        Trace.due (⟨.update base ((nextStatus base .completed .completed message c.now).recordRun
            c.now), .ok updated⟩ :: ⟨.delete ns name, .ok deletion⟩ :: t) =
          .announce ⟨updated.reference, .normal, Reason.podKilled.text⟩
            [⟨updated.reference, .normal, Reason.completed.text⟩] := rfl
    rw [Dutiful, keeps_write_bind]
    refine ⟨hwrite _, fun e => Trace.due_refused .., fun updated => ?_⟩
    rw [keeps_publish_bind]
    refine ⟨fulfils_of_allows ?_ rfl, ?_⟩
    · rw [hdue]
      rfl
    simp only [publishCompleted]
    rw [keeps_publish_bind]
    refine ⟨fulfils_of_allows ?_ rfl, ?_⟩
    · rw [Trace.due_published, hdue]
      rfl
    · show Trace.due _ = .free
      rw [Trace.due_published, Trace.due_published, hdue]
      rfl

theorem dutiful_attackFailed (h : Free t) (known : Attack) (failure : AttackFailure) :
    Dutiful (attackFailed c base known failure).run t := by
  cases failure <;> exact dutiful_fail_bind h fun _ t ht => ht

theorem dutiful_noTargets (h : Free t) : Dutiful (noTargets c base).run t := by
  refine dutiful_fail_bind h fun r t ht => ?_
  cases r <;> exact ht

/-- An attack comes while the invocation is free, and a pod is killed at its end only. -/
theorem dutiful_attack (h : Free t) (known : Attack) (duration : Option Duration) :
    Dutiful (attack c base known duration).run t := by
  unfold attack
  rw [Dutiful, ExceptT.run_bind_lift]
  have hlisted (reply : Except Error (List Pod)) :
      Free (⟨.list base.spec.target.namespace base.spec.target.selector, reply⟩ :: t) :=
    h.cons rfl rfl
  apply Attack.keeps_execute_bind
  · exact h.fulfils trivial rfl
  · exact fun cause => dutiful_attackFailed (hlisted _) known _
  · exact dutiful_noTargets (hlisted _)
  · intro pods _
    refine ⟨(hlisted _).fulfils trivial rfl, fun index => ?_⟩
    have hpicked : Free (⟨.pick pods.length, index⟩ :: _) := (hlisted (.ok pods)).cons rfl rfl
    refine ⟨fun _ => dutiful_attackFailed hpicked known _, fun pod _ => ?_⟩
    refine ⟨hpicked.fulfils trivial rfl, fun cause => ?_, fun deletion => ?_⟩
    · exact dutiful_attackFailed (hpicked.cons rfl rfl) known _
    · exact dutiful_killed hpicked known duration pod _ _ deletion

theorem dutiful_retrigger_attack (h : Free t) (known : Attack) (duration : Option Duration) :
    Dutiful (retrigger c base >>= fun updated => attack c updated known duration).run t := by
  simp only [retrigger, bind_assoc, pure_bind]
  refine dutiful_announce_bind h rfl ?_ fun updated t h => dutiful_attack h known duration
  intro hphase
  cases hphase

theorem dutiful_act (h : Free t) (decision : Decision) (known : Attack)
    (duration : Option Duration) : Dutiful (act c base decision known duration).run t := by
  unfold act
  split
  next =>
    simp only [complete, publishCompleted, bind_assoc, pure_bind]
    refine dutiful_announce_bind h rfl (fun _ => rfl) fun updated t h => ?_
    split
    next => exact h.due_eq
    next => exact dutiful_retrigger_attack h known duration
  next => exact dutiful_retrigger_attack h known duration
  next => exact dutiful_attack h known duration

theorem dutiful_checkAndAct (h : Free t) (decision : Decision) (verdict : Verdict) :
    Dutiful (checkAndAct c base decision verdict).run t := by
  unfold checkAndAct
  split
  next => exact dutiful_act h decision _ _
  next => exact dutiful_fail_bind h fun r t ht => by cases r <;> exact ht
  next => exact dutiful_fail_bind h fun r t ht => by cases r <;> exact ht
  next => exact h.due_eq

theorem dutiful_step (h : Free t) : Dutiful (step c base).run t := by
  unfold step
  split
  next => exact h.due_eq
  next =>
    split
    next =>
      simp only [enroll, bind_assoc, pure_bind]
      refine dutiful_announce_bind h rfl ?_ fun updated t h => h.due_eq
      intro hphase
      cases hphase
    next => exact h.due_eq
    next => exact h.due_eq
    next => exact dutiful_checkAndAct h _ _

end Steps

/-- Whatever an invocation is told, it does what is due before anything else, and never ends
    before it. -/
theorem dutiful_reconcileAt (settings : Settings) (trigger : Experiment) (now : Instant) :
    Dutiful (reconcileAt settings trigger now).run [] := by
  have hstart : Free [] := ⟨rfl, rfl⟩
  unfold reconcileAt
  split
  next => exact hstart.due_eq
  next ns _ =>
    refine ⟨hstart.fulfils trivial rfl, fun reply => ?_⟩
    have hread : Free [⟨.get ns trigger.name, reply⟩] := hstart.cons rfl rfl
    match reply with
    | .error e => exact hread.due_eq
    | .ok none => exact hread.due_eq
    | .ok (some read) => exact dutiful_step hread

section

variable {settings : Settings} {trigger : Experiment} {now : Instant} {t : Trace}

/-- What an invocation asks for does what is due. -/
theorem fulfils_of_reaches {r : Request} {resume : r.Reply → Invocation (Except Error Revisit)}
    (h : (reconcileAt settings trigger now).run.Reaches t (.ask r resume)) : Fulfils t r :=
  ((dutiful_reconcileAt settings trigger now).reaches h).1

/-- While something is due an invocation is not over. -/
theorem exists_ask_of_due {rest : Invocation (Except Error Revisit)}
    (h : (reconcileAt settings trigger now).run.Reaches t rest) (hdue : t.due ≠ .free) :
    ∃ r resume, rest = .ask r resume ∧ Fulfils t r := by
  have hkeeps := (dutiful_reconcileAt settings trigger now).reaches h
  cases rest with
  | done result => exact absurd hkeeps hdue
  | abort => exact absurd hkeeps hdue
  | ask r resume => exact ⟨r, resume, rfl, hkeeps.1⟩

end

end Reconcile

end ChaosController
