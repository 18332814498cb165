/-
  ChaosController.Proofs.Deadline

  What a deadline does to an invocation.

  An invocation that is cut off has made the first exchanges of the same invocation without a
  deadline, and nothing else has happened: the record, the pods and the events are as those
  exchanges leave them. An invocation that is over in time is not touched by the deadline at all
  (`visitInTime_prefix`). The failures and the delay of a call may depend on all calls before it.
-/

import ChaosController.Cluster
import ChaosController.Proofs.Trace

namespace ChaosController

/-! ## Recorded runs -/

namespace Invocation

variable {σ α : Type} (answer : σ → (r : Request) → Option r.Reply × σ)

/-- Answers as before, and keeps the exchanges, the latest first. -/
def recorded (s : σ × Trace) (r : Request) : Option r.Reply × (σ × Trace) :=
  match answer s.1 r with
  | (none, next) => (none, next, s.2)
  | (some reply, next) => (some reply, next, ⟨r, reply⟩ :: s.2)

variable {answer}

/-- The run of a request that is answered goes on with the reply. -/
theorem run_recorded_of_some {r : Request} {resume : r.Reply → Invocation α} {s next : σ}
    {t : Trace} {reply : r.Reply} (h : answer s r = (some reply, next)) :
    (ask r resume).run (recorded answer) (s, t) =
      (resume reply).run (recorded answer) (next, ⟨r, reply⟩ :: t) := by
  simp only [run, recorded, h]

/-- The run of a request that is not answered is cut off. -/
theorem run_recorded_of_none {r : Request} {resume : r.Reply → Invocation α} {s next : σ}
    {t : Trace} (h : answer s r = (none, next)) :
    (ask r resume).run (recorded answer) (s, t) = (.cutOff, next, t) := by
  simp only [run, recorded, h]

/-- A recorded run is the run itself, with its exchanges. -/
theorem run_recorded (i : Invocation α) (s : σ) (t : Trace) :
    i.run answer s =
      ((i.run (recorded answer) (s, t)).1, (i.run (recorded answer) (s, t)).2.1) := by
  induction i generalizing s t with
  | done | abort => rfl
  | ask r resume ih =>
    rcases h : answer s r with ⟨_ | reply, next⟩
    · rw [run_recorded_of_none h]
      simp only [run, h]
    · rw [run_recorded_of_some h, ← ih]
      simp only [run, h]

/-- What every answer keeps is kept by a run. -/
theorem run_invariant {P : σ → Prop} (hanswer : ∀ s (r : Request), P s → P (answer s r).2)
    (i : Invocation α) {s : σ} (h : P s) : P (i.run answer s).2 := by
  -- By induction on the invocation; the state moves on with each answer.
  induction i generalizing s with
  | done | abort => exact h
  | ask r resume ih =>
    have hnext := hanswer s r h
    simp only [run]
    split
    next ha => rwa [ha] at hnext
    next ha =>
      rw [ha] at hnext
      exact ih _ hnext

/-- What every answer keeps is kept by a recorded run. -/
theorem run_recorded_invariant {P : σ → Trace → Prop}
    (hanswer : ∀ s t (r : Request), P s t →
      match answer s r with
      | (none, next) => P next t
      | (some reply, next) => P next (⟨r, reply⟩ :: t))
    (i : Invocation α) {s : σ} {t : Trace} (h : P s t) :
    P (i.run (recorded answer) (s, t)).2.1 (i.run (recorded answer) (s, t)).2.2 := by
  have hrecorded (p : σ × Trace) (r : Request) (hp : P p.1 p.2) :
      P (recorded answer p r).2.1 (recorded answer p r).2.2 := by
    have hnext := hanswer p.1 p.2 r hp
    unfold recorded
    split
    next ha => rwa [ha] at hnext
    next ha => rwa [ha] at hnext
  exact @run_invariant (σ × Trace) α (recorded answer) (fun p => P p.1 p.2) hrecorded i (s, t) h

end Invocation

/-! ## Effects -/

namespace Exchange

/-- The record that an accepted status write leaves. -/
def written? : Exchange → Option Experiment
  | ⟨.update _ _, .ok updated⟩ => some updated
  | ⟨.update _ _, .error _⟩ => none
  | ⟨.get _ _, _⟩ | ⟨.list _ _, _⟩ | ⟨.pick _, _⟩ | ⟨.delete _ _, _⟩ | ⟨.publish _, _⟩ => none

/-- The pod that has been deleted. -/
def deleted? : Exchange → Option Pod
  | ⟨.delete ns name, .ok .deleted⟩ => some ⟨ns, name⟩
  | ⟨.delete _ _, .ok .notFound⟩ | ⟨.delete _ _, .error _⟩ => none
  | ⟨.get _ _, _⟩ | ⟨.list _ _, _⟩ | ⟨.pick _, _⟩ | ⟨.update _ _, _⟩ | ⟨.publish _, _⟩ => none

/-- The event that has been published. -/
def event? : Exchange → Option Event
  | ⟨.publish event, _⟩ => some event
  | ⟨.get _ _, _⟩ | ⟨.list _ _, _⟩ | ⟨.pick _, _⟩ | ⟨.delete _ _, _⟩ | ⟨.update _ _, _⟩ => none

end Exchange

namespace Session

/-- What is left of a session `s` by the exchanges of a trace: the record of the last accepted
    write, the pods that have not been deleted, and the events in their order. -/
structure LeftBy (s : Session) (t : Trace) (next : Session) : Prop where
  record : next.cluster.record = (t.findSome? Exchange.written?).or s.cluster.record
  pods : next.cluster.pods = s.cluster.pods.filter (! (t.filterMap Exchange.deleted?).contains ·)
  events : next.events = s.events ++
    if s.recordEvents then (t.filterMap Exchange.event?).reverse else []
  recordEvents : next.recordEvents = s.recordEvents

theorem LeftBy.nil (s : Session) : s.LeftBy [] s where
  record := by simp
  pods := (List.filter_eq_self.2 fun _ _ => rfl).symm
  events := by simp
  recordEvents := rfl

namespace LeftBy

variable {s now next : Session} {t : Trace}

/-- An exchange may write a record, delete a pod and publish an event. -/
theorem cons (h : s.LeftBy t now) {x : Exchange}
    (hrecord : next.cluster.record = x.written?.or now.cluster.record)
    (hpods : next.cluster.pods = x.deleted?.elim now.cluster.pods fun pod =>
      now.cluster.pods.filter (· != pod))
    (hevents : next.events = now.events ++ if now.recordEvents then x.event?.toList else [])
    (hon : next.recordEvents = now.recordEvents) : s.LeftBy (x :: t) next where
  record := by
    rw [hrecord, h.record]
    cases hx : x.written? <;> simp [List.findSome?, hx]
  pods := by
    rw [hpods, h.pods]
    cases hx : x.deleted? with
    | none => simp [hx]
    | some gone =>
      simp only [Option.elim, List.filter_filter, List.filterMap_cons, hx]
      refine List.filter_congr fun pod _ => ?_
      by_cases hp : pod = gone <;> simp [hp]
  events := by
    rw [hevents, h.events, h.recordEvents]
    cases hx : x.event? <;> cases s.recordEvents <;> simp [hx]
  recordEvents := hon.trans h.recordEvents

/-- An exchange without an effect leaves a session as it is. -/
theorem cons_of_none (h : s.LeftBy t now) {x : Exchange} (hw : x.written? = none)
    (hd : x.deleted? = none) (he : x.event? = none) (hcluster : next.cluster = now.cluster)
    (hevents : next.events = now.events) (hon : next.recordEvents = now.recordEvents) :
    s.LeftBy (x :: t) next :=
  h.cons (by simp [hw, hcluster]) (by simp [hd, hcluster]) (by simp [he, hevents]) hon

theorem congr (h : s.LeftBy t now) (hcluster : next.cluster = now.cluster)
    (hevents : next.events = now.events) (hrecord : next.recordEvents = now.recordEvents) :
    s.LeftBy t next where
  record := hcluster ▸ h.record
  pods := hcluster ▸ h.pods
  events := hevents.trans h.events
  recordEvents := hrecord.trans h.recordEvents

end LeftBy

/-! ### One effect after another -/

section LeftBy

variable {s now : Session} {t : Trace}

theorem leftBy_read (h : s.LeftBy t now) (ns name : String) :
    s.LeftBy (⟨.get ns name, now.read.1⟩ :: t) now.read.2 := by
  unfold read
  split <;> exact h.cons_of_none rfl rfl rfl rfl rfl rfl

theorem leftBy_listPods (h : s.LeftBy t now) (ns selector : String) :
    s.LeftBy (⟨.list ns selector, now.listPods.1⟩ :: t) now.listPods.2 := by
  unfold listPods
  split <;> exact h.cons_of_none rfl rfl rfl rfl rfl rfl

theorem leftBy_delete (h : s.LeftBy t now) (ns name : String) :
    s.LeftBy (⟨.delete ns name, (now.delete ⟨ns, name⟩).1⟩ :: t) (now.delete ⟨ns, name⟩).2 := by
  unfold delete
  split
  next => exact h.cons_of_none rfl rfl rfl rfl rfl rfl
  next => exact h.cons_of_none rfl rfl rfl rfl rfl rfl
  next =>
    by_cases hmem : (⟨ns, name⟩ : Pod) ∈ now.cluster.pods
    · have hdeleted : now.cluster.delete ⟨ns, name⟩ =
          (.deleted, { now.cluster with pods := now.cluster.pods.filter (· != ⟨ns, name⟩) }) := by
        simp [Cluster.delete, hmem]
      rw [hdeleted]
      exact h.cons rfl rfl (by simp [Exchange.event?]) rfl
    · -- A pod that is not there is deleted from nothing.
      have hkept : now.cluster.delete ⟨ns, name⟩ = (.notFound, now.cluster) := by
        have hfilter : now.cluster.pods.filter (· != ⟨ns, name⟩) = now.cluster.pods :=
          List.filter_eq_self.2 fun pod hp => by
            simpa using fun heq : pod = ⟨ns, name⟩ => hmem (heq ▸ hp)
        simp [Cluster.delete, hmem, hfilter]
      rw [hkept]
      exact h.cons_of_none rfl rfl rfl rfl rfl rfl

theorem leftBy_update (h : s.LeftBy t now) (base : Experiment) (status : Status) :
    s.LeftBy (⟨.update base status, (now.update base status).1⟩ :: t)
      (now.update base status).2 := by
  unfold update
  split
  next => exact h.cons_of_none rfl rfl rfl rfl rfl rfl
  next =>
    -- Of the writes that reach the cluster only one for the stored version changes anything.
    cases hr : now.cluster.record with
    | none =>
      simp only [Cluster.update, hr]
      exact h.cons_of_none rfl rfl rfl rfl rfl rfl
    | some record =>
      by_cases hv : record.metadata.resourceVersion = base.metadata.resourceVersion
      · rw [Cluster.update_of_version hr hv]
        exact h.cons rfl rfl (by simp [Exchange.event?]) rfl
      · rw [Cluster.update_of_stale hr hv]
        exact h.cons_of_none rfl rfl rfl rfl rfl rfl

end LeftBy

/-! ## Answers

A call is logged, waits, and takes effect. Its effect does not look at the deadline: only
whether it happens depends on that. -/

/-- The session with another deadline. -/
def under (s : Session) (deadline : Option Nat) : Session := { s with deadline := deadline }

/-- What an answer to a request does once its wait is over. -/
structure Answers (r : Request) (effect : Session → r.Reply × Session) : Prop where
  under : ∀ (s : Session) deadline, effect (s.under deadline) =
    ((effect s).1, (effect s).2.under deadline)
  clock : ∀ s, (effect s).2.clock = s.clock
  calls : ∀ s, s.calls <+: (effect s).2.calls
  faults : ∀ s, (effect s).2.faults = s.faults
  leftBy : ∀ {s now : Session} {t}, s.LeftBy t now →
    s.LeftBy (⟨r, (effect now).1⟩ :: t) (effect now).2

theorem answers_read (ns name : String) : Answers (.get ns name) read where
  under s _ := by unfold read Session.under; cases s.faults.get <;> rfl
  clock s := by unfold read; cases s.faults.get <;> rfl
  calls s := by unfold read; cases s.faults.get <;> exact List.prefix_rfl
  faults s := by unfold read; cases s.faults.get <;> rfl
  leftBy h := leftBy_read h ns name

theorem answers_listPods (ns selector : String) : Answers (.list ns selector) listPods where
  under s _ := by unfold listPods Session.under; cases s.faults.list <;> rfl
  clock s := by unfold listPods; cases s.faults.list <;> rfl
  calls s := by unfold listPods; cases s.faults.list <;> exact List.prefix_rfl
  faults s := by unfold listPods; cases s.faults.list <;> rfl
  leftBy h := leftBy_listPods h ns selector

theorem answers_delete (ns name : String) :
    Answers (.delete ns name) (delete ⟨ns, name⟩) where
  under s _ := by unfold delete Session.under; split <;> simp_all
  clock s := by unfold delete; split <;> rfl
  calls s := by unfold delete; split <;> exact List.prefix_rfl
  faults s := by unfold delete; split <;> rfl
  leftBy h := leftBy_delete h ns name

theorem answers_update (base : Experiment) (status : Status) :
    Answers (.update base status) (update base status) where
  under s _ := by unfold update Session.under; split <;> simp_all
  clock s := by unfold update; split <;> rfl
  calls s := by unfold update; split <;> exact List.prefix_rfl
  faults s := by unfold update; split <;> rfl
  leftBy h := leftBy_update h base status

/-- Picks the next of the prepared picks. -/
def takePick (count : Nat) (s : Session) : Nat × Session :=
  (s.picks.headD 0, { s.log (.pick count (s.picks.headD 0)) with picks := s.picks.tail })

/-- Records an event, if events are recorded. -/
def recordEvent (event : Event) (s : Session) : Unit × Session :=
  ((), if s.recordEvents then { s with events := s.events ++ [event] } else s)

theorem answers_takePick (count : Nat) : Answers (.pick count) (takePick count) where
  under _ _ := rfl
  clock _ := rfl
  calls _ := List.prefix_append _ _
  faults _ := rfl
  leftBy h := h.cons_of_none rfl rfl rfl rfl rfl rfl

theorem answers_recordEvent (event : Event) : Answers (.publish event) (recordEvent event) where
  under s _ := by unfold recordEvent Session.under; split <;> rfl
  clock s := by unfold recordEvent; split <;> rfl
  calls s := by unfold recordEvent; split <;> exact List.prefix_rfl
  faults s := by unfold recordEvent; split <;> rfl
  leftBy {s now t} h := by
    unfold recordEvent
    refine h.cons ?_ ?_ ?_ ?_
    all_goals split <;> simp [Exchange.written?, Exchange.deleted?, Exchange.event?, *]

/-- A request is answered at once, or logged as a call and answered after a wait. -/
theorem answer_cases (s : Session) (r : Request) : ∃ effect, Answers r effect ∧
    ((∀ deadline, (s.under deadline).answer r =
        (some (effect (s.under deadline)).1, (effect (s.under deadline)).2)) ∨
      ∃ call delay, ∀ deadline, (s.under deadline).answer r =
        ((s.under deadline).log call).after delay effect) := by
  cases r with
  | get ns name =>
    exact ⟨_, answers_read ns name,
      .inr ⟨.get ns name, s.faults.getDelay, fun _ => rfl⟩⟩
  | list ns selector =>
    exact ⟨_, answers_listPods ns selector,
      .inr ⟨.list ns selector, s.faults.listDelay, fun _ => rfl⟩⟩
  | pick count => exact ⟨_, answers_takePick count, .inl fun _ => rfl⟩
  | delete ns name =>
    exact ⟨_, answers_delete ns name,
      .inr ⟨.delete ns name, s.faults.deleteDelay, fun _ => rfl⟩⟩
  | update base status =>
    exact ⟨_, answers_update base status,
      .inr ⟨.update base.metadata.resourceVersion status, s.faults.updateDelay, fun _ => rfl⟩⟩
  | publish event => exact ⟨_, answers_recordEvent event, .inl fun _ => rfl⟩

/-- A wait that ends in time. -/
theorem after_of_le {α : Type} {s : Session} {delay : Duration}
    {effect : Session → α × Session} (h : s.deadline.all (Clock.moment s.clock delay ≤ ·)) :
    s.after delay effect =
      (some (effect { s with clock := Clock.moment s.clock delay }).1,
        (effect { s with clock := Clock.moment s.clock delay }).2) := by
  simp [after, wait?, h]

/-- A wait that would end after the deadline. -/
theorem after_of_lt {α : Type} {s : Session} {delay : Duration}
    {effect : Session → α × Session} {limit : Nat} (hlimit : s.deadline = some limit)
    (h : limit < Clock.moment s.clock delay) : s.after delay effect = (none, s) := by
  -- For any moment at once, so that the kernel does not compute the one at hand.
  have hlate {moment : Nat} (h : limit < moment) : ¬ (some limit).all (moment ≤ ·) := by
    simpa using h
  have hwait : s.wait? delay = none := if_neg (hlimit ▸ hlate h)
  simp only [after, hwait]

/-! ## Plans -/

/-- Which failures and delays the next call has, given the calls before it. -/
abbrev Plan := List Call → Faults

/-- Answers a request with the failures and delays that a plan has for it. -/
def answerBy (plan : Plan) (s : Session) (r : Request) : Option r.Reply × Session :=
  ({ s with faults := plan s.calls } : Session).answer r

/-- A plan has been followed, a call may have been logged and a wait may have passed; nothing
    else has happened. -/
structure Awaits (plan : Plan) (s waited : Session) : Prop where
  faults : waited.faults = plan s.calls
  cluster : waited.cluster = s.cluster
  events : waited.events = s.events
  recordEvents : waited.recordEvents = s.recordEvents
  calls : s.calls <+: waited.calls
  clock : waited.clock = s.clock ∨ ∃ delay, waited.clock = Clock.moment s.clock delay

/-- An answer takes effect at once, or after a wait; if the wait is longer than the deadline
    allows, only the call is logged. -/
theorem answerBy_cases (plan : Plan) (s : Session) (r : Request) :
    ∃ effect waited, Answers r effect ∧ Awaits plan s waited ∧
      ((waited.clock = s.clock ∧ ∀ deadline, answerBy plan (s.under deadline) r =
          (some (effect (waited.under deadline)).1, (effect (waited.under deadline)).2)) ∨
        waited.clock ≤ Clock.lastMoment ∧
          (∀ deadline, deadline.all (waited.clock ≤ ·) →
            answerBy plan (s.under deadline) r =
              (some (effect (waited.under deadline)).1, (effect (waited.under deadline)).2)) ∧
          ∀ limit, limit < waited.clock → ∃ late, Awaits plan s late ∧ late.calls = waited.calls ∧
            answerBy plan (s.under (some limit)) r = (none, late)) := by
  obtain ⟨effect, heffect, hans | ⟨call, delay, hans⟩⟩ :=
    answer_cases { s with faults := plan s.calls } r
  · exact ⟨effect, { s with faults := plan s.calls }, heffect,
      ⟨rfl, rfl, rfl, rfl, List.prefix_rfl, .inl rfl⟩, .inl ⟨rfl, hans⟩⟩
  · let logged : Session := { s with faults := plan s.calls, calls := s.calls ++ [call] }
    have hcalls : s.calls <+: logged.calls := List.prefix_append _ _
    refine ⟨effect, { logged with clock := Clock.moment s.clock delay }, heffect,
      ⟨rfl, rfl, rfl, rfl, hcalls, .inr ⟨delay, rfl⟩⟩,
      .inr ⟨Nat.min_le_right _ _, fun deadline h => ?_, fun limit h => ?_⟩⟩
    · exact (hans deadline).trans (after_of_le h)
    · exact ⟨logged.under (some limit), ⟨rfl, rfl, rfl, rfl, hcalls, .inl rfl⟩, rfl,
        (hans (some limit)).trans (after_of_lt rfl h)⟩

/-- The same for the deadline that a session has. -/
theorem answerBy_awaits (plan : Plan) (s : Session) (r : Request) :
    ∃ effect waited, Answers r effect ∧ Awaits plan s waited ∧
      (answerBy plan s r = (some (effect waited).1, (effect waited).2) ∨
        answerBy plan s r = (none, waited)) := by
  obtain ⟨effect, waited, heffect, hawaits, hans⟩ := answerBy_cases plan s r
  have hunder : Awaits plan s (waited.under s.deadline) :=
    ⟨hawaits.faults, hawaits.cluster, hawaits.events, hawaits.recordEvents, hawaits.calls,
      hawaits.clock⟩
  rcases hans with ⟨-, hans⟩ | ⟨-, hinTime, hlate⟩
  · exact ⟨effect, _, heffect, hunder, .inl (hans s.deadline)⟩
  · by_cases hle : s.deadline.all (waited.clock ≤ ·)
    · exact ⟨effect, _, heffect, hunder, .inl (hinTime s.deadline hle)⟩
    · -- There is a deadline, and it comes first.
      obtain ⟨limit, hlimit⟩ : ∃ limit, s.deadline = some limit := by
        cases h : s.deadline with
        | none => simp [h] at hle
        | some limit => exact ⟨limit, rfl⟩
      obtain ⟨late, hawaits, -, hans⟩ := hlate limit (by simpa [hlimit] using hle)
      exact ⟨effect, late, heffect, hawaits, .inr (by rwa [← hlimit] at hans)⟩

/-! ## Runs -/

/-- A run that begins with a session and a trace. -/
def runBy (plan : Plan) {α : Type} (i : Invocation α) (s : Session) (t : Trace) :
    Ending α × Session × Trace :=
  i.run (Invocation.recorded (answerBy plan)) (s, t)

variable (plan : Plan) {α : Type} (i : Invocation α)

/-- A run, cut off or not, leaves the session as its exchanges say. -/
theorem leftBy_runBy (s : Session) :
    s.LeftBy (runBy plan i s []).2.2 (runBy plan i s []).2.1 := by
  refine Invocation.run_recorded_invariant (P := fun next t => s.LeftBy t next)
    (fun now t r h => ?_) i (.nil s)
  obtain ⟨effect, waited, heffect, hawaits, hans | hans⟩ := answerBy_awaits plan now r
  all_goals
    rw [hans]
    have hwaited : s.LeftBy t waited :=
      h.congr hawaits.cluster hawaits.events hawaits.recordEvents
  · exact heffect.leftBy hwaited
  · exact hwaited

/-- A session and its trace at a later point of a run. -/
structure Later (s : Session) (t : Trace) (next : Session) (u : Trace) : Prop where
  trace : t <:+ u
  calls : s.calls <+: next.calls
  clock : s.clock ≤ Clock.lastMoment → s.clock ≤ next.clock ∧ next.clock ≤ Clock.lastMoment

/-- No wait turns the clock back. -/
theorem Awaits.clock_le {plan : Plan} {s waited : Session} (h : Awaits plan s waited)
    (hs : s.clock ≤ Clock.lastMoment) :
    s.clock ≤ waited.clock ∧ waited.clock ≤ Clock.lastMoment := by
  rcases h.clock with hclock | ⟨delay, hclock⟩
  · rw [hclock]
    exact ⟨Nat.le_refl _, hs⟩
  · rw [hclock]
    exact ⟨Nat.le_min.2 ⟨Nat.le_add_right _ _, hs⟩, Nat.min_le_right _ _⟩

/-- A run goes on from what has been asked, called and waited for. -/
theorem later_runBy (s : Session) (t : Trace) :
    Later s t (runBy plan i s t).2.1 (runBy plan i s t).2.2 := by
  refine Invocation.run_recorded_invariant (P := fun next u => Later s t next u)
    (fun now u r h => ?_) i ⟨List.suffix_rfl, List.prefix_rfl, fun h => ⟨Nat.le_refl _, h⟩⟩
  obtain ⟨effect, waited, heffect, hawaits, hans | hans⟩ := answerBy_awaits plan now r
  all_goals
    rw [hans]
    have hcalls : s.calls <+: waited.calls := h.calls.trans hawaits.calls
    have hclock : s.clock ≤ Clock.lastMoment →
        s.clock ≤ waited.clock ∧ waited.clock ≤ Clock.lastMoment := fun hs =>
      ⟨Nat.le_trans (h.clock hs).1 (hawaits.clock_le (h.clock hs).2).1,
        (hawaits.clock_le (h.clock hs).2).2⟩
  · exact ⟨h.trace.trans (List.suffix_cons _ _), hcalls.trans (heffect.calls waited),
      by rwa [heffect.clock]⟩
  · exact ⟨h.trace, hcalls, hclock⟩

/-- A request is answered in time, and then as without a deadline, or the answer without a
    deadline would have come too late. -/
theorem answerBy_under (plan : Plan) (s : Session) (limit : Nat) (r : Request) :
    ∃ (reply : r.Reply) (next : Session),
      answerBy plan (s.under none) r = (some reply, next.under none) ∧
      (next.clock ≤ max s.clock limit ∧
          answerBy plan (s.under (some limit)) r = (some reply, next.under (some limit)) ∨
        limit < next.clock ∧ next.clock ≤ Clock.lastMoment ∧
          ∃ late, late.calls <+: next.calls ∧
            answerBy plan (s.under (some limit)) r = (none, late)) := by
  obtain ⟨effect, waited, heffect, -, hans⟩ := answerBy_cases plan s r
  refine ⟨(effect waited).1, (effect waited).2, ?_⟩
  -- An answer without a wait comes in time, whatever the clock says.
  rcases hans with ⟨hclock, hans⟩ | ⟨hlast, hinTime, hlate⟩
  · refine ⟨by rw [hans, heffect.under], .inl ⟨?_, by rw [hans, heffect.under]⟩⟩
    rw [heffect.clock, hclock]
    exact Nat.le_max_left _ _
  · refine ⟨by rw [hinTime none rfl, heffect.under], ?_⟩
    rw [heffect.clock]
    rcases Nat.lt_or_ge limit waited.clock with hlt | hle
    · obtain ⟨late, -, hcalls, hans⟩ := hlate limit hlt
      exact .inr ⟨hlt, hlast, late, hcalls ▸ heffect.calls waited, hans⟩
    · exact .inl ⟨Nat.le_trans hle (Nat.le_max_right _ _),
        by rw [hinTime (some limit) (by simpa using hle), heffect.under]⟩

/-- A run under a deadline is the run without one, or is cut off at a call that the other run
    ends too late; then it has made the first exchanges of that run. -/
theorem runBy_under (s : Session) (limit : Nat) (t : Trace) :
    let free := runBy plan i (s.under none) t
    let timed := runBy plan i (s.under (some limit)) t
    free.1 ≠ .cutOff ∧
      (free.2.1.clock ≤ max s.clock limit ∧
          timed = (free.1, free.2.1.under (some limit), free.2.2) ∨
        limit < free.2.1.clock ∧ free.2.1.clock ≤ Clock.lastMoment ∧ timed.1 = .cutOff ∧
          timed.2.2 <:+ free.2.2 ∧ timed.2.1.calls <+: free.2.1.calls) := by
  -- By induction on the invocation. While answers come in time, both runs go on from sessions
  -- that differ in the deadline alone; after a late one the run without a deadline only goes on.
  induction i generalizing s t with
  | done => exact ⟨nofun, .inl ⟨Nat.le_max_left _ _, rfl⟩⟩
  | abort => exact ⟨nofun, .inl ⟨Nat.le_max_left _ _, rfl⟩⟩
  | ask r resume ih =>
    obtain ⟨reply, next, hfree, htimed⟩ := answerBy_under plan s limit r
    have hrun : runBy plan (.ask r resume) (s.under none) t =
        runBy plan (resume reply) (next.under none) (⟨r, reply⟩ :: t) :=
      Invocation.run_recorded_of_some hfree
    simp only [hrun]
    obtain ⟨hends, hih⟩ := ih reply next (⟨r, reply⟩ :: t)
    refine ⟨hends, ?_⟩
    rcases htimed with ⟨hclock, htimed⟩ | ⟨hlimit, hlast, late, hcalls, htimed⟩
    · have hrun : runBy plan (.ask r resume) (s.under (some limit)) t =
          runBy plan (resume reply) (next.under (some limit)) (⟨r, reply⟩ :: t) :=
        Invocation.run_recorded_of_some htimed
      rw [hrun]
      exact hih.imp_left fun h =>
        ⟨Nat.le_trans h.1 (Nat.max_le.2 ⟨hclock, Nat.le_max_right _ _⟩), h.2⟩
    · have hrun : runBy plan (.ask r resume) (s.under (some limit)) t = (.cutOff, late, t) :=
        Invocation.run_recorded_of_none htimed
      have hlater := later_runBy plan (resume reply) (next.under none)
        (⟨r, reply⟩ :: t)
      rw [hrun]
      exact .inr ⟨Nat.lt_of_lt_of_le hlimit (hlater.clock hlast).1, (hlater.clock hlast).2, rfl,
        (List.suffix_cons _ _).trans hlater.trace, hcalls.trans hlater.calls⟩

/-! ## An experiment under a deadline -/

/-- Only a run that is cut off fails with a timeout. -/
theorem underDeadline_of_ne {settings : Settings} {trigger : Experiment}
    {ending : Ending (Except Error Revisit)} (h : ending ≠ .cutOff) :
    ending.underDeadline settings trigger = ending := by
  cases ending with
  | finished | aborted => rfl
  | cutOff => exact absurd rfl h

/-- A plan that never changes is what a session does by itself. -/
theorem run_answerBy_const {faults : Faults} {s : Session} (h : s.faults = faults) :
    i.run (answerBy fun _ => faults) s = i.run answer s := by
  induction i generalizing s with
  | done | abort => rfl
  | ask r resume ih =>
    have hsame : answerBy (fun _ => faults) s r = s.answer r := by subst h; rfl
    obtain ⟨effect, waited, heffect, hawaits, hans | hans⟩ :=
      answerBy_awaits (fun _ => faults) s r
    · simp only [Invocation.run, ← hsame, hans]
      exact ih _ ((heffect.faults waited).trans hawaits.faults)
    · simp only [Invocation.run, ← hsame, hans]

/-- Looks at an experiment, for as long as it takes. -/
def visit (plan : Plan) (settings : Settings) (trigger : Experiment) (now : Instant)
    (s : Session) : Ending (Except Error Revisit) × Session × Trace :=
  runBy plan (reconcileAt settings trigger now).run (s.under none) []

/-- Looks at an experiment under the deadline of the settings. -/
def visitInTime (plan : Plan) (settings : Settings) (trigger : Experiment) (now : Instant)
    (s : Session) : Ending (Except Error Revisit) × Session × Trace :=
  let limit := Clock.moment s.clock settings.reconcileTimeout
  Prod.map (Ending.underDeadline settings trigger) id
    (runBy plan (reconcileAt settings trigger now).run (s.under (some limit)) [])

/-- The deadline cuts an invocation between two calls. With failures and delays that depend on
    the calls before them, an invocation that is over by its deadline ends with the same result
    after the same exchanges, and leaves the same session, as without the deadline. Otherwise it
    fails with a timeout after the first exchanges of the invocation without the deadline. Either
    way the record, the pods and the events are as the exchanges that have been made leave
    them. -/
theorem visitInTime_prefix (plan : Plan) (settings : Settings) (trigger : Experiment)
    (now : Instant) (s : Session) :
    let limit := Clock.moment s.clock settings.reconcileTimeout
    let free := s.visit plan settings trigger now
    let timed := s.visitInTime plan settings trigger now
    (free.2.1.clock ≤ max s.clock limit ∧
        timed = (free.1, free.2.1.under (some limit), free.2.2) ∨
      max s.clock limit < free.2.1.clock ∧
        timed.1 = .finished (.error (.timeout trigger.name settings.reconcileTimeout)) ∧
        timed.2.2 <:+ free.2.2 ∧ timed.2.1.calls <+: free.2.1.calls) ∧
      s.LeftBy free.2.2 free.2.1 ∧ s.LeftBy timed.2.2 timed.2.1 ∧
      s.reconcile settings trigger now =
        let timed := s.visitInTime (fun _ => s.faults) settings trigger now
        (timed.1, timed.2.1) := by
  intro limit free timed
  -- The deadline itself is no effect.
  have hleft : ∀ deadline, s.LeftBy
      (runBy plan (reconcileAt settings trigger now).run (s.under deadline) []).2.2
      (runBy plan (reconcileAt settings trigger now).run (s.under deadline) []).2.1 := by
    intro deadline
    have h := leftBy_runBy plan (reconcileAt settings trigger now).run (s.under deadline)
    exact ⟨h.record, h.pods, h.events, h.recordEvents⟩
  obtain ⟨hends, hcases⟩ :=
    runBy_under plan (reconcileAt settings trigger now).run s limit []
  refine ⟨?_, hleft none, hleft (some limit), ?_⟩
  · rcases hcases with ⟨hclock, htimed⟩ | ⟨hlimit, hlast, hcut, htrace, hcalls⟩
    · refine .inl ⟨hclock, ?_⟩
      show Prod.map (Ending.underDeadline settings trigger) id
        (runBy plan (reconcileAt settings trigger now).run (s.under (some limit)) []) = _
      rw [htimed]
      exact Prod.ext (underDeadline_of_ne hends) rfl
    · -- A deadline that can be missed is not the last moment, so it lies ahead.
      have hs : s.clock ≤ limit := by
        have hlt : limit < Clock.lastMoment := Nat.lt_of_lt_of_le hlimit hlast
        simp only [limit, Clock.moment] at hlt ⊢
        omega
      refine .inr ⟨by rwa [Nat.max_eq_right hs], ?_, htrace, hcalls⟩
      exact congrArg (Ending.underDeadline settings trigger) hcut
  · show Prod.map (Ending.underDeadline settings trigger) id
      ((reconcileAt settings trigger now).run.run answer (s.under (some limit))) = _
    rw [← run_answerBy_const _ rfl, Invocation.run_recorded _ _ []]
    rfl

end Session

end ChaosController
