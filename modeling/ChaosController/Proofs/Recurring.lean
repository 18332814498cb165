/-
  ChaosController.Proofs.Recurring

  The schedule of a recurring experiment in closed form.

  While all goes well, the first delivery enrols the experiment. After that a delivery leads to
  a kill exactly if the duration has passed since the last kill, and to nothing otherwise
  (`recurring_rounds`). Deliveries may be late, repeated and out of order.
-/

import ChaosController.Proofs.Rounds
import Mathlib.Data.List.Forall2

namespace ChaosController

/-! ## The schedule -/

/-- What a delivery leads to. -/
inductive Turn
  | enroll
  | kill (now : Instant)
  | rest (nanos : Nat)
deriving DecidableEq

/-- A kill is due: there has been none, or the duration has passed since the last one. -/
def KillDue (d : Duration) (last : Option Instant) (now : Instant) : Prop :=
  ∀ l, last = some l → (d.nanos : Int) ≤ now.unixNanos - l.unixNanos

instance (d : Duration) (last : Option Instant) (now : Instant) :
    Decidable (KillDue d last now) :=
  match last with
  | none => isTrue (by simp [KillDue])
  | some l => decidable_of_iff ((d.nanos : Int) ≤ now.unixNanos - l.unixNanos)
      (by simp [KillDue])

/-- What is left of the duration, if no kill is due. -/
def restNanos (d : Duration) (last : Option Instant) (now : Instant) : Nat :=
  d.nanos - (last.elim 0 fun l => now.unixNanos - l.unixNanos).toNat

/-- What deliveries lead to after a kill at `last`: the next kill is at the first delivery at
    which it is due. -/
def turns (d : Duration) : (last : Option Instant) → List Instant → List Turn
  | _, [] => []
  | last, now :: later =>
    if KillDue d last now then .kill now :: turns d (some now) later
    else .rest (restNanos d last now) :: turns d last later

/-- What the deliveries of a new experiment lead to. -/
def calendar (d : Duration) : List Instant → List Turn
  | [] => []
  | _ :: later => .enroll :: turns d none later

/-- What a round does in its turn. -/
def Turn.IsTaken (settings : Settings) (d : Duration) : Turn → Round → Prop
  | enroll, r =>
    (∃ ns name status event, r.trace = [⟨.publish event, ()⟩,
      ⟨.update r.before status, .ok r.after⟩, ⟨.get ns name, .ok (some r.before)⟩]) ∧
    r.after.phase? = some .pending ∧ r.after.lastRun? = r.before.lastRun? ∧
    r.ending = .finished (.ok (.after settings.initRevisit))
  | kill now, r =>
    r.trace.deletions = 1 ∧ r.after.phase? = some .running ∧ r.after.lastRun? = some now ∧
    r.ending = .finished (.ok (.after d))
  | rest nanos, r =>
    (∃ ns name, r.trace = [⟨.get ns name, .ok (some r.before)⟩]) ∧ r.after = r.before ∧
    ∃ delay, delay.nanos = nanos ∧ r.ending = .finished (.ok (.after delay))

/-! ## Single visits -/

namespace Reconcile

variable {c : Context} {e base : Experiment} {d : Duration} {known : Attack} {t : Trace}

/-- How a visit ends that sees an experiment for the first time: it has read `e` in the exchange
    `x`, and it has set the phase to pending. -/
structure Enrols (c : Context) (e : Experiment) (x : Exchange) (t : Trace)
    (ending : Ending (Except Error Revisit)) : Prop where
  trace : ∃ event status version, status.phase = some .pending ∧ status.lastRun = e.lastRun? ∧
    t = [⟨.publish event, ()⟩, ⟨.update e status, .ok (e.stamped status version)⟩, x]
  ending : ending = .finished (.ok (.after c.settings.initRevisit))

theorem ensures_enrols {duration : Option Duration} {x : Exchange} (hx : x.record? = some e)
    (hvalid : e.spec.verdict = .valid duration) (hdecision : decision c e = .enroll) :
    (step c e).run.Ensures e (Enrols c e x) [x] := by
  have hstored : Trace.stored e [x] = e := by rw [Trace.stored_cons, hx, Option.getD_some]
  rw [step_of_enroll hvalid hdecision]
  simp only [enroll, bind_assoc, pure_bind]
  apply ensures_write_bind
  intro version
  rw [hstored]
  refine keeps_publish_bind.2 ⟨trivial, fun _ => ⟨⟨_, _, version, ?_, ?_, rfl⟩, rfl⟩⟩
  · exact phase_nextStatus ..
  · exact lastRun_nextStatus ..

/-- How a visit ends that has killed a pod: the stored record was `e` when it began. -/
structure Kills (c : Context) (e : Experiment) (d : Duration) (t : Trace)
    (ending : Ending (Except Error Revisit)) : Prop where
  deletions : t.deletions = 1
  spec : (t.stored e).spec = e.spec
  phase : (t.stored e).phase? = some .running
  lastRun : (t.stored e).lastRun? = some c.now
  ending : ending = .finished (.ok (.after d))

theorem ensures_attack (hspec : (t.stored e).spec = e.spec) (hdeletions : t.deletions = 0) :
    (attack c base known (some d)).run.Ensures e (Kills c e d) t := by
  unfold attack
  rw [Invocation.Ensures, ExceptT.run_bind_lift]
  apply Attack.ensures_execute_bind
  intro pods index pod deletion
  unfold killed
  simp only [delayAfterAttack]
  apply ensures_write_bind
  intro version
  have hstored : Trace.stored e (⟨.delete pod.namespace pod.name, .ok deletion⟩ ::
      ⟨.pick pods.length, index⟩ ::
      ⟨.list base.spec.target.namespace base.spec.target.selector, .ok pods⟩ :: t) =
        t.stored e := by
    simp [Trace.stored_cons, Exchange.record?]
  refine keeps_publish_bind.2 ⟨trivial, fun _ => ?_⟩
  rw [hstored]
  exact {
    deletions := by simp [Exchange.isDeletion, Exchange.deletion?, hdeletions]
    spec := by simp [Trace.stored_cons, Exchange.record?, hspec]
    phase := by simp [Trace.stored_cons, Exchange.record?]
    lastRun := by simp [Trace.stored_cons, Exchange.record?]
    ending := rfl }

theorem ensures_retrigger_attack (hspec : (t.stored e).spec = e.spec)
    (hdeletions : t.deletions = 0) :
    (retrigger c base >>= fun updated => attack c updated known (some d)).run.Ensures e
      (Kills c e d) t := by
  simp only [retrigger, bind_assoc, pure_bind]
  apply ensures_write_bind
  intro version
  refine keeps_publish_bind.2 ⟨trivial, ensures_attack ?_ ?_⟩
  · simp [Trace.stored_cons, Exchange.record?, hspec]
  · simp [Exchange.isDeletion, Exchange.deletion?, hdeletions]

theorem ensures_complete_retrigger_attack (hspec : (t.stored e).spec = e.spec)
    (hdeletions : t.deletions = 0) (hmode : base.spec.mode = .recurring) :
    (act c base .complete known (some d)).run.Ensures e (Kills c e d) t := by
  simp only [act, complete, publishCompleted, bind_assoc, pure_bind, hmode, reduceCtorEq,
    if_false]
  apply ensures_write_bind
  intro version
  refine keeps_publish_bind.2 ⟨trivial, ensures_retrigger_attack ?_ ?_⟩
  · simp [Trace.stored_cons, Exchange.record?, hspec]
  · simp [Exchange.isDeletion, Exchange.deletion?, hdeletions]

/-- A recurring experiment between two visits; its last kill was at `last`. -/
structure Enrolled (d : Duration) (last : Option Instant) (e : Experiment) : Prop where
  mode : e.spec.mode = .recurring
  valid : e.spec.verdict = .valid (some d)
  attack : e.spec.attack = .podKill
  phase : e.phase? = some (if last.isSome then .running else .pending)
  lastRun : e.lastRun? = last
  calm : ∀ l, last = some l → l.time.isLeap = false

namespace Enrolled

variable {last : Option Instant}

/-- After a kill the experiment is enrolled as before. -/
theorem of_kills (h : Enrolled d last e) {ending : Ending (Except Error Revisit)}
    (hk : Kills c e d t ending) (hnow : c.now.time.isLeap = false) :
    Enrolled d (some c.now) (t.stored e) where
  mode := hk.spec ▸ h.mode
  valid := hk.spec ▸ h.valid
  attack := hk.spec ▸ h.attack
  phase := hk.phase
  lastRun := hk.lastRun
  calm := by
    rintro l ⟨⟩
    exact hnow

theorem decision_eq (h : Enrolled d last e) :
    decision c e = scheduleActive .recurring (some d) (last.map c.now.elapsed) := by
  have hphase : e.status.bind Status.phase = some (if last.isSome then .running else .pending) :=
    h.phase
  have hlast : e.status.bind Status.lastRun = last := h.lastRun
  have hfinished : (if last.isSome then Phase.running else Phase.pending).isFinished = false := by
    split <;> rfl
  simp [decision, schedule, hphase, hlast, hfinished, h.mode, h.valid, Verdict.duration?]

/-- A visit kills when a kill is due. -/
theorem ensures_kills (h : Enrolled d last e) (hnow : c.now.time.isLeap = false)
    (hdue : KillDue d last c.now) (hspec : (t.stored e).spec = e.spec)
    (hdeletions : t.deletions = 0) : (step c e).run.Ensures e (Kills c e d) t := by
  have hknown : e.spec.attack.attack? = some .podKill := by rw [h.attack]; rfl
  cases last with
  | none =>
    rw [step_of_acts h.valid hknown (h.decision_eq (c := c)) rfl]
    exact ensures_attack hspec hdeletions
  | some l =>
    -- The last run is over: it is completed, and the next one begins at once.
    have hpassed : d ≤ c.now.elapsed l :=
      (Instant.le_elapsed_iff (Spec.duration_pos h.valid) hnow (h.calm l rfl)).2 (hdue l rfl)
    have hdecision : decision c e = .complete := by
      rw [h.decision_eq]
      exact if_pos hpassed
    rw [step_of_acts h.valid hknown hdecision rfl]
    exact ensures_complete_retrigger_attack hspec hdeletions h.mode

/-- A visit does nothing when no kill is due. -/
theorem step_eq_rest (h : Enrolled d last e) (hnow : c.now.time.isLeap = false)
    (hdue : ¬ KillDue d last c.now) :
    ∃ delay, delay.nanos = restNanos d last c.now ∧ step c e = return .after delay := by
  cases last with
  | none =>
    refine absurd ?_ hdue
    rintro l ⟨⟩
  | some l =>
    have hpassed : ¬ d ≤ c.now.elapsed l := by
      rw [Instant.le_elapsed_iff (Spec.duration_pos h.valid) hnow (h.calm l rfl)]
      exact fun hle => hdue fun l' hl => Option.some.inj hl ▸ hle
    have hdecision : decision c e = .waitFor (d.minus (c.now.elapsed l)) := by
      rw [h.decision_eq]
      exact if_neg hpassed
    exact ⟨_, Instant.nanos_minus_elapsed d hnow (h.calm l rfl), step_of_waitFor h.valid hdecision⟩

end Enrolled

end Reconcile

/-! ## Rounds -/

section Rounds

open Reconcile

variable {oracle : Oracle} {settings : Settings} {e : Experiment} {d : Duration}

/-- From an enrolled experiment on, rounds take the turns of the schedule. -/
theorem enrolled_rounds (ho : oracle.Obliging e) {deliveries : List Delivery}
    (hplain : ∀ delivery ∈ deliveries, delivery.IsPlain) {history : Trace}
    {last : Option Instant} (h : Enrolled d last (history.stored e)) :
    List.Forall₂ (Turn.IsTaken settings d) (turns d last (deliveries.map Delivery.now))
      (oracle.rounds settings e history deliveries) := by
  -- By induction on the deliveries; the record is enrolled again after each of them.
  induction deliveries generalizing history last with
  | nil => exact .nil
  | cons delivery later ih =>
    obtain ⟨⟨hns, hnow⟩, hlater⟩ := List.forall_mem_cons.1 hplain
    obtain ⟨ns, hns⟩ := Option.isSome_iff_exists.1 hns
    rw [List.map_cons, turns]
    split
    next hdue =>
      have hkills := ho.round settings history hns _
        (h.ensures_kills hnow hdue (by simp [Trace.stored_cons, Exchange.record?])
          (by simp [Exchange.isDeletion, Exchange.deletion?]))
      refine .cons ⟨hkills.deletions, hkills.phase, hkills.lastRun, hkills.ending⟩ ?_
      refine ih hlater ?_
      rw [Oracle.stored_round]
      exact h.of_kills hkills hnow
    next hdue =>
      obtain ⟨delay, hdelay, hstep⟩ :=
        h.step_eq_rest (c := ⟨settings, delivery.trigger.name, delivery.now⟩) hnow hdue
      have hrest := ho.round settings history hns
        (fun t ending =>
          t = [⟨.get ns delivery.trigger.name, .ok (some (history.stored e))⟩] ∧
            ending = .finished (.ok (.after delay)))
        (by rw [hstep]; exact fun _ => ⟨rfl, rfl⟩)
      have hafter : (oracle.round settings e history delivery).after = history.stored e := by
        show Trace.stored _ (oracle.round settings e history delivery).trace = _
        rw [hrest.1]
        rfl
      refine .cons ⟨⟨ns, _, hrest.1⟩, hafter, delay, hdelay, hrest.2⟩ ?_
      refine ih hlater ?_
      rw [Oracle.stored_round, hafter]
      exact h

/-- The first delivery enrols the experiment and does nothing else. -/
theorem enrolling_round (settings : Settings) (ho : oracle.Obliging e) {delivery : Delivery}
    (hplain : delivery.IsPlain) (hmode : e.spec.mode = .recurring)
    (hvalid : e.spec.verdict = .valid (some d)) (hattack : e.spec.attack = .podKill)
    (hnew : e.status = none) :
    Turn.enroll.IsTaken settings d (oracle.round settings e [] delivery) ∧
      Enrolled d none (oracle.round settings e [] delivery).after := by
  obtain ⟨ns, hns⟩ := Option.isSome_iff_exists.1 hplain.1
  have hdecision : decision ⟨settings, delivery.trigger.name, delivery.now⟩ e = .enroll := by
    simp [decision, schedule, hnew]
  obtain ⟨⟨event, status, version, hphase, hlast, htrace⟩, hending⟩ :=
    ho.round settings [] hns _ (ensures_enrols rfl hvalid hdecision)
  have hafter : (oracle.round settings e [] delivery).after = e.stamped status version := by
    show Trace.stored _ (oracle.round settings e [] delivery).trace = _
    rw [htrace]
    rfl
  have hnone : e.lastRun? = none := by simp [Experiment.lastRun?, hnew]
  refine ⟨⟨⟨ns, delivery.trigger.name, status, event, ?_⟩, ?_, ?_, hending⟩, ?_⟩
  · rw [htrace, hafter]
    rfl
  · rw [hafter, Experiment.phase?_stamped, hphase]
  · rw [hafter, Experiment.lastRun?_stamped, hlast]
    rfl
  · rw [hafter]
    exact ⟨hmode, hvalid, hattack, hphase, hlast.trans hnone, by rintro l ⟨⟩⟩

/-- A recurring experiment in closed form. While all calls succeed, the first delivery enrols
    it; after that a delivery kills exactly one pod if the duration has passed since the last
    kill, and is put off until then otherwise. -/
theorem recurring_rounds (ho : oracle.Obliging e) (hmode : e.spec.mode = .recurring)
    (hvalid : e.spec.verdict = .valid (some d)) (hattack : e.spec.attack = .podKill)
    (hnew : e.status = none) {deliveries : List Delivery}
    (hplain : ∀ delivery ∈ deliveries, delivery.IsPlain) :
    List.Forall₂ (Turn.IsTaken settings d) (calendar d (deliveries.map Delivery.now))
      (oracle.rounds settings e [] deliveries) := by
  cases deliveries with
  | nil => exact .nil
  | cons delivery later =>
    obtain ⟨hfirst, hlater⟩ := List.forall_mem_cons.1 hplain
    obtain ⟨htaken, henrolled⟩ := enrolling_round settings ho hfirst hmode hvalid
      hattack hnew
    refine .cons htaken (enrolled_rounds ho hlater ?_)
    rw [Oracle.stored_round]
    exact henrolled

/-- Five minutes between kills: the delivery of minute 4 comes too early, and that of minute 2
    comes after the kill of minute 6. -/
theorem recurring_rounds_disorder :
    let e : Experiment := { Experiment.sample .recurring (some "5m") none none with status := none }
    let minutes := [.sample 0, .sample 1, .sample 4, .sample 6, .sample 2, .sample 11]
    List.Forall₂ (Turn.IsTaken .standard ⟨300 * nanosPerSecond, by decide⟩)
      [.enroll, .kill (.sample 1), .rest (120 * nanosPerSecond), .kill (.sample 6),
        .rest (300 * nanosPerSecond), .kill (.sample 11)]
      ((Oracle.steady e ⟨"lab", "a"⟩).rounds .standard e [] (minutes.map (Delivery.mk e))) := by
  intro e minutes
  have hcalendar : calendar ⟨300 * nanosPerSecond, by decide⟩
      ((minutes.map (Delivery.mk e)).map Delivery.now) =
      [.enroll, .kill (.sample 1), .rest (120 * nanosPerSecond), .kill (.sample 6),
        .rest (300 * nanosPerSecond), .kill (.sample 11)] := by decide
  rw [← hcalendar]
  exact recurring_rounds (Oracle.steady_obliging e _) rfl (by decide) rfl rfl (by decide)

end Rounds

end ChaosController
