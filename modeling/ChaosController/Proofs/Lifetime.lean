/-
  ChaosController.Proofs.Lifetime

  The life of a one-shot experiment in closed form.

  While all goes well, the first delivery enrols the experiment and the second one kills a pod,
  which nothing undoes or repeats. Without a duration the run is over with the kill; with one it
  is over at the first delivery that comes when the duration has passed since the kill
  (`oneShot_rounds`). What a delivery does depends on the times of the deliveries before it
  alone, whatever their order.
-/

import ChaosController.Proofs.Rounds

namespace ChaosController

/-! ## The life of an experiment -/

/-- The run of an attack at `struck` is over: there is no duration, or one of the deliveries
    since then has come when the duration had passed. -/
def RunEnded (duration : Option Duration) (struck : Instant) (since : List Instant) : Prop :=
  ∀ d, duration = some d → ∃ now ∈ since, (d.nanos : Int) ≤ now.unixNanos - struck.unixNanos

instance (duration : Option Duration) (struck : Instant) (since : List Instant) :
    Decidable (RunEnded duration struck since) :=
  match duration with
  | none => isTrue (by simp [RunEnded])
  | some d => decidable_of_iff
      (∃ now ∈ since, (d.nanos : Int) ≤ now.unixNanos - struck.unixNanos) (by simp [RunEnded])

/-- Once a run is over, it stays so. -/
theorem RunEnded.append {duration : Option Duration} {struck : Instant} {since : List Instant}
    (h : RunEnded duration struck since) (later : List Instant) :
    RunEnded duration struck (since ++ later) := by
  intro d hd
  obtain ⟨now, hmem, hle⟩ := h d hd
  exact ⟨now, List.mem_append_left _ hmem, hle⟩

/-- A run ends at the first delivery that comes when the duration has passed. -/
theorem runEnded_concat {d : Duration} {struck now : Instant} {since : List Instant}
    (h : ¬ RunEnded (some d) struck since) :
    RunEnded (some d) struck (since ++ [now]) ↔
      (d.nanos : Int) ≤ now.unixNanos - struck.unixNanos := by
  have hsince : ¬ ∃ t ∈ since, (d.nanos : Int) ≤ t.unixNanos - struck.unixNanos := by
    simpa [RunEnded] using h
  simp only [RunEnded, Option.some.injEq, forall_eq', List.mem_append, List.mem_singleton]
  constructor
  · rintro ⟨t, ht | rfl, hle⟩
    · exact absurd ⟨t, ht, hle⟩ hsince
    · exact hle
  · exact fun hle => ⟨now, .inr rfl, hle⟩

/-- The phase after deliveries at the given times: the first one enrols, the second one
    kills. -/
def phaseAfter (duration : Option Duration) : List Instant → Option Phase
  | [] => none
  | [_] => some .pending
  | _ :: struck :: since =>
    some (if RunEnded duration struck since then .completed else .running)

/-- The time of the last attack after deliveries at the given times: that of the second one,
    for ever. -/
def lastRunAfter : List Instant → Option Instant
  | [] | [_] => none
  | _ :: struck :: _ => some struck

/-- When the experiment is to be looked at again after a delivery. -/
def nextVisit (settings : Settings) (duration : Option Duration) :
    (earlier : List Instant) → (now : Instant) → Revisit
  | [], _ => .after settings.initRevisit
  | [_], _ => duration.elim .onChange .after
  | _ :: struck :: since, now =>
    if RunEnded duration struck (since ++ [now]) then .onChange
    else duration.elim .onChange fun d => .after (d.minus (now.elapsed struck))

/-- What comes of the delivery at `now` that follows deliveries at the times `earlier`. Only
    the second delivery deletes a pod. The record is written once if its phase moves on; else it
    is read, and nothing more is asked for. -/
structure Lived (settings : Settings) (duration : Option Duration) (earlier : List Instant)
    (now : Instant) (r : Round) : Prop where
  spec : r.after.spec = r.before.spec
  phase : r.after.phase? = phaseAfter duration (earlier ++ [now])
  lastRun : r.after.lastRun? = lastRunAfter (earlier ++ [now])
  deletions : r.trace.deletions = if earlier.length = 1 then 1 else 0
  writes : r.trace.writes =
    if phaseAfter duration (earlier ++ [now]) = phaseAfter duration earlier then 0 else 1
  unwritten : r.trace.writes = 0 →
    (∃ ns name, r.trace = [⟨.get ns name, .ok (some r.before)⟩]) ∧ r.after = r.before
  ending : r.ending = .finished (.ok (nextVisit settings duration earlier now))

namespace Reconcile

variable {c : Context} {e : Experiment} {duration : Option Duration} {t : Trace}

/-- A one-shot experiment after deliveries at the given times. -/
structure Living (duration : Option Duration) (times : List Instant) (e : Experiment) :
    Prop where
  mode : e.spec.mode = .oneShot
  valid : e.spec.verdict = .valid duration
  attack : e.spec.attack = .podKill
  phase : e.phase? = phaseAfter duration times
  lastRun : e.lastRun? = lastRunAfter times
  calm : ∀ time ∈ times, time.time.isLeap = false

/-- What a visit at the time of `c` makes of the record `e`, after deliveries at the given
    times. -/
abbrev Lives (c : Context) (duration : Option Duration) (times : List Instant) (e : Experiment)
    (t : Trace) (ending : Ending (Except Error Revisit)) : Prop :=
  Lived c.settings duration times c.now ⟨e, t.stored e, t, ending⟩

/-- A kill that has been recorded with a single write. -/
theorem lives_of_kill {first : Instant} {status : Status} (version : String)
    (hstored : t.stored e = e.stamped status version) (hwrites : t.writes = 1)
    (hdeletions : t.deletions = 1)
    (hphase : status.phase = some (if duration = none then .completed else .running))
    (hrun : status.lastRun = some c.now) :
    Lives c duration [first] e t (.finished (.ok (duration.elim .onChange .after))) where
  spec := by simp [hstored]
  phase := by cases duration <;> simp [hstored, hphase, phaseAfter, RunEnded]
  lastRun := by simp [hstored, hrun, lastRunAfter]
  deletions := hdeletions
  writes := by cases duration <;> simp [hwrites, phaseAfter, RunEnded]
  unwritten := by simp [hwrites]
  ending := rfl

namespace Living

variable {times since : List Instant} {first struck : Instant} {ns name : String}

/-- After a delivery the experiment is as the next one expects it. -/
theorem of_lives (h : Living duration times e) {ending : Ending (Except Error Revisit)}
    (hl : Lives c duration times e t ending) (hnow : c.now.time.isLeap = false) :
    Living duration (times ++ [c.now]) (t.stored e) where
  mode := by rw [hl.spec, h.mode]
  valid := by rw [hl.spec, h.valid]
  attack := by rw [hl.spec, h.attack]
  phase := hl.phase
  lastRun := hl.lastRun
  calm := by
    intro time hmem
    obtain hmem | rfl : time ∈ times ∨ time = c.now := by simpa using hmem
    · exact h.calm time hmem
    · exact hnow

/-- The first visit enrols the experiment. -/
theorem ensures_enrolled (h : Living duration [] e) :
    (step c e).run.Ensures e (Lives c duration [] e) [⟨.get ns name, .ok (some e)⟩] := by
  have hphase : e.status.bind Status.phase = none := h.phase
  have hdecision : decision c e = .enroll := by simp [decision, schedule, hphase]
  rw [step_of_enroll h.valid hdecision]
  simp only [enroll, bind_assoc, pure_bind]
  apply ensures_write_bind
  intro version
  refine keeps_publish_bind.2 ⟨trivial, fun _ => ?_⟩
  exact {
    spec := by simp [Trace.stored_cons, Exchange.record?]
    phase := by simp [Trace.stored_cons, Exchange.record?, phaseAfter]
    lastRun := by simp [Trace.stored_cons, Exchange.record?, h.lastRun, lastRunAfter]
    deletions := by simp [Exchange.isDeletion, Exchange.deletion?]
    writes := by simp [Exchange.isWrite, phaseAfter]
    unwritten := by simp [Exchange.isWrite]
    ending := rfl }

/-- The second visit kills a pod and records it, together with the end of a run without a
    duration. -/
theorem ensures_struck (h : Living duration [first] e) :
    (step c e).run.Ensures e (Lives c duration [first] e)
      [⟨.get ns name, .ok (some e)⟩] := by
  have hphase : e.status.bind Status.phase = some .pending := h.phase
  have hlast : e.status.bind Status.lastRun = none := h.lastRun
  have hknown : e.spec.attack.attack? = some .podKill := by rw [h.attack]; rfl
  have hdecision : decision c e = .attack := by
    cases duration <;>
      simp [decision, schedule, hphase, hlast, scheduleActive, Phase.isFinished, h.valid,
        Verdict.duration?]
  rw [step_of_acts h.valid hknown hdecision rfl]
  simp only [act, Reconcile.attack]
  rw [Invocation.Ensures, ExceptT.run_bind_lift]
  apply Attack.ensures_execute_bind
  intro pods index pod deletion
  simp only [killed, h.mode]
  cases duration with
  | none =>
    simp only [delayAfterAttack, publishCompleted]
    apply ensures_write_bind
    intro version
    refine keeps_publish_bind.2 ⟨trivial, keeps_publish_bind.2 ⟨trivial, fun _ => ?_⟩⟩
    apply lives_of_kill version
    · simp [Trace.stored_cons, Exchange.record?]
      rfl
    · simp [Exchange.isWrite]
    · simp [Exchange.isDeletion, Exchange.deletion?]
    · rfl
    · rfl
  | some d =>
    simp only [delayAfterAttack]
    apply ensures_write_bind
    intro version
    refine keeps_publish_bind.2 ⟨trivial, fun _ => ?_⟩
    apply lives_of_kill version
    · simp [Trace.stored_cons, Exchange.record?]
      rfl
    · simp [Exchange.isWrite]
    · simp [Exchange.isDeletion, Exchange.deletion?]
    · rfl
    · rfl

/-- A visit that has only read the record leaves everything as it is. -/
theorem lives_of_read {revisit : Revisit}
    (h : Living duration (first :: struck :: since) e)
    (hphase : phaseAfter duration (first :: struck :: since ++ [c.now]) =
      phaseAfter duration (first :: struck :: since))
    (hrevisit : nextVisit c.settings duration (first :: struck :: since) c.now = revisit) :
    Lives c duration (first :: struck :: since) e [⟨.get ns name, .ok (some e)⟩]
      (.finished (.ok revisit)) where
  spec := rfl
  phase := h.phase.trans hphase.symm
  lastRun := h.lastRun
  deletions := by simp [Exchange.isDeletion, Exchange.deletion?]
  writes := by
    rw [if_pos hphase]
    rfl
  unwritten := fun _ => ⟨⟨ns, name, rfl⟩, rfl⟩
  ending := by rw [hrevisit]

/-- After the kill a visit ends the run if its duration has passed for the first time, and does
    nothing else. -/
theorem ensures_survived (h : Living duration (first :: struck :: since) e)
    (hnow : c.now.time.isLeap = false) :
    (step c e).run.Ensures e (Lives c duration (first :: struck :: since) e)
      [⟨.get ns name, .ok (some e)⟩] := by
  have hlast : e.status.bind Status.lastRun = some struck := h.lastRun
  have hstruck : struck.time.isLeap = false := h.calm struck (by simp)
  -- Either the run has ended before this visit, or the visit itself may end it.
  by_cases hended : RunEnded duration struck since
  · have hphase : e.status.bind Status.phase = some .completed := by
      have hphase := h.phase
      rwa [phaseAfter, if_pos hended] at hphase
    have hdecision : decision c e = .terminate := by
      simp [decision, schedule, hphase, Phase.isFinished, scheduleFinished, h.mode]
    rw [step_of_terminate h.valid hdecision]
    refine fun _ => h.lives_of_read ?_ ?_
    · simp [phaseAfter, hended, hended.append]
    · simp [nextVisit, hended.append]
  · have hphase : e.status.bind Status.phase = some .running := by
      have hphase := h.phase
      rwa [phaseAfter, if_neg hended] at hphase
    -- A run without a duration is over from the start.
    obtain ⟨d, rfl⟩ : ∃ d, duration = some d := by
      cases duration with
      | none => exact absurd (by simp [RunEnded]) hended
      | some d => exact ⟨d, rfl⟩
    have hdecision : decision c e =
        if d ≤ c.now.elapsed struck then .complete
        else .waitFor (d.minus (c.now.elapsed struck)) := by
      simp [decision, schedule, hphase, hlast, Phase.isFinished, scheduleActive, h.valid,
        Verdict.duration?]
    have hpassed : d ≤ c.now.elapsed struck ↔ RunEnded (some d) struck (since ++ [c.now]) := by
      rw [Instant.le_elapsed_iff (Spec.duration_pos h.valid) hnow hstruck, runEnded_concat hended]
    by_cases hpass : d ≤ c.now.elapsed struck
    · rw [if_pos hpass] at hdecision
      have hknown : e.spec.attack.attack? = some .podKill := by rw [h.attack]; rfl
      rw [step_of_acts h.valid hknown hdecision rfl]
      simp only [act, complete, publishCompleted, bind_assoc, pure_bind, h.mode, if_true]
      apply ensures_write_bind
      intro version
      refine keeps_publish_bind.2 ⟨trivial, fun _ => ?_⟩
      exact {
        spec := by simp [Trace.stored_cons, Exchange.record?]
        phase := by simp [Trace.stored_cons, Exchange.record?, phaseAfter, hpassed.1 hpass]
        lastRun := by simp [Trace.stored_cons, Exchange.record?, h.lastRun, lastRunAfter]
        deletions := by simp [Exchange.isDeletion, Exchange.deletion?]
        writes := by simp [Exchange.isWrite, phaseAfter, hpassed.1 hpass, hended]
        unwritten := by simp [Exchange.isWrite]
        ending := by simp [nextVisit, hpassed.1 hpass] }
    · rw [if_neg hpass] at hdecision
      rw [step_of_waitFor h.valid hdecision]
      have hopen : ¬ RunEnded (some d) struck (since ++ [c.now]) := fun h => hpass (hpassed.2 h)
      refine fun _ => h.lives_of_read ?_ ?_
      · simp [phaseAfter, hended, hopen]
      · simp [nextVisit, hopen]

/-- Whatever deliveries have come before, a visit does what the next one is to do. -/
theorem ensures_lives (h : Living duration times e) (hnow : c.now.time.isLeap = false) :
    (step c e).run.Ensures e (Lives c duration times e) [⟨.get ns name, .ok (some e)⟩] := by
  match times with
  | [] => exact h.ensures_enrolled
  | [first] => exact h.ensures_struck
  | first :: struck :: since => exact h.ensures_survived hnow

end Living

end Reconcile

/-! ## Rounds -/

section Rounds

open Reconcile

variable {oracle : Oracle} {settings : Settings} {e : Experiment} {duration : Option Duration}

/-- From any point of its life on, an experiment lives on as it should. -/
theorem living_rounds (ho : oracle.Obliging e) {earlier later : List Delivery}
    {delivery : Delivery} (hplain : ∀ d ∈ earlier ++ [delivery], d.IsPlain) {history : Trace}
    {times : List Instant} (h : Living duration times (history.stored e)) :
    ∃ r, (oracle.rounds settings e history (earlier ++ delivery :: later))[earlier.length]? =
        some r ∧
      Lived settings duration (times ++ earlier.map Delivery.now) delivery.now r := by
  -- By induction on the earlier deliveries; each of them adds its time to those behind.
  induction earlier generalizing history times with
  | nil =>
    obtain ⟨hns, hnow⟩ := hplain delivery (by simp)
    obtain ⟨ns, hns⟩ := Option.isSome_iff_exists.1 hns
    rw [List.map_nil, List.append_nil]
    exact ⟨_, rfl, ho.round settings history hns _ (h.ensures_lives hnow)⟩
  | cons first earlier ih =>
    obtain ⟨⟨hns, hnow⟩, hplain⟩ := List.forall_mem_cons.1 hplain
    obtain ⟨ns, hns⟩ := Option.isSome_iff_exists.1 hns
    have hlives := ho.round settings history hns _
      (h.ensures_lives (c := ⟨settings, first.trigger.name, first.now⟩) hnow)
    have hnext := h.of_lives hlives hnow
    rw [← Trace.stored_append] at hnext
    obtain ⟨r, hr, hlived⟩ := ih hplain hnext
    rw [List.append_assoc] at hlived
    exact ⟨r, hr, hlived⟩

/-- A one-shot experiment in closed form. While all calls succeed, what comes of a delivery is
    told from its time and those of the deliveries before it: the first one enrols the
    experiment, the second one kills exactly one pod, and no other one kills any. The run is
    over with the kill if there is no duration, and else with the first delivery that comes when
    the duration has passed since the kill. Between the kill and that delivery, and after it,
    the record is read and nothing else is done. -/
theorem oneShot_rounds (settings : Settings) (ho : oracle.Obliging e)
    (hmode : e.spec.mode = .oneShot)
    (hvalid : e.spec.verdict = .valid duration) (hattack : e.spec.attack = .podKill)
    (hnew : e.status = none) {deliveries : List Delivery}
    (hplain : ∀ delivery ∈ deliveries, delivery.IsPlain) (i : Nat) (hi : i < deliveries.length) :
    ∃ r, (oracle.rounds settings e [] deliveries)[i]? = some r ∧
      Lived settings duration ((deliveries.take i).map Delivery.now) deliveries[i].now r := by
  have hliving : Living duration [] e :=
    ⟨hmode, hvalid, hattack, by simp [Experiment.phase?, hnew, phaseAfter],
      by simp [Experiment.lastRun?, hnew, lastRunAfter], by simp⟩
  have hsplit : deliveries = deliveries.take i ++ deliveries[i] :: deliveries.drop (i + 1) := by
    simp
  have hbefore : ∀ d ∈ deliveries.take i ++ [deliveries[i]], d.IsPlain := by
    rw [List.take_append_getElem hi]
    exact fun d hd => hplain d (List.mem_of_mem_take hd)
  obtain ⟨r, hr, hlived⟩ : ∃ r, (oracle.rounds settings e []
      (deliveries.take i ++ deliveries[i] :: deliveries.drop (i + 1)))[
        (deliveries.take i).length]? = some r ∧
      Lived settings duration ([] ++ (deliveries.take i).map Delivery.now) deliveries[i].now r :=
    living_rounds ho hbefore hliving
  rw [← hsplit, List.length_take_of_le (Nat.le_of_lt hi)] at hr
  exact ⟨r, hr, hlived⟩

/-- Five minutes after the kill of minute 1 the run ends with the delivery of minute 6, though
    that of minute 2 has come before it. -/
theorem oneShot_rounds_disorder :
    let e : Experiment := { Experiment.sample .oneShot (some "5m") none none with status := none }
    let minutes := [.sample 0, .sample 1, .sample 4, .sample 2, .sample 6, .sample 7]
    ∃ r, ((Oracle.steady e ⟨"lab", "a"⟩).rounds .standard e [] (minutes.map (Delivery.mk e)))[4]? =
        some r ∧
      r.after.phase? = some .completed ∧ r.after.lastRun? = some (.sample 1) ∧
      r.trace.deletions = 0 ∧ r.trace.writes = 1 ∧ r.ending = .finished (.ok .onChange) := by
  intro e minutes
  have hvalid : e.spec.verdict = .valid (some ⟨300 * nanosPerSecond, by decide⟩) := by decide
  have hplain : ∀ delivery ∈ minutes.map (Delivery.mk e), delivery.IsPlain := by decide
  obtain ⟨r, hr, h⟩ := oneShot_rounds .standard (Oracle.steady_obliging e ⟨"lab", "a"⟩) rfl hvalid
    rfl rfl hplain 4 (by decide)
  have hrevisit : nextVisit .standard (some ⟨300 * nanosPerSecond, by decide⟩)
      [.sample 0, .sample 1, .sample 4, .sample 2] (.sample 6) = .onChange := by decide
  exact ⟨r, hr, h.phase.trans (by decide), h.lastRun.trans (by decide),
    h.deletions.trans (by decide), h.writes.trans (by decide),
    h.ending.trans (congrArg (Ending.finished ∘ Except.ok) hrevisit)⟩

end Rounds

end ChaosController
