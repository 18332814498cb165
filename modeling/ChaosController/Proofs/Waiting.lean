/-
  ChaosController.Proofs.Waiting

  How long an experiment that has been attacked is left alone.

  Without leap seconds its gate opens at one moment, its last attack plus its duration. Whoever
  is told to wait until then is never told to come back later than that, and comes back at that
  very moment after a number of waits that is known beforehand (`waiting_ends`). A last attack
  that lies ahead costs a wait of the whole duration each time, so that there are as many waits
  more as durations fit on the way there.
-/

import ChaosController.Proofs.Calendar
import ChaosController.Proofs.Schedule
import ChaosController.Proofs.Writes
import Mathlib.Algebra.Order.Floor.Div

namespace ChaosController

/-! ## Before and after the gate -/

/-- What an experiment needs as soon as its gate is open. -/
def Phase.afterWait (phase : Phase) : Decision :=
  if phase.isFinished then .retrigger else .complete

theorem Phase.afterWait_ne_waitFor (phase : Phase) (w : Duration) :
    phase.afterWait ≠ .waitFor w := by
  unfold afterWait
  split <;> nofun

section Gate

variable {mode : Mode} {d w : Duration} {status : Status} {phase : Phase} {last now : Instant}

/-- Of the finished experiments only those that recur wait. -/
theorem recurring_of_waitFor (hphase : status.phase = some phase)
    (h : schedule mode (some d) (some status) now = .waitFor w)
    (hfinished : phase.isFinished = true) : mode = .recurring := by
  cases mode with
  | recurring => rfl
  | oneShot => simp [schedule, hphase, hfinished, scheduleFinished] at h

variable (hphase : status.phase = some phase) (hlast : status.lastRun = some last)
  (hrecurs : phase.isFinished = true → mode = .recurring)

include hphase hlast hrecurs

/-- An experiment waits for the rest of its duration, or not at all. -/
theorem schedule_of_lastRun : schedule mode (some d) (some status) now =
    if now.elapsed last < d then .waitFor (d.minus (now.elapsed last)) else phase.afterWait := by
  cases hfinished : phase.isFinished with
  | true => simp [schedule, hphase, hlast, hfinished, hrecurs hfinished, scheduleFinished,
      Phase.afterWait]
  | false =>
    by_cases hlt : now.elapsed last < d
    · have hle : ¬ d ≤ now.elapsed last := Nat.not_le.2 hlt
      simp [schedule, hphase, hlast, hfinished, scheduleActive, hlt, hle]
    · have hle : d ≤ now.elapsed last := Duration.not_lt.1 hlt
      simp [schedule, hphase, hlast, hfinished, scheduleActive, hlt, hle, Phase.afterWait]

variable (hd : 0 < d.nanos) (hnow : now.time.isLeap = false) (hleap : last.time.isLeap = false)

include hd hnow hleap

/-- Before its gate opens an experiment waits, and for no longer than its duration. -/
theorem schedule_before_gate (h : now.unixNanos < last.unixNanos + d.nanos) :
    ∃ w, schedule mode (some d) (some status) now = .waitFor w ∧
      w.nanos = d.nanos - (now.unixNanos - last.unixNanos).toNat := by
  have hclosed : ¬ d ≤ now.elapsed last := by
    rw [Instant.le_elapsed_iff hd hnow hleap]
    omega
  have hshort : now.elapsed last < d := Nat.not_le.1 hclosed
  refine ⟨d.minus (now.elapsed last), ?_, Instant.nanos_minus_elapsed d hnow hleap⟩
  rw [schedule_of_lastRun hphase hlast hrecurs, if_pos hshort]

/-- From the moment at which its gate opens an experiment does not wait. -/
theorem schedule_after_gate (h : last.unixNanos + d.nanos ≤ now.unixNanos) :
    schedule mode (some d) (some status) now = phase.afterWait := by
  have hopen : d ≤ now.elapsed last := by
    rw [Instant.le_elapsed_iff hd hnow hleap]
    omega
  rw [schedule_of_lastRun hphase hlast hrecurs, if_neg (Duration.not_lt.2 hopen)]

/-- Whoever is told to wait comes before the gate opens. -/
theorem lt_gate_of_waitFor (h : schedule mode (some d) (some status) now = .waitFor w) :
    now.unixNanos < last.unixNanos + d.nanos := by
  refine Int.not_le.1 fun hopen => phase.afterWait_ne_waitFor w ?_
  exact (schedule_after_gate hphase hlast hrecurs hd hnow hleap hopen).symm.trans h

end Gate

/-! ## One wait after another -/

/-- An experiment whose record does not change is looked at from `now` on, each time after
    exactly the delay that it was told to wait: `n` waits lead to the last time. -/
inductive Revisited (mode : Mode) (duration : Option Duration) (status : Status)
    (now : Instant) : Nat → Instant → Prop
  | start : Revisited mode duration status now 0 now
  | again {n : Nat} {time next : Instant} {w : Duration} :
      Revisited mode duration status now n time →
      schedule mode duration (some status) time = .waitFor w →
      next.time.isLeap = false → next.unixNanos = time.unixNanos + w.nanos →
      Revisited mode duration status now (n + 1) next

section Revisits

variable {mode : Mode} {d w : Duration} {status : Status} {phase : Phase}
  {last now time : Instant} {n : Nat}

theorem Revisited.isLeap_eq_false {duration : Option Duration}
    (h : Revisited mode duration status now n time) (hnow : now.time.isLeap = false) :
    time.time.isLeap = false := by
  cases h with
  | start => exact hnow
  | again _ _ hleap _ => exact hleap

/-- One more duration than before. -/
theorem succ_mul_nanos (n : Nat) (d : Duration) :
    ((n + 1 : Nat) : Int) * d.nanos = n * d.nanos + d.nanos := by
  rw [Nat.cast_succ, Int.add_mul, Int.one_mul]

/-- The gate is open after as many durations as this: one, and one more for each that begins
    before the last attack. -/
theorem gate_le_iff (hd : 0 < d.nanos) (hgate : now.unixNanos < last.unixNanos + d.nanos)
    (n : Nat) : last.unixNanos + d.nanos ≤ now.unixNanos + n * d.nanos ↔
      1 + (last.unixNanos - now.unixNanos).toNat ⌈/⌉ d.nanos ≤ n := by
  cases n with
  | zero =>
    rw [Nat.cast_zero, Int.zero_mul]
    omega
  | succ m =>
    have hceil : (last.unixNanos - now.unixNanos).toNat ⌈/⌉ d.nanos ≤ m ↔
        (last.unixNanos - now.unixNanos).toNat ≤ d.nanos * m := ceilDiv_le_iff_le_mul hd
    have hproduct : (m : Int) * d.nanos = (d.nanos * m : Nat) := by
      rw [Nat.cast_mul, Int.mul_comm]
    rw [succ_mul_nanos, hproduct, Nat.add_comm 1, Nat.add_le_add_iff_right, hceil]
    omega

variable (hphase : status.phase = some phase) (hlast : status.lastRun = some last)
  (hrecurs : phase.isFinished = true → mode = .recurring) (hd : 0 < d.nanos)
  (hnow : now.time.isLeap = false) (hleap : last.time.isLeap = false)

include hphase hlast hrecurs hd hnow hleap

/-- Every wait but the last one takes the whole duration, and the last one ends with the gate. -/
theorem Revisited.unixNanos_eq (hgate : now.unixNanos < last.unixNanos + d.nanos)
    (h : Revisited mode (some d) status now n time) :
    time.unixNanos = min (now.unixNanos + n * d.nanos) (last.unixNanos + d.nanos) := by
  induction h with
  | start =>
    rw [Nat.cast_zero, Int.zero_mul]
    omega
  | @again n time next w h hwait _ hnext ih =>
    have htime := h.isLeap_eq_false hnow
    have hbefore := lt_gate_of_waitFor hphase hlast hrecurs hd htime hleap hwait
    obtain ⟨w', hwait', hw⟩ := schedule_before_gate hphase hlast hrecurs hd htime hleap hbefore
    obtain rfl : w = w' := Decision.waitFor.inj (hwait.symm.trans hwait')
    rw [hnext, succ_mul_nanos]
    omega

/-- As long as the gate is closed there is a next wait; it leads to an instant that is not later
    than the gate. -/
theorem Revisited.exists_next {gate : Instant} (hgate : gate.time.isLeap = false)
    (hopens : gate.unixNanos = last.unixNanos + d.nanos)
    (hbefore : now.unixNanos < gate.unixNanos) (h : Revisited mode (some d) status now n time)
    (hn : now.unixNanos + n * d.nanos < gate.unixNanos) :
    ∃ w, schedule mode (some d) (some status) time = .waitFor w ∧
      time.unixNanos + w.nanos =
        min (now.unixNanos + (n + 1 : Nat) * d.nanos) gate.unixNanos ∧
      ∃ next, Revisited mode (some d) status now (n + 1) next := by
  have htime := h.isLeap_eq_false hnow
  have heq := h.unixNanos_eq hphase hlast hrecurs hd hnow hleap (hopens ▸ hbefore)
  obtain ⟨w, hwait, hw⟩ :=
    schedule_before_gate hphase hlast hrecurs hd htime hleap (by omega)
  have hsum : time.unixNanos + w.nanos =
      min (now.unixNanos + (n + 1 : Nat) * d.nanos) gate.unixNanos := by
    rw [succ_mul_nanos]
    omega
  refine ⟨w, hwait, hsum, ?_⟩
  obtain ⟨next, hnext, hnanos⟩ := Instant.exists_of_between (a := time) (b := gate)
    (n := time.unixNanos + w.nanos) hgate (by omega) (by omega)
  exact ⟨next, h.again hwait hnext hnanos⟩

/-- Each wait begins while the gate is closed. -/
theorem Revisited.lt_gate (hgate : now.unixNanos < last.unixNanos + d.nanos)
    (h : Revisited mode (some d) status now (n + 1) time) :
    now.unixNanos + n * d.nanos < last.unixNanos + d.nanos := by
  obtain _ | ⟨hearlier, hwait⟩ := h
  have heq := hearlier.unixNanos_eq hphase hlast hrecurs hd hnow hleap hgate
  have hlt := lt_gate_of_waitFor hphase hlast hrecurs hd (hearlier.isLeap_eq_false hnow) hleap hwait
  omega

/-- There are as many waits as begin while the gate is closed. -/
theorem exists_revisited {gate : Instant} (hgate : gate.time.isLeap = false)
    (hopens : gate.unixNanos = last.unixNanos + d.nanos)
    (hbefore : now.unixNanos < gate.unixNanos)
    (hn : now.unixNanos + n * d.nanos < gate.unixNanos + d.nanos) :
    ∃ time, Revisited mode (some d) status now n time := by
  -- Each wait that begins before the gate opens leads to an instant, as the gate itself is one.
  induction n with
  | zero => exact ⟨now, .start⟩
  | succ n ih =>
    rw [succ_mul_nanos] at hn
    obtain ⟨time, h⟩ := ih (by omega)
    obtain ⟨-, -, -, hnext⟩ := h.exists_next hphase hlast hrecurs hd hnow hleap hgate hopens
      hbefore (by omega)
    exact hnext

/-- The last wait ends at the moment at which the gate opens. -/
theorem revisited_gate {gate : Instant} (hgate : gate.time.isLeap = false)
    (hopens : gate.unixNanos = last.unixNanos + d.nanos)
    (hbefore : now.unixNanos < gate.unixNanos)
    (hn : now.unixNanos + n * d.nanos < gate.unixNanos)
    (hn' : gate.unixNanos ≤ now.unixNanos + (n + 1 : Nat) * d.nanos) :
    Revisited mode (some d) status now (n + 1) gate := by
  obtain ⟨time, h⟩ := exists_revisited (n := n) hphase hlast hrecurs hd hnow hleap hgate hopens
    hbefore (by omega)
  obtain ⟨w, hwait, hsum, -⟩ := h.exists_next hphase hlast hrecurs hd hnow hleap hgate hopens
    hbefore hn
  exact h.again hwait hgate (by omega)

end Revisits

/-! ## The main result -/

/-- A wait is exact, and waiting ends. Let an experiment with a duration and a last attack be told
    to wait. Then it is told to wait for a positive time, no longer than the duration and not
    beyond its gate, the last attack plus the duration; until the gate and no shorter, if the last
    attack does not lie ahead. In that case it waits at every later time for what is left until
    the gate, and from then on its run is over or, if it is finished and thus recurs, the next run
    begins. Whoever comes back after exactly the given delays, while the record does not change,
    is told to wait once, and once more for each duration that begins before a last attack that
    lies ahead; the answer after that comes at the gate, if the calendar lasts that long, and is
    not to wait. -/
theorem waiting_ends {mode : Mode} {d w : Duration} {status : Status} {phase : Phase}
    {last now : Instant} (hd : 0 < d.nanos) (hphase : status.phase = some phase)
    (hlast : status.lastRun = some last) (hnow : now.time.isLeap = false)
    (hleap : last.time.isLeap = false)
    (h : schedule mode (some d) (some status) now = .waitFor w) :
    let gate : Int := last.unixNanos + d.nanos
    let waits := 1 + (last.unixNanos - now.unixNanos).toNat ⌈/⌉ d.nanos
    (0 < w.nanos ∧ w ≤ d ∧ now.unixNanos + w.nanos ≤ gate ∧
      (last.unixNanos ≤ now.unixNanos → now.unixNanos + w.nanos = gate)) ∧
    (last.unixNanos ≤ now.unixNanos → ∀ later : Instant, later.time.isLeap = false →
      now.unixNanos ≤ later.unixNanos →
      (later.unixNanos < gate → ∃ rest,
        schedule mode (some d) (some status) later = .waitFor rest ∧
        later.unixNanos + rest.nanos = gate) ∧
      (gate ≤ later.unixNanos →
        (phase = .pending ∨ phase = .running) ∧
          schedule mode (some d) (some status) later = .complete ∨
        (phase = .completed ∨ phase = .failed) ∧ mode = .recurring ∧
          schedule mode (some d) (some status) later = .retrigger)) ∧
    (∀ n time, Revisited mode (some d) status now n time → n ≤ waits ∧
      (n < waits → ∃ rest, schedule mode (some d) (some status) time = .waitFor rest) ∧
      (n = waits → time.unixNanos = gate ∧
        schedule mode (some d) (some status) time = phase.afterWait)) ∧
    ∀ time : Instant, time.time.isLeap = false → time.unixNanos = gate →
      Revisited mode (some d) status now waits time := by
  intro gate waits
  have hrecurs := recurring_of_waitFor hphase h
  have hafter {later : Instant} (hlater : later.time.isLeap = false) :=
    schedule_after_gate hphase hlast hrecurs hd hlater hleap
  have hbefore {later : Instant} (hlater : later.time.isLeap = false) :=
    schedule_before_gate hphase hlast hrecurs hd hlater hleap
  have hclosed : now.unixNanos < gate :=
    lt_gate_of_waitFor hphase hlast hrecurs hd hnow hleap h
  have hgate (n : Nat) : gate ≤ now.unixNanos + n * d.nanos ↔ waits ≤ n := gate_le_iff hd hclosed n
  refine ⟨?_, fun hpast later hlater hle => ⟨fun hearly => ?_, fun hlate => ?_⟩,
    fun n time hn => ?_, fun time htime hopens => ?_⟩
  · obtain ⟨w', hw', hnanos⟩ := hbefore hnow hclosed
    obtain rfl : w = w' := Decision.waitFor.inj (h.symm.trans hw')
    rw [Duration.le_iff]
    omega
  · obtain ⟨rest, hrest, hnanos⟩ := hbefore hlater hearly
    exact ⟨rest, hrest, by omega⟩
  · rw [hafter hlater hlate, Phase.afterWait]
    cases phase with
    | pending | running => exact .inl ⟨by simp, rfl⟩
    | completed | failed => exact .inr ⟨by simp, hrecurs rfl, rfl⟩
  · have htime := hn.isLeap_eq_false hnow
    have heq := hn.unixNanos_eq hphase hlast hrecurs hd hnow hleap hclosed
    have hiff := hgate n
    refine ⟨?_, fun hlt => ?_, fun hend => ?_⟩
    · cases n with
      | zero => exact Nat.zero_le _
      | succ n =>
        have hlt := hn.lt_gate hphase hlast hrecurs hd hnow hleap hclosed
        have hbegun := hgate n
        omega
    · obtain ⟨rest, hrest, -⟩ := hbefore htime (by omega)
      exact ⟨rest, hrest⟩
    · have hopen : time.unixNanos = gate := by omega
      exact ⟨hopen, hafter htime (Int.le_of_eq hopen.symm)⟩
  · obtain ⟨k, hk⟩ : ∃ k, waits = k + 1 := ⟨_, Nat.add_comm 1 _⟩
    have hbegun := hgate k
    have hover := hgate (k + 1)
    rw [hk]
    exact revisited_gate hphase hlast hrecurs hd hnow hleap htime hopens (by omega) (by omega)
      (by omega)

/-- A last attack seven minutes ahead and a duration of three minutes: three whole waits, one of
    a minute, and the next run begins ten minutes later. -/
theorem waiting_ends_ahead :
    let status : Status := ⟨some .completed, some (.sample 7), none, []⟩
    let d : Duration := ⟨180 * nanosPerSecond, by decide⟩
    schedule .recurring (some d) (some status) (.sample 0) = .waitFor d ∧
      Revisited .recurring (some d) status (.sample 0) 4 (.sample 10) ∧
      schedule .recurring (some d) (some status) (.sample 10) = .retrigger ∧
      ∀ n time, Revisited .recurring (some d) status (.sample 0) n time → n ≤ 4 := by
  intro status d
  have hwait : schedule .recurring (some d) (some status) (.sample 0) = .waitFor d := by decide
  have hwaits : 1 + ((Instant.sample 7).unixNanos - (Instant.sample 0).unixNanos).toNat ⌈/⌉
      d.nanos = 4 := by decide
  obtain ⟨-, -, hall, hend⟩ := waiting_ends (by decide) rfl rfl rfl rfl hwait
  simp only [hwaits] at hall hend
  have hrevisited := hend (.sample 10) rfl (by decide)
  exact ⟨hwait, hrevisited, ((hall _ _ hrevisited).2.2 rfl).2, fun n time hn => (hall n time hn).1⟩

end ChaosController
