/-
  ChaosController.Proofs.Schedule

  What a decision says about the record it was made on.

  Each decision that leads to a write is turned around once: the phase, the last attack and the
  gate of the duration that go with it. Without leap seconds the gate compares nanosecond
  counts.
-/

import ChaosController.Schedule

namespace ChaosController

theorem Duration.not_lt {a b : Duration} : ¬ a < b ↔ b ≤ a := Nat.not_lt

/-! ## Elapsed time -/

theorem Duration.nanos_ofNanosCapped_eq_min (n : Nat) :
    (ofNanosCapped n).nanos = min n (durationBound - 1) := by
  unfold ofNanosCapped
  split
  next h => exact (Nat.min_eq_left (Nat.le_pred_of_lt h)).symm
  next h => exact (Nat.min_eq_right (Nat.le_trans (Nat.sub_le _ 1) (Nat.not_lt.1 h))).symm

namespace Instant

variable {now last : Instant}

theorem nanos_elapsed (hnow : now.time.isLeap = false) (hlast : last.time.isLeap = false) :
    (now.elapsed last).nanos =
      min (now.unixNanos - last.unixNanos).toNat (durationBound - 1) := by
  rw [elapsed, Duration.nanos_ofNanosCapped_eq_min, since_of_not_leap hnow hlast]

/-- A duration has passed if the nanosecond counts say so. -/
theorem le_elapsed_iff {d : Duration} (hd : 0 < d.nanos) (hnow : now.time.isLeap = false)
    (hlast : last.time.isLeap = false) :
    d ≤ now.elapsed last ↔ (d.nanos : Int) ≤ now.unixNanos - last.unixNanos := by
  have hbound := d.nanos_lt
  rw [Duration.le_iff, nanos_elapsed hnow hlast]
  omega

/-- What is left of a duration; time that runs backwards counts as none. -/
theorem nanos_minus_elapsed (d : Duration) (hnow : now.time.isLeap = false)
    (hlast : last.time.isLeap = false) :
    (d.minus (now.elapsed last)).nanos =
      d.nanos - (now.unixNanos - last.unixNanos).toNat := by
  have hbound := d.nanos_lt
  rw [Duration.nanos_minus, nanos_elapsed hnow hlast]
  omega

end Instant

/-! ## Valid specs -/

/-- A duration that passes its check is not zero, and is read from the text. -/
theorem of_checkDuration_eq_valid {text : Option String} {duration : Option Duration}
    (h : checkDuration text = .valid duration) :
    text = none ∧ duration = none ∨
      ∃ s d, text = some s ∧ duration = some d ∧ Duration.ofChars (trim s.toList) = .ok d ∧
        0 < d.nanos := by
  cases text with
  | none =>
    cases h
    exact .inl ⟨rfl, rfl⟩
  | some s =>
    simp only [checkDuration] at h
    split at h
    next d hread =>
      split at h
      next => cases h
      next hne =>
        cases h
        exact .inr ⟨s, d, rfl, rfl, hread,
          Nat.pos_of_ne_zero fun hzero => hne (Duration.ext hzero)⟩
    next => cases h
    next => cases h

/-- A valid spec has a namespace, labels and a duration that passes its check. -/
theorem Spec.of_verdict_eq_valid {spec : Spec} {duration : Option Duration}
    (h : spec.verdict = .valid duration) :
    trim spec.target.namespace.toList ≠ [] ∧ spec.target.labels.isEmpty = false ∧
      checkDuration spec.duration = .valid duration := by
  unfold Spec.verdict at h
  split at h
  next => cases h
  next hns =>
    split at h
    next => cases h
    next hlabels => exact ⟨hns, Bool.not_eq_true _ ▸ hlabels, h⟩

/-- The duration of a valid spec is not zero. -/
theorem Spec.duration_pos {spec : Spec} {d : Duration} (h : spec.verdict = .valid (some d)) :
    0 < d.nanos := by
  obtain ⟨-, hnone⟩ | ⟨s, read, -, hsome, -, hpos⟩ :=
    of_checkDuration_eq_valid (Spec.of_verdict_eq_valid h).2.2
  · cases hnone
  · obtain rfl := Option.some.inj hsome
    exact hpos

/-! ## The two halves of the table -/

variable {mode : Mode} {duration elapsed : Option Duration}

/-- The duration, if there is one, has passed since the last attack, if there was one. -/
def GateOpen (duration elapsed : Option Duration) : Prop :=
  ∀ d e, duration = some d → elapsed = some e → d ≤ e

theorem scheduleFinished_eq_retrigger :
    scheduleFinished mode duration elapsed = .retrigger ↔
      mode = .recurring ∧ GateOpen duration elapsed := by
  cases mode with
  | oneShot => simp [scheduleFinished]
  | recurring =>
    cases duration with
    | none => simp [scheduleFinished, GateOpen]
    | some d =>
      cases elapsed with
      | none => simp [scheduleFinished, GateOpen]
      | some e =>
        by_cases h : e < d
        · simp [scheduleFinished, GateOpen, h, ← Duration.not_lt]
        · simp [scheduleFinished, GateOpen, h, ← Duration.not_lt]

theorem scheduleFinished_ne :
    scheduleFinished mode duration elapsed ≠ .enroll ∧
      scheduleFinished mode duration elapsed ≠ .attack ∧
      scheduleFinished mode duration elapsed ≠ .complete := by
  unfold scheduleFinished
  split
  next => simp
  next => split <;> simp
  next => simp

theorem scheduleActive_eq_complete :
    scheduleActive mode duration elapsed = .complete ↔
      elapsed.isSome ∧ GateOpen duration elapsed ∧ (duration = none → mode = .oneShot) := by
  cases elapsed with
  | none => cases duration <;> simp [scheduleActive]
  | some e =>
    cases duration with
    | none => cases mode <;> simp [scheduleActive, GateOpen]
    | some d => by_cases h : d ≤ e <;> simp [scheduleActive, GateOpen, h]

theorem scheduleActive_eq_attack :
    scheduleActive mode duration elapsed = .attack ↔
      elapsed = none ∨ duration = none ∧ mode = .recurring := by
  cases elapsed with
  | none => cases duration <;> simp [scheduleActive]
  | some e =>
    cases duration with
    | none => cases mode <;> simp [scheduleActive]
    | some d => by_cases h : d ≤ e <;> simp [scheduleActive, h]

theorem scheduleActive_ne :
    scheduleActive mode duration elapsed ≠ .enroll ∧
      scheduleActive mode duration elapsed ≠ .retrigger ∧
      scheduleActive mode duration elapsed ≠ .terminate := by
  cases elapsed with
  | none => cases duration <;> simp [scheduleActive]
  | some e =>
    cases duration with
    | none => cases mode <;> simp [scheduleActive]
    | some d => by_cases h : d ≤ e <;> simp [scheduleActive, h]

/-! ## The decision on a record -/

variable {status : Option Status} {now : Instant}

/-- The time since the last attack of a status. -/
def elapsed? (status : Option Status) (now : Instant) : Option Duration :=
  (status.bind Status.lastRun).map now.elapsed

/-- A record without a phase is enrolled; otherwise one half of the table decides. -/
theorem schedule_cases (mode : Mode) (duration : Option Duration) (status : Option Status)
    (now : Instant) :
    status.bind Status.phase = none ∧ schedule mode duration status now = .enroll ∨
    (∃ phase, status.bind Status.phase = some phase ∧ phase.isFinished = true ∧
      schedule mode duration status now =
        scheduleFinished mode duration (elapsed? status now)) ∨
    ∃ phase, status.bind Status.phase = some phase ∧ phase.isFinished = false ∧
      schedule mode duration status now =
        scheduleActive mode duration (elapsed? status now) := by
  cases hp : status.bind Status.phase with
  | none => simp [schedule, hp]
  | some phase => cases hf : phase.isFinished <;> simp [schedule, elapsed?, hp, hf]

/-- A record is enrolled only if it has no phase. -/
theorem of_schedule_eq_enroll (h : schedule mode duration status now = .enroll) :
    status.bind Status.phase = none := by
  obtain ⟨hp, -⟩ | ⟨phase, hp, hf, hs⟩ | ⟨phase, hp, hf, hs⟩ :=
    schedule_cases mode duration status now
  · exact hp
  · exact absurd (hs.symm.trans h) scheduleFinished_ne.1
  · exact absurd (hs.symm.trans h) scheduleActive_ne.1

/-- An attack without further ado is for a record that is not finished, and that has not been
    attacked before or recurs without a gate. -/
theorem of_schedule_eq_attack (h : schedule mode duration status now = .attack) :
    (∃ phase, status.bind Status.phase = some phase ∧ phase.isFinished = false) ∧
      (elapsed? status now = none ∨ duration = none ∧ mode = .recurring) := by
  obtain ⟨hp, hs⟩ | ⟨phase, hp, hf, hs⟩ | ⟨phase, hp, hf, hs⟩ :=
    schedule_cases mode duration status now
  · simp [hs] at h
  · exact absurd (hs.symm.trans h) scheduleFinished_ne.2.1
  · exact ⟨⟨phase, hp, hf⟩, scheduleActive_eq_attack.1 (hs.symm.trans h)⟩

/-- A run begins anew only for a finished record that recurs, when its gate is open. -/
theorem of_schedule_eq_retrigger (h : schedule mode duration status now = .retrigger) :
    (∃ phase, status.bind Status.phase = some phase ∧ phase.isFinished = true) ∧
      mode = .recurring ∧ GateOpen duration (elapsed? status now) := by
  obtain ⟨hp, hs⟩ | ⟨phase, hp, hf, hs⟩ | ⟨phase, hp, hf, hs⟩ :=
    schedule_cases mode duration status now
  · simp [hs] at h
  · exact ⟨⟨phase, hp, hf⟩, scheduleFinished_eq_retrigger.1 (hs.symm.trans h)⟩
  · exact absurd (hs.symm.trans h) scheduleActive_ne.2.1

/-- A run ends only for a record that is not finished and has been attacked, when its gate is
    open; without a duration it is a one-shot run. -/
theorem of_schedule_eq_complete (h : schedule mode duration status now = .complete) :
    (∃ phase, status.bind Status.phase = some phase ∧ phase.isFinished = false) ∧
      (elapsed? status now).isSome ∧ GateOpen duration (elapsed? status now) ∧
      (duration = none → mode = .oneShot) := by
  obtain ⟨hp, hs⟩ | ⟨phase, hp, hf, hs⟩ | ⟨phase, hp, hf, hs⟩ :=
    schedule_cases mode duration status now
  · simp [hs] at h
  · exact absurd (hs.symm.trans h) scheduleFinished_ne.2.2
  · exact ⟨⟨phase, hp, hf⟩, scheduleActive_eq_complete.1 (hs.symm.trans h)⟩

end ChaosController
