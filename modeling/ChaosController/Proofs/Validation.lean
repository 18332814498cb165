/-
  ChaosController.Proofs.Validation

  How the check of a spec ends, and what becomes of a record that does not pass it.

  The check gives no duration, a duration that is not zero, or an error that names the
  experiment. It gives nothing at all, because it aborts the process, exactly if the duration
  overflows; every invocation that reads no such duration ends with a result. A record that does
  not pass and is due to be acted on is marked as failed, and an event says why (`checks_end`).
-/

import ChaosController.Proofs.DurationText
import ChaosController.Proofs.FailStop

namespace ChaosController

/-! ## Checks of a spec -/

/-- The duration of a spec overflows when it is read, and nothing else is wrong before. -/
structure Spec.Overflows (s : Spec) : Prop where
  namespace_visible : trim s.target.namespace.toList ≠ []
  labeled : s.target.labels.isEmpty = false
  duration : ∃ text, s.duration = some text ∧ Duration.Overflows (trim text.toList)

theorem checkDuration_eq_abort_iff {duration : Option String} :
    checkDuration duration = .abort ↔
      ∃ text, duration = some text ∧ Duration.Overflows (trim text.toList) := by
  cases duration with
  | none =>
    constructor
    · intro habort
      cases habort
    · rintro ⟨text, htext, -⟩
      cases htext
  | some text =>
    constructor
    · intro habort
      refine ⟨text, rfl, Duration.ofChars_eq_abort_iff.1 ?_⟩
      simp only [checkDuration] at habort
      split at habort
      next => split at habort <;> cases habort
      next => cases habort
      next hread => exact hread
    · rintro ⟨other, hother, hoverflows⟩
      obtain rfl := Option.some.inj hother
      simp only [checkDuration, Duration.ofChars_eq_abort_iff.2 hoverflows]

theorem Spec.verdict_eq_abort_iff {s : Spec} : s.verdict = .abort ↔ s.Overflows := by
  unfold Spec.verdict
  constructor
  · intro habort
    split at habort
    next => cases habort
    next hns =>
      split at habort
      next => cases habort
      next hlabels =>
        exact ⟨hns, Bool.eq_false_iff.2 hlabels, checkDuration_eq_abort_iff.1 habort⟩
  · intro ⟨hns, hlabels, hduration⟩
    rw [if_neg hns, if_neg (by simp [hlabels])]
    exact checkDuration_eq_abort_iff.2 hduration

/-- How the check of a spec may end. -/
inductive Spec.Checked (experiment : String) (s : Spec) :
    Option (Except Error (Option Duration)) → Prop
  | endless (h : s.duration = none) : Checked experiment s (some (.ok none))
  | timed (d : Duration) (h : s.duration.isSome) (hpos : 0 < d.nanos) :
      Checked experiment s (some (.ok (some d)))
  | refused (message : String) :
      Checked experiment s (some (.error (.validation experiment message)))
  | aborted (h : s.Overflows) : Checked experiment s none

theorem Spec.checked_validate (experiment : String) (s : Spec) :
    s.Checked experiment (s.validate experiment) := by
  unfold Spec.validate
  cases hv : s.verdict with
  | valid duration =>
    obtain ⟨hnone, rfl⟩ | ⟨text, d, htext, rfl, -, hpos⟩ :=
      of_checkDuration_eq_valid (Spec.of_verdict_eq_valid hv).2.2
    · exact .endless hnone
    · exact .timed d (by rw [htext]; rfl) hpos
  | invalid cause => exact .refused cause.message
  | abort => exact .aborted (Spec.verdict_eq_abort_iff.1 hv)

/-- The check gives nothing exactly if the duration overflows. -/
theorem Spec.validate_eq_none_iff {experiment : String} {s : Spec} :
    s.validate experiment = none ↔ s.Overflows := by
  rw [← Spec.verdict_eq_abort_iff, Spec.validate]
  cases s.verdict <;> simp [Verdict.result?]

/-- An error of the check is the error of a spec that does not pass. -/
theorem Spec.exists_of_validate_eq_error {experiment : String} {s : Spec} {error : Error}
    (h : s.validate experiment = some (.error error)) :
    ∃ cause, s.verdict = .invalid cause ∧ cause.error experiment = error := by
  unfold Spec.validate at h
  cases hv : s.verdict with
  | invalid cause =>
    rw [hv] at h
    exact ⟨cause, rfl, Except.error.inj (Option.some.inj h)⟩
  | valid | abort =>
    rw [hv] at h
    cases h

namespace Reconcile

/-- An invocation ends with a result, or it has read a duration that overflows. -/
theorem Accounts.finished_or_overflows {name : String} {t : Trace}
    {ending : Ending (Except Error Revisit)} (h : Accounts name t ending) :
    (∃ result, ending = .finished result) ∨
      ending = .aborted ∧ ∃ read, t.read? = some read ∧ read.spec.Overflows := by
  cases h with
  | well revisit => exact .inl ⟨_, rfl⟩
  | refused => exact .inl ⟨_, rfl⟩
  | missed => exact .inl ⟨_, rfl⟩
  | aborted ht hread hverdict =>
    exact .inr ⟨rfl, _, hread, Spec.verdict_eq_abort_iff.1 hverdict⟩

/-! ## Records that do not pass -/

/-- A record has been enrolled, and it is no one-shot experiment that is over. -/
structure IsDue (e : Experiment) : Prop where
  enrolled : e.phase?.isSome
  unfinished : e.spec.mode = .oneShot → ∀ phase, e.phase? = some phase → phase.isFinished = false

variable {c : Context} {read : Experiment} {cause : SpecError}

/-- Without a duration there is nothing to wait for. -/
theorem acts_of_invalid (hv : read.spec.verdict = .invalid cause) (hdue : IsDue read) :
    (decision c read).acts = true := by
  obtain ⟨phase, hphase⟩ := Option.isSome_iff_exists.1 hdue.enrolled
  have hphase' : read.status.bind Status.phase = some phase := hphase
  have hnone : read.spec.verdict.duration? = none := by
    rw [hv]
    rfl
  rw [decision, hnone, schedule, hphase']
  dsimp only
  split
  next hfinished =>
    cases hmode : read.spec.mode with
    | oneShot =>
      rw [hdue.unfinished hmode phase hphase] at hfinished
      cases hfinished
    | recurring => rfl
  next =>
    cases (read.status.bind Status.lastRun).map c.now.elapsed with
    | none => rfl
    | some elapsed =>
      unfold scheduleActive
      dsimp only
      split <;> rfl

/-- A record that is due and does not pass is marked as failed. -/
theorem step_of_invalid (hv : read.spec.verdict = .invalid cause) (hdue : IsDue read) :
    step c read = misconfigured c read cause := by
  have hacts : (schedule read.spec.mode (Verdict.invalid cause).duration? read.status
      c.now).acts = true := by
    have hacts := acts_of_invalid (c := c) hv hdue
    rwa [decision, hv] at hacts
  simp only [step, hv]
  cases hd : schedule read.spec.mode (Verdict.invalid cause).duration? read.status c.now with
  | enroll | waitFor | terminate =>
    rw [hd] at hacts
    cases hacts
  | complete | retrigger | attack => rfl

section Runs

variable {oracle : Oracle} {settings : Settings} {trigger : Experiment} {now : Instant}

/-- Whatever it is told, an invocation ends with a result, or it has read a duration that
    overflows. -/
theorem consult_finished_or_overflows :
    (∃ result, ((reconcileAt settings trigger now).run.consult oracle []).1 = .finished result) ∨
      ((reconcileAt settings trigger now).run.consult oracle []).1 = .aborted ∧
        ∃ read, ((reconcileAt settings trigger now).run.consult oracle []).2.read? = some read ∧
          read.spec.Overflows := by
  cases hns : trigger.metadata.namespace with
  | none =>
    refine .inl ⟨.error (.internal "reconcile" (trigger.name ++ " has no namespace")), ?_⟩
    simp only [reconcileAt, hns]
    rfl
  | some ns =>
    have haccounts := (accounted_reconcileAt settings now hns).consult oracle
    exact haccounts.finished_or_overflows

/-- An invocation that reads a record which is due and does not pass goes on to mark it. -/
theorem consult_of_invalid {ns : String} (hns : trigger.metadata.namespace = some ns)
    (hget : oracle [] (.get ns trigger.name) = .ok (some read))
    (hv : read.spec.verdict = .invalid cause) (hdue : IsDue read) :
    (reconcileAt settings trigger now).run.consult oracle [] =
      (misconfigured ⟨settings, trigger.name, now⟩ read cause).run.consult oracle
        [⟨.get ns trigger.name, .ok (some read)⟩] := by
  rw [← step_of_invalid hv hdue]
  simp only [reconcileAt, hns]
  exact Invocation.consult_ask hget

/-- A record is marked as failed, and the event that says so has the message of the status. If
    the write fails, so does the invocation. -/
theorem consult_misconfigured {t : Trace} :
    let message := "Invalid experiment spec: " ++ (cause.error c.name).message
    let status := nextStatus read .failed .validationFailed message c.now
    let run := (misconfigured c read cause).run.consult oracle t
    (∃ e, run = (.finished (.error e), ⟨.update read status, .error e⟩ :: t)) ∨
      ∃ updated : Experiment,
        let event : Event :=
          ⟨updated.reference, .warning, "ValidationFailed", "Validate", some message⟩
        run = (.finished (.ok .onChange),
          ⟨.publish event, ()⟩ :: ⟨.update read status, .ok updated⟩ :: t) := by
  intro message status run
  cases hreply : oracle t (.update read status) with
  | error e => exact .inl ⟨e, (Invocation.consult_ask hreply).trans rfl⟩
  | ok updated => exact .inr ⟨updated, (Invocation.consult_ask hreply).trans rfl⟩

end Runs

end Reconcile

/-! ## The main result -/

/-- How the check of a spec ends, and what follows from it for every invocation, whatever it is
    told. The check gives no duration if there is none, a duration that is not zero, or an error
    that names the experiment; it gives nothing exactly if the duration overflows. An invocation
    ends with a result unless it has read such a duration, which aborts the process. If it reads a
    record that is due and does not pass, it writes that the experiment has failed, and why; if
    that is accepted an event warns of it, and otherwise the invocation ends with the error of the
    write. -/
theorem checks_end (oracle : Oracle) (settings : Settings) (trigger : Experiment) (now : Instant) :
    let run := (reconcileAt settings trigger now).run.consult oracle []
    (∀ (experiment : String) (s : Spec), s.Checked experiment (s.validate experiment) ∧
      (s.validate experiment = none ↔ s.Overflows)) ∧
    ((∃ result, run.1 = .finished result) ∨
      run.1 = .aborted ∧ ∃ read, run.2.read? = some read ∧ read.spec.Overflows) ∧
    ∀ (ns : String) (read : Experiment) (error : Error), trigger.metadata.namespace = some ns →
      oracle [] (.get ns trigger.name) = .ok (some read) →
      read.spec.validate trigger.name = some (.error error) → Reconcile.IsDue read →
      let get : Exchange := ⟨.get ns trigger.name, .ok (some read)⟩
      let message := "Invalid experiment spec: " ++ error.message
      ∃ status, status.phase = some .failed ∧ status.message = some message ∧
        ((∃ e, run = (.finished (.error e), [⟨.update read status, .error e⟩, get])) ∨
          ∃ updated : Experiment,
            let event : Event :=
              ⟨updated.reference, .warning, "ValidationFailed", "Validate", some message⟩
            run = (.finished (.ok .onChange),
              [⟨.publish event, ()⟩, ⟨.update read status, .ok updated⟩, get])) := by
  intro run
  refine ⟨?_, Reconcile.consult_finished_or_overflows, ?_⟩
  · intro experiment s
    exact ⟨s.checked_validate experiment, Spec.validate_eq_none_iff⟩
  · intro ns read error hns hget herror hdue get message
    obtain ⟨cause, hv, rfl⟩ := Spec.exists_of_validate_eq_error herror
    have hrun : run = _ := Reconcile.consult_of_invalid hns hget hv hdue
    refine ⟨Reconcile.nextStatus read .failed .validationFailed message now, rfl, rfl, ?_⟩
    rw [hrun]
    exact Reconcile.consult_misconfigured

/-- A duration that nobody can read: the record is marked as failed, and the message says why. -/
theorem checks_end_unreadable :
    let e := Experiment.sample .oneShot (some "soon") (some .pending) none
    let run := (reconcileAt .standard e (.sample 5)).run.consult (.steady e ⟨"lab", "a"⟩) []
    ∃ status, status.phase = some .failed ∧
      status.message = some ("Invalid experiment spec: validation error for sample: " ++
        "invalid duration 'soon': expected number at 0") ∧
      run.1 = .finished (.ok .onChange) ∧
      ∃ updated, ⟨.update e status, .ok updated⟩ ∈ run.2 := by
  intro e run
  have hv : e.spec.verdict = .invalid (.unreadableDuration "soon" (.numberExpected 0)) := by decide
  have hdue : Reconcile.IsDue e := by
    refine ⟨rfl, fun _ phase hphase => ?_⟩
    obtain rfl := Option.some.inj hphase
    rfl
  have herror : e.spec.validate "sample" = some (.error (.validation "sample"
      "invalid duration 'soon': expected number at 0")) := by
    rw [Spec.validate, hv]
    rfl
  obtain ⟨status, hphase, hmessage, hrun⟩ :=
    (checks_end (.steady e ⟨"lab", "a"⟩) .standard e (.sample 5)).2.2 "lab" e _ rfl rfl herror hdue
  -- The write is accepted, as everything is by a steady oracle.
  have hended : run.1 = .finished (.ok .onChange) := by
    have hmarked : run = _ := Reconcile.consult_of_invalid rfl rfl hv hdue
    rw [hmarked]
    rfl
  refine ⟨status, hphase, hmessage, hended, ?_⟩
  obtain ⟨error, hrefused⟩ | ⟨updated, haccepted⟩ := hrun
  · have hother : run.1 = .finished (.error error) := congrArg Prod.fst hrefused
    rw [hended] at hother
    cases hother
  · have htrace : run.2 = _ := congrArg Prod.snd haccepted
    rw [htrace]
    exact ⟨updated, by simp⟩

/-- The check does abort: the seconds of this duration are full, and a thousand milliseconds are
    one second more. -/
theorem validate_aborts : ¬ ∀ (experiment : String) (s : Spec),
    (s.validate experiment).isSome = true := by
  intro h
  have hsome := h "sample"
    (Experiment.sample .oneShot (some "18446744073709551615s 1000ms") none none).spec
  have hnone : Spec.validate "sample" (Experiment.sample .oneShot
      (some "18446744073709551615s 1000ms") none none).spec = none := by
    rw [Spec.validate_eq_none_iff, ← Spec.verdict_eq_abort_iff]
    decide +kernel
  rw [hnone] at hsome
  cases hsome

end ChaosController
