/-
  ChaosController.Proofs.Conditions

  The conditions that the controller writes.

  A status that is written keeps the conditions of others as they are, in their order, and puts
  the controller's own two behind them. Both say what the phase says, for the same reason and
  with the same message. A condition whose status has not changed keeps the time since when it
  has it (`written_conditions`).
-/

import ChaosController.Proofs.Overlap

namespace ChaosController

/-! ## Conditions of a status -/

namespace Status

/-- The conditions of a status that the controller leaves alone. -/
def foreign (s : Status) : List Condition :=
  s.conditions.filter fun c => c.kind != "Degraded" && c.kind != "Progressing"

@[simp] theorem condition?_setPhase (s : Status) (phase : Phase) (kind : String) :
    (s.setPhase phase).condition? kind = s.condition? kind := rfl

@[simp] theorem condition?_setMessage (s : Status) (message kind : String) :
    (s.setMessage message).condition? kind = s.condition? kind := rfl

/-- Setting a condition leaves the first condition of any other kind as it is. -/
theorem condition?_setCondition_of_ne (s : Status) {c : Condition} {kind : String}
    (h : c.kind ≠ kind) : (s.setCondition c).condition? kind = s.condition? kind := by
  have hlast : [s.carryTransition c].find? (·.kind == kind) = none := by
    simpa using h
  have hkept : (fun old : Condition => decide (old.kind != c.kind ∧ old.kind == kind)) =
      fun old => old.kind == kind := by
    funext old
    by_cases hold : old.kind = kind
    · simp [hold, h.symm]
    · simp [hold]
  rw [condition?, conditions_setCondition, List.find?_append, hlast, Option.or_none,
    List.find?_filter, hkept, condition?]

/-- Of a status only the first condition of the kind decides what is carried over. -/
theorem carryTransition_congr {s s' : Status} {c : Condition}
    (h : s.condition? c.kind = s'.condition? c.kind) :
    s.carryTransition c = s'.carryTransition c := by
  rw [carryTransition, h, carryTransition]

end Status

/-- A condition of the controller that takes the place of those of its kind in `old`. -/
structure Condition.Reports (c : Condition) (old : Status) (kind reason message : String)
    (holds : Prop) (now : Instant) : Prop where
  kind_eq : c.kind = kind
  reason_eq : c.reason = reason
  message_eq : c.message = message
  yes_iff : c.status = .yes ↔ holds
  no_iff : c.status = .no ↔ ¬ holds
  carried : ∀ first, old.condition? kind = some first → first.status = c.status →
    c.lastTransition = first.lastTransition
  stamped : (∀ first, old.condition? kind = some first → first.status ≠ c.status) →
    c.lastTransition = now

namespace Reconcile

/-- A condition that is set reports what it says, possibly since an earlier time. -/
theorem reports_carryTransition (old : Status) (kind reason message : String) (holds : Bool)
    (now : Instant) :
    (old.carryTransition ⟨kind, truth holds, reason, message, now⟩).Reports old kind reason
      message (holds = true) now := by
  have hyes : truth holds = .yes ↔ holds = true := by cases holds <;> decide
  have hno : truth holds = .no ↔ ¬ holds = true := by cases holds <;> decide
  unfold Status.carryTransition
  split
  next first hfirst =>
    have hfirst : old.condition? kind = some first := hfirst
    split
    next hsame =>
      refine ⟨rfl, rfl, rfl, hyes, hno, fun other hother _ => ?_, fun hnone => ?_⟩
      · rw [hfirst] at hother
        rw [← Option.some.inj hother]
      · exact absurd hsame (hnone first hfirst)
    next hdiffers =>
      refine ⟨rfl, rfl, rfl, hyes, hno, fun other hother hsame => ?_, fun _ => rfl⟩
      rw [hfirst] at hother
      rw [← Option.some.inj hother] at hsame
      exact absurd hsame hdiffers
  next hnone =>
    have hnone : old.condition? kind = none := hnone
    refine ⟨rfl, rfl, rfl, hyes, hno, fun other hother _ => ?_, fun _ => rfl⟩
    rw [hnone] at hother
    cases hother

end Reconcile

/-! ## Written statuses -/

/-- The conditions of a record that the controller leaves alone. -/
def Experiment.foreign (e : Experiment) : List Condition := (e.status.getD .empty).foreign

namespace Reconcile

variable (base : Experiment) (phase : Phase) (reason : Reason) (message : String) (now : Instant)

/-- The controller puts its two conditions behind those of others. -/
theorem conditions_nextStatus :
    (nextStatus base phase reason message now).conditions = base.foreign ++
      [(base.status.getD .empty).carryTransition
          ⟨"Progressing", truth (!phase.isFinished), reason.text, message, now⟩,
        (base.status.getD .empty).carryTransition
          ⟨"Degraded", truth (phase == .failed), reason.text, message, now⟩] := by
  let progressing : Condition :=
    ⟨"Progressing", truth (!phase.isFinished), reason.text, message, now⟩
  let degraded : Condition := ⟨"Degraded", truth (phase == .failed), reason.text, message, now⟩
  let old := base.status.getD .empty
  let status := (old.setPhase phase).setMessage message
  have hprogressing : status.carryTransition progressing = old.carryTransition progressing :=
    Status.carryTransition_congr (by simp [status])
  have hkinds : progressing.kind ≠ degraded.kind := show "Progressing" ≠ "Degraded" by decide
  -- The first condition is set by then, but it is of another kind.
  have hdegraded : (status.setCondition progressing).carryTransition degraded =
      old.carryTransition degraded := by
    refine Status.carryTransition_congr ?_
    rw [Status.condition?_setCondition_of_ne _ hkinds]
    simp [status]
  have hkept : (old.carryTransition progressing).kind ≠ degraded.kind := by
    rw [Status.kind_carryTransition]
    exact hkinds
  show ((status.setCondition progressing).setCondition degraded).conditions = _
  rw [Status.conditions_setCondition, Status.conditions_setCondition, hprogressing, hdegraded,
    List.filter_append, List.filter_filter, List.filter_cons_of_pos (by simpa using hkept),
    List.filter_nil, List.append_assoc]
  rfl

/-- The two conditions of the controller report the phase. -/
theorem reports_nextStatus :
    ∃ progressing degraded : Condition,
      (nextStatus base phase reason message now).conditions =
        base.foreign ++ [progressing, degraded] ∧
      progressing.Reports (base.status.getD .empty) "Progressing" reason.text message
        (phase = .pending ∨ phase = .running) now ∧
      degraded.Reports (base.status.getD .empty) "Degraded" reason.text message
        (phase = .failed) now := by
  have hprogressing : ((!phase.isFinished) = true) = (phase = .pending ∨ phase = .running) := by
    cases phase <;> simp [Phase.isFinished]
  have hdegraded : ((phase == .failed) = true) = (phase = .failed) := by
    rw [beq_iff_eq]
  refine ⟨_, _, conditions_nextStatus base phase reason message now, ?_, ?_⟩
  · rw [← hprogressing]
    exact reports_carryTransition _ _ _ _ _ _
  · rw [← hdegraded]
    exact reports_carryTransition _ _ _ _ _ _

end Reconcile

/-! ## The main result -/

/-- The shape of every status that an invocation writes, whatever its calls have been answered
    with. It is made for the record that the invocation read or wrote last. The conditions of
    others are kept, unchanged and in their order, and two follow: one says whether the run goes
    on, the other whether it has failed. Both give the same reason, and the message of the
    status; each keeps the time of the first condition of its kind before it as long as its
    status is the same. -/
theorem written_conditions {settings : Settings} {trigger : Experiment} {now : Instant}
    {t : Trace} {base : Experiment} {status : Status}
    {resume : Except Error Experiment → Invocation (Except Error Revisit)}
    (h : (reconcileAt settings trigger now).run.Reaches t (.ask (.update base status) resume)) :
    t.base? = some base ∧ ∃ phase reason message progressing degraded,
      status.phase = some phase ∧ status.message = some message ∧
      status.conditions = base.foreign ++ [progressing, degraded] ∧
      progressing.Reports (base.status.getD .empty) "Progressing" reason message
        (phase = .pending ∨ phase = .running) now ∧
      degraded.Reports (base.status.getD .empty) "Degraded" reason message
        (phase = .failed) now := by
  obtain ⟨read, hstands, hwrites, -⟩ := Reconcile.lawful_of_reaches h
  refine ⟨hstands.base_eq, ?_⟩
  cases hwrites.derived with
  | kept phase reason message =>
    obtain ⟨progressing, degraded, hconditions, hreports⟩ :=
      Reconcile.reports_nextStatus base phase reason message now
    exact ⟨phase, reason.text, message, progressing, degraded, rfl, rfl, hconditions, hreports⟩
  -- Recording an attack touches no condition.
  | run phase reason message =>
    obtain ⟨progressing, degraded, hconditions, hreports⟩ :=
      Reconcile.reports_nextStatus base phase reason message now
    exact ⟨phase, reason.text, message, progressing, degraded, rfl, rfl, hconditions, hreports⟩

/-- A recurring experiment that runs again. Somebody has left two conditions about its progress
    around one of their own: the first of them decides, both give way, and the condition that has
    not changed keeps its time. -/
theorem written_conditions_crowded :
    let ready : Condition := ⟨"Ready", .unknown, "Unknown", "", .sample 3⟩
    let e := { Experiment.sample .recurring (some "5m") (some .completed) (some (.sample 0)) with
      status := some ⟨some .completed, some (.sample 0), none,
        [⟨"Progressing", .no, "", "", .sample 1⟩, ready, ⟨"Progressing", .yes, "", "", .sample 2⟩,
          ⟨"Degraded", .no, "", "", .sample 4⟩]⟩ }
    ∃ (v : Visit) (status : Status) (resume : _), v.rest = .ask (.update e status) resume ∧
      v.trace.base? = some e ∧ ∃ progressing degraded : Condition,
        status.conditions = [ready, progressing, degraded] ∧
        progressing.status = .yes ∧ progressing.lastTransition = .sample 6 ∧
        degraded.status = .no ∧ degraded.lastTransition = .sample 4 := by
  intro ready e
  have hact : Reconcile.step ⟨.standard, "sample", .sample 6⟩ e = _ :=
    Reconcile.step_of_acts (d := .retrigger)
      (show Spec.verdict _ = .valid (some ⟨300 * nanosPerSecond, by decide⟩) by decide)
      (show AttackKind.attack? _ = some .podKill from rfl) (by decide) rfl
  let start := Visit.begin .standard (.sample .recurring none none none) (.sample 6)
  let v := start.answered (r := .get "lab" "sample") rfl (.ok (some e))
  have hrest : v.rest = .ask (.update e _) _ :=
    (Visit.rest_answered_get rfl rfl).trans ((congrArg ExceptT.run hact).trans rfl)
  obtain ⟨hbase, phase, reason, message, progressing, degraded, hphase, -, hconditions,
    hprogressing, hdegraded⟩ := written_conditions (hrest ▸ v.reaches)
  obtain rfl : Phase.running = phase := Option.some.inj hphase
  have hyes : progressing.status = .yes := hprogressing.yes_iff.2 (.inr rfl)
  have hno : degraded.status = .no := hdegraded.no_iff.2 (by decide)
  refine ⟨v, _, _, hrest, hbase, progressing, degraded, hconditions, hyes, ?_, hno, ?_⟩
  · refine hprogressing.stamped fun first hfirst => ?_
    obtain rfl := Option.some.inj hfirst
    rw [hyes]
    decide
  · exact hdegraded.carried _ rfl hno.symm

end ChaosController
