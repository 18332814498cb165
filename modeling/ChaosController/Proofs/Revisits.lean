/-
  ChaosController.Proofs.Revisits

  Why an experiment is looked at again, or not before its record changes.

  A status write alone does not bring an experiment back, so an invocation that only waits for a
  change ends the experiment. It may do so if there is no record, if the record cannot be acted
  on until somebody mends it, or if the one run of the experiment is over (`Rests`). In all other
  cases it comes back after a delay, which is never zero unless the settings say so
  (`revisits_warranted`).
-/

import ChaosController.Proofs.Misconfiguration
import ChaosController.Proofs.Targeting

namespace ChaosController

/-! ## Delays -/

/-- None of the delays between two visits is zero. -/
structure Settings.Positive (settings : Settings) : Prop where
  initRevisit : 0 < settings.initRevisit.nanos
  noTargetsBackoff : 0 < settings.noTargetsBackoff.nanos
  errorBackoff : 0 < settings.errorBackoff.nanos
  conflictBackoff : 0 < settings.conflictBackoff.nanos
  recurringInterval : 0 < settings.recurringInterval.nanos

/-- After an error there is always another visit. -/
theorem Settings.exists_revisitAfter (settings : Settings) (e : Error) :
    ∃ delay, settings.revisitAfter e = .after delay ∧ (settings.Positive → 0 < delay.nanos) := by
  unfold revisitAfter
  split
  next => exact ⟨_, rfl, fun h => h.conflictBackoff⟩
  next => exact ⟨_, rfl, fun h => h.errorBackoff⟩

section Schedule

variable {mode : Mode} {duration : Option Duration} {status : Option Status} {now : Instant}

/-- Nothing is waited for but the rest of a duration that has not passed. -/
theorem of_schedule_eq_waitFor {delay : Duration}
    (h : schedule mode duration status now = .waitFor delay) : 0 < delay.nanos := by
  have hrest (d e : Duration) (hlt : e < d) (hd : d.minus e = delay) : 0 < delay.nanos := by
    rw [Duration.lt_iff] at hlt
    rw [← hd, Duration.nanos_minus]
    omega
  obtain ⟨-, hs⟩ | ⟨phase, -, -, hs⟩ | ⟨phase, -, -, hs⟩ := schedule_cases mode duration status now
  · rw [hs] at h
    cases h
  · rw [hs] at h
    unfold scheduleFinished at h
    split at h
    next => cases h
    next d e _ =>
      split at h
      next hlt => exact hrest d e hlt (Decision.waitFor.inj h)
      next => cases h
    next => cases h
  · rw [hs] at h
    unfold scheduleActive at h
    split at h
    next d e _ =>
      split at h
      next => cases h
      next hle => exact hrest d e (Nat.not_le.1 hle) (Decision.waitFor.inj h)
    next => split at h <;> cases h
    next => cases h

/-- Only the finished record of a one-shot experiment is left alone. -/
theorem of_schedule_eq_terminate (h : schedule mode duration status now = .terminate) :
    mode = .oneShot ∧ ∃ phase, status.bind Status.phase = some phase ∧ phase.isFinished = true := by
  obtain ⟨-, hs⟩ | ⟨phase, hphase, hfinished, hs⟩ | ⟨phase, -, -, hs⟩ :=
    schedule_cases mode duration status now
  · rw [hs] at h
    cases h
  · rw [hs] at h
    refine ⟨?_, phase, hphase, hfinished⟩
    unfold scheduleFinished at h
    split at h
    next => rfl
    next => split at h <;> cases h
    next => cases h
  · exact absurd (hs.symm.trans h) scheduleActive_ne.2.2

/-- After an attack the rest of the run is waited for, or the next attack. -/
theorem of_delayAfterAttack_eq_some {interval delay : Duration}
    (h : delayAfterAttack mode duration interval = some delay) :
    duration = some delay ∨ interval = delay := by
  cases duration with
  | some d => exact .inl h
  | none =>
    cases mode with
    | oneShot => cases h
    | recurring => exact .inr (Option.some.inj h)

/-- Only a one-shot run ends with its attack. -/
theorem of_delayAfterAttack_eq_none {interval : Duration}
    (h : delayAfterAttack mode duration interval = none) : mode = .oneShot := by
  cases duration with
  | some d => cases h
  | none =>
    cases mode with
    | oneShot => rfl
    | recurring => cases h

end Schedule

/-! ## What is stored, as far as an invocation knows -/

namespace Exchange

/-- The phase that is stored after an exchange which tells it: that of a record that is read, or
    of a status that is accepted. -/
def phase? : Exchange → Option (Option Phase)
  | ⟨.get _ _, .ok (some read)⟩ => some read.phase?
  | ⟨.update _ status, .ok _⟩ => some status.phase
  | ⟨.get _ _, .ok none⟩ | ⟨.get _ _, .error _⟩ | ⟨.update _ _, .error _⟩ => none
  | ⟨.list _ _, _⟩ | ⟨.pick _, _⟩ | ⟨.delete _ _, _⟩ | ⟨.publish _, _⟩ => none

/-- The record that is read in an exchange, or that a status is written for. -/
def subject? : Exchange → Option Experiment
  | ⟨.get _ _, .ok record⟩ => record
  | ⟨.update base _, _⟩ => some base
  | ⟨.get _ _, .error _⟩ => none
  | ⟨.list _ _, _⟩ | ⟨.pick _, _⟩ | ⟨.delete _ _, _⟩ | ⟨.publish _, _⟩ => none

end Exchange

namespace Trace

/-- The phase that has been read or written last. -/
def phase? (t : Trace) : Option Phase := (t.findSome? Exchange.phase?).join

/-- The record that the last status write was for, or else the one that has been read. -/
def subject? (t : Trace) : Option Experiment := t.findSome? Exchange.subject?

end Trace

/-! ## Endings -/

/-- After a trace the one run of an experiment is over: it is a one-shot experiment by the record
    that was read or, if a status has been written, by the one that it was written for, and the
    phase that is stored is a final one. -/
structure Trace.Over (t : Trace) (read base : Experiment) (phase : Phase) : Prop where
  read_eq : t.read? = some read
  subject_eq : t.subject? = some base
  mode_eq : base.spec.mode = .oneShot
  spec_eq : t.KeepsSpec → base.spec = read.spec
  phase_eq : t.phase? = some phase
  finished : phase.isFinished = true

theorem Trace.Over.publish {t : Trace} {read base : Experiment} {phase : Phase}
    (h : t.Over read base phase) (event : Event) :
    Trace.Over (⟨.publish event, ()⟩ :: t) read base phase where
  read_eq := by simp [Exchange.fetched?, h.read_eq]
  subject_eq := h.subject_eq
  mode_eq := h.mode_eq
  spec_eq := fun ht => h.spec_eq ht.tail
  phase_eq := h.phase_eq
  finished := h.finished

/-- Why nothing is left to do before the record changes. -/
inductive Trace.Rests (t : Trace) : Prop
  | absent (ns name : String) (ht : t = [⟨.get ns name, .ok none⟩])
  | misconfigured {read updated : Experiment} {status : Status} {event : Event}
      (ns name : String) (hbad : read.spec.IsMisconfigured) (hphase : status.phase = some .failed)
      (ht : t = [⟨.publish event, ()⟩, ⟨.update read status, .ok updated⟩,
        ⟨.get ns name, .ok (some read)⟩])
  | finished {read base : Experiment} {phase : Phase} (h : t.Over read base phase)

namespace Reconcile

/-- The revisits that an invocation may ask for after a trace. -/
inductive Warranted (settings : Settings) (t : Trace) : Revisit → Prop
  | rests (h : t.Rests) : Warranted settings t .onChange
  | returns (delay : Duration) (h : settings.Positive → 0 < delay.nanos) :
      Warranted settings t (.after delay)

/-- An invocation that succeeds asks for a revisit that is warranted. -/
def Justified (settings : Settings) (t : Trace) : Ending (Except Error Revisit) → Prop
  | .finished (.ok revisit) => Warranted settings t revisit
  | .finished (.error _) | .aborted | .cutOff => True

/-- Whatever an invocation is told, the revisit that it asks for is warranted. -/
abbrev Justifies (c : Context) (i : Invocation (Except Error Revisit)) (t : Trace) : Prop :=
  i.Keeps (fun _ _ => True) (Justified c.settings) t

/-- An invocation has read `read`, and goes by `base`, which has the same spec as long as status
    writes leave it as it is. -/
structure Holds (t : Trace) (read base : Experiment) : Prop where
  read_eq : t.read? = some read
  spec_eq : t.KeepsSpec → base.spec = read.spec

section Steps

variable {c : Context} {t : Trace} {read base : Experiment}

namespace Holds

theorem of_get (ns name : String) : Holds [⟨.get ns name, .ok (some read)⟩] read read where
  read_eq := by simp [Exchange.fetched?]
  spec_eq := fun _ => rfl

/-- An exchange that hands over no record leaves an invocation with the one it goes by. -/
theorem cons (h : Holds t read base) {x : Exchange} (hf : x.fetched? = none) :
    Holds (x :: t) read base where
  read_eq := by simp [hf, h.read_eq]
  spec_eq := fun ht => h.spec_eq ht.tail

theorem updated (h : Holds t read base) (status : Status) (e : Experiment) :
    Holds (⟨.update base status, .ok e⟩ :: t) read e where
  read_eq := by simp [Exchange.fetched?, h.read_eq]
  spec_eq := fun ht => (ht _ List.mem_cons_self).trans (h.spec_eq ht.tail)

/-- After the status is accepted that ends the run of a one-shot record, nothing is left to
    do. -/
theorem over_of_completed (h : Holds t read base) (hmode : base.spec.mode = .oneShot)
    {status : Status} (hphase : status.phase = some .completed) (updated : Experiment) :
    Trace.Over (⟨.update base status, .ok updated⟩ :: t) read base .completed where
  read_eq := by simp [Exchange.fetched?, h.read_eq]
  subject_eq := rfl
  mode_eq := hmode
  spec_eq := fun ht => h.spec_eq ht.tail
  phase_eq := hphase
  finished := rfl

end Holds

/-- After a failure has been recorded, whether or not it could be, an error is told or a revisit
    after a delay. -/
theorem justifies_attackFailed (known : Attack) (failure : AttackFailure) :
    Justifies c (attackFailed c base known failure).run t := by
  cases failure <;> exact keeps_fail_bind trivial (fun _ _ => trivial) fun _ _ => trivial

theorem justifies_noTargets : Justifies c (noTargets c base).run t := by
  refine keeps_fail_bind trivial (fun _ _ => trivial) fun r _ => ?_
  cases r with
  | error e => trivial
  | ok updated => exact .returns _ fun h => h.noTargetsBackoff

theorem justifies_killed (h : Holds t read base) (known : Attack) {duration : Option Duration}
    (hpos : ∀ d, duration = some d → 0 < d.nanos) (pod : Pod) :
    Justifies c (killed c base known duration pod).run t := by
  unfold killed
  cases hnext : delayAfterAttack base.spec.mode duration c.settings.recurringInterval with
  | some delay =>
    have hdelay : c.settings.Positive → 0 < delay.nanos := by
      intro hsettings
      obtain hduration | rfl := of_delayAfterAttack_eq_some hnext
      · exact hpos delay hduration
      · exact hsettings.recurringInterval
    simp only [Justifies, keeps_write_bind, keeps_publish_bind]
    exact ⟨trivial, fun _ => trivial, fun _ => ⟨trivial, .returns delay hdelay⟩⟩
  | none =>
    have hmode := of_delayAfterAttack_eq_none hnext
    simp only [Justifies, publishCompleted, keeps_write_bind, keeps_publish_bind]
    refine ⟨trivial, fun _ => trivial, fun updated => ⟨trivial, trivial, ?_⟩⟩
    exact .rests (.finished (((h.over_of_completed hmode (by simp) updated).publish _).publish _))

theorem justifies_attack (h : Holds t read base) (known : Attack) {duration : Option Duration}
    (hpos : ∀ d, duration = some d → 0 < d.nanos) :
    Justifies c (attack c base known duration).run t := by
  unfold attack
  rw [Justifies, ExceptT.run_bind_lift]
  apply Attack.keeps_execute_bind trivial
  · exact fun cause => justifies_attackFailed known _
  · exact justifies_noTargets
  · intro pods _
    refine ⟨trivial, fun index => ⟨fun _ => justifies_attackFailed known _, fun pod _ => ?_⟩⟩
    exact ⟨trivial, fun cause => justifies_attackFailed known _,
      fun deletion => justifies_killed (((h.cons rfl).cons rfl).cons rfl) known hpos pod⟩

theorem justifies_retrigger_attack (h : Holds t read base) (known : Attack)
    {duration : Option Duration} (hpos : ∀ d, duration = some d → 0 < d.nanos) :
    Justifies c (retrigger c base >>= fun updated => attack c updated known duration).run t := by
  simp only [Justifies, retrigger, bind_assoc, pure_bind, keeps_write_bind, keeps_publish_bind]
  refine ⟨trivial, fun _ => trivial, fun updated => ⟨trivial, ?_⟩⟩
  exact justifies_attack ((h.updated _ updated).cons rfl) known hpos

theorem justifies_act (h : Holds t read read) (decision : Decision) (known : Attack)
    {duration : Option Duration} (hpos : ∀ d, duration = some d → 0 < d.nanos) :
    Justifies c (act c read decision known duration).run t := by
  unfold act
  split
  next =>
    simp only [Justifies, complete, publishCompleted, bind_assoc, pure_bind, keeps_write_bind,
      keeps_publish_bind]
    refine ⟨trivial, fun _ => trivial, fun updated => ⟨trivial, ?_⟩⟩
    split
    next hmode => exact .rests (.finished ((h.over_of_completed hmode (by simp) updated).publish _))
    next => exact justifies_retrigger_attack ((h.updated _ updated).cons rfl) known hpos
  next => exact justifies_retrigger_attack h known hpos
  next => exact justifies_attack h known hpos

/-- A record that is not acted on because of its spec is marked as failed before it is left. -/
theorem justifies_misconfigured {ns name : String} (hbad : read.spec.IsMisconfigured)
    {reason : Reason} {message note : String} :
    Justifies c
      (do let _ ← fail c read reason .validate message note; return .onChange : Attempt Revisit).run
      [⟨.get ns name, .ok (some read)⟩] := by
  refine keeps_fail_bind_iff.2 ⟨trivial, fun _ => trivial, fun updated => ⟨trivial, ?_⟩⟩
  exact .rests (.misconfigured ns name hbad (by simp) rfl)

theorem justifies_step (ns name : String) :
    Justifies c (step c read).run [⟨.get ns name, .ok (some read)⟩] := by
  have h : Holds [⟨.get ns name, .ok (some read)⟩] read read := .of_get ns name
  unfold step
  split
  next => trivial
  next =>
    split
    next =>
      simp only [Justifies, enroll, bind_assoc, pure_bind, keeps_write_bind, keeps_publish_bind]
      exact ⟨trivial, fun _ => trivial, fun _ => ⟨trivial, .returns _ fun h => h.initRevisit⟩⟩
    next hdec =>
      obtain ⟨hmode, phase, hphase, hfinished⟩ := of_schedule_eq_terminate hdec
      exact .rests (.finished ⟨h.read_eq, rfl, hmode, fun _ => rfl, hphase, hfinished⟩)
    next delay hdec => exact .returns delay fun _ => of_schedule_eq_waitFor hdec
    next =>
      unfold checkAndAct
      split
      next duration known hv hk =>
        refine justifies_act h _ known fun d hd => ?_
        exact Spec.duration_pos (hd ▸ hv)
      next hk => exact justifies_misconfigured (.inr hk)
      next cause hv =>
        refine justifies_misconfigured (.inl fun duration hvalid => ?_)
        rw [hv] at hvalid
        cases hvalid
      next => trivial

end Steps

theorem justifies_reconcileAt (settings : Settings) (trigger : Experiment) (now : Instant) :
    Justifies ⟨settings, trigger.name, now⟩ (reconcileAt settings trigger now).run [] := by
  unfold reconcileAt
  split
  next => trivial
  next ns _ =>
    refine ⟨trivial, fun reply => ?_⟩
    match reply with
    | .error e => trivial
    | .ok none => exact .rests (.absent ns trigger.name rfl)
    | .ok (some read) => exact justifies_step ns trigger.name

end Reconcile

/-! ## The main result -/

/-- No experiment is abandoned, and none is looked at without a pause. Whatever an invocation is
    told, if it only waits for a change then there is no record, or the record is misconfigured
    and has just been marked as failed, or the one run of the experiment is over. So an experiment
    that can be acted on gets another visit unless it is a one-shot one that is over, as long as
    status writes leave its spec as it is. If no delay of the settings is zero, then neither is
    any that an invocation asks for, nor any after an error. -/
theorem revisits_warranted (oracle : Oracle) (settings : Settings) (trigger : Experiment)
    (now : Instant) :
    let run := (reconcileAt settings trigger now).run.consult oracle []
    (run.1 = .finished (.ok .onChange) → run.2.Rests) ∧
    (∀ read, run.2.read? = some read → ¬ read.spec.IsMisconfigured → run.2.KeepsSpec →
      (read.spec.mode = .oneShot →
        ∀ phase, run.2.phase? = some phase → phase.isFinished = false) →
      ∃ delay, run.1 = .finished (.ok (.after delay)) ∨
        ∃ e, run.1 = .finished (.error e) ∧ settings.revisitAfter e = .after delay) ∧
    (settings.Positive →
      (∀ delay, run.1 = .finished (.ok (.after delay)) → 0 < delay.nanos) ∧
      ∀ e, ∃ delay, settings.revisitAfter e = .after delay ∧ 0 < delay.nanos) := by
  intro run
  have hjustified : Reconcile.Justified settings run.2 run.1 :=
    (Reconcile.justifies_reconcileAt settings trigger now).consult oracle
  have hrests (hended : run.1 = .finished (.ok .onChange)) : run.2.Rests := by
    rw [hended] at hjustified
    cases hjustified with
    | rests h => exact h
  refine ⟨hrests, fun read hread hgood hspec hunfinished => ?_, fun hsettings => ⟨?_, ?_⟩⟩
  · obtain ⟨result, hended⟩ | ⟨-, other, hother, hoverflows⟩ :
      (∃ result, run.1 = .finished result) ∨ run.1 = .aborted ∧
        ∃ read, run.2.read? = some read ∧ read.spec.Overflows :=
      Reconcile.consult_finished_or_overflows
    · match result with
      | .error e =>
        obtain ⟨delay, hdelay, -⟩ := settings.exists_revisitAfter e
        exact ⟨delay, .inr ⟨e, hended, hdelay⟩⟩
      | .ok (.after delay) => exact ⟨delay, .inl hended⟩
      | .ok .onChange =>
        -- None of the reasons to wait for a change applies.
        exfalso
        cases hrests hended with
        | absent ns name ht => simp [ht, Trace.read?, Exchange.fetched?] at hread
        | @misconfigured other updated status event ns name hbad hphase ht =>
          rw [ht] at hread
          obtain rfl : other = read := Option.some.inj hread
          exact hgood hbad
        | @finished other base phase hover =>
          obtain rfl := Option.some.inj (hover.read_eq.symm.trans hread)
          have hmode := hover.spec_eq hspec ▸ hover.mode_eq
          have hfinished := hunfinished hmode phase hover.phase_eq
          rw [hover.finished] at hfinished
          cases hfinished
    · obtain rfl := Option.some.inj (hother.symm.trans hread)
      refine absurd (.inl fun duration hvalid => ?_) hgood
      rw [Spec.verdict_eq_abort_iff.2 hoverflows] at hvalid
      cases hvalid
  · intro delay hended
    rw [hended] at hjustified
    cases hjustified with
    | returns _ h => exact h hsettings
  · intro e
    obtain ⟨delay, hdelay, hpos⟩ := settings.exists_revisitAfter e
    exact ⟨delay, hdelay, hpos hsettings⟩

/-- The settings the controller ships with have no delay that is zero. -/
theorem Settings.standard_positive : standard.Positive := by
  constructor <;> decide

/-- A one-shot experiment without a duration waits for a change once its pod has been killed, and
    a recurring one that is seen for the first time comes back. -/
theorem revisits_warranted_standard :
    (let e := Experiment.sample .oneShot none (some .pending) none
      let run := (reconcileAt .standard e (.sample 5)).run.consult (.steady e ⟨"lab", "a"⟩) []
      run.1 = .finished (.ok .onChange) ∧ run.2.Rests) ∧
    (let e := Experiment.sample .recurring none none none
      let run := (reconcileAt .standard e (.sample 5)).run.consult (.steady e ⟨"lab", "a"⟩) []
      run.1 = .finished (.ok (.after Settings.standard.initRevisit)) ∧
        0 < Settings.standard.initRevisit.nanos ∧
        ∃ delay, run.1 = .finished (.ok (.after delay)) ∨
          ∃ cause, run.1 = .finished (.error cause) ∧
            Settings.standard.revisitAfter cause = .after delay) := by
  have hgood : ¬ (Experiment.sample .recurring none none none).spec.IsMisconfigured := by
    rintro (hinvalid | hunknown)
    · exact hinvalid none rfl
    · cases hunknown
  refine ⟨⟨rfl, (revisits_warranted _ _ _ _).1 rfl⟩, rfl, ?_, ?_⟩
  · exact ((revisits_warranted (.steady (.sample .recurring none none none) ⟨"lab", "a"⟩)
      .standard (.sample .recurring none none none) (.sample 5)).2.2
      Settings.standard_positive).1 _ rfl
  · refine (revisits_warranted _ _ _ _).2.1 _ rfl hgood ?_ fun hmode => nomatch hmode
    exact List.forall_mem_cons.2 ⟨trivial, List.forall_mem_cons.2 ⟨rfl,
      List.forall_mem_singleton.2 trivial⟩⟩

/-- The other mode. -/
def Mode.other : Mode → Mode
  | oneShot => recurring
  | recurring => oneShot

/-- The oracle of a cluster that changes the mode of an experiment with every status write. -/
def Oracle.fickle (e : Experiment) (pod : Pod) : Oracle
  | _, .get _ _ => .ok (some e)
  | _, .list _ _ => .ok [pod]
  | _, .pick _ => (0 : Nat)
  | _, .delete _ _ => .ok .deleted
  | _, .update base status =>
    .ok { base.stamped status "2" with spec := { base.spec with mode := base.spec.mode.other } }
  | _, .publish _ => ()

/-- A recurring experiment that can be acted on may be left alone if status writes change its
    spec: the record that is read recurs, and so does the one that comes back last, but the one
    that the attack goes by does not. -/
theorem revisits_warranted_fickle :
    let e := Experiment.sample .recurring none (some .completed) none
    let run := (reconcileAt .standard e (.sample 5)).run.consult (.fickle e ⟨"lab", "a"⟩) []
    run.1 = .finished (.ok .onChange) ∧ run.2.read? = some e ∧ ¬ e.spec.IsMisconfigured ∧
      e.spec.mode = .recurring ∧ run.2.base?.map (·.spec.mode) = some .recurring := by
  refine ⟨rfl, rfl, ?_, rfl, rfl⟩
  rintro (hinvalid | hunknown)
  · exact hinvalid none rfl
  · cases hunknown

end ChaosController
