/-
  ChaosController.Proofs.FailStop

  What becomes of an invocation when a call fails.

  A read or a status write that fails is the last thing an invocation asks for. An attack that
  fails is recorded with one more status write, and its cause is what the invocation reports,
  whatever becomes of that write. `Accounts` lists the endings with the traces that lead to
  them; the main result is `reconcileAt_failStop`.
-/

import ChaosController.Proofs.Rounds
import Mathlib.Data.List.Basic

namespace ChaosController

/-! ## Failures -/

/-- What went wrong in an attack. -/
def AttackFailure.cause : AttackFailure → Error
  | unresolved cause | unapplied _ cause => cause

namespace Exchange

/-- Whether the cluster was called. Picks and events are no calls. -/
def isCall : Exchange → Bool
  | ⟨.get _ _, _⟩ | ⟨.list _ _, _⟩ | ⟨.delete _ _, _⟩ | ⟨.update _ _, _⟩ => true
  | ⟨.pick _, _⟩ | ⟨.publish _, _⟩ => false

/-- The error of a read or a status write. -/
def refusal? : Exchange → Option Error
  | ⟨.get _ _, .error e⟩ | ⟨.update _ _, .error e⟩ => some e
  | ⟨.get _ _, .ok _⟩ | ⟨.update _ _, .ok _⟩ => none
  | ⟨.list _ _, _⟩ | ⟨.pick _, _⟩ | ⟨.delete _ _, _⟩ | ⟨.publish _, _⟩ => none

/-- Why an attack fails with an exchange: the pods are not listed, none of them is picked, or
    the picked one is not deleted. -/
def miss? : Exchange → Option Error
  | ⟨.list _ _, .error cause⟩ | ⟨.delete _ _, .error cause⟩ => some cause
  | ⟨.pick count, index⟩ =>
    if (index : Nat) < count then none else some (Attack.pickError index count)
  | ⟨.list _ _, .ok _⟩ | ⟨.delete _ _, .ok _⟩ => none
  | ⟨.get _ _, _⟩ | ⟨.update _ _, _⟩ | ⟨.publish _, _⟩ => none

/-- No call has failed, and the pick, if it is one, is in range. An absent record and a pod that
    is gone are no failures. -/
def Succeeds (x : Exchange) : Prop := x.refusal? = none ∧ x.miss? = none

/-- A failure is of one sort only. -/
theorem refusal?_of_miss? {x : Exchange} {cause : Error} (h : x.miss? = some cause) :
    x.refusal? = none := by
  obtain ⟨r, reply⟩ := x
  cases r with
  | get | update | publish => cases h
  | list | pick | delete => rfl

theorem not_succeeds_of_miss? {x : Exchange} {cause : Error} (h : x.miss? = some cause) :
    ¬ x.Succeeds := by simp [Succeeds, h]

theorem not_succeeds_of_refusal? {x : Exchange} {e : Error} (h : x.refusal? = some e) :
    ¬ x.Succeeds := by simp [Succeeds, h]

end Exchange

/-- Nothing in a trace has failed. -/
def Trace.Unharmed (t : Trace) : Prop := ∀ x ∈ t, x.Succeeds

namespace Reconcile

/-! ## Endings -/

/-- The exchanges that record a failure for `base`, the latest first. -/
inductive Records (base : Experiment) : Trace → Prop
  | refused (status : Status) (e : Error) (hphase : status.phase = some .failed)
      (hrun : status.lastRun = base.lastRun?) : Records base [⟨.update base status, .error e⟩]
  | accepted (status : Status) (updated : Experiment) (event : Event)
      (hphase : status.phase = some .failed) (hrun : status.lastRun = base.lastRun?) :
      Records base [⟨.publish event, ()⟩, ⟨.update base status, .ok updated⟩]

/-- How an invocation may end, with all its exchanges. -/
inductive Accounts (name : String) : Trace → Ending (Except Error Revisit) → Prop
  | well {t : Trace} (revisit : Revisit) (ht : t.Unharmed)
      (hread : ∀ e, t.read? = some e → e.spec.verdict ≠ .abort) :
      Accounts name t (.finished (.ok revisit))
  | refused {x : Exchange} {t : Trace} {e : Error} (ht : t.Unharmed) (hx : x.refusal? = some e) :
      Accounts name (x :: t) (.finished (.error e))
  | missed {x : Exchange} {t : Trace} {base : Experiment} {cause : Error} (record : Trace)
      (text : String) (ht : t.Unharmed) (hx : x.miss? = some cause) (hb : t.base? = some base)
      (hrecord : Records base record) :
      Accounts name (record ++ x :: t)
        (.finished (.error (.attack name AttackKind.podKill.text (text ++ cause.message))))
  | aborted {t : Trace} {read : Experiment} (ht : t.Unharmed) (hread : t.read? = some read)
      (hverdict : read.spec.verdict = .abort) : Accounts name t .aborted

/-- Whatever an invocation is told, its ending is accounted for. -/
abbrev Accounted (c : Context) (i : Invocation (Except Error Revisit)) (t : Trace) : Prop :=
  i.Keeps (fun _ _ => True) (Accounts c.name) t

/-- Nothing has failed so far; the invocation has read `read`, and goes by `base`. -/
structure Going (t : Trace) (read base : Experiment) : Prop where
  unharmed : t.Unharmed
  read_eq : t.read? = some read
  base_eq : t.base? = some base
  checked : read.spec.verdict ≠ .abort

section Steps

variable {c : Context} {t : Trace} {read base : Experiment}

namespace Going

/-- An exchange that succeeds and hands over no record leaves the invocation going. -/
theorem cons (h : Going t read base) {x : Exchange} (hx : x.Succeeds) (hr : x.record? = none)
    (hf : x.fetched? = none) : Going (x :: t) read base where
  unharmed := List.forall_mem_cons.2 ⟨hx, h.unharmed⟩
  read_eq := by simp [hf, h.read_eq]
  base_eq := by simp [hr, h.base_eq]
  checked := h.checked

/-- After an accepted write the invocation goes by the record that it has got back. -/
theorem updated (h : Going t read base) (old updated : Experiment) (status : Status) :
    Going (⟨.update old status, .ok updated⟩ :: t) read updated where
  unharmed := List.forall_mem_cons.2 ⟨⟨rfl, rfl⟩, h.unharmed⟩
  read_eq := by simp [Exchange.fetched?, h.read_eq]
  base_eq := by simp [Exchange.record?]
  checked := h.checked

theorem well (h : Going t read base) (revisit : Revisit) :
    Accounts c.name t (.finished (.ok revisit)) := by
  refine .well revisit h.unharmed fun e he => ?_
  obtain rfl : read = e := Option.some.inj (h.read_eq.symm.trans he)
  exact h.checked

/-- A write that fails ends the invocation. -/
theorem write_bind (h : Going t read base) {old : Experiment} {status : Status}
    {f : Experiment → Attempt Revisit}
    (hf : ∀ updated, Going (⟨.update old status, .ok updated⟩ :: t) read updated →
      Accounted c (f updated).run (⟨.update old status, .ok updated⟩ :: t)) :
    Accounted c (write old status >>= f).run t :=
  keeps_write_bind.2 ⟨trivial, fun _ => .refused h.unharmed rfl,
    fun updated => hf updated (h.updated old updated status)⟩

theorem publish_bind (h : Going t read base) {about : Experiment} {severity : Severity}
    {reason : Reason} {activity : Activity} {note : String} {f : Unit → Attempt Revisit}
    (hf : ∀ event, Going (⟨.publish event, ()⟩ :: t) read base →
      Accounted c (f ()).run (⟨.publish event, ()⟩ :: t)) :
    Accounted c (publish about severity reason activity note >>= f).run t :=
  keeps_publish_bind.2 ⟨trivial, hf _ (h.cons ⟨rfl, rfl⟩ rfl rfl)⟩

/-- A failure is recorded before the invocation goes on. -/
theorem fail_bind (h : Going t read base) {reason : Reason} {activity : Activity}
    {message note : String} (revisit : Revisit) :
    Accounted c (fail c base reason activity message note >>= fun _ => pure revisit).run t := by
  simp only [fail, bind_assoc, pure_bind]
  refine h.write_bind fun updated h => ?_
  exact h.publish_bind fun event h => h.well revisit

end Going

/-- The error of a failed attack is told whether or not it could be recorded. -/
theorem accounted_attackFailed (h : Going t read base) {x : Exchange} {failure : AttackFailure}
    (hx : x.miss? = some failure.cause) (known : Attack) :
    Accounted c (attackFailed c base known failure).run (x :: t) := by
  cases known
  cases failure <;>
  · refine ⟨trivial, fun reply => ?_⟩
    cases reply with
    | error e => exact .missed [_] _ h.unharmed hx h.base_eq (.refused _ e rfl (by simp))
    | ok updated =>
      exact ⟨trivial, fun _ => .missed [_, _] _ h.unharmed hx h.base_eq
        (.accepted _ updated _ rfl (by simp))⟩

theorem accounted_killed (h : Going t read base) (known : Attack) (duration : Option Duration)
    (pod : Pod) : Accounted c (killed c base known duration pod).run t := by
  unfold killed
  cases delayAfterAttack base.spec.mode duration c.settings.recurringInterval with
  | some delay =>
    refine h.write_bind fun updated h => h.publish_bind fun event h => ?_
    exact h.well _
  | none =>
    refine h.write_bind fun updated h => h.publish_bind fun event h => ?_
    exact Going.publish_bind (f := fun _ => pure .onChange) h fun event h => h.well _

theorem accounted_attack (h : Going t read base) (known : Attack) (duration : Option Duration) :
    Accounted c (attack c base known duration).run t := by
  unfold attack
  rw [Accounted, ExceptT.run_bind_lift]
  have hlisted (pods : List Pod) :
      Going (⟨.list base.spec.target.namespace base.spec.target.selector, .ok pods⟩ :: t) read
        base := h.cons ⟨rfl, rfl⟩ rfl rfl
  -- Each of the three exchanges of an attack may be the one that fails.
  apply Attack.keeps_execute_bind trivial
  · exact fun cause => accounted_attackFailed h rfl known
  · exact (hlisted []).fail_bind _
  · intro pods _
    refine ⟨trivial, fun index => ⟨fun hout => ?_, fun pod hin => ⟨trivial, fun cause => ?_,
      fun deletion => ?_⟩⟩⟩
    · have hle : ¬ index < pods.length := Nat.not_lt.2 (List.getElem?_eq_none_iff.1 hout)
      have hmiss : Exchange.miss? ⟨.pick pods.length, index⟩ =
          some (AttackFailure.unresolved (Attack.pickError index pods.length)).cause := if_neg hle
      exact accounted_attackFailed (hlisted pods) hmiss known
    all_goals
      have hlt : index < pods.length := (List.getElem?_eq_some_iff.1 hin).1
      have hpicked : Going (⟨.pick pods.length, index⟩ :: _) read base :=
        (hlisted pods).cons ⟨rfl, if_pos hlt⟩ rfl rfl
    · exact accounted_attackFailed hpicked rfl known
    · exact accounted_killed (hpicked.cons ⟨rfl, rfl⟩ rfl rfl) known duration pod

theorem accounted_retrigger_attack (h : Going t read base) (known : Attack)
    (duration : Option Duration) :
    Accounted c (retrigger c base >>= fun updated => attack c updated known duration).run t := by
  simp only [retrigger, bind_assoc, pure_bind]
  refine h.write_bind fun updated h => h.publish_bind fun event h => ?_
  exact accounted_attack h known duration

theorem accounted_act (h : Going t read base) (decision : Decision) (known : Attack)
    (duration : Option Duration) : Accounted c (act c base decision known duration).run t := by
  unfold act
  split
  next =>
    simp only [complete, publishCompleted, bind_assoc, pure_bind]
    refine h.write_bind fun updated h => h.publish_bind fun event h => ?_
    split
    next => exact h.well _
    next => exact accounted_retrigger_attack h known duration
  next => exact accounted_retrigger_attack h known duration
  next => exact accounted_attack h known duration

theorem accounted_checkAndAct (h : Going t read read) (decision : Decision) :
    Accounted c (checkAndAct c read decision read.spec.verdict).run t := by
  unfold checkAndAct
  split
  next => exact accounted_act h decision _ _
  next => exact h.fail_bind _
  next => exact h.fail_bind _
  next habort => exact absurd habort h.checked

/-- After the record is read, the only ending besides is that its duration aborts the process. -/
theorem accounted_step (ns name : String) :
    Accounted c (step c read).run [⟨.get ns name, .ok (some read)⟩] := by
  have hread : Trace.Unharmed [⟨.get ns name, .ok (some read)⟩] := by
    intro x hx
    obtain rfl := List.mem_singleton.1 hx
    exact ⟨rfl, rfl⟩
  unfold step
  split
  next habort => exact .aborted hread rfl habort
  next hchecked =>
    have h : Going [⟨.get ns name, .ok (some read)⟩] read read := ⟨hread, rfl, rfl, hchecked⟩
    split
    next =>
      simp only [enroll, bind_assoc, pure_bind]
      refine h.write_bind fun updated h => h.publish_bind fun event h => ?_
      exact h.well _
    next => exact h.well _
    next => exact h.well _
    next => exact accounted_checkAndAct h _

end Steps

theorem accounted_reconcileAt (settings : Settings) {trigger : Experiment} (now : Instant)
    {ns : String} (hns : trigger.metadata.namespace = some ns) :
    Accounted ⟨settings, trigger.name, now⟩ (reconcileAt settings trigger now).run [] := by
  have hnothing : Trace.Unharmed [] := fun x hx => nomatch hx
  simp only [reconcileAt, hns]
  refine ⟨trivial, fun reply => ?_⟩
  rcases reply with e | (_ | read)
  · exact .refused hnothing rfl
  · refine .well .onChange (fun x hx => ?_) (by simp [Exchange.fetched?, Trace.read?])
    obtain rfl := List.mem_singleton.1 hx
    exact ⟨rfl, rfl⟩
  · exact accounted_step ns trigger.name

/-! ## What the endings say -/

namespace Records

variable {base : Experiment} {record : Trace}

/-- A failure is recorded with a single call. -/
theorem filter_isCall (h : Records base record) :
    ∃ status reply, record.filter Exchange.isCall = [⟨.update base status, reply⟩] ∧
      status.phase = some .failed ∧ status.lastRun = base.lastRun? := by
  cases h with
  | refused status e hphase hrun => exact ⟨status, .error e, rfl, hphase, hrun⟩
  | accepted status updated event hphase hrun => exact ⟨status, .ok updated, rfl, hphase, hrun⟩

/-- No attack fails while a failure is recorded. -/
theorem miss?_eq_none (h : Records base record) {x : Exchange} (hx : x ∈ record) :
    x.miss? = none := by
  cases h with
  | refused =>
    obtain rfl := List.mem_singleton.1 hx
    rfl
  | accepted =>
    obtain rfl | rfl : x = _ ∨ x = _ := by simpa using hx
    · rfl
    · rfl

/-- If recording a failure is refused, nothing comes after it. -/
theorem eq_nil_of_refusal? (h : Records base record) {later earlier rest : Trace} {x : Exchange}
    {e : Error} (hx : x.refusal? = some e) (hmem : x ∉ rest)
    (hsplit : record ++ rest = later ++ x :: earlier) : later = [] ∧ earlier = rest := by
  cases h with
  | refused status error =>
    cases later with
    | nil => exact ⟨rfl, (List.cons.inj hsplit).2.symm⟩
    | cons y later =>
      obtain ⟨-, hrest⟩ := List.cons.inj hsplit
      exact absurd (show x ∈ rest by rw [show rest = later ++ x :: earlier from hrest]; simp) hmem
  | accepted status updated event =>
    have hx' : x ∈ [⟨.publish event, ()⟩, ⟨.update base status, .ok updated⟩] ++ rest := by
      rw [hsplit]
      simp
    obtain rfl | rfl | hrest : x = _ ∨ x = _ ∨ x ∈ rest := by simpa using hx'
    · cases hx
    · cases hx
    · exact absurd hrest hmem

end Records

namespace Accounts

variable {name : String} {t : Trace} {ending : Ending (Except Error Revisit)}

/-- All goes well exactly if nothing fails, unless the duration aborts the process. -/
theorem ok_iff (h : Accounts name t ending) :
    (∃ revisit, ending = .finished (.ok revisit)) ↔
      t.Unharmed ∧ ∀ read, t.read? = some read → read.spec.verdict ≠ .abort := by
  cases h with
  | well revisit ht hread => exact ⟨fun _ => ⟨ht, hread⟩, fun _ => ⟨revisit, rfl⟩⟩
  | refused ht hx =>
    refine ⟨fun ⟨_, h⟩ => (nomatch h), fun ⟨h, _⟩ => ?_⟩
    exact absurd (h _ List.mem_cons_self) (Exchange.not_succeeds_of_refusal? hx)
  | missed record text ht hx =>
    refine ⟨fun ⟨_, h⟩ => (nomatch h), fun ⟨h, _⟩ => ?_⟩
    exact absurd (h _ (by simp)) (Exchange.not_succeeds_of_miss? hx)
  | aborted ht hread hverdict =>
    exact ⟨fun ⟨_, h⟩ => (nomatch h), fun ⟨_, h⟩ => absurd hverdict (h _ hread)⟩

/-- Nothing comes after a read or a status write that fails, and its error is told unless an
    attack has failed before. -/
theorem of_refusal? (h : Accounts name t ending) {later earlier : Trace} {x : Exchange}
    {e : Error} (ht : t = later ++ x :: earlier) (hx : x.refusal? = some e) :
    later = [] ∧ ((∀ y ∈ earlier, y.miss? = none) → ending = .finished (.error e)) := by
  -- There is one failure at most besides the record of it, so the exchange is that one.
  have hfailed := Exchange.not_succeeds_of_refusal? hx
  cases h with
  | well revisit hwell => exact absurd (hwell x (by simp [ht])) hfailed
  | aborted hwell => exact absurd (hwell x (by simp [ht])) hfailed
  | @refused x' t' e' hwell hx' =>
    have hmem : x ∉ t' := fun hmem => hfailed (hwell x hmem)
    have hnil : x ∉ ([] : Trace) := List.not_mem_nil
    obtain ⟨hlater, rfl, rfl⟩ := (List.append_cons_inj_of_notMem hnil hmem).1 ht
    obtain rfl : e' = e := Option.some.inj (hx'.symm.trans hx)
    exact ⟨hlater.symm, fun _ => rfl⟩
  | @missed x' t' base cause record text hwell hx' hb hrecord =>
    have hmem : x ∉ x' :: t' := by
      intro hmem
      obtain rfl | hmem := List.mem_cons.1 hmem
      · cases (Exchange.refusal?_of_miss? hx').symm.trans hx
      · exact hfailed (hwell x hmem)
    obtain ⟨hlater, hearlier⟩ := hrecord.eq_nil_of_refusal? hx hmem ht
    refine ⟨hlater, fun hnone => ?_⟩
    rw [hearlier] at hnone
    cases hx'.symm.trans (hnone x' List.mem_cons_self)

/-- An attack that fails is recorded with one more call, and its cause is told. -/
theorem of_miss? (h : Accounts name t ending) {later earlier : Trace} {x : Exchange}
    {cause : Error} (ht : t = later ++ x :: earlier) (hx : x.miss? = some cause) :
    ∃ base text, Records base later ∧ earlier.base? = some base ∧
      ending = .finished
        (.error (.attack name AttackKind.podKill.text (text ++ cause.message))) := by
  have hfailed := Exchange.not_succeeds_of_miss? hx
  cases h with
  | well revisit hwell => exact absurd (hwell x (by simp [ht])) hfailed
  | aborted hwell => exact absurd (hwell x (by simp [ht])) hfailed
  | @refused x' t' e' hwell hx' =>
    have hmem : x ∈ x' :: t' := by
      rw [ht]
      simp
    obtain rfl | hmem := List.mem_cons.1 hmem
    · cases (Exchange.refusal?_of_miss? hx).symm.trans hx'
    · exact absurd (hwell x hmem) hfailed
  | @missed x' t' base cause' record text hwell hx' hb hrecord =>
    have hrecorded : x ∉ record := by
      intro hmem
      cases (hrecord.miss?_eq_none hmem).symm.trans hx
    have hmem : x ∉ t' := fun hmem => hfailed (hwell x hmem)
    obtain ⟨rfl, rfl, rfl⟩ := (List.append_cons_inj_of_notMem hrecorded hmem).1 ht
    obtain rfl : cause' = cause := Option.some.inj (hx'.symm.trans hx)
    exact ⟨base, text, hrecord, hb, rfl⟩

end Accounts

end Reconcile

/-! ## The main result -/

/-- What becomes of failures in an invocation, whatever it is told. It ends well exactly if the
    trigger has a namespace, nothing fails, and the duration that is read does not abort the
    process. Without a namespace nothing is asked for. After a read or a status write that fails
    nothing is asked for either, and its error is told unless an attack has failed before. After
    an attack that fails, one more status is written, which says so and leaves the time of the
    last attack as it is; whatever comes of that write, the error tells the cause. -/
theorem reconcileAt_failStop (oracle : Oracle) (settings : Settings) (trigger : Experiment)
    (now : Instant) :
    let run := (reconcileAt settings trigger now).run.consult oracle []
    ((∃ revisit, run.1 = .finished (.ok revisit)) ↔
      trigger.metadata.namespace.isSome ∧ (∀ x ∈ run.2, x.Succeeds) ∧
        ∀ read, run.2.read? = some read → read.spec.verdict ≠ .abort) ∧
    (trigger.metadata.namespace = none → run.2 = [] ∧
      ∃ context message, run.1 = .finished (.error (.internal context message))) ∧
    (∀ (later earlier : Trace) (x : Exchange) (e : Error), run.2 = later ++ x :: earlier →
      x.refusal? = some e →
      later = [] ∧ ((∀ y ∈ earlier, y.miss? = none) → run.1 = .finished (.error e))) ∧
    ∀ (later earlier : Trace) (x : Exchange) (cause : Error), run.2 = later ++ x :: earlier →
      x.miss? = some cause →
      ∃ base status reply text,
        later.filter Exchange.isCall = [⟨.update base status, reply⟩] ∧
        earlier.base? = some base ∧ status.phase = some .failed ∧
        status.lastRun = base.lastRun? ∧
        run.1 = .finished (.error (.attack trigger.name "pod-kill" (text ++ cause.message))) := by
  intro run
  cases hns : trigger.metadata.namespace with
  | none =>
    obtain ⟨hending, htrace⟩ : run.1 = .finished (.error (.internal "reconcile"
        (trigger.name ++ " has no namespace"))) ∧ run.2 = [] := by
      simp only [run, reconcileAt, hns]
      exact ⟨rfl, rfl⟩
    refine ⟨?_, fun _ => ⟨htrace, _, _, hending⟩, ?_, ?_⟩
    · simp [hending]
    · intro later earlier x e ht
      simp [htrace] at ht
    · intro later earlier x cause ht
      simp [htrace] at ht
  | some ns =>
    have h : Reconcile.Accounts trigger.name run.2 run.1 :=
      (Reconcile.accounted_reconcileAt settings now hns).consult oracle
    refine ⟨?_, by simp, fun later earlier x e ht hx => h.of_refusal? ht hx,
      fun later earlier x cause ht hx => ?_⟩
    · rw [h.ok_iff]
      simp [Trace.Unharmed]
    · obtain ⟨base, text, hrecord, hb, hending⟩ := h.of_miss? ht hx
      obtain ⟨status, reply, hcalls, hphase, hrun⟩ := hrecord.filter_isCall
      exact ⟨base, status, reply, text, hcalls, hb, hphase, hrun, hending⟩

/-- A finished experiment with a duration that cannot be added up: everything that is asked for
    succeeds, and the process aborts. -/
theorem reconcileAt_aborts :
    let e := Experiment.sample .oneShot (some "18446744073709551615s 1000ms") (some .completed) none
    let run := (reconcileAt .standard e (.sample 0)).run.consult (.steady e ⟨"lab", "a"⟩) []
    e.metadata.namespace.isSome ∧ (∀ x ∈ run.2, x.Succeeds) ∧
      ¬ ∃ revisit, run.1 = .finished (.ok revisit) := by
  intro e run
  have hverdict : e.spec.verdict = .abort := by decide +kernel
  have hstep := Reconcile.step_of_abort (c := ⟨.standard, "sample", .sample 0⟩) hverdict
  have hrun : run = (.aborted, [⟨.get "lab" "sample", .ok (some e)⟩]) := by
    show (Reconcile.step ⟨.standard, "sample", .sample 0⟩ e).run.consult (.steady e ⟨"lab", "a"⟩)
      [⟨.get "lab" "sample", .ok (some e)⟩] = _
    rw [hstep]
    rfl
  refine ⟨rfl, ?_, ?_⟩
  · rw [hrun]
    intro x hx
    obtain rfl := List.mem_singleton.1 hx
    exact ⟨rfl, rfl⟩
  · rw [hrun]
    rintro ⟨revisit, h⟩
    cases h

end ChaosController
