/-
  ChaosController.Proofs.Indifference

  What an invocation does not look at.

  Two records are alike if they have the same name, spec, phase and time of the last attack;
  message, conditions, labels and version are left open, and so is everything about the trigger
  but its name. `Invocation.Alike` relates two invocations that ask alike and go on alike as long
  as they are answered alike, and its rules follow the ways in which the controller builds its
  invocations. So two runs on records that are alike make the same calls, write and announce the
  same and end in the same way (`unread_irrelevant`).
-/

import ChaosController.Proofs.Resumption

namespace ChaosController

/-! ## What is alike -/

/-- The conditions of a status that the controller writes. -/
def Status.own (s : Status) : List Condition :=
  s.conditions.filter fun c => c.kind == "Progressing" || c.kind == "Degraded"

/-- The same is reported by both statuses; the times of transitions and the conditions of others
    are left open. -/
structure Status.Alike (s s' : Status) : Prop where
  phase : s.phase = s'.phase
  message : s.message = s'.message
  lastRun : s.lastRun = s'.lastRun
  own : s.own.map Condition.statement = s'.own.map Condition.statement

theorem Status.Alike.recordRun {s s' : Status} (h : s.Alike s') (now : Instant) :
    (s.recordRun now).Alike (s'.recordRun now) := ⟨h.phase, h.message, rfl, h.own⟩

/-- Two records that differ at most in what an invocation does not go by. -/
structure Experiment.Alike (e e' : Experiment) : Prop where
  name : e.name = e'.name
  «namespace» : e.metadata.namespace = e'.metadata.namespace
  spec : e.spec = e'.spec
  phase : e.phase? = e'.phase?
  lastRun : e.lastRun? = e'.lastRun?

/-- Records that are alike stay so when a status is written to each of them that is alike, under
    whatever version. -/
theorem Experiment.Alike.stamped {e e' : Experiment} {s s' : Status} (h : e.Alike e')
    (hs : s.Alike s') (version version' : String) :
    (e.stamped s version).Alike (e'.stamped s' version') where
  name := h.name
  «namespace» := h.namespace
  spec := h.spec
  phase := hs.phase
  lastRun := hs.lastRun

/-- Two requests that make the same call. -/
inductive Request.Alike : Request → Request → Prop
  | get (ns name : String) : Alike (.get ns name) (.get ns name)
  | list (ns selector : String) : Alike (.list ns selector) (.list ns selector)
  | pick (count : Nat) : Alike (.pick count) (.pick count)
  | delete (ns name : String) : Alike (.delete ns name) (.delete ns name)
  | update {base base' : Experiment} {status status' : Status} (hname : base.name = base'.name)
      (hns : base.metadata.namespace = base'.metadata.namespace) (h : status.Alike status') :
      Alike (.update base status) (.update base' status')
  | publish {event event' : Event} (hseverity : event.severity = event'.severity)
      (hreason : event.reason = event'.reason) (haction : event.action = event'.action)
      (hnote : event.note = event'.note) : Alike (.publish event) (.publish event')

/-- Two exchanges in which the same call is answered alike: reads give records that are alike,
    and a status that is accepted is put in the record it was written for. -/
inductive Exchange.Alike : Exchange → Exchange → Prop
  | unread (ns name : String) (e : Error) :
      Alike ⟨.get ns name, .error e⟩ ⟨.get ns name, .error e⟩
  | absent (ns name : String) : Alike ⟨.get ns name, .ok none⟩ ⟨.get ns name, .ok none⟩
  | read (ns name : String) {e e' : Experiment} (h : e.Alike e') :
      Alike ⟨.get ns name, .ok (some e)⟩ ⟨.get ns name, .ok (some e')⟩
  | list (ns selector : String) (reply : Except Error (List Pod)) :
      Alike ⟨.list ns selector, reply⟩ ⟨.list ns selector, reply⟩
  | pick (count index : Nat) : Alike ⟨.pick count, index⟩ ⟨.pick count, index⟩
  | delete (ns name : String) (reply : Except Error Deletion) :
      Alike ⟨.delete ns name, reply⟩ ⟨.delete ns name, reply⟩
  | refused {base base' : Experiment} {status status' : Status}
      (h : Request.Alike (.update base status) (.update base' status')) (e : Error) :
      Alike ⟨.update base status, .error e⟩ ⟨.update base' status', .error e⟩
  | accepted {base base' : Experiment} {status status' : Status}
      (h : Request.Alike (.update base status) (.update base' status'))
      (version version' : String) :
      Alike ⟨.update base status, .ok (base.stamped status version)⟩
        ⟨.update base' status', .ok (base'.stamped status' version')⟩
  | publish {event event' : Event} (h : Request.Alike (.publish event) (.publish event')) :
      Alike ⟨.publish event, ()⟩ ⟨.publish event', ()⟩

/-- Wherever two traces have a call in common, after exchanges that are alike, it is answered
    alike. -/
def Trace.AnsweredAlike (t t' : Trace) : Prop :=
  ∀ later x earlier later' x' earlier', t = later ++ x :: earlier → t' = later' ++ x' :: earlier' →
    List.Forall₂ Exchange.Alike earlier earlier' → x.request.Alike x'.request → x.Alike x'

/-! ## The logic -/

namespace Invocation

variable {α β : Type}

/-- Two invocations that ask alike and end in the same way as long as they are answered alike. -/
inductive Alike : Invocation α → Invocation α → Prop
  | done (a : α) : Alike (done a) (done a)
  | abort : Alike abort abort
  | ask {r r' : Request} {resume : r.Reply → Invocation α} {resume' : r'.Reply → Invocation α}
      (hr : r.Alike r') (h : ∀ reply reply', Exchange.Alike ⟨r, reply⟩ ⟨r', reply'⟩ →
        Alike (resume reply) (resume' reply')) : Alike (ask r resume) (ask r' resume')

theorem Alike.bind {i i' : Invocation α} {f f' : α → Invocation β} (h : i.Alike i')
    (hf : ∀ a, (f a).Alike (f' a)) : (i >>= f).Alike (i' >>= f') := by
  induction h with
  | done a => exact hf a
  | abort => exact .abort
  | ask hr _ ih => exact .ask hr ih

/-- The calls of an attack are answered in the same way on both sides. -/
theorem Alike.ask_attack {r : Request} {resume resume' : r.Reply → Invocation α}
    (hr : r.isAttack) (h : ∀ reply, (resume reply).Alike (resume' reply)) :
    (Invocation.ask r resume).Alike (Invocation.ask r resume') := by
  cases r with
  | list ns selector =>
    refine .ask (.list ns selector) fun reply reply' hx => ?_
    cases hx
    exact h reply
  | pick count =>
    refine .ask (.pick count) fun reply reply' hx => ?_
    cases hx
    exact h reply
  | delete ns name =>
    refine .ask (.delete ns name) fun reply reply' hx => ?_
    cases hx
    exact h reply
  | get | update | publish => cases hr

/-- A run only adds to the trace. -/
theorem consult_suffix (oracle : Oracle) (i : Invocation α) (t : Trace) :
    ∃ later, (i.consult oracle t).2 = later ++ t := by
  induction i generalizing t with
  | done a => exact ⟨[], rfl⟩
  | abort => exact ⟨[], rfl⟩
  | ask r resume ih =>
    obtain ⟨later, hlater⟩ := ih (oracle t r) (⟨r, oracle t r⟩ :: t)
    exact ⟨later ++ [⟨r, oracle t r⟩], by rw [List.append_assoc]; exact hlater⟩

/-- Runs that are answered alike make the same calls and end in the same way. -/
theorem Alike.consult {i i' : Invocation α} (h : i.Alike i') {oracle oracle' : Oracle}
    {t t' : Trace} (ht : List.Forall₂ Exchange.Alike t t')
    (ha : Trace.AnsweredAlike (i.consult oracle t).2 (i'.consult oracle' t').2) :
    (i.consult oracle t).1 = (i'.consult oracle' t').1 ∧
      List.Forall₂ Exchange.Alike (i.consult oracle t).2 (i'.consult oracle' t').2 := by
  induction h generalizing t t' with
  | done a => exact ⟨rfl, ht⟩
  | abort => exact ⟨rfl, ht⟩
  | @ask r r' resume resume' hr _ ih =>
    -- The two replies stand in the traces of the runs, so they are alike.
    obtain ⟨later, hlater⟩ :=
      consult_suffix oracle (resume (oracle t r)) (⟨r, oracle t r⟩ :: t)
    obtain ⟨later', hlater'⟩ :=
      consult_suffix oracle' (resume' (oracle' t' r')) (⟨r', oracle' t' r'⟩ :: t')
    have hx : Exchange.Alike ⟨r, oracle t r⟩ ⟨r', oracle' t' r'⟩ :=
      ha later _ t later' _ t' hlater hlater' ht hr
    exact ih _ _ hx (.cons hx ht) ha

/-- What a run adds to the trace has been replied by the oracle. -/
theorem eq_reply_of_mem_consult {oracle : Oracle} {i : Invocation α} {t : Trace} {x : Exchange}
    (hx : x ∈ (i.consult oracle t).2) : x ∈ t ∨ ∃ earlier r, x = ⟨r, oracle earlier r⟩ := by
  induction i generalizing t with
  | done a => exact .inl hx
  | abort => exact .inl hx
  | ask r resume ih =>
    obtain hx | hx := ih (oracle t r) hx
    · obtain rfl | hx := List.mem_cons.1 hx
      · exact .inr ⟨t, r, rfl⟩
      · exact .inl hx
    · exact .inr hx

end Invocation

/-- Oracles that answer the same calls alike, whatever has been asked before, do so in any two
    runs. -/
theorem Oracle.answeredAlike {α : Type} {oracle oracle' : Oracle}
    (h : ∀ t t' r r', r.Alike r' → Exchange.Alike ⟨r, oracle t r⟩ ⟨r', oracle' t' r'⟩)
    (i i' : Invocation α) :
    Trace.AnsweredAlike (i.consult oracle []).2 (i'.consult oracle' []).2 := by
  intro later x earlier later' x' earlier' ht ht' _ hr
  have hx : x ∈ (i.consult oracle []).2 := by simp [ht]
  have hx' : x' ∈ (i'.consult oracle' []).2 := by simp [ht']
  obtain hnil | ⟨t, r, rfl⟩ := Invocation.eq_reply_of_mem_consult hx
  · cases hnil
  obtain hnil | ⟨t', r', rfl⟩ := Invocation.eq_reply_of_mem_consult hx'
  · cases hnil
  exact h t t' r r' hr

/-! ## Rules for the steps of the controller -/

/-- An attack on the same target comes to the same. -/
theorem Attack.alike_execute (attack : Attack) (target : Target) :
    (attack.execute target).Alike (attack.execute target) := by
  cases attack with
  | podKill =>
    refine .ask_attack rfl fun reply => ?_
    match reply with
    | .error cause => exact .done _
    | .ok [] => exact .done _
    | .ok (pod :: pods) =>
      refine .ask_attack rfl fun index => ?_
      show (Attack.podKill.applyAt (pod :: pods) index).Alike
        (Attack.podKill.applyAt (pod :: pods) index)
      unfold applyAt
      split
      next => exact .done _
      next =>
        refine .ask_attack rfl fun reply => ?_
        cases reply <;> exact .done _

namespace Reconcile

section Rules

variable {α : Type} {base base' : Experiment} {status status' : Status}

theorem alike_write_bind {f f' : Experiment → Attempt α} (h : base.Alike base')
    (hs : status.Alike status')
    (hf : ∀ updated updated', updated.Alike updated' → (f updated).run.Alike (f' updated').run) :
    (write base status >>= f).run.Alike (write base' status' >>= f').run := by
  refine .ask (.update h.name h.namespace hs) fun reply reply' hx => ?_
  cases hx with
  | refused _ e => exact .done _
  | accepted _ version version' => exact hf _ _ (h.stamped hs version version')

theorem alike_publish_bind {about about' : Experiment} {severity : Severity} {reason : Reason}
    {activity : Activity} {note : String} {f f' : Unit → Attempt α}
    (hf : (f ()).run.Alike (f' ()).run) :
    (publish about severity reason activity note >>= f).run.Alike
      (publish about' severity reason activity note >>= f').run :=
  .ask (.publish rfl rfl rfl rfl) fun _ _ _ => hf

end Rules

/-! ## Steps -/

/-- What the two conditions of the controller say in a status that it writes. -/
theorem own_nextStatus (base : Experiment) (phase : Phase) (reason : Reason) (message : String)
    (now : Instant) :
    (nextStatus base phase reason message now).own.map Condition.statement =
      [("Progressing", truth (!phase.isFinished), reason.text, message),
        ("Degraded", truth (phase == .failed), reason.text, message)] := by
  have hforeign : base.foreign.filter
      (fun c => c.kind == "Progressing" || c.kind == "Degraded") = [] := by
    rw [Experiment.foreign, Status.foreign, List.filter_filter, List.filter_eq_nil_iff]
    intro c _ hkind
    simp only [Bool.and_eq_true, Bool.or_eq_true, beq_iff_eq, bne_iff_ne] at hkind
    obtain ⟨hprogressing | hdegraded, hne⟩ := hkind
    · exact hne.2 hprogressing
    · exact hne.1 hdegraded
  rw [Status.own, conditions_nextStatus, List.filter_append, hforeign, List.nil_append,
    List.filter_cons_of_pos (by simp), List.filter_cons_of_pos (by simp), List.filter_nil,
    List.map_cons, List.map_cons, List.map_nil, Status.statement_carryTransition,
    Status.statement_carryTransition]
  rfl

/-- What is written to two records that are alike is alike. -/
theorem alike_nextStatus {base base' : Experiment} (h : base.Alike base') (phase : Phase)
    (reason : Reason) (message : String) (now : Instant) :
    (nextStatus base phase reason message now).Alike
      (nextStatus base' phase reason message now) where
  phase := rfl
  message := rfl
  lastRun := by rw [lastRun_nextStatus, lastRun_nextStatus, h.lastRun]
  own := by rw [own_nextStatus, own_nextStatus]

section Steps

variable {c : Context} {base base' : Experiment}

/-- A failure is recorded and told alike; both sides go on knowing no more than whether it could
    be recorded. -/
theorem alike_fail_bind {α : Type} (h : base.Alike base') {reason : Reason} {activity : Activity}
    {message note : String} {f f' : Except Error Experiment → Invocation α}
    (herror : ∀ e, (f (.error e)).Alike (f' (.error e)))
    (hok : ∀ updated updated', (f (.ok updated)).Alike (f' (.ok updated'))) :
    ((fail c base reason activity message note).run >>= f).Alike
      ((fail c base' reason activity message note).run >>= f') := by
  refine .ask (.update h.name h.namespace (alike_nextStatus h ..)) fun reply reply' hx => ?_
  cases hx with
  | refused _ e => exact herror e
  | accepted _ version version' => exact .ask (.publish rfl rfl rfl rfl) fun _ _ _ => hok _ _

theorem alike_killed (h : base.Alike base') (known : Attack) (duration : Option Duration)
    (pod : Pod) : (killed c base known duration pod).run.Alike
      (killed c base' known duration pod).run := by
  unfold killed
  rw [← h.spec]
  cases delayAfterAttack base.spec.mode duration c.settings.recurringInterval with
  | some delay =>
    refine alike_write_bind h ((alike_nextStatus h ..).recordRun _) fun updated updated' _ => ?_
    exact alike_publish_bind (.done _)
  | none =>
    refine alike_write_bind h ((alike_nextStatus h ..).recordRun _) fun updated updated' hu => ?_
    refine alike_publish_bind ?_
    unfold publishCompleted
    rw [← hu.spec]
    exact alike_publish_bind (.done _)

theorem alike_attackFailed (h : base.Alike base') (known : Attack) (failure : AttackFailure) :
    (attackFailed c base known failure).run.Alike (attackFailed c base' known failure).run := by
  cases failure <;> exact alike_fail_bind h (fun _ => .done _) fun _ _ => .done _

theorem alike_noTargets (h : base.Alike base') :
    (noTargets c base).run.Alike (noTargets c base').run :=
  alike_fail_bind h (fun _ => .done _) fun _ _ => .done _

theorem alike_attack (h : base.Alike base') (known : Attack) (duration : Option Duration) :
    (attack c base known duration).run.Alike (attack c base' known duration).run := by
  unfold attack
  rw [← h.spec, ExceptT.run_bind_lift, ExceptT.run_bind_lift]
  refine (known.alike_execute base.spec.target).bind fun outcome => ?_
  match outcome with
  | .ok (.killed pod) => exact alike_killed h known duration pod
  | .ok .noTargets => exact alike_noTargets h
  | .error failure => exact alike_attackFailed h known failure

theorem alike_retrigger_attack (h : base.Alike base') (known : Attack)
    (duration : Option Duration) :
    (retrigger c base >>= fun updated => attack c updated known duration).run.Alike
      (retrigger c base' >>= fun updated => attack c updated known duration).run := by
  simp only [retrigger, bind_assoc, pure_bind]
  refine alike_write_bind h (alike_nextStatus h ..) fun updated updated' hu => ?_
  exact alike_publish_bind (alike_attack hu known duration)

theorem alike_act (h : base.Alike base') (decision : Decision) (known : Attack)
    (duration : Option Duration) :
    (act c base decision known duration).run.Alike (act c base' decision known duration).run := by
  unfold act
  cases decision with
  | complete =>
    simp only [complete, publishCompleted, bind_assoc, pure_bind]
    refine alike_write_bind h (alike_nextStatus h ..) fun updated updated' hu => ?_
    rw [← hu.spec, ← h.spec]
    refine alike_publish_bind ?_
    split
    next => exact .done _
    next => exact alike_retrigger_attack hu known duration
  | retrigger => exact alike_retrigger_attack h known duration
  | attack | enroll | waitFor | terminate => exact alike_attack h known duration

theorem alike_checkAndAct (h : base.Alike base') (decision : Decision) (verdict : Verdict) :
    (checkAndAct c base decision verdict).run.Alike
      (checkAndAct c base' decision verdict).run := by
  unfold checkAndAct
  rw [← h.spec]
  split
  next => exact alike_act h ..
  next =>
    unfold unsupported
    rw [← h.spec]
    exact alike_fail_bind h (fun _ => .done _) fun _ _ => .done _
  next => exact alike_fail_bind h (fun _ => .done _) fun _ _ => .done _
  next => exact .abort

/-- The schedule reads the phase and the time of the last attack, and no more of a status. -/
theorem schedule_congr (h : base.Alike base') (mode : Mode) (duration : Option Duration)
    (now : Instant) : schedule mode duration base.status now =
      schedule mode duration base'.status now := by
  have hphase : base.status.bind Status.phase = base'.status.bind Status.phase := h.phase
  have hrun : base.status.bind Status.lastRun = base'.status.bind Status.lastRun := h.lastRun
  rw [schedule, hphase, hrun, schedule]

theorem alike_step (h : base.Alike base') : (step c base).run.Alike (step c base').run := by
  unfold step
  rw [← h.spec]
  split
  next => exact .abort
  next =>
    rw [← schedule_congr h]
    split
    next =>
      simp only [enroll, bind_assoc, pure_bind]
      refine alike_write_bind h (alike_nextStatus h ..) fun updated updated' _ => ?_
      exact alike_publish_bind (.done _)
    next => exact .done _
    next => exact .done _
    next => exact alike_checkAndAct h ..

end Steps

/-- Of its trigger an invocation only uses the name. -/
theorem alike_reconcileAt (settings : Settings) {trigger trigger' : Experiment} (now : Instant)
    (hname : trigger.name = trigger'.name)
    (hns : trigger.metadata.namespace = trigger'.metadata.namespace) :
    (reconcileAt settings trigger now).run.Alike (reconcileAt settings trigger' now).run := by
  unfold reconcileAt
  rw [← hname, ← hns]
  split
  next => exact .done _
  next ns _ =>
    refine .ask (.get ns trigger.name) fun reply reply' hx => ?_
    cases hx with
    | unread _ _ e => exact .done _
    | absent => exact .done _
    | read _ _ h => exact alike_step h

end Reconcile

/-! ## The main result -/

/-- What an invocation does not look at. Take two runs at one time and with the same settings,
    for triggers that have no more in common than name and namespace, and let the same calls be
    answered alike in both: the records that are read may differ in message, conditions, labels
    and version, and so may the versions that accepted writes are given. Then both runs make the
    same calls in the same order, with the same names, selectors and picks; they write statuses
    that agree on phase, message, time of the last attack and what the two conditions of the
    controller say, publish the same about it, and end in the same way. -/
theorem unread_irrelevant (oracle oracle' : Oracle) (settings : Settings)
    (trigger trigger' : Experiment) (now : Instant) (hname : trigger.name = trigger'.name)
    (hns : trigger.metadata.namespace = trigger'.metadata.namespace) :
    let run := (reconcileAt settings trigger now).run.consult oracle []
    let run' := (reconcileAt settings trigger' now).run.consult oracle' []
    run.2.AnsweredAlike run'.2 →
      run.1 = run'.1 ∧ List.Forall₂ Exchange.Alike run.2 run'.2 := by
  intro run run' hanswered
  exact (Reconcile.alike_reconcileAt settings now hname hns).consult .nil hanswered

/-- The oracle of a cluster that holds a record and a pod and accepts every status under a given
    version. -/
def Oracle.granting (e : Experiment) (pod : Pod) (version : String) : Oracle
  | _, .get _ _ => .ok (some e)
  | _, .list _ _ => .ok [pod]
  | _, .pick _ => (0 : Nat)
  | _, .delete _ _ => .ok .deleted
  | _, .update base status => .ok (base.stamped status version)
  | _, .publish _ => ()

/-- A recurring experiment that runs again. The second record carries labels, a message, a stale
    condition of the controller and one of somebody else, and its trigger comes without a status
    and with another spec; it is attacked all the same. -/
theorem unread_irrelevant_crowded :
    let e := Experiment.sample .recurring none (some .completed) (some (.sample 0))
    let e' : Experiment := { e with
      metadata := { e.metadata with
        resourceVersion := some "7", labels := some ⟨[("team", "web")], by decide⟩ }
      status := some ⟨some .completed, some (.sample 0), some "Done.",
        [⟨"Degraded", .yes, "PodKilled", "", .sample 1⟩, ⟨"Ready", .no, "", "", .sample 1⟩]⟩ }
    let trigger := { Experiment.sample .oneShot (some "1h") none none with status := none }
    let run := (reconcileAt .standard e (.sample 5)).run.consult
      (.granting e ⟨"lab", "a"⟩ "2") []
    let run' := (reconcileAt .standard trigger (.sample 5)).run.consult
      (.granting e' ⟨"lab", "a"⟩ "8") []
    run.2.deletions = 1 ∧ run'.2.deletions = 1 ∧ run.1 = run'.1 ∧
      List.Forall₂ Exchange.Alike run.2 run'.2 := by
  intro e e' trigger run run'
  have hrecords : e.Alike e' := ⟨rfl, rfl, rfl, rfl, rfl⟩
  have hanswers (t t' : Trace) (r r' : Request) (hr : r.Alike r') :
      Exchange.Alike ⟨r, Oracle.granting e ⟨"lab", "a"⟩ "2" t r⟩
        ⟨r', Oracle.granting e' ⟨"lab", "a"⟩ "8" t' r'⟩ := by
    cases hr with
    | get ns name => exact .read ns name hrecords
    | list ns selector => exact .list ns selector _
    | pick count => exact .pick count _
    | delete ns name => exact .delete ns name _
    | update hname hns h => exact .accepted (.update hname hns h) _ _
    | publish hseverity hreason haction hnote =>
      exact .publish (.publish hseverity hreason haction hnote)
  obtain ⟨hending, htraces⟩ := unread_irrelevant (.granting e ⟨"lab", "a"⟩ "2")
    (.granting e' ⟨"lab", "a"⟩ "8") .standard e trigger (.sample 5) rfl rfl
    (Oracle.answeredAlike hanswers _ _)
  exact ⟨by decide +kernel, by decide +kernel, hending, htraces⟩

end ChaosController
