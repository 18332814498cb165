/-
  ChaosController.Proofs.Resumption

  What is left of a recurring cycle that is interrupted before its attack.

  The end of the last run and the beginning of the next one are written apart. An invocation
  that stops between the two leaves a record that is finished, or running with the time of an
  older attack, or of none. Such a record leads to the attack all the same: the next invocation
  does what it would have done for the original record (`interrupted_cycle_resumes`).
-/

import ChaosController.Proofs.Conditions
import ChaosController.Proofs.Rounds

namespace ChaosController

/-! ## Conditions -/

/-- What a condition says, apart from the time since when. -/
def Condition.statement (c : Condition) : String × Truth × String × String :=
  (c.kind, c.status, c.reason, c.message)

namespace Status

/-- The same status, but for the times of transitions. -/
structure Agrees (s s' : Status) : Prop where
  phase : s.phase = s'.phase
  lastRun : s.lastRun = s'.lastRun
  message : s.message = s'.message
  conditions : s.conditions.map Condition.statement = s'.conditions.map Condition.statement

theorem Agrees.refl (s : Status) : s.Agrees s := ⟨rfl, rfl, rfl, rfl⟩

theorem Agrees.recordRun {s s' : Status} (h : s.Agrees s') (now : Instant) :
    (s.recordRun now).Agrees (s'.recordRun now) := ⟨h.phase, rfl, h.message, h.conditions⟩

/-- Carrying a transition time over changes nothing else that a condition says. -/
theorem statement_carryTransition (s : Status) (c : Condition) :
    (s.carryTransition c).statement = c.statement := by
  unfold carryTransition
  split
  · split <;> rfl
  · rfl

end Status

namespace Experiment

/-- The same experiment at different points of a cycle: what the writes before an attack may
    change is left open. -/
structure Matches (e e' : Experiment) : Prop where
  spec : e.spec = e'.spec
  lastRun : e.lastRun? = e'.lastRun?
  foreign : e.foreign = e'.foreign

theorem Matches.refl (e : Experiment) : e.Matches e := ⟨rfl, rfl, rfl⟩

theorem Matches.symm {e e' : Experiment} (h : e.Matches e') : e'.Matches e :=
  ⟨h.spec.symm, h.lastRun.symm, h.foreign.symm⟩

theorem Matches.trans {e e' e'' : Experiment} (h : e.Matches e') (h' : e'.Matches e'') :
    e.Matches e'' :=
  ⟨h.spec.trans h'.spec, h.lastRun.trans h'.lastRun, h.foreign.trans h'.foreign⟩

end Experiment

namespace Reconcile

/-- The conditions of others are left alone. -/
theorem foreign_nextStatus (base : Experiment) (phase : Phase) (reason : Reason)
    (message : String) (now : Instant) :
    (nextStatus base phase reason message now).foreign = base.foreign := by
  simp [Status.foreign, Experiment.foreign, conditions_nextStatus, List.filter_append]

/-- The next statuses of records that match agree. -/
theorem agrees_nextStatus {base base' : Experiment} (h : base.Matches base') (phase : Phase)
    (reason : Reason) (message : String) (now : Instant) :
    (nextStatus base phase reason message now).Agrees
      (nextStatus base' phase reason message now) := by
  refine ⟨rfl, by simpa using h.lastRun, rfl, ?_⟩
  rw [conditions_nextStatus, conditions_nextStatus, h.foreign]
  simp [Status.statement_carryTransition]

/-- A record matches what is made of it by a write that records no attack. -/
theorem Derived.stamped_matches {c : Context} {base : Experiment} {status : Status}
    (h : Derived c base status) (hrun : status.lastRun = base.lastRun?) (version : String) :
    (base.stamped status version).Matches base where
  spec := rfl
  lastRun := hrun
  foreign := by
    cases h with
    | kept phase reason message => exact foreign_nextStatus base phase reason message c.now
    | run phase reason message => exact foreign_nextStatus base phase reason message c.now

end Reconcile

/-! ## Interruptions -/

/-- If no deletion has been asked for, none has been answered. -/
theorem Trace.strike?_eq_none {t : Trace} (h : t.deletions = 0) : t.strike? = none := by
  induction t with
  | nil => rfl
  | cons x t ih =>
    rw [deletions_cons] at h
    have hx : x.deletion? = none := by
      cases hx : x.deletion? with
      | none => rfl
      | some answer => simp [Exchange.isDeletion, hx] at h
    simp [hx, ih (by omega)]

namespace Reconcile

/-- What an invocation has made of a record before it deletes a pod matches the record. -/
theorem matches_of_reaches {settings : Settings} {trigger e : Experiment} {now : Instant}
    {t : Trace} {rest : Invocation (Except Error Revisit)}
    (h : (reconcileAt settings trigger now).run.Reaches t rest)
    (hread : ∀ read, t.read? = some read → read = e) (hfaithful : t.Faithful)
    (hdeletions : t.deletions = 0) (hphase : e.phase?.isSome) :
    (t.stored e).Matches e ∧ (t.stored e).phase?.isSome := by
  -- By induction on the exchanges; the record changes with accepted writes alone.
  induction h with
  | start => exact ⟨.refl e, hphase⟩
  | @exchange t r resume reply h ih =>
    have hdeletions' : Trace.deletions t = 0 := by
      rw [Trace.deletions_cons] at hdeletions
      omega
    -- An exchange that hands over no record leaves the stored one as it is.
    have hsame (hx : Exchange.record? ⟨r, reply⟩ = none) :
        Experiment.Matches (Trace.stored e (⟨r, reply⟩ :: t)) e ∧
          (Trace.stored e (⟨r, reply⟩ :: t)).phase?.isSome := by
      have hfetched : Exchange.fetched? ⟨r, reply⟩ = none := by
        refine Option.eq_none_iff_forall_ne_some.2 fun read hread => ?_
        cases hx.symm.trans (Exchange.record?_of_fetched? hread)
      rw [Trace.stored_cons, hx]
      exact ih (fun read hr => hread read (by simpa [hfetched] using hr)) hfaithful.tail hdeletions'
    match r, reply with
    | .get ns name, .ok (some read) =>
      obtain rfl : read = e := hread read (by simp [Exchange.fetched?])
      exact ⟨.refl read, hphase⟩
    | .get ns name, .ok none | .get ns name, .error _ => exact hsame rfl
    | .list ns selector, _ | .pick count, _ | .delete ns name, _ | .publish event, _ =>
      exact hsame rfl
    | .update base status, .error _ => exact hsame rfl
    | .update base status, .ok updated =>
      -- The write is told from the stored record; no kill lies behind it that it could record.
      obtain ⟨read, hstands, hwrites, -⟩ := lawful_of_reaches h
      obtain ⟨version, rfl⟩ := hfaithful.head
      have hstored : Trace.stored e t = base := by simp [Trace.stored, hstands.base_eq]
      have hrun : status.lastRun = base.lastRun? := by
        rw [hwrites.lastRun, Trace.strike?_eq_none hdeletions']
        rfl
      have hphase : status.phase.isSome := by cases hwrites.derived <;> rfl
      have hbase := (ih (fun read hr => hread read (by simpa [Exchange.fetched?] using hr))
        hfaithful.tail hdeletions').1
      rw [hstored] at hbase
      exact ⟨(hwrites.derived.stamped_matches hrun version).trans hbase, hphase⟩

end Reconcile

/-! ## Runs with given answers -/

/-- An exchange as it is when pods are listed, picked and deleted as `replies` has it, and
    `stored` is read and written without a failure. -/
def Exchange.Follows (replies : (r : Request) → r.Reply) (stored : Experiment) : Exchange → Prop
  | ⟨.get _ _, reply⟩ => reply = .ok (some stored)
  | ⟨.update _ status, reply⟩ => ∃ version, reply = .ok (stored.stamped status version)
  | ⟨.list ns selector, reply⟩ => reply = replies (.list ns selector)
  | ⟨.pick count, index⟩ => index = replies (.pick count)
  | ⟨.delete ns name, reply⟩ => reply = replies (.delete ns name)
  | ⟨.publish _, _⟩ => True

/-- Whether pods are listed, picked or deleted. -/
def Request.isAttack : Request → Bool
  | .list _ _ | .pick _ | .delete _ _ => true
  | .get _ _ | .update _ _ | .publish _ => false

/-- The exchanges of the attack in a trace. -/
def Trace.attacks (t : Trace) : Trace := t.filter (·.request.isAttack)

/-- The oracle attacks with the given replies, and `e` is stored at first. -/
def Oracle.Plays (oracle : Oracle) (replies : (r : Request) → r.Reply) (e : Experiment) : Prop :=
  ∀ t r, Exchange.Follows replies (Trace.stored e t) ⟨r, oracle t r⟩

theorem Oracle.Plays.reply_eq {oracle : Oracle} {replies : (r : Request) → r.Reply}
    {e : Experiment} (ho : oracle.Plays replies e) {r : Request} (hr : r.isAttack) (t : Trace) :
    oracle t r = replies r := by
  have hfollows := ho t r
  cases r with
  | list | pick | delete => exact hfollows
  | get | update | publish => cases hr

/-- A steady oracle attacks with the same replies whatever is stored. -/
theorem Oracle.steady_plays (e e' : Experiment) (pod : Pod) :
    (steady e pod).Plays (steady e' pod []) e := by
  intro t r
  cases r with
  | get | list | pick | delete => exact rfl
  | update base status => exact ⟨_, rfl⟩
  | publish => trivial

namespace Invocation

variable {α β : Type} {oracle : Oracle} {replies : (r : Request) → r.Reply} {t : Trace}

/-- An invocation that comes to the same outcome after the same exchanges, whenever it is given
    the same replies. -/
def IsScripted (replies : (r : Request) → r.Reply) (i : Invocation β) : Prop :=
  ∃ outcome strikes, ∀ (oracle : Oracle) (e : Experiment), oracle.Plays replies e →
    ∀ (α : Type) (f : β → Invocation α) (t : Trace),
      (i >>= f).consult oracle t = (f outcome).consult oracle (strikes ++ t)

theorem IsScripted.done (b : β) : (done b).IsScripted replies :=
  ⟨b, [], fun _ _ _ _ _ _ => rfl⟩

theorem IsScripted.ask {r : Request} {resume : r.Reply → Invocation β} (hr : r.isAttack)
    (h : (resume (replies r)).IsScripted replies) : (ask r resume).IsScripted replies := by
  obtain ⟨outcome, strikes, hrun⟩ := h
  refine ⟨outcome, strikes ++ [⟨r, replies r⟩], fun oracle e ho α f t => ?_⟩
  rw [ask_bind, consult_ask (ho.reply_eq hr t), hrun oracle e ho, List.append_assoc]
  rfl

end Invocation

/-- An attack comes to the same whenever the same is replied. -/
theorem Attack.isScripted_execute (replies : (r : Request) → r.Reply) (attack : Attack)
    (target : Target) : (attack.execute target).IsScripted replies := by
  -- The pods are listed, one is picked, and that one is deleted, if it gets so far.
  cases attack with
  | podKill =>
    refine .ask rfl ?_
    match replies (.list target.namespace target.selector) with
    | .error cause => exact .done _
    | .ok [] => exact .done _
    | .ok (pod :: pods) =>
      refine .ask rfl ?_
      show (Attack.podKill.applyAt (pod :: pods) _).IsScripted replies
      unfold applyAt
      split
      next => exact .done _
      next picked _ =>
        refine .ask rfl ?_
        match replies (.delete picked.namespace picked.name) with
        | .error cause => exact .done _
        | .ok deletion => exact .done _

namespace Reconcile

section Writes

open Invocation

variable {α : Type} {oracle : Oracle} {replies : (r : Request) → r.Reply} {e : Experiment}
  {c : Context}

/-- A status write is accepted for the stored record. -/
theorem consult_write_bind (ho : oracle.Plays replies e) (base : Experiment) (status : Status)
    (f : Experiment → Attempt α) (t : Trace) :
    ∃ version, (write base status >>= f).run.consult oracle t =
      (f ((t.stored e).stamped status version)).run.consult oracle
        (⟨.update base status, .ok ((t.stored e).stamped status version)⟩ :: t) := by
  obtain ⟨version, hversion⟩ := ho t (.update base status)
  exact ⟨version, consult_ask hversion⟩

/-- A failure is recorded, and an event tells of it. -/
theorem consult_fail_bind (ho : oracle.Plays replies e) (base : Experiment) (reason : Reason)
    (activity : Activity) (message note : String) (f : Except Error Experiment → Invocation α)
    (t : Trace) :
    ∃ version event,
      let status := nextStatus base .failed reason message c.now
      let updated := (t.stored e).stamped status version
      ((fail c base reason activity message note).run >>= f).consult oracle t =
        (f (.ok updated)).consult oracle
          (⟨.publish event, ()⟩ :: ⟨.update base status, .ok updated⟩ :: t) := by
  obtain ⟨version, hversion⟩ := ho t (.update base (nextStatus base .failed reason message c.now))
  exact ⟨version, _, consult_ask hversion⟩

/-! ### Before the attack -/

/-- How a cycle stands before its attack: no pod has been touched since `t`, and the stored
    record is still the same experiment. -/
structure Leads (e : Experiment) (t u : Trace) : Prop where
  stored : (u.stored e).Matches (t.stored e)
  attacks : u.attacks = t.attacks

theorem Leads.refl (e : Experiment) (t : Trace) : Leads e t t := ⟨.refl _, rfl⟩

theorem Leads.trans {t u w : Trace} (h : Leads e t u) (h' : Leads e u w) : Leads e t w :=
  ⟨h'.stored.trans h.stored, h'.attacks.trans h.attacks⟩

/-- A write that keeps the time of the last attack, and the event after it. -/
theorem Leads.written {t : Trace} {status : Status} (hd : Derived c (t.stored e) status)
    (hrun : status.lastRun = (t.stored e).lastRun?) (version : String) (event : Event) :
    Leads e t (⟨.publish event, ()⟩ ::
      ⟨.update (t.stored e) status, .ok ((t.stored e).stamped status version)⟩ :: t) where
  stored := hd.stamped_matches hrun version
  attacks := rfl

theorem consult_retrigger_bind (ho : oracle.Plays replies e) (f : Experiment → Attempt α)
    (t : Trace) :
    ∃ u, Leads e t u ∧ (retrigger c (t.stored e) >>= f).run.consult oracle t =
      (f (u.stored e)).run.consult oracle u := by
  simp only [retrigger, bind_assoc, pure_bind]
  obtain ⟨version, hrun⟩ := consult_write_bind ho (t.stored e) _ _ t
  exact ⟨_, .written (.kept ..) (lastRun_nextStatus ..) version _, hrun⟩

theorem consult_complete_bind (ho : oracle.Plays replies e) (message : String)
    (f : Experiment → Attempt α) (t : Trace) :
    ∃ u, Leads e t u ∧ (complete c (t.stored e) message >>= f).run.consult oracle t =
      (f (u.stored e)).run.consult oracle u := by
  simp only [complete, publishCompleted, bind_assoc, pure_bind]
  obtain ⟨version, hrun⟩ := consult_write_bind ho (t.stored e) _ _ t
  exact ⟨_, .written (.kept ..) (lastRun_nextStatus ..) version _, hrun⟩

/-- Whatever else a recurring experiment needs first, it comes to the attack. -/
theorem consult_act (ho : oracle.Plays replies e) {t : Trace} {d : Decision} (hacts : d.acts)
    (hmode : (t.stored e).spec.mode = .recurring) (known : Attack)
    (duration : Option Duration) :
    ∃ u, Leads e t u ∧ (act c (t.stored e) d known duration).run.consult oracle t =
      (attack c (u.stored e) known duration).run.consult oracle u := by
  have hretrigger (t : Trace) := consult_retrigger_bind (c := c) ho
    (fun updated => attack c updated known duration) t
  cases d with
  | enroll | waitFor | terminate => cases hacts
  | attack => exact ⟨t, .refl e t, rfl⟩
  | retrigger => exact hretrigger t
  | complete =>
    -- After the end of the last run, what is left to do is what a retrigger does.
    simp only [act, hmode, reduceCtorEq, if_false]
    obtain ⟨u, hu, hrun⟩ := consult_complete_bind (c := c) ho
      (if duration.isSome then completedMessage else completedAtOnceMessage)
      (fun completed => retrigger c completed >>= fun updated => attack c updated known duration) t
    obtain ⟨w, hw, hrun'⟩ := hretrigger u
    exact ⟨w, hu.trans hw, hrun.trans hrun'⟩

/-! ### The attack -/

/-- Two runs that end alike: they have made the same attack, and leave statuses that agree. -/
structure SameEnd (e e' : Experiment) (a b : Ending (Except Error Revisit) × Trace) : Prop where
  ending : a.1 = b.1
  attacks : a.2.attacks = b.2.attacks
  status : ∃ s s', (a.2.stored e).status = some s ∧ (b.2.stored e').status = some s' ∧ s.Agrees s'

namespace SameEnd

variable {e' : Experiment} {ending : Ending (Except Error Revisit)} {t t' : Trace}

/-- The attacks have been the same, and the statuses that are written at last agree. -/
theorem written {base base' before before' : Experiment} {s s' : Status} (h : s.Agrees s')
    (ht : t.attacks = t'.attacks) (version version' : String) :
    SameEnd e e' (ending, ⟨.update base s, .ok (before.stamped s version)⟩ :: t)
      (ending, ⟨.update base' s', .ok (before'.stamped s' version')⟩ :: t') :=
  ⟨rfl, ht, s, s', rfl, rfl, h⟩

theorem publish (h : SameEnd e e' (ending, t) (ending, t')) (event event' : Event) :
    SameEnd e e' (ending, ⟨.publish event, ()⟩ :: t) (ending, ⟨.publish event', ()⟩ :: t') :=
  ⟨rfl, h.attacks, h.status⟩

end SameEnd

variable {oracle' : Oracle} {e' : Experiment} {t t' : Trace} {base base' : Experiment}

theorem sameEnd_killed (ho : oracle.Plays replies e) (ho' : oracle'.Plays replies e')
    (h : base.Matches base') (ht : t.attacks = t'.attacks) (known : Attack)
    (duration : Option Duration) (pod : Pod) :
    SameEnd e e' ((killed c base known duration pod).run.consult oracle t)
      ((killed c base' known duration pod).run.consult oracle' t') := by
  unfold killed
  -- Whether the run is over with the kill is told from the spec, which is the same for both.
  rw [h.spec]
  cases delayAfterAttack base'.spec.mode duration c.settings.recurringInterval with
  | some delay =>
    obtain ⟨version, hrun⟩ := consult_write_bind ho base _ _ t
    obtain ⟨version', hrun'⟩ := consult_write_bind ho' base' _ _ t'
    rw [hrun, hrun']
    exact (SameEnd.written ((agrees_nextStatus h ..).recordRun _) ht _ _).publish _ _
  | none =>
    obtain ⟨version, hrun⟩ := consult_write_bind ho base _ _ t
    obtain ⟨version', hrun'⟩ := consult_write_bind ho' base' _ _ t'
    rw [hrun, hrun']
    exact ((SameEnd.written ((agrees_nextStatus h ..).recordRun _) ht _ _).publish _ _).publish _ _

/-- A failure is recorded alike; what is made of it does not look at the new record. -/
theorem sameEnd_fail_bind (ho : oracle.Plays replies e) (ho' : oracle'.Plays replies e')
    (h : base.Matches base') (ht : t.attacks = t'.attacks) (reason : Reason)
    (activity : Activity) (message note : String) {result : Except Error Revisit}
    {f : Except Error Experiment → Invocation (Except Error Revisit)}
    (hf : ∀ updated, f (.ok updated) = done result) :
    SameEnd e e' (((fail c base reason activity message note).run >>= f).consult oracle t)
      (((fail c base' reason activity message note).run >>= f).consult oracle' t') := by
  obtain ⟨version, event, hrun⟩ := consult_fail_bind ho base reason activity message note f t
  obtain ⟨version', event', hrun'⟩ := consult_fail_bind ho' base' reason activity message note f t'
  rw [hrun, hrun', hf, hf]
  exact (SameEnd.written (agrees_nextStatus h ..) ht _ _).publish _ _

theorem sameEnd_noTargets (ho : oracle.Plays replies e) (ho' : oracle'.Plays replies e')
    (h : base.Matches base') (ht : t.attacks = t'.attacks) :
    SameEnd e e' ((noTargets c base).run.consult oracle t)
      ((noTargets c base').run.consult oracle' t') :=
  sameEnd_fail_bind ho ho' h ht _ _ _ _ fun _ => rfl

theorem sameEnd_attackFailed (ho : oracle.Plays replies e) (ho' : oracle'.Plays replies e')
    (h : base.Matches base') (ht : t.attacks = t'.attacks) (known : Attack)
    (failure : AttackFailure) :
    SameEnd e e' ((attackFailed c base known failure).run.consult oracle t)
      ((attackFailed c base' known failure).run.consult oracle' t') := by
  cases failure <;> exact sameEnd_fail_bind ho ho' h ht _ _ _ _ fun _ => rfl

/-- Records that match are attacked in the same way, and with the same outcome. -/
theorem sameEnd_attack (ho : oracle.Plays replies e) (ho' : oracle'.Plays replies e')
    (h : base.Matches base') (ht : t.attacks = t'.attacks) (known : Attack)
    (duration : Option Duration) :
    SameEnd e e' ((attack c base known duration).run.consult oracle t)
      ((attack c base' known duration).run.consult oracle' t') := by
  obtain ⟨outcome, strikes, hrun⟩ := known.isScripted_execute replies base.spec.target
  unfold attack
  rw [ExceptT.run_bind_lift, ExceptT.run_bind_lift, ← h.spec, hrun oracle e ho, hrun oracle' e' ho']
  have ht : (strikes ++ t).attacks = (strikes ++ t').attacks := by
    simpa [Trace.attacks] using ht
  cases outcome with
  | error failure => exact sameEnd_attackFailed ho ho' h ht known failure
  | ok outcome =>
    cases outcome with
    | killed pod => exact sameEnd_killed ho ho' h ht known duration pod
    | noTargets => exact sameEnd_noTargets ho ho' h ht

end Writes

/-! ## Resumption -/

/-- When its gate is open, a recurring experiment that has been enrolled is attacked, or what
    comes before the attack is done. -/
theorem acts_of_gateOpen {duration : Option Duration} {status : Option Status} {now : Instant}
    (hphase : (status.bind Status.phase).isSome) (hgate : GateOpen duration (elapsed? status now)) :
    (schedule .recurring duration status now).acts := by
  obtain ⟨hnone, -⟩ | ⟨phase, -, -, hs⟩ | ⟨phase, -, -, hs⟩ :=
    schedule_cases .recurring duration status now
  · simp [hnone] at hphase
  · rw [hs, scheduleFinished_eq_retrigger.2 ⟨rfl, hgate⟩]
    rfl
  · -- What is not finished is attacked at once, unless an attack has to be completed first.
    rw [hs]
    by_cases hattack : elapsed? status now = none ∨ duration = none
    · rw [scheduleActive_eq_attack.2 (hattack.imp_right fun h => ⟨h, rfl⟩)]
      rfl
    · obtain ⟨helapsed, hduration⟩ := not_or.1 hattack
      rw [scheduleActive_eq_complete.2
        ⟨Option.isSome_iff_ne_none.2 helapsed, hgate, fun h => absurd h hduration⟩]
      rfl

/-- A recurring experiment whose gate is open comes to the attack. -/
theorem consult_step {oracle : Oracle} {replies : (r : Request) → r.Reply} {e : Experiment}
    {c : Context} (ho : oracle.Plays replies e) {t : Trace} (ht : t.stored e = e)
    {duration : Option Duration} {known : Attack} (hmode : e.spec.mode = .recurring)
    (hvalid : e.spec.verdict = .valid duration) (hattack : e.spec.attack.attack? = some known)
    (hphase : e.phase?.isSome) (hgate : GateOpen duration (elapsed? e.status c.now)) :
    ∃ u, Leads e t u ∧ (step c e).run.consult oracle t =
      (attack c (u.stored e) known duration).run.consult oracle u := by
  have hacts : (decision c e).acts := by
    rw [decision, hmode, hvalid]
    exact acts_of_gateOpen hphase hgate
  rw [step_of_acts hvalid hattack rfl hacts]
  have hmode : (t.stored e).spec.mode = .recurring := by rw [ht, hmode]
  have hrun := consult_act (c := c) ho hacts hmode known duration
  rwa [ht] at hrun

/-- An invocation reads the stored record before it does anything else. -/
theorem consult_reconcileAt {settings : Settings} {trigger e : Experiment} {now : Instant}
    {ns : String} (hns : trigger.metadata.namespace = some ns) {oracle : Oracle}
    {replies : (r : Request) → r.Reply} (ho : oracle.Plays replies e) :
    (reconcileAt settings trigger now).run.consult oracle [] =
      (step ⟨settings, trigger.name, now⟩ e).run.consult oracle
        [⟨.get ns trigger.name, .ok (some e)⟩] := by
  simp only [reconcileAt, hns]
  exact Invocation.consult_ask (ho [] (.get ns trigger.name))

/-- Two invocations for the same experiment at different points of a cycle end alike. -/
theorem sameEnd_reconcileAt {settings : Settings} {trigger e e' : Experiment} {now : Instant}
    {ns : String} (hns : trigger.metadata.namespace = some ns) (h : e.Matches e')
    {duration : Option Duration} {known : Attack} (hmode : e'.spec.mode = .recurring)
    (hvalid : e'.spec.verdict = .valid duration) (hattack : e'.spec.attack.attack? = some known)
    (hphase : e.phase?.isSome) (hphase' : e'.phase?.isSome)
    (hgate : GateOpen duration (elapsed? e'.status now))
    {replies : (r : Request) → r.Reply} {oracle oracle' : Oracle} (ho : oracle.Plays replies e)
    (ho' : oracle'.Plays replies e') :
    SameEnd e e' ((reconcileAt settings trigger now).run.consult oracle [])
      ((reconcileAt settings trigger now).run.consult oracle' []) := by
  have hgate' : GateOpen duration (elapsed? e.status now) := by
    have hlast : e.status.bind Status.lastRun = e'.status.bind Status.lastRun := h.lastRun
    rwa [elapsed?, hlast]
  obtain ⟨u, hu, hrun⟩ := consult_step (c := ⟨settings, trigger.name, now⟩) ho
    (t := [⟨.get ns trigger.name, .ok (some e)⟩]) rfl (h.spec ▸ hmode) (h.spec ▸ hvalid)
    (h.spec ▸ hattack) hphase hgate'
  obtain ⟨u', hu', hrun'⟩ := consult_step (c := ⟨settings, trigger.name, now⟩) ho'
    (t := [⟨.get ns trigger.name, .ok (some e')⟩]) rfl hmode hvalid hattack hphase' hgate
  rw [consult_reconcileAt hns ho, consult_reconcileAt hns ho', hrun, hrun']
  exact sameEnd_attack ho ho' (hu.stored.trans (h.trans hu'.stored.symm))
    (hu.attacks.trans hu'.attacks.symm) known duration

end Reconcile

open Reconcile

/-- A recurring cycle that is interrupted before its deletion is resumed without loss. The
    invocation of `now` may stop anywhere before it deletes a pod; a write of its own that lands
    counts as answered. Once the gate of the duration is open, an invocation that finds what is
    left and one that finds the original record make the same attack, end with the same result
    and leave statuses that agree, as long as they are given the same answers. -/
theorem interrupted_cycle_resumes {settings : Settings} {trigger e : Experiment}
    {now later : Instant} {duration : Option Duration} (hmode : e.spec.mode = .recurring)
    (hvalid : e.spec.verdict = .valid duration) (hattack : e.spec.attack = .podKill)
    (hdecision : decision ⟨settings, trigger.name, now⟩ e = .complete ∨
      decision ⟨settings, trigger.name, now⟩ e = .retrigger)
    {t : Trace} {rest : Invocation (Except Error Revisit)}
    (hreached : (reconcileAt settings trigger now).run.Reaches t rest)
    (hread : ∀ read, t.read? = some read → read = e) (hfaithful : t.Faithful)
    (hdeletions : t.deletions = 0) (hgate : GateOpen duration (elapsed? e.status later))
    {replies : (r : Request) → r.Reply} {resumed fresh : Oracle}
    (hresumed : resumed.Plays replies (t.stored e)) (hfresh : fresh.Plays replies e) :
    SameEnd (t.stored e) e ((reconcileAt settings trigger later).run.consult resumed [])
      ((reconcileAt settings trigger later).run.consult fresh []) := by
  have hphase : e.phase?.isSome := by
    obtain hd | hd := hdecision
    · obtain ⟨⟨phase, hphase, -⟩, -⟩ := of_schedule_eq_complete hd
      exact Option.isSome_of_eq_some hphase
    · obtain ⟨⟨phase, hphase, -⟩, -⟩ := of_schedule_eq_retrigger hd
      exact Option.isSome_of_eq_some hphase
  obtain ⟨hmatches, hphase'⟩ := matches_of_reaches hreached hread hfaithful hdeletions hphase
  cases hns : trigger.metadata.namespace with
  | none =>
    -- Without a namespace nothing happens, neither before the interruption nor after it.
    have hdone (time : Instant) : (reconcileAt settings trigger time).run =
        .done (.error (.internal "reconcile" (trigger.name ++ " has no namespace"))) := by
      simp only [reconcileAt, hns]
      rfl
    obtain ⟨status, hstatus⟩ : ∃ status, e.status = some status := by
      cases hstatus : e.status with
      | none => simp [Experiment.phase?, hstatus] at hphase
      | some status => exact ⟨status, rfl⟩
    rw [hdone] at hreached ⊢
    obtain ⟨rfl, -⟩ := Invocation.reaches_done hreached
    exact ⟨rfl, rfl, status, status, hstatus, hstatus, .refl status⟩
  | some ns =>
    exact sameEnd_reconcileAt hns hmatches hmode hvalid (by rw [hattack]; rfl) hphase' hphase hgate
      hresumed hfresh

/-- A cycle that is interrupted when the last run has been recorded as completed. -/
theorem interrupted_cycle_resumes_completed :
    let e := Experiment.sample .recurring (some "5m") (some .running) (some (.sample 0))
    let pod : Pod := ⟨"lab", "a"⟩
    ∃ t rest, (reconcileAt .standard e (.sample 10)).run.Reaches t rest ∧
      (t.stored e).phase? = some .completed ∧
      SameEnd (t.stored e) e
        ((reconcileAt .standard e (.sample 12)).run.consult (.steady (t.stored e) pod) [])
        ((reconcileAt .standard e (.sample 12)).run.consult (.steady e pod) []) := by
  intro e pod
  let c : Context := ⟨.standard, "sample", .sample 10⟩
  let duration : Duration := ⟨300 * nanosPerSecond, by decide⟩
  have hvalid : e.spec.verdict = .valid (some duration) := by decide
  have hdecision : decision c e = .complete := by decide
  have hstep : step c e = act c e .complete .podKill (some duration) :=
    step_of_acts hvalid rfl hdecision rfl
  have hread : (reconcileAt .standard e (.sample 10)).run.Reaches
      [⟨.get "lab" "sample", .ok (some e)⟩] (step c e).run :=
    .exchange (r := .get "lab" "sample") (Except.ok (some e)) .start
  rw [hstep] at hread
  let status := nextStatus e .completed .completed completedMessage (.sample 10)
  have hreached := Invocation.Reaches.exchange (r := .update e status)
    (Except.ok (e.stamped status "2")) hread
  refine ⟨_, _, hreached, rfl, ?_⟩
  refine interrupted_cycle_resumes rfl hvalid rfl (.inl hdecision) hreached ?_ ?_ rfl ?_
    (Oracle.steady_plays _ e pod) (Oracle.steady_plays _ e pod)
  · intro read hr
    exact (Option.some.inj hr).symm
  · rintro x (_ | ⟨_, _ | ⟨_, ⟨⟩⟩⟩)
    · exact ⟨"2", rfl⟩
    · trivial
  · intro d elapsed hd helapsed
    obtain rfl : duration = d := Option.some.inj hd
    obtain rfl : (Instant.sample 12).elapsed (.sample 0) = elapsed := Option.some.inj helapsed
    decide

end ChaosController
