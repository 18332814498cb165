/-
  ChaosController.Proofs.Conduct

  What an invocation may ask for, told from what it has been answered.

  `Lawful` says which requests may follow a trace. The main result is `lawful_of_reaches`: no
  invocation ever asks for anything else, whatever the replies are. It is proved along the steps
  of the controller, one lemma for each of them.
-/

import ChaosController.Proofs.Writes

namespace ChaosController

/-! ## Faithful replies -/

/-- An accepted status write is answered with the record it was made for, its status replaced
    and its version new. -/
def Exchange.IsFaithful : Exchange → Prop
  | ⟨.update base status, .ok updated⟩ => ∃ version, updated = base.stamped status version
  | _ => True

/-- All accepted status writes of a trace are answered faithfully. -/
def Trace.Faithful (t : Trace) : Prop := ∀ x ∈ t, x.IsFaithful

theorem Trace.Faithful.tail {x : Exchange} {t : Trace} (h : Trace.Faithful (x :: t)) :
    t.Faithful := fun y hy => h y (List.mem_cons_of_mem x hy)

theorem Trace.Faithful.head {base updated : Experiment} {status : Status} {t : Trace}
    (h : Trace.Faithful (⟨.update base status, .ok updated⟩ :: t)) :
    ∃ version, updated = base.stamped status version := h _ List.mem_cons_self

namespace Reconcile

/-! ## Lawful requests -/

/-- After a trace, an invocation that has read `read` goes by `base`: no write has failed, and
    what the record asks for has not changed on the way. -/
structure Stands (t : Trace) (read base : Experiment) : Prop where
  read_eq : t.read? = some read
  base_eq : t.base? = some base
  unfailed : t.failedWrites = 0
  stems : t.Faithful → base.spec = read.spec ∧ base.lastRun? = read.lastRun?

/-- The requests that may follow a trace. -/
def Lawful (c : Context) (t : Trace) : Request → Prop
  | .get _ _ => t = []
  | .list _ _ | .delete _ _ =>
    ∃ read base, Stands t read base ∧ Attacks c read base ∧ t.strike? = none
  | .update base status =>
    ∃ read, Stands t read base ∧ Writes c read base t.strike? status ∧ t.writes < 3
  | .pick _ | .publish _ => True

namespace Stands

variable {t : Trace} {read base : Experiment}

/-- Right after the record is read, the invocation goes by it. -/
theorem of_get (ns name : String) : Stands [⟨.get ns name, .ok (some read)⟩] read read where
  read_eq := by simp [Exchange.fetched?]
  base_eq := by simp [Exchange.record?]
  unfailed := by simp [Exchange.isFailedWrite]
  stems := fun _ => ⟨rfl, rfl⟩

/-- An exchange that hands over no record and is no write leaves an invocation where it
    stands. -/
theorem cons (h : Stands t read base) {x : Exchange} (hr : x.record? = none)
    (hf : x.fetched? = none) (hw : x.isFailedWrite = false) : Stands (x :: t) read base where
  read_eq := by simp [hf, h.read_eq]
  base_eq := by simp [hr, h.base_eq]
  unfailed := by simp [hw, h.unfailed]
  stems := fun ht => h.stems ht.tail

theorem publish (h : Stands t read base) (event : Event) :
    Stands (⟨.publish event, ()⟩ :: t) read base := h.cons rfl rfl rfl

/-- After an accepted write that keeps the time of the last attack, the invocation goes by the
    record that it has got back. -/
theorem updated (h : Stands t read base) {status : Status} (e : Experiment)
    (hrun : status.lastRun = base.lastRun?) :
    Stands (⟨.update base status, .ok e⟩ :: t) read e where
  read_eq := by simp [Exchange.fetched?, h.read_eq]
  base_eq := by simp [Exchange.record?]
  unfailed := by simp [Exchange.isFailedWrite, h.unfailed]
  stems := by
    intro ht
    obtain ⟨hspec, hlast⟩ := h.stems ht.tail
    obtain ⟨version, rfl⟩ := ht.head
    exact ⟨hspec, hrun.trans hlast⟩

end Stands

/-! ## Steps -/

section StepEquations

variable {c : Context} {base : Experiment} {duration : Option Duration}

/-- A duration that cannot be added up aborts the process before anything is decided. -/
theorem step_of_abort (hv : base.spec.verdict = .abort) : step c base = ExceptT.lift .abort := by
  simp only [step, hv]

/-- A valid experiment that needs nothing is looked at again later. -/
theorem step_of_waitFor {delay : Duration} (hv : base.spec.verdict = .valid duration)
    (hd : decision c base = .waitFor delay) : step c base = return .after delay := by
  have hd : schedule base.spec.mode (Verdict.valid duration).duration? base.status c.now =
      .waitFor delay := by rwa [decision, hv] at hd
  simp only [step, hv, hd]

/-- A valid experiment whose run is over for good is left alone. -/
theorem step_of_terminate (hv : base.spec.verdict = .valid duration)
    (hd : decision c base = .terminate) : step c base = return .onChange := by
  have hd : schedule base.spec.mode (Verdict.valid duration).duration? base.status c.now =
      .terminate := by rwa [decision, hv] at hd
  simp only [step, hv, hd]

/-- A valid experiment that is seen for the first time is enrolled. -/
theorem step_of_enroll (hv : base.spec.verdict = .valid duration)
    (hd : decision c base = .enroll) :
    step c base = do
      let _ ← enroll c base
      return .after c.settings.initRevisit := by
  have hd : schedule base.spec.mode (Verdict.valid duration).duration? base.status c.now =
      .enroll := by rwa [decision, hv] at hd
  simp only [step, hv, hd]

/-- A valid experiment with a known attack gets what the decision asks for. -/
theorem step_of_acts {known : Attack} {d : Decision} (hv : base.spec.verdict = .valid duration)
    (hk : base.spec.attack.attack? = some known) (hd : decision c base = d) (hacts : d.acts) :
    step c base = act c base d known duration := by
  have hd : schedule base.spec.mode (Verdict.valid duration).duration? base.status c.now = d := by
    rwa [decision, hv] at hd
  simp only [step, hv, hd]
  cases d with
  | enroll | waitFor | terminate => cases hacts
  | complete | retrigger | attack => simp only [checkAndAct, hk]

end StepEquations

/-- Whatever an invocation asks for after a trace is lawful. -/
abbrev Abides {α : Type} (c : Context) (i : Invocation α) (t : Trace) : Prop :=
  i.Keeps (Lawful c) (fun _ _ => True) t

section Steps

variable {c : Context} {t : Trace} {read base : Experiment}

/-- A failure is recorded, and nothing else is asked for but the event. -/
theorem abides_fail_bind {α : Type} {reason : Reason} {activity : Activity}
    {message note : String} {f : Except Error Experiment → Invocation α}
    (h : Lawful c t (.update base (nextStatus base .failed reason message c.now)))
    (hf : ∀ r t, Abides c (f r) t) :
    Abides c ((fail c base reason activity message note).run >>= f) t :=
  keeps_fail_bind h (fun _ _ => trivial) hf

theorem abides_killed {known : Attack} {duration : Option Duration} {pod : Pod}
    (deletion : Deletion) (h : Stands t read base) (ha : Attacks c read base)
    (hs : t.strike? = some (.ok deletion)) (hn : t.writes < 3)
    (hd : duration = read.spec.verdict.duration?) :
    Abides c (killed c base known duration pod).run t := by
  have hwrite : ∀ reason message, Lawful c t (.update base
      ((nextStatus base (phaseAfterKill c read base) reason message c.now).recordRun c.now)) :=
    fun reason message => ⟨read, h, hs ▸ .killed deletion reason message ha, hn⟩
  -- The phase that is written says whether the run is over with the kill.
  unfold killed
  cases hnext : delayAfterAttack base.spec.mode duration c.settings.recurringInterval with
  | some delay =>
    have hphase : phaseAfterKill c read base = .running := by
      simp [phaseAfterKill, ← hd, hnext]
    simp only [Abides, keeps_write_bind, keeps_publish_bind]
    exact ⟨hphase ▸ hwrite _ _, fun _ => trivial, fun _ => ⟨trivial, trivial⟩⟩
  | none =>
    have hphase : phaseAfterKill c read base = .completed := by
      simp [phaseAfterKill, ← hd, hnext]
    simp only [Abides, publishCompleted, keeps_write_bind, keeps_publish_bind]
    exact ⟨hphase ▸ hwrite _ _, fun _ => trivial, fun _ => ⟨trivial, trivial, trivial⟩⟩

/-- The outcome of an attack that killed nothing is recorded as a failure. -/
theorem lawful_missed {reason : Reason} {message : String} (h : Stands t read base)
    (ha : Attacks c read base) (hs : ∀ deletion, t.strike? ≠ some (.ok deletion))
    (hn : t.writes < 3) :
    Lawful c t (.update base (nextStatus base .failed reason message c.now)) :=
  ⟨read, h, .missed reason message ha hs, hn⟩

theorem abides_attackFailed {known : Attack} {failure : AttackFailure} (h : Stands t read base)
    (ha : Attacks c read base) (hs : ∀ deletion, t.strike? ≠ some (.ok deletion))
    (hn : t.writes < 3) : Abides c (attackFailed c base known failure).run t := by
  cases failure <;>
    exact abides_fail_bind (lawful_missed h ha hs hn) fun _ _ => trivial

theorem abides_noTargets (h : Stands t read base) (ha : Attacks c read base)
    (hs : ∀ deletion, t.strike? ≠ some (.ok deletion)) (hn : t.writes < 3) :
    Abides c (noTargets c base).run t := by
  refine abides_fail_bind (lawful_missed h ha hs hn) fun r _ => ?_
  cases r <;> trivial

theorem abides_attack {known : Attack} {duration : Option Duration} (h : Stands t read base)
    (ha : Attacks c read base) (hs : t.strike? = none) (hn : t.writes < 3)
    (hd : duration = read.spec.verdict.duration?) :
    Abides c (attack c base known duration).run t := by
  unfold attack
  rw [Abides, ExceptT.run_bind_lift]
  -- Lists, picks and deletions hand over no record, so the visit stands where it stood.
  have hlisted (reply : Except Error (List Pod)) :
      Stands (⟨.list base.spec.target.namespace base.spec.target.selector, reply⟩ :: t) read
        base := h.cons rfl rfl rfl
  apply Attack.keeps_execute_bind
  · exact ⟨read, base, h, ha, hs⟩
  · intro cause
    exact abides_attackFailed (hlisted _) ha (by simp [Exchange.deletion?, hs])
      (by simpa [Exchange.isWrite] using hn)
  · exact abides_noTargets (hlisted _) ha (by simp [Exchange.deletion?, hs])
      (by simpa [Exchange.isWrite] using hn)
  · intro pods _
    refine ⟨trivial, fun index => ?_⟩
    have hpicked := (hlisted (.ok pods)).cons (x := ⟨.pick pods.length, index⟩) rfl rfl rfl
    refine ⟨fun _ => ?_, fun pod _ => ⟨?_, fun cause => ?_, fun deletion => ?_⟩⟩
    · exact abides_attackFailed hpicked ha (by simp [Exchange.deletion?, hs])
        (by simpa [Exchange.isWrite] using hn)
    · exact ⟨read, base, hpicked, ha, by simpa [Exchange.isWrite, Exchange.deletion?] using hs⟩
    · exact abides_attackFailed (hpicked.cons rfl rfl rfl) ha
        (by simp [Exchange.isWrite, Exchange.deletion?]) (by simpa [Exchange.isWrite] using hn)
    · exact abides_killed deletion (hpicked.cons rfl rfl rfl) ha
        (by simp [Exchange.isWrite, Exchange.deletion?])
        (by simpa [Exchange.isWrite] using hn) hd

theorem abides_retrigger_attack {known : Attack} {duration : Option Duration}
    (h : Stands t read base) (ha : Attacks c read base) (hne : decision c read ≠ .attack)
    (hs : t.strike? = none) (hn : t.writes < 2) (hd : duration = read.spec.verdict.duration?) :
    Abides c (retrigger c base >>= fun updated => attack c updated known duration).run t := by
  have hwrite : Writes c read base t.strike? (nextStatus base .running .retriggered
      "Recurring experiment re-triggered." c.now) := hs ▸ .retriggered _ ha hne
  simp only [Abides, retrigger, bind_assoc, pure_bind, keeps_write_bind, keeps_publish_bind]
  refine ⟨⟨read, h, hwrite, by omega⟩, fun _ => trivial, fun updated => ⟨trivial, ?_⟩⟩
  refine abides_attack ((h.updated updated (by simp)).publish _) (ha.rebase hne updated) ?_ ?_ hd
  · simp [Exchange.isWrite, Exchange.deletion?]
  · simp only [Trace.writes_cons, Exchange.isWrite, Bool.false_eq_true, if_true, if_false]
    omega

/-- Right after the record is read, the decision on it is acted on. -/
theorem abides_act {known : Attack} {duration : Option Duration} (h : Stands t read read)
    (hv : read.spec.verdict = .valid duration) (hk : read.spec.attack.attack? = some known)
    (hacts : (decision c read).acts) (hs : t.strike? = none) (hn : t.writes = 0) :
    Abides c (act c read (decision c read) known duration).run t := by
  have hd : duration = read.spec.verdict.duration? := by rw [hv]; rfl
  have hattacks (hdecided : decision c read = .attack ∧ read = read ∨
      decision c read = .retrigger ∨ decision c read = .complete ∧ read.spec.mode ≠ .oneShot) :
      Attacks c read read := ⟨⟨duration, hv⟩, ⟨known, hk⟩, hdecided⟩
  unfold act
  split
  -- A run that ends goes on with the next one only if the experiment recurs.
  next hdec =>
    have hwrite (message : String) : Writes c read read t.strike?
        (nextStatus read .completed .completed message c.now) := hs ▸ .completed _ hdec rfl
    simp only [Abides, complete, publishCompleted, bind_assoc, pure_bind, keeps_write_bind,
      keeps_publish_bind]
    refine ⟨⟨read, h, hwrite _, by omega⟩, fun _ => trivial, fun updated => ⟨trivial, ?_⟩⟩
    split
    next => trivial
    next hmode =>
      have ha := hattacks (.inr (.inr ⟨hdec, hmode⟩))
      refine abides_retrigger_attack ((h.updated updated (by simp)).publish _)
        (ha.rebase (by simp [hdec]) updated) (by simp [hdec]) ?_ ?_ hd
      · simp [Exchange.isWrite, Exchange.deletion?]
      · simp [Exchange.isWrite, hn]
  next hdec =>
    exact abides_retrigger_attack h (hattacks (.inr (.inl hdec))) (by simp [hdec]) hs
      (by omega) hd
  -- The other decisions do not get here, except for the attack.
  next hcomplete hretrigger =>
    have hdec : decision c read = .attack := by
      cases hdec : decision c read with
      | attack => rfl
      | complete => exact (hcomplete hdec).elim
      | retrigger => exact (hretrigger hdec).elim
      | enroll | waitFor | terminate => simp [hdec, Decision.acts] at hacts
    exact abides_attack h (hattacks (.inl ⟨hdec, rfl⟩)) hs (by omega) hd

theorem abides_checkAndAct (h : Stands t read read) (hacts : (decision c read).acts)
    (hs : t.strike? = none) (hn : t.writes = 0) :
    Abides c (checkAndAct c read (decision c read) read.spec.verdict).run t := by
  -- A spec that is invalid and an attack that is unknown are recorded in the same way.
  have hfail (reason : Reason) (message : String) : Lawful c t
      (.update read (nextStatus read .failed reason message c.now)) :=
    ⟨read, h, hs ▸ .misconfigured reason message hacts rfl, by omega⟩
  unfold checkAndAct
  split
  next hv hk => exact abides_act h hv hk hacts hs hn
  -- Nothing is asked for after a failure, whether or not it could be recorded.
  next => exact abides_fail_bind (hfail _ _) fun r _ => by cases r <;> trivial
  next => exact abides_fail_bind (hfail _ _) fun r _ => by cases r <;> trivial
  next => trivial

theorem abides_step (h : Stands t read read) (hs : t.strike? = none) (hn : t.writes = 0) :
    Abides c (step c read).run t := by
  unfold step
  split
  next => trivial
  next =>
    split
    next hdec =>
      have hwrite : Writes c read read t.strike? (nextStatus read .pending .initialized
          "Experiment initialized and pending." c.now) := hs ▸ .enrolled _ hdec rfl
      simp only [Abides, enroll, bind_assoc, pure_bind, keeps_write_bind, keeps_publish_bind]
      exact ⟨⟨read, h, hwrite, by omega⟩, fun _ => trivial, fun _ => ⟨trivial, trivial⟩⟩
    next => trivial
    next => trivial
    -- What is left are the decisions that act.
    next hne hnt hnw =>
      refine abides_checkAndAct h ?_ hs hn
      show (decision c read).acts
      cases hdec : decision c read with
      | complete | retrigger | attack => rfl
      | enroll => exact (hne hdec).elim
      | terminate => exact (hnt hdec).elim
      | waitFor delay => exact (hnw delay hdec).elim

end Steps

/-- An invocation asks only what is lawful after what it has been answered. -/
theorem abides_reconcileAt (settings : Settings) (trigger : Experiment) (now : Instant) :
    Abides ⟨settings, trigger.name, now⟩ (reconcileAt settings trigger now).run [] := by
  unfold reconcileAt
  split
  next => trivial
  next ns _ =>
    refine ⟨rfl, fun reply => ?_⟩
    match reply with
    | .error e => trivial
    | .ok none => trivial
    | .ok (some read) =>
      refine abides_step (.of_get ns trigger.name) ?_ ?_
      · simp [Exchange.isWrite, Exchange.deletion?]
      · simp [Exchange.isWrite]

/-- No invocation ever asks for anything that is not lawful, whatever the replies are. -/
theorem lawful_of_reaches {settings : Settings} {trigger : Experiment} {now : Instant}
    {t : Trace} {r : Request} {resume : r.Reply → Invocation (Except Error Revisit)}
    (h : (reconcileAt settings trigger now).run.Reaches t (.ask r resume)) :
    Lawful ⟨settings, trigger.name, now⟩ t r :=
  ((abides_reconcileAt settings trigger now).reaches h).1

/-- An invocation reads the record first of all, and goes on with the step of what it reads. -/
theorem reaches_step_of_get {settings : Settings} {trigger read : Experiment} {now : Instant}
    {t : Trace} {rest : Invocation (Except Error Revisit)} {ns name : String}
    (h : (reconcileAt settings trigger now).run.Reaches t rest)
    (hread : ⟨.get ns name, .ok (some read)⟩ ∈ t) :
    ∃ later, t = later ++ [⟨.get ns name, .ok (some read)⟩] ∧
      (step ⟨settings, trigger.name, now⟩ read).run.Reaches later rest := by
  obtain ⟨later, earlier, ht⟩ := List.append_of_mem hread
  obtain rfl : earlier = [] := (abides_reconcileAt settings trigger now).asked h ht
  cases hns : trigger.metadata.namespace with
  | none =>
    simp only [reconcileAt, hns] at h
    obtain ⟨rfl, -⟩ := Invocation.reaches_done h
    cases hread
  | some ns' =>
    simp only [reconcileAt, hns] at h
    obtain ⟨rfl, -⟩ | ⟨reply, later', rfl, hlater⟩ := Invocation.reaches_ask h
    · cases hread
    · obtain ⟨rfl, hx⟩ := List.append_inj' ht rfl
      cases hx
      exact ⟨later', rfl, hlater⟩

end Reconcile

end ChaosController
