/-
  ChaosController.Proofs.Misconfiguration

  Experiments that are misconfigured: their spec does not pass the check, or their attack is not
  known.

  Without a duration there is nothing to wait for, so the schedule may well ask for the attack of
  an invalid spec. The check stands before it: a record that is misconfigured is enrolled, marked
  as failed or left alone, or the process aborts (`step_of_isMisconfigured`). So nothing is ever
  listed, picked or deleted for it, and a one-shot record is written at most twice
  (`misconfigured_never_acts`).
-/

import ChaosController.Proofs.Announcements
import ChaosController.Proofs.Phases
import ChaosController.Proofs.Resumption
import ChaosController.Proofs.Validation

namespace ChaosController

/-! ## Misconfigured records -/

/-- No attack can be carried out: the spec does not pass the check, or its attack is not known. -/
def Spec.IsMisconfigured (s : Spec) : Prop :=
  (∀ duration, s.verdict ≠ .valid duration) ∨ s.attack.attack? = none

namespace Reconcile

/-- What is found out about a misconfigured record: the status that says so, the severity of the
    event and the revisit that is asked for. -/
inductive Finding (c : Context) (read : Experiment) : Status → Severity → Revisit → Prop
  | unseen (message : String) (h : read.phase? = none) :
      Finding c read (nextStatus read .pending .initialized message c.now) .normal
        (.after c.settings.initRevisit)
  | wrong (reason : Reason) (message : String) (h : IsDue read) :
      Finding c read (nextStatus read .failed reason message c.now) .warning .onChange

/-- Records a finding, and tells of it if the record could be written. -/
def report (base : Experiment) (status : Status) (severity : Severity) (reason : Reason)
    (activity : Activity) (note : String) (revisit : Revisit) : Attempt Revisit := do
  let updated ← write base status
  publish updated severity reason activity note
  return revisit

variable {c : Context} {base read : Experiment} {status : Status} {severity : Severity}
  {revisit : Revisit}

theorem enroll_bind_return : (do let _ ← enroll c base; return revisit) =
    report base (nextStatus base .pending .initialized "Experiment initialized and pending." c.now)
      .normal .initialized .reconcile "ChaosExperiment is initialized." revisit := by
  simp only [enroll, report, bind_assoc, pure_bind]

theorem fail_bind_return {reason : Reason} {activity : Activity} {message note : String} :
    (do let _ ← fail c base reason activity message note; return revisit) =
      report base (nextStatus base .failed reason message c.now) .warning reason activity note
        revisit := by
  simp only [fail, report, bind_assoc, pure_bind]

theorem Finding.phase (h : Finding c read status severity revisit) :
    status.phase = some (if read.phase? = none then .pending else .failed) := by
  cases h with
  | unseen message hnone => rw [if_pos hnone, phase_nextStatus]
  | wrong reason message hdue =>
    rw [if_neg (Option.isSome_iff_ne_none.1 hdue.enrolled), phase_nextStatus]

theorem Finding.lastRun (h : Finding c read status severity revisit) :
    status.lastRun = read.lastRun? := by
  cases h <;> exact lastRun_nextStatus ..

/-- A failure is told by a warning, and leaves nothing to do until the record changes. -/
theorem Finding.of_failed (h : Finding c read status severity revisit)
    (hfailed : status.phase = some .failed) : severity = .warning ∧ revisit = .onChange := by
  cases h with
  | unseen message hnone =>
    rw [phase_nextStatus] at hfailed
    cases hfailed
  | wrong => exact ⟨rfl, rfl⟩

/-- Whatever the schedule asks to be acted on is due. -/
theorem isDue_of_acts (h : (decision c read).acts) : IsDue read := by
  cases hd : decision c read with
  | complete =>
    obtain ⟨⟨phase, hphase, hunfinished⟩, -⟩ := of_schedule_eq_complete hd
    refine ⟨Option.isSome_of_eq_some hphase, fun _ other hother => ?_⟩
    obtain rfl := Option.some.inj (hphase.symm.trans hother)
    exact hunfinished
  | attack =>
    obtain ⟨⟨phase, hphase, hunfinished⟩, -⟩ := of_schedule_eq_attack hd
    refine ⟨Option.isSome_of_eq_some hphase, fun _ other hother => ?_⟩
    obtain rfl := Option.some.inj (hphase.symm.trans hother)
    exact hunfinished
  | retrigger =>
    obtain ⟨⟨phase, hphase, -⟩, hrecurring, -⟩ := of_schedule_eq_retrigger hd
    refine ⟨Option.isSome_of_eq_some hphase, fun honce => ?_⟩
    rw [hrecurring] at honce
    cases honce
  | enroll | waitFor | terminate => simp [hd, Decision.acts] at h

/-- What the controller does with a misconfigured record. -/
inductive Treatment (c : Context) (read : Experiment) : Attempt Revisit → Prop
  | aborts : Treatment c read (ExceptT.lift .abort)
  | waits (revisit : Revisit) : Treatment c read (return revisit)
  | reports {status : Status} {severity : Severity} {revisit : Revisit} (reason : Reason)
      (activity : Activity) (note : String) (h : Finding c read status severity revisit) :
      Treatment c read (report read status severity reason activity note revisit)

/-- The check stands before every decision that acts. -/
theorem treatment_checkAndAct (h : read.spec.IsMisconfigured) (hdue : IsDue read)
    (decision : Decision) : Treatment c read (checkAndAct c read decision read.spec.verdict) := by
  unfold checkAndAct
  split
  next duration known hv hk =>
    obtain hinvalid | hunknown := h
    · exact absurd hv (hinvalid duration)
    · rw [hunknown] at hk
      cases hk
  next =>
    rw [unsupported, fail_bind_return]
    exact .reports _ _ _ (.wrong _ _ hdue)
  next =>
    rw [misconfigured, fail_bind_return]
    exact .reports _ _ _ (.wrong _ _ hdue)
  next => exact .aborts

/-- However the schedule decides on a misconfigured record, no attack is begun. -/
theorem treatment_step (h : read.spec.IsMisconfigured) : Treatment c read (step c read) := by
  unfold step
  split
  next => exact .aborts
  next =>
    split
    next hdec =>
      rw [enroll_bind_return]
      exact .reports _ _ _ (.unseen _ (of_schedule_eq_enroll hdec))
    next => exact .waits _
    next => exact .waits _
    -- What is left are the decisions that act.
    next hne hnt hnw =>
      refine treatment_checkAndAct h (isDue_of_acts (c := c) ?_) _
      show (decision c read).acts
      cases hdec : decision c read with
      | complete | retrigger | attack => rfl
      | enroll => exact (hne hdec).elim
      | terminate => exact (hnt hdec).elim
      | waitFor delay => exact (hnw delay hdec).elim

/-- How far a report has come. -/
theorem reaches_report {reason : Reason} {activity : Activity} {note : String} {t : Trace}
    {rest : Invocation (Except Error Revisit)}
    (h : (report base status severity reason activity note revisit).run.Reaches t rest) :
    (t = [] ∧ ∃ resume, rest = .ask (.update base status) resume) ∨
      (∃ cause, t = [⟨.update base status, .error cause⟩] ∧ rest = .done (.error cause)) ∨
      ∃ (updated : Experiment) (event : Event), event.severity = severity ∧
        (t = [⟨.update base status, .ok updated⟩] ∧
            rest = .ask (.publish event) (fun _ => .done (.ok revisit)) ∨
          t = [⟨.publish event, ()⟩, ⟨.update base status, .ok updated⟩] ∧
            rest = .done (.ok revisit)) := by
  obtain ⟨rfl, rfl⟩ | ⟨reply, later, rfl, hlater⟩ := Invocation.reaches_ask h
  · exact .inl ⟨rfl, _, rfl⟩
  · right
    cases reply with
    | error cause =>
      obtain ⟨rfl, rfl⟩ := Invocation.reaches_done hlater
      exact .inl ⟨cause, rfl, rfl⟩
    | ok updated =>
      refine .inr ⟨updated,
        ⟨updated.reference, severity, reason.text, activity.text, some note⟩, rfl, ?_⟩
      obtain ⟨rfl, rfl⟩ | ⟨_, after, rfl, hafter⟩ := Invocation.reaches_ask hlater
      · exact .inl ⟨rfl, rfl⟩
      · obtain ⟨rfl, rfl⟩ := Invocation.reaches_done hafter
        exact .inr ⟨rfl, rfl⟩

/-- An invocation reads only once. -/
theorem read?_of_get {settings : Settings} {trigger : Experiment} {now : Instant} {t : Trace}
    {rest : Invocation (Except Error Revisit)} {ns name : String}
    (h : (reconcileAt settings trigger now).run.Reaches t rest)
    (hread : ⟨.get ns name, .ok (some read)⟩ ∈ t) : t.read? = some read := by
  obtain ⟨later, ht, -⟩ := reaches_step_of_get h hread
  have hlater : ∀ x ∈ later, x.fetched? = none := by
    intro x hx
    obtain ⟨after, before, rfl⟩ := List.append_of_mem hx
    have hlawful := (abides_reconcileAt settings trigger now).asked h
      (ht.trans (List.append_assoc after (x :: before) _))
    obtain ⟨r, reply⟩ := x
    cases r with
    | get => cases List.append_eq_nil_iff.1 hlawful |>.2
    | list | pick | delete | update | publish => rfl
  rw [ht, Trace.read?, List.findSome?_append, List.findSome?_eq_none_iff.2 hlater]
  rfl

end Reconcile

/-! ## Visits -/

/-- The request that an invocation waits for. -/
def Invocation.pending? {α : Type} : Invocation α → Option Request
  | ask r _ => some r
  | done _ | abort => none

namespace Visit

/-- All that a visit has asked for, the latest first, whether or not it has been answered. -/
def requests (v : Visit) : List Request := v.rest.pending?.toList ++ v.trace.map Exchange.request

/-- What a visit does with a misconfigured record. -/
inductive Tame (v : Visit) : Prop
  | silent (h : ∀ r ∈ v.requests, ∃ ns name, r = .get ns name)
  | reporting {read : Experiment} {status : Status} {severity : Severity} {revisit : Revisit}
      (ns name : String) (hread : v.trace.read? = some read)
      (hfinding : Reconcile.Finding v.context read status severity revisit)
      (hrequests : v.requests = [.update read status, .get ns name])
      (hrefused : ∀ base status updated, ⟨.update base status, .ok updated⟩ ∉ v.trace)
  | reported {read : Experiment} {status : Status} {event : Event} {revisit : Revisit}
      (ns name : String) (hread : v.trace.read? = some read)
      (hfinding : Reconcile.Finding v.context read status event.severity revisit)
      (hrequests : v.requests = [.publish event, .update read status, .get ns name])
      (hrest : v.rest = .ask (.publish event) (fun _ => .done (.ok revisit)) ∨
        v.rest = .done (.ok revisit))

/-- A visit that has read a misconfigured record does with it what the check tells. -/
theorem tame_of_treatment {v : Visit} {read : Experiment} {ns name : String}
    {attempt : Attempt Revisit} {later : Trace}
    (htrace : v.trace = later ++ [⟨.get ns name, .ok (some read)⟩])
    (hread : v.trace.read? = some read) (h : Reconcile.Treatment v.context read attempt)
    (hlater : attempt.run.Reaches later v.rest) : v.Tame := by
  have hsilent (hnil : later = []) (hover : v.rest.pending? = none) : v.Tame := by
    refine .silent fun r hr => ⟨ns, name, ?_⟩
    simpa [requests, htrace, hnil, hover] using hr
  cases h with
  | aborts =>
    obtain ⟨hnil, hrest⟩ := Invocation.reaches_abort hlater
    exact hsilent hnil (by rw [hrest]; rfl)
  | waits revisit =>
    obtain ⟨hnil, hrest⟩ := Invocation.reaches_done hlater
    exact hsilent hnil (by rw [hrest]; rfl)
  | reports reason activity note hfinding =>
    obtain ⟨rfl, resume, hrest⟩ | ⟨cause, rfl, hrest⟩ | ⟨updated, event, rfl, hended⟩ :=
      Reconcile.reaches_report hlater
    · exact .reporting ns name hread hfinding (by rw [requests, htrace, hrest]; rfl)
        (by simp [htrace])
    · exact .reporting ns name hread hfinding (by rw [requests, htrace, hrest]; rfl)
        (by simp [htrace])
    · obtain ⟨rfl, hrest⟩ | ⟨rfl, hrest⟩ := hended
      · exact .reported ns name hread hfinding (by rw [requests, htrace, hrest]; rfl) (.inl hrest)
      · exact .reported ns name hread hfinding (by rw [requests, htrace, hrest]; rfl) (.inr hrest)

/-- A visit that has not read any other record than a misconfigured one is tame. -/
theorem tame (v : Visit) (h : ∀ read, v.trace.read? = some read → read.spec.IsMisconfigured) :
    v.Tame := by
  cases hns : v.trigger.metadata.namespace with
  | none =>
    have hreaches := v.reaches
    simp only [reconcileAt, hns] at hreaches
    obtain ⟨htrace, hrest⟩ := Invocation.reaches_done hreaches
    exact .silent (by simp [requests, Invocation.pending?, htrace, hrest])
  | some ns =>
    have hreaches := v.reaches
    simp only [reconcileAt, hns] at hreaches
    obtain ⟨htrace, hrest⟩ | ⟨reply, later, htrace, hlater⟩ := Invocation.reaches_ask hreaches
    · exact .silent (by simp [requests, Invocation.pending?, htrace, hrest])
    · cases reply with
      | error cause =>
        obtain ⟨rfl, hrest⟩ := Invocation.reaches_done hlater
        exact .silent (by simp [requests, Invocation.pending?, htrace, hrest])
      | ok answer =>
        obtain _ | read := answer
        · obtain ⟨rfl, hrest⟩ := Invocation.reaches_done hlater
          exact .silent (by simp [requests, Invocation.pending?, htrace, hrest])
        have hget : ⟨.get ns v.trigger.name, .ok (some read)⟩ ∈ v.trace := by simp [htrace]
        have hread := Reconcile.read?_of_get v.reaches hget
        exact tame_of_treatment htrace hread (Reconcile.treatment_step (h read hread)) hlater

namespace Tame

variable {v : Visit}

/-- Nothing is listed, picked or deleted. -/
theorem isAttack_eq_false (h : v.Tame) : ∀ r ∈ v.requests, r.isAttack = false := by
  cases h with
  | silent h =>
    intro r hr
    obtain ⟨ns, name, rfl⟩ := h r hr
    rfl
  | reporting ns name _ _ hrequests => simp [hrequests, Request.isAttack]
  | reported ns name _ _ hrequests => simp [hrequests, Request.isAttack]

/-- No more than one status is written, even if the write fails. -/
theorem countP_status?_le_one (h : v.Tame) :
    v.requests.countP (·.status?.isSome) ≤ 1 := by
  cases h with
  | silent h =>
    have hzero : v.requests.countP (·.status?.isSome) = 0 := by
      refine List.countP_eq_zero.2 fun r hr => ?_
      obtain ⟨ns, name, rfl⟩ := h r hr
      simp [Request.status?]
    omega
  | reporting ns name _ _ hrequests => simp [hrequests, Request.status?]
  | reported ns name _ _ hrequests => simp [hrequests, Request.status?]

/-- A status is written to the record that has been read, and says what has been found out about
    it. -/
theorem finding_of_update (h : v.Tame) {base : Experiment} {status : Status}
    (hr : .update base status ∈ v.requests) :
    v.trace.read? = some base ∧
      ∃ severity revisit, Reconcile.Finding v.context base status severity revisit := by
  cases h with
  | silent h =>
    obtain ⟨ns, name, hget⟩ := h _ hr
    cases hget
  | @reporting read found _ _ ns name hread hfinding hrequests =>
    have heq : base = read ∧ status = found := by simpa [hrequests] using hr
    obtain ⟨rfl, rfl⟩ := heq
    exact ⟨hread, _, _, hfinding⟩
  | @reported read found _ _ ns name hread hfinding hrequests =>
    have heq : base = read ∧ status = found := by simpa [hrequests] using hr
    obtain ⟨rfl, rfl⟩ := heq
    exact ⟨hread, _, _, hfinding⟩

/-- Once a failure has been recorded, one warning tells of it, and the visit waits for a change. -/
theorem warns_of_failed (h : v.Tame) {base updated : Experiment} {status : Status}
    (hx : ⟨.update base status, .ok updated⟩ ∈ v.trace) (hfailed : status.phase = some .failed) :
    ∃ event : Event, event.severity = .warning ∧ v.requests.filterMap Request.event? = [event] ∧
      (v.rest = .ask (.publish event) (fun _ => .done (.ok .onChange)) ∨
        v.rest = .done (.ok .onChange)) := by
  have hr : .update base status ∈ v.requests :=
    List.mem_append_right _ (List.mem_map_of_mem hx)
  cases h with
  | silent h =>
    obtain ⟨ns, name, hget⟩ := h _ hr
    cases hget
  | reporting ns name hread hfinding hrequests hrefused => exact absurd hx (hrefused _ _ _)
  | @reported read found event revisit ns name hread hfinding hrequests hrest =>
    have heq : base = read ∧ status = found := by simpa [hrequests] using hr
    obtain ⟨rfl, rfl⟩ := heq
    obtain ⟨hwarning, rfl⟩ := hfinding.of_failed hfailed
    exact ⟨event, hwarning, by rw [hrequests]; rfl, hrest⟩

end Tame

end Visit

/-! ## Runs -/

/-- The number of statuses that may still be written to a misconfigured one-shot record. -/
def Experiment.reportsLeft (e : Experiment) : Nat :=
  e.phase?.elim 2 fun phase => if phase.isFinished then 0 else 1

namespace World

variable {env : Environment} {e : Experiment} {w : World}

/-- What a status write does to a misconfigured record: it is enrolled if it has no phase, and it
    fails otherwise. -/
theorem written_of_isMisconfigured {older newer : Revision} (h : older.Succeeds env newer)
    (ha : newer.author.isSome) (hbad : older.record.spec.IsMisconfigured) :
    ∃ c status severity revisit version,
      Reconcile.Finding c older.record status severity revisit ∧
        newer.record = older.record.stamped status version := by
  cases h with
  | edited => cases ha
  | @written v status resume version hr hf =>
    obtain ⟨read, hstands, -⟩ := v.lawful hr
    have htame : v.Tame := by
      refine v.tame fun other hother => ?_
      obtain rfl := Option.some.inj (hstands.read_eq.symm.trans hother)
      rwa [← (hstands.stems hf).1]
    have hasked : .update older.record status ∈ v.requests := by
      simp [Visit.requests, hr, Invocation.pending?]
    obtain ⟨-, severity, revisit, hfinding⟩ := htame.finding_of_update hasked
    exact ⟨v.context, status, severity, revisit, version, hfinding, rfl⟩

/-- Every status that is written to a misconfigured one-shot record leaves one less to be
    written. -/
theorem reportsLeft_lt {c : Reconcile.Context} {older : Experiment} {status : Status}
    {severity : Severity} {revisit : Revisit}
    (h : Reconcile.Finding c older status severity revisit) (hmode : older.spec.mode = .oneShot)
    (version : String) : (older.stamped status version).reportsLeft < older.reportsLeft := by
  cases h with
  | unseen message hnone => simp [Experiment.reportsLeft, hnone, Phase.isFinished]
  | wrong reason message hdue =>
    obtain ⟨phase, hphase⟩ := Option.isSome_iff_exists.1 hdue.enrolled
    have hunfinished := hdue.unfinished hmode phase hphase
    have hleft : older.reportsLeft = 1 := by simp [Experiment.reportsLeft, hphase, hunfinished]
    rw [hleft]
    exact Nat.lt_one_iff.2 rfl

/-- A misconfigured one-shot record is written no more often than it may be. -/
theorem Reachable.acceptedWrites_add_reportsLeft (hfresh : env.NeverReuses e)
    (hbad : e.spec.IsMisconfigured) (hmode : e.spec.mode = .oneShot)
    (hedits : ∀ a b, env.edits a b → b.spec = a.spec ∧ b.status = a.status)
    (h : Reachable env e w) :
    w.store.acceptedWrites + w.store.current.record.reportsLeft ≤ 2 := by
  induction h with
  | initial =>
    show 0 + e.reportsLeft ≤ 2
    unfold Experiment.reportsLeft
    cases e.phase? with
    | none => exact Nat.le_refl 2
    | some phase => cases phase <;> simp [Phase.isFinished]
  | @step w w' hw hs ih =>
    obtain hstore | ⟨rev, hstore, hsucceeds⟩ := (hw.sound hfresh).step_store hs
    · rw [hstore]
      exact ih
    · have hspec := hw.spec_eq hfresh (fun a b hab => (hedits a b hab).1) _ List.mem_cons_self
      simp only [hstore, Store.acceptedWrites, Store.revisions_put, List.countP_cons,
        Store.current_put] at ih ⊢
      cases ha : rev.author with
      | none =>
        obtain ⟨-, hstatus⟩ := hsucceeds.of_author_eq_none ha hedits
        have hleft : rev.record.reportsLeft = w.store.current.record.reportsLeft := by
          simp [Experiment.reportsLeft, Experiment.phase?, hstatus]
        simpa [hleft] using ih
      | some v =>
        obtain ⟨c, status, severity, revisit, version, hfinding, hrecord⟩ :=
          written_of_isMisconfigured hsucceeds (Option.isSome_of_eq_some ha) (hspec ▸ hbad)
        have hlt := reportsLeft_lt hfinding (hspec ▸ hmode) version
        rw [← hrecord] at hlt
        simp only [Option.isSome_some, if_true]
        omega

/-- A misconfigured experiment never acts, in any run in which no version is used twice and the
    spec is fixed. No visit lists, picks or deletes anything. It asks for at most one status
    write, for the record it has read, which is pending if the record has no phase and failed
    otherwise; and once it has got a failure accepted, one event warns of it and the visit waits
    for a change. So do the records that are stored follow one another, with the time of the last
    attack as it was. If nobody else writes the status, that time is the same in all of them, and
    no more than two statuses are accepted for a one-shot record. -/
theorem misconfigured_never_acts (hfresh : env.NeverReuses e) (hbad : e.spec.IsMisconfigured)
    (hedits : ∀ a b, env.edits a b → b.spec = a.spec) (hw : Reachable env e w) :
    (∀ v ∈ w.visits,
      (∀ r ∈ v.requests, r.isAttack = false) ∧
      v.requests.countP (·.status?.isSome) ≤ 1 ∧
      (∀ base status, .update base status ∈ v.requests → v.trace.read? = some base ∧
        status.phase = some (if base.phase? = none then .pending else .failed) ∧
        status.lastRun = base.lastRun?) ∧
      ∀ base status updated, ⟨.update base status, .ok updated⟩ ∈ v.trace →
        status.phase = some .failed → ∃ event : Event, event.severity = .warning ∧
          v.requests.filterMap Request.event? = [event] ∧
          (v.rest = .ask (.publish event) (fun _ => .done (.ok .onChange)) ∨
            v.rest = .done (.ok .onChange))) ∧
    (∀ later earlier older newer, w.store.revisions = later ++ newer :: older :: earlier →
      newer.author.isSome →
        newer.record.phase? = some (if older.record.phase? = none then .pending else .failed) ∧
        newer.record.lastRun? = older.record.lastRun?) ∧
    ((∀ a b, env.edits a b → b.status = a.status) →
      (∀ rev ∈ w.store.revisions, rev.record.lastRun? = e.lastRun?) ∧
      (e.spec.mode = .oneShot → w.store.acceptedWrites ≤ 2)) := by
  have hsound := hw.sound hfresh
  have hspec := hw.spec_eq hfresh hedits
  refine ⟨fun v hv => ?_, fun later earlier older newer hsplit ha => ?_, fun hstatus => ⟨?_, ?_⟩⟩
  · have htame : v.Tame := by
      refine v.tame fun read hread => ?_
      obtain ⟨rev, hrev, rfl⟩ := hsound.held_read hv hread
      rwa [hspec rev hrev]
    refine ⟨htame.isAttack_eq_false, htame.countP_status?_le_one, fun base status hr => ?_,
      fun base status updated hx hfailed => htame.warns_of_failed hx hfailed⟩
    obtain ⟨hread, severity, revisit, hfinding⟩ := htame.finding_of_update hr
    exact ⟨hread, hfinding.phase, hfinding.lastRun⟩
  · have hchain := (hsplit ▸ hsound.succession).right_of_append
    obtain ⟨c, status, severity, revisit, version, hfinding, hrecord⟩ :=
      written_of_isMisconfigured (List.isChain_cons_cons.1 hchain).1 ha
        (hspec older (by simp [hsplit]) ▸ hbad)
    rw [hrecord]
    exact ⟨hfinding.phase, hfinding.lastRun⟩
  · have hall := hw.forall_revisions (p := fun a => a.spec = e.spec ∧ a.lastRun? = e.lastRun?)
      hfresh ⟨rfl, rfl⟩ fun older newer hs ho => ?_
    · exact fun rev hrev => (hall rev hrev).2
    cases ha : newer.author with
    | none =>
      obtain ⟨hspec, hstatus⟩ :=
        hs.of_author_eq_none ha fun a b hab => ⟨hedits a b hab, hstatus a b hab⟩
      have hrun : newer.record.lastRun? = older.record.lastRun? :=
        congrArg (·.bind Status.lastRun) hstatus
      exact ⟨hspec.trans ho.1, hrun.trans ho.2⟩
    | some v =>
      obtain ⟨c, status, severity, revisit, version, hfinding, hrecord⟩ :=
        written_of_isMisconfigured hs (Option.isSome_of_eq_some ha) (ho.1 ▸ hbad)
      rw [hrecord]
      exact ⟨ho.1, hfinding.lastRun.trans ho.2⟩
  · intro hmode
    have hle := hw.acceptedWrites_add_reportsLeft hfresh hbad hmode
      fun a b hab => ⟨hedits a b hab, hstatus a b hab⟩
    omega

/-- A one-shot experiment without labels: the first visit enrolls it, and the second one marks it
    as failed and is about to warn. -/
theorem misconfigured_never_acts_unlabeled :
    ∃ w, Reachable (.fresh fun _ _ => False)
        { Experiment.sample .oneShot none none none with
          spec := ⟨⟨"lab", ⟨[], by decide⟩⟩, .podKill, none, .oneShot⟩ } w ∧
      w.store.acceptedWrites = 2 ∧ w.store.acceptedWrites ≤ 2 ∧
      w.store.current.record.phase? = some .failed ∧
      w.store.current.record.lastRun? = none ∧
      ∃ v ∈ w.visits, (∀ r ∈ v.requests, r.isAttack = false) ∧
        ∃ event : Event, event.severity = .warning ∧
          v.requests.filterMap Request.event? = [event] := by
  have h : Reachable (.fresh fun _ _ => False)
    { Experiment.sample .oneShot none none none with
      spec := ⟨⟨"lab", ⟨[], by decide⟩⟩, .podKill, none, .oneShot⟩ } _ := .initial
  have h := h.step (.launch .standard (.sample .oneShot none none none) (.sample 0))
  have h := h.answer [] (.get "lab" "sample") _ rfl (Store.answers_get_current ..)
  have h := h.answer [] (.update _ _) _ rfl (Store.answers_accepted "2" (by simp; decide) rfl)
  have h := h.step (.launch .standard (.sample .oneShot none none none) (.sample 1))
  have h := h.answer [] (.get "lab" "sample") _ rfl (Store.answers_get_current ..)
  have h := h.answer [] (.update _ _) _ rfl (Store.answers_accepted "3" (by simp; decide) rfl)
  have hbad : Spec.IsMisconfigured (Experiment.spec { Experiment.sample .oneShot none none none with
      spec := ⟨⟨"lab", ⟨[], by decide⟩⟩, .podKill, none, .oneShot⟩ }) := by
    refine .inl fun duration hvalid => ?_
    have hinvalid : Verdict.invalid .noLabels = .valid duration := hvalid
    cases hinvalid
  obtain ⟨hvisits, -, hstatus⟩ := misconfigured_never_acts (Environment.fresh_neverReuses _ _) hbad
    (fun _ _ hedit => hedit.elim) h
  obtain ⟨hrun, hcount⟩ := hstatus fun _ _ hedit => hedit.elim
  obtain ⟨hidle, -, -, hwarns⟩ := hvisits _ List.mem_cons_self
  obtain ⟨event, hwarning, hevents, -⟩ := hwarns _ _ _ List.mem_cons_self rfl
  exact ⟨_, h, rfl, hcount rfl, rfl, hrun _ List.mem_cons_self, _, List.mem_cons_self, hidle,
    event, hwarning, hevents⟩

end World

end ChaosController
