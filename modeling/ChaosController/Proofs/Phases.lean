/-
  ChaosController.Proofs.Phases

  The phases that a record goes through.

  A record that begins without a status tells by its phase whether it has been attacked: a
  pending one has not, a completed one has (`Orderly`). A one-shot record moves on with every
  status that is written to it, from no phase to pending, to running and to one of the two
  phases that end its run; so it is written at most three times (`orderly_phases`).
-/

import ChaosController.Proofs.Overlap

namespace ChaosController

/-! ## Records -/

/-- The place of a phase in the life of a one-shot experiment. Both phases that end a run come
    last. -/
def Phase.rank : Phase → Nat
  | pending => 1
  | running => 2
  | completed | failed => 3

namespace Experiment

/-- How far a record has come; without a phase it has not begun. -/
def rank (e : Experiment) : Nat := e.phase?.elim 0 Phase.rank

/-- Whether the run of a record is over. -/
def isFinished (e : Experiment) : Bool := e.phase?.any Phase.isFinished

/-- The phase of a record says whether it has been attacked. -/
structure Orderly (e : Experiment) : Prop where
  unseen : e.phase? = none → e.lastRun? = none
  pending : e.phase? = some .pending → e.lastRun? = none
  completed : e.phase? = some .completed → e.lastRun?.isSome

/-- A record that is running has been attacked. -/
def Begun (e : Experiment) : Prop := e.phase? = some .running → e.lastRun?.isSome

theorem Orderly.of_status_eq {a b : Experiment} (h : a.Orderly) (hs : b.status = a.status) :
    b.Orderly := by
  have hphase : b.phase? = a.phase? := congrArg (·.bind Status.phase) hs
  have hrun : b.lastRun? = a.lastRun? := congrArg (·.bind Status.lastRun) hs
  constructor
  · rw [hphase, hrun]
    exact h.unseen
  · rw [hphase, hrun]
    exact h.pending
  · rw [hphase, hrun]
    exact h.completed

theorem Begun.of_status_eq {a b : Experiment} (h : a.Begun) (hs : b.status = a.status) :
    b.Begun := by
  have hphase : b.phase? = a.phase? := congrArg (·.bind Status.phase) hs
  have hrun : b.lastRun? = a.lastRun? := congrArg (·.bind Status.lastRun) hs
  unfold Begun
  rw [hphase, hrun]
  exact h

theorem rank_of_status_eq {a b : Experiment} (hs : b.status = a.status) : b.rank = a.rank := by
  simp [rank, phase?, hs]

theorem rank_eq_three_iff {e : Experiment} : e.rank = 3 ↔ e.isFinished = true := by
  unfold rank isFinished
  cases e.phase? with
  | none => simp
  | some phase => cases phase <;> simp [Phase.rank, Phase.isFinished]

theorem rank_le_three (e : Experiment) : e.rank ≤ 3 := by
  unfold rank
  cases e.phase? with
  | none => exact Nat.zero_le 3
  | some phase => cases phase <;> simp [Phase.rank]

end Experiment

/-! ## Status writes -/

namespace Reconcile

variable {c : Context} {read base : Experiment} {strike : Option (Except Error Deletion)}
  {status : Status}

/-- A status that is written to an orderly record leaves it orderly. -/
theorem Writes.orderly (h : Writes c read base strike status) (hb : base.Orderly)
    (version : String) : (base.stamped status version).Orderly := by
  cases h with
  | enrolled message hd hbase =>
    have hnone : base.phase? = none := hbase ▸ of_schedule_eq_enroll hd
    exact ⟨by simp, fun _ => by simp [hb.unseen hnone], by simp⟩
  | completed message hd hbase =>
    have helapsed : (elapsed? read.status c.now).isSome := (of_schedule_eq_complete hd).2.1
    have hrun : base.lastRun?.isSome := by
      rw [hbase]
      rwa [elapsed?, Option.isSome_map] at helapsed
    exact ⟨by simp, by simp, fun _ => by simpa using hrun⟩
  | misconfigured | missed | retriggered => exact ⟨by simp, by simp, by simp⟩
  | killed deletion reason message ha =>
    refine ⟨by simp, fun hpending => ?_, fun _ => by simp⟩
    obtain hp | hp := phaseAfterKill_cases c read base <;> simp [hp] at hpending

/-- Only a kill lets a one-shot record run. -/
theorem Writes.begun (h : Writes c read base strike status)
    (hmode : read.spec.mode = .oneShot) (version : String) :
    (base.stamped status version).Begun := by
  intro hrunning
  cases h with
  | enrolled | completed | misconfigured | missed => simp at hrunning
  | retriggered message ha hd => exact absurd (ha.of_oneShot hmode).1 hd
  | killed => simp

/-- Nothing is written to a one-shot record whose run is over. -/
theorem Writes.isFinished_eq_false (h : Writes c read base strike status)
    (hmode : read.spec.mode = .oneShot) : base.isFinished = false := by
  have hunfinished {phase : Phase} (hp : base.phase? = some phase)
      (hf : phase.isFinished = false) : base.isFinished = false := by
    simp [Experiment.isFinished, hp, hf]
  have hattack (ha : Attacks c read base) : base.isFinished = false := by
    obtain ⟨-, hb, ⟨phase, hp, hf⟩, -⟩ := ha.of_oneShot hmode
    exact hunfinished (hb ▸ hp) hf
  cases h with
  | enrolled message hd hb =>
    have hnone : base.phase? = none := hb ▸ of_schedule_eq_enroll hd
    simp [Experiment.isFinished, hnone]
  | completed message hd hb =>
    obtain ⟨⟨phase, hp, hf⟩, -⟩ := of_schedule_eq_complete hd
    exact hunfinished (hb ▸ hp) hf
  | misconfigured reason message hacts hb =>
    cases hd : decision c read with
    | complete =>
      obtain ⟨⟨phase, hp, hf⟩, -⟩ := of_schedule_eq_complete hd
      exact hunfinished (hb ▸ hp) hf
    | attack =>
      obtain ⟨⟨phase, hp, hf⟩, -⟩ := of_schedule_eq_attack hd
      exact hunfinished (hb ▸ hp) hf
    | retrigger =>
      rw [(of_schedule_eq_retrigger hd).2.1] at hmode
      cases hmode
    | enroll | waitFor | terminate => simp [hd, Decision.acts] at hacts
  | retriggered message ha | missed reason message ha | killed deletion reason message ha =>
    exact hattack ha

/-- Every status that is written to a one-shot record takes it further. -/
theorem Writes.rank_lt (h : Writes c read base strike status)
    (hmode : read.spec.mode = .oneShot) (hbegun : base.Begun) (version : String) :
    base.rank < (base.stamped status version).rank := by
  have hbase : base.rank < 3 := by
    refine Nat.lt_of_le_of_ne base.rank_le_three fun hthree => ?_
    rw [Experiment.rank_eq_three_iff, h.isFinished_eq_false hmode] at hthree
    cases hthree
  cases h with
  | enrolled message hd hb =>
    have hnone : base.phase? = none := hb ▸ of_schedule_eq_enroll hd
    simp [Experiment.rank, hnone, Phase.rank]
  | completed | misconfigured | missed => simpa [Experiment.rank, Phase.rank] using hbase
  | retriggered message ha hd => exact absurd (ha.of_oneShot hmode).1 hd
  | killed deletion reason message ha =>
    -- The record has not been attacked before, so it is still pending.
    obtain ⟨-, hb, ⟨phase, hp, hf⟩, hrun⟩ := ha.of_oneShot hmode
    subst hb
    have hpending : base.phase? = some .pending := by
      cases phase with
      | pending => exact hp
      | running => exact absurd (hbegun hp) (by simp [hrun])
      | completed | failed => cases hf
    obtain hkill | hkill := phaseAfterKill_cases c base base <;>
      simp [Experiment.rank, hpending, hkill, Phase.rank]

end Reconcile

/-! ## Histories -/

namespace Revision

variable {env : Environment} {older newer : Revision}

theorem Succeeds.orderly (h : older.Succeeds env newer)
    (hedits : ∀ a b, env.edits a b → b.status = a.status) (ho : older.record.Orderly) :
    newer.record.Orderly := by
  cases h with
  | @edited e version he => exact ho.of_status_eq (hedits older.record e he)
  | @written v status resume version hr hf =>
    obtain ⟨read, -, hwrites, -⟩ := v.lawful hr
    exact hwrites.orderly ho version

/-- A visit that writes has read a record with the spec of the one it writes to. -/
theorem Succeeds.writes (h : older.Succeeds env newer) (ha : newer.author.isSome) :
    ∃ c read strike status version, read.spec = older.record.spec ∧
      Reconcile.Writes c read older.record strike status ∧
      newer.record = older.record.stamped status version := by
  cases h with
  | edited => cases ha
  | @written v status resume version hr hf =>
    obtain ⟨read, hstands, hwrites, -⟩ := v.lawful hr
    exact ⟨_, read, _, status, version, (hstands.stems hf).1.symm, hwrites, rfl⟩

/-- What other writers leave of a record: its spec and its status. -/
theorem Succeeds.of_author_eq_none (h : older.Succeeds env newer) (ha : newer.author = none)
    (hedits : ∀ a b, env.edits a b → b.spec = a.spec ∧ b.status = a.status) :
    newer.record.spec = older.record.spec ∧ newer.record.status = older.record.status := by
  cases h with
  | @edited e version he => exact hedits older.record e he
  | written => cases ha

/-- A one-shot record that has been attacked if it runs stays so. -/
theorem Succeeds.begun (h : older.Succeeds env newer)
    (hedits : ∀ a b, env.edits a b → b.spec = a.spec ∧ b.status = a.status)
    (ho : older.record.spec.mode = .oneShot ∧ older.record.Begun) :
    newer.record.spec.mode = .oneShot ∧ newer.record.Begun := by
  cases ha : newer.author with
  | none =>
    obtain ⟨hspec, hstatus⟩ := h.of_author_eq_none ha hedits
    exact ⟨hspec ▸ ho.1, ho.2.of_status_eq hstatus⟩
  | some v =>
    obtain ⟨c, read, strike, status, version, hspec, hwrites, hnewer⟩ :=
      h.writes (Option.isSome_of_eq_some ha)
    rw [hnewer]
    exact ⟨ho.1, hwrites.begun (hspec ▸ ho.1) version⟩

/-- A status that is written to a one-shot record takes it further. -/
theorem Succeeds.rank_lt (h : older.Succeeds env newer) (ha : newer.author.isSome)
    (ho : older.record.spec.mode = .oneShot ∧ older.record.Begun) :
    older.record.rank < newer.record.rank := by
  obtain ⟨c, read, strike, status, version, hspec, hwrites, hnewer⟩ := h.writes ha
  rw [hnewer]
  exact hwrites.rank_lt (hspec ▸ ho.1) ho.2 version

end Revision

/-- The number of status writes that a store has accepted. -/
def Store.acceptedWrites (s : Store) : Nat := s.revisions.countP fun rev => rev.author.isSome

namespace World

variable {env : Environment} {e : Experiment} {w : World}

/-- A one-shot record is never written more often than it has moved on. -/
theorem Reachable.acceptedWrites_le_rank (hfresh : env.NeverReuses e)
    (hmode : e.spec.mode = .oneShot) (hbegun : e.Begun)
    (hedits : ∀ a b, env.edits a b → b.spec = a.spec ∧ b.status = a.status)
    (h : Reachable env e w) : w.store.acceptedWrites ≤ w.store.current.record.rank := by
  have hall {w : World} (hw : Reachable env e w) := hw.forall_revisions
    (p := fun a => a.spec.mode = .oneShot ∧ a.Begun) hfresh ⟨hmode, hbegun⟩
    fun older newer hs => hs.begun hedits
  -- Only a status write counts, and it raises the rank; another writer leaves both as they are.
  induction h with
  | initial => exact Nat.zero_le _
  | @step w w' hw hs ih =>
    obtain hstore | ⟨rev, hstore, hsucceeds⟩ := (hw.sound hfresh).step_store hs
    · rw [hstore]
      exact ih
    · simp only [hstore, Store.acceptedWrites, Store.revisions_put, List.countP_cons,
        Store.current_put] at ih ⊢
      cases ha : rev.author with
      | none =>
        have hrank := Experiment.rank_of_status_eq (hsucceeds.of_author_eq_none ha hedits).2
        simpa [hrank] using ih
      | some v =>
        have hlt := hsucceeds.rank_lt (Option.isSome_of_eq_some ha)
          (hall hw _ List.mem_cons_self)
        simp only [Option.isSome_some, if_true]
        omega

/-- The phases of a record that begins without a status and whose status nobody else writes, in
    every run in which no version is used twice. A pending record has never been attacked, and a
    completed one has. If the experiment is a one-shot one and its spec is fixed, a running
    record has been attacked as well, every status that is accepted takes the record further, and
    no more than three are ever accepted. -/
theorem orderly_phases (hfresh : env.NeverReuses e) (hstatus : e.status = none)
    (hedits : ∀ a b, env.edits a b → b.status = a.status) (hw : Reachable env e w) :
    (∀ rev ∈ w.store.revisions,
      (rev.record.phase? = some .pending → rev.record.lastRun? = none) ∧
      (rev.record.phase? = some .completed → rev.record.lastRun?.isSome)) ∧
    (e.spec.mode = .oneShot → (∀ a b, env.edits a b → b.spec = a.spec) →
      (∀ rev ∈ w.store.revisions,
        rev.record.phase? = some .running → rev.record.lastRun?.isSome) ∧
      (∀ later earlier older newer, w.store.revisions = later ++ newer :: older :: earlier →
        newer.author.isSome → older.record.rank < newer.record.rank) ∧
      w.store.acceptedWrites ≤ 3) := by
  have hphase : e.phase? = none := by simp [Experiment.phase?, hstatus]
  have hrun : e.lastRun? = none := by simp [Experiment.lastRun?, hstatus]
  constructor
  -- A record is orderly when it begins, and every record that succeeds an orderly one is.
  · intro rev hrev
    have horderly := hw.forall_revisions (p := Experiment.Orderly) hfresh
      ⟨fun _ => hrun, fun _ => hrun, by simp [hphase]⟩
      (fun older newer hs => hs.orderly hedits) rev hrev
    exact ⟨horderly.pending, horderly.completed⟩
  · intro hmode hspec
    have hboth (a b : Experiment) (hab : env.edits a b) : b.spec = a.spec ∧ b.status = a.status :=
      ⟨hspec a b hab, hedits a b hab⟩
    have hbegun : e.Begun := by simp [Experiment.Begun, hphase]
    have hall := hw.forall_revisions (p := fun a => a.spec.mode = .oneShot ∧ a.Begun) hfresh
      ⟨hmode, hbegun⟩ fun older newer hs => hs.begun hboth
    refine ⟨fun rev hrev => (hall rev hrev).2, fun later earlier older newer hsplit ha => ?_, ?_⟩
    · have hchain := (hsplit ▸ (hw.sound hfresh).succession).right_of_append
      exact (List.isChain_cons_cons.1 hchain).1.rank_lt ha (hall older (by simp [hsplit]))
    · exact (hw.acceptedWrites_le_rank hfresh hmode hbegun hboth).trans
        (Experiment.rank_le_three _)

/-- The whole life of a one-shot experiment with a duration: it is enrolled, kills a pod and
    ends, with the three status writes that it may make. -/
theorem orderly_phases_life :
    ∃ w, Reachable (.fresh fun _ _ => False)
        { Experiment.sample .oneShot (some "5m") none none with status := none } w ∧
      w.store.acceptedWrites = 3 ∧ w.store.current.record.phase? = some .completed ∧
      w.store.current.record.lastRun?.isSome ∧
      (∀ later earlier older newer, w.store.revisions = later ++ newer :: older :: earlier →
        newer.author.isSome → older.record.rank < newer.record.rank) ∧
      w.store.acceptedWrites ≤ 3 := by
  have hverdict (e : Experiment)
      (he : e.spec = (Experiment.sample .oneShot (some "5m") none none).spec) :
      e.spec.verdict = .valid (some ⟨300 * nanosPerSecond, by decide⟩) := by
    rw [he]
    decide
  have hdecision (c : Reconcile.Context) (e : Experiment)
      (he : e.spec = (Experiment.sample .oneShot (some "5m") none none).spec) :
      Reconcile.decision c e =
        schedule .oneShot (some ⟨300 * nanosPerSecond, by decide⟩) e.status c.now := by
    rw [Reconcile.decision, hverdict e he, he]
    rfl
  have h : Reachable (.fresh fun _ _ => False)
    { Experiment.sample .oneShot (some "5m") none none with status := none } _ := .initial
  -- Three visits, each of which begins when the one before has written its status.
  have h := h.step (.launch .standard (.sample .oneShot none none none) (.sample 0))
  have h := h.answer [] (.get "lab" "sample") _ rfl (Store.answers_get_current ..)
  have h := h.answer [] (.update _ _) _
    ((Visit.rest_answered_get rfl rfl).trans
      ((congrArg ExceptT.run
        (Reconcile.step_of_enroll (by exact hverdict _ rfl) (by rfl))).trans rfl))
    (Store.answers_accepted "2" (by simp; decide) rfl)
  have h := h.step (.launch .standard (.sample .oneShot none none none) (.sample 1))
  have h := h.answer [] (.get "lab" "sample") _ rfl (Store.answers_get_current ..)
  have h := h.answer [] (.list "lab" _) (.ok [⟨"lab", "a"⟩])
    ((Visit.rest_answered_get rfl rfl).trans
      ((congrArg ExceptT.run
        (Reconcile.step_of_acts (d := .attack) (by exact hverdict _ rfl) (by rfl)
          (by refine (hdecision _ _ ?_).trans ?_ <;> rfl) rfl)).trans rfl)) rfl
  have h := h.answer [] (.pick 1) (0 : Nat) rfl rfl
  have h := h.answer [] (.delete "lab" "a") (.ok .deleted) rfl rfl
  have h := h.answer [] (.update _ _) _ rfl (Store.answers_accepted "3" (by simp; decide) rfl)
  have h := h.step (.launch .standard (.sample .oneShot none none none) (.sample 6))
  have h := h.answer [] (.get "lab" "sample") _ rfl (Store.answers_get_current ..)
  have h := h.answer [] (.update _ _) _
    ((Visit.rest_answered_get rfl rfl).trans
      ((congrArg ExceptT.run
        (Reconcile.step_of_acts (d := .complete) (by exact hverdict _ rfl) (by rfl)
          (by refine (hdecision _ _ ?_).trans ?_ <;> rfl) rfl)).trans rfl))
    (Store.answers_accepted "4" (by simp; decide) rfl)
  obtain ⟨hall, hone⟩ := orderly_phases (Environment.fresh_neverReuses _ _) rfl
    (fun _ _ hedit => hedit.elim) h
  obtain ⟨-, hrises, hcount⟩ := hone rfl fun _ _ hedit => hedit.elim
  exact ⟨_, h, rfl, rfl, (hall _ List.mem_cons_self).2 rfl, hrises, hcount⟩

end World

end ChaosController
