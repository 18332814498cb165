/-
  ChaosController.Proofs.OneShot

  How often a one-shot experiment kills.

  A record is settled once its attack has been recorded. Every status write of a one-shot
  experiment but the first leaves the record settled, and no attack goes by a settled one. Over
  a run, each deletion is therefore paid for: by a status write that failed, by a visit that
  still owes its write, or by the one accepted write that settles the record
  (`oneShot_deletions_le`). A deletion counts as soon as it is replied to; between request and
  reply it would count on both sides of the bound.
-/

import ChaosController.Proofs.Versions

namespace ChaosController

/-! ## Settled records -/

namespace Experiment

/-- Whether the attack of a one-shot experiment has been recorded, or given up. -/
def isSettled (e : Experiment) : Bool :=
  match e.phase? with
  | some .completed | some .failed => true
  | some .running => e.lastRun?.isSome
  | some .pending | none => false

theorem isSettled_congr {e e' : Experiment} (h : e'.status = e.status) :
    e'.isSettled = e.isSettled := by
  simp [isSettled, phase?, lastRun?, h]

end Experiment

namespace Reconcile

variable {c : Context} {read base : Experiment} {strike : Option (Except Error Deletion)}
  {status : Status}

/-- No attack on a one-shot experiment goes by a settled record. -/
theorem Attacks.not_settled (h : Attacks c read base) (hmode : read.spec.mode = .oneShot) :
    base.isSettled = false := by
  obtain ⟨-, rfl, ⟨phase, hphase, hfinished⟩, hrun⟩ := h.of_oneShot hmode
  cases phase <;> simp_all [Experiment.isSettled, Phase.isFinished]

/-- Every status write of a one-shot experiment but the first one settles the record. -/
theorem Writes.settles (h : Writes c read base strike status)
    (hmode : read.spec.mode = .oneShot) (version : String) :
    base.phase? = none ∧ strike = none ∨ (base.stamped status version).isSettled = true := by
  cases h with
  | enrolled message hd hb => exact .inl ⟨hb ▸ of_schedule_eq_enroll hd, rfl⟩
  | completed | misconfigured | missed => exact .inr (by simp [Experiment.isSettled])
  | retriggered message ha hd => exact absurd (ha.of_oneShot hmode).1 hd
  | killed deletion reason message ha =>
    refine .inr ?_
    obtain hp | hp := phaseAfterKill_cases c read base <;> simp [Experiment.isSettled, hp]

/-- A settled record stays settled. -/
theorem Writes.isSettled_stamped (h : Writes c read base strike status)
    (hmode : read.spec.mode = .oneShot) (version : String) (hb : base.isSettled = true) :
    (base.stamped status version).isSettled = true := by
  refine (h.settles hmode version).resolve_left fun hnone => ?_
  simp [Experiment.isSettled, hnone.1] at hb

end Reconcile

/-! ## Counting -/

/-- What the stored record pays for: one deletion once it is settled. -/
def Store.credit (s : Store) : Nat := if s.current.record.isSettled then 1 else 0

namespace World

/-- What all visits have asked and been told. -/
def exchanges (w : World) : List Exchange := w.visits.flatMap Visit.trace

/-- The number of deletions that have been asked for. -/
def deletions (w : World) : Nat := w.exchanges.countP Exchange.isDeletion

/-- The number of status writes that failed. -/
def failedWrites (w : World) : Nat := w.exchanges.countP Exchange.isFailedWrite

/-- The number of visits that have asked for a deletion and not made their next status write. -/
def openStrikes (w : World) : Nat := w.visits.countP fun v => v.trace.strike?.isSome

/-- Every deletion is paid for. -/
def Balanced (w : World) : Prop :=
  w.deletions ≤ w.failedWrites + w.openStrikes + w.store.credit

variable {env : Environment} {w : World}

/-- An exchange keeps the balance if it keeps that of its own visit and the store. -/
theorem Balanced.reply {earlier later : List Visit} {v : Visit} {r : Request}
    {resume : r.Reply → Invocation (Except Error Revisit)} {reply : r.Reply} {after : Store}
    (h : w.Balanced) (hv : w.visits = earlier ++ v :: later) (hr : v.rest = .ask r resume)
    (hx : (if Exchange.isDeletion ⟨r, reply⟩ then 1 else 0) +
        (if v.trace.strike?.isSome then 1 else 0) + w.store.credit ≤
      (if Exchange.isFailedWrite ⟨r, reply⟩ then 1 else 0) +
        (if (v.answered hr reply).trace.strike?.isSome then 1 else 0) + after.credit) :
    Balanced ⟨after, earlier ++ v.answered hr reply :: later⟩ := by
  simp only [Balanced, deletions, failedWrites, exchanges, openStrikes, hv, List.flatMap_append,
    List.flatMap_cons, List.countP_append, List.countP_cons, Visit.trace_answered] at h hx ⊢
  omega

/-- The record that a visit has read has the spec that is fixed. -/
theorem Reachable.read_spec {e : Experiment} (hfresh : env.NeverReuses e)
    (hedits : ∀ a b, env.edits a b → b.spec = a.spec) (hw : Reachable env e w) {v : Visit}
    (hv : v ∈ w.visits) {read : Experiment} (hread : v.trace.read? = some read) :
    read.spec = e.spec := by
  obtain ⟨rev, hrev, rfl⟩ := (hw.sound hfresh).held_read hv hread
  exact hw.spec_eq hfresh hedits rev hrev

/-- An accepted status write of a one-shot experiment pays for the deletion before it. -/
theorem credit_accepted {v : Visit} {status : Status}
    {resume : Except Error Experiment → Invocation (Except Error Revisit)}
    (hr : v.rest = .ask (.update w.store.current.record status) resume)
    (hmode : ∀ read, v.trace.read? = some read → read.spec.mode = .oneShot) (version : String) :
    (if v.trace.strike?.isSome then 1 else 0) + w.store.credit ≤
      (w.store.put ⟨w.store.current.record.stamped status version, some v⟩).credit := by
  obtain ⟨read, hstands, hwrites, -⟩ := v.lawful hr
  have hmode := hmode read hstands.read_eq
  cases hs : v.trace.strike?.isSome with
  | true =>
    -- The write records the outcome of an attack, so the record becomes settled just now.
    have hbefore := (hwrites.attacks hs).not_settled hmode
    have hafter := (hwrites.settles hmode version).resolve_left fun h => by simp [h.2] at hs
    simp [Store.credit, hbefore, hafter]
  | false =>
    -- Nothing has to be paid for; all that matters is that credit is not lost.
    cases hbefore : w.store.current.record.isSettled with
    | true => simp [Store.credit, hbefore, hwrites.isSettled_stamped hmode version hbefore]
    | false => simp [Store.credit, hbefore]

theorem Reachable.balanced {e : Experiment} (hfresh : env.NeverReuses e)
    (hmode : e.spec.mode = .oneShot)
    (hedits : ∀ a b, env.edits a b → b.spec = a.spec ∧ b.status = a.status)
    (h : Reachable env e w) : w.Balanced := by
  induction h with
  | initial => exact Nat.zero_le _
  | @step w w' hw hs ih =>
    cases hs with
    -- A new visit has asked for nothing, and other writers leave the status alone.
    | launch => simpa [Balanced, deletions, failedWrites, exchanges, openStrikes] using ih
    | @edit e version he hv =>
      have hsettled : (e.versioned version).isSettled = w.store.current.record.isSettled :=
        Experiment.isSettled_congr (hedits _ _ he).2
      simpa [Balanced, deletions, failedWrites, exchanges, openStrikes, Store.credit, hsettled]
        using ih
    | @reply earlier later v r resume reply after hv hr ha =>
      have hmem : v ∈ w.visits := by simp [hv]
      refine ih.reply hv hr ?_
      cases (hw.sound hfresh).effect hmem hr ha with
      | other hx =>
        cases r with
        | delete ns name =>
          -- The deletion is paid for by the visit, which now owes its write.
          obtain ⟨-, -, -, -, hstrike⟩ := v.lawful hr
          simp [Exchange.isDeletion, Exchange.deletion?, Exchange.isFailedWrite,
            Exchange.isWrite, hstrike]
        | update => cases hx
        | get | list | pick | publish =>
          simp [Exchange.isDeletion, Exchange.deletion?, Exchange.isFailedWrite,
            Exchange.isWrite]
      | failed base status error =>
        -- The visit owes nothing any more, and the failed write pays.
        by_cases hstrike : v.trace.strike?.isSome <;>
          simp [Exchange.isDeletion, Exchange.deletion?, Exchange.isFailedWrite,
            Exchange.isWrite, hstrike]
      | @accepted status version reply hissued hreply =>
        -- The visit owes nothing any more, and the record is settled.
        have hcredit := credit_accepted hr (fun read hread => by
          rw [hw.read_spec hfresh (fun a b hab => (hedits a b hab).1) hmem hread, hmode]) version
        simp only [Exchange.isDeletion, Exchange.deletion?, Exchange.isWrite,
          Visit.trace_answered, Trace.strike?_cons, Option.isSome_none, if_true,
          Bool.false_eq_true, if_false]
        omega

/-- A one-shot experiment kills at most once, but for status writes that are lost. In every run
    in which no version is used twice and the spec is fixed, the deletions are at most one more
    than the status writes that failed and the visits that still owe the write after their
    deletion. -/
theorem oneShot_deletions_le {env : Environment} {e : Experiment} {w : World}
    (hmode : e.spec.mode = .oneShot) (hfresh : env.NeverReuses e)
    (hedits : ∀ a b, env.edits a b → b.spec = a.spec ∧ b.status = a.status)
    (hw : Reachable env e w) : w.deletions ≤ 1 + w.failedWrites + w.openStrikes := by
  have hbalanced := hw.balanced hfresh hmode hedits
  have hcredit : w.store.credit ≤ 1 := by
    unfold Store.credit
    split <;> omega
  unfold Balanced at hbalanced
  omega

/-- Two visits that have read the same record both kill. The cluster accepts the first of their
    writes and refuses the second one, and the bound is met exactly. -/
theorem oneShot_deletions_race :
    ∃ w, Reachable (.counting fun _ _ => False) (.sample .oneShot none (some .pending) none) w ∧
      w.deletions = 2 ∧ w.failedWrites = 1 ∧ w.openStrikes = 0 ∧
      w.deletions ≤ 1 + w.failedWrites + w.openStrikes := by
  have h : Reachable (.counting fun _ _ => False) (.sample .oneShot none (some .pending) none) _ :=
    .initial
  -- Both visits read the record before either of them goes on.
  have h := h.step (.launch .standard (.sample .oneShot none none none) (.sample 0))
  have h := h.answer [] (.get "lab" "sample") _ rfl (Store.answers_get_current ..)
  have h := h.step (.launch .standard (.sample .oneShot none none none) (.sample 1))
  have h := h.answer [] (.get "lab" "sample") _ rfl (Store.answers_get_current ..)
  have h := h.answer [] (.list "lab" _) (.ok [⟨"lab", "a"⟩]) rfl rfl
  have h := h.answer [] (.pick 1) (0 : Nat) rfl rfl
  have h := h.answer [] (.delete "lab" "a") (.ok .deleted) rfl rfl
  have h := h.answer [] (.update _ _) _ rfl
    (.inr ⟨nextVersion (some "1"), ⟨rfl, by decide⟩, rfl, .inl rfl⟩)
  have h := h.answer [_] (.list "lab" _) (.ok [⟨"lab", "b"⟩]) rfl rfl
  have h := h.answer [_] (.pick 1) (0 : Nat) rfl rfl
  have h := h.answer [_] (.delete "lab" "b") (.ok .deleted) rfl rfl
  have h := h.answer [_] (.update _ _) (.error (.conflict "sample")) rfl
    (.inl ⟨⟨_, rfl⟩, rfl⟩)
  exact ⟨_, h, rfl, rfl, rfl, oneShot_deletions_le rfl (Environment.counting_neverReuses _ _)
    (fun _ _ hedit => hedit.elim) h⟩

end World

end ChaosController
