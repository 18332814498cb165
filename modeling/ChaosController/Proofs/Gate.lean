/-
  ChaosController.Proofs.Gate

  What separates two recorded kills.

  Other writers may change a record as they like, except for the time of its last attack. That
  time is therefore the one of the last kill that was recorded (`lastRun_eq_lastKill`). A kill
  is recorded only over the record that the attack was decided on, so the decision's gate was
  open with respect to that very time (`recorded_kill_gated`).
-/

import ChaosController.Proofs.Overlap

namespace ChaosController

/-! ## Recorded kills -/

/-- The time of the kill that a revision records. -/
def Revision.kill? (rev : Revision) : Option Instant := rev.author.bind Visit.kill?

/-- The time of the last kill that a history records. -/
def lastKill? (history : List Revision) : Option Instant := history.findSome? Revision.kill?

theorem lastKill?_cons (rev : Revision) (history : List Revision) :
    lastKill? (rev :: history) = rev.kill?.or (lastKill? history) := by
  cases h : rev.kill? <;> simp [lastKill?, List.findSome?, h]

/-- The environments in which other writers leave the time of the last attack alone. -/
def Environment.KeepsLastRun (env : Environment) : Prop :=
  ∀ older newer, env.edits older newer → newer.lastRun? = older.lastRun?

namespace Revision

variable {env : Environment} {older newer : Revision}

/-- The time of the last attack is that of the kill which a revision records, if any. -/
theorem Succeeds.lastRun? (h : older.Succeeds env newer) (hedits : env.KeepsLastRun) :
    newer.record.lastRun? = newer.kill?.or older.record.lastRun? := by
  cases h with
  | @edited e version he => exact hedits older.record e he
  | @written v status resume version hr hf =>
    obtain ⟨read, hstands, hwrites, -⟩ := v.lawful hr
    exact hwrites.lastRun

/-- What holds when a kill is recorded at `now` over a record that was last attacked at
    `last`: the experiment that was read is `read`. -/
structure Gated (read : Experiment) (now : Instant) (last : Option Instant) : Prop where
  valid : ∃ duration, read.spec.verdict = .valid duration
  spaced : ∀ d l, read.spec.verdict.duration? = some d → last = some l → d ≤ now.elapsed l
  once : read.spec.mode = .oneShot → last = none

/-- A gate that is open with respect to the last kill or else the first record is open with
    respect to the last kill. -/
theorem Gated.of_or {read : Experiment} {now : Instant} {kill first : Option Instant}
    (h : Gated read now (kill.or first)) : Gated read now kill where
  valid := h.valid
  spaced := fun d l hd hl => h.spaced d l hd (by rw [hl, Option.some_or])
  once := fun hmode => (Option.or_eq_none_iff.1 (h.once hmode)).1

/-- A kill is recorded only when the gate was open with respect to the revision before. -/
theorem Succeeds.gated (h : older.Succeeds env newer) {v : Visit} {now : Instant}
    (hauthor : newer.author = some v) (hkill : v.kill? = some now) :
    now = v.now ∧ ∃ read, v.trace.read? = some read ∧ Gated read now older.record.lastRun? := by
  cases h with
  | edited version he => cases hauthor
  | @written u status resume version hr hf =>
    obtain rfl := Option.some.inj hauthor
    obtain ⟨read, hstands, hwrites, -⟩ := u.lawful hr
    obtain ⟨hstrike, hnow⟩ := Reconcile.isSome_of_killTime hkill
    -- The visit decided on what it read, and the time of the last attack has not moved since.
    have hattacks := hwrites.attacks hstrike
    obtain ⟨-, hlast⟩ := hstands.stems hf
    refine ⟨hnow, read, hstands.read_eq, hattacks.valid, fun d l hd hl => ?_, fun hmode => ?_⟩
    · refine hattacks.gateOpen d _ hd ?_
      rw [hnow]
      show read.lastRun?.map u.now.elapsed = _
      rw [← hlast, hl]
      rfl
    · rw [hlast]
      exact (hattacks.of_oneShot hmode).2.2.2

end Revision

/-! ## Histories -/

namespace World

variable {env : Environment} {e : Experiment}

/-- In a history that begins with `e`, the time of the last attack is that of the last kill
    recorded; before any kill it is that of `e`. -/
theorem lastRun_eq_lastKill (hedits : env.KeepsLastRun) {history : List Revision}
    {rev : Revision}
    (hchain : (rev :: history).IsChain fun newer older => older.Succeeds env newer)
    (hfirst : (rev :: history).getLast? = some ⟨e, none⟩) :
    rev.record.lastRun? = (lastKill? (rev :: history)).or e.lastRun? := by
  induction history generalizing rev with
  | nil =>
    obtain rfl : rev = ⟨e, none⟩ := by simpa using hfirst
    rfl
  | cons older history ih =>
    obtain ⟨hsucceeds, hrest⟩ := List.isChain_cons_cons.1 hchain
    rw [List.getLast?_cons_cons] at hfirst
    rw [hsucceeds.lastRun? hedits, ih hrest hfirst, lastKill?_cons rev, Option.or_assoc]

/-- Two recorded kills are never closer than the duration in force, and a one-shot kill is
    recorded at most once. Whenever a kill is recorded, the gate of the experiment that was
    read is open with respect to the revision before and to the last kill recorded before; and
    nothing but a recorded kill moves the time of the last attack. -/
theorem recorded_kill_gated (hfresh : env.NeverReuses e) (hedits : env.KeepsLastRun) {w : World}
    (hw : Reachable env e w) {later earlier : List Revision} {older newer : Revision}
    (hsplit : w.store.revisions = later ++ newer :: older :: earlier) :
    newer.record.lastRun? = newer.kill?.or older.record.lastRun? ∧
      ∀ now, newer.kill? = some now →
        ∃ v read, newer.author = some v ∧ v.now = now ∧ v.trace.read? = some read ∧
          Revision.Gated read now older.record.lastRun? ∧
          Revision.Gated read now (lastKill? (older :: earlier)) := by
  -- Both gates are one and the same: `older` was last attacked by the last recorded kill.
  have hchain := (hsplit ▸ (hw.sound hfresh).succession).right_of_append
  obtain ⟨hsucceeds, hearlier⟩ := List.isChain_cons_cons.1 hchain
  have hfirst : (older :: earlier).getLast? = some ⟨e, none⟩ := by
    have hlast := hw.getLast?_revisions
    rw [hsplit, List.getLast?_append_of_ne_nil _ (List.cons_ne_nil _ _),
      List.getLast?_cons_cons] at hlast
    exact hlast
  have hlast := lastRun_eq_lastKill hedits hearlier hfirst
  refine ⟨hsucceeds.lastRun? hedits, fun now hkill => ?_⟩
  obtain ⟨v, hauthor, hkill⟩ := Option.bind_eq_some_iff.1 hkill
  obtain ⟨hnow, read, hread, hgated⟩ := hsucceeds.gated hauthor hkill
  exact ⟨v, read, hauthor, hnow.symm, hread, hgated, (hlast ▸ hgated).of_or⟩

/-- A kill that is recorded five minutes after the last one, although the phase has been
    reset in the meantime. -/
theorem recorded_kill_gated_reset :
    ∃ w newer older earlier,
      Reachable (.fresh fun a b => b.lastRun? = a.lastRun?)
        (.sample .recurring (some "5m") (some .pending) (some (.sample 0))) w ∧
      w.store.revisions = newer :: older :: earlier ∧ newer.kill? = some (.sample 5) ∧
      ∃ v read, newer.author = some v ∧ v.trace.read? = some read ∧
        Revision.Gated read (.sample 5) older.record.lastRun? := by
  have hact : Reconcile.step ⟨.standard, "sample", .sample 5⟩
      (.sample .recurring (some "5m") (some .pending) (some (.sample 0))) = _ :=
    Reconcile.step_of_acts (d := .complete)
      (show Spec.verdict _ = .valid (some ⟨300 * nanosPerSecond, by decide⟩) by decide)
      (show AttackKind.attack? _ = some .podKill from rfl)
      (by decide) rfl
  have h : Reachable (.fresh fun a b => b.lastRun? = a.lastRun?)
    (.sample .recurring (some "5m") (some .pending) (some (.sample 0))) _ := .initial
  have h := h.step (.launch .standard (.sample .recurring none none none) (.sample 5))
  have h := h.answer [] (.get "lab" "sample") _ rfl (Store.answers_get_current ..)
  have h := h.answer [] (.update _ _) _
    ((Visit.rest_answered_get rfl rfl).trans ((congrArg ExceptT.run hact).trans rfl))
    (Store.answers_accepted "2" (by simp) rfl)
  have h := h.answer [] (.publish _) () rfl rfl
  have h := h.answer [] (.update _ _) _ rfl (Store.answers_accepted "3" (by simp) rfl)
  have h := h.answer [] (.publish _) () rfl rfl
  have h := h.answer [] (.list "lab" _) (.ok [⟨"lab", "a"⟩]) rfl rfl
  have h := h.answer [] (.pick 1) (0 : Nat) rfl rfl
  have h := h.answer [] (.delete "lab" "a") (.ok .deleted) rfl rfl
  have h := h.answer [] (.update _ _) _ rfl (Store.answers_accepted "4" (by simp) rfl)
  obtain ⟨-, hgated⟩ := recorded_kill_gated (Environment.fresh_neverReuses _ _)
    (fun _ _ hedit => hedit) h (show _ = [] ++ _ :: _ :: _ from rfl)
  obtain ⟨v, read, hauthor, -, hread, hgated, -⟩ := hgated (.sample 5) rfl
  exact ⟨_, _, _, _, h, rfl, rfl, v, read, hauthor, hread, hgated⟩

end World

end ChaosController
