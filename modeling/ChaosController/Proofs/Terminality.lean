/-
  ChaosController.Proofs.Terminality

  The end of a one-shot experiment.

  Once the run of a one-shot record is over, no invocation writes to it again, not even one that
  has read it before and is about to write: it would have to write over the record that it goes
  by, and no status is written to a finished record. An invocation that reads a finished record
  asks for nothing else (`finished_oneShot_stays`), unless the duration aborts the process.
-/

import ChaosController.Proofs.Phases
import Mathlib.Logic.Relation

namespace ChaosController

namespace Reconcile

variable {c : Context} {read : Experiment}

/-- A one-shot record whose run is over needs nothing. -/
theorem decision_of_finished (hmode : read.spec.mode = .oneShot)
    (hfinished : read.isFinished = true) : decision c read = .terminate := by
  obtain ⟨phase, hphase, hover⟩ := (Option.any_eq_true _ _).1 hfinished
  have hphase : read.status.bind Status.phase = some phase := hphase
  simp [decision, schedule, hphase, hover, scheduleFinished, hmode]

/-- The step of a one-shot record whose run is over asks for nothing. -/
theorem step_of_finished (hmode : read.spec.mode = .oneShot)
    (hfinished : read.isFinished = true) :
    (step c read).run = if read.spec.verdict = .abort then .abort else .done (.ok .onChange) := by
  cases hv : read.spec.verdict with
  | abort =>
    rw [step_of_abort hv]
    rfl
  | valid duration =>
    rw [step_of_terminate hv (decision_of_finished hmode hfinished)]
    rfl
  -- An invalid spec leaves no duration, but the phase alone decides.
  | invalid cause =>
    have hd : schedule read.spec.mode (Verdict.invalid cause).duration? read.status c.now =
        .terminate := by
      rw [← hv]
      exact decision_of_finished hmode hfinished
    simp only [step, hv, hd]
    rfl

end Reconcile

namespace World

variable {env : Environment} {e : Experiment} {w : World}

/-- Only another writer changes a one-shot record whose run is over. -/
theorem author_eq_none_of_finished {older newer : Revision} (h : older.Succeeds env newer)
    (hmode : older.record.spec.mode = .oneShot) (hfinished : older.record.isFinished = true) :
    newer.author = none := by
  cases ha : newer.author with
  | none => rfl
  | some v =>
    obtain ⟨c, read, strike, status, version, hspec, hwrites, -⟩ :=
      h.writes (Option.isSome_of_eq_some ha)
    cases hfinished.symm.trans (hwrites.isFinished_eq_false (hspec ▸ hmode))

/-- A visit that is about to write does not go by a finished record. -/
theorem Sound.not_current_of_finished (h : w.Sound env) {v : Visit} (hv : v ∈ w.visits)
    {base : Experiment} {status : Status}
    {resume : Except Error Experiment → Invocation (Except Error Revisit)}
    (hr : v.rest = .ask (.update base status) resume)
    (hmode : w.store.current.record.spec.mode = .oneShot)
    (hfinished : w.store.current.record.isFinished = true) :
    w.store.current.record ≠ base := by
  rintro rfl
  obtain ⟨read, hstands, hwrites, -⟩ := v.lawful hr
  obtain ⟨hspec, -⟩ := hstands.stems (h.faithful v hv)
  cases hfinished.symm.trans (hwrites.isFinished_eq_false (hspec ▸ hmode))

/-- The first record that is stored after the finished record of a one-shot experiment comes
    from another writer. -/
theorem Reachable.store_of_finished (hfresh : env.NeverReuses e) (hw : Reachable env e w)
    (hmode : w.store.current.record.spec.mode = .oneShot)
    (hfinished : w.store.current.record.isFinished = true) {w' : World}
    (hsteps : Relation.ReflTransGen (Step env) w w') :
    Reachable env e w' ∧ (w'.store = w.store ∨
      ∃ later rev, w'.store.revisions = later ++ rev :: w.store.revisions ∧
        rev.author = none) := by
  induction hsteps with
  | refl => exact ⟨hw, .inl rfl⟩
  | tail _ hs ih =>
    obtain ⟨hreach, hstore⟩ := ih
    refine ⟨hreach.step hs, ?_⟩
    obtain hsame | ⟨rev, hput, hsucceeds⟩ := (hreach.sound hfresh).step_store hs
    · rw [hsame]
      exact hstore
    -- The first change settles it, so later ones only pile up on it.
    · right
      obtain hsame | ⟨later, first, hrevisions, hauthor⟩ := hstore
      · rw [hsame] at hput hsucceeds
        exact ⟨[], rev, by rw [hput]; rfl,
          author_eq_none_of_finished hsucceeds hmode hfinished⟩
      · exact ⟨rev :: later, first, by rw [hput, Store.revisions_put, hrevisions]; rfl, hauthor⟩

/-- A one-shot experiment is over for good. Once the stored record is completed or failed, in a
    run in which no version is used twice and the spec is fixed, every status write that a visit
    is about to make is refused and leaves the store as it is; whatever happens, the record stays
    until another writer changes it; and a visit that reads it asks for nothing else and waits
    for a change, unless the duration aborts the process. -/
theorem finished_oneShot_stays (hfresh : env.NeverReuses e) (hmode : e.spec.mode = .oneShot)
    (hedits : ∀ a b, env.edits a b → b.spec = a.spec) (hw : Reachable env e w)
    (hfinished : w.store.current.record.isFinished = true) :
    (∀ v ∈ w.visits, ∀ base status resume, v.rest = .ask (.update base status) resume →
      (∀ version, w.store.write v base status version =
        (.error (.conflict base.name), w.store)) ∧
      ∀ reply after, w.store.Answers env v (.update base status) reply after →
        (∃ cause, reply = .error cause) ∧ after = w.store) ∧
    (∀ w', Relation.ReflTransGen (Step env) w w' → w'.store = w.store ∨
      ∃ later rev, w'.store.revisions = later ++ rev :: w.store.revisions ∧
        rev.author = none) ∧
    ∀ (v : Visit) ns name, ⟨.get ns name, .ok (some w.store.current.record)⟩ ∈ v.trace →
      v.trace = [⟨.get ns name, .ok (some w.store.current.record)⟩] ∧
        (w.store.current.record.spec.verdict ≠ .abort → v.rest = .done (.ok .onChange)) := by
  have hsound := hw.sound hfresh
  have hcurrent : w.store.current.record.spec.mode = .oneShot := by
    rw [hw.spec_eq hfresh hedits _ List.mem_cons_self, hmode]
  refine ⟨fun v hv base status resume hr => ?_,
    fun w' hsteps => (hw.store_of_finished hfresh hcurrent hfinished hsteps).2,
    fun v ns name hread => ?_⟩
  · have hne := hsound.not_current_of_finished hv hr hcurrent hfinished
    -- Versions are never used twice, so another record has another version.
    have hstale : w.store.current.record.version? ≠ base.version? :=
      fun hversion => hne (hsound.current_eq hv hr hversion)
    refine ⟨fun version => Store.write_of_stale hstale, fun reply after ha => ?_⟩
    obtain hrefused | ⟨version, -, rfl, hreply⟩ := ha
    · exact hrefused
    · rw [Store.write_of_stale hstale] at hreply ⊢
      obtain rfl | hcause := hreply
      · exact ⟨⟨_, rfl⟩, rfl⟩
      · exact ⟨hcause, rfl⟩
  · obtain ⟨later, htrace, hlater⟩ := Reconcile.reaches_step_of_get v.reaches hread
    rw [Reconcile.step_of_finished hcurrent hfinished] at hlater
    split at hlater
    next habort =>
      obtain ⟨rfl, -⟩ := Invocation.reaches_abort hlater
      exact ⟨htrace, fun hne => absurd habort hne⟩
    next =>
      obtain ⟨rfl, hrest⟩ := Invocation.reaches_done hlater
      exact ⟨htrace, fun _ => hrest⟩

/-- Two visits kill on one and the same record. When the first of them has recorded its kill, the
    second is refused, and a third one finds nothing to do. -/
theorem finished_oneShot_stays_race :
    ∃ w, Reachable (.fresh fun _ _ => False) (.sample .oneShot none (some .pending) none) w ∧
      w.store.current.record.phase? = some .completed ∧
      (∃ v ∈ w.visits, v.kill? = some (.sample 1) ∧
        ∃ base status resume, v.rest = .ask (.update base status) resume ∧
          ∀ version, w.store.write v base status version =
            (.error (.conflict base.name), w.store)) ∧
      ∃ v ∈ w.visits, v.trace = [⟨.get "lab" "sample", .ok (some w.store.current.record)⟩] ∧
        v.rest = .done (.ok .onChange) := by
  have h : Reachable (.fresh fun _ _ => False) (.sample .oneShot none (some .pending) none) _ :=
    .initial
  have h := h.step (.launch .standard (.sample .oneShot none none none) (.sample 0))
  have h := h.answer [] (.get "lab" "sample") _ rfl (Store.answers_get_current ..)
  have h := h.step (.launch .standard (.sample .oneShot none none none) (.sample 1))
  have h := h.answer [] (.get "lab" "sample") _ rfl (Store.answers_get_current ..)
  have h := h.answer [] (.list "lab" _) (.ok [⟨"lab", "a"⟩]) rfl rfl
  have h := h.answer [] (.pick 1) (0 : Nat) rfl rfl
  have h := h.answer [] (.delete "lab" "a") (.ok .deleted) rfl rfl
  have h := h.answer [_] (.list "lab" _) (.ok [⟨"lab", "b"⟩]) rfl rfl
  have h := h.answer [_] (.pick 1) (0 : Nat) rfl rfl
  have h := h.answer [_] (.delete "lab" "b") (.ok .deleted) rfl rfl
  have h := h.answer [_] (.update _ _) _ rfl (Store.answers_accepted "2" (by simp) rfl)
  have h := h.step (.launch .standard (.sample .oneShot none none none) (.sample 2))
  have h := h.answer [] (.get "lab" "sample") _ rfl (Store.answers_get_current ..)
  obtain ⟨hrefused, -, hread⟩ := finished_oneShot_stays (Environment.fresh_neverReuses _ _) rfl
    (fun _ _ hedit => hedit.elim) h rfl
  refine ⟨_, h, rfl, ⟨_, List.mem_cons_of_mem _ List.mem_cons_self, rfl, _, _, _, rfl,
    (hrefused _ (List.mem_cons_of_mem _ List.mem_cons_self) _ _ _ rfl).1⟩,
    _, List.mem_cons_self, ?_⟩
  refine And.imp_right (fun hwaits => hwaits ?_) (hread _ "lab" "sample" ?_)
  · exact List.mem_cons_self
  · decide

/-- A one-shot experiment that is over and has a duration that cannot be added up: a visit that
    reads its record does not wait for a change, but aborts. -/
theorem finished_oneShot_aborts :
    ∃ w v, Reachable (.fresh fun _ _ => False)
        (.sample .oneShot (some "18446744073709551615s 1000ms") (some .failed) none) w ∧
      w.store.current.record.isFinished = true ∧ v ∈ w.visits ∧
      ⟨.get "lab" "sample", .ok (some w.store.current.record)⟩ ∈ v.trace ∧
      v.rest ≠ .done (.ok .onChange) := by
  have h : Reachable (.fresh fun _ _ => False)
    (.sample .oneShot (some "18446744073709551615s 1000ms") (some .failed) none) _ := .initial
  have h := h.step (.launch .standard (.sample .oneShot none none none) (.sample 0))
  have h := h.answer [] (.get "lab" "sample") _ rfl (Store.answers_get_current ..)
  refine ⟨_, _, h, rfl, List.mem_cons_self, List.mem_cons_self, ?_⟩
  have hverdict : (Experiment.sample .oneShot (some "18446744073709551615s 1000ms")
      (some .failed) none).spec.verdict = .abort := by
    decide +kernel
  refine ne_of_eq_of_ne ((Visit.rest_answered_get rfl rfl).trans
    ((Reconcile.step_of_finished rfl rfl).trans (if_pos hverdict))) ?_
  exact nofun

end World

end ChaosController
