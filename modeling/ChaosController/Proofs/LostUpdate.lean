/-
  ChaosController.Proofs.LostUpdate

  No status write is lost, and none loses another writer's record.

  Every status is told from the record that its visit read or wrote last, and is written over
  exactly that record. A visit that has been overtaken is refused from then on; one that is alone
  never is (`status_write_safe`).
-/

import ChaosController.Proofs.Overlap
import Mathlib.Logic.Relation

namespace ChaosController

/-! ## What a visit writes -/

/-- A visit makes at most three status writes. Each is made for the record that the visit read
    or wrote last, and its status is told from that record. -/
theorem Visit.writes_own_base (v : Visit) {base : Experiment} {status : Status}
    {resume : Except Error Experiment → Invocation (Except Error Revisit)}
    (hr : v.rest = .ask (.update base status) resume) :
    v.trace.base? = some base ∧ Reconcile.Derived v.context base status ∧ v.trace.writes < 3 := by
  obtain ⟨read, hstands, hwrites, hcount⟩ := v.lawful hr
  exact ⟨hstands.base_eq, hwrites.derived, hcount⟩

/-- Another record has been stored since this one. -/
def Store.Overtaken (s : Store) (e : Experiment) : Prop := ∃ rev ∈ s.past, rev.record = e

namespace World

variable {env : Environment} {w : World} {v : Visit} {base : Experiment} {status : Status}
  {resume : Except Error Experiment → Invocation (Except Error Revisit)}

/-- Once overtaken, a record stays so. -/
theorem Step.overtaken {w' : World} (hs : Step env w w') (h : w.store.Overtaken base) :
    w'.store.Overtaken base := by
  obtain hstore | ⟨rev, version, -, -, hstore⟩ := hs.store_cases
  · rw [hstore]
    exact h
  · obtain ⟨old, hold, he⟩ := h
    rw [hstore]
    exact ⟨old, List.mem_cons_of_mem _ hold, he⟩

/-- What comes of a world that a run may come to, a run may come to as well. -/
theorem Reachable.later {e : Experiment} {w' : World} (h : Reachable env e w)
    (hs : Relation.ReflTransGen (Step env) w w') : Reachable env e w' := by
  induction hs with
  | refl => exact h
  | tail _ hstep ih => exact ih.step hstep

theorem overtaken_later {w' : World} (h : w.store.Overtaken base)
    (hs : Relation.ReflTransGen (Step env) w w') : w'.store.Overtaken base := by
  induction hs with
  | refl => exact h
  | tail _ hstep ih => exact hstep.overtaken ih

/-- The answer to a status write leaves the store as it is, or it stores the status over the
    record that it was made for. -/
theorem Sound.of_answers_update (h : w.Sound env) (hv : v ∈ w.visits)
    (hr : v.rest = .ask (.update base status) resume) {reply : Except Error Experiment}
    {after : Store} (ha : w.store.Answers env v (.update base status) reply after) :
    (∃ e, reply = .error e) ∧ after = w.store ∨
      w.store.current.record = base ∧ ∃ version, env.issues w.store version ∧
        after = w.store.put ⟨base.stamped status version, some v⟩ := by
  cases h.effect hv hr ha with
  | other hw => cases hw
  | failed base status e => exact .inl ⟨⟨e, rfl⟩, rfl⟩
  | accepted hissued hreply => exact .inr ⟨rfl, _, hissued, rfl⟩

/-- The record that a visit goes by is the current one, or it has been overtaken. -/
theorem Sound.current_or_overtaken (h : w.Sound env) (hv : v ∈ w.visits)
    (hb : v.trace.base? = some base) :
    w.store.current.record = base ∨ w.store.Overtaken base := by
  obtain ⟨rev, hmem, he⟩ := h.held_base hv hb
  cases hmem with
  | head => exact .inl he
  | tail _ hpast => exact .inr ⟨rev, hpast, he⟩

/-- A status for a record that has been overtaken is refused. -/
theorem Sound.write_of_overtaken (h : w.Sound env) (ho : w.store.Overtaken base)
    (version : String) :
    w.store.write v base status version = (.error (.conflict base.name), w.store) := by
  obtain ⟨rev, hpast, rfl⟩ := ho
  exact Store.write_of_stale ((List.pairwise_cons.1 h.versions).1 rev hpast)

end World

/-! ## Visits that are alone -/

/-- A visit that nobody disturbs: from its beginning at the store `start` it gets all replies
    from the store, nobody else writes, and it reads the current record. -/
inductive Visit.Alone (env : Environment) (start : Store) : Visit → Store → Prop
  | begin (settings : Settings) (trigger : Experiment) (now : Instant) :
      Alone env start (.begin settings trigger now) start
  | answered {v : Visit} {s after : Store} {r : Request}
      {resume : r.Reply → Invocation (Except Error Revisit)} {reply : r.Reply}
      (h : Alone env start v s) (hr : v.rest = .ask r resume)
      (ha : s.Answers env v r reply after)
      (hread : ∀ e, Exchange.fetched? ⟨r, reply⟩ = some e → e = s.current.record) :
      Alone env start (v.answered hr reply) after

namespace Visit

variable {env : Environment} {start s : Store} {v : Visit}

/-- A visit that is alone goes by the stored record, as long as no write has failed. -/
theorem Alone.base_eq (h : Alone env start v s) (hf : v.trace.failedWrites = 0)
    {base : Experiment} (hb : v.trace.base? = some base) : base = s.current.record := by
  -- The record handed over last is the stored one: reads are current, and an accepted write
  -- hands over what it has stored.
  induction h generalizing base with
  | begin => cases hb
  | @answered v s after r resume reply h hr ha hread ih =>
    rw [trace_answered, Trace.failedWrites_cons] at hf
    rw [trace_answered, Trace.base?_cons] at hb
    have hearlier := @ih (by omega)
    cases r with
    | get ns name =>
      obtain ⟨rfl, -⟩ := ha
      match reply with
      | .error e => exact hearlier hb
      | .ok none => exact hearlier hb
      | .ok (some e) => exact Option.some.inj hb ▸ hread e rfl
    | update own status =>
      match reply with
      | .error e =>
        -- The store may have taken the write without saying so, but then it counts as failed.
        simp [Exchange.isFailedWrite] at hf
      | .ok updated =>
        obtain rfl : updated = base := Option.some.inj hb
        obtain ⟨read, hstands, -⟩ := v.lawful hr
        obtain rfl := hearlier hstands.base_eq
        obtain ⟨⟨e, he⟩, -⟩ | ⟨version, -, rfl, hreply⟩ := ha
        · cases he
        · rw [Store.write_of_version rfl] at hreply ⊢
          obtain hok | ⟨e, he⟩ := hreply
          · exact Except.ok.inj hok
          · cases he
    | list | pick | delete | publish =>
      obtain rfl : after = s := ha
      exact hearlier hb

/-- No status write of a visit that is alone is refused. -/
theorem Alone.write (h : Alone env start v s) {base : Experiment} {status : Status}
    {resume : Except Error Experiment → Invocation (Except Error Revisit)}
    (hr : v.rest = .ask (.update base status) resume) (version : String) :
    s.write v base status version =
      (.ok (base.stamped status version), s.put ⟨base.stamped status version, some v⟩) := by
  obtain ⟨read, hstands, -⟩ := v.lawful hr
  obtain rfl := h.base_eq hstands.unfailed hstands.base_eq
  exact Store.write_of_version rfl

end Visit

/-! ## The main result -/

/-- No update is lost. A visit makes each of its at most three status writes for the record
    that it read or wrote last. If no version is used twice, the write goes over exactly that
    record or leaves the store as it is. Once the record has been overtaken, the write is refused
    as a conflict, whatever happens in between. If the visit is alone, the write is never
    refused. -/
theorem World.status_write_safe {env : Environment} {e : Experiment}
    (hfresh : env.NeverReuses e) {v : Visit} {base : Experiment} {status : Status}
    {resume : Except Error Experiment → Invocation (Except Error Revisit)}
    (hr : v.rest = .ask (.update base status) resume) :
    (v.trace.base? = some base ∧ Reconcile.Derived v.context base status ∧
      v.trace.writes < 3) ∧
    (∀ w, Reachable env e w →
      (v ∈ w.visits →
        (∀ reply after, w.store.Answers env v (.update base status) reply after →
          (∃ e, reply = .error e) ∧ after = w.store ∨
            w.store.current.record = base ∧ ∃ version, env.issues w.store version ∧
              after = w.store.put ⟨base.stamped status version, some v⟩) ∧
        (w.store.current.record = base ∨ w.store.Overtaken base)) ∧
      (w.store.Overtaken base → ∀ w', Relation.ReflTransGen (Step env) w w' → ∀ version,
        w'.store.write v base status version = (.error (.conflict base.name), w'.store))) ∧
    ∀ start s, v.Alone env start s → ∀ version, s.write v base status version =
      (.ok (base.stamped status version), s.put ⟨base.stamped status version, some v⟩) := by
  have hown := v.writes_own_base hr
  refine ⟨hown, fun w hw => ⟨fun hv => ?_, fun ho w' hs => ?_⟩, fun start s h => h.write hr⟩
  · have hsound := hw.sound hfresh
    exact ⟨fun reply after => hsound.of_answers_update hv hr,
      hsound.current_or_overtaken hv hown.1⟩
  · have hsound := (hw.later hs).sound hfresh
    exact hsound.write_of_overtaken (overtaken_later ho hs)

/-- Another writer changes the record after a visit has killed a pod; the visit cannot record
    the kill any more. -/
theorem World.status_write_overtaken :
    ∃ w v base status resume,
      Reachable (.fresh fun _ _ => True) (.sample .oneShot none (some .pending) none) w ∧
      v ∈ w.visits ∧ v.rest = .ask (.update base status) resume ∧
      v.kill? = some (.sample 0) ∧ w.store.current.record ≠ base ∧
      ∀ version, w.store.write v base status version =
        (.error (.conflict base.name), w.store) := by
  have h : Reachable (.fresh fun _ _ => True) (.sample .oneShot none (some .pending) none) _ :=
    .initial
  have h := h.step (.launch .standard (.sample .oneShot none none none) (.sample 0))
  have h := h.answer [] (.get "lab" "sample") _ rfl (Store.answers_get_current ..)
  have h := h.answer [] (.list "lab" _) (.ok [⟨"lab", "a"⟩]) rfl rfl
  have h := h.answer [] (.pick 1) (0 : Nat) rfl rfl
  have h := h.answer [] (.delete "lab" "a") (.ok .deleted) rfl rfl
  have h := h.step (.edit (e := .sample .oneShot none none none) trivial
    (show (World.initial _).store.Unused "2" by simp))
  exact ⟨_, _, _, _, _, h, List.mem_cons_self, rfl, rfl, by decide,
    ((status_write_safe (Environment.fresh_neverReuses _ _) rfl).2.1 _ h).2
      ⟨_, List.mem_cons_self, rfl⟩ _ .refl⟩

end ChaosController
