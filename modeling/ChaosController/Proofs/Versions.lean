/-
  ChaosController.Proofs.Versions

  The versions of the cluster in memory.

  Its versions are numbers that count up. Every record that has been stored has a number that is
  at most the current one, so the next number is new: no run uses a version twice, as long as
  the numbers fit a word.
-/

import ChaosController.Proofs.Digits
import ChaosController.Proofs.Overlap

namespace ChaosController

/-! ## Numbers of versions -/

/-- A number that fits a word is read back from its digits. -/
theorem versionNumber?_toString {n : Nat} (h : n < wordBound) :
    versionNumber? (toString n) = some n := by
  have hdigit : ∀ c ∈ Nat.toDigits 10 n, c.isDigit := fun c hc =>
    Nat.isDigit_of_mem_toDigits (by decide) (by decide) hc
  -- A plus sign would be dropped, but no number begins with one.
  have hplus : ∀ rest, Nat.toDigits 10 n ≠ '+' :: rest := by
    intro rest heq
    have hmem := hdigit '+' (heq ▸ List.mem_cons_self)
    exact absurd hmem (by decide)
  have hvalue : ofDigits (Nat.toDigits 10 n) = n := by
    rw [ofDigits_eq, Nat.ofDigitChars_ten_toDigits]
  unfold versionNumber?
  rw [Nat.toString_eq_repr, Nat.toList_repr]
  split
  next rest heq => exact absurd heq (hplus rest)
  next => simpa [hvalue, h] using hdigit

/-- The number of a version; one that is no number counts as zero. -/
def versionCount (version : Option String) : Nat := (version.bind versionNumber?).getD 0

theorem nextVersion_eq {version : Option String} (h : versionCount version + 1 < wordBound) :
    nextVersion version = toString (versionCount version + 1) := by
  rw [versionCount] at h ⊢
  rw [nextVersion, if_pos h]

@[simp] theorem versionCount_nextVersion {version : Option String}
    (h : versionCount version + 1 < wordBound) :
    versionCount (some (nextVersion version)) = versionCount version + 1 := by
  rw [nextVersion_eq h, versionCount, Option.bind_some, versionNumber?_toString h,
    Option.getD_some]

/-! ## The cluster as a store -/

/-- The cluster in memory accepts and refuses a status write as a store does that gives out the
    next version. -/
theorem Cluster.update_eq_write (s : Store) (pods : List Pod) (v : Visit) (base : Experiment)
    (status : Status) :
    Cluster.update ⟨some s.current.record, pods⟩ base status =
      let (reply, s') := s.write v base status (nextVersion s.current.record.version?)
      (reply, ⟨some s'.current.record, pods⟩) := by
  by_cases h : s.current.record.version? = base.version?
  · rw [Cluster.update_of_version rfl h, Store.write_of_version h]
    rfl
  · rw [Cluster.update_of_stale rfl h, Store.write_of_stale h]

/-- The cluster in memory, before its version numbers run out. -/
def Environment.counting (edits : Experiment → Experiment → Prop) : Environment where
  issues s version := version = nextVersion s.current.record.version? ∧
    versionCount s.current.record.version? + 1 < wordBound
  edits := edits

namespace World

variable {edits : Experiment → Experiment → Prop} {e : Experiment} {w : World}

/-- No stored record has a number above the current one. -/
theorem Reachable.count_le (h : Reachable (.counting edits) e w) :
    ∀ rev ∈ w.store.revisions,
      versionCount rev.record.version? ≤ versionCount w.store.current.record.version? := by
  induction h with
  | initial =>
    intro rev hrev
    obtain rfl := List.mem_singleton.1 hrev
    exact Nat.le_refl _
  | @step w w' hw hs ih =>
    obtain hstore | ⟨new, version, ⟨rfl, hcount⟩, hversion, hstore⟩ := hs.store_cases
    · rw [hstore]
      exact ih
    · rw [hstore]
      intro rev hrev
      cases hrev with
      | head => exact Nat.le_refl _
      | tail _ hpast =>
        rw [Store.current_put, hversion, versionCount_nextVersion hcount]
        exact Nat.le_succ_of_le (ih rev hpast)

end World

/-- The cluster in memory never uses a version twice. -/
theorem Environment.counting_neverReuses (edits : Experiment → Experiment → Prop)
    (e : Experiment) : (counting edits).NeverReuses e := by
  -- A record with the next version would have a number above the current one.
  intro w hw version ⟨hversion, hcount⟩ rev hrev heq
  have hle := hw.count_le rev hrev
  have hnext := versionCount_nextVersion hcount
  rw [heq, hversion, hnext] at hle
  omega

end ChaosController
