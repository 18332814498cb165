/-
  ChaosController.Proofs.ConditionHistory

  The conditions of a status after any number of updates.

  Updates of different kinds do not meet. Of each kind that was updated one condition is left, and
  the reports of that kind alone, together with the first condition before them, decide what it
  says and since when (`Condition.Concludes`). The kinds that were updated stand at the end, in
  the order of their last updates (`conditions_of_updates`).
-/

import ChaosController.Proofs.Conditions
import Mathlib.Data.List.Dedup
import Mathlib.Data.List.DropRight

namespace ChaosController

/-! ## What a sequence of reports leaves -/

/-- What is left of a kind of which `first` was the first condition when the reports about it came
    in. The condition repeats the last report. It has its status since the first of the trailing
    reports that all give it, or since the time that `first` says if no report gives another status
    and `first` does not either. -/
structure Condition.Concludes (c : Condition) (first : Option Condition)
    (reports : List Condition) : Prop where
  last : ∃ u, reports.getLast? = some u ∧ c.kind = u.kind ∧ c.status = u.status ∧
    c.reason = u.reason ∧ c.message = u.message
  carried : (∀ u ∈ reports, u.status = c.status) → ∀ old, first = some old →
    old.status = c.status → c.lastTransition = old.lastTransition
  stamped : ((∀ u ∈ reports, u.status = c.status) → ∀ old, first = some old →
      old.status ≠ c.status) →
    ∃ u, (reports.rtakeWhile (·.status == c.status)).head? = some u ∧
      c.lastTransition = u.lastTransition

namespace Status

/-- A condition whose status is that of the first of its kind takes over its time. -/
theorem carryTransition_of_same {s : Status} {c first : Condition}
    (hfirst : s.condition? c.kind = some first) (h : first.status = c.status) :
    s.carryTransition c = { c with lastTransition := first.lastTransition } := by
  rw [carryTransition, hfirst]
  exact if_pos h

/-- A condition that is new, or whose status has changed, is set as it is. -/
theorem carryTransition_of_changed {s : Status} {c : Condition}
    (h : ∀ first, s.condition? c.kind = some first → first.status ≠ c.status) :
    s.carryTransition c = c := by
  unfold carryTransition
  split
  next first hfirst => exact if_neg (h first hfirst)
  next => rfl

end Status

namespace Condition.Concludes

variable {s : Status} {c c' u first : Condition} {before : Option Condition}
  {reports : List Condition}

/-- Nothing is left open. -/
theorem unique (h : c.Concludes before reports) (h' : c'.Concludes before reports) : c = c' := by
  obtain ⟨u, hlast, hkind, hstatus, hreason, hmessage⟩ := h.last
  obtain ⟨u', hlast', hkind', hstatus', hreason', hmessage'⟩ := h'.last
  obtain rfl : u = u' := Option.some.inj (hlast.symm.trans hlast')
  have hsame : c.status = c'.status := hstatus.trans hstatus'.symm
  -- Either both carry the time over or both have it from a report.
  have htime : c.lastTransition = c'.lastTransition := by
    by_cases hcarried : (∀ u ∈ reports, u.status = c.status) ∧
        ∃ old, before = some old ∧ old.status = c.status
    · obtain ⟨hall, old, hold, heq⟩ := hcarried
      rw [h.carried hall old hold heq, h'.carried (hsame ▸ hall) old hold (hsame ▸ heq)]
    · have hstamped : (∀ u ∈ reports, u.status = c.status) → ∀ old, before = some old →
          old.status ≠ c.status :=
        fun hall old hold heq => hcarried ⟨hall, old, hold, heq⟩
      obtain ⟨v, hhead, htime⟩ := h.stamped hstamped
      obtain ⟨v', hhead', htime'⟩ := h'.stamped (hsame ▸ hstamped)
      obtain rfl : v = v' := Option.some.inj (hhead.symm.trans (hsame ▸ hhead'))
      rw [htime, htime']
  calc c = ⟨u.kind, u.status, u.reason, u.message, c.lastTransition⟩ := by
        rw [← hkind, ← hstatus, ← hreason, ← hmessage]
    _ = c' := by rw [htime, ← hkind', ← hstatus', ← hreason', ← hmessage']

/-- The first report about a kind. -/
theorem single (s : Status) (u : Condition) :
    (s.carryTransition u).Concludes (s.condition? u.kind) [u] := by
  by_cases hsame : ∃ first, s.condition? u.kind = some first ∧ first.status = u.status
  · obtain ⟨first, hfirst, hstatus⟩ := hsame
    rw [Status.carryTransition_of_same hfirst hstatus, hfirst]
    refine ⟨⟨u, rfl, rfl, rfl, rfl, rfl⟩, fun _ old hold _ => ?_, fun hdiffers => ?_⟩
    · rw [← Option.some.inj hold]
    · exact absurd hstatus (hdiffers (by simp) first rfl)
  · have hdiffers : ∀ first, s.condition? u.kind = some first → first.status ≠ u.status :=
      fun first hfirst hstatus => hsame ⟨first, hfirst, hstatus⟩
    rw [Status.carryTransition_of_changed hdiffers]
    exact ⟨⟨u, rfl, rfl, rfl, rfl, rfl⟩, fun _ old hold heq => absurd heq (hdiffers old hold),
      fun _ => ⟨u, by simp [List.rtakeWhile], rfl⟩⟩

/-- One more report about a kind. What the earlier ones have left decides whether the time is
    carried over. -/
theorem concat (h : first.Concludes before reports) (hfirst : s.condition? u.kind = some first) :
    (s.carryTransition u).Concludes before (reports ++ [u]) := by
  obtain ⟨v, hlast, -, hstatus, -, -⟩ := h.last
  have hmem : v ∈ reports := List.mem_of_getLast? hlast
  have hgrows : (reports ++ [u]).rtakeWhile (·.status == u.status) =
      reports.rtakeWhile (·.status == u.status) ++ [u] :=
    List.rtakeWhile_concat_pos _ _ _ (beq_self_eq_true _)
  by_cases hsame : first.status = u.status
  · -- The trailing reports with this status are one more, and begin where they began.
    rw [Status.carryTransition_of_same hfirst hsame]
    have hall : (∀ w ∈ reports ++ [u], w.status = u.status) →
        ∀ w ∈ reports, w.status = first.status :=
      fun hall w hw => (hall w (List.mem_append_left _ hw)).trans hsame.symm
    refine ⟨⟨u, List.getLast?_concat, rfl, rfl, rfl, rfl⟩, fun hsum old hold heq => ?_,
      fun hdiffers => ?_⟩
    · exact h.carried (hall hsum) old hold (heq.trans hsame.symm)
    · obtain ⟨w, hhead, htime⟩ := h.stamped fun hearlier old hold => by
        rw [hsame]
        refine hdiffers (fun w hw => ?_) old hold
        rcases List.mem_append.1 hw with hw | hw
        · exact (hearlier w hw).trans hsame
        · rw [List.mem_singleton.1 hw]
      refine ⟨w, ?_, htime⟩
      rw [hsame] at hhead
      rw [hgrows, List.head?_append, hhead, Option.some_or]
  · -- The trailing reports with this status are the new one alone.
    rw [Status.carryTransition_of_changed fun old hold => by
      rwa [← Option.some.inj (hfirst.symm.trans hold)]]
    have hv : v.status ≠ u.status := hstatus ▸ hsame
    refine ⟨⟨u, List.getLast?_concat, rfl, rfl, rfl, rfl⟩, fun hsum => ?_, fun _ => ⟨u, ?_, rfl⟩⟩
    · exact absurd (hsum v (List.mem_append_left _ hmem)) hv
    · have hnone : reports.rtakeWhile (·.status == u.status) = [] := by
        rw [List.rtakeWhile_eq_nil_iff]
        intro hne
        rw [List.getLast?_eq_some_getLast hne] at hlast
        rw [Option.some.inj hlast]
        simpa using hv
      rw [hgrows, hnone]
      rfl

end Condition.Concludes

/-! ## Sequences of updates -/

/-- Without its repetitions, a list that has grown at its end keeps the new entry and drops its
    earlier occurrences. -/
theorem dedup_concat {α : Type*} [DecidableEq α] (l : List α) (a : α) :
    (l ++ [a]).dedup = l.dedup.filter (· != a) ++ [a] := by
  induction l with
  | nil => rfl
  | cons b l ih =>
    rw [List.cons_append, List.dedup_cons, List.dedup_cons, ih]
    by_cases hb : b ∈ l
    · rw [if_pos (List.mem_append_left _ hb), if_pos hb]
    · by_cases ha : b = a
      · rw [if_pos (by simp [ha]), if_neg hb, List.filter_cons_of_neg (by simp [ha])]
      · rw [if_neg (by simp [hb, ha]), if_neg hb, List.filter_cons_of_pos (by simpa using ha)]
        rfl

/-- The kinds that conditions are of. -/
theorem mem_map_kind_iff {cs : List Condition} {kind : String} :
    kind ∈ cs.map Condition.kind ↔ cs.filter (·.kind == kind) ≠ [] := by
  simp [List.filter_eq_nil_iff]

namespace Status

variable {s : Status} {c u : Condition} {cs reported : List Condition} {kind : String}

/-- The first condition of a kind that is not updated stays. -/
theorem condition?_foldl_of_notMem (s : Status) (h : kind ∉ cs.map Condition.kind) :
    (cs.foldl setCondition s).condition? kind = s.condition? kind := by
  induction cs generalizing s with
  | nil => rfl
  | cons c cs ih =>
    rw [List.map_cons, List.mem_cons, not_or] at h
    rw [List.foldl_cons, ih _ h.2, condition?_setCondition_of_ne s (Ne.symm h.1)]

/-- The conditions that updates have left: behind those whose kind was not updated, one for each
    kind that was, in the order of the last updates. -/
structure Reported (s : Status) (cs reported : List Condition) : Prop where
  conditions_eq : (cs.foldl setCondition s).conditions =
    s.conditions.filter (fun c => c.kind ∉ cs.map Condition.kind) ++ reported
  kinds_eq : reported.map Condition.kind = (cs.map Condition.kind).dedup
  concludes : ∀ c ∈ reported,
    c.Concludes (s.condition? c.kind) (cs.filter (·.kind == c.kind))

namespace Reported

/-- What the next update leaves of its own kind. -/
theorem concludes_carryTransition (h : s.Reported cs reported) (u : Condition) :
    ((cs.foldl setCondition s).carryTransition u).Concludes (s.condition? u.kind)
      ((cs ++ [u]).filter (·.kind == u.kind)) := by
  have hreports : (cs ++ [u]).filter (·.kind == u.kind) =
      cs.filter (·.kind == u.kind) ++ [u] := by
    simp
  rw [hreports]
  by_cases hkind : u.kind ∈ cs.map Condition.kind
  · have hfound : ((cs.foldl setCondition s).condition? u.kind).isSome := by
      rw [← List.mem_dedup, ← h.kinds_eq] at hkind
      obtain ⟨c, hc, heq⟩ := List.mem_map.1 hkind
      rw [condition?, List.find?_isSome, h.conditions_eq]
      exact ⟨c, List.mem_append_right _ hc, by simpa using heq⟩
    obtain ⟨first, hfirst⟩ := Option.isSome_iff_exists.1 hfound
    have heq : first.kind = u.kind := by simpa using List.find?_some hfirst
    -- It is one of those that the updates have left.
    have hmem : first ∈ reported := by
      have hall := List.mem_of_find?_eq_some hfirst
      rw [h.conditions_eq] at hall
      rcases List.mem_append.1 hall with hforeign | hmem
      · exact absurd (heq ▸ hkind) (by simpa using (List.mem_filter.1 hforeign).2)
      · exact hmem
    exact (heq ▸ h.concludes first hmem).concat hfirst
  · rw [not_not.1 (mt mem_map_kind_iff.2 hkind), ← condition?_foldl_of_notMem s hkind]
    exact Condition.Concludes.single _ u

/-- One more update. -/
theorem concat (h : s.Reported cs reported) (u : Condition) :
    s.Reported (cs ++ [u]) (reported.filter (·.kind != u.kind) ++
      [(cs.foldl setCondition s).carryTransition u]) := by
  refine ⟨?_, ?_, fun c hc => ?_⟩
  · have hforeign : (s.conditions.filter fun c => c.kind ∉ (cs ++ [u]).map Condition.kind) =
        (s.conditions.filter fun c => c.kind ∉ cs.map Condition.kind).filter
          (·.kind != u.kind) := by
      rw [List.filter_filter]
      refine List.filter_congr fun c _ => ?_
      by_cases hc : c.kind = u.kind <;> simp [hc]
    rw [List.foldl_append, List.foldl_cons, List.foldl_nil, conditions_setCondition,
      h.conditions_eq, List.filter_append, List.append_assoc, hforeign]
  · rw [List.map_append, List.map_append, List.map_singleton, List.map_singleton,
      kind_carryTransition, dedup_concat, ← h.kinds_eq, List.filter_map]
    rfl
  · rcases List.mem_append.1 hc with hc | hc
    · obtain ⟨hc, hkind⟩ := List.mem_filter.1 hc
      have hreports : (cs ++ [u]).filter (·.kind == c.kind) = cs.filter (·.kind == c.kind) := by
        have hne : ¬ u.kind = c.kind := fun heq => by simp [heq] at hkind
        simp [hne]
      rw [hreports]
      exact h.concludes c hc
    · rw [List.mem_singleton.1 hc, kind_carryTransition]
      exact h.concludes_carryTransition u

/-- Of a kind that was updated one condition is left. -/
theorem filter_eq_singleton (h : s.Reported cs reported) (hkind : kind ∈ cs.map Condition.kind) :
    ∃ c ∈ reported, (cs.foldl setCondition s).conditions.filter (·.kind == kind) = [c] ∧
      c.kind = kind := by
  have hforeign : (s.conditions.filter fun c => c.kind ∉ cs.map Condition.kind).filter
      (·.kind == kind) = [] := by
    rw [List.filter_filter, List.filter_eq_nil_iff]
    intro c _ hc
    simp only [Bool.and_eq_true, beq_iff_eq, decide_eq_true_eq] at hc
    exact hc.2 (hc.1 ▸ hkind)
  have hkinds : (reported.filter (·.kind == kind)).map Condition.kind = [kind] := by
    have hmap : (reported.filter (·.kind == kind)).map Condition.kind =
        (reported.map Condition.kind).filter (· == kind) := by
      rw [List.filter_map]
      rfl
    rw [hmap, h.kinds_eq, List.filter_beq, List.count_dedup, if_pos hkind]
    rfl
  obtain ⟨c, hc, heq⟩ := List.map_eq_singleton_iff.1 hkinds
  have hmem : c ∈ reported := List.mem_of_mem_filter (hc ▸ List.mem_singleton_self c)
  refine ⟨c, hmem, ?_, heq⟩
  rw [h.conditions_eq, List.filter_append, hforeign, hc]
  rfl

/-- No condition is left twice. -/
theorem nodup (h : s.Reported cs reported) : reported.Nodup :=
  List.Nodup.of_map Condition.kind (h.kinds_eq ▸ List.nodup_dedup _)

end Reported

/-- Every sequence of updates. -/
theorem exists_reported (s : Status) (cs : List Condition) :
    ∃ reported, s.Reported cs reported := by
  -- By induction on the end of the sequence, where the next update is made.
  induction cs using List.reverseRecOn with
  | nil => exact ⟨[], by simp, rfl, by simp⟩
  | append_singleton cs u ih =>
    obtain ⟨reported, h⟩ := ih
    exact ⟨_, h.concat u⟩

/-- Updates that differ only in how the kinds are interleaved leave the same conditions. -/
theorem Reported.subset {cs' reported' : List Condition} (h : s.Reported cs reported)
    (h' : s.Reported cs' reported')
    (hsame : ∀ kind, cs'.filter (·.kind == kind) = cs.filter (·.kind == kind)) :
    reported ⊆ reported' := by
  intro c hc
  have hkind : c.kind ∈ cs'.map Condition.kind := by
    rw [mem_map_kind_iff, hsame, ← mem_map_kind_iff, ← List.mem_dedup, ← h.kinds_eq]
    exact List.mem_map_of_mem hc
  obtain ⟨c', hc', -, heq⟩ := h'.filter_eq_singleton hkind
  have hconcludes := h'.concludes c' hc'
  rw [heq, hsame] at hconcludes
  rwa [(h.concludes c hc).unique hconcludes]

end Status

/-! ## The main result -/

/-- The conditions of a status after a sequence of updates of any kinds. The conditions whose kind
    was not updated stay in front, unchanged and in their order; behind them stands one condition
    for each kind that was, in the order of the last updates. What it says depends on the updates of
    its own kind and on the first condition of that kind before them: it repeats the last update,
    and has its status since the trailing updates that all give it began, or since when the status
    said before if these are all of them and nothing has changed. How the updates of different
    kinds were interleaved thus decides the order at most. -/
theorem conditions_of_updates (s : Status) (cs : List Condition) :
    let after := (cs.foldl Status.setCondition s).conditions
    let updated := cs.map Condition.kind
    (∃ reported : List Condition,
      after = s.conditions.filter (fun c => c.kind ∉ updated) ++ reported ∧
        reported.map Condition.kind = updated.dedup) ∧
    (∀ kind ∈ updated, ∃ c, after.filter (·.kind == kind) = [c] ∧
      c.Concludes (s.condition? kind) (cs.filter (·.kind == kind))) ∧
    ∀ cs' : List Condition,
      (∀ kind, cs'.filter (·.kind == kind) = cs.filter (·.kind == kind)) →
        List.Perm (cs'.foldl Status.setCondition s).conditions after := by
  intro after updated
  obtain ⟨reported, h⟩ := s.exists_reported cs
  refine ⟨⟨reported, h.conditions_eq, h.kinds_eq⟩, fun kind hkind => ?_, fun cs' hsame => ?_⟩
  · obtain ⟨c, hc, hone, rfl⟩ := h.filter_eq_singleton hkind
    exact ⟨c, hone, h.concludes c hc⟩
  · obtain ⟨reported', h'⟩ := s.exists_reported cs'
    have hforeign : (s.conditions.filter fun c => c.kind ∉ cs'.map Condition.kind) =
        s.conditions.filter fun c => c.kind ∉ updated :=
      List.filter_congr fun c _ => decide_eq_decide.2 <| not_congr <| by
        rw [mem_map_kind_iff, hsame, ← mem_map_kind_iff]
    have hperm : reported'.Perm reported :=
      (List.perm_ext_iff_of_nodup h'.nodup h.nodup).2 fun c =>
        ⟨fun hc => h'.subset h (fun kind => (hsame kind).symm) hc,
          fun hc => h.subset h' hsame hc⟩
    show List.Perm (cs'.foldl Status.setCondition s).conditions
      (cs.foldl Status.setCondition s).conditions
    rw [h.conditions_eq, h'.conditions_eq, hforeign]
    exact hperm.append_left _

/-- Two kinds that take turns. Of the one somebody has left two conditions, and the first of them
    already had the status that all updates give; the other is new and has changed since. -/
theorem conditions_of_updates_alternating :
    let ready (t : Truth) (now : Instant) : Condition := ⟨"Ready", t, "Unknown", "", now⟩
    let synced (t : Truth) (now : Instant) : Condition := ⟨"Synced", t, "Unknown", "", now⟩
    let s : Status := ⟨none, none, none, [ready .yes (.sample 0), ready .no (.sample 1)]⟩
    let cs := [ready .yes (.sample 2), synced .no (.sample 3), ready .yes (.sample 4),
      synced .yes (.sample 5), synced .yes (.sample 6)]
    let after := (cs.foldl Status.setCondition s).conditions
    ∃ c d, after.filter (·.kind == "Ready") = [c] ∧ c.lastTransition = .sample 0 ∧
      after.filter (·.kind == "Synced") = [d] ∧ d.lastTransition = .sample 5 := by
  intro ready synced s cs after
  obtain ⟨-, hone, -⟩ := conditions_of_updates s cs
  obtain ⟨c, hc, hready⟩ := hone "Ready" (by decide)
  obtain ⟨d, hd, hsynced⟩ := hone "Synced" (by decide)
  refine ⟨c, d, hc, ?_, hd, ?_⟩
  · obtain ⟨u, hlast, -, hstatus, -⟩ := hready.last
    obtain rfl : ready .yes (.sample 4) = u := Option.some.inj hlast
    refine hready.carried ?_ _ rfl hstatus.symm
    rw [hstatus]
    decide
  · obtain ⟨u, hlast, -, hstatus, -⟩ := hsynced.last
    obtain rfl : synced .yes (.sample 6) = u := Option.some.inj hlast
    have hnew : s.condition? "Synced" = none := rfl
    obtain ⟨w, hhead, htime⟩ := hsynced.stamped fun _ old hold => by
      rw [hnew] at hold
      cases hold
    rw [hstatus] at hhead
    obtain rfl : synced .yes (.sample 5) = w := Option.some.inj hhead
    exact htime

end ChaosController
