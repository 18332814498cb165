/-
  ChaosController.Proofs.Selectors

  What the selector of a label map asks for when it is read.

  Whoever gets a selector splits it at the commas, and each part at its first equality sign. Only
  keys without either sign and values without commas come out of that (`Label.IsLegible`), and the
  labels that do are read exactly as they were written (`requirements?_eq_some_iff`). So a map with
  any other label is misread, although it passes all checks: some label of it is not asked for
  (`selector_denotes`).
-/

import ChaosController.Proofs.RoundTrip
import ChaosController.Proofs.Targeting
import Mathlib.Data.List.TakeDrop
import Mathlib.Data.List.TakeWhile

namespace ChaosController

/-! ## Labels -/

/-- A key and its value. -/
abbrev Label := String × String

namespace Label

/-- How a label is written in a selector. -/
def text (e : Label) : String := e.1 ++ "=" ++ e.2

/-- A label that can be told from its text, also among others: its key has neither of the signs
    that separate, and its value has no comma. -/
def IsLegible (e : Label) : Prop :=
  (',' ∉ e.1.toList ∧ '=' ∉ e.1.toList) ∧ ',' ∉ e.2.toList

instance : DecidablePred IsLegible := fun _ => inferInstanceAs (Decidable (_ ∧ _))

theorem toList_text (e : Label) : e.text.toList = e.1.toList ++ '=' :: e.2.toList := by
  simp [text]

/-- The text of a label has a comma where the label has one. -/
theorem isLegible_iff {e : Label} :
    e.IsLegible ↔ '=' ∉ e.1.toList ∧ ',' ∉ e.text.toList := by
  simp [IsLegible, toList_text, and_assoc, and_left_comm]

/-- The label that a part of a selector asks for. -/
def read? (part : List Char) : Option Label :=
  match part.span (· != '=') with
  | (_, []) => none
  | (key, _ :: value) => some (String.ofList key, String.ofList value)

/-- A part is read as the label that it is the text of, the key ending at the first sign. -/
theorem read?_eq_some_iff {part : List Char} {e : Label} :
    read? part = some e ↔ part = e.text.toList ∧ '=' ∉ e.1.toList := by
  rw [read?, List.span_eq_takeWhile_dropWhile]
  constructor
  · intro h
    have hkey : '=' ∉ part.takeWhile (· != '=') := fun hmem => by
      simpa using List.mem_takeWhile_imp hmem
    have hpart := List.takeWhile_append_dropWhile (p := (· != '=')) (l := part)
    cases hvalue : part.dropWhile (· != '=') with
    | nil => simp [hvalue] at h
    | cons c value =>
      have hsign : c = '=' := by
        simpa [hvalue] using List.head_dropWhile_not (· != '=') (l := part) (by simp [hvalue])
      obtain rfl : (String.ofList (part.takeWhile (· != '=')), String.ofList value) = e := by
        simpa [hvalue] using h
      rw [hvalue, hsign] at hpart
      simpa [Label.toList_text, hkey] using hpart.symm
  · rintro ⟨rfl, hshort⟩
    have hall : ∀ c ∈ e.1.toList, (c != '=') = true := fun c hc => by
      simpa using fun heq : c = '=' => hshort (heq ▸ hc)
    simp [toList_text, List.takeWhile_append_of_pos hall, List.dropWhile_append_of_pos hall]

end Label

/-! ## Selectors -/

/-- No part of a split has the separator. -/
theorem not_mem_of_mem_splitOn {c : Char} {text part : List Char} (h : part ∈ text.splitOn c) :
    c ∉ part := by
  induction text generalizing part with
  | nil => simp_all
  | cons d text ih =>
    rw [List.splitOn_cons_eq_if_modifyHead] at h
    split at h
    next =>
      obtain rfl | h := List.mem_cons.1 h
      · exact List.not_mem_nil
      · exact ih h
    next hne =>
      -- The first part goes on with the character, which is not the separator.
      cases hparts : text.splitOn c with
      | nil => exact absurd hparts (List.splitOn_ne_nil c text)
      | cons first later =>
        rw [hparts] at h ih
        obtain rfl | h := List.mem_cons.1 h
        · simpa [ih List.mem_cons_self] using fun heq : c = d => hne (by simp [heq])
        · exact ih (List.mem_cons_of_mem _ h)

namespace Labels

/-- How a list of labels is written. -/
def written (entries : List Label) : String := ",".intercalate (entries.map Label.text)

/-- The labels that a selector asks for, one for each part. -/
def requirements? (selector : String) : Option (List Label) :=
  (selector.toList.splitOn ',').mapM Label.read?

/-- The label map that a selector asks for. Its keys have to be different. -/
def ofSelector? (selector : String) : Option Labels := do
  let entries ← requirements? selector
  if (entries.map Prod.fst).Nodup then some (ofList entries) else none

theorem mapM_read?_eq_some_iff {parts : List (List Char)} {entries : List Label} :
    parts.mapM Label.read? = some entries ↔
      parts = entries.map (·.text.toList) ∧ ∀ e ∈ entries, '=' ∉ e.1.toList := by
  induction parts generalizing entries with
  | nil => cases entries <;> simp
  | cons part parts ih =>
    rw [List.mapM_cons]
    cases entries with
    | nil => simp [Option.bind_eq_some_iff]
    | cons e entries =>
      have hcons :
          (do let e ← Label.read? part; let es ← parts.mapM Label.read?; return e :: es) =
              some (e :: entries) ↔
            Label.read? part = some e ∧ parts.mapM Label.read? = some entries := by
        simp [Option.bind_eq_some_iff]
      rw [hcons, ih, Label.read?_eq_some_iff]
      simp [and_and_and_comm]

theorem toList_written (entries : List Label) :
    (written entries).toList = [','].intercalate (entries.map (·.text.toList)) := by
  simp [written, String.toList_intercalate, Function.comp_def]

/-- A selector is read as some labels exactly if it is what they are written as and they can be
    told from it. -/
theorem requirements?_eq_some_iff {selector : String} {entries : List Label} :
    requirements? selector = some entries ↔
      entries ≠ [] ∧ selector = written entries ∧ ∀ e ∈ entries, e.IsLegible := by
  rw [requirements?, mapM_read?_eq_some_iff]
  constructor
  · rintro ⟨hparts, hkeys⟩
    have hne : entries ≠ [] := by
      rintro rfl
      exact List.splitOn_ne_nil ',' selector.toList hparts
    have hselector : selector = written entries := by
      rw [← String.toList_inj, toList_written, ← hparts, List.intercalate_splitOn]
    refine ⟨hne, hselector, fun e he => Label.isLegible_iff.2 ⟨hkeys e he, ?_⟩⟩
    exact not_mem_of_mem_splitOn (hparts ▸ List.mem_map_of_mem he)
  · rintro ⟨hne, rfl, hlegible⟩
    refine ⟨?_, fun e he => (Label.isLegible_iff.1 (hlegible e he)).1⟩
    rw [toList_written, List.splitOn_intercalate ',' _ (by simpa using hne)]
    intro part hpart
    obtain ⟨e, he, rfl⟩ := List.mem_map.1 hpart
    exact (Label.isLegible_iff.1 (hlegible e he)).2

/-- All labels of a map can be told from their texts. -/
def IsLegible (labels : Labels) : Prop := ∀ e ∈ labels.entries, Label.IsLegible e

instance : DecidablePred IsLegible := fun labels =>
  inferInstanceAs (Decidable (∀ e ∈ labels.entries, _))

theorem selector_eq_written (labels : Labels) : labels.selector = written labels.entries := rfl

theorem entries_ne_nil {labels : Labels} (h : labels.isEmpty = false) : labels.entries ≠ [] := by
  intro hnil
  simp [isEmpty, hnil] at h

/-- The keys of a map are different. -/
theorem nodup_keys (labels : Labels) : (labels.entries.map Prod.fst).Nodup :=
  List.pairwise_map.2 (labels.sorted.imp String.ne_of_lt)

/-- The selector of a map with legible labels lists them one after another. -/
theorem requirements?_selector {labels : Labels} (h : labels.isEmpty = false)
    (hlegible : labels.IsLegible) : requirements? labels.selector = some labels.entries :=
  requirements?_eq_some_iff.2 ⟨entries_ne_nil h, labels.selector_eq_written, hlegible⟩

/-- Maps with legible labels and the same selector are the same. -/
theorem selector_inj {a b : Labels} (ha : a.isEmpty = false) (hla : a.IsLegible)
    (hlb : b.IsLegible) (h : b.selector = a.selector) : a = b := by
  have hb : b.isEmpty = false := by
    cases hempty : b.isEmpty with
    | false => rfl
    | true =>
      -- Without labels the selector is empty.
      have hnil : b.entries = [] := List.isEmpty_iff.1 hempty
      refine absurd ?_ (selector_ne_empty ha)
      rw [← h, selector_eq_written, hnil]
      rfl
  have hread := requirements?_selector ha hla
  rw [← h, requirements?_selector hb hlb] at hread
  exact Labels.ext (Option.some.inj hread).symm

/-- A label that is not legible is not asked for by any selector. -/
theorem not_mem_requirements? {selector : String} {read : List Label} {e : Label}
    (h : requirements? selector = some read) (he : ¬ e.IsLegible) : e ∉ read :=
  fun hmem => he ((requirements?_eq_some_iff.1 h).2.2 e hmem)

/-! ## The order of labels -/

theorem perm_insertEntry {key : String} (value : String) {entries : List Label}
    (h : ∀ e ∈ entries, e.1 ≠ key) :
    (insertEntry key value entries).Perm ((key, value) :: entries) := by
  induction entries with
  | nil => exact .refl _
  | cons e entries ih =>
    obtain ⟨hne, h⟩ := List.forall_mem_cons.1 h
    unfold insertEntry
    split
    · exact .refl _
    · rw [if_neg (Ne.symm hne)]
      exact ((ih h).cons e).trans (.swap ..)

/-- Labels with new keys are all added to a map. -/
theorem perm_foldl_insert {given : List Label} (labels : Labels)
    (hkeys : (given.map Prod.fst).Nodup)
    (hnew : ∀ e ∈ labels.entries, ∀ e' ∈ given, e.1 ≠ e'.1) :
    (given.foldl (fun labels e => labels.insert e.1 e.2) labels).entries.Perm
      (labels.entries ++ given) := by
  -- By induction on the labels to come; none of them has a key of the map so far.
  induction given generalizing labels with
  | nil => simp
  | cons e given ih =>
    obtain ⟨hkey, hkeys⟩ := List.nodup_cons.1 hkeys
    have hinsert : (labels.insert e.1 e.2).entries.Perm (e :: labels.entries) :=
      perm_insertEntry e.2 fun l hl => hnew l hl e List.mem_cons_self
    have hrest := ih (labels.insert e.1 e.2) hkeys fun l hl e' he' => by
      obtain rfl | hl := List.mem_cons.1 (hinsert.mem_iff.1 hl)
      · exact fun heq => hkey (heq ▸ List.mem_map_of_mem he')
      · exact hnew l hl e' (List.mem_cons_of_mem _ he')
    exact (hrest.trans (hinsert.append_right given)).trans List.perm_middle.symm

/-- Labels with different keys are all in the map that they make. -/
theorem perm_ofList {given : List Label} (h : (given.map Prod.fst).Nodup) :
    (ofList given).entries.Perm given :=
  perm_foldl_insert empty h fun _ he => nomatch he

/-- Maps with the same labels are the same. -/
theorem eq_of_perm {a b : Labels} (h : a.entries.Perm b.entries) : a = b :=
  Labels.ext (h.eq_of_pairwise (fun _ _ _ _ hlt hgt => absurd hgt (String.lt_asymm hlt)) a.sorted
    b.sorted)

/-- The map of labels with different keys does not depend on their order. -/
theorem ofList_congr {given other : List Label} (h : (given.map Prod.fst).Nodup)
    (hperm : given.Perm other) : ofList given = ofList other :=
  eq_of_perm (((perm_ofList h).trans hperm).trans
    (perm_ofList ((hperm.map Prod.fst).nodup_iff.1 h)).symm)

/-- A map is read back from its selector exactly if all its labels are legible. -/
theorem ofSelector?_selector_iff {labels : Labels} (h : labels.isEmpty = false) :
    ofSelector? labels.selector = some labels ↔ labels.IsLegible := by
  constructor
  · intro hread
    obtain ⟨read, hrequired, hmap⟩ := Option.bind_eq_some_iff.1 hread
    obtain ⟨hnodup, rfl⟩ : (read.map Prod.fst).Nodup ∧ ofList read = labels := by
      simpa using hmap
    intro e he
    exact (requirements?_eq_some_iff.1 hrequired).2.2 e ((perm_ofList hnodup).mem_iff.1 he)
  · intro hlegible
    rw [ofSelector?, requirements?_selector h hlegible]
    simp [labels.nodup_keys, labels.ofList_entries]

end Labels

/-- Labels are only checked for being there. -/
theorem Spec.validate_labels {s : Spec} {labels : Labels} {experiment : String}
    {duration : Option Duration} (h : labels.isEmpty = false)
    (hs : s.validate experiment = some (.ok duration)) :
    ({ s with target := { s.target with labels } } : Spec).validate experiment =
      some (.ok duration) := by
  have hsame (hlabels : s.target.labels.isEmpty = false) :
      ({ s with target := { s.target with labels } } : Spec).verdict = s.verdict := by
    simp [verdict, h, hlabels]
  cases hv : s.verdict with
  | valid => rwa [validate, hsame (of_verdict_eq_valid hv).2.1]
  | invalid | abort => simp [validate, hv, Verdict.result?] at hs

/-! ## The main result -/

/-- A selector stands for the label map that it was written for exactly if no key has a comma or
    an equality sign and no value has a comma. Such maps have different selectors, and all labels
    that were given are listed once, in the order of their keys, whatever the order in which they
    were given. The selector of any other map, which passes all checks as well, cannot be read, or
    it does not ask for some label of the map. -/
theorem selector_denotes (labels : Labels) (h : labels.isEmpty = false) :
    (Labels.ofSelector? labels.selector = some labels ↔ labels.IsLegible) ∧
    (labels.IsLegible →
      (∀ other : Labels, other.IsLegible → other.selector = labels.selector → other = labels) ∧
      ∀ given : List Label, (given.map Prod.fst).Nodup → Labels.ofList given = labels →
        ∃ read, Labels.requirements? labels.selector = some read ∧ read.Perm given ∧
          read.Pairwise fun a b => a.1 < b.1) ∧
    (∀ given other : List Label, (given.map Prod.fst).Nodup → given.Perm other →
      (Labels.ofList given).selector = (Labels.ofList other).selector) ∧
    (¬ labels.IsLegible →
      (∀ read, Labels.requirements? labels.selector = some read →
        ∃ e ∈ labels.entries, e ∉ read) ∧
      ∀ (s : Spec) (experiment : String) (duration : Option Duration),
        s.validate experiment = some (.ok duration) →
        ({ s with target := { s.target with labels } } : Spec).validate experiment =
          some (.ok duration)) := by
  refine ⟨Labels.ofSelector?_selector_iff h, fun hlegible => ⟨fun other hother hsame => ?_,
    fun given hnodup hmap => ?_⟩, fun given other hnodup hperm => ?_,
    fun hillegible => ⟨fun read hread => ?_, fun s experiment duration => ?_⟩⟩
  · exact (Labels.selector_inj h hlegible hother hsame).symm
  · refine ⟨labels.entries, Labels.requirements?_selector h hlegible, ?_, labels.sorted⟩
    exact hmap ▸ Labels.perm_ofList hnodup
  · rw [Labels.ofList_congr hnodup hperm]
  · obtain ⟨e, he, hsigns⟩ : ∃ e ∈ labels.entries, ¬ Label.IsLegible e := by
      simpa [Labels.IsLegible] using hillegible
    exact ⟨e, he, Labels.not_mem_requirements? hread hsigns⟩
  · exact Spec.validate_labels h

/-- An equality sign in a value does no harm. In a key it does: two labels are written alike, and
    both parts are read as the first of them. -/
theorem selector_denotes_doubled :
    let plain : Labels := ⟨[("app", "web"), ("tier", "a=b")], by decide⟩
    let doubled : Labels := ⟨[("a", "b=1"), ("a=b", "1")], by decide⟩
    (plain.isEmpty = false ∧ plain.IsLegible ∧
      Labels.ofSelector? plain.selector = some plain) ∧
    doubled.isEmpty = false ∧ ¬ doubled.IsLegible ∧
      Labels.requirements? doubled.selector = some [("a", "b=1"), ("a", "b=1")] ∧
      Labels.ofSelector? doubled.selector ≠ some doubled ∧
      ∃ e ∈ doubled.entries, e ∉ [("a", "b=1"), ("a", "b=1")] := by
  intro plain doubled
  have hillegible : ¬ doubled.IsLegible := by decide
  have hread : Labels.requirements? doubled.selector = some [("a", "b=1"), ("a", "b=1")] := by
    decide
  exact ⟨⟨rfl, by decide, (selector_denotes plain rfl).1.2 (by decide)⟩, rfl, hillegible, hread,
    mt (selector_denotes doubled rfl).1.1 hillegible,
    ((selector_denotes doubled rfl).2.2.2 hillegible).1 _ hread⟩

end ChaosController
