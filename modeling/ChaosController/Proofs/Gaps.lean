/-
  ChaosController.Proofs.Gaps

  Documents that differ in one member of an object.

  The members around it may be anything, decodable or not. As long as the field of the member
  passes two values alike, a record fails for both with the same error or for neither of them, and
  only what is decoded from the member itself can differ (`decodeRecord_fill`). Setting a member of
  an object in memory fills a gap of its sorted members (`exists_gap_sorted`).
-/

import ChaosController.Proofs.Documents
import ChaosController.Proofs.Records

namespace ChaosController

namespace Json

/-! ## Gaps -/

theorem lookup_eq_none_of_ne {name : String} {ms : List (String × Json)}
    (h : ∀ m ∈ ms, m.1 ≠ name) : ms.lookup name = none :=
  List.lookup_eq_none_iff.2 fun m hm => by simpa using (h m hm).symm

/-- What stands around a member of an object. -/
structure Gap where
  before : List (String × Json)
  after : List (String × Json)

namespace Gap

/-- The members with one in the gap. -/
def filled (g : Gap) (name : String) (value : Json) : List (String × Json) :=
  g.before ++ (name, value) :: g.after

/-- The object with a member in the gap. -/
def fill (g : Gap) (name : String) (value : Json) : Json := obj (g.filled name value)

/-- The object without a member in the gap. -/
def close (g : Gap) : Json := obj (g.before ++ g.after)

/-- The name is not that of a member around the gap. -/
def Lacks (g : Gap) (name : String) : Prop := ∀ m ∈ g.before ++ g.after, m.1 ≠ name

variable {g : Gap} {name n : String} {value : Json}

theorem lookup_filled_self (h : ∀ m ∈ g.before, m.1 ≠ name) :
    (g.filled name value).lookup name = some value := by
  rw [filled, List.lookup_append, lookup_eq_none_of_ne h, Option.none_or, List.lookup_cons_self]

theorem lookup_filled_of_ne (h : n ≠ name) :
    (g.filled name value).lookup n = (g.before ++ g.after).lookup n := by
  rw [filled, List.lookup_append, List.lookup_append, List.lookup_cons, beq_eq_false_iff_ne.2 h]

end Gap

/-! ## Checks of members -/

section Checks

variable {fields : List Field} {f : Field} {name : String} {x y : Json} {g : Gap}
  {seen seen' : List String} {ms : List (String × Json)}

/-- Values that their field passes alike make no difference to the check of the members. -/
theorem checkMembers_filled (hfind : fields.find? (·.name == name) = some f)
    (hx : nameFault? x = none) (hy : nameFault? y = none) (hcheck : f.check x = f.check y) :
    checkMembers fields seen (g.filled name x) = checkMembers fields seen (g.filled name y) := by
  obtain ⟨before, after⟩ := g
  simp only [Gap.filled]
  -- By induction on the members in front, which may add to what has been seen.
  induction before generalizing seen with
  | nil => simp only [List.nil_append, checkMembers, hx, hy, hfind, hcheck]
  | cons m before ih => simp only [List.cons_append, checkMembers, ih]

/-- Of the fields that have been seen those count whose names come again. -/
theorem checkMembers_congr (h : ∀ m ∈ ms, m.1 ∈ seen ↔ m.1 ∈ seen') :
    checkMembers fields seen ms = checkMembers fields seen' ms := by
  induction ms generalizing seen seen' with
  | nil => rfl
  | cons m ms ih =>
    obtain ⟨hm, hms⟩ := List.forall_mem_cons.1 h
    have hcontains : seen.contains m.1 = seen'.contains m.1 := by
      simp only [List.contains_eq_mem, hm]
    have hseen : checkMembers fields (m.1 :: seen) ms = checkMembers fields (m.1 :: seen') ms :=
      ih fun m' hm' => by simp only [List.mem_cons, hms m' hm']
    rw [checkMembers, checkMembers, hcontains, hseen, ih hms]

/-- A member that passes might as well be missing, if no other has its name. -/
theorem checkMembers_filled_of_ok (hfind : fields.find? (·.name == name) = some f)
    (hx : nameFault? x = none) (hcheck : f.check x = .ok ()) (hlacks : g.Lacks name)
    (hseen : name ∉ seen) :
    checkMembers fields seen (g.filled name x) =
      checkMembers fields seen (g.before ++ g.after) := by
  obtain ⟨before, after⟩ := g
  simp only [Gap.filled, Gap.Lacks] at hlacks ⊢
  induction before generalizing seen with
  | nil =>
    -- The name now counts as seen, but it does not come again.
    have hafter : checkMembers fields (name :: seen) after = checkMembers fields seen after :=
      checkMembers_congr fun m hm => by simp [hlacks m hm]
    simp [checkMembers, hx, hfind, hseen, hcheck, hafter, bind, Except.bind]
  | cons m before ih =>
    obtain ⟨hm, hrest⟩ := List.forall_mem_cons.1 hlacks
    have hnew : name ∉ m.1 :: seen := by simp [hm.symm, hseen]
    simp only [List.cons_append, checkMembers, ih hseen hrest, ih hnew hrest]

/-- The members in front of one that passes have other names. -/
theorem ne_of_checkMembers (hfind : fields.find? (·.name == name) = some f)
    (h : checkMembers fields [] (g.filled name x) = .ok ()) : ∀ m ∈ g.before, m.1 ≠ name := by
  obtain ⟨-, hnodup, -⟩ := checkMembers_eq_ok.1 h
  have hgiven : given fields (g.filled name x) =
      given fields g.before ++ name :: given fields g.after := by
    rw [← given_cons_of_some (j := x) hfind]
    simp only [given, Gap.filled, List.map_append, List.filter_append]
  rw [hgiven] at hnodup
  -- A member in front with the same name would make the field given twice.
  intro m hm heq
  have hmem : name ∈ given fields g.before :=
    mem_given.2 ⟨⟨m.2, heq ▸ hm⟩, by rw [hfind]; rfl⟩
  exact (List.nodup_append.1 hnodup).2.2 name hmem name List.mem_cons_self rfl

end Checks

/-! ## Records -/

section Records

variable {α β : Type} {shape : Shape} {build : Parts → Decoded α} {source : Source} {f : Field}
  {name n : String} {x y : Json} {g : Gap} {index : Nat} {decode : Json → Decoded β} {default : β}

theorem required_filled_self (h : ∀ m ∈ g.before, m.1 ≠ name) :
    shape.required (.named (g.filled name x)) index name decode = decode x := by
  simp only [Shape.required, Gap.lookup_filled_self h]

theorem required_filled_of_ne (h : n ≠ name) :
    shape.required (.named (g.filled name x)) index n decode =
      shape.required (.named (g.before ++ g.after)) index n decode := by
  simp only [Shape.required, Gap.lookup_filled_of_ne h]

theorem optional_filled_self (h : ∀ m ∈ g.before, m.1 ≠ name) :
    optional (.named (g.filled name x)) index name default decode = decode x :=
  optional_of_lookup (Gap.lookup_filled_self h)

theorem optional_filled_of_ne (h : n ≠ name) :
    optional (.named (g.filled name x)) index n default decode =
      optional (.named (g.before ++ g.after)) index n default decode :=
  optional_congr (Gap.lookup_filled_of_ne h)

/-- A field passes values alike if they decode alike. -/
theorem check_field_congr {change : β → β} (h : decode x = change <$> decode y) :
    (field name decode).check x = (field name decode).check y := by
  simp only [field, h]
  cases decode y <;> rfl

/-- A record with one of two values that their field passes alike: either it fails with the same
    error, or what is built of the members counts. -/
theorem decodeRecord_fill {change : α → α} (hfind : shape.fields.find? (·.name == name) = some f)
    (hx : nameFault? x = none) (hy : nameFault? y = none) (hcheck : f.check x = f.check y)
    (hbuild : (∀ m ∈ g.before, m.1 ≠ name) →
      build (.named (g.filled name x)) = change <$> build (.named (g.filled name y))) :
    decodeRecord shape build source (g.fill name x) =
      change <$> decodeRecord shape build source (g.fill name y) := by
  simp only [Gap.fill, decodeRecord, checkMembers_filled hfind hx hy hcheck]
  cases hmembers : checkMembers shape.fields [] (g.filled name y) with
  | error e => rfl
  | ok => exact hbuild (ne_of_checkMembers hfind hmembers)

/-- A record without a member: it decodes as with one that passes, if the same is built. -/
theorem decodeRecord_close (hfind : shape.fields.find? (·.name == name) = some f)
    (hx : nameFault? x = none) (hcheck : f.check x = .ok ()) (hlacks : g.Lacks name)
    (hbuild : build (.named (g.before ++ g.after)) = build (.named (g.filled name x))) :
    decodeRecord shape build source g.close = decodeRecord shape build source (g.fill name x) := by
  simp only [Gap.fill, Gap.close, decodeRecord, hbuild,
    checkMembers_filled_of_ok hfind hx hcheck hlacks List.not_mem_nil]

end Records

/-! ## Sorted members -/

section Sorted

variable {name : String} {ms : List (String × Json)}

theorem sorted_str (s : String) : (str s).sorted = str s := (Plain.str s).sorted_eq

theorem sorted_null : null.sorted = null := by simp [sorted]

theorem sortedMembers_eq_map (ms : List (String × Json)) :
    sortedMembers ms = ms.map fun m => (m.1, m.2.sorted) := by
  induction ms with
  | nil => rw [sortedMembers, List.map_nil]
  | cons m ms ih => rw [sortedMembers, ih, List.map_cons]

theorem sortMembers_concat (ms : List (String × Json)) (m : String × Json) :
    sortMembers (ms ++ [m]) = insertMember m.1 m.2 (sortMembers ms) := by
  rw [sortMembers, List.foldl_append]
  rfl

theorem mem_of_mem_insertMember {value : Json} {m : String × Json}
    (h : m ∈ insertMember name value ms) : m = (name, value) ∨ m ∈ ms := by
  induction ms with
  | nil => exact .inl (List.mem_singleton.1 h)
  | cons m' ms ih =>
    rw [insertMember] at h
    split at h
    · simpa using h
    · split at h
      · rcases List.mem_cons.1 h with h | h
        · exact .inl h
        · exact .inr (List.mem_cons_of_mem _ h)
      · rcases List.mem_cons.1 h with h | h
        · exact .inr (h ▸ List.mem_cons_self)
        · exact (ih h).imp_right (List.mem_cons_of_mem _)

/-- Sorting brings no members in. -/
theorem mem_of_mem_sortMembers {m : String × Json} (h : m ∈ sortMembers ms) : m ∈ ms := by
  induction ms using List.reverseRecOn with
  | nil => exact h
  | append_singleton ms m' ih =>
    rw [sortMembers_concat] at h
    rcases mem_of_mem_insertMember h with h | h
    · exact List.mem_append_right _ (List.mem_singleton.2 h)
    · exact List.mem_append_left _ (ih h)

/-- Where a new member goes depends on its name. -/
theorem exists_gap_insertMember (h : ∀ m ∈ ms, m.1 ≠ name) :
    ∃ g : Gap, g.before ++ g.after = ms ∧
      ∀ value, insertMember name value ms = g.filled name value := by
  induction ms with
  | nil => exact ⟨⟨[], []⟩, rfl, fun _ => rfl⟩
  | cons m ms ih =>
    obtain ⟨hm, hms⟩ := List.forall_mem_cons.1 h
    by_cases hlt : name < m.1
    · exact ⟨⟨[], m :: ms⟩, rfl, fun value => if_pos hlt⟩
    · obtain ⟨g, hg, hinsert⟩ := ih hms
      refine ⟨⟨m :: g.before, g.after⟩, congrArg _ hg, fun value => ?_⟩
      rw [insertMember, if_neg hlt, if_neg hm.symm, hinsert]
      rfl

/-- A member that is set in memory fills a gap between the others, and taking it out leaves the
    gap. -/
theorem exists_gap_sorted (name : String) (ms : List (String × Json)) :
    ∃ g : Gap, g.Lacks name ∧ (obj (removeMember name ms)).sorted = g.close ∧
      ∀ value, (obj (setMember name value ms)).sorted = g.fill name value.sorted := by
  have hlacks : ∀ m ∈ sortMembers (sortedMembers (removeMember name ms)), m.1 ≠ name := by
    intro m hm
    have hm := mem_of_mem_sortMembers hm
    rw [sortedMembers_eq_map] at hm
    obtain ⟨m', hm', rfl⟩ := List.mem_map.1 hm
    exact (mem_removeMember.1 hm').2
  obtain ⟨g, hg, hinsert⟩ := exists_gap_insertMember hlacks
  refine ⟨g, fun m hm => hlacks m (hg ▸ hm), ?_, fun value => ?_⟩
  · rw [sorted, Gap.close, hg]
  · have hset : sortedMembers (setMember name value ms) =
        sortedMembers (removeMember name ms) ++ [(name, value.sorted)] := by
      simp only [sortedMembers_eq_map, setMember, List.map_append, List.map_singleton]
    rw [sorted, hset, sortMembers_concat, hinsert]
    rfl

end Sorted

end Json

end ChaosController
