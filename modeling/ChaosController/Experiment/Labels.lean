/-
  ChaosController.Experiment.Labels

  Label maps: every key once, in the order of the keys.

  Keys are ordered by their code points, which is the order of their UTF-8 bytes. A label
  map does not remember in which order its labels were given.
-/

namespace ChaosController

/-- Label maps, as lists of keys and values with strictly increasing keys. -/
structure Labels where
  entries : List (String × String)
  sorted : entries.Pairwise (fun a b => a.1 < b.1) := by simp
deriving DecidableEq

namespace Labels

/-- No labels. -/
def empty : Labels := ⟨[], List.Pairwise.nil⟩

instance : Inhabited Labels := ⟨empty⟩

/-- Puts a label into its place. Of two labels with one key the later one stays. -/
def insertEntry (key value : String) : List (String × String) → List (String × String)
  | [] => [(key, value)]
  | (k, v) :: rest =>
    if key < k then (key, value) :: (k, v) :: rest
    else if key = k then (key, value) :: rest
    else (k, v) :: insertEntry key value rest

theorem mem_insertEntry {key value : String} {e : String × String}
    {entries : List (String × String)} (h : e ∈ insertEntry key value entries) :
    e = (key, value) ∨ e ∈ entries := by
  induction entries with
  | nil => simpa [insertEntry] using h
  | cons head rest ih =>
    obtain ⟨k, v⟩ := head
    unfold insertEntry at h
    split at h
    · simpa using h
    · split at h
      · simp only [List.mem_cons] at h ⊢
        exact h.imp_right Or.inr
      · simp only [List.mem_cons] at h ⊢
        rcases h with h | h
        · exact .inr (.inl h)
        · exact (ih h).imp_right Or.inr

theorem sorted_insertEntry (key value : String) {entries : List (String × String)}
    (h : entries.Pairwise (fun a b => a.1 < b.1)) :
    (insertEntry key value entries).Pairwise (fun a b => a.1 < b.1) := by
  induction entries with
  | nil => simp [insertEntry]
  | cons head rest ih =>
    obtain ⟨k, v⟩ := head
    rw [List.pairwise_cons] at h
    unfold insertEntry
    split
    · rename_i hlt
      refine List.pairwise_cons.2 ⟨fun e he => ?_, List.pairwise_cons.2 h⟩
      rcases List.mem_cons.1 he with rfl | he
      · exact hlt
      · exact String.lt_trans hlt (h.1 e he)
    · split
      · rename_i heq
        subst heq
        exact List.pairwise_cons.2 h
      · rename_i hlt hne
        refine List.pairwise_cons.2 ⟨fun e he => ?_, ih h.2⟩
        rcases mem_insertEntry he with rfl | he
        · refine Decidable.byContradiction fun hk => hne ?_
          exact String.le_antisymm (String.not_lt.1 hk) (String.not_lt.1 hlt)
        · exact h.1 e he

/-- Adds a label, in place of one with the same key. -/
def insert (labels : Labels) (key value : String) : Labels :=
  ⟨insertEntry key value labels.entries, sorted_insertEntry key value labels.sorted⟩

/-- The label map of a list of labels. The last label with a key counts. -/
def ofList (entries : List (String × String)) : Labels :=
  entries.foldl (fun labels e => labels.insert e.1 e.2) empty

@[ext] theorem ext {a b : Labels} (h : a.entries = b.entries) : a = b := by
  cases a; cases b; cases h; rfl

@[simp] theorem entries_insert (labels : Labels) (key value : String) :
    (labels.insert key value).entries = insertEntry key value labels.entries := rfl

/-- Whether there are no labels. -/
def isEmpty (labels : Labels) : Bool := labels.entries.isEmpty

/-- The selector that asks for all of the labels, `key=value` for each of them. -/
def selector (labels : Labels) : String :=
  ",".intercalate (labels.entries.map fun e => e.1 ++ "=" ++ e.2)

end Labels

end ChaosController
