/-
  ChaosController.Proofs.Documents

  Documents of strings, lists and objects, with the members of an object in the order of their
  names (`Json.Plain`).

  Such a document is decoded as it stands (`Json.decodeValue_of_plain`), and its text is read as
  the document that it was printed from (`Json.Plain.read_print`): every character of a string is
  told from its escape, and nothing is left behind the last bracket.
-/

import ChaosController.Json.Decoding
import ChaosController.Json.Printing
import ChaosController.Proofs.Digits
import Mathlib.Data.List.Induction

namespace ChaosController

/-! ## Sorted entries -/

/-- Entries in the order of their keys stay as they are when they are put into their places one
    after another, behind all that have a smaller key. -/
theorem foldl_insert_of_pairwise {β : Type}
    (insert : String → β → List (String × β) → List (String × β))
    (hnil : ∀ key value, insert key value [] = [(key, value)])
    (hcons : ∀ {key k : String} (value v : β) (rest : List (String × β)), k < key →
      insert key value ((k, v) :: rest) = (k, v) :: insert key value rest)
    {entries : List (String × β)} (h : entries.Pairwise fun a b => a.1 < b.1) :
    entries.foldl (fun sorted e => insert e.1 e.2 sorted) [] = entries := by
  have hlast (key : String) (value : β) (entries : List (String × β))
      (hlt : ∀ e ∈ entries, e.1 < key) : insert key value entries = entries ++ [(key, value)] := by
    induction entries with
    | nil => exact hnil key value
    | cons e entries ih =>
      obtain ⟨hk, hlt⟩ := List.forall_mem_cons.1 hlt
      exact (hcons value e.2 entries hk).trans (congrArg _ (ih hlt))
  -- By induction on the end of the list, where the next entry comes to stand.
  induction entries using List.reverseRecOn with
  | nil => rfl
  | append_singleton entries e ih =>
    obtain ⟨hentries, -, hlt⟩ := List.pairwise_append.1 h
    rw [List.foldl_append, ih hentries]
    exact hlast e.1 e.2 entries fun x hx => hlt x hx e (List.mem_singleton_self e)

namespace Json

theorem insertMember_cons_of_lt {name n : String} (value v : Json) (rest : List (String × Json))
    (h : n < name) :
    insertMember name value ((n, v) :: rest) = (n, v) :: insertMember name value rest := by
  rw [insertMember, if_neg (String.lt_asymm h), if_neg (String.ne_of_lt h).symm]

/-! ## Plain documents -/

/-- Documents of strings, lists and objects, with the members of an object in the order of their
    names. -/
inductive Plain : Json → Prop
  | str (s : String) : Plain (.str s)
  | arr {items : List Json} (hitems : ∀ j ∈ items, Plain j) : Plain (.arr items)
  | obj {ms : List (String × Json)} (hms : ∀ m ∈ ms, Plain m.2)
      (hnames : ms.Pairwise fun a b => a.1 < b.1) : Plain (.obj ms)

variable {j : Json} {items : List Json} {ms : List (String × Json)}

theorem sortedItems_eq_self (h : ∀ j ∈ items, j.sorted = j) : sortedItems items = items := by
  induction items with
  | nil => rw [sortedItems]
  | cons j items ih =>
    obtain ⟨hj, hitems⟩ := List.forall_mem_cons.1 h
    rw [sortedItems, ih hitems, hj]

theorem sortedMembers_eq_self (h : ∀ m ∈ ms, m.2.sorted = m.2) : sortedMembers ms = ms := by
  induction ms with
  | nil => rw [sortedMembers]
  | cons m ms ih =>
    obtain ⟨hm, hms⟩ := List.forall_mem_cons.1 h
    rw [sortedMembers, ih hms, hm]

/-- Sorting leaves a plain document as it is. -/
theorem Plain.sorted_eq (h : j.Plain) : j.sorted = j := by
  induction h with
  | str s =>
    rw [sorted]
    all_goals nofun
  | arr _ ih => rw [sorted, sortedItems_eq_self ih]
  | obj _ hnames ih =>
    rw [sorted, sortedMembers_eq_self ih]
    exact congrArg Json.obj
      (foldl_insert_of_pairwise insertMember (fun _ _ => rfl) insertMember_cons_of_lt hnames)

/-- A plain document is decoded as it stands. -/
theorem decodeValue_of_plain {α : Type} {decode : Source → Json → Decoded α} (h : j.Plain) :
    decodeValue decode j = decode .value j := congrArg (decode .value) h.sorted_eq

/-! ## Strings -/

theorem hexValue?_hexDigit (n : Nat) : hexValue? (hexDigit n) = some (n % 16) := by
  have hall : ∀ k < 16, hexValue? (Nat.digitChar k) = some k := by decide
  exact hall _ (Nat.mod_lt n (by decide))

/-- How a character is written: by a letter, by its number if it is a control character, or as it
    is. -/
theorem escaped_cases (c : Char) :
    (∃ e, escaped c = ['\\', e] ∧ e ≠ 'u' ∧ shortEscape? e = some c) ∨
      (c.toNat < 0x20 ∧
        escaped c = ['\\', 'u', '0', '0', hexDigit (c.toNat / 16), hexDigit c.toNat]) ∨
      (escaped c = [c] ∧ c ≠ '"' ∧ c ≠ '\\' ∧ ¬ c.toNat < 0x20) := by
  unfold escaped
  split
  iterate 7 exact .inl ⟨_, rfl, by decide, rfl⟩
  next hquote hbackslash _ _ _ _ _ =>
    split
    next hlow => exact .inr (.inl ⟨hlow, rfl⟩)
    next hlow => exact .inr (.inr ⟨rfl, hquote, hbackslash, hlow⟩)

theorem readHex_controlCharacter {n : Nat} (h : n < 0x20) (rest : List Char) :
    readHex ('0' :: '0' :: hexDigit (n / 16) :: hexDigit n :: rest) = .ok (n, rest) := by
  have hzero : hexValue? '0' = some 0 := rfl
  simp only [readHex, hzero, hexValue?_hexDigit]
  congr 2
  omega

/-- The escape of a character is read as the character. -/
theorem readString_escaped (steps : Nat) (c : Char) (text : List Char) :
    readString (steps + 1) (escaped c ++ text) = .push c (readString steps text) := by
  obtain ⟨e, hescaped, hu, hshort⟩ | ⟨hlow, hescaped⟩ | ⟨hescaped, hquote, hbackslash, hlow⟩ :=
    escaped_cases c
  · simp [hescaped, readString, hshort]
  · -- A control character is no half of a surrogate pair.
    have hsmall : c.toNat < 0xD800 := by omega
    have hnotLow : ¬ (0xDC00 ≤ c.toNat ∧ c.toNat ≤ 0xDFFF) := by omega
    simp only [hescaped, List.cons_append, List.nil_append, readString,
      readHex_controlCharacter hlow]
    simp [hsmall, hnotLow]
  · simp [hescaped, readString, hquote, hbackslash, hlow]

/-- The characters of a string are read back from their escapes. -/
theorem readString_flatMap_escaped {cs : List Char} {steps : Nat} (h : cs.length < steps)
    (rest : List Char) :
    readString steps (cs.flatMap escaped ++ '"' :: rest) = ⟨cs, none, .ok rest⟩ := by
  induction cs generalizing steps with
  | nil =>
    obtain _ | steps := steps
    · simp at h
    · rfl
  | cons c cs ih =>
    obtain _ | steps := steps
    · simp at h
    · rw [List.flatMap_cons, List.append_assoc, readString_escaped,
        ih (Nat.lt_of_succ_lt_succ h)]
      rfl

theorem length_le_flatMap_escaped (cs : List Char) : cs.length ≤ (cs.flatMap escaped).length := by
  induction cs with
  | nil => simp
  | cons c cs ih =>
    have hpos : 1 ≤ (escaped c).length := by
      obtain ⟨e, hescaped, -⟩ | ⟨-, hescaped⟩ | ⟨hescaped, -⟩ := escaped_cases c <;>
        simp [hescaped]
    rw [List.flatMap_cons, List.length_append, List.length_cons]
    omega

/-- The text of a string behind its opening quote. -/
def stringTail (s : String) : List Char := s.toList.flatMap escaped ++ ['"']

theorem toList_printString (s : String) : (printString s).toList = '"' :: stringTail s := by
  simp [printString, stringTail]

/-- A string is read back from its text. -/
theorem readString_stringTail (s : String) {steps : Nat} {rest : List Char}
    (h : (stringTail s ++ rest).length < steps) :
    readString steps (stringTail s ++ rest) = ⟨s.toList, none, .ok rest⟩ := by
  have hlength := length_le_flatMap_escaped s.toList
  have hsteps : s.toList.length < steps := by
    simp only [stringTail, List.length_append] at h
    omega
  have htext : stringTail s ++ rest = s.toList.flatMap escaped ++ '"' :: rest := by
    simp [stringTail]
  rw [htext, readString_flatMap_escaped hsteps]

/-! ## Texts of documents -/

/-- The texts of the items behind the first one of a list. -/
def itemsTail (items : List Json) : List Char := items.flatMap fun j => ',' :: j.print.toList

/-- The text of a member behind the opening quote of its name. -/
def memberTail (m : String × Json) : List Char := stringTail m.1 ++ ':' :: m.2.print.toList

/-- The texts of the members behind the first one of an object. -/
def membersTail (ms : List (String × Json)) : List Char :=
  ms.flatMap fun m => ',' :: '"' :: memberTail m

theorem length_memberTail (m : String × Json) :
    (memberTail m).length = (stringTail m.1).length + (m.2.print.toList.length + 1) := by
  rw [memberTail, List.length_append, List.length_cons]

theorem toList_intercalate_cons (t : String) (ts : List String) :
    (",".intercalate (t :: ts)).toList = t.toList ++ ts.flatMap fun t => ',' :: t.toList := by
  induction ts generalizing t with
  | nil => simp
  | cons t' ts ih =>
    rw [String.intercalate_cons_cons, String.toList_append, String.toList_append, ih]
    simp

theorem toList_print_str (s : String) : (str s).print.toList = '"' :: stringTail s := by
  rw [print, toList_printString]

theorem printItems_eq_map (items : List Json) : printItems items = items.map print := by
  induction items with
  | nil => rw [printItems, List.map_nil]
  | cons j items ih => rw [printItems, ih, List.map_cons]

theorem printMembers_eq_map (ms : List (String × Json)) :
    printMembers ms = ms.map fun m => printString m.1 ++ ":" ++ m.2.print := by
  induction ms with
  | nil => rw [printMembers, List.map_nil]
  | cons m ms ih => rw [printMembers, ih, List.map_cons]

theorem toList_print_arr_cons (j : Json) (items : List Json) :
    (arr (j :: items)).print.toList =
      '[' :: (j.print.toList ++ (itemsTail items ++ [']'])) := by
  have hitems : (",".intercalate ((j :: items).map print)).toList =
      j.print.toList ++ itemsTail items := by
    rw [List.map_cons, toList_intercalate_cons, List.flatMap_map, itemsTail]
  rw [print, printItems_eq_map, String.toList_append, String.toList_append, hitems]
  simp

theorem toList_print_obj_cons (m : String × Json) (ms : List (String × Json)) :
    (obj (m :: ms)).print.toList =
      '\x7b' :: '"' :: (memberTail m ++ (membersTail ms ++ ['\x7d'])) := by
  have htext (m : String × Json) :
      (printString m.1 ++ ":" ++ m.2.print).toList = '"' :: memberTail m := by
    simp [memberTail, toList_printString]
  have hmembers : (",".intercalate (printMembers (m :: ms))).toList =
      '"' :: memberTail m ++ membersTail ms := by
    rw [printMembers_eq_map, List.map_cons, toList_intercalate_cons, List.flatMap_map, htext]
    simp only [htext, membersTail]
  rw [print, String.toList_append, String.toList_append, hmembers]
  simp

/-- The characters that the text of a plain document may begin with. -/
def Opens (c : Char) : Prop := c = '"' ∨ c = '[' ∨ c = '\x7b'

theorem Plain.print_cons (h : j.Plain) : ∃ c text, j.print.toList = c :: text ∧ Opens c := by
  cases h with
  | str s => exact ⟨_, _, toList_print_str s, .inl rfl⟩
  | @arr items _ =>
    cases items with
    | nil => exact ⟨_, _, rfl, .inr (.inl rfl)⟩
    | cons j items => exact ⟨_, _, toList_print_arr_cons j items, .inr (.inl rfl)⟩
  | @obj ms _ _ =>
    cases ms with
    | nil => exact ⟨_, _, rfl, .inr (.inr rfl)⟩
    | cons m ms => exact ⟨_, _, toList_print_obj_cons m ms, .inr (.inr rfl)⟩

theorem Plain.length_print_pos (h : j.Plain) : 0 < j.print.toList.length := by
  obtain ⟨c, text, htext, -⟩ := h.print_cons
  simp [htext]

/-! ## Reading lists and objects -/

variable {rest more text : List Char} {steps : Nat} {c : Char}

theorem skipSpace_cons (h : isSpace c = false) : skipSpace (c :: text) = c :: text := by
  simp [skipSpace, h]

theorem Opens.skipSpace (hc : Opens c) : skipSpace (c :: text) = c :: text := by
  obtain rfl | rfl | rfl := hc <;> exact skipSpace_cons rfl

theorem skipSpace_itemsTail : skipSpace (itemsTail items ++ ']' :: rest) =
    itemsTail items ++ ']' :: rest := by
  cases items with
  | nil => exact skipSpace_cons rfl
  | cons j items => exact skipSpace_cons rfl

theorem skipSpace_membersTail : skipSpace (membersTail ms ++ '\x7d' :: rest) =
    membersTail ms ++ '\x7d' :: rest := by
  cases ms with
  | nil => exact skipSpace_cons rfl
  | cons m ms => exact skipSpace_cons rfl

theorem readItems_cons (hc : Opens c) (hread : readValue steps (c :: text) = (j, some more))
    (hmore : readMoreItems steps (skipSpace more) = (items, some rest)) :
    readItems (steps + 1) (c :: text) = (j :: items, some rest) := by
  obtain rfl | rfl | rfl := hc <;> simp [readItems, hread, hmore]

theorem readMoreItems_cons (hc : Opens c) (hread : readValue steps (c :: text) = (j, some more))
    (hmore : readMoreItems steps (skipSpace more) = (items, some rest)) :
    readMoreItems (steps + 1) (',' :: c :: text) = (j :: items, some rest) := by
  have hspace : skipSpace (c :: text) = c :: text := hc.skipSpace
  obtain rfl | rfl | rfl := hc <;> simp [readMoreItems, hspace, hread, hmore]

theorem readMember_cons {m : String × Json}
    (hread : readValue steps (m.2.print.toList ++ more) = (m.2, some more))
    (hmore : readMoreMembers steps (skipSpace more) = (ms, some rest)) :
    readMember (steps + 1) (memberTail m ++ more) = (m :: ms, some rest) := by
  have hname : readString ((memberTail m ++ more).length + 1) (memberTail m ++ more) =
      ⟨m.1.toList, none, .ok (':' :: (m.2.print.toList ++ more))⟩ := by
    rw [memberTail, List.append_assoc]
    exact readString_stringTail m.1 (Nat.lt_succ_self _)
  have hcolon : skipSpace (':' :: (m.2.print.toList ++ more)) =
      ':' :: (m.2.print.toList ++ more) := skipSpace_cons rfl
  simp only [readMember, hname, hcolon, hread, hmore]
  simp [member, StringReading.fault?]

/-- A document is read off the front of a text, if there are as many steps as it has
    characters. -/
def ReadsBack (j : Json) : Prop :=
  ∀ (steps : Nat) (rest : List Char), j.print.toList.length ≤ steps →
    readValue steps (j.print.toList ++ rest) = (j, some rest)

/-- The items behind the first one are read back, each with one step for its comma. -/
theorem readMoreItems_itemsTail (hplain : ∀ j ∈ items, j.Plain) (h : ∀ j ∈ items, j.ReadsBack)
    (hsteps : (itemsTail items).length < steps) :
    readMoreItems steps (itemsTail items ++ ']' :: rest) = (items, some rest) := by
  induction items generalizing steps with
  | nil =>
    obtain _ | steps := steps
    · simp at hsteps
    · simp [itemsTail, readMoreItems]
  | cons j items ih =>
    obtain ⟨hj, h⟩ := List.forall_mem_cons.1 h
    obtain ⟨hplainj, hplain⟩ := List.forall_mem_cons.1 hplain
    have htail : itemsTail (j :: items) = ',' :: (j.print.toList ++ itemsTail items) := rfl
    rw [htail, List.length_cons, List.length_append] at hsteps
    obtain _ | steps := steps
    · simp at hsteps
    · have hread := hj steps (itemsTail items ++ ']' :: rest) (by omega)
      have hmore := ih hplain h (by omega : (itemsTail items).length < steps)
      rw [← skipSpace_itemsTail] at hmore
      obtain ⟨c, text, htext, hc⟩ := hplainj.print_cons
      rw [htext] at hread
      rw [htail, htext, List.cons_append, List.append_assoc]
      exact readMoreItems_cons hc hread hmore

/-- The members behind the first one are read back, each with one step for its comma and one for
    its name. -/
theorem readMoreMembers_membersTail (h : ∀ m ∈ ms, m.2.ReadsBack)
    (hsteps : (membersTail ms).length < steps) :
    readMoreMembers steps (membersTail ms ++ '\x7d' :: rest) = (ms, some rest) := by
  induction ms generalizing steps with
  | nil =>
    obtain _ | steps := steps
    · simp at hsteps
    · simp [membersTail, readMoreMembers]
  | cons m ms ih =>
    obtain ⟨hm, h⟩ := List.forall_mem_cons.1 h
    have htail : membersTail (m :: ms) = ',' :: '"' :: (memberTail m ++ membersTail ms) := rfl
    have hlength := length_memberTail m
    rw [htail, List.length_cons, List.length_cons, List.length_append] at hsteps
    obtain _ | _ | steps := steps
    · simp at hsteps
    · simp at hsteps
    · have hread := hm steps (membersTail ms ++ '\x7d' :: rest) (by omega)
      have hmore := ih h (by omega : (membersTail ms).length < steps)
      rw [← skipSpace_membersTail] at hmore
      have hquote : skipSpace ('"' :: (memberTail m ++ (membersTail ms ++ '\x7d' :: rest))) =
          '"' :: (memberTail m ++ (membersTail ms ++ '\x7d' :: rest)) := skipSpace_cons rfl
      simp only [htail, List.cons_append, List.append_assoc, readMoreMembers, hquote]
      exact readMember_cons hread hmore

/-! ## Reading documents -/

theorem readsBack_str (s : String) : (str s).ReadsBack := by
  intro steps rest hsteps
  rw [toList_print_str] at hsteps ⊢
  obtain _ | steps := steps
  · simp at hsteps
  · have hspace : skipSpace ('"' :: (stringTail s ++ rest)) = '"' :: (stringTail s ++ rest) :=
      skipSpace_cons rfl
    have hread := readString_stringTail s (Nat.lt_succ_self (stringTail s ++ rest).length)
    simp only [List.cons_append, readValue, hspace, readStringValue, hread]
    simp [StringReading.fault?, Except.toOption]

theorem readsBack_arr (hplain : ∀ j ∈ items, j.Plain) (h : ∀ j ∈ items, j.ReadsBack) :
    (arr items).ReadsBack := by
  intro steps rest hsteps
  cases items with
  | nil =>
    obtain _ | _ | steps := steps
    · simp [print] at hsteps
    · simp [print] at hsteps
    · rfl
  | cons j items =>
    obtain ⟨hplainj, hplain⟩ := List.forall_mem_cons.1 hplain
    obtain ⟨hj, h⟩ := List.forall_mem_cons.1 h
    rw [toList_print_arr_cons] at hsteps ⊢
    simp only [List.length_cons, List.length_append, List.length_nil] at hsteps
    -- One step is for the bracket and one for the list behind it.
    obtain _ | _ | steps := steps
    · simp at hsteps
    · simp at hsteps
    · have hread := hj steps (itemsTail items ++ ']' :: rest) (by omega)
      have hpos : 1 ≤ j.print.toList.length := hplainj.length_print_pos
      have hmore : readMoreItems steps (skipSpace (itemsTail items ++ ']' :: rest)) =
          (items, some rest) := by
        rw [skipSpace_itemsTail]
        exact readMoreItems_itemsTail hplain h (by omega)
      obtain ⟨c, text, htext, hc⟩ := hplainj.print_cons
      rw [htext, List.cons_append] at hread
      have hitems := readItems_cons hc hread hmore
      have hbracket : isSpace '[' = false := rfl
      simp only [htext, List.cons_append, List.append_assoc, List.nil_append, readValue,
        skipSpace_cons hbracket, hc.skipSpace, hitems]

theorem readsBack_obj (h : ∀ m ∈ ms, m.2.ReadsBack) : (obj ms).ReadsBack := by
  intro steps rest hsteps
  cases ms with
  | nil =>
    obtain _ | _ | steps := steps
    · simp [print] at hsteps
    · simp [print] at hsteps
    · rfl
  | cons m ms =>
    obtain ⟨hm, h⟩ := List.forall_mem_cons.1 h
    have hlength := length_memberTail m
    rw [toList_print_obj_cons] at hsteps ⊢
    simp only [List.length_cons, List.length_append, List.length_nil] at hsteps
    -- One step is for the bracket, one for the object behind it and one for the first name.
    obtain _ | _ | _ | steps := steps
    · simp at hsteps
    · simp at hsteps
    · omega
    · have hread := hm steps (membersTail ms ++ '\x7d' :: rest) (by omega)
      have hmore : readMoreMembers steps (skipSpace (membersTail ms ++ '\x7d' :: rest)) =
          (ms, some rest) := by
        rw [skipSpace_membersTail]
        exact readMoreMembers_membersTail h (by omega)
      have hmember := readMember_cons hread hmore
      have hbrace : isSpace '\x7b' = false := rfl
      have hquote : isSpace '"' = false := rfl
      simp only [List.cons_append, List.append_assoc, List.nil_append, readValue,
        skipSpace_cons hbrace, skipSpace_cons hquote, readMembers, hmember]

/-- Plain documents are read off the front of a text. By induction on the document: the steps
    that are left for its parts are as many as these have characters. -/
theorem Plain.readsBack (h : j.Plain) : j.ReadsBack := by
  induction h with
  | str s => exact readsBack_str s
  | arr hplain ih => exact readsBack_arr hplain ih
  | obj _ _ ih => exact readsBack_obj ih

/-- The text of a plain document is read as the document, with nothing behind it. -/
theorem Plain.read_print (h : j.Plain) : read j.print = ⟨j, false⟩ := by
  have hread := h.readsBack (3 * j.print.toList.length + 3) [] (by omega)
  rw [List.append_nil] at hread
  simp [read, hread, skipSpace]

/-- The text of a plain document is decoded as the document. -/
theorem Plain.decodeText_print {α : Type} {decode : Source → Json → Decoded α} (h : j.Plain) :
    decodeText decode j.print = decode .text j := by
  simp only [decodeText, h.read_print, Bool.false_eq_true, if_false]
  cases decode .text j <;> rfl

end Json

end ChaosController
