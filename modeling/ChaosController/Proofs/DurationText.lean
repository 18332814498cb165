/-
  ChaosController.Proofs.DurationText

  The duration texts on which reading aborts.

  A text that can be read is a sequence of amounts with blanks between them. Reading aborts only
  while an amount is added, and only if it fills the total: nanoseconds of at most one second
  bring it to `2^64` seconds exactly. The scanner reaches such an amount if and only if the text
  before it spells amounts that can be added up (`ofChars_eq_abort_iff`).
-/

import ChaosController.Duration.Text
import ChaosController.Proofs.Digits

namespace ChaosController.Duration

/-! ## Checks -/

section Checks

variable {β : Type} {n divisor : Nat}

theorem bind_eq_abort {α : Type} {x : Except Fault α} {f : α → Except Fault β} :
    (x >>= f) = .error .abort ↔ x = .error .abort ∨ ∃ a, x = .ok a ∧ f a = .error .abort := by
  cases x <;> simp [bind, Except.bind]

/-- A check of a number does not abort; what comes after it may. -/
theorem inWord_bind_eq_abort {f : Nat → Except Fault β} :
    (inWord n >>= f) = .error .abort ↔ n < wordBound ∧ f n = .error .abort := by
  unfold inWord
  split
  next h => simp [bind, Except.bind, h]
  next h => simp [bind, Except.bind, h]

theorem exactQuotient_bind_eq_abort {f : Nat → Except Fault β} :
    (exactQuotient n divisor >>= f) = .error .abort ↔
      divisor ∣ n ∧ f (n / divisor) = .error .abort := by
  unfold exactQuotient
  rw [Nat.dvd_iff_mod_eq_zero]
  split
  next h => simp [bind, Except.bind, h]
  next h => simp [bind, Except.bind, h]

end Checks

/-! ## Sums -/

/-- Nanoseconds of at most one second bring a total to `2^64` seconds exactly. -/
structure Fills (total : Duration) (nanos : Nat) : Prop where
  sum_eq : total.nanos + nanos = durationBound
  nanos_le : nanos ≤ nanosPerSecond

/-- A duration is out of range if its seconds are full and its nanoseconds are a whole second. -/
theorem ofNanos?_eq_none_iff {secs left : Nat} (hsecs : secs < wordBound)
    (hleft : left ≤ nanosPerSecond) :
    ofNanos? (secs * nanosPerSecond + left) = none ↔
      secs = wordBound - 1 ∧ left = nanosPerSecond := by
  unfold ofNanos? durationBound
  unfold wordBound at hsecs
  unfold nanosPerSecond at hleft
  rw [dite_eq_right_iff]
  simp only [reduceCtorEq, imp_false]
  unfold wordBound nanosPerSecond
  omega

theorem subNanos_lt (d : Duration) : d.subNanos < nanosPerSecond := Nat.mod_lt _ (by decide)

theorem addParts_eq_abort_iff {total : Duration} {secs nanos : Nat} :
    addParts total secs nanos = .error .abort ↔
      total.subNanos + nanos = nanosPerSecond ∧ total.seconds + secs = wordBound - 1 := by
  unfold addParts
  rw [inWord_bind_eq_abort]
  by_cases hcarry : total.subNanos + nanos > nanosPerSecond
  · -- What is left over is less than a second, so the sum is in range.
    have hleft : (total.subNanos + nanos) % nanosPerSecond < nanosPerSecond :=
      Nat.mod_lt _ (by decide)
    rw [if_pos hcarry]
    dsimp only
    rw [inWord_bind_eq_abort, inWord_bind_eq_abort]
    constructor
    · rintro ⟨-, -, hsecs, habort⟩
      split at habort
      next => cases habort
      next hnone =>
        obtain ⟨-, hwhole⟩ := (ofNanos?_eq_none_iff hsecs (Nat.le_of_lt hleft)).1 hnone
        omega
    · rintro ⟨hwhole, -⟩
      omega
  · rw [if_neg hcarry]
    dsimp only
    rw [inWord_bind_eq_abort, inWord_bind_eq_abort]
    constructor
    · rintro ⟨-, -, hsecs, habort⟩
      split at habort
      next => cases habort
      next hnone =>
        obtain ⟨hfull, hwhole⟩ := (ofNanos?_eq_none_iff hsecs (Nat.not_lt.1 hcarry)).1 hnone
        omega
    · intro ⟨hwhole, hfull⟩
      have hbound : wordBound = 18446744073709551616 := rfl
      have hsecond : nanosPerSecond = 1000000000 := rfl
      have hsecs : total.seconds + (secs + 0) < wordBound := by omega
      refine ⟨by omega, by omega, hsecs, ?_⟩
      rw [(ofNanos?_eq_none_iff hsecs (Nat.not_lt.1 hcarry)).2 ⟨by omega, hwhole⟩]

/-- Nanoseconds abort a sum if they fill the total. -/
theorem addParts_nanos_eq_abort_iff {total : Duration} {nanos : Nat} :
    addParts total 0 nanos = .error .abort ↔ Fills total nanos := by
  have hparts : total.seconds * 1000000000 + total.subNanos = total.nanos :=
    total.seconds_subNanos
  have hsub := total.subNanos_lt
  have hbound := total.nanos_lt
  have hfull : durationBound = 18446744073709551616 * 1000000000 := rfl
  have hword : wordBound = 18446744073709551616 := rfl
  have hsecond : nanosPerSecond = 1000000000 := rfl
  rw [addParts_eq_abort_iff]
  constructor
  · intro ⟨hwhole, hseconds⟩
    exact ⟨by omega, by omega⟩
  · intro ⟨hsum, hle⟩
    omega

/-- Whole seconds never abort a sum. -/
theorem addParts_seconds_ne_abort {total : Duration} {secs : Nat} :
    addParts total secs 0 ≠ .error .abort := by
  have hsub := total.subNanos_lt
  rw [ne_eq, addParts_eq_abort_iff]
  omega

/-- The whole part of an amount aborts a sum if it is below a second and fills the total. -/
theorem addWhole_eq_abort_iff {total : Duration} {whole : Nat} {unit : Unit} :
    addWhole total whole unit = .error .abort ↔
      unit.nanos < nanosPerSecond ∧ Fills total (whole * unit.nanos) := by
  unfold addWhole
  split
  next hunit =>
    rw [inWord_bind_eq_abort, addParts_nanos_eq_abort_iff]
    constructor
    · rintro ⟨-, hfills⟩
      exact ⟨hunit, hfills⟩
    · rintro ⟨-, hfills⟩
      have hle := hfills.nanos_le
      have hsecond : nanosPerSecond = 1000000000 := rfl
      have hword : wordBound = 18446744073709551616 := rfl
      exact ⟨by omega, hfills⟩
  next hunit =>
    rw [inWord_bind_eq_abort]
    constructor
    · rintro ⟨-, habort⟩
      exact absurd habort addParts_seconds_ne_abort
    · rintro ⟨hsub, -⟩
      exact absurd hsub hunit

/-- The fraction of an amount aborts a sum if its unit is below an hour and its nanoseconds,
    which have to be a whole number, fill the total. -/
theorem addFraction_eq_abort_iff {total : Duration} {part : Fraction} {unit : Unit} :
    addFraction total part unit = .error .abort ↔
      unit ≠ .nanosecond ∧ unit.nanos < 3600 * nanosPerSecond ∧
        part.numerator * unit.nanos < wordBound ∧ part.denominator ∣ part.numerator * unit.nanos ∧
        Fills total (part.numerator * unit.nanos / part.denominator) := by
  unfold addFraction
  split
  next hnano => simp [hnano]
  next hnano =>
    split
    next hunit =>
      simp only [inWord_bind_eq_abort, exactQuotient_bind_eq_abort, addParts_nanos_eq_abort_iff]
      simp [hnano, hunit]
    next hunit =>
      simp only [inWord_bind_eq_abort, exactQuotient_bind_eq_abort]
      constructor
      · rintro ⟨-, -, habort⟩
        exact absurd habort addParts_seconds_ne_abort
      · rintro ⟨-, hsub, -⟩
        exact absurd hsub hunit

/-! ## Numerals -/

/-- A text of digits and blanks. -/
def IsNumeral (text : List Char) : Prop := ∀ c ∈ text, c.isDigit = true ∨ isBlank c = true

/-- The number whose digits are those of `value` and of a numeral behind them. -/
def extended (value : Nat) (text : List Char) : Nat :=
  (text.filter Char.isDigit).foldl (fun n c => n * 10 + digitValue c) value

/-- The number that the digits of a numeral spell. -/
def number (text : List Char) : Nat := extended 0 text

/-- The number of digits of a numeral. -/
def width (text : List Char) : Nat := text.countP Char.isDigit

@[simp] theorem extended_nil (value : Nat) : extended value [] = value := rfl

theorem extended_cons_digit {c : Char} (hc : c.isDigit = true) (value : Nat) (text : List Char) :
    extended value (c :: text) = extended (value * 10 + digitValue c) text := by
  rw [extended, List.filter_cons_of_pos hc, List.foldl_cons, extended]

theorem extended_cons_blank {c : Char} (hc : c.isDigit = false) (value : Nat) (text : List Char) :
    extended value (c :: text) = extended value text := by
  rw [extended, List.filter_cons_of_neg (by simp [hc]), extended]

/-- More digits never make a number smaller. -/
theorem le_extended (value : Nat) (text : List Char) : value ≤ extended value text := by
  induction text generalizing value with
  | nil => exact Nat.le_refl value
  | cons c text ih =>
    cases hc : c.isDigit with
    | true =>
      rw [extended_cons_digit hc]
      have hle := ih (value * 10 + digitValue c)
      omega
    | false =>
      rw [extended_cons_blank hc]
      exact ih value

theorem number_concat_digit (text : List Char) {c : Char} (hc : c.isDigit = true) :
    number (text ++ [c]) = number text * 10 + digitValue c := by
  simp [number, extended, hc]

theorem number_concat_blank (text : List Char) {c : Char} (hc : c.isDigit = false) :
    number (text ++ [c]) = number text := by
  simp [number, extended, hc]

theorem width_concat_digit (text : List Char) {c : Char} (hc : c.isDigit = true) :
    width (text ++ [c]) = width text + 1 := by
  simp [width, hc]

theorem width_concat_blank (text : List Char) {c : Char} (hc : c.isDigit = false) :
    width (text ++ [c]) = width text := by
  simp [width, hc]

theorem isNumeral_concat {text : List Char} {c : Char} (h : IsNumeral text)
    (hc : c.isDigit = true ∨ isBlank c = true) : IsNumeral (text ++ [c]) := by
  intro d hd
  obtain hd | hd := List.mem_append.1 hd
  · exact h d hd
  · rw [List.mem_singleton.1 hd]
    exact hc

/-- A digit is worth less than ten. -/
theorem digitValue_lt {c : Char} (hc : c.isDigit = true) : digitValue c < 10 := by
  have hdigit : 48 ≤ c.toNat ∧ c.toNat ≤ 57 := by
    simpa [Char.isDigit, UInt32.le_iff_toNat_le] using hc
  have hzero : '0'.toNat = 48 := rfl
  unfold digitValue
  omega

/-- A letter of a unit is neither a digit nor blank. -/
theorem isUnitLetter_disjoint {c : Char} (hc : isUnitLetter c = true) :
    c.isDigit = false ∧ isBlank c = false := by
  have hrange : 97 ≤ c.toNat ∧ c.toNat ≤ 122 ∨ 65 ≤ c.toNat ∧ c.toNat ≤ 90 ∨ c.toNat = 181 := by
    simp only [isUnitLetter, Bool.or_eq_true, Bool.and_eq_true, decide_eq_true_eq, beq_iff_eq,
      Char.le_def, UInt32.le_iff_toNat_le] at hc
    obtain (hlower | hupper) | rfl := hc
    · exact .inl hlower
    · exact .inr (.inl hupper)
    · exact .inr (.inr rfl)
  have hdigit : ¬ (48 ≤ c.toNat ∧ c.toNat ≤ 57) := by omega
  constructor
  · simpa [Char.isDigit, UInt32.le_iff_toNat_le] using hdigit
  · simp only [isBlank, Bool.or_eq_false_iff, Bool.and_eq_false_iff, decide_eq_false_iff_not,
      beq_eq_false_iff_ne]
    omega

/-- A number begins with a digit, has nothing but digits and blanks, and fits a word. -/
structure IsNumber (digits : List Char) : Prop where
  starts : ∃ c others, digits = c :: others ∧ c.isDigit = true
  numeral : IsNumeral digits
  lt : number digits < wordBound

namespace IsNumber

theorem singleton {c : Char} (hc : c.isDigit = true) : IsNumber [c] where
  starts := ⟨c, [], rfl, hc⟩
  numeral := by
    intro d hd
    rw [List.mem_singleton.1 hd]
    exact .inl hc
  lt := by
    have hlt := digitValue_lt hc
    have hword : wordBound = 18446744073709551616 := rfl
    rw [number, extended_cons_digit hc, extended_nil]
    omega

theorem concat {digits : List Char} (h : IsNumber digits) {c : Char}
    (hc : c.isDigit = true ∨ isBlank c = true) (hlt : number (digits ++ [c]) < wordBound) :
    IsNumber (digits ++ [c]) where
  starts := by
    obtain ⟨first, others, rfl, hfirst⟩ := h.starts
    exact ⟨first, others ++ [c], rfl, hfirst⟩
  numeral := isNumeral_concat h.numeral hc
  lt := hlt

end IsNumber

/-- The digits of a fraction spell a numerator and a denominator that fit words. -/
structure IsFraction (digits : List Char) : Prop where
  numeral : IsNumeral digits
  numerator_lt : number digits < wordBound
  denominator_lt : 10 ^ width digits < wordBound

theorem isFraction_nil : IsFraction [] := ⟨nofun, by decide, by decide⟩

theorem IsFraction.concat {digits : List Char} (h : IsFraction digits) {c : Char}
    (hc : c.isDigit = true ∨ isBlank c = true) (hnumerator : number (digits ++ [c]) < wordBound)
    (hdenominator : 10 ^ width (digits ++ [c]) < wordBound) : IsFraction (digits ++ [c]) :=
  ⟨isNumeral_concat h.numeral hc, hnumerator, hdenominator⟩

/-! ## Amounts -/

/-- An amount as it is spelled. -/
structure Amount where
  /-- The number up to the decimal point. -/
  whole : List Char
  /-- What stands behind the decimal point. -/
  fraction : Option (List Char)
  /-- The unit. -/
  letters : List Char

namespace Amount

/-- The text of an amount. -/
def chars (a : Amount) : List Char :=
  a.whole ++ (match a.fraction with | none => [] | some digits => '.' :: digits) ++ a.letters

/-- The whole units of an amount. -/
def value (a : Amount) : Nat := number a.whole

/-- The fraction of a unit that an amount has besides. -/
def part? (a : Amount) : Option Fraction :=
  a.fraction.map fun digits => ⟨number digits, 10 ^ width digits⟩

/-- The name of the unit. -/
def name (a : Amount) : String := String.ofList a.letters

/-- An amount is a number with a unit; behind a decimal point there is a digit. -/
structure Spelled (a : Amount) : Prop where
  number : IsNumber a.whole
  fraction : ∀ digits, a.fraction = some digits → IsFraction digits ∧ 0 < width digits
  letters_ne : a.letters ≠ []
  letters : ∀ c ∈ a.letters, isUnitLetter c = true

/-- The total with an amount added to it. -/
def addTo (a : Amount) (total : Duration) : Except Fault Duration :=
  addAmount total a.value a.part? a.name

end Amount

/-- A text of amounts, with blanks before, between and after them, that add up to a total. -/
inductive Totals : List Char → Duration → Prop
  | nil : Totals [] .zero
  | blank {text : List Char} {total : Duration} {c : Char} (h : Totals text total)
      (hc : isBlank c = true) : Totals (text ++ [c]) total
  | amount {text : List Char} {total sum : Duration} {a : Amount} (h : Totals text total)
      (ha : a.Spelled) (hsum : a.addTo total = .ok sum) : Totals (text ++ a.chars) sum

/-- A unit ends where a text is over, and before a digit or a blank. -/
def Ends (later : List Char) : Prop :=
  ∀ c, later.head? = some c → c.isDigit = true ∨ isBlank c = true

/-! ## Scanning an amount -/

section Scanning

variable {total : Duration} {rest : List Char}

theorem isBlank_of_not_isDigit {c : Char} (h : c.isDigit = true ∨ isBlank c = true)
    (hc : c.isDigit = false) : isBlank c = true := by
  obtain hdigit | hblank := h
  · rw [hc] at hdigit
    cases hdigit
  · exact hblank

theorem pushDigit_of_not_lt {value : Nat} {c : Char}
    (h : ¬ value * 10 + digitValue c < wordBound) :
    pushDigit value c = .error (.error .outOfRange) := if_neg h

theorem pushDigit_of_lt {value : Nat} {c : Char} (h : value * 10 + digitValue c < wordBound) :
    pushDigit value c = .ok (value * 10 + digitValue c) := if_pos h

/-- A character that is taken leaves the rest of the text. -/
theorem scan_cons {next : Duration} {offset : Nat} {c : Char} {state state' : Scan}
    (h : scanChar total offset c state = .ok (next, state')) :
    scan total offset state (c :: rest) = scan next (offset + c.utf8Size) state' rest := by
  rw [scan, h]
  rfl

/-- The digits of a number are pushed one after another. -/
theorem scan_whole {text : List Char} (htext : IsNumeral text) (value offset : Nat)
    (hlt : extended value text < wordBound) :
    ∃ offset', scan total offset (.whole value) (text ++ rest) =
      scan total offset' (.whole (extended value text)) rest := by
  induction text generalizing value offset with
  | nil => exact ⟨offset, rfl⟩
  | cons c text ih =>
    have hothers : IsNumeral text := fun d hd => htext d (List.mem_cons_of_mem c hd)
    cases hc : c.isDigit with
    | true =>
      rw [extended_cons_digit hc] at hlt ⊢
      have hle := le_extended (value * 10 + digitValue c) text
      have hchar : scanChar total offset c (.whole value) =
          .ok (total, .whole (value * 10 + digitValue c)) := by
        rw [scanChar, if_pos hc, pushDigit_of_lt (Nat.lt_of_le_of_lt hle hlt)]
        rfl
      obtain ⟨offset', hscan⟩ := ih hothers _ (offset + c.utf8Size) hlt
      exact ⟨offset', (scan_cons hchar).trans hscan⟩
    | false =>
      have hblank := isBlank_of_not_isDigit (htext c List.mem_cons_self) hc
      have hchar : scanChar total offset c (.whole value) = .ok (total, .whole value) := by
        rw [scanChar, if_neg (by simp [hc]), if_pos hblank]
      rw [extended_cons_blank hc] at hlt ⊢
      obtain ⟨offset', hscan⟩ := ih hothers _ (offset + c.utf8Size) hlt
      exact ⟨offset', (scan_cons hchar).trans hscan⟩

/-- So are the digits of a fraction, and each of them makes the fraction ten times finer. -/
theorem scan_fraction {value : Nat} {text : List Char} (htext : IsNumeral text) (part : Fraction)
    (offset reached : Nat) (hnumerator : extended part.numerator text < wordBound)
    (hdenominator : part.denominator * 10 ^ width text < wordBound) :
    ∃ offset' reached', scan total offset (.fraction value part reached) (text ++ rest) =
      scan total offset' (.fraction value
        ⟨extended part.numerator text, part.denominator * 10 ^ width text⟩ reached') rest := by
  induction text generalizing part offset reached with
  | nil => exact ⟨offset, reached, by simp [width]⟩
  | cons c text ih =>
    have hothers : IsNumeral text := fun d hd => htext d (List.mem_cons_of_mem c hd)
    cases hc : c.isDigit with
    | true =>
      let finer : Fraction := ⟨part.numerator * 10 + digitValue c, part.denominator * 10⟩
      have hwidth : part.denominator * 10 ^ width (c :: text) =
          finer.denominator * 10 ^ width text := by
        rw [width, List.countP_cons_of_pos hc, Nat.pow_succ', Nat.mul_assoc, width]
      rw [extended_cons_digit hc] at hnumerator ⊢
      rw [hwidth] at hdenominator ⊢
      have hle := le_extended (part.numerator * 10 + digitValue c) text
      have hfiner : finer.denominator ≤ finer.denominator * 10 ^ width text :=
        Nat.le_mul_of_pos_right _ (Nat.pow_pos (by decide))
      have hpush : part.push c = .ok finer := by
        rw [Fraction.push, pushDigit_of_lt (Nat.lt_of_le_of_lt hle hnumerator)]
        show (do let d ← inWord (part.denominator * 10); _) = _
        rw [inWord, if_pos (Nat.lt_of_le_of_lt hfiner hdenominator)]
        rfl
      have hchar : scanChar total offset c (.fraction value part reached) =
          .ok (total, .fraction value finer (offset + c.utf8Size)) := by
        rw [scanChar, if_pos hc, hpush]
        rfl
      obtain ⟨offset', reached', hscan⟩ := ih hothers finer (offset + c.utf8Size)
        (offset + c.utf8Size) hnumerator hdenominator
      exact ⟨offset', reached', (scan_cons hchar).trans hscan⟩
    | false =>
      have hblank := isBlank_of_not_isDigit (htext c List.mem_cons_self) hc
      have hchar : scanChar total offset c (.fraction value part reached) =
          .ok (total, .fraction value part (offset + c.utf8Size)) := by
        rw [scanChar, if_neg (by simp [hc]), if_pos hblank]
      have hwidth : width (c :: text) = width text := by
        rw [width, List.countP_cons_of_neg (by simp [hc]), width]
      rw [extended_cons_blank hc] at hnumerator ⊢
      rw [hwidth] at hdenominator ⊢
      obtain ⟨offset', reached', hscan⟩ := ih hothers part (offset + c.utf8Size)
        (offset + c.utf8Size) hnumerator hdenominator
      exact ⟨offset', reached', (scan_cons hchar).trans hscan⟩

/-- The letters of a unit are kept, the last one first. -/
theorem scan_letters {value : Nat} {part : Option Fraction} {text : List Char}
    (htext : ∀ c ∈ text, isUnitLetter c = true) (letters : List Char) (offset : Nat) :
    ∃ offset', scan total offset (.unit value part letters) (text ++ rest) =
      scan total offset' (.unit value part (text.reverse ++ letters)) rest := by
  induction text generalizing letters offset with
  | nil => exact ⟨offset, rfl⟩
  | cons c text ih =>
    have hletter := htext c List.mem_cons_self
    obtain ⟨hdigit, hblank⟩ := isUnitLetter_disjoint hletter
    have hchar : scanChar total offset c (.unit value part letters) =
        .ok (total, .unit value part (c :: letters)) := by
      rw [scanChar, if_neg (by simp [hdigit]), if_neg (by simp [hblank]), if_pos hletter]
    obtain ⟨offset', hscan⟩ := ih (fun d hd => htext d (List.mem_cons_of_mem c hd)) (c :: letters)
      (offset + c.utf8Size)
    refine ⟨offset', ?_⟩
    rw [List.reverse_cons, List.append_assoc, List.singleton_append]
    exact (scan_cons hchar).trans hscan

/-- The letters of a unit may follow in any state that a letter leaves for a unit. -/
theorem scan_unit {state : Scan} {value : Nat} {part : Option Fraction} {text : List Char}
    (hstart : ∀ offset c, isUnitLetter c = true →
      scanChar total offset c state = .ok (total, .unit value part [c]))
    (hne : text ≠ []) (htext : ∀ c ∈ text, isUnitLetter c = true) (offset : Nat) :
    ∃ offset', scan total offset state (text ++ rest) =
      scan total offset' (.unit value part text.reverse) rest := by
  obtain ⟨c, letters, rfl⟩ := List.exists_cons_of_ne_nil hne
  obtain ⟨offset', hscan⟩ := scan_letters (fun d hd => htext d (List.mem_cons_of_mem c hd)) [c]
    (offset + c.utf8Size)
  refine ⟨offset', ?_⟩
  rw [List.reverse_cons]
  exact (scan_cons (hstart offset c (htext c List.mem_cons_self))).trans hscan

/-- A letter may follow a number. -/
theorem scanChar_whole_letter {value : Nat} (offset : Nat) (c : Char)
    (hc : isUnitLetter c = true) :
    scanChar total offset c (.whole value) = .ok (total, .unit value none [c]) := by
  obtain ⟨hdigit, hblank⟩ := isUnitLetter_disjoint hc
  rw [scanChar, if_neg (by simp [hdigit]), if_neg (by simp [hblank]), if_pos hc]

/-- It may follow a fraction that has a digit. -/
theorem scanChar_fraction_letter {value reached : Nat} {part : Fraction}
    (hpart : part.denominator ≠ 1) (offset : Nat) (c : Char) (hc : isUnitLetter c = true) :
    scanChar total offset c (.fraction value part reached) =
      .ok (total, .unit value (some part) [c]) := by
  obtain ⟨hdigit, hblank⟩ := isUnitLetter_disjoint hc
  rw [scanChar, if_neg (by simp [hdigit]), if_neg (by simp [hblank]),
    if_pos (by simp [hc, hpart])]

/-- The scanner reads an amount up to its last letter. -/
theorem scan_amount {a : Amount} (ha : a.Spelled) (offset sought : Nat) :
    ∃ offset', scan total offset (.between sought) (a.chars ++ rest) =
      scan total offset' (.unit a.value a.part? a.letters.reverse) rest := by
  obtain ⟨whole, fraction, letters⟩ := a
  obtain ⟨first, others, rfl, hfirst⟩ : ∃ c others, whole = c :: others ∧ c.isDigit = true :=
    ha.number.starts
  have hothers : IsNumeral others := fun d hd =>
    ha.number.numeral d (List.mem_cons_of_mem first hd)
  have hvalue : Amount.value ⟨first :: others, fraction, letters⟩ =
      extended (digitValue first) others := by
    rw [Amount.value, number, extended_cons_digit hfirst, Nat.zero_mul, Nat.zero_add]
  have hlt : Amount.value ⟨first :: others, fraction, letters⟩ < wordBound := ha.number.lt
  rw [hvalue] at hlt ⊢
  -- The number comes first, whatever follows it.
  have hnumber (later : List Char) :
      ∃ offset', scan total offset (.between sought) (first :: others ++ later) =
        scan total offset' (.whole (extended (digitValue first) others)) later := by
    obtain ⟨offset', hwhole⟩ := scan_whole hothers _ (offset + first.utf8Size) hlt
    have hchar : scanChar total offset first (.between sought) =
        .ok (total, .whole (digitValue first)) := if_pos hfirst
    exact ⟨offset', (scan_cons hchar).trans hwhole⟩
  cases fraction with
  | none =>
    have hchars : Amount.chars ⟨first :: others, none, letters⟩ ++ rest =
        first :: others ++ (letters ++ rest) := by simp [Amount.chars]
    obtain ⟨offset₁, hwhole⟩ := hnumber (letters ++ rest)
    obtain ⟨offset', hunit⟩ := scan_unit scanChar_whole_letter ha.letters_ne ha.letters offset₁
    refine ⟨offset', ?_⟩
    rw [hchars, hwhole, hunit]
    rfl
  | some digits =>
    obtain ⟨hdigits, hwidth⟩ := ha.fraction digits rfl
    have hchars : Amount.chars ⟨first :: others, some digits, letters⟩ ++ rest =
        first :: others ++ '.' :: (digits ++ (letters ++ rest)) := by simp [Amount.chars]
    have hone : 1 * 10 ^ width digits = 10 ^ width digits := Nat.one_mul _
    have hdenominator : 1 * 10 ^ width digits < wordBound := by
      rw [hone]
      exact hdigits.denominator_lt
    have hpart : (⟨number digits, 10 ^ width digits⟩ : Fraction).denominator ≠ 1 :=
      Nat.ne_of_gt (Nat.one_lt_pow (Nat.ne_of_gt hwidth) (by decide))
    obtain ⟨offset₁, hwhole⟩ := hnumber ('.' :: (digits ++ (letters ++ rest)))
    have hpoint : scanChar total offset₁ '.' (.whole (extended (digitValue first) others)) =
        .ok (total, .fraction (extended (digitValue first) others) ⟨0, 1⟩ offset₁) := rfl
    obtain ⟨offset₂, reached, hfraction⟩ := scan_fraction hdigits.numeral ⟨0, 1⟩
      (offset₁ + '.'.utf8Size) offset₁ hdigits.numerator_lt hdenominator
    obtain ⟨offset', hunit⟩ := scan_unit (scanChar_fraction_letter hpart) ha.letters_ne
      ha.letters offset₂
    refine ⟨offset', ?_⟩
    rw [hchars, hwhole, scan_cons hpoint, hfraction, hone]
    exact hunit

/-- Where a unit ends its amount is added, and the search for the next number begins. -/
theorem scan_unit_ends {value : Nat} {part : Option Fraction} {letters : List Char}
    (hrest : Ends rest) (offset : Nat) :
    ∃ offset' sought, scan total offset (.unit value part letters) rest =
      addAmount total value part (unitName letters) >>= fun sum =>
        scan sum offset' (.between sought) rest := by
  refine ⟨offset, offset + (rest.head?.elim 0 Char.utf8Size), ?_⟩
  cases rest with
  | nil =>
    rw [scan, scanEnd]
    cases addAmount total value part (unitName letters) <;> rfl
  | cons c rest =>
    cases hc : c.isDigit with
    | true =>
      simp only [scan, scanChar, if_pos hc]
      cases addAmount total value part (unitName letters) <;> rfl
    | false =>
      have hblank := isBlank_of_not_isDigit (hrest c rfl) hc
      have hdigit : ¬ c.isDigit = true := Bool.eq_false_iff.1 hc
      simp only [scan, scanChar, if_neg hdigit, if_pos hblank]
      cases addAmount total value part (unitName letters) <;> rfl

end Scanning

theorem Amount.unitName_reverse (a : Amount) : unitName a.letters.reverse = a.name := by
  rw [unitName, List.reverse_reverse, name]

/-- An amount begins with a digit. -/
theorem Amount.Spelled.ends_chars_append {a : Amount} (ha : a.Spelled) (rest : List Char) :
    Ends (a.chars ++ rest) := by
  obtain ⟨first, others, hwhole, hfirst⟩ := ha.number.starts
  intro c hc
  rw [Amount.chars, hwhole] at hc
  obtain rfl : first = c := Option.some.inj hc
  exact .inl hfirst

/-- The scanner adds up the amounts of a text. -/
theorem Totals.scan_append {text : List Char} {total : Duration} (h : Totals text total)
    {rest : List Char} (hrest : Ends rest) :
    ∃ offset sought, scan zero 0 (.between 0) (text ++ rest) =
      scan total offset (.between sought) rest := by
  induction h generalizing rest with
  | nil => exact ⟨0, 0, rfl⟩
  | @blank text total c h hc ih =>
    have hends : Ends (c :: rest) := by
      intro d hd
      obtain rfl : c = d := Option.some.inj hd
      exact .inr hc
    obtain ⟨offset, sought, hscan⟩ := ih hends
    have hdigit : ¬ c.isDigit = true := by
      intro hdigit
      rw [isBlank_of_isDigit hdigit] at hc
      cases hc
    have hchar : scanChar total offset c (.between sought) = .ok (total, .between sought) := by
      rw [scanChar, if_neg hdigit, if_pos hc]
    refine ⟨offset + c.utf8Size, sought, ?_⟩
    rw [List.append_assoc, List.singleton_append, hscan, scan_cons hchar]
  | @amount text total sum a h ha hsum ih =>
    obtain ⟨offset, sought, hscan⟩ := ih (ha.ends_chars_append rest)
    obtain ⟨offset₁, hamount⟩ := scan_amount ha offset sought
    obtain ⟨offset₂, sought₂, hend⟩ := scan_unit_ends hrest offset₁
    refine ⟨offset₂, sought₂, ?_⟩
    rw [Amount.addTo] at hsum
    rw [List.append_assoc, hscan, hamount, hend, a.unitName_reverse, hsum]
    rfl

/-! ## What the scanner stands for -/

/-- What has been read when the scanner stands in a state, with the total so far: amounts that add
    up to the total, and the part of another one that the state remembers. -/
inductive Stands (text : List Char) (total : Duration) : Scan → Prop
  | between (sought : Nat) (h : Totals text total) : Stands text total (.between sought)
  | whole {before digits : List Char} (h : Totals before total) (htext : text = before ++ digits)
      (hdigits : IsNumber digits) : Stands text total (.whole (number digits))
  | fraction {before digits fraction : List Char} (reached : Nat) (h : Totals before total)
      (htext : text = before ++ (digits ++ '.' :: fraction)) (hdigits : IsNumber digits)
      (hfraction : IsFraction fraction) :
      Stands text total (.fraction (number digits) ⟨number fraction, 10 ^ width fraction⟩ reached)
  | unit {before : List Char} {a : Amount} (h : Totals before total)
      (htext : text = before ++ a.chars) (ha : a.Spelled) :
      Stands text total (.unit a.value a.part? a.letters.reverse)

section Steps

variable {text : List Char} {total next : Duration} {offset : Nat} {c : Char} {state : Scan}

/-- A number begins. -/
theorem Totals.stands_digit (h : Totals text total) (hc : c.isDigit = true) :
    Stands (text ++ [c]) total (.whole (c.toNat - '0'.toNat)) := by
  have hvalue : number [c] = c.toNat - '0'.toNat := by
    rw [number, extended_cons_digit hc, extended_nil, Nat.zero_mul, Nat.zero_add, digitValue]
  rw [← hvalue]
  exact .whole h rfl (.singleton hc)

/-- The scanner goes on between amounts. -/
theorem Stands.step_between {sought : Nat} (h : Totals text total)
    (hscan : scanChar total offset c (.between sought) = .ok (next, state)) :
    Stands (text ++ [c]) next state := by
  rw [scanChar] at hscan
  split at hscan
  next hc =>
    cases hscan
    exact h.stands_digit hc
  next =>
    split at hscan
    next hc =>
      cases hscan
      exact .between sought (h.blank hc)
    next => cases hscan

/-- It goes on in a number. -/
theorem Stands.step_whole {before digits : List Char} (h : Totals before total)
    (htext : text = before ++ digits) (hdigits : IsNumber digits)
    (hscan : scanChar total offset c (.whole (number digits)) = .ok (next, state)) :
    Stands (text ++ [c]) next state := by
  have hsplit : text ++ [c] = before ++ (digits ++ [c]) := by rw [htext, List.append_assoc]
  rw [scanChar] at hscan
  split at hscan
  next hc =>
    by_cases hlt : number digits * 10 + digitValue c < wordBound
    · rw [pushDigit_of_lt hlt] at hscan
      cases hscan
      rw [← number_concat_digit digits hc] at hlt ⊢
      exact .whole h hsplit (hdigits.concat (.inl hc) hlt)
    · rw [pushDigit_of_not_lt hlt] at hscan
      cases hscan
  next hc =>
    have hc : c.isDigit = false := Bool.eq_false_iff.2 hc
    split at hscan
    next hblank =>
      cases hscan
      have hsame := number_concat_blank digits hc
      rw [← hsame]
      exact .whole h hsplit (hdigits.concat (.inr hblank) (hsame ▸ hdigits.lt))
    next =>
      split at hscan
      next hletter =>
        cases hscan
        have ha : Amount.Spelled ⟨digits, none, [c]⟩ :=
          ⟨hdigits, nofun, nofun, by simpa using hletter⟩
        exact .unit h (by rw [hsplit, Amount.chars, List.append_nil]) ha
      next =>
        split at hscan
        next hpoint =>
          cases hscan
          rw [hpoint] at hsplit ⊢
          exact .fraction offset h hsplit hdigits isFraction_nil
        next => cases hscan

/-- A digit is pushed to a fraction if both of its parts still fit words. -/
theorem push_eq_ok_iff {digits : List Char} (hc : c.isDigit = true) {part : Fraction} :
    Fraction.push ⟨number digits, 10 ^ width digits⟩ c = .ok part ↔
      part = ⟨number (digits ++ [c]), 10 ^ width (digits ++ [c])⟩ ∧
        number (digits ++ [c]) < wordBound ∧ 10 ^ width (digits ++ [c]) < wordBound := by
  rw [number_concat_digit digits hc, width_concat_digit digits hc, Nat.pow_succ, Fraction.push]
  by_cases hnumerator : number digits * 10 + digitValue c < wordBound
  · rw [pushDigit_of_lt hnumerator]
    by_cases hdenominator : 10 ^ width digits * 10 < wordBound
    · rw [inWord, if_pos hdenominator]
      simp [bind, Except.bind, pure, Except.pure, hnumerator, hdenominator, eq_comm]
    · rw [inWord, if_neg hdenominator]
      simp [bind, Except.bind, hdenominator]
  · rw [pushDigit_of_not_lt hnumerator]
    simp [bind, Except.bind, hnumerator]

/-- It goes on behind a decimal point. -/
theorem Stands.step_fraction {before digits fraction : List Char} {reached : Nat}
    (h : Totals before total) (htext : text = before ++ (digits ++ '.' :: fraction))
    (hdigits : IsNumber digits) (hfraction : IsFraction fraction)
    (hscan : scanChar total offset c
      (.fraction (number digits) ⟨number fraction, 10 ^ width fraction⟩ reached) =
      .ok (next, state)) : Stands (text ++ [c]) next state := by
  have hsplit : text ++ [c] = before ++ (digits ++ '.' :: (fraction ++ [c])) := by
    rw [htext]
    simp
  rw [scanChar] at hscan
  split at hscan
  next hc =>
    cases hpush : Fraction.push ⟨number fraction, 10 ^ width fraction⟩ c with
    | error fault =>
      rw [hpush] at hscan
      cases hscan
    | ok part =>
      obtain ⟨rfl, hnumerator, hdenominator⟩ := (push_eq_ok_iff hc).1 hpush
      rw [hpush] at hscan
      cases hscan
      exact .fraction _ h hsplit hdigits (hfraction.concat (.inl hc) hnumerator hdenominator)
  next hc =>
    have hc : c.isDigit = false := Bool.eq_false_iff.2 hc
    split at hscan
    next hblank =>
      cases hscan
      have hsame := number_concat_blank fraction hc
      have hwidth := width_concat_blank fraction hc
      rw [← hsame, ← hwidth]
      exact .fraction _ h hsplit hdigits (hfraction.concat (.inr hblank)
        (hsame ▸ hfraction.numerator_lt) (hwidth ▸ hfraction.denominator_lt))
    next =>
      split at hscan
      next hletter =>
        cases hscan
        rw [Bool.and_eq_true] at hletter
        have hwidth : 0 < width fraction := by
          refine Nat.pos_of_ne_zero fun hzero => ?_
          rw [hzero] at hletter
          cases hletter.2
        have ha : Amount.Spelled ⟨digits, some fraction, [c]⟩ := by
          refine ⟨hdigits, fun other hother => ?_, nofun, by simpa using hletter.1⟩
          rw [← Option.some.inj hother]
          exact ⟨hfraction, hwidth⟩
        exact .unit h (by rw [hsplit]; simp [Amount.chars]) ha
      next => cases hscan

/-- An amount whose unit ends is added to the total. -/
theorem Totals.exists_of_add {β : Type} {before : List Char} {a : Amount} (h : Totals before total)
    (htext : text = before ++ a.chars) (ha : a.Spelled) {f : Duration → Except Fault β} {r : β}
    (hadd : a.addTo total >>= f = .ok r) : ∃ sum, Totals text sum ∧ f sum = .ok r := by
  cases hsum : a.addTo total with
  | error fault =>
    rw [hsum] at hadd
    cases hadd
  | ok sum =>
    rw [hsum] at hadd
    exact ⟨sum, htext ▸ h.amount ha hsum, hadd⟩

/-- It goes on in a unit, and adds the amount where the unit ends. -/
theorem Stands.step_unit {before : List Char} {a : Amount} (h : Totals before total)
    (htext : text = before ++ a.chars) (ha : a.Spelled)
    (hscan : scanChar total offset c (.unit a.value a.part? a.letters.reverse) =
      .ok (next, state)) : Stands (text ++ [c]) next state := by
  rw [scanChar, a.unitName_reverse] at hscan
  split at hscan
  next hc =>
    obtain ⟨sum, htotals, hnext⟩ := h.exists_of_add htext ha hscan
    cases hnext
    exact htotals.stands_digit hc
  next =>
    split at hscan
    next hblank =>
      obtain ⟨sum, htotals, hnext⟩ := h.exists_of_add htext ha hscan
      cases hnext
      exact .between _ (htotals.blank hblank)
    next =>
      split at hscan
      next hletter =>
        cases hscan
        have hlonger : Amount.Spelled { a with letters := a.letters ++ [c] } := by
          refine ⟨ha.number, ha.fraction, by simp, fun d hd => ?_⟩
          obtain hd | hd := List.mem_append.1 hd
          · exact ha.letters d hd
          · rw [List.mem_singleton.1 hd]
            exact hletter
        have hstands : Stands (text ++ [c]) total _ :=
          .unit h (by rw [htext]; simp [Amount.chars]) hlonger
        rw [List.reverse_concat] at hstands
        exact hstands
      next => cases hscan

/-- What the scanner stands for is kept with every character. -/
theorem Stands.step {state' : Scan} (h : Stands text total state)
    (hscan : scanChar total offset c state = .ok (next, state')) :
    Stands (text ++ [c]) next state' := by
  cases h with
  | between sought h => exact Stands.step_between h hscan
  | whole h htext hdigits => exact Stands.step_whole h htext hdigits hscan
  | fraction reached h htext hdigits hfraction =>
    exact Stands.step_fraction h htext hdigits hfraction hscan
  | unit h htext ha => exact Stands.step_unit h htext ha hscan

theorem inWord_ne_abort {n : Nat} : inWord n ≠ .error .abort := by
  unfold inWord
  split <;> exact nofun

/-- A number that is read does not abort. -/
theorem pushDigit_bind_ne_abort {α : Type} {value : Nat} {f : Nat → α} :
    (pushDigit value c >>= fun n => Except.ok (f n)) ≠ .error .abort := by
  intro habort
  obtain habort | ⟨n, -, habort⟩ := bind_eq_abort.1 habort
  · exact inWord_ne_abort habort
  · cases habort

theorem push_ne_abort {part : Fraction} : part.push c ≠ .error .abort := by
  intro habort
  obtain habort | ⟨n, -, habort⟩ := bind_eq_abort.1 habort
  · exact inWord_ne_abort habort
  · obtain habort | ⟨d, -, habort⟩ := bind_eq_abort.1 habort
    · exact inWord_ne_abort habort
    · cases habort

/-- Reading aborts only where a unit ends whose amount cannot be added. -/
theorem Stands.abort (h : Stands text total state)
    (hscan : scanChar total offset c state = .error .abort) :
    ∃ (before : List Char) (a : Amount), text = before ++ a.chars ∧ Totals before total ∧
      a.Spelled ∧ a.addTo total = .error .abort ∧ (c.isDigit = true ∨ isBlank c = true) := by
  cases h with
  | between sought h =>
    rw [scanChar] at hscan
    split at hscan
    next => cases hscan
    next => split at hscan <;> cases hscan
  | whole h htext hdigits =>
    rw [scanChar] at hscan
    split at hscan
    next => exact absurd hscan pushDigit_bind_ne_abort
    next =>
      split at hscan
      next => cases hscan
      next =>
        split at hscan
        next => cases hscan
        next => split at hscan <;> cases hscan
  | fraction reached h htext hdigits hfraction =>
    rw [scanChar] at hscan
    split at hscan
    next =>
      obtain habort | ⟨part, -, habort⟩ := bind_eq_abort.1 hscan
      · exact absurd habort push_ne_abort
      · cases habort
    next =>
      split at hscan
      next => cases hscan
      next => split at hscan <;> cases hscan
  | @unit before a h htext ha =>
    rw [scanChar, a.unitName_reverse] at hscan
    split at hscan
    next hc =>
      obtain habort | ⟨sum, -, habort⟩ := bind_eq_abort.1 hscan
      · exact ⟨before, a, htext, h, ha, habort, .inl hc⟩
      · cases habort
    next =>
      split at hscan
      next hc =>
        obtain habort | ⟨sum, -, habort⟩ := bind_eq_abort.1 hscan
        · exact ⟨before, a, htext, h, ha, habort, .inr hc⟩
        · cases habort
      next => split at hscan <;> cases hscan

/-- At the end of a text reading aborts only if the last amount cannot be added. -/
theorem Stands.abort_end (h : Stands text total state)
    (hscan : scanEnd total state = .error .abort) :
    ∃ (before : List Char) (a : Amount), text = before ++ a.chars ∧ Totals before total ∧
      a.Spelled ∧ a.addTo total = .error .abort := by
  have hnone : Unit.named? "" = none := by decide
  cases h with
  | between sought h => cases hscan
  | whole h htext hdigits =>
    rw [scanEnd, addAmount, hnone] at hscan
    cases hscan
  | fraction reached h htext hdigits hfraction =>
    rw [scanEnd] at hscan
    split at hscan
    next => cases hscan
    next =>
      rw [addAmount, hnone] at hscan
      cases hscan
  | @unit before a h htext ha =>
    rw [scanEnd, a.unitName_reverse] at hscan
    exact ⟨before, a, htext, h, ha, hscan⟩

/-- If reading aborts, the text goes on with an amount that cannot be added. -/
theorem Stands.exists_of_abort {rest : List Char} (h : Stands text total state)
    (hscan : scan total offset state rest = .error .abort) :
    ∃ (before later : List Char) (sum : Duration) (a : Amount),
      text ++ rest = before ++ (a.chars ++ later) ∧ Totals before sum ∧ a.Spelled ∧
        a.addTo sum = .error .abort ∧ Ends later := by
  induction rest generalizing text total offset state with
  | nil =>
    obtain ⟨before, a, rfl, htotals, ha, habort⟩ := h.abort_end hscan
    exact ⟨before, [], total, a, by simp, htotals, ha, habort, nofun⟩
  | cons d rest ih =>
    rw [scan] at hscan
    obtain hchar | ⟨⟨next, state'⟩, hchar, hrest⟩ := bind_eq_abort.1 hscan
    · obtain ⟨before, a, rfl, htotals, ha, habort, hd⟩ := h.abort hchar
      refine ⟨before, d :: rest, total, a, by simp, htotals, ha, habort, fun e he => ?_⟩
      obtain rfl : d = e := Option.some.inj he
      exact hd
    · obtain ⟨before, later, sum, a, htext, hfound⟩ := ih (h.step hchar) hrest
      rw [List.append_assoc, List.singleton_append] at htext
      exact ⟨before, later, sum, a, htext, hfound⟩

end Steps

/-! ## The texts that abort -/

/-- An amount fills a total: its whole units do if they are below a second, or else its fraction
    does if its unit is below an hour. -/
inductive Amount.Fills (a : Amount) (total : Duration) : Prop
  | whole (unit : Unit) (hunit : Unit.named? a.name = some unit)
      (hbelow : unit.nanos < nanosPerSecond) (hfills : total.Fills (a.value * unit.nanos)) :
      Fills a total
  | fraction (unit : Unit) (part : Fraction) (sum : Duration)
      (hunit : Unit.named? a.name = some unit) (hpart : a.part? = some part)
      (hwhole : addWhole total a.value unit = .ok sum) (hnano : unit ≠ .nanosecond)
      (hbelow : unit.nanos < 3600 * nanosPerSecond)
      (hword : part.numerator * unit.nanos < wordBound)
      (hexact : part.denominator ∣ part.numerator * unit.nanos)
      (hfills : sum.Fills (part.numerator * unit.nanos / part.denominator)) : Fills a total

/-- Adding an amount aborts exactly if it fills the total. -/
theorem Amount.addTo_eq_abort_iff {a : Amount} {total : Duration} :
    a.addTo total = .error .abort ↔ a.Fills total := by
  unfold Amount.addTo addAmount
  constructor
  · intro habort
    split at habort
    next => cases habort
    next unit hunit =>
      obtain habort | ⟨sum, hwhole, habort⟩ := bind_eq_abort.1 habort
      · obtain ⟨hbelow, hfills⟩ := addWhole_eq_abort_iff.1 habort
        exact .whole unit hunit hbelow hfills
      · split at habort
        next => cases habort
        next part hpart =>
          obtain ⟨hnano, hbelow, hword, hexact, hfills⟩ := addFraction_eq_abort_iff.1 habort
          exact .fraction unit part sum hunit hpart hwhole hnano hbelow hword hexact hfills
  · intro hfills
    cases hfills with
    | whole unit hunit hbelow hfills =>
      rw [hunit]
      exact bind_eq_abort.2 (.inl (addWhole_eq_abort_iff.2 ⟨hbelow, hfills⟩))
    | fraction unit part sum hunit hpart hwhole hnano hbelow hword hexact hfills =>
      rw [hunit, hpart]
      refine bind_eq_abort.2 (.inr ⟨sum, hwhole, ?_⟩)
      exact addFraction_eq_abort_iff.2 ⟨hnano, hbelow, hword, hexact, hfills⟩

/-- A text begins with amounts that can be added up, and goes on with one that fills the total. -/
def Overflows (text : List Char) : Prop :=
  ∃ (before later : List Char) (total : Duration) (a : Amount),
    text = before ++ (a.chars ++ later) ∧ Totals before total ∧ a.Spelled ∧ a.Fills total ∧
      Ends later

/-- Reading a text aborts exactly if it overflows. -/
theorem ofChars_eq_abort_iff {text : List Char} :
    ofChars text = .error .abort ↔ Overflows text := by
  constructor
  · intro habort
    unfold ofChars at habort
    split at habort
    next => cases habort
    next =>
      split at habort
      next => cases habort
      next =>
        obtain ⟨before, later, total, a, htext, htotals, ha, habort, hends⟩ :=
          (Stands.between 0 .nil).exists_of_abort habort
        exact ⟨before, later, total, a, htext, htotals, ha, Amount.addTo_eq_abort_iff.1 habort,
          hends⟩
  · rintro ⟨before, later, total, a, rfl, htotals, ha, hfills, hends⟩
    have habort : addAmount total a.value a.part? a.name = .error .abort :=
      Amount.addTo_eq_abort_iff.2 hfills
    -- The text has a digit and a letter, so it is scanned.
    obtain ⟨first, others, hwhole, hfirst⟩ := ha.number.starts
    obtain ⟨letter, letters, hletters⟩ := List.exists_cons_of_ne_nil ha.letters_ne
    have hdigit : first ∈ before ++ (a.chars ++ later) := by simp [Amount.chars, hwhole]
    have hzero : before ++ (a.chars ++ later) ≠ ['0'] := by
      intro htext
      have hletter : letter ∈ before ++ (a.chars ++ later) := by simp [Amount.chars, hletters]
      rw [htext, List.mem_singleton] at hletter
      have hunit := ha.letters letter (by simp [hletters])
      rw [hletter] at hunit
      cases hunit
    have hblank : ¬ (before ++ (a.chars ++ later)).all isBlank = true := by
      intro hall
      have hfirstBlank := List.all_eq_true.1 hall first hdigit
      rw [isBlank_of_isDigit hfirst] at hfirstBlank
      cases hfirstBlank
    obtain ⟨offset, sought, hscan⟩ := htotals.scan_append (ha.ends_chars_append later)
    obtain ⟨offset', hamount⟩ := scan_amount ha offset sought
    obtain ⟨offset₂, sought₂, hend⟩ := scan_unit_ends hends offset'
    rw [ofChars, if_neg hzero, if_neg hblank, hscan, hamount, hend, a.unitName_reverse, habort]
    rfl

end ChaosController.Duration
