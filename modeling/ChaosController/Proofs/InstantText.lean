/-
  ChaosController.Proofs.InstantText

  Instants are read back from their texts.

  Every number in the text of an instant is followed by a character that is no digit, so it is
  read up to there and no further, whatever its limit is. The parts are put together again from
  left to right (`parts_chars`); without an offset the local parts denote the instant itself
  (`read_text`).
-/

import ChaosController.Instant.Text
import ChaosController.Proofs.Digits

namespace ChaosController

theorem daysInMonth_le (year : Int) (month : Nat) : daysInMonth year month ≤ 31 := by
  unfold daysInMonth
  split
  · split <;> decide
  all_goals decide

namespace Instant

/-! ## Readers -/

/-- A reader goes on where the reader before it has stopped. -/
theorem bind_eq {α β : Type} {first : Reader α} {next : α → Reader β} {text rest : List Char}
    {a : α} (h : first text = .ok (a, rest)) : (first >>= next) text = next a rest := by
  show (first text >>= fun p => next p.1 p.2) = next a rest
  rw [h]
  rfl

/-- A text goes on with something else than a digit. -/
def EndsNumber (rest : List Char) : Prop := ∀ c ∈ rest.head?, c.isDigit = false

theorem endsNumber_cons {c : Char} {rest : List Char} (h : c.isDigit = false) :
    EndsNumber (c :: rest) := by
  rintro d ⟨⟩
  exact h

theorem takeWhile_isDigit_append {digits rest : List Char}
    (hdigits : ∀ c ∈ digits, c.isDigit = true) (hrest : EndsNumber rest) :
    (digits ++ rest).takeWhile Char.isDigit = digits := by
  rw [List.takeWhile_append_of_pos hdigits]
  cases rest with
  | nil => simp
  | cons c rest => simp [hrest c rfl]

/-- Digits are read as a number up to a character that is no digit. -/
theorem number_append {limit : Option Nat} {digits rest : List Char} (hne : digits ≠ [])
    (hdigits : ∀ c ∈ digits, c.isDigit = true) (hlimit : ∀ n ∈ limit, digits.length ≤ n)
    (hrest : EndsNumber rest) (hsmall : ofDigits digits < 9223372036854775808) :
    number limit (digits ++ rest) = .ok (ofDigits digits, rest) := by
  have htext : digits ++ rest ≠ [] := by simp [hne]
  cases limit with
  | none =>
    simp only [number, htext, takeWhile_isDigit_append hdigits hrest, hne, if_false,
      if_pos hsmall, List.drop_left]
  | some n =>
    -- The limit cuts off only what is not read anyway.
    have hcut : ((digits ++ rest).take n).takeWhile Char.isDigit = digits := by
      rw [List.take_append, List.take_of_length_le (hlimit n rfl)]
      refine takeWhile_isDigit_append hdigits fun c hc => hrest c ?_
      rw [List.head?_take] at hc
      split at hc
      · cases hc
      · exact hc
    simp only [number, htext, hcut, hne, if_false, if_pos hsmall, List.drop_left]

theorem blanks_cons {c : Char} {rest : List Char} (h : isBlank c = false) :
    blanks (c :: rest) = .ok ((), c :: rest) := by
  simp [blanks, trimStart, h]

/-- There is nothing to skip before a digit. -/
theorem blanks_append {digits rest : List Char} (hne : digits ≠ [])
    (hdigits : ∀ c ∈ digits, c.isDigit = true) :
    blanks (digits ++ rest) = .ok ((), digits ++ rest) := by
  obtain ⟨c, digits, rfl⟩ := List.exists_cons_of_ne_nil hne
  exact blanks_cons (isBlank_of_isDigit (hdigits c List.mem_cons_self))

theorem literal_cons (c : Char) (rest : List Char) : literal c (c :: rest) = .ok ((), rest) :=
  if_pos rfl

theorem dateTimeSeparator_cons (rest : List Char) :
    dateTimeSeparator ('T' :: rest) = .ok ((), rest) := by
  rw [dateTimeSeparator, if_pos (.inl rfl)]

/-- A part of two digits is read back. -/
theorem part_fixedDigits {low high n : Nat} {rest : List Char} (hlow : low ≤ n) (hhigh : n ≤ high)
    (hn : n < 100) (hrest : EndsNumber rest) :
    part low high (fixedDigits 2 n ++ rest) = .ok (n, rest) := by
  have hvalue : ofDigits (fixedDigits 2 n) = n := by
    rw [ofDigits_fixedDigits]
    omega
  have hnumber : number (some 2) (fixedDigits 2 n ++ rest) = .ok (n, rest) := by
    rw [number_append (fixedDigits_ne_nil (by decide)) (fun _ => isDigit_of_mem_fixedDigits)
      (by simp) hrest (by omega), hvalue]
  rw [part, bind_eq (blanks_append (fixedDigits_ne_nil (by decide))
    fun _ => isDigit_of_mem_fixedDigits), bind_eq hnumber, if_pos ⟨hlow, hhigh⟩]
  rfl

/-! ## Years -/

/-- Without a sign a number is read as it stands. -/
theorem signedNumber_append {digits rest : List Char} (hne : digits ≠ [])
    (hdigits : ∀ c ∈ digits, c.isDigit = true) (hlength : digits.length ≤ 4)
    (hrest : EndsNumber rest) (hsmall : ofDigits digits < 9223372036854775808) :
    signedNumber (digits ++ rest) = .ok ((ofDigits digits : Int), rest) := by
  obtain ⟨c, digits, rfl⟩ := List.exists_cons_of_ne_nil hne
  have hc : c.isDigit = true := hdigits c List.mem_cons_self
  unfold signedNumber
  split
  next heq =>
    cases heq
    exact absurd hc (by decide)
  next heq =>
    cases heq
    exact absurd hc (by decide)
  next =>
    rw [number_append hne hdigits (by simpa using hlength) hrest hsmall]
    rfl

/-- A year is read back, whether it needs a sign or not. -/
theorem yearPart_yearText {year : Int} {rest : List Char} (hfirst : firstYear ≤ year)
    (hlast : year ≤ lastYear) (hrest : EndsNumber rest) :
    yearPart (yearText year ++ rest) = .ok (year, rest) := by
  rw [firstYear] at hfirst
  rw [lastYear] at hlast
  have hbounds : -2147483648 ≤ year ∧ year < 2147483648 := by omega
  suffices h : blanks (yearText year ++ rest) = .ok ((), yearText year ++ rest) ∧
      signedNumber (yearText year ++ rest) = .ok (year, rest) by
    rw [yearPart, bind_eq h.1, bind_eq h.2, if_pos hbounds]
    rfl
  -- Four digits stand for themselves; a year that does not fit has a sign before it.
  unfold yearText
  split
  next hfour =>
    have hvalue : ofDigits (fixedDigits 4 year.toNat) = year.toNat := by
      rw [ofDigits_fixedDigits]
      omega
    refine ⟨blanks_append (fixedDigits_ne_nil (by decide))
      fun _ => isDigit_of_mem_fixedDigits, ?_⟩
    rw [signedNumber_append (fixedDigits_ne_nil (by decide))
      (fun _ => isDigit_of_mem_fixedDigits) (by simp) hrest (by omega), hvalue,
      Int.toNat_of_nonneg hfour.1]
  next hsigned =>
    have hpadded : number none (paddedDigits 4 year.natAbs ++ rest) =
        .ok (year.natAbs, rest) := by
      have hvalue := ofDigits_paddedDigits 4 year.natAbs
      have hne : paddedDigits 4 year.natAbs ≠ [] := by
        intro hnil
        rw [hnil] at hvalue
        have hzero : (0 : Nat) = year.natAbs := hvalue
        omega
      rw [number_append hne (fun _ => isDigit_of_mem_paddedDigits) (by simp) hrest (by omega),
        hvalue]
    split
    next hneg =>
      refine ⟨blanks_cons (by decide), ?_⟩
      show (number none (paddedDigits 4 year.natAbs ++ rest) >>= fun p =>
        pure (-(p.1 : Int), p.2)) = _
      rw [hpadded]
      show Except.ok (-(year.natAbs : Int), rest) = _
      rw [Int.ofNat_natAbs_of_nonpos hneg.le, Int.neg_neg]
    next hpos =>
      refine ⟨blanks_cons (by decide), ?_⟩
      show (number none (paddedDigits 4 year.natAbs ++ rest) >>= fun p =>
        pure ((p.1 : Int), p.2)) = _
      rw [hpadded]
      show Except.ok ((year.natAbs : Int), rest) = _
      rw [Int.natAbs_of_nonneg (not_lt.1 hpos)]

/-! ## Fractions and offsets -/

/-- The digits of a fraction are read as nanoseconds. -/
theorem fractionPart_fixedDigits {width n : Nat} {rest : List Char} (hpos : 0 < width)
    (hwidth : width ≤ 9) (hn : n < 10 ^ width) (hrest : EndsNumber rest) :
    fractionPart ('.' :: (fixedDigits width n ++ rest)) = .ok (n * 10 ^ (9 - width), rest) := by
  have hvalue : ofDigits (fixedDigits width n) = n := by
    rw [ofDigits_fixedDigits, Nat.mod_eq_of_lt hn]
  have hsmall : n < 9223372036854775808 :=
    hn.trans (lt_of_le_of_lt (Nat.pow_le_pow_right (by decide) hwidth) (by decide))
  have hnumber : number (some 9) (fixedDigits width n ++ rest) = .ok (n, rest) := by
    rw [number_append (fixedDigits_ne_nil hpos) (fun _ => isDigit_of_mem_fixedDigits)
      (by simpa using hwidth) hrest (by rwa [hvalue]), hvalue]
  have hdrop : rest.dropWhile Char.isDigit = rest := by
    cases rest with
    | nil => rfl
    | cons c rest => simp [hrest c rfl]
  show (number (some 9) (fixedDigits width n ++ rest) >>= fun p => _) = _
  rw [hnumber]
  simp [hvalue, hdrop, bind, Except.bind, pure, Except.pure]

/-- A fraction is read back, however many digits it needs. -/
theorem fractionPart_fractionText {nano : Nat} {rest : List Char} (h : nano < 1000000000)
    (hrest : EndsNumber rest) (hdot : rest.head? ≠ some '.') :
    fractionPart (fractionText nano ++ rest) = .ok (nano, rest) := by
  unfold fractionText
  split
  next hzero =>
    subst hzero
    unfold fractionPart
    split
    next heq => exact absurd (congrArg List.head? heq) hdot
    next => rfl
  next =>
    split
    next hmilli =>
      have hnano : nano / 1000000 * 10 ^ (9 - 3) = nano :=
        Nat.div_mul_cancel (Nat.dvd_of_mod_eq_zero hmilli)
      rw [List.cons_append, fractionPart_fixedDigits (by decide) (by decide) (by omega) hrest,
        hnano]
    next =>
      split
      next hmicro =>
        have hnano : nano / 1000 * 10 ^ (9 - 6) = nano :=
          Nat.div_mul_cancel (Nat.dvd_of_mod_eq_zero hmicro)
        rw [List.cons_append, fractionPart_fixedDigits (by decide) (by decide) (by omega) hrest,
          hnano]
      next =>
        rw [List.cons_append, fractionPart_fixedDigits (by decide) (by decide) h hrest,
          Nat.sub_self, Nat.pow_zero, Nat.mul_one]

theorem offsetPart_zulu : offsetPart ['Z'] = .ok (0, []) := rfl

theorem endsNumber_fractionText (nano : Nat) : EndsNumber (fractionText nano ++ ['Z']) := by
  unfold fractionText
  split
  · exact endsNumber_cons rfl
  · split
    · exact endsNumber_cons rfl
    · split <;> exact endsNumber_cons rfl

/-! ## Instants -/

/-- The parts of an instant are read back from its text. -/
theorem parts_chars (i : Instant) :
    parts i.chars = .ok (⟨i.date.year, i.date.month, i.date.day, i.time.hour, i.time.minute,
      i.time.second, i.time.nano, 0⟩, []) := by
  obtain ⟨hfirst, hlast, hmonth, hmonth', hday, hday'⟩ := i.date.valid
  have hdays := daysInMonth_le i.date.year i.date.month
  have hhour := i.time.hour_lt
  have hminute := i.time.minute_lt
  have hsecond := i.time.second_le
  have hchars : i.chars = yearText i.date.year ++ '-' :: (fixedDigits 2 i.date.month ++
      '-' :: (fixedDigits 2 i.date.day ++ 'T' :: (fixedDigits 2 i.time.hour ++
      ':' :: (fixedDigits 2 i.time.minute ++ ':' :: (fixedDigits 2 i.time.second ++
      (fractionText i.time.nano ++ ['Z'])))))) := by
    simp [chars, secondsText]
  rw [hchars, parts, bind_eq (yearPart_yearText hfirst hlast (endsNumber_cons rfl)),
    bind_eq (blanks_cons rfl), bind_eq (literal_cons ..),
    bind_eq (part_fixedDigits hmonth hmonth' (by omega) (endsNumber_cons rfl)),
    bind_eq (blanks_cons rfl), bind_eq (literal_cons ..),
    bind_eq (part_fixedDigits hday (by omega) (by omega) (endsNumber_cons rfl)),
    bind_eq (dateTimeSeparator_cons _),
    bind_eq (part_fixedDigits (Nat.zero_le _) (by omega) (by omega) (endsNumber_cons rfl)),
    bind_eq (blanks_cons rfl), bind_eq (literal_cons ..),
    bind_eq (part_fixedDigits (Nat.zero_le _) (by omega) (by omega) (endsNumber_cons rfl)),
    bind_eq (blanks_cons rfl), bind_eq (literal_cons ..),
    bind_eq (part_fixedDigits (Nat.zero_le _) hsecond (by omega) (endsNumber_fractionText _)),
    bind_eq (fractionPart_fractionText i.time.nano_lt (endsNumber_cons rfl) (by decide)),
    bind_eq offsetPart_zulu]
  rfl

/-- Parts without an offset denote the instant that they are taken from. -/
theorem ofParts_self (i : Instant) :
    ofParts ⟨i.date.year, i.date.month, i.date.day, i.time.hour, i.time.minute, i.time.second,
      i.time.nano, 0⟩ = .ok i := by
  -- Without an offset the time stays on its day.
  have hdate : Date.ofCivil? i.date.year i.date.month i.date.day = some i.date :=
    dif_pos i.date.valid
  have hhour := i.time.hour_lt
  have hminute := i.time.minute_lt
  have hinDay : ((i.time.hour : Int) * 60 + i.time.minute - 0) % 1440 =
      ((i.time.hour * 60 + i.time.minute : Nat) : Int) := by omega
  have htime : TimeOfDay.ofParts? ((i.time.hour * 60 + i.time.minute) / 60)
      ((i.time.hour * 60 + i.time.minute) % 60) i.time.second i.time.nano = some i.time := by
    rw [show (i.time.hour * 60 + i.time.minute) / 60 = i.time.hour by omega,
      show (i.time.hour * 60 + i.time.minute) % 60 = i.time.minute by omega]
    exact dif_pos ⟨hhour, hminute, i.time.second_le, i.time.nano_lt⟩
  have hnotBefore : ¬ (i.time.hour : Int) * 60 + i.time.minute - 0 < 0 := by omega
  have hnotAfter : ¬ 1440 ≤ (i.time.hour : Int) * 60 + i.time.minute - 0 := by omega
  unfold ofParts
  simp only [hdate, hnotBefore, hnotAfter, hinDay, Int.toNat_natCast, htime, if_false]
  rfl

/-- Every instant is read back from its text. -/
theorem read_text (i : Instant) : read i.text = .ok i := by
  rw [read, text, String.toList_ofList, ofChars, parts_chars]
  exact ofParts_self i

end Instant

end ChaosController
