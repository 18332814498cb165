/-
  ChaosController.Proofs.Calendar

  The calendar has no gaps.

  Days are numbered one after another from the first date to the last, and every nanosecond
  between two instants is an instant of its own (`Instant.exists_of_between`). So whoever is told
  to come back after a delay can do so, as long as the calendar lasts.
-/

import ChaosController.Proofs.InstantText
import Mathlib.Tactic.IntervalCases

namespace ChaosController

/-! ## Days -/

theorem daysInMonth_pos (year : Int) (month : Nat) : 0 < daysInMonth year month := by
  unfold daysInMonth
  split
  · split <;> decide
  all_goals decide

theorem isLeapYear_iff {year : Int} :
    isLeapYear year = true ↔ year % 4 = 0 ∧ (year % 100 ≠ 0 ∨ year % 400 = 0) := by
  simp [isLeapYear]

/-- Leap days only add up. -/
theorem leapDays_le {y y' : Int} (h : y ≤ y') :
    y / 4 - y / 100 + y / 400 ≤ y' / 4 - y' / 100 + y' / 400 := by
  have hfourth : y / 4 ≤ y' / 4 := by omega
  have hcentury : y' / 4 / 25 - y / 4 / 25 ≤ y' / 4 - y / 4 := by omega
  omega

namespace Date

theorem of_ofCivil?_eq_some {year : Int} {month day : Nat} {d : Date}
    (h : ofCivil? year month day = some d) :
    d.year = year ∧ d.month = month ∧ d.day = day := by
  unfold ofCivil? at h
  split at h
  next =>
    cases h
    exact ⟨rfl, rfl, rfl⟩
  next => cases h

theorem of_ofCivil?_eq_none {year : Int} {month day : Nat}
    (h : ofCivil? year month day = none) : ¬ IsDate year month day := by
  unfold ofCivil? at h
  split at h
  next => cases h
  next hno => exact hno

/-- The following day has the next number. -/
theorem dayNumber_of_next? {d next : Date} (h : d.next? = some next) :
    next.dayNumber = d.dayNumber + 1 := by
  obtain ⟨year, month, day, _, _, hmonth, hmonth', hday, hday'⟩ := d
  simp only [next?] at h
  split at h
  next =>
    obtain ⟨hy, hm, hd⟩ := of_ofCivil?_eq_some h
    simp only [dayNumber, hy, hm, hd]
    omega
  next hlast =>
    have hlast : day = daysInMonth year month := by omega
    split at h
    next =>
      -- The first day of a month follows the last one of the month before.
      obtain ⟨hy, hm, hd⟩ := of_ofCivil?_eq_some h
      simp only [dayNumber, hy, hm, hd, hlast]
      interval_cases month
      case «2» =>
        have hleap := @isLeapYear_iff year
        cases hyear : isLeapYear year
        all_goals
          simp only [daysInMonth, hyear, Bool.false_eq_true, false_iff, true_iff, if_true, if_false,
            Nat.reduceAdd, Nat.reduceLeDiff] at hleap ⊢
          omega
      all_goals
        simp only [daysInMonth]
        omega
    next =>
      obtain ⟨hy, hm, hd⟩ := of_ofCivil?_eq_some h
      obtain rfl : month = 12 := by omega
      simp only [dayNumber, hy, hm, hd, hlast, daysInMonth]
      omega

/-- A day that no other one follows is the last of the calendar. -/
theorem dayNumber_le_of_next?_eq_none {d : Date} (h : d.next? = none) (other : Date) :
    other.dayNumber ≤ d.dayNumber := by
  obtain ⟨year, month, day, hyear, hyear', hmonth, hmonth', hday, hday'⟩ := d
  simp only [next?] at h
  split at h
  next hlt => exact absurd ⟨hyear, hyear', hmonth, hmonth', by omega, hlt⟩ (of_ofCivil?_eq_none h)
  next hlast =>
    split at h
    next hlt =>
      exact absurd ⟨hyear, hyear', by omega, by omega, Nat.le_refl 1, daysInMonth_pos _ _⟩
        (of_ofCivil?_eq_none h)
    next hdec =>
      obtain rfl : month = 12 := by omega
      have hend : ¬ year + 1 ≤ lastYear := fun hle => of_ofCivil?_eq_none h
        ⟨by omega, hle, Nat.le_refl 1, by omega, Nat.le_refl 1, daysInMonth_pos _ _⟩
      obtain ⟨year', month', day', -, hyear'', hm, hm', hd, hd'⟩ := other
      have hdays := daysInMonth_le year' month'
      have hdecember : daysInMonth year 12 = 31 := rfl
      have hlater : ¬ 12 ≤ 2 := by decide
      have hleapDays := leapDays_le (show year' ≤ year by omega)
      have hleapDays' := leapDays_le (show year' - 1 ≤ year by omega)
      simp only [dayNumber, if_neg hlater]
      split
      next =>
        have hmonths : (153 * (((month' : Int) + 9) % 12) + 2) / 5 ≤ 337 := by omega
        omega
      next =>
        have hmonths : (153 * (((month' : Int) + 9) % 12) + 2) / 5 ≤ 275 := by omega
        omega

/-- No day number between those of two dates is left out. -/
theorem exists_of_between {a b : Date} {n : Int} (ha : a.dayNumber ≤ n) (hb : n ≤ b.dayNumber) :
    ∃ d : Date, d.dayNumber = n := by
  -- By induction on the number of days that are still to come.
  induction hk : (n - a.dayNumber).toNat generalizing a with
  | zero => exact ⟨a, by omega⟩
  | succ k ih =>
    cases hnext : a.next? with
    | none =>
      have hlast := dayNumber_le_of_next?_eq_none hnext b
      omega
    | some next =>
      have hnumber := dayNumber_of_next? hnext
      exact ih (a := next) (by omega) (by omega)

end Date

/-! ## Instants -/

/-- Every nanosecond between two instants is one, and lies in no leap second. -/
theorem Instant.exists_of_between {a b : Instant} {n : Int} (hleap : b.time.isLeap = false)
    (ha : a.unixNanos ≤ n) (hb : n ≤ b.unixNanos) :
    ∃ i : Instant, i.time.isLeap = false ∧ i.unixNanos = n := by
  have hseconds (t : TimeOfDay) : t.wholeSeconds < 86400 := by
    have := t.hour_lt
    have := t.minute_lt
    simp only [TimeOfDay.wholeSeconds]
    omega
  have haseconds := hseconds a.time
  have hbseconds := hseconds b.time
  have hbnano := b.time.nano_lt
  simp only [unixNanos, TimeOfDay.subNanos, hleap, Bool.false_eq_true, if_false,
    nanosPerSecond] at ha hb
  obtain ⟨date, hdate⟩ := Date.exists_of_between (a := a.date) (b := b.date)
    (n := n / 86400000000000) (by omega) (by omega)
  -- What is left of the day is a time of day.
  let inDay := (n % 86400000000000).toNat
  let time : TimeOfDay :=
    { hour := inDay / 3600000000000
      minute := inDay / 60000000000 % 60
      second := inDay / 1000000000 % 60
      nano := inDay % 1000000000
      hour_lt := by omega
      minute_lt := by omega
      second_le := by omega
      nano_lt := by omega }
  have htime : time.isLeap = false := by
    simp only [TimeOfDay.isLeap, time, beq_eq_false_iff_ne]
    omega
  refine ⟨⟨date, time⟩, htime, ?_⟩
  simp only [unixNanos, hdate, TimeOfDay.subNanos, htime, TimeOfDay.wholeSeconds,
    Bool.false_eq_true, if_false, time, nanosPerSecond]
  omega

end ChaosController
