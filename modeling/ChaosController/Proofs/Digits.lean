/-
  ChaosController.Proofs.Digits

  Decimal digits and the numbers that they spell.

  Digits of a fixed width spell a number up to a power of ten, padded digits spell it in full.
  Both consist of nothing but digits, so whoever reads them knows where they end.
-/

import ChaosController.Text.Blank
import ChaosController.Text.Decimal
import Mathlib.Tactic.IntervalCases

namespace ChaosController

@[simp] theorem isDigit_digitChar (n : Nat) : (digitChar n).isDigit = true := by
  have h : n % 10 < 10 := Nat.mod_lt _ (by decide)
  unfold digitChar
  generalize n % 10 = d at h
  interval_cases d <;> rfl

@[simp] theorem digitValue_digitChar (n : Nat) : digitValue (digitChar n) = n % 10 := by
  have h : n % 10 < 10 := Nat.mod_lt _ (by decide)
  unfold digitChar
  generalize n % 10 = d at h
  interval_cases d <;> rfl

theorem ofDigits_eq (digits : List Char) : ofDigits digits = Nat.ofDigitChars 10 digits 0 := by
  have hstep : (fun n c => n * 10 + digitValue c) =
      fun n (c : Char) => 10 * n + (c.toNat - '0'.toNat) := by
    funext n c
    rw [Nat.mul_comm]
    rfl
  rw [ofDigits, Nat.ofDigitChars_eq_foldl, hstep]

/-- No digit is blank. -/
theorem isBlank_of_isDigit {c : Char} (h : c.isDigit = true) : isBlank c = false := by
  have hdigit : 48 ≤ c.toNat ∧ c.toNat ≤ 57 := by
    simpa [Char.isDigit, UInt32.le_iff_toNat_le] using h
  simp only [isBlank, Bool.or_eq_false_iff, Bool.and_eq_false_iff, decide_eq_false_iff_not,
    beq_eq_false_iff_ne]
  omega

theorem isDigit_of_mem_fixedDigits {width n : Nat} {c : Char} (h : c ∈ fixedDigits width n) :
    c.isDigit = true := by
  induction width generalizing n with
  | zero => cases h
  | succ width ih =>
    obtain h | h := List.mem_append.1 h
    · exact ih h
    · rw [List.mem_singleton.1 h, isDigit_digitChar]

theorem fixedDigits_ne_nil {width n : Nat} (h : 0 < width) : fixedDigits width n ≠ [] := by
  rw [ne_eq, ← List.length_eq_zero_iff, length_fixedDigits]
  omega

@[simp] theorem ofDigits_fixedDigits (width n : Nat) :
    ofDigits (fixedDigits width n) = n % 10 ^ width := by
  induction width generalizing n with
  | zero => rw [Nat.pow_zero, Nat.mod_one]; rfl
  | succ width ih =>
    have hlast (digits : List Char) (c : Char) :
        ofDigits (digits ++ [c]) = ofDigits digits * 10 + digitValue c := by
      simp [ofDigits]
    rw [fixedDigits, hlast, ih, digitValue_digitChar, Nat.pow_succ', Nat.mod_mul]
    omega

theorem isDigit_of_mem_paddedDigits {width n : Nat} {c : Char} (h : c ∈ paddedDigits width n) :
    c.isDigit = true := by
  unfold paddedDigits at h
  split at h
  · exact isDigit_of_mem_fixedDigits h
  · rw [Nat.toString_eq_repr, Nat.toList_repr] at h
    exact Nat.isDigit_of_mem_toDigits (by decide) (by decide) h

/-- A number has at least the digits that it is padded to. -/
@[simp] theorem ofDigits_paddedDigits (width n : Nat) : ofDigits (paddedDigits width n) = n := by
  unfold paddedDigits
  split
  next h => exact (ofDigits_fixedDigits width n).trans (Nat.mod_eq_of_lt h)
  next => rw [Nat.toString_eq_repr, Nat.toList_repr, ofDigits_eq, Nat.ofDigitChars_ten_toDigits]

end ChaosController
