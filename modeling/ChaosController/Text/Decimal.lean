/-
  ChaosController.Text.Decimal

  Decimal digits: fixed-width numbers and fractions without trailing zeros.
-/

namespace ChaosController

/-- The digit character of a number below ten. -/
def digitChar (n : Nat) : Char := Char.ofNat ('0'.toNat + n % 10)

/-- The last `width` decimal digits of `n`, with leading zeros. -/
def fixedDigits : (width n : Nat) → List Char
  | 0, _ => []
  | width + 1, n => fixedDigits width (n / 10) ++ [digitChar n]

/-- The value of a digit character. -/
def digitValue (c : Char) : Nat := c.toNat - '0'.toNat

/-- The number that a sequence of digits spells. -/
def ofDigits (digits : List Char) : Nat :=
  digits.foldl (fun n c => n * 10 + digitValue c) 0

/-- The digits of `part / 10^width` after the decimal point, without trailing zeros. -/
def fractionDigits (width part : Nat) : List Char :=
  ((fixedDigits width part).reverse.dropWhile (· == '0')).reverse

@[simp] theorem length_fixedDigits (width n : Nat) : (fixedDigits width n).length = width := by
  induction width generalizing n with
  | zero => rfl
  | succ width ih => simp [fixedDigits, ih]

/-- Writes `n` in at least `width` digits. -/
def paddedDigits (width n : Nat) : List Char :=
  if n < Nat.pow 10 width then fixedDigits width n else (toString n).toList

end ChaosController
