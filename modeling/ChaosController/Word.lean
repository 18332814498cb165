/-
  ChaosController.Word

  The bound of unsigned words of 64 bits, which the numbers in texts and versions have to
  fit.
-/

namespace ChaosController

/-- Numbers below this bound fit an unsigned word of 64 bits. -/
def wordBound : Nat := 18446744073709551616

end ChaosController
