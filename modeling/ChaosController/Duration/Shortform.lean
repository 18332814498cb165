/-
  ChaosController.Duration.Shortform

  The short form of a duration that error messages show: `1.5s`, `500ms`, `2.5µs`, `1ns`.

  The unit is the largest of second, millisecond, microsecond and nanosecond that the
  duration reaches; the number is exact and carries no trailing zeros.
-/

import ChaosController.Duration
import ChaosController.Text.Decimal

namespace ChaosController.Duration

/-- `n / 10^places` in decimal, without trailing zeros after the point. -/
def decimal (n places : Nat) : String :=
  let whole := toString (n / Nat.pow 10 places)
  match fractionDigits places (n % Nat.pow 10 places) with
  | [] => whole
  | digits => whole ++ "." ++ String.ofList digits

/-- The short form of a duration. -/
def shortform (d : Duration) : String :=
  if nanosPerSecond ≤ d.nanos then decimal d.nanos 9 ++ "s"
  else if 1000000 ≤ d.nanos then decimal d.nanos 6 ++ "ms"
  else if 1000 ≤ d.nanos then decimal d.nanos 3 ++ "µs"
  else decimal d.nanos 0 ++ "ns"

end ChaosController.Duration
