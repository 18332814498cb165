/-
  ChaosController.Clock

  A clock that stands still until somebody waits.

  The clock counts whole milliseconds, in a word of 64 bits. Whoever waits for longer than it
  can count waits until its last moment.
-/

import ChaosController.Duration

namespace ChaosController.Clock

/-- The last moment of the clock. -/
def lastMoment : Nat := 18446744073709551613

/-- A duration in milliseconds, rounded up. -/
def milliseconds (d : Duration) : Nat := (d.nanos + 999999) / 1000000

/-- The moment at which a wait is over that begins now. -/
def moment (now : Nat) (d : Duration) : Nat := min (now + milliseconds d) lastMoment

end ChaosController.Clock
