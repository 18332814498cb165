/-
  ChaosController.Duration

  Lengths of time, counted in nanoseconds.

  A duration holds at most `2^64 - 1` whole seconds and `999999999` further
  nanoseconds, so its nanosecond count lies below `2^64 * 10^9`. The bound is a
  field of the type: whatever reads or adds up a duration has to say what
  happens when the bound is passed.
-/

import ChaosController.Word

namespace ChaosController

/-- The number of nanoseconds in one second. -/
def nanosPerSecond : Nat := 1000000000

/-- The first nanosecond count that is too large for a duration. -/
def durationBound : Nat := wordBound * nanosPerSecond

/-- A length of time in nanoseconds. -/
structure Duration where
  /-- The number of nanoseconds. -/
  nanos : Nat
  /-- The count fits the seconds and nanoseconds it is written with. -/
  nanos_lt : nanos < durationBound := by decide
deriving DecidableEq, Repr

namespace Duration

/-- No time at all. -/
def zero : Duration := ⟨0, by decide⟩

instance : Inhabited Duration := ⟨zero⟩

/-- The duration of a nanosecond count, if the count is in range. -/
def ofNanos? (n : Nat) : Option Duration :=
  if h : n < durationBound then some ⟨n, h⟩ else none

/-- The duration of a nanosecond count, with every count out of range read as
    the longest duration. -/
def ofNanosCapped (n : Nat) : Duration :=
  if h : n < durationBound then ⟨n, h⟩ else ⟨durationBound - 1, by decide⟩

/-- The whole seconds of a duration. -/
def seconds (d : Duration) : Nat := d.nanos / nanosPerSecond

/-- The nanoseconds of a duration past its last whole second. -/
def subNanos (d : Duration) : Nat := d.nanos % nanosPerSecond

instance : LT Duration := ⟨fun a b => a.nanos < b.nanos⟩
instance : LE Duration := ⟨fun a b => a.nanos ≤ b.nanos⟩
instance (a b : Duration) : Decidable (a < b) := inferInstanceAs (Decidable (a.nanos < b.nanos))
instance (a b : Duration) : Decidable (a ≤ b) := inferInstanceAs (Decidable (a.nanos ≤ b.nanos))

/-- What is left of `a` once `b` has passed; nothing if `b` is longer. -/
def minus (a b : Duration) : Duration :=
  ⟨a.nanos - b.nanos, Nat.lt_of_le_of_lt (Nat.sub_le _ _) a.nanos_lt⟩

theorem lt_iff (a b : Duration) : a < b ↔ a.nanos < b.nanos := Iff.rfl

theorem le_iff (a b : Duration) : a ≤ b ↔ a.nanos ≤ b.nanos := Iff.rfl

@[simp] theorem nanos_minus (a b : Duration) : (a.minus b).nanos = a.nanos - b.nanos := rfl

@[simp] theorem nanos_zero : zero.nanos = 0 := rfl

@[ext] theorem ext {a b : Duration} (h : a.nanos = b.nanos) : a = b := by
  cases a; cases b; cases h; rfl

/-- Seconds and remaining nanoseconds make up the whole duration. -/
theorem seconds_subNanos (d : Duration) :
    d.seconds * nanosPerSecond + d.subNanos = d.nanos := by
  simp only [seconds, subNanos]
  exact Nat.div_add_mod' d.nanos nanosPerSecond

end Duration

end ChaosController
