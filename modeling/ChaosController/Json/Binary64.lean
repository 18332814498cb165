/-
  ChaosController.Json.Binary64

  Numbers that are not integers: doubles, kept as their bit patterns, how they are
  read and the shortest text that denotes them.

  Reading rounds twice, first the digits to a double and then its product with, or its
  quotient by, a power of ten. Writing takes the fewest digits that lie in the interval of
  reals that round to the double, and of those the digits nearest to it; of two digit
  sequences that are equally near, the even one is written.
-/

namespace ChaosController

/-- A double, given by its bit pattern. -/
structure Binary64 where
  bits : UInt64
deriving DecidableEq

namespace Binary64

/-! ## Reading -/

/-- The power of ten with an exponent of at most 308. -/
def powerOfTen (exponent : Nat) : Float := Float.ofScientific 1 false exponent

/-- Multiplies a double by a power of ten; none if the product is too large. Exponents
    below -308 are taken in steps, so that tiny results end at zero. -/
def scale? : (steps : Nat) → (value : Float) → (exponent : Int) → Option Float
  | 0, value, _ => some value
  | steps + 1, value, exponent =>
    if exponent.natAbs ≤ 308 then
      if 0 ≤ exponent then
        let product := value * powerOfTen exponent.natAbs
        if product.isInf then none else some product
      else some (value / powerOfTen exponent.natAbs)
    -- The power itself is no double: zero stays zero, and everything else is too large or
    -- is divided once more.
    else if value == 0 then some value
    else if 0 ≤ exponent then none
    else scale? steps (value / powerOfTen 308) (exponent + 308)

/-- The double for `significand * 10 ^ exponent`, with a sign; none if it is too large. -/
def ofDecimal? (negative : Bool) (significand : Nat) (exponent : Int) : Option Binary64 := do
  let value ← scale? 8 (Float.ofNat significand) exponent
  return ⟨(if negative then -value else value).toBits⟩

/-! ## Writing -/

/-- Whether the double has a minus sign. -/
def isNegative (b : Binary64) : Bool := b.bits.toNat / Nat.pow 2 63 == 1

/-- The double without its sign, as `m * 2 ^ e`. -/
def magnitude (b : Binary64) : Nat × Int :=
  let part : Nat := b.bits.toNat % Nat.pow 2 52
  let field : Nat := b.bits.toNat / Nat.pow 2 52 % Nat.pow 2 11
  if field = 0 then (part, -1074) else (Nat.pow 2 52 + part, (field : Int) - 1075)

/-- A double `m * 2 ^ e` and the ends of the interval that rounds to it, all over `den`. -/
structure Interval where
  low : Nat
  mid : Nat
  high : Nat
  den : Nat
  /-- Whether the ends belong to the interval. -/
  closed : Bool

/-- The interval of reals that round to `m * 2 ^ e`. It is shorter below a power of two. -/
def interval (m : Nat) (e : Int) : Interval :=
  let factor := if 2 ≤ e then Nat.pow 2 (e - 2).toNat else 1
  let den := if 2 ≤ e then 1 else Nat.pow 2 (2 - e).toNat
  let below := if m = Nat.pow 2 52 ∧ -1074 < e then 1 else 2
  ⟨(4 * m - below) * factor, 4 * m * factor, (4 * m + 2) * factor, den, m % 2 == 0⟩

/-- Whether `digits * 10 ^ k` lies in the interval; `up` and `down` are the powers of ten
    that clear the denominators. -/
def Interval.holds (i : Interval) (digits up down : Nat) : Bool :=
  let x := digits * up * i.den
  if i.closed then i.low * down ≤ x && x ≤ i.high * down
  else i.low * down < x && x < i.high * down

/-- The digits and the exponent of the shortest decimal in the interval. Grids of decimals
    are tried from the coarse to the fine, beginning with multiples of `10 ^ k`. -/
def Interval.shortest (i : Interval) : (steps : Nat) → (k : Int) → Nat × Int
  | 0, k => (0, k)
  | steps + 1, k =>
    let up := if 0 ≤ k then Nat.pow 10 k.toNat else 1
    let down := if 0 ≤ k then 1 else Nat.pow 10 (-k).toNat
    let floor := i.mid * down / (up * i.den)
    let remainder := i.mid * down % (up * i.den)
    let below : Bool := 2 * remainder < up * i.den || 2 * remainder == up * i.den && floor % 2 == 0
    let nearest := if below then floor else floor + 1
    let other := if below then floor + 1 else floor
    -- Only the two neighbours of the double on the grid can lie in the interval.
    if i.holds nearest up down then (nearest, k)
    else if i.holds other up down then (other, k)
    else shortest i steps (k - 1)

/-- The text of `digits * 10 ^ k`. The number is written without an exponent if its point
    stands at most 16 places right and at most 4 places left of the first digit. -/
def layout (digits : List Char) (k : Int) : List Char :=
  let point := digits.length + k
  if 0 ≤ k ∧ point ≤ 16 then digits ++ List.replicate k.toNat '0' ++ ['.', '0']
  else if 0 < point ∧ point ≤ 16 then
    digits.take point.toNat ++ '.' :: digits.drop point.toNat
  else if -5 < point ∧ point ≤ 0 then
    ['0', '.'] ++ List.replicate (-point).toNat '0' ++ digits
  else
    let fraction := if digits.length = 1 then [] else '.' :: digits.drop 1
    let sign := if 0 < point then ['+'] else []
    digits.take 1 ++ fraction ++ 'e' :: sign ++ (toString (point - 1)).toList

/-- The text of a double. -/
def text (b : Binary64) : String :=
  let sign := if b.isNegative then "-" else ""
  let (m, e) := b.magnitude
  if m = 0 then sign ++ "0.0"
  else
    let (digits, k) := (interval m e).shortest 700 310
    sign ++ String.ofList (layout (toString digits).toList k)

end Binary64

end ChaosController
