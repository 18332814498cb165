/-
  ChaosController.Duration.Text

  Reading durations such as `30s`, `1h 30m` or `1.5 days`.

  A duration text is a sequence of amounts, each a number and a unit. The text
  is scanned once from left to right; the scanner's state says which part of an
  amount is being read, and an amount is added to the total as soon as its unit
  ends. Blanks may stand between amounts, inside a number and before a unit.
  Offsets in errors count the bytes of the UTF-8 form of the text.

  Fractions of units below an hour are added in nanoseconds, fractions of longer units
  in whole seconds, and every product, quotient and sum on the way has to be exact and
  to fit a word of 64 bits. One sum escapes that rule: `10^9` nanoseconds exactly are
  not carried into the seconds before the final sum is formed, and if the seconds are
  already at their largest value, forming it aborts the process (`Fault.abort`).
-/

import ChaosController.Duration
import ChaosController.Text.Blank

namespace ChaosController.Duration

/-! ## Units -/

/-- The units an amount can be given in. -/
inductive Unit
  | nanosecond | microsecond | millisecond | second | minute
  | hour | day | week | month | year
deriving DecidableEq, Repr

namespace Unit

/-- The spellings of a unit. Case matters: `m` is a minute and `M` a month. -/
def names : Unit → List String
  | nanosecond => ["nanos", "nsec", "ns"]
  | microsecond => ["usec", "us", "µs"]
  | millisecond => ["millis", "msec", "ms"]
  | second => ["seconds", "second", "secs", "sec", "s"]
  | minute => ["minutes", "minute", "min", "mins", "m"]
  | hour => ["hours", "hour", "hrs", "hr", "h"]
  | day => ["days", "day", "d"]
  | week => ["weeks", "week", "wks", "wk", "w"]
  | month => ["months", "month", "M"]
  | year => ["years", "year", "yrs", "yr", "y"]

/-- All units, shortest first. -/
def all : List Unit :=
  [nanosecond, microsecond, millisecond, second, minute, hour, day, week, month, year]

/-- The unit with the given spelling. -/
def named? (name : String) : Option Unit :=
  all.find? fun u => u.names.contains name

/-- The length of a unit in nanoseconds. A month is 30.44 days, a year 365.25 days. -/
def nanos : Unit → Nat
  | nanosecond => 1
  | microsecond => 1000
  | millisecond => 1000000
  | second => nanosPerSecond
  | minute => 60 * nanosPerSecond
  | hour => 3600 * nanosPerSecond
  | day => 86400 * nanosPerSecond
  | week => 604800 * nanosPerSecond
  | month => 2630016 * nanosPerSecond
  | year => 31557600 * nanosPerSecond

/-- The length of a unit in whole seconds; zero for units below a second. -/
def wholeSeconds (u : Unit) : Nat := u.nanos / nanosPerSecond

end Unit

/-! ## Errors -/

/-- Why a text is not a duration. -/
inductive TextError
  /-- The text holds no amount. -/
  | empty
  /-- A number should start at this offset or after the blanks that follow it. -/
  | numberExpected (offset : Nat)
  /-- A character that no amount can hold at this place. -/
  | invalidCharacter (offset : Nat)
  /-- The text ends where the unit of the number `value` should stand. -/
  | unitNeeded (value : Nat)
  /-- The letters after a number spell no unit. -/
  | unknownUnit (unit : String)
  /-- A number, a product or a sum is too large, or a fraction is not exact. -/
  | outOfRange
deriving DecidableEq, Repr

/-- The wording of an error. -/
def TextError.message : TextError → String
  | empty => "value was empty"
  | numberExpected offset => s!"expected number at {offset}"
  | invalidCharacter offset => s!"invalid character at {offset}"
  | unitNeeded value => s!"time unit needed, for example {value}sec or {value}ms"
  | unknownUnit unit =>
    s!"unknown time unit \"{unit}\", supported units: ns, us/µs, ms, sec, min, hours, days, " ++
      "weeks, months, years (and few variations)"
  | outOfRange =>
    "number is too large or cannot be represented without a lack of precision " ++
      "(values below 1ns are not supported)"

/-- How reading a duration fails: with an error, or by aborting the process. -/
inductive Fault
  | error (cause : TextError)
  | abort
deriving DecidableEq, Repr

/-! ## Checked sums -/

/-- A number that fits a word, or the error that it does not. -/
def inWord (n : Nat) : Except Fault Nat :=
  if n < wordBound then .ok n else .error (.error .outOfRange)

/-- The exact quotient, or the error that there is a remainder. -/
def exactQuotient (n divisor : Nat) : Except Fault Nat :=
  if n % divisor = 0 then .ok (n / divisor) else .error (.error .outOfRange)

/-- Adds seconds and nanoseconds to a total. Nanoseconds beyond one second are carried
    into the seconds, exactly one second of them is not: it is left to the last step,
    which aborts when the seconds are full. -/
def addParts (total : Duration) (secs nanos : Nat) : Except Fault Duration := do
  let sum ← inWord (total.subNanos + nanos)
  let (carried, left) :=
    if sum > nanosPerSecond then (sum / nanosPerSecond, sum % nanosPerSecond) else (0, sum)
  let secs ← inWord (secs + carried)
  let secs ← inWord (total.seconds + secs)
  -- `left` may be a whole second here, so the sum may not fit although `secs` does.
  match ofNanos? (secs * nanosPerSecond + left) with
  | some d => .ok d
  | none => .error .abort

/-- The digits after a decimal point: `numerator / denominator`. -/
structure Fraction where
  numerator : Nat
  denominator : Nat
deriving DecidableEq, Repr

/-- Adds `whole` times the unit to a total. -/
def addWhole (total : Duration) (whole : Nat) (unit : Unit) : Except Fault Duration :=
  if unit.nanos < nanosPerSecond then do
    addParts total 0 (← inWord (whole * unit.nanos))
  else do
    addParts total (← inWord (whole * unit.wholeSeconds)) 0

/-- Adds a fraction of the unit to a total: in nanoseconds for units below an hour, in
    whole seconds from an hour on. A nanosecond has no fractions. -/
def addFraction (total : Duration) (part : Fraction) (unit : Unit) : Except Fault Duration :=
  if unit = .nanosecond then
    .error (.error .outOfRange)
  else if unit.nanos < 3600 * nanosPerSecond then do
    addParts total 0 (← exactQuotient (← inWord (part.numerator * unit.nanos)) part.denominator)
  else do
    addParts total
      (← exactQuotient (← inWord (part.numerator * unit.wholeSeconds)) part.denominator) 0

/-- Adds one amount to a total. `unitName` is empty where the text ended too early. -/
def addAmount (total : Duration) (whole : Nat) (part : Option Fraction) (unitName : String) :
    Except Fault Duration :=
  match Unit.named? unitName with
  | none =>
    .error (.error (if unitName = "" then .unitNeeded whole else .unknownUnit unitName))
  | some unit => do
    let total ← addWhole total whole unit
    match part with
    | none => .ok total
    | some part => addFraction total part unit

/-! ## The scanner -/

/-- Where the scanner stands. -/
inductive Scan
  /-- Between amounts; `sought` is where the search for a number began. -/
  | between (sought : Nat)
  /-- In the integer part of a number. -/
  | whole (value : Nat)
  /-- After the decimal point; `reached` is the offset after the last character that
      was taken, or of the point itself. -/
  | fraction (value : Nat) (part : Fraction) (reached : Nat)
  /-- In the letters of a unit, given last letter first. -/
  | unit (value : Nat) (part : Option Fraction) (letters : List Char)
deriving DecidableEq, Repr

/-- The letters that units are spelled with. -/
def isUnitLetter (c : Char) : Bool :=
  ('a' ≤ c && c ≤ 'z') || ('A' ≤ c && c ≤ 'Z') || c == 'µ'

/-- Appends a digit to a number. -/
def pushDigit (value : Nat) (c : Char) : Except Fault Nat :=
  inWord (value * 10 + (c.toNat - '0'.toNat))

/-- Appends a digit to a fraction. -/
def Fraction.push (part : Fraction) (c : Char) : Except Fault Fraction := do
  return ⟨← pushDigit part.numerator c, ← inWord (part.denominator * 10)⟩

/-- The name spelled by letters that were collected last first. -/
def unitName (letters : List Char) : String := String.ofList letters.reverse

/-- Takes the character `c` at byte `offset`, with `total` read so far. -/
def scanChar (total : Duration) (offset : Nat) (c : Char) : Scan → Except Fault (Duration × Scan)
  | .between sought =>
    if c.isDigit then .ok (total, .whole (c.toNat - '0'.toNat))
    else if isBlank c then .ok (total, .between sought)
    else .error (.error (.numberExpected sought))
  | .whole value =>
    if c.isDigit then do return (total, .whole (← pushDigit value c))
    else if isBlank c then .ok (total, .whole value)
    else if isUnitLetter c then .ok (total, .unit value none [c])
    else if c = '.' then .ok (total, .fraction value ⟨0, 1⟩ offset)
    else .error (.error (.invalidCharacter offset))
  | .fraction value part reached =>
    if c.isDigit then do return (total, .fraction value (← part.push c) (offset + c.utf8Size))
    else if isBlank c then .ok (total, .fraction value part (offset + c.utf8Size))
    else if isUnitLetter c && part.denominator != 1 then .ok (total, .unit value (some part) [c])
    else .error (.error (.invalidCharacter reached))
  | .unit value part letters =>
    if c.isDigit then do
      return (← addAmount total value part (unitName letters), .whole (c.toNat - '0'.toNat))
    else if isBlank c then do
      return (← addAmount total value part (unitName letters), .between (offset + c.utf8Size))
    else if isUnitLetter c then .ok (total, .unit value part (c :: letters))
    else .error (.error (.invalidCharacter offset))

/-- Takes the end of the text. -/
def scanEnd (total : Duration) : Scan → Except Fault Duration
  | .between _ => .ok total
  | .whole value => addAmount total value none ""
  | .fraction value part reached =>
    if part.denominator = 1 then .error (.error (.invalidCharacter reached))
    else addAmount total value (some part) ""
  | .unit value part letters => addAmount total value part (unitName letters)

/-- Scans the rest of a text from the given state. -/
def scan (total : Duration) (offset : Nat) : Scan → List Char → Except Fault Duration
  | state, [] => scanEnd total state
  | state, c :: rest => do
    let (total, state) ← scanChar total offset c state
    scan total (offset + c.utf8Size) state rest

/-- Reads a duration. The text `0` needs no unit. -/
def ofChars (text : List Char) : Except Fault Duration :=
  if text = ['0'] then .ok zero
  else if text.all isBlank then .error (.error .empty)
  else scan zero 0 (.between 0) text

/-- Reads a duration. -/
def read (text : String) : Except Fault Duration := ofChars text.toList

end ChaosController.Duration
