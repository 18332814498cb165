/-
  ChaosController.Instant.Text

  The text of an instant: RFC 3339, written strictly and read leniently.

  Written: `2024-03-10T12:00:00.500Z`, with the fewest of 0, 3, 6 or 9 fraction digits
  that are exact. Read: parts need not be padded, blanks may stand around them, `t` or a
  blank may replace `T`, a year with a sign may have any number of digits, and any offset
  below 24 hours is converted to UTC. The parts are read from left to right and a part out
  of range is reported before anything that follows it; whether the day exists is checked
  when the whole text has been read.
-/

import ChaosController.Instant
import ChaosController.Text.Blank
import ChaosController.Text.Decimal

namespace ChaosController

/-- Why a text is not an instant. -/
inductive TimeError
  | invalid | tooShort | outOfRange | trailing | impossible
deriving DecidableEq, Repr

/-- The wording of an error. -/
def TimeError.message : TimeError → String
  | invalid => "input contains invalid characters"
  | tooShort => "premature end of input"
  | outOfRange => "input is out of range"
  | trailing => "trailing input"
  | impossible => "no possible date and time matching input"

namespace Instant

/-! ## Writing -/

/-- A year has four digits, and a sign if four digits do not suffice. -/
def yearText (year : Int) : List Char :=
  if 0 ≤ year ∧ year ≤ 9999 then fixedDigits 4 year.toNat
  else (if year < 0 then '-' else '+') :: paddedDigits 4 year.natAbs

/-- The fraction digits of a nanosecond count: 0, 3, 6 or 9 of them. -/
def fractionText (nano : Nat) : List Char :=
  if nano = 0 then []
  else if nano % 1000000 = 0 then '.' :: fixedDigits 3 (nano / 1000000)
  else if nano % 1000 = 0 then '.' :: fixedDigits 6 (nano / 1000)
  else '.' :: fixedDigits 9 nano

/-- Date and time up to the whole second. -/
def secondsText (i : Instant) : List Char :=
  yearText i.date.year ++ '-' :: fixedDigits 2 i.date.month ++ '-' :: fixedDigits 2 i.date.day ++
    'T' :: fixedDigits 2 i.time.hour ++ ':' :: fixedDigits 2 i.time.minute ++
    ':' :: fixedDigits 2 i.time.second

/-- The text of an instant. -/
def chars (i : Instant) : List Char := i.secondsText ++ fractionText i.time.nano ++ ['Z']

/-- The text of an instant. -/
def text (i : Instant) : String := String.ofList i.chars

/-- The text of an instant with exactly six fraction digits; the rest is cut off. -/
def microText (i : Instant) : String :=
  String.ofList (i.secondsText ++ '.' :: fixedDigits 6 (i.time.nano / 1000) ++ ['Z'])

/-! ## Reading -/

/-- A reader takes what it reads off the front of a text. -/
abbrev Reader := StateT (List Char) (Except TimeError)

/-- Reads an unsigned number of at least one and at most `limit` digits. -/
def number (limit : Option Nat) : Reader Nat := fun text =>
  if text = [] then .error .tooShort
  else
    let digits := (match limit with
      | some n => text.take n
      | none => text).takeWhile Char.isDigit
    if digits = [] then .error .invalid
    else if ofDigits digits < 9223372036854775808 then
      .ok (ofDigits digits, text.drop digits.length)
    else .error .outOfRange

/-- Skips blanks. -/
def blanks : Reader Unit := fun text => .ok ((), trimStart text)

/-- Reads the given character. -/
def literal (c : Char) : Reader Unit
  | [] => .error .tooShort
  | d :: rest => if d = c then .ok ((), rest) else .error .invalid

/-- Reads a number of one or two digits between `low` and `high`, after blanks. -/
def part (low high : Nat) : Reader Nat := do
  blanks
  let n ← number (some 2)
  if low ≤ n ∧ n ≤ high then return n else throw .outOfRange

/-- Reads at most four digits, or a sign and any number of digits. -/
def signedNumber : Reader Int := fun text =>
  match text with
  | '-' :: rest => do
    let (n, rest) ← number none rest
    return (-(n : Int), rest)
  | '+' :: rest => do
    let (n, rest) ← number none rest
    return (n, rest)
  | _ => do
    let (n, rest) ← number (some 4) text
    return (n, rest)

/-- Reads a year. -/
def yearPart : Reader Int := do
  blanks
  let year ← signedNumber
  if -2147483648 ≤ year ∧ year < 2147483648 then return year else throw .outOfRange

/-- Reads the character between date and time. -/
def dateTimeSeparator : Reader Unit
  | [] => .error .tooShort
  | c :: rest => if c = 'T' ∨ c = 't' ∨ c = ' ' then .ok ((), rest) else .error .invalid

/-- Reads a fraction of a second, if there is one. Digits past the ninth are skipped. -/
def fractionPart : Reader Nat := fun text =>
  match text with
  | '.' :: rest => do
    let (_, after) ← number (some 9) rest
    let digits := rest.take (rest.length - after.length)
    return (ofDigits digits * Nat.pow 10 (9 - digits.length), after.dropWhile Char.isDigit)
  | _ => .ok (0, text)

/-- Reads two digits of an offset. -/
def twoDigits : List Char → Except TimeError ((Nat × Nat) × List Char)
  | c :: d :: rest =>
    if c.isDigit && d.isDigit then .ok ((digitValue c, digitValue d), rest) else .error .invalid
  | [c] => if c.utf8Size = 1 then .error .tooShort else .error .invalid
  | [] => .error .tooShort

/-- Reads the hours and minutes of an offset after its sign, as minutes. Colons and blanks
    may stand between them. -/
def offsetMinutes : Reader Nat := fun text => do
  let ((h, h'), text) ← twoDigits text
  let text := text.dropWhile fun c => c == ':' || isBlank c
  let ((m, m'), text) ← twoDigits text
  if m < 6 then return ((h * 10 + h') * 60 + m * 10 + m', text) else throw .outOfRange

/-- The letters of UTC, in either case. -/
def isUtc (text : List Char) : Bool :=
  (text.take 3).map Char.toUpper == ['U', 'T', 'C']

/-- Reads an offset in minutes east of UTC. -/
def offsetPart : Reader Int := do
  blanks
  let text ← get
  if isUtc text then do set (text.drop 3); return 0
  else match text with
    | [] => throw .tooShort
    | 'Z' :: rest | 'z' :: rest => do set rest; return 0
    | '+' :: rest => do set rest; return (← offsetMinutes : Nat)
    | '-' :: rest | '−' :: rest => do set rest; return -(← offsetMinutes : Nat)
    | _ => throw .invalid

/-- The parts of an instant's text. -/
structure Parts where
  year : Int
  month : Nat
  day : Nat
  hour : Nat
  minute : Nat
  second : Nat
  nano : Nat
  offset : Int
deriving DecidableEq, Repr

/-- Reads the parts of an instant. -/
def parts : Reader Parts := do
  let year ← yearPart
  blanks
  literal '-'
  let month ← part 1 12
  blanks
  literal '-'
  let day ← part 1 31
  dateTimeSeparator
  let hour ← part 0 23
  blanks
  literal ':'
  let minute ← part 0 59
  blanks
  literal ':'
  let second ← part 0 60
  let nano ← fractionPart
  let offset ← offsetPart
  return ⟨year, month, day, hour, minute, second, nano, offset⟩

/-- The instant that local parts denote: the offset is taken off, which may lead to the day
    before or after. -/
def ofParts (p : Parts) : Except TimeError Instant := do
  let some date := Date.ofCivil? p.year p.month p.day | throw .outOfRange
  if ¬ (-1440 < p.offset ∧ p.offset < 1440) then throw .outOfRange
  let minutes : Int := p.hour * 60 + p.minute - p.offset
  let shifted := if minutes < 0 then date.previous?
    else if 1440 ≤ minutes then date.next? else some date
  let some date := shifted | throw .impossible
  let inDay := (minutes % 1440).toNat
  match TimeOfDay.ofParts? (inDay / 60) (inDay % 60) p.second p.nano with
  | some time => return ⟨date, time⟩
  | none => throw .outOfRange

/-- Reads an instant. Blanks may follow it. -/
def ofChars (text : List Char) : Except TimeError Instant := do
  let (p, rest) ← parts text
  if trimStart rest ≠ [] then throw .trailing
  ofParts p

/-- Reads an instant. -/
def read (text : String) : Except TimeError Instant := ofChars text.toList

end Instant

end ChaosController
