/-
  ChaosController.Json.Reading

  Reading JSON texts.

  A reader takes a document off the front of a text and gives the rest of the text, or none
  where the text stops being JSON. The document then ends in a fault that tells what is
  wrong, both for whoever uses the part with the fault and for whoever skips it: skipping is
  laxer about the value of numbers and escapes, and it words some errors differently.
-/

import ChaosController.Json
import ChaosController.Text.Decimal
import ChaosController.Word

namespace ChaosController.Json

/-- A document and the rest of the text, none after a text that stopped being JSON. -/
abbrev Reading := Json × Option (List Char)

/-- The end of a text that stops being JSON at a value. -/
def stop (onUse onSkip : SyntaxError) : Reading :=
  (.fault ⟨onUse, some onSkip, onUse, false⟩, none)

/-- The end of a text that stops being JSON in a word or a number. -/
def stopInside (onUse onSkip : SyntaxError) : Reading :=
  (.fault ⟨onUse, some onSkip, .valueExpected, false⟩, none)

/-- The white space of JSON. -/
def isSpace (c : Char) : Bool := c == ' ' || c == '\n' || c == '\t' || c == '\r'

/-- Drops the white space at the front of a text. -/
def skipSpace (text : List Char) : List Char := text.dropWhile isSpace

/-! ## Words and numbers -/

/-- Reads the rest of the word `null`, `true` or `false`. -/
def readWord (value : Json) : (word text : List Char) → Reading
  | [], text => (value, some text)
  | _ :: _, [] => stopInside .endInValue .endInValue
  | w :: word, c :: text =>
    if w = c then readWord value word text else stopInside .wordExpected .wordExpected

/-- Appends digits to a significand for as long as it fits a word of 64 bits, and gives the
    digits that are left. -/
def fillSignificand (significand : Nat) : List Char → Nat × List Char
  | [] => (significand, [])
  | d :: rest =>
    let next := significand * 10 + digitValue d
    if next < wordBound then fillSignificand next rest else (significand, d :: rest)

/-- The parts of a number's text. -/
structure Numeral where
  negative : Bool
  whole : List Char
  fraction : List Char
  /-- The sign and the digits of the exponent. -/
  exponent : Option (Bool × List Char)

/-- The value of a numeral with a fraction, an exponent or too many digits for an integer.
    Digits that no longer fit the significand only count as powers of ten before the decimal
    point and not at all behind it. -/
def Numeral.double? (n : Numeral) : Option Binary64 :=
  let (significand, excess) := fillSignificand 0 n.whole
  let (significand, unread) := fillSignificand significand n.fraction
  let scale : Int := excess.length - (n.fraction.length - unread.length : Nat)
  match n.exponent with
  | none => Binary64.ofDecimal? n.negative significand scale
  | some (minus, digits) =>
    let exponent := ofDigits digits
    if exponent < 2147483648 then
      -- The sum saturates like a signed word of 32 bits.
      let total := if minus then scale - exponent else scale + exponent
      Binary64.ofDecimal? n.negative significand (max (-2147483648) (min 2147483647 total))
    -- With such an exponent every number is too large, or rounds to zero.
    else if significand ≠ 0 ∧ ¬ minus then none
    else Binary64.ofDecimal? n.negative 0 0

/-- The value of a numeral. A negative zero is a double. -/
def Numeral.number? (n : Numeral) : Option Number :=
  let value := ofDigits n.whole
  if n.fraction = [] ∧ n.exponent = none ∧ value < wordBound then
    if ¬ n.negative then some (.int value)
    -- Zero, and what does not fit a signed word, keep their sign as doubles.
    else if 0 < value ∧ value ≤ 9223372036854775808 then some (.int (-value))
    else (Binary64.ofDecimal? true value 0).map .float
  else n.double?.map .float

/-- The document of a numeral that has been read. -/
def ofNumeral (n : Numeral) (rest : List Char) : Reading :=
  match n.number? with
  | some value => (.num value, some rest)
  | none => (.fault ⟨.numberOutOfRange, none, .valueExpected, false⟩, some rest)

/-- What a number that lacks digits stops with: it may be complete in a longer text. -/
def digitMissing : List Char → Reading
  | [] => stopInside .endInValue .invalidNumber
  | _ => stopInside .invalidNumber .invalidNumber

/-- Reads the exponent of a number, if there is one. -/
def readExponent (negative : Bool) (whole fraction : List Char) (text : List Char) : Reading :=
  match text with
  | e :: rest =>
    if e = 'e' ∨ e = 'E' then
      let (minus, rest) := match rest with
        | '+' :: r => (false, r)
        | '-' :: r => (true, r)
        | r => (false, r)
      let digits := rest.takeWhile Char.isDigit
      if digits = [] then digitMissing rest
      else ofNumeral ⟨negative, whole, fraction, some (minus, digits)⟩ (rest.drop digits.length)
    else ofNumeral ⟨negative, whole, fraction, none⟩ text
  | [] => ofNumeral ⟨negative, whole, fraction, none⟩ []

/-- Reads a number without its sign. -/
def readNumber (negative : Bool) (text : List Char) : Reading :=
  let whole := text.takeWhile Char.isDigit
  let rest := text.drop whole.length
  if whole = [] then digitMissing rest
  else if whole.head? = some '0' ∧ whole.length ≠ 1 then stopInside .invalidNumber .invalidNumber
  else match rest with
    | '.' :: rest =>
      let fraction := rest.takeWhile Char.isDigit
      if fraction = [] then digitMissing rest
      else readExponent negative whole fraction (rest.drop fraction.length)
    | _ => readExponent negative whole [] rest

/-! ## Strings -/

/-- The value of a hexadecimal digit. -/
def hexValue? (c : Char) : Option Nat :=
  if c.isDigit then some (c.toNat - '0'.toNat)
  else if 'a' ≤ c ∧ c ≤ 'f' then some (c.toNat - 'a'.toNat + 10)
  else if 'A' ≤ c ∧ c ≤ 'F' then some (c.toNat - 'A'.toNat + 10)
  else none

/-- Reads the four digits of a `\u` escape. A text with less than four bytes left has
    ended. -/
def readHex (text : List Char) : Except SyntaxError (Nat × List Char) :=
  match text with
  | a :: b :: c :: d :: rest =>
    match hexValue? a, hexValue? b, hexValue? c, hexValue? d with
    | some a, some b, some c, some d => .ok (((a * 16 + b) * 16 + c) * 16 + d, rest)
    | _, _, _, _ => .error .invalidEscape
  | _ =>
    let bytes := text.foldl (fun n c => n + c.utf8Size) 0
    .error (if bytes < 4 then .endInString else .invalidEscape)

/-- The character that a short escape stands for. -/
def shortEscape? : Char → Option Char
  | '"' => some '"'
  | '\\' => some '\\'
  | '/' => some '/'
  | 'b' => some '\x08'
  | 'f' => some '\x0c'
  | 'n' => some '\n'
  | 'r' => some '\r'
  | 't' => some '\t'
  | _ => none

/-- A string that has been read to its end. `flaw` is the first escape in it that stands for
    no character, `rest` what follows the string or the error that it has no end. -/
structure StringReading where
  chars : List Char
  flaw : Option SyntaxError
  rest : Except SyntaxError (List Char)

/-- A string that stops being one. -/
def StringReading.stopped (e : SyntaxError) : StringReading := ⟨[], none, .error e⟩

/-- A character in front of the rest of a string. -/
def StringReading.push (c : Char) (r : StringReading) : StringReading :=
  { r with chars := c :: r.chars }

/-- A surrogate that is no half of a pair, in front of the rest of a string. -/
def StringReading.mark (e : SyntaxError) (r : StringReading) : StringReading :=
  { r with flaw := some e }

/-- Reads a string after its opening quote. The number of characters left bounds the
    steps. -/
def readString : (steps : Nat) → List Char → StringReading
  | 0, _ => .stopped .endInString
  | _ + 1, [] => .stopped .endInString
  | steps + 1, c :: text =>
    if c = '"' then ⟨[], none, .ok text⟩
    else if c.toNat < 0x20 then .stopped .controlCharacter
    else if c ≠ '\\' then .push c (readString steps text)
    else match text with
      | [] => .stopped .endInString
      | 'u' :: text =>
        match readHex text with
        | .error e => .stopped e
        | .ok (n, text) =>
          -- The second half of a pair cannot come first.
          if 0xDC00 ≤ n ∧ n ≤ 0xDFFF then .mark .loneSurrogate (readString steps text)
          else if n < 0xD800 ∨ 0xDBFF < n then .push (Char.ofNat n) (readString steps text)
          else match text with
            | '\\' :: 'u' :: after =>
              match readHex after with
              | .error e => .stopped e
              | .ok (m, after) =>
                if 0xDC00 ≤ m ∧ m ≤ 0xDFFF then
                  .push (Char.ofNat ((n - 0xD800) * 0x400 + (m - 0xDC00) + 0x10000))
                    (readString steps after)
                else .mark .loneSurrogate (readString steps after)
            -- What follows the first half would have to be `\u`.
            | [] | ['\\'] => .stopped .endInString
            | _ => .mark .surrogateEnd (readString steps text)
      | e :: text =>
        match shortEscape? e with
        | some c => .push c (readString steps text)
        | none => .stopped .invalidEscape

/-- The fault of a string, if it has one. -/
def StringReading.fault? (r : StringReading) (inName : Bool) : Option Fault :=
  match r.flaw, r.rest with
  | none, .ok _ => none
  | none, .error e => some ⟨e, some e, e, inName⟩
  | some f, .ok _ => some ⟨f, none, f, inName⟩
  | some f, .error e => some ⟨f, some e, f, inName⟩

/-- Reads a string as a document. -/
def readStringValue (text : List Char) : Reading :=
  let r := readString (text.length + 1) text
  match r.fault? false with
  | none => (.str (String.ofList r.chars), r.rest.toOption)
  | some f => (.fault f, r.rest.toOption)

/-! ## Lists and objects -/

/-- The last member of an object in a text that stops being JSON at a name. -/
def nameStop (onUse onSkip : SyntaxError) : List (String × Json) × Option (List Char) :=
  ([("", .fault ⟨onUse, some onSkip, onUse, true⟩)], none)

/-- The last item of a list in a text that stops being JSON. -/
def itemStop (onUse onSkip : SyntaxError) : List Json × Option (List Char) :=
  ([.fault ⟨onUse, some onSkip, onUse, false⟩], none)

/-- A member whose name and value have been read. A member with an unusable name keeps of
    its value only the error for whoever skips it. -/
def member (name : StringReading) (value : Json) : String × Json :=
  match name.fault? true with
  | none => (String.ofList name.chars, value)
  | some f => ("", .fault { f with onSkip := f.onSkip <|> value.skipFault? })

mutual
/-- Reads a document; the number of steps bounds the documents and separators in it. -/
def readValue : (steps : Nat) → List Char → Reading
  | 0, _ => stop .endInValue .endInValue
  | steps + 1, text =>
    match skipSpace text with
    | [] => stop .endInValue .endInValue
    | 'n' :: rest => readWord .null ['u', 'l', 'l'] rest
    | 't' :: rest => readWord (.bool true) ['r', 'u', 'e'] rest
    | 'f' :: rest => readWord (.bool false) ['a', 'l', 's', 'e'] rest
    | '"' :: rest => readStringValue rest
    | '-' :: rest => readNumber true rest
    | '[' :: rest =>
      let (items, rest) := readItems steps (skipSpace rest)
      (.arr items, rest)
    | '{' :: rest =>
      let (members, rest) := readMembers steps (skipSpace rest)
      (.obj members, rest)
    | c :: rest =>
      if c.isDigit then readNumber false (c :: rest) else stop .valueExpected .valueExpected
/-- Reads the items of a list from its first item, or its end. -/
def readItems : (steps : Nat) → List Char → List Json × Option (List Char)
  | 0, _ | _, [] => itemStop .endInList .endInList
  | _ + 1, ']' :: rest => ([], some rest)
  | steps + 1, text =>
    match readValue steps text with
    | (item, none) => ([item], none)
    | (item, some rest) =>
      let (items, rest) := readMoreItems steps (skipSpace rest)
      (item :: items, rest)
/-- Reads the items of a list from behind an item. -/
def readMoreItems : (steps : Nat) → List Char → List Json × Option (List Char)
  | 0, _ | _, [] => itemStop .endInList .endInList
  | _ + 1, ']' :: rest => ([], some rest)
  | steps + 1, ',' :: rest =>
    match skipSpace rest with
    | ']' :: _ => itemStop .trailingComma .valueExpected
    | text =>
      match readValue steps text with
      | (item, none) => ([item], none)
      | (item, some rest) =>
        let (items, rest) := readMoreItems steps (skipSpace rest)
        (item :: items, rest)
  | _ + 1, _ => itemStop .listEndExpected .listEndExpected
/-- Reads the members of an object from its first member, or its end. -/
def readMembers : (steps : Nat) → List Char → List (String × Json) × Option (List Char)
  | 0, _ | _, [] => nameStop .endInObject .endInObject
  | _ + 1, '}' :: rest => ([], some rest)
  | steps + 1, '"' :: rest => readMember steps rest
  | _ + 1, _ => nameStop .nameExpected .nameExpected
/-- Reads the members of an object from behind a member. -/
def readMoreMembers : (steps : Nat) → List Char → List (String × Json) × Option (List Char)
  | 0, _ | _, [] => nameStop .endInObject .endInObject
  | _ + 1, '}' :: rest => ([], some rest)
  | steps + 1, ',' :: rest =>
    match skipSpace rest with
    | [] => nameStop .endInValue .endInObject
    | '"' :: rest => readMember steps rest
    | '}' :: _ => nameStop .trailingComma .nameExpected
    | _ => nameStop .nameExpected .nameExpected
  | _ + 1, _ => nameStop .objectEndExpected .objectEndExpected
/-- Reads the members of an object from behind the opening quote of a name. -/
def readMember : (steps : Nat) → List Char → List (String × Json) × Option (List Char)
  | 0, _ => nameStop .endInString .endInString
  | steps + 1, text =>
    let name := readString (text.length + 1) text
    match name.rest with
    | .error _ => ([member name .null], none)
    | .ok rest =>
      match skipSpace rest with
      | [] => ([member name (stop .endInObject .endInObject).1], none)
      | ':' :: rest =>
        match readValue steps rest with
        | (value, none) => ([member name value], none)
        | (value, some rest) =>
          let (members, rest) := readMoreMembers steps (skipSpace rest)
          (member name value :: members, rest)
      | _ => ([member name (stop .colonExpected .colonExpected).1], none)
end

/-! ## Whole texts -/

/-- A text read as one document. -/
structure Document where
  body : Json
  /-- Whether something other than white space follows the document. -/
  trailing : Bool

/-- Reads a text. -/
def read (text : String) : Document :=
  let chars := text.toList
  match readValue (3 * chars.length + 3) chars with
  | (body, some rest) => ⟨body, skipSpace rest ≠ []⟩
  | (body, none) => ⟨body, false⟩

/-- The deepest nesting of documents that are read as a whole. -/
def depthLimit : Nat := 127

/-- Reads a text that has to be a JSON value as a whole. -/
def parse (text : String) : Except SyntaxError Json :=
  let document := read text
  match document.body.useFault? depthLimit with
  | some e => .error e
  | none => if document.trailing then .error .trailingCharacters else .ok document.body

end ChaosController.Json
