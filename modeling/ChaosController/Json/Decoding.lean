/-
  ChaosController.Json.Decoding

  What JSON documents are decoded with: strings, times, names out of a fixed set, lists,
  maps and records.

  The members of a record are decoded in the order of the document, and the first failure
  is reported; members that are missing are looked for afterwards, in the order in which the
  record declares them. A record may also be given as a list of its fields in that order.
  A document that is still a text (`Source.text`) differs from a value in memory only in the
  errors for surplus items and for names of a fixed set.
-/

import ChaosController.Instant.Text
import ChaosController.Json.Reading
import ChaosController.Text.Quoted

namespace ChaosController

/-! ## Errors -/

/-- What a document holds in place of what is expected. -/
inductive Found
  | null
  | bool (value : Bool)
  | int (value : Int)
  | float (value : Binary64)
  | str (value : String)
  | list
  | map
deriving DecidableEq

/-- The wording of what was found. -/
def Found.text : Found → String
  | null => "null"
  | bool b => "boolean `" ++ (if b then "true" else "false") ++ "`"
  | int n => "integer `" ++ toString n ++ "`"
  | float b => "floating point `" ++ b.text ++ "`"
  | str s => "string " ++ quoted s
  | list => "sequence"
  | map => "map"

/-- Why a document does not decode. -/
inductive DecodeError
  | notJson (cause : SyntaxError)
  | invalidType (found : Found) (expected : String)
  | invalidValue (found : Found) (expected : String)
  | invalidLength (length : Nat) (expected : String)
  | missingField (name : String)
  | duplicateField (name : String)
  | unknownVariant (name : String) (variants : List String)
  | notATime (cause : TimeError)
deriving DecidableEq

/-- A list of alternatives. -/
def alternatives : List String → String
  | [a] => "`" ++ a ++ "`"
  | [a, b] => "`" ++ a ++ "` or `" ++ b ++ "`"
  | names => "one of " ++ ", ".intercalate (names.map fun n => "`" ++ n ++ "`")

/-- The wording of an error. -/
def DecodeError.message : DecodeError → String
  | notJson cause => cause.message
  | invalidType found expected => "invalid type: " ++ found.text ++ ", expected " ++ expected
  | invalidValue found expected => "invalid value: " ++ found.text ++ ", expected " ++ expected
  | invalidLength length expected =>
    "invalid length " ++ toString length ++ ", expected " ++ expected
  | missingField name => "missing field `" ++ name ++ "`"
  | duplicateField name => "duplicate field `" ++ name ++ "`"
  | unknownVariant name variants =>
    "unknown variant `" ++ name ++ "`, expected " ++ alternatives variants
  | notATime cause => cause.message

namespace Json

/-- The result of decoding. -/
abbrev Decoded (α : Type) := Except DecodeError α

/-- Whether a document is a value in memory or a text that is being read. -/
inductive Source
  | value | text
deriving DecidableEq, Repr

/-- The error for a document of an unexpected kind. -/
def mismatch (expected : String) : Json → DecodeError
  | null => .invalidType .null expected
  | bool b => .invalidType (.bool b) expected
  | num (.int n) => .invalidType (.int n) expected
  | num (.float b) => .invalidType (.float b) expected
  | str s => .invalidType (.str s) expected
  | arr _ => .invalidType .list expected
  | obj _ => .invalidType .map expected
  | fault f => .notJson f.onUse

/-! ## Single values -/

/-- Decodes a string. -/
def decodeString : Json → Decoded String
  | str s => .ok s
  | j => .error (mismatch "a string" j)

/-- Decodes a time. -/
def decodeTime : Json → Decoded Instant
  | str s => (Instant.read s).mapError .notATime
  | j => .error (mismatch "an RFC 3339 formatted date and time string" j)

/-- Decodes an integer between two bounds, called `kind` in errors. -/
def decodeInt (kind : String) (low high : Int) : Json → Decoded Int
  | num (.int n) => if low ≤ n ∧ n ≤ high then .ok n else .error (.invalidValue (.int n) kind)
  | j => .error (mismatch kind j)

/-- Decodes a value that may be `null`. -/
def nullable {α : Type} (decode : Json → Decoded α) : Json → Decoded (Option α)
  | null => .ok none
  | j => (decode j).map some

/-- Decodes a value, with `null` read as a given one. -/
def nullAs {α : Type} (default : α) (decode : Json → Decoded α) : Json → Decoded α
  | null => .ok default
  | j => decode j

/-- Decodes nothing but checks that the document can be skipped. -/
def skip (j : Json) : Decoded Unit :=
  match j.skipFault? with
  | some e => .error (.notJson e)
  | none => .ok ()

/-- Looks up a name of a fixed set. -/
def variant {α : Type} (variants : List (String × α)) (name : String) : Decoded α :=
  match variants.lookup name with
  | some a => .ok a
  | none => .error (.unknownVariant name (variants.map Prod.fst))

/-- The document of a variant without data has to be `null`. -/
def decodeUnit : Json → Decoded Unit
  | null => .ok ()
  | j => .error (mismatch "unit" j)

/-- Decodes a name of a fixed set, given as a string or as the name of the single member of
    an object. -/
def decodeVariant {α : Type} (variants : List (String × α)) (source : Source) :
    Json → Decoded α
  | str s => variant variants s
  | fault f => .error (.notJson f.onChoice)
  | obj ((name, value) :: rest) =>
    match source with
    | .value =>
      if rest.isEmpty then do
        let a ← variant variants name
        decodeUnit value
        return a
      else .error (.invalidValue .map "map with a single key")
    | .text => do
      let a ← match value with
        | fault f => if f.inName then .error (.notJson f.onUse) else variant variants name
        | _ => variant variants name
      decodeUnit value
      -- A text is not read beyond the value of the first member.
      match rest with
      | [] => return a
      | [(_, fault ⟨.endInObject, _, _, true⟩)] => .error (.notJson .endInObject)
      | _ => .error (.notJson .valueExpected)
  | obj [] =>
    match source with
    | .value => .error (.invalidValue .map "map with a single key")
    | .text => .error (.notJson .valueExpected)
  | j =>
    match source with
    | .value => .error (mismatch "string or map" j)
    | .text => .error (.notJson .valueExpected)

/-! ## Lists and maps -/

/-- Decodes the items of a list in order. -/
def decodeItems {α : Type} (decode : Json → Decoded α) : List Json → Decoded (List α)
  | [] => .ok []
  | j :: rest => do return (← decode j) :: (← decodeItems decode rest)

/-- Decodes a list. -/
def decodeList {α : Type} (decode : Json → Decoded α) : Json → Decoded (List α)
  | arr items => decodeItems decode items
  | j => .error (mismatch "a sequence" j)

/-- The error of a member whose name cannot be read. -/
def nameFault? : Json → Option DecodeError
  | fault f => if f.inName then some (.notJson f.onUse) else none
  | _ => none

/-- Decodes the values of an object's members in order. -/
def decodeMembers {α : Type} (decode : Json → Decoded α) :
    List (String × Json) → Decoded (List (String × α))
  | [] => .ok []
  | (name, j) :: rest => do
    if let some e := nameFault? j then throw e
    return (name, ← decode j) :: (← decodeMembers decode rest)

/-- Decodes a map, as the list of its entries. -/
def decodeMap {α : Type} (decode : Json → Decoded α) : Json → Decoded (List (String × α))
  | obj members => decodeMembers decode members
  | j => .error (mismatch "a map" j)

/-! ## Records -/

/-- A field of a record: its name and what its value has to decode as. -/
structure Field where
  name : String
  check : Json → Decoded Unit

/-- A field whose value decodes. -/
def field {α : Type} (name : String) (decode : Json → Decoded α) : Field :=
  ⟨name, fun j => (decode j).map fun _ => ()⟩

/-- What may be said of a record as a whole. -/
structure Shape where
  /-- What the record is called in errors. -/
  expected : String
  /-- The fields in the order of their declaration. -/
  fields : List Field

/-- The fields of a record, by name or by position. -/
inductive Parts
  | named (members : List (String × Json))
  | listed (items : List Json)

/-- The error for a list with too few items. -/
def Shape.tooShort (shape : Shape) (length : Nat) : DecodeError :=
  let n := shape.fields.length
  .invalidLength length
    (shape.expected ++ " with " ++ toString n ++ (if n = 1 then " element" else " elements"))

/-- Decodes a field that has to be there. -/
def Shape.required {α : Type} (shape : Shape) (parts : Parts) (index : Nat) (name : String)
    (decode : Json → Decoded α) : Decoded α :=
  match parts with
  | .named members =>
    match members.lookup name with
    | some j => decode j
    | none => .error (.missingField name)
  | .listed items =>
    match items[index]? with
    | some j => decode j
    | none => .error (shape.tooShort index)

/-- Decodes a field that may be missing. -/
def optional {α : Type} (parts : Parts) (index : Nat) (name : String) (default : α)
    (decode : Json → Decoded α) : Decoded α :=
  match parts with
  | .named members =>
    match members.lookup name with
    | some j => decode j
    | none => .ok default
  | .listed items =>
    match items[index]? with
    | some j => decode j
    | none => .ok default

/-- Decodes a field that may be `null`, and may be missing unless the fields are listed. -/
def Shape.nullableField {α : Type} (shape : Shape) (parts : Parts) (index : Nat)
    (name : String) (decode : Json → Decoded α) : Decoded (Option α) :=
  match parts with
  | .named _ => optional parts index name none (nullable decode)
  | .listed _ => shape.required parts index name (nullable decode)

/-- Checks the members of a record in order; `seen` holds the fields that have been met. A
    field must not be given twice. -/
def checkMembers (fields : List Field) (seen : List String) :
    List (String × Json) → Decoded Unit
  | [] => .ok ()
  | (name, j) :: rest =>
    match nameFault? j, fields.find? (·.name == name) with
    | some e, _ => .error e
    | none, some f => do
      if seen.contains name then throw (.duplicateField name)
      f.check j
      checkMembers fields (name :: seen) rest
    | none, none => do
      skip j
      checkMembers fields seen rest

/-- Checks that a list of fields has no surplus items. -/
def checkSurplus (source : Source) (size : Nat) (items : List Json) : Decoded Unit :=
  match source, items.drop size with
  | _, [] => .ok ()
  | .value, _ => .error (.invalidLength items.length "fewer elements in array")
  | .text, [fault ⟨.endInList, _, _, _⟩] => .error (.notJson .endInList)
  | .text, [fault ⟨.trailingComma, _, _, _⟩] => .error (.notJson .trailingComma)
  | .text, _ => .error (.notJson .trailingCharacters)

/-- Decodes a record. -/
def decodeRecord {α : Type} (shape : Shape) (build : Parts → Decoded α) (source : Source) :
    Json → Decoded α
  | obj members => do
    checkMembers shape.fields [] members
    build (.named members)
  | arr items => do
    let a ← build (.listed items)
    checkSurplus source shape.fields.length items
    return a
  | j => .error (mismatch shape.expected j)

/-- Checks listed fields in order; those at the end may be missing. -/
def checkListed : List Field → List Json → Decoded Unit
  | f :: fields, j :: items => do
    f.check j
    checkListed fields items
  | _, _ => .ok ()

/-- Checks a record of which nothing is kept and whose fields may all be missing. -/
def Shape.check (shape : Shape) : (source : Source) → Json → Decoded Unit :=
  decodeRecord shape fun
    | .named _ => .ok ()
    | .listed items => checkListed shape.fields items

/-! ## Whole documents -/

/-- Decodes a value in memory: the members of its objects count in the order of their
    names. -/
def decodeValue {α : Type} (decode : Source → Json → Decoded α) (j : Json) : Decoded α :=
  decode .value j.sorted

/-- Decodes a text. That nothing follows the document is checked at the end. -/
def decodeText {α : Type} (decode : Source → Json → Decoded α) (text : String) : Decoded α := do
  let document := read text
  let a ← decode .text document.body
  if document.trailing then throw (.notJson .trailingCharacters)
  return a

end Json

end ChaosController
