/-
  ChaosController.Json

  JSON documents, as far as they can be read.

  A text that stops being JSON half-way is still a document up to that place: whoever
  reads it for a record may find an unsuitable value before it gets there, and that is then
  the error to report. So a document may hold faults (`Json.fault`) in place of values and
  names. A document without faults is a JSON value.
-/

import ChaosController.Json.Binary64

namespace ChaosController

/-! ## Numbers -/

/-- A number is an integer, if it is written like one and fits a word of 64 bits (with or
    without a sign), and a double else. -/
inductive Number
  | int (value : Int)
  | float (value : Binary64)
deriving DecidableEq

/-! ## Syntax errors -/

/-- Why a text is not JSON, or why a part of it has no value. -/
inductive SyntaxError
  | endInList | endInObject | endInString | endInValue
  | colonExpected | listEndExpected | objectEndExpected | nameExpected | wordExpected
  | valueExpected | invalidEscape | invalidNumber | numberOutOfRange | controlCharacter
  | loneSurrogate | surrogateEnd | trailingComma | trailingCharacters | tooDeep
deriving DecidableEq, Repr

/-- The wording of a syntax error. -/
def SyntaxError.message : SyntaxError → String
  | endInList => "EOF while parsing a list"
  | endInObject => "EOF while parsing an object"
  | endInString => "EOF while parsing a string"
  | endInValue => "EOF while parsing a value"
  | colonExpected => "expected `:`"
  | listEndExpected => "expected `,` or `]`"
  | objectEndExpected => "expected `,` or `\x7d`"
  | nameExpected => "key must be a string"
  | wordExpected => "expected ident"
  | valueExpected => "expected value"
  | invalidEscape => "invalid escape"
  | invalidNumber => "invalid number"
  | numberOutOfRange => "number out of range"
  | controlCharacter => "control character (\\u0000-\\u001F) found while parsing a string"
  | loneSurrogate => "lone leading surrogate in hex escape"
  | surrogateEnd => "unexpected end of hex escape"
  | trailingComma => "trailing comma"
  | trailingCharacters => "trailing characters"
  | tooDeep => "recursion limit exceeded"

/-- A place in a document without a value. -/
structure Fault where
  /-- The error for whoever needs the value. -/
  onUse : SyntaxError
  /-- The error for whoever skips the value; none if it can be skipped. The text of a
      document ends at a fault that cannot be skipped. -/
  onSkip : Option SyntaxError
  /-- The error for whoever needs a string or an object and looks at the first character
      only. -/
  onChoice : SyntaxError
  /-- Whether the fault stands where the name of an object's member should be. -/
  inName : Bool
deriving DecidableEq

/-! ## Documents -/

/-- A JSON document. The members of an object stand in the order of the text, and a name
    may occur in it more than once. -/
inductive Json
  | null
  | bool (value : Bool)
  | num (value : Number)
  | str (value : String)
  | arr (items : List Json)
  | obj (members : List (String × Json))
  | fault (cause : Fault)

namespace Json

instance : Inhabited Json := ⟨null⟩

/-- An integer. -/
def ofNat (n : Nat) : Json := num (.int n)

/-- A string, or nothing. -/
def ofString? : Option String → Json
  | some s => str s
  | none => null

/-- A member that is left out if it has no value. -/
def member? (name : String) (value : Option Json) : List (String × Json) :=
  match value with
  | some j => [(name, j)]
  | none => []

/-- The value of the first member with the given name. -/
def get? (name : String) : Json → Option Json
  | obj members => members.lookup name
  | _ => none

/-! ## Sorted members -/

/-- Puts a member into its place in an object with sorted members. Of two members with one
    name the later one stays. -/
def insertMember (name : String) (value : Json) : List (String × Json) → List (String × Json)
  | [] => [(name, value)]
  | (n, v) :: rest =>
    if name < n then (name, value) :: (n, v) :: rest
    else if name = n then (name, value) :: rest
    else (n, v) :: insertMember name value rest

/-- Sorts members by their names. -/
def sortMembers (members : List (String × Json)) : List (String × Json) :=
  members.foldl (fun sorted m => insertMember m.1 m.2 sorted) []

mutual
/-- The document with the members of all its objects sorted. -/
def sorted : Json → Json
  | arr items => arr (sortedItems items)
  | obj members => obj (sortMembers (sortedMembers members))
  | j => j
/-- Sorts the members in every item. -/
def sortedItems : List Json → List Json
  | [] => []
  | j :: rest => sorted j :: sortedItems rest
/-- Sorts the members in every member's value. -/
def sortedMembers : List (String × Json) → List (String × Json)
  | [] => []
  | (name, j) :: rest => (name, sorted j) :: sortedMembers rest
end

/-! ## Faults -/

mutual
/-- The error for whoever skips a document. -/
def skipFault? : Json → Option SyntaxError
  | arr items => skipFaultItems? items
  | obj members => skipFaultMembers? members
  | fault f => f.onSkip
  | _ => none
/-- The first error that some item of a list cannot be skipped for. -/
def skipFaultItems? : List Json → Option SyntaxError
  | [] => none
  | j :: rest => skipFault? j <|> skipFaultItems? rest
/-- The first error that some member of an object cannot be skipped for. -/
def skipFaultMembers? : List (String × Json) → Option SyntaxError
  | [] => none
  | (_, j) :: rest => skipFault? j <|> skipFaultMembers? rest
end

mutual
/-- The error for whoever needs all of a document, nested at most `depth` deep. -/
def useFault? (depth : Nat) : Json → Option SyntaxError
  | arr items => if depth = 0 then some .tooDeep else useFaultItems? (depth - 1) items
  | obj members => if depth = 0 then some .tooDeep else useFaultMembers? (depth - 1) members
  | fault f => some f.onUse
  | _ => none
/-- The first error in a list of documents. -/
def useFaultItems? (depth : Nat) : List Json → Option SyntaxError
  | [] => none
  | j :: rest => useFault? depth j <|> useFaultItems? depth rest
/-- The first error in the members of an object. -/
def useFaultMembers? (depth : Nat) : List (String × Json) → Option SyntaxError
  | [] => none
  | (_, j) :: rest => useFault? depth j <|> useFaultMembers? depth rest
end

end Json

end ChaosController
