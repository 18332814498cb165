/-
  ChaosController.Json.Printing

  Writing JSON documents, without white space.

  Characters are written as they are, apart from quotes, backslashes and control
  characters. A fault is written as `null`: only documents without faults are printed.
-/

import ChaosController.Json

namespace ChaosController.Json

/-- A hexadecimal digit. -/
def hexDigit (n : Nat) : Char := Nat.digitChar (n % 16)

/-- A character inside a JSON string. -/
def escaped (c : Char) : List Char :=
  match c with
  | '"' => ['\\', '"']
  | '\\' => ['\\', '\\']
  | '\n' => ['\\', 'n']
  | '\r' => ['\\', 'r']
  | '\t' => ['\\', 't']
  | '\x08' => ['\\', 'b']
  | '\x0c' => ['\\', 'f']
  | c =>
    if c.toNat < 0x20 then ['\\', 'u', '0', '0', hexDigit (c.toNat / 16), hexDigit c.toNat]
    else [c]

/-- A JSON string. -/
def printString (s : String) : String :=
  "\"" ++ String.ofList (s.toList.flatMap escaped) ++ "\""

/-- A JSON number. -/
def printNumber : Number → String
  | .int n => toString n
  | .float b => b.text

mutual
/-- The text of a document. -/
def print : Json → String
  | null | fault _ => "null"
  | bool b => if b then "true" else "false"
  | num n => printNumber n
  | str s => printString s
  | arr items => "[" ++ ",".intercalate (printItems items) ++ "]"
  | obj members => "\x7b" ++ ",".intercalate (printMembers members) ++ "\x7d"
/-- The texts of the items of a list. -/
def printItems : List Json → List String
  | [] => []
  | j :: rest => print j :: printItems rest
/-- The texts of the members of an object. -/
def printMembers : List (String × Json) → List String
  | [] => []
  | (name, j) :: rest => (printString name ++ ":" ++ print j) :: printMembers rest
end

end ChaosController.Json
