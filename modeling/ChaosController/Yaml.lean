/-
  ChaosController.Yaml

  Writing JSON documents as YAML, one entry a line.

  The items of a list stand as deep as the name they belong to. Text is written plain unless
  it could be read as something else, and text of several lines as a literal block.
-/

import ChaosController.Json.Printing

namespace ChaosController.Yaml

/-! ## Scalars -/

/-- The words that mean something other than themselves when they stand alone. -/
def reservedWords : List String :=
  ["", "~", "null", "Null", "NULL", "true", "True", "TRUE", "false", "False", "FALSE", "y", "Y",
    "yes", "Yes", "YES", "n", "N", "no", "No", "NO", "on", "On", "ON", "off", "Off", "OFF"]

/-- Whether a text may be a number. -/
def looksNumeric (chars : List Char) : Bool :=
  chars.any Char.isDigit && chars.all fun c => c.isDigit || "+-._eExoabcdfABCDF".toList.contains c

/-- The characters that no plain text begins with. -/
def indicators : List Char := ",[]\x7b\x7d#&*!|>'\"%@`".toList

/-- Whether a colon, a number sign or the end of the text would be misread. -/
def hasMark : List Char → Bool
  | [] => false
  | [c] => c == ':' || c == ' '
  | ':' :: ' ' :: _ => true
  | ' ' :: '#' :: _ => true
  | _ :: rest => hasMark rest

/-- Whether the beginning of a text would be misread. -/
def hasBadStart : List Char → Bool
  | [] => true
  | c :: rest =>
    c == ' ' || indicators.contains c ||
      ((c == '-' || c == '?' || c == ':') && (rest.head?.getD ' ') == ' ')

/-- Whether a text has to be quoted. -/
def needsQuotes (s : String) : Bool :=
  reservedWords.contains s || looksNumeric s.toList || hasBadStart s.toList || hasMark s.toList

/-- A text in single quotes. -/
def singleQuoted (s : String) : String :=
  "'" ++ String.ofList (s.toList.flatMap fun c => if c = '\'' then ['\'', '\''] else [c]) ++ "'"

/-- A text of one line. -/
def text (s : String) : String :=
  if s.toList.any fun c => c.toNat < 0x20 then Json.printString s
  else if needsQuotes s then singleQuoted s
  else s

/-- Spaces. -/
def spaces (n : Nat) : String := String.ofList (List.replicate n ' ')

/-- A line of a block; empty lines are not indented. -/
def blockLine (indent : Nat) (line : String) : String :=
  if line = "" then "" else spaces indent ++ line

/-- A text of several lines, behind what leads to it. A line break at its end is kept. -/
def block (lead : String) (indent : Nat) (s : String) : List String :=
  match (s.splitOn "\n").reverse with
  | "" :: rest => (lead ++ " |") :: rest.reverse.map (blockLine indent)
  | all => (lead ++ " |-") :: all.reverse.map (blockLine indent)

/-- A string, behind what leads to it. -/
def string (lead : String) (indent : Nat) (s : String) : List String :=
  if s.toList.contains '\n' then block lead indent s else [lead ++ " " ++ text s]

/-! ## Documents -/

/-- Lines of which the first one is moved behind what leads to them. -/
def joinFirst (lead : String) (indent : Nat) : List String → List String
  | [] => [lead]
  | first :: rest => (lead ++ " " ++ (first.drop indent).toString) :: rest

mutual
/-- The lines of the members of an object. -/
def memberLines (indent : Nat) : List (String × Json) → List String
  | [] => []
  | (name, j) :: rest =>
    (match j with
      | .obj (m :: members) =>
        (spaces indent ++ text name ++ ":") :: memberLines (indent + 2) (m :: members)
      | .arr (i :: items) => (spaces indent ++ text name ++ ":") :: itemLines indent (i :: items)
      | .obj [] => [spaces indent ++ text name ++ ": \x7b\x7d"]
      | .arr [] => [spaces indent ++ text name ++ ": []"]
      | .str s => string (spaces indent ++ text name ++ ":") (indent + 2) s
      | .bool b => [spaces indent ++ text name ++ ": " ++ (if b then "true" else "false")]
      | .num n => [spaces indent ++ text name ++ ": " ++ Json.printNumber n]
      | .null | .fault _ => [spaces indent ++ text name ++ ": null"]) ++
    memberLines indent rest
/-- The lines of the items of a list. -/
def itemLines (indent : Nat) : List Json → List String
  | [] => []
  | j :: rest =>
    (match j with
      | .obj (m :: members) =>
        joinFirst (spaces indent ++ "-") (indent + 2) (memberLines (indent + 2) (m :: members))
      | .arr (i :: items) =>
        joinFirst (spaces indent ++ "-") (indent + 2) (itemLines (indent + 2) (i :: items))
      | .obj [] => [spaces indent ++ "- \x7b\x7d"]
      | .arr [] => [spaces indent ++ "- []"]
      | .str s => string (spaces indent ++ "-") (indent + 2) s
      | .bool b => [spaces indent ++ "- " ++ (if b then "true" else "false")]
      | .num n => [spaces indent ++ "- " ++ Json.printNumber n]
      | .null | .fault _ => [spaces indent ++ "- null"]) ++
    itemLines indent rest
end

/-- The YAML text of an object. -/
def print (members : List (String × Json)) : String :=
  String.join ((memberLines 0 members).map (· ++ "\n"))

end ChaosController.Yaml
