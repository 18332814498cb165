/-
  ChaosController.Json.Form

  The forms of documents of which little or nothing is kept.

  A form tells what the members of a resource have to be. Almost any member may be missing or
  `null`, unknown members are skipped, and a member that is given several times is checked
  each time. Only documents of any form are limited in depth, because only they are kept.
-/

import ChaosController.Json.Decoding

namespace ChaosController

open Json

/-- What a document has to look like. -/
inductive Form where
  | text
  /-- The given text and no other; it must not be null. -/
  | exactly (value : String)
  | flag
  | time
  /-- An integer between two bounds, called `kind` in errors. -/
  | integer (kind : String) (low high : Int)
  /-- A text or an integer of 32 bits. -/
  | textOrNumber
  /-- Any JSON value. -/
  | anything
  | list (items : Form)
  /-- Values by name. -/
  | map (values : Form)
  /-- Members with a form each. Those in `needed` have to be there and must not be null. -/
  | record (name : String) (members : List (String × Form)) (needed : List String)

namespace Form

/-- An integer of 32 bits with a sign. -/
def int32 : Form := integer "i32" (-2147483648) 2147483647

/-- An integer of 64 bits with a sign. -/
def int64 : Form := integer "i64" (-9223372036854775808) 9223372036854775807

/-- A list of texts. -/
def texts : Form := list text

/-- Texts by name. -/
def textMap : Form := map text

/-- Checks a truth value. -/
def checkFlag : Json → Decoded Unit
  | .bool _ => .ok ()
  | j => .error (mismatch "a boolean" j)

/-- Checks a text that is known beforehand. -/
def checkExactly (value : String) (j : Json) : Decoded Unit := do
  let s ← decodeString j
  if s ≠ value then throw (.invalidValue (.str s) value)

/-- Checks a text or an integer of 32 bits. -/
def checkTextOrNumber : Json → Decoded Unit
  | .str _ => .ok ()
  | .num (.int n) =>
    if -2147483648 ≤ n ∧ n ≤ 2147483647 then .ok ()
    else .error (.invalidValue (.int n) "a 32-bit integer")
  | j => .error (mismatch "IntOrString" j)

/-- Checks a document that is kept, with at most `room` lists and objects in each other. -/
def checkAnything (room : Nat) (j : Json) : Decoded Unit :=
  match j.useFault? room with
  | some e => .error (.notJson e)
  | none => .ok ()

/-- Checks the items of a list in order. -/
def checkItems (check : Json → Decoded Unit) : List Json → Decoded Unit
  | [] => .ok ()
  | j :: rest => do
    check j
    checkItems check rest

/-- Checks the members of an object in order, given their names. -/
def checkEach (check : String → Json → Decoded Unit) : List (String × Json) → Decoded Unit
  | [] => .ok ()
  | (name, j) :: rest => do
    if let some e := nameFault? j then throw e
    check name j
    checkEach check rest

/-- Checks that the needed members of an object are there. -/
def checkNeeded (members : List (String × Json)) : List String → Decoded Unit
  | [] => .ok ()
  | name :: rest =>
    if (members.lookup name).isNone then .error (.missingField name)
    else checkNeeded members rest

mutual
/-- Checks a document; `room` is the number of lists and objects that may still be opened
    inside each other. -/
def check (room : Nat) : Form → Json → Decoded Unit
  | text, j => (decodeString j).map fun _ => ()
  | exactly value, j => checkExactly value j
  | flag, j => checkFlag j
  | time, j => (decodeTime j).map fun _ => ()
  | integer kind low high, j => (decodeInt kind low high j).map fun _ => ()
  | textOrNumber, j => checkTextOrNumber j
  | anything, j => checkAnything room j
  | list items, j =>
    match j with
    | .arr js => checkItems (fun j => check (room - 1) items j) js
    | j => .error (mismatch "a sequence" j)
  | map values, j =>
    match j with
    | .obj members => checkEach (fun _ j => check (room - 1) values j) members
    | j => .error (mismatch "a map" j)
  | record name forms needed, j =>
    match j with
    | .obj members => do
      checkEach (fun name j => checkMember (room - 1) needed forms name j) members
      checkNeeded members needed
    | j => .error (mismatch name j)
/-- Checks a member of a record by the form with its name, or skips it. -/
def checkMember (room : Nat) (needed : List String) :
    List (String × Form) → String → Json → Decoded Unit
  | [], _, j => skip j
  | (n, form) :: rest, name, j =>
    if n = name then
      match form, j with
      | exactly value, j => checkExactly value j
      | form, .null => if needed.contains name then check room form .null else .ok ()
      | form, j => check room form j
    else checkMember room needed rest name j
end

end Form

end ChaosController
