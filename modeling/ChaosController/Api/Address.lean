/-
  ChaosController.Api.Address

  Addresses on the API server: a path and possibly a query.

  The parts of a path are used as they are. A question mark in one of them therefore begins
  the query, and a number sign ends the address. Characters outside ASCII are allowed.
-/

import ChaosController.Error

namespace ChaosController

/-- An address on the API server. -/
structure Address where
  path : String
  query : Option String
deriving DecidableEq, Repr

namespace Address

/-- The characters that a path may hold. -/
def isPathChar (c : Char) : Bool :=
  let n := c.toNat
  n == 0x21 || n == 0x22 || (0x24 ≤ n && n ≤ 0x3B) || n == 0x3D || (0x40 ≤ n && n ≤ 0x5F) ||
    (0x61 ≤ n && n ≤ 0x7E) || 0x80 ≤ n

/-- The characters that a query may hold. -/
def isQueryChar (c : Char) : Bool :=
  let n := c.toNat
  n == 0x21 || (0x24 ≤ n && n ≤ 0x3B) || n == 0x3D || (0x3F ≤ n && n ≤ 0x7E) ||
    0x80 ≤ n

/-- The greatest length of an address in bytes. -/
def maxLength : Nat := 65534

/-- Reads a query up to its end or a number sign. -/
def readQuery : List Char → Except RequestError (List Char)
  | [] => .ok []
  | c :: rest =>
    if c = '#' then .ok []
    else if isQueryChar c then do return c :: (← readQuery rest)
    else .error .invalidAddress

/-- Reads a path, and the query after it. -/
def readPath : List Char → Except RequestError (List Char × Option (List Char))
  | [] => .ok ([], none)
  | c :: rest =>
    if c = '?' then do return ([], some (← readQuery rest))
    else if c = '#' then .ok ([], none)
    else if isPathChar c then do
      let (path, query) ← readPath rest
      return (c :: path, query)
    else .error .invalidAddress

/-- Reads an address. -/
def read (text : String) : Except RequestError Address :=
  if maxLength < text.utf8ByteSize then .error .addressTooLong
  else do
    let (path, query) ← readPath text.toList
    return ⟨String.ofList path, query.map String.ofList⟩

end Address

end ChaosController
