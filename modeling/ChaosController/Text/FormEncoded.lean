/-
  ChaosController.Text.FormEncoded

  The form encoding of a text, used for the values in the query part of an address.

  Letters, digits and `*-._` stand for themselves, a space is written `+`, and every other
  byte of the UTF-8 form is written as `%` and two hexadecimal digits.
-/

namespace ChaosController

/-- An upper-case hexadecimal digit. -/
def upperHexDigit (n : Nat) : Char := (Nat.digitChar n).toUpper

/-- One byte in form encoding. -/
def formEncodedByte (b : UInt8) : List Char :=
  let c := Char.ofNat b.toNat
  if c.isAlphanum || c == '*' || c == '-' || c == '.' || c == '_' then [c]
  else if c == ' ' then ['+']
  else ['%', upperHexDigit (b.toNat / 16), upperHexDigit (b.toNat % 16)]

/-- A text in form encoding. -/
def formEncoded (s : String) : String :=
  String.ofList (s.toUTF8.toList.flatMap formEncodedByte)

end ChaosController
