/-
  ChaosController.Text.Blank

  White space, in the Unicode sense, and the trimming of a text at its ends.

  Duration texts and time texts are both read with this class: every character
  with the Unicode property White_Space is blank, and nothing else is (the zero
  width space U+200B, for instance, is not).
-/

namespace ChaosController

/-- The characters with the Unicode property White_Space. -/
def isBlank (c : Char) : Bool :=
  let n := c.toNat
  (0x9 ≤ n && n ≤ 0xD) || n == 0x20 || n == 0x85 || n == 0xA0 || n == 0x1680 ||
    (0x2000 ≤ n && n ≤ 0x200A) || n == 0x2028 || n == 0x2029 || n == 0x202F ||
    n == 0x205F || n == 0x3000

/-- Drops the blanks that a text starts with. -/
def trimStart (text : List Char) : List Char :=
  text.dropWhile isBlank

/-- Drops the blanks at both ends of a text. -/
def trim (text : List Char) : List Char :=
  (trimStart (trimStart text).reverse).reverse

end ChaosController
