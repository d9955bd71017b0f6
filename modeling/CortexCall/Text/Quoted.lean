import CortexCall.Text.Unprintable

/-!
# A text shown in quotation marks

A message that has to show exactly what it was given puts the text between
quotation marks and writes out what could be misread: the mark itself, the
backslash, line breaks and tabs by a letter, and every unprintable character
by its number in two, four or eight hexadecimal digits. The mark is the
apostrophe, unless the text holds an apostrophe and no double quote.
-/

namespace CortexCall.Text

/-- The last `width` hexadecimal digits of a number, small letters. -/
def hexDigits (width n : Nat) : Text :=
  (List.range width).reverse.map fun i => .char (Nat.digitChar (n / Nat.pow 16 i % 16))

/-- The mark that a text is shown between. -/
def quotationMark (t : Text) : CodePoint :=
  if t.contains (.char '\'') && !t.contains (.char '"') then .char '"' else .char '\''

/-- One character between two marks. -/
def shownChar (mark c : CodePoint) : Text :=
  if c = mark || c = .char '\\' then ['\\', c]
  else if c = .char '\n' then ['\\', 'n']
  else if c = .char '\r' then ['\\', 'r']
  else if c = .char '\t' then ['\\', 't']
  else if isPrintable c then [c]
  else if c.toNat < 0x100 then '\\' :: 'x' :: hexDigits 2 c.toNat
  else if c.toNat < 0x10000 then '\\' :: 'u' :: hexDigits 4 c.toNat
  else '\\' :: 'U' :: hexDigits 8 c.toNat

/-- A text as a message shows it. -/
def quoted (t : Text) : Text :=
  quotationMark t :: (t.flatMap (shownChar (quotationMark t)) ++ [quotationMark t])

end CortexCall.Text
