import CortexCall.Text.Blank
import CortexCall.Text.DecimalDigit

/-!
# Whole numbers as people type them

A whole number is a run of decimal digits of any script, perhaps with a sign
in front, white space around it, and single low lines between its digits, as
in `1_000`. The information separators are no white space here. A number of
more than `maxDigits` digits is none.
-/

namespace CortexCall.Text

/-- How many digits a whole number may have. -/
def maxDigits : Nat := 4300

/-- The digits of a numeral without the low lines between them; each low line
has a digit on both sides. -/
def dropLowLines : Text → Option Text
  | [] => none
  | [c] => if isDecimalDigit c then some [c] else none
  | c :: .char '_' :: rest => if isDecimalDigit c then (dropLowLines rest).map (c :: ·) else none
  | c :: rest => if isDecimalDigit c then (dropLowLines rest).map (c :: ·) else none

/-- The number that decimal digits spell. -/
def digitsValue (digits : Text) : Nat :=
  (digits.filterMap digitValue).foldl (fun n d => 10 * n + d) 0

/-- The number that a numeral without a sign spells. -/
def readUnsigned (t : Text) : Option Nat :=
  match dropLowLines t with
  | some digits => if maxDigits < digits.length then none else some (digitsValue digits)
  | none => none

/-- Whether a character may stand around a number. -/
def isBlankAround (c : CodePoint) : Bool := isBlank c && !inRanges [(0x1C, 0x1F)] c

/-- **The whole number that a text spells**, if it spells one. -/
def readWhole (t : Text) : Option Int :=
  match ((t.dropWhile isBlankAround).reverse.dropWhile isBlankAround).reverse with
  | .char '-' :: rest => (readUnsigned rest).map fun n => -(n : Int)
  | .char '+' :: rest => (readUnsigned rest).map Int.ofNat
  | rest => (readUnsigned rest).map Int.ofNat

end CortexCall.Text
