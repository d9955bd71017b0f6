/-!
# Code points

What a text consists of is a little more than characters. Notations that
spell a character beyond the first plane by two sixteen-bit units, a
**surrogate pair**, can also spell one half of such a pair and leave the
other out, and a text may then arrive with half a pair in it. A **code
point** is therefore a character or such a half. Halves are numbered too,
between the characters before and after them, so a property that a standard
gives by numbers is asked of code points.
-/

namespace CortexCall

/-- **A code point**: a character, or half of a surrogate pair on its own. A
half is told by its distance from the first one; the first `0x400` of them
start a pair and the others end one. -/
inductive CodePoint where
  | char (c : Char)
  | half (offset : Fin 0x800)
deriving DecidableEq, Inhabited, Repr

namespace CodePoint

/-- A character is a code point. -/
instance : Coe Char CodePoint := ⟨.char⟩

/-- The number of the first half. -/
def firstHalf : Nat := 0xD800

/-- The number of a code point. -/
def toNat : CodePoint → Nat
  | .char c => c.toNat
  | .half u => firstHalf + u.val

/-- The code point of a number; numbers beyond the last one have the code
point zero. -/
def ofNat (n : Nat) : CodePoint :=
  if h : n - firstHalf < 0x800 ∧ firstHalf ≤ n then .half ⟨n - firstHalf, h.1⟩
  else .char (Char.ofNat n)

/-- **A half is the code point of its number.** -/
theorem ofNat_toNat_half (u : Fin 0x800) : ofNat (toNat (.half u)) = .half u := by
  have h : firstHalf + u.val - firstHalf = u.val := by omega
  simp [ofNat, toNat, h]

/-- Whether a code point is half of a surrogate pair. -/
def isHalf : CodePoint → Bool
  | .char _ => false
  | .half _ => true

/-- The character that a surrogate pair spells. -/
def pair (high low : Fin 0x800) : CodePoint :=
  .char (Char.ofNat (0x10000 + high.val * 0x400 + (low.val - 0x400)))

/-! ## ASCII -/

/-- Whether a code point is an ASCII digit. -/
def isDigit : CodePoint → Bool
  | .char c => c.isDigit
  | .half _ => false

/-- Whether a code point is an ASCII letter. -/
def isAlpha : CodePoint → Bool
  | .char c => c.isAlpha
  | .half _ => false

/-- Whether a code point is an ASCII letter or digit. -/
def isAlphanum (c : CodePoint) : Bool := c.isAlpha || c.isDigit

/-- The code point with a small ASCII letter as a capital. -/
def toUpper : CodePoint → CodePoint
  | .char c => .char c.toUpper
  | .half u => .half u

/-- The code point with an ASCII capital as a small letter. -/
def toLower : CodePoint → CodePoint
  | .char c => .char c.toLower
  | .half u => .half u

end CodePoint

end CortexCall
