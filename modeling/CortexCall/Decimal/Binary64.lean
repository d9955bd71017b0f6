/-!
# Binary floating point, read exactly

A JSON number with a point or an exponent denotes a double: a sign, a
significand below `2 ^ 53` and a power of two. This module holds doubles as
those three parts, so that no arithmetic is hidden in the machine, and reads
a decimal numeral into the nearest one.

Reading is exact until one rounding. The numeral is a quotient of naturals;
its **binade** says which power of two it lies above; the binade fixes the
grid the double must lie on; and the quotient, scaled to that grid, goes to
the nearest integer with halves to the even neighbour. Two guards keep a
numeral with an absurd exponent from being multiplied out: beyond ten to the
310th it is infinite, and far below the least double it is zero.
-/

namespace CortexCall

/-- A double. A finite one is `±significand * 2 ^ exponent`. -/
inductive Binary64 where
  | finite (negative : Bool) (significand : Nat) (exponent : Int)
  | infinite (negative : Bool)
  | nan
deriving DecidableEq, Inhabited, Repr

namespace Binary64

/-- The exponent of the finest grid, which holds zero and the subnormals. -/
def minExponent : Int := -1074

/-- The exponent of the coarsest grid. -/
def maxExponent : Int := 971

/-- Whether a double is a number. -/
def isFinite : Binary64 → Bool
  | .finite .. => true
  | .infinite _ => false
  | .nan => false

/-- The quotient to the nearest integer, a half to the even neighbour. -/
def nearest (num den : Nat) : Nat :=
  if 2 * (num % den) < den then num / den
  else if den < 2 * (num % den) then num / den + 1
  else num / den + num / den % 2

/-- The power of two a positive quotient lies above: the quotient is at
least `2 ^ b` and less than `2 ^ (b + 1)`. -/
def binade (num den : Nat) : Int :=
  if den ≤ num then (num / den).log2 else -(((den - 1) / num).log2 + 1 : Nat)

/-- The exponent of the grid a positive quotient is rounded on. -/
def gridExponent (num den : Nat) : Int := max minExponent (binade num den - 52)

/-- The quotient `num / den` divided by `2 ^ e`, again as a quotient. -/
def scaled (num den : Nat) (e : Int) : Nat × Nat :=
  if 0 ≤ e then (num, den * Nat.pow 2 e.toNat) else (num * Nat.pow 2 (-e).toNat, den)

/-- The double with the given parts, or the infinity of its sign if the
exponent is out of range. -/
def ofParts (negative : Bool) (significand : Nat) (exponent : Int) : Binary64 :=
  if maxExponent < exponent then .infinite negative else .finite negative significand exponent

/-- The double zero of a sign. -/
def zero (negative : Bool) : Binary64 := .finite negative 0 minExponent

/-- The double nearest to a positive quotient. A significand that rounds up
to `2 ^ 53` belongs to the next grid. -/
def ofRatio (negative : Bool) (num den : Nat) : Binary64 :=
  let e := gridExponent num den
  let m := nearest (scaled num den e).1 (scaled num den e).2
  if m = Nat.pow 2 53 then ofParts negative (Nat.pow 2 52) (e + 1) else ofParts negative m e

/-- **The double nearest to a decimal numeral**, `±digits * 10 ^ exponent`. -/
def ofDecimal (negative : Bool) (digits : Nat) (exponent : Int) : Binary64 :=
  if digits = 0 then zero negative
  else if 310 ≤ exponent then .infinite negative
  else if 0 ≤ exponent then ofRatio negative (digits * Nat.pow 10 exponent.toNat) 1
  else if (digits.log2 : Int) + 332 < -exponent then zero negative
  else ofRatio negative digits (Nat.pow 10 (-exponent).toNat)

@[simp] theorem ofDecimal_zero (negative : Bool) (exponent : Int) :
    ofDecimal negative 0 exponent = zero negative := rfl

end Binary64

end CortexCall
