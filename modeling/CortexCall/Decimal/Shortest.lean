import CortexCall.Text.Basic
import CortexCall.Decimal.Binary64

/-!
# The shortest decimal of a double

A double is written with the fewest digits that read back to it, and among
those with the digits nearest to it. Every finite double has an exact
decimal expansion, since a power of two times a power of ten can be cleared;
`expansion` computes it. The numerals of `n` digits next to the double are
then its expansion cut after `n` digits and the one above, so `shortest`
tries one digit, two digits, up to seventeen, and keeps the first numeral
that reads back. If none did, the whole expansion would, and it is the
answer then.

The layout is a second matter: a numeral whose leading digit has a place
value from `10 ^ -4` to `10 ^ 15` is written with a decimal point and at
least one digit behind it, any other with an exponent of two digits or more.
-/

namespace CortexCall

/-- The numeral `digits * 10 ^ exponent`. -/
structure Decimal where
  digits : Nat
  exponent : Int
deriving DecidableEq, Repr

namespace Decimal

/-- The exact decimal expansion of `significand * 2 ^ exponent`. -/
def expansion (significand : Nat) (exponent : Int) : Decimal :=
  if 0 ≤ exponent then ⟨significand * Nat.pow 2 exponent.toNat, 0⟩
  else ⟨significand * Nat.pow 5 (-exponent).toNat, exponent⟩

/-- How many digits a natural number has. -/
def width (n : Nat) : Nat := (Nat.toDigits 10 n).length

/-- The two numerals with `n` digits next to a longer one, the nearer first;
halfway between them the even one comes first. -/
def neighbours (d : Decimal) (n : Nat) : List Decimal :=
  let cut := width d.digits - n
  let unit := Nat.pow 10 cut
  let below := d.digits / unit
  let rest := d.digits % unit
  let down : Decimal := ⟨below, d.exponent + cut⟩
  let up : Decimal := ⟨below + 1, d.exponent + cut⟩
  if 2 * rest < unit || (2 * rest = unit && below % 2 = 0) then [down, up] else [up, down]

/-- Whether a numeral reads as `significand * 2 ^ exponent`. -/
def readsAs (d : Decimal) (significand : Nat) (exponent : Int) : Bool :=
  Binary64.ofDecimal false d.digits d.exponent == .finite false significand exponent

/-- The shortest numeral that reads as `significand * 2 ^ exponent`. -/
def shortest (significand : Nat) (exponent : Int) : Decimal :=
  let exact := expansion significand exponent
  let counts := (List.range' 1 17).filter (· < width exact.digits)
  ((counts.flatMap exact.neighbours).find? (·.readsAs significand exponent)).getD exact

/-- **The shortest numeral reads back**, unless it is the expansion itself. -/
theorem readsAs_shortest_or (significand : Nat) (exponent : Int) :
    (shortest significand exponent).readsAs significand exponent = true ∨
      shortest significand exponent = expansion significand exponent := by
  unfold shortest
  dsimp only
  generalize List.flatMap _ _ = candidates
  cases h : candidates.find? fun d : Decimal => readsAs d significand exponent with
  | none => exact .inr rfl
  | some d =>
    exact .inl (List.find?_some (p := fun d : Decimal => readsAs d significand exponent) h)

/-- The digits without the zeros they end in, and how many those were. -/
def trimZeros (digits : Text) : Text × Nat :=
  let kept := (digits.reverse.dropWhile (· == .char '0')).reverse
  (kept, digits.length - kept.length)

/-- An exponent with its sign and at least two digits. -/
def writeExponent (e : Int) : Text :=
  let digits := Text.ofNat e.natAbs
  (if e < 0 then .char '-' else .char '+')
    :: (if digits.length < 2 then .char '0' :: digits else digits)

/-- A numeral by its digits, none of them a trailing zero, and the place
value `10 ^ point` of the first digit. -/
def layout (digits : Text) (point : Int) : Text :=
  if -4 ≤ point && point < 16 then
    if point < 0 then
      "0.".toText ++ List.replicate (-point - 1).toNat (.char '0') ++ digits
    else
      let whole := (point + 1).toNat
      let behind := digits.drop whole
      digits.take whole ++ List.replicate (whole - digits.length) (.char '0')
        ++ ".".toText ++ (if behind.isEmpty then "0".toText else behind)
  else
    let behind := digits.drop 1
    digits.take 1 ++ (if behind.isEmpty then [] else .char '.' :: behind) ++ "e".toText
      ++ writeExponent point

/-- A numeral as it is written; zero has one digit on either side of the
point. -/
def write (d : Decimal) : Text :=
  if d.digits = 0 then "0.0".toText
  else
    let all := Text.ofNat d.digits
    layout (trimZeros all).1 (d.exponent + all.length - 1)

end Decimal

namespace Binary64

/-- A double as a numeral, with words for the values that are no number. -/
def write : Binary64 → Text
  | .finite negative significand exponent =>
    (if negative then "-".toText else []) ++ (Decimal.shortest significand exponent).write
  | .infinite false => "Infinity".toText
  | .infinite true => "-Infinity".toText
  | .nan => "NaN".toText

end Binary64

end CortexCall
