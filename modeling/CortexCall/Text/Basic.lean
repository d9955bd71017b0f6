import CortexCall.Text.CodePoint

/-!
# Texts and ranges of characters

Everything this library reads and writes is a **text**: a list of code
points. A list is what the scanners recurse on and what a statement about
quoting or nesting talks about, so no other representation is used between
the command line and the statement that is sent.

A property of characters that a standard defines by enumeration is given by
its **ranges**, a list of first and last code points, and `inRanges` asks
whether a character lies in one of them.
-/

namespace CortexCall

/-- A text is the list of its code points. -/
abbrev Text := List CodePoint

end CortexCall

/-- The text of a string. -/
def String.toText (s : String) : CortexCall.Text := s.toList.map .char

namespace CortexCall.Text

/-- A text as a string. Half of a surrogate pair is no character, and the
replacement character stands for it. -/
def asString (t : Text) : String :=
  String.ofList (t.map fun
    | .char c => c
    | .half _ => '\uFFFD')

/-- Characters as a text. -/
def ofChars (cs : List Char) : Text := cs.map .char

/-- The characters of a text, without the halves between them. -/
def chars (t : Text) : List Char :=
  t.filterMap fun
    | .char c => some c
    | .half _ => none

/-- **Characters come back out of a text.** -/
@[simp] theorem chars_ofChars (cs : List Char) : chars (ofChars cs) = cs := by
  induction cs with
  | nil => rfl
  | cons c rest ih => exact congrArg (c :: ·) ih

/-- Whether a character lies in one of the ranges, ends included. -/
def inRanges (ranges : List (Nat × Nat)) (c : CodePoint) : Bool :=
  ranges.any fun r => r.1 ≤ c.toNat && c.toNat ≤ r.2

/-- **A character is in the ranges when some range holds its code point.** -/
theorem inRanges_iff {ranges : List (Nat × Nat)} {c : CodePoint} :
    inRanges ranges c = true ↔ ∃ r ∈ ranges, r.1 ≤ c.toNat ∧ c.toNat ≤ r.2 := by
  simp [inRanges]

/-- The texts one after another, with `separator` between neighbours. -/
def join (separator : Text) : List Text → Text
  | [] => []
  | [t] => t
  | t :: u :: rest => t ++ separator ++ join separator (u :: rest)

@[simp] theorem join_nil (separator : Text) : join separator [] = [] := rfl

@[simp] theorem join_singleton (separator t : Text) : join separator [t] = t := rfl

theorem join_cons_cons (separator t u : Text) (rest : List Text) :
    join separator (t :: u :: rest) = t ++ separator ++ join separator (u :: rest) := rfl

/-- A whole number in decimal, a minus sign in front of a negative one. -/
def ofInt : Int → Text
  | .ofNat n => ofChars (Nat.toDigits 10 n)
  | .negSucc n => .char '-' :: ofChars (Nat.toDigits 10 (n + 1))

/-- A count in decimal. -/
def ofNat (n : Nat) : Text := ofChars (Nat.toDigits 10 n)

end CortexCall.Text
