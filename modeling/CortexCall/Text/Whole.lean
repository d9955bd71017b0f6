import CortexCall.Text.Quoted

/-!
# Whole texts

A text is **whole** if it holds no half of a surrogate pair. Only a whole
text can be written out, since encodings of characters have none for a half.
What asks for a whole text and gets another one can answer in two ways: it
fails and tells where the first halves stand – `Halves` – or it mends the
text with replacement characters.
-/

namespace CortexCall

namespace Text

/-- Whether a text holds no half of a surrogate pair. -/
def isWhole (t : Text) : Bool := t.all fun c => !c.isHalf

/-- The replacement character. -/
def replacement : CodePoint := .ofNat 0xFFFD

/-- A text with three replacement characters for every half, one for each
byte that the half would take. -/
def mended (t : Text) : Text :=
  t.flatMap fun c => if c.isHalf then [replacement, replacement, replacement] else [c]

end Text

/-- Halves of surrogate pairs that stand next to each other in a text. -/
structure Halves where
  /-- How many code points stand before them. -/
  start : Nat
  /-- The first of them, by its distance from the first half there is. -/
  first : Fin 0x800
  /-- How many follow the first. -/
  more : Nat
deriving DecidableEq, Repr

namespace Halves

/-- The first halves in a text, if it is not whole. -/
def find? (t : Text) : Option Halves :=
  match t.dropWhile fun c => !c.isHalf with
  | .half u :: rest =>
    some ⟨(t.takeWhile fun c => !c.isHalf).length, u, (rest.takeWhile CodePoint.isHalf).length⟩
  | _ => none

/-- The failure to write a text with halves in it, in words. -/
def message (e : Halves) : Text :=
  "'utf-8' codec can't encode character".toText
    ++ (if e.more = 0 then
          " ".toText ++ Text.quoted [.half e.first] ++ " in position ".toText ++ Text.ofNat e.start
        else
          "s in position ".toText ++ Text.ofNat e.start ++ "-".toText
            ++ Text.ofNat (e.start + e.more))
    ++ ": surrogates not allowed".toText

end Halves

namespace Text

/-- Fails for a text that is not whole. -/
def requireWhole (t : Text) : Except Halves Unit :=
  match Halves.find? t with
  | some e => .error e
  | none => .ok ()

/-- **A text is whole when no halves are found in it.** -/
theorem isWhole_iff_find? (t : Text) : isWhole t = true ↔ Halves.find? t = none := by
  unfold Halves.find?
  induction t with
  | nil => simp [isWhole]
  | cons c rest ih =>
    cases c with
    | char c =>
      simp only [isWhole, List.all_cons, CodePoint.isHalf, Bool.not_false, Bool.true_and,
        List.dropWhile_cons, if_true, List.takeWhile_cons] at ih ⊢
      rw [ih]
      split <;> simp
    | half u => simp [isWhole, CodePoint.isHalf]

end Text

end CortexCall
