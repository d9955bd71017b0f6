import CortexCall.Text.Basic

/-!
# String literals of SQL

A text becomes a literal by standing between two apostrophes, with every
apostrophe inside written twice. `quote` writes literals and `unquote` reads
them back by the same rule: an apostrophe followed by another belongs to the
text, one on its own ends the literal. So a literal says exactly what was
put into it, wherever it stands – `unquote_quote` – as long as the text
behind it does not start with an apostrophe of its own.
-/

namespace CortexCall.Sql

/-- The apostrophe, which opens and closes a literal. -/
abbrev mark : CodePoint := .char '\''

/-- A text with its apostrophes doubled. -/
def doubled : Text → Text
  | [] => []
  | c :: rest => if c = mark then mark :: mark :: doubled rest else c :: doubled rest

/-- A text as a literal. -/
def quote (t : Text) : Text := mark :: (doubled t ++ [mark])

/-- The content of a literal whose opening apostrophe is gone, and the text
behind it. -/
def unquoteBody : Text → Option (Text × Text)
  | [] => none
  | c :: rest =>
    if c = mark then
      match rest with
      | .char '\'' :: more => (unquoteBody more).map fun r => (mark :: r.1, r.2)
      | _ => some ([], rest)
    else (unquoteBody rest).map fun r => (c :: r.1, r.2)

/-- The literal at the front of a text: what it says and what is behind. -/
def unquote : Text → Option (Text × Text)
  | .char '\'' :: rest => unquoteBody rest
  | _ => none

theorem count_doubled (s : Text) : (doubled s).count mark = 2 * s.count mark := by
  induction s with
  | nil => rfl
  | cons c rest ih =>
    rw [doubled]
    split
    · next hc =>
      subst hc
      rw [List.count_cons_self, List.count_cons_self, List.count_cons_self, ih]
      omega
    · next hc =>
      rw [List.count_cons_of_ne hc, List.count_cons_of_ne hc, ih]

/-- The body of a literal reads back, if no apostrophe follows it. -/
theorem unquoteBody_doubled (t : Text) {rest : Text} (h : rest.head? ≠ some mark) :
    unquoteBody (doubled t ++ mark :: rest) = some (t, rest) := by
  induction t with
  | nil =>
    cases rest with
    | nil => simp [doubled, unquoteBody]
    | cons c more =>
      have hc : c ≠ mark := fun e => h (by simp [e])
      unfold doubled unquoteBody
      simp only [List.nil_append, if_true]
      split
      · next heq => exact absurd (List.cons.inj heq).1 hc
      · rfl
  | cons c more ih =>
    by_cases hc : c = mark
    · subst hc
      simp only [doubled, if_true, List.cons_append]
      rw [unquoteBody.eq_def]
      simp [ih]
    · simp only [doubled, if_neg hc, List.cons_append]
      rw [unquoteBody.eq_def]
      simp [hc, ih]

/-- **A literal reads back as what was quoted**, whatever follows that is no
apostrophe. -/
theorem unquote_quote (t : Text) {rest : Text} (h : rest.head? ≠ some mark) :
    unquote (quote t ++ rest) = some (t, rest) := by
  simpa [quote, unquote] using unquoteBody_doubled t h

end CortexCall.Sql
