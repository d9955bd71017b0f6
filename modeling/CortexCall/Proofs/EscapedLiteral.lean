import Mathlib.Data.List.Count
import CortexCall.Sql.Call
import CortexCall.Json.Reader
import CortexCall.Proofs.VerbatimJson

/-!
# Literals in which a backslash escapes

A database may read more into a literal than the doubled apostrophe. In the
dialect that these statements are sent to, a backslash takes the character
behind it with it, and the two, perhaps with some more characters, denote one.
An apostrophe behind a backslash then does not close the literal.

`quote` doubles apostrophes and leaves backslashes alone, so in this dialect
its literals say what was put into them exactly when that had no backslash:
`readConstant_quote_iff`. What an escape denotes does not matter for that. A
text that reads back loses, for each apostrophe of it, one character of its
literal, and there is nothing left that an escape could take – which is the
count in `exists_of_readBody`.
-/

namespace CortexCall.Sql

/-- What escapes mean: from the character behind the backslash and the text
behind that, the code point they denote, and how many characters of the text
belong to them. -/
abbrev Escapes := CodePoint → Text → CodePoint × Nat

/-- The content of a literal whose opening apostrophe is gone, and the text
behind the literal. The first `skipped` characters belong to an escape that
is already read. -/
def readBody (escapes : Escapes) (skipped : Nat) : Text → Option (Text × Text)
  | [] => none
  | c :: rest =>
    match skipped with
    | n + 1 => readBody escapes n rest
    | 0 =>
      if c = mark then
        match rest with
        | .char '\'' :: more => (readBody escapes 0 more).map fun r => (mark :: r.1, r.2)
        | _ => some ([], rest)
      else if c = backslash then
        match rest with
        | [] => none
        | d :: more =>
          (readBody escapes (escapes d more).2 more).map fun r => ((escapes d more).1 :: r.1, r.2)
      else (readBody escapes 0 rest).map fun r => (c :: r.1, r.2)

/-- **The constant at the front of a text**: what it denotes and what is
behind. -/
def readConstant (escapes : Escapes) : Text → Option (Text × Text)
  | .char '\'' :: rest => readBody escapes 0 rest
  | _ => none

/-! ## The escapes of the dialect -/

/-- The value of an octal digit. -/
def octalValue (c : CodePoint) : Option Nat := (Json.hexValue c).filter (· < 8)

/-- What a letter behind a backslash denotes, if it is one of those with a
meaning of their own. -/
def letterEscapes : List (CodePoint × Nat) :=
  [(.char 'b', 0x08), (.char 'f', 0x0C), (.char 'n', 0x0A), (.char 'r', 0x0D),
   (.char 't', 0x09), (.char '0', 0x00)]

/-- The code point that a number behind a backslash denotes, and how many
characters behind the first belong to it: three octal digits, `x` and two
hexadecimal ones, or `u` and four. -/
def numberEscape : Text → Option (CodePoint × Nat)
  | .char 'x' :: a :: b :: _ => do
    return (.ofNat ((← Json.hexValue a) * 16 + (← Json.hexValue b)), 2)
  | .char 'u' :: a :: b :: c :: d :: _ => do return (.ofNat (← Json.hexUnit a b c d), 4)
  | a :: b :: c :: _ => do
    return (.ofNat (((← octalValue a) * 8 + (← octalValue b)) * 8 + (← octalValue c)), 2)
  | _ => none

/-- **The escapes of the dialect**: by number, by letter, and any other
character stands for itself. -/
def dialectEscapes : Escapes := fun c rest =>
  (numberEscape (c :: rest)).getD (((letterEscapes.lookup c).map CodePoint.ofNat).getD c, 0)

/-! ## What is doubled -/

theorem length_doubled (s : Text) : (doubled s).length = s.length + s.count mark := by
  induction s with
  | nil => rfl
  | cons c rest ih =>
    rw [doubled]
    split
    · next hc =>
      subst hc
      rw [List.count_cons_self, List.length_cons, List.length_cons, List.length_cons, ih]
      omega
    · next hc =>
      rw [List.count_cons_of_ne hc, List.length_cons, List.length_cons, ih]
      omega

theorem mem_doubled {s : Text} {c : CodePoint} : c ∈ doubled s ↔ c ∈ s := by
  induction s with
  | nil => rfl
  | cons d rest ih =>
    rw [doubled]
    split
    · next hd =>
      subst hd
      rw [List.mem_cons, List.mem_cons, List.mem_cons, ih]
      exact or_self_left
    · rw [List.mem_cons, List.mem_cons, ih]

/-! ## Reading back -/

section Reading

variable {escapes : Escapes} {s rest : Text}

theorem readBody_plain {c : CodePoint} (hm : c ≠ mark) (hb : c ≠ backslash) :
    readBody escapes 0 (c :: rest)
      = (readBody escapes 0 rest).map fun r => (c :: r.1, r.2) := by
  rw [readBody.eq_def]
  show (if c = mark then _ else if c = backslash then _ else _) = _
  rw [if_neg hm, if_neg hb]

theorem readBody_mark_mark :
    readBody escapes 0 (mark :: mark :: rest)
      = (readBody escapes 0 rest).map fun r => (mark :: r.1, r.2) :=
  rfl

/-- An apostrophe on its own closes the literal. -/
theorem readBody_close (hrest : rest.head? ≠ some mark) :
    readBody escapes 0 (mark :: rest) = some ([], rest) := by
  rw [readBody.eq_def]
  show (if mark = mark then _ else _) = _
  rw [if_pos rfl]
  split
  · exact absurd rfl hrest
  · rfl

/-- Without backslashes a literal reads back. -/
theorem readBody_doubled (hs : backslash ∉ s) (hrest : rest.head? ≠ some mark) :
    readBody escapes 0 (doubled s ++ mark :: rest) = some (s, rest) := by
  induction s with
  | nil => exact readBody_close hrest
  | cons c more ih =>
    rw [List.mem_cons, not_or] at hs
    obtain ⟨hc, hmore⟩ := hs
    rw [doubled]
    split
    · next hm =>
      subst hm
      rw [List.cons_append, List.cons_append, readBody_mark_mark, ih hmore]
      rfl
    · next hm =>
      rw [List.cons_append, readBody_plain hm (Ne.symm hc), ih hmore]
      rfl

theorem count_cons_le (c : CodePoint) (t : Text) :
    List.count mark (c :: t) ≤ t.count mark + 1 := by
  rw [List.count_cons]
  split <;> omega

/-- **What is read costs at least what it says.** A character of the content
costs one of the literal, an apostrophe costs two, and an escape costs more
than it denotes. -/
theorem exists_of_readBody {skipped : Nat} {t u : Text}
    (h : readBody escapes skipped t = some (u, rest)) :
    ∃ body, t = body ++ mark :: rest ∧ 2 * u.length + body.count mark ≤ 2 * body.length
      ∧ (skipped = 0 → backslash ∈ body → 2 * u.length + body.count mark < 2 * body.length) := by
  fun_induction readBody escapes skipped t generalizing u with
  | case1 => cases h
  | case2 c more n ih =>
    obtain ⟨body, rfl, hle, -⟩ := ih h
    have hcount := count_cons_le c body
    refine ⟨c :: body, rfl, ?_, fun h0 => absurd h0 (Nat.succ_ne_zero n)⟩
    rw [List.length_cons]
    omega
  | case3 more ih =>
    obtain ⟨⟨v, _⟩, hv, ⟨⟩⟩ := Option.map_eq_some_iff.mp h
    obtain ⟨body, rfl, hle, hlt⟩ := ih hv
    refine ⟨mark :: mark :: body, rfl, ?_, fun _ hmem => ?_⟩
    · simp only [List.count_cons_self, List.length_cons]
      omega
    · have hbody : backslash ∈ body := by simpa using hmem
      have := hlt rfl hbody
      simp only [List.count_cons_self, List.length_cons]
      omega
  | case4 more _ =>
    obtain ⟨⟩ := h
    exact ⟨[], rfl, Nat.le_refl 0, fun _ hmem => absurd hmem List.not_mem_nil⟩
  | case5 => cases h
  | case6 d more _ ih =>
    -- an escape takes two characters at least, and denotes one
    obtain ⟨⟨v, _⟩, hv, ⟨⟩⟩ := Option.map_eq_some_iff.mp h
    obtain ⟨body, rfl, hle, -⟩ := ih hv
    have hcount := count_cons_le d body
    have hlt : 2 * (v.length + 1) + List.count mark (backslash :: d :: body)
        < 2 * (body.length + 2) := by
      rw [List.count_cons_of_ne (by decide)]
      omega
    exact ⟨backslash :: d :: body, rfl, Nat.le_of_lt hlt, fun _ _ => hlt⟩
  | case7 c more hm hb ih =>
    obtain ⟨⟨v, _⟩, hv, ⟨⟩⟩ := Option.map_eq_some_iff.mp h
    obtain ⟨body, rfl, hle, hlt⟩ := ih hv
    refine ⟨c :: body, rfl, ?_, fun _ hmem => ?_⟩
    · simp only [List.count_cons_of_ne hm, List.length_cons]
      omega
    · have hbody : backslash ∈ body := (List.mem_cons.mp hmem).resolve_left (Ne.symm hb)
      have := hlt rfl hbody
      simp only [List.count_cons_of_ne hm, List.length_cons]
      omega

/-- **A literal reads back in a dialect with escapes exactly when it has no
backslash**, whatever the escapes denote. -/
theorem readConstant_quote_iff (hrest : rest.head? ≠ some mark) :
    readConstant escapes (quote s ++ rest) = some (s, rest) ↔ backslash ∉ s := by
  have hquote : readConstant escapes (quote s ++ rest)
      = readBody escapes 0 (doubled s ++ mark :: rest) := by
    unfold quote
    rw [List.cons_append, List.append_assoc]
    rfl
  rw [hquote]
  refine ⟨fun h hmem => ?_, fun hs => readBody_doubled hs hrest⟩
  obtain ⟨body, hbody, -, hlt⟩ := exists_of_readBody h
  obtain rfl : doubled s = body := List.append_cancel_right hbody
  -- a doubled text is as long as what it says costs, so no escape fits in
  have := hlt rfl (mem_doubled.mpr hmem)
  rw [length_doubled, count_doubled] at this
  omega

end Reading

/-! ## Arguments -/

/-- **What arrives of an argument.** In a dialect with escapes, whatever they
denote, a text in front of a comma or a parenthesis arrives as it is exactly
when it has no backslash, and a value that travels as a JSON text arrives
exactly when every character of its texts and names is verbatim. -/
theorem readConstant_argument_iff (escapes : Escapes) :
    (∀ (s rest : Text) (d : CodePoint), d = .char ',' ∨ d = .char ')' →
      (readConstant escapes (quote s ++ d :: rest) = some (s, d :: rest) ↔ backslash ∉ s))
    ∧ ∀ (v : Json) (j rest : Text), jsonText v = .ok j →
      embed v = .ok ("PARSE_JSON(".toText ++ quote j ++ ")".toText)
      ∧ (readConstant escapes (quote j ++ (")".toText ++ rest)) = some (j, ")".toText ++ rest)
        ↔ v.everyChar Json.isVerbatim = true) := by
  refine ⟨fun s rest d hd => readConstant_quote_iff ?_, fun v j rest hj => ⟨?_, ?_⟩⟩
  · rw [List.head?_cons]
    obtain rfl | rfl := hd <;> decide
  · unfold embed embedBy
    rw [hj]
    rfl
  · obtain rfl : v.print .compact = j := by
      unfold jsonText at hj
      split at hj
      · exact Except.ok.inj hj
      · cases hj
    have hmark : (")".toText ++ rest).head? ≠ some mark := by
      show some (.char ')') ≠ some mark
      decide
    rw [readConstant_quote_iff hmark]
    exact Json.backslash_not_mem_printAt_compact 0 v

theorem readConstant_argument_iff_brien :
    jsonText (.arr [.str "O'Brien".toText]) = .ok "[\"O'Brien\"]".toText
    ∧ readConstant dialectEscapes (quote "[\"O'Brien\"]".toText ++ (")".toText ++ []))
      = some ("[\"O'Brien\"]".toText, ")".toText ++ [])
    ∧ readConstant dialectEscapes (quote "it's".toText ++ [.char ','])
      = some ("it's".toText, [.char ',']) := by
  have h := readConstant_argument_iff dialectEscapes
  have hj : jsonText (.arr [.str "O'Brien".toText]) = .ok "[\"O'Brien\"]".toText := rfl
  exact ⟨hj, ((h.2 _ _ [] hj).2).mpr rfl, (h.1 _ [] _ (.inl rfl)).mpr (by decide)⟩

/-- **A backslash lets an argument out of its literal.** At the end of a text
it keeps the literal open; in front of an apostrophe it closes the literal
early, and what follows is read as SQL; and the escapes of a JSON text are
gone before it is parsed. -/
theorem readConstant_quote_backslash :
    readConstant dialectEscapes (quote "\\".toText ++ ")".toText) = none
    ∧ readConstant dialectEscapes (quote "\\', x".toText ++ ")".toText)
      = some ("'".toText, ", x')".toText)
    ∧ jsonText (.arr [.str "\"".toText]) = .ok "[\"\\\"\"]".toText
    ∧ readConstant dialectEscapes (quote "[\"\\\"\"]".toText ++ ")".toText)
      = some ("[\"\"\"]".toText, ")".toText) :=
  ⟨by decide +kernel, by decide +kernel, rfl, by decide +kernel⟩

end CortexCall.Sql
