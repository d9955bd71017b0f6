import Mathlib.Algebra.Group.Nat.Even
import CortexCall.Proofs.Balanced

/-!
# The grammar of single calls

Which texts are single calls is said here without a scan, by the rules that
derive them. A call is a name, white space, and a **body** in parentheses. A
body is a sequence of plain characters, literals, and bodies in parentheses of
their own; a literal has any content between its apostrophes in which every
apostrophe is doubled.

The rules derive some texts in more than one way, and the scan decides at each
character without knowing how the text goes on. They agree nevertheless –
`isSingleCall_iff_derived` – because whatever the rules put between two
parentheses the scan crosses, and a scan that ends well has crossed nothing
else. That is the balanced text of `CortexCall.Proofs.Balanced`, and a body is
balanced text in other words: `isBody_iff_balanced`.

The boundaries of a call follow from its form. It ends with the parenthesis
that was opened first, so no call starts another; its apostrophes come in
pairs; and what a literal in it says makes no difference.
-/

namespace CortexCall.Sql

/-- **The content of a literal**: any characters, and apostrophes only
doubled. -/
inductive IsContent : Text → Prop
  | nil : IsContent []
  | char {c : CodePoint} {t : Text} (other : c ≠ mark) (rest : IsContent t) : IsContent (c :: t)
  | doubled {t : Text} (rest : IsContent t) : IsContent (mark :: mark :: t)

/-- **The body of a call**: plain characters, bodies in parentheses, and
literals, in any order. -/
inductive IsBody : Text → Prop
  | nil : IsBody []
  | char {c : CodePoint} {t : Text} (plain : IsPlain c) (rest : IsBody t) : IsBody (c :: t)
  | group {u t : Text} (inner : IsBody u) (rest : IsBody t) :
      IsBody (.char '(' :: (u ++ .char ')' :: t))
  | literal {s t : Text} (content : IsContent s) (rest : IsBody t) :
      IsBody (mark :: (s ++ mark :: t))

/-! ## Contents are doubled texts -/

theorem isContent_doubled (s : Text) : IsContent (doubled s) := by
  induction s with
  | nil => exact .nil
  | cons c rest ih =>
    rw [doubled]
    split
    · exact .doubled ih
    · next hc => exact .char hc ih

/-- **A content says some text**, with its apostrophes doubled. -/
theorem IsContent.exists_doubled {t : Text} (h : IsContent t) : ∃ s, t = Sql.doubled s := by
  induction h with
  | nil => exact ⟨[], rfl⟩
  | @char c _ other _ ih =>
    obtain ⟨s, rfl⟩ := ih
    exact ⟨c :: s, (if_neg other).symm⟩
  | doubled _ ih =>
    obtain ⟨s, rfl⟩ := ih
    exact ⟨mark :: s, rfl⟩

theorem quote_append (s t : Text) : quote s ++ t = mark :: (doubled s ++ mark :: t) := by
  rw [quote, List.cons_append, List.append_assoc]
  rfl

/-! ## Bodies are balanced -/

theorem IsBody.balanced {t : Text} (h : IsBody t) : Balanced true t := by
  induction h with
  | nil => exact .nil
  | char plain _ ih => exact .char plain (fun _ => rfl) ih
  | group _ _ inner rest => exact .group inner rest
  | literal content _ ih =>
    obtain ⟨s, rfl⟩ := content.exists_doubled
    rw [← quote_append]
    exact .literal s ih

theorem Balanced.isBody {commas : Bool} {t : Text} (h : Balanced commas t) : IsBody t := by
  induction h with
  | nil => exact .nil
  | char plain _ _ ih => exact .char plain ih
  | literal s _ ih =>
    rw [quote_append]
    exact .literal (isContent_doubled s) ih
  | group _ _ inner rest => exact .group inner rest

/-- **A body is balanced text.** -/
theorem isBody_iff_balanced {t : Text} : IsBody t ↔ Balanced true t :=
  ⟨IsBody.balanced, Balanced.isBody⟩

/-! ## What follows from the form -/

/-- The text of a call from its parts. -/
theorem callText_eq (n w b : Text) :
    n ++ w ++ "(".toText ++ b ++ ")".toText = n ++ (w ++ .char '(' :: (b ++ [.char ')'])) := by
  simp [String.toText]

/-- **A call is derived** from a name, white space and a body, and what is
derived so is a call. -/
theorem isSingleCall_eq_true_iff {t : Text} :
    isSingleCall t = true ↔ ∃ n w b, t = n ++ w ++ "(".toText ++ b ++ ")".toText
      ∧ IsName n ∧ (∀ c ∈ w, Text.isBlank c = true) ∧ IsBody b := by
  constructor
  · intro h
    obtain ⟨n, w, b, rfl, hn, hw, hb⟩ := exists_of_isSingleCall h
    exact ⟨n, w, b, (callText_eq n w b).symm, hn, hw, hb.isBody⟩
  · rintro ⟨n, w, b, rfl, hn, hw, hb⟩
    rw [callText_eq]
    exact isSingleCall_append hn hw hb.balanced

/-- The scan behind the name decides. -/
theorem isSingleCall_behind {n w : Text} (hn : IsName n) (hw : ∀ c ∈ w, Text.isBlank c = true)
    (t : Text) : isSingleCall (n ++ (w ++ .char '(' :: t)) = closesAtEnd false 1 t := by
  rw [isSingleCall, afterName_append hn hw]
  rfl

/-- **Nothing follows a call.** The scan of a longer text stops at the same
parenthesis, which is no longer the last character. -/
theorem isSingleCall_append_eq_false {t u : Text} (h : isSingleCall t = true) (hu : u ≠ []) :
    isSingleCall (t ++ u) = false := by
  obtain ⟨n, w, b, rfl, hn, hw, hb⟩ := exists_of_isSingleCall h
  have text : n ++ (w ++ .char '(' :: (b ++ [.char ')'])) ++ u
      = n ++ (w ++ .char '(' :: (b ++ .char ')' :: u)) := by simp
  rw [text, isSingleCall_behind hn hw, closesAtEnd_append hb, closesAtEnd_close, if_pos rfl]
  exact Bool.eq_false_iff.mpr fun hempty => hu (List.isEmpty_iff.mp hempty)

/-- **Nothing precedes a call** but what its name may start with. -/
theorem isSingleCall_cons_eq_false {c : CodePoint} (h : isNameStart c = false) (t : Text) :
    isSingleCall (c :: t) = false := by
  rw [isSingleCall, afterName, if_neg (Bool.eq_false_iff.mp h)]

/-! ## Literals inside a call -/

/-- Balanced text has its apostrophes in pairs. -/
theorem Balanced.even_count {commas : Bool} {t : Text} (h : Balanced commas t) :
    Even (t.count mark) := by
  induction h with
  | nil => exact Even.zero
  | char plain _ _ ih => rwa [List.count_cons_of_ne plain.1]
  | literal s _ ih =>
    obtain ⟨n, hn⟩ := ih
    rw [quote_append, List.count_cons_self, List.count_append, List.count_cons_self,
      count_doubled, hn]
    exact ⟨s.count mark + 1 + n, by omega⟩
  | group _ _ inner rest =>
    rw [List.count_cons_of_ne (by decide), List.count_append, List.count_cons_of_ne (by decide)]
    exact inner.add rest

/-- **A literal that is not closed makes no call**: its apostrophe has no
partner. -/
theorem isSingleCall_eq_false_of_not_even {t : Text} (h : ¬ Even (t.count mark)) :
    isSingleCall t = false :=
  Bool.eq_false_iff.mpr fun hcall => h (IsItem.of_isSingleCall hcall).even_count

section Replace

variable {u v s s' : Text}

/-- Behind text that leaves the scan outside of literals, every literal is
crossed alike. -/
theorem closesAtEnd_replace (s s' : Text) {inLiteral : Bool} {depth : ℕ}
    (h : Even (u.count mark) ↔ inLiteral = false) :
    closesAtEnd inLiteral depth (u ++ (quote s ++ v))
      = closesAtEnd inLiteral depth (u ++ (quote s' ++ v)) := by
  induction u generalizing inLiteral depth with
  | nil =>
    obtain rfl := h.mp Even.zero
    rw [List.nil_append, List.nil_append, closesAtEnd_quote, closesAtEnd_quote]
  | cons c rest ih =>
    have more : ∀ s, (rest ++ (quote s ++ v)).isEmpty = false := by simp [quote]
    rw [List.cons_append, List.cons_append, closesAtEnd, closesAtEnd, more, more]
    by_cases hc : c = mark
    · subst hc
      rw [if_pos rfl, if_pos rfl]
      -- the apostrophe changes both the number and the state
      refine ih ?_
      rw [List.count_cons_self, Nat.even_add_one] at h
      cases inLiteral <;> simpa using h
    · rw [List.count_cons_of_ne hc] at h
      rw [if_neg hc, if_neg hc]
      cases inLiteral with
      | true => exact ih h
      | false => simp only [Bool.false_eq_true, if_false, ih h]

/-- A call that has a literal has its name and its first parenthesis in front
of it. -/
theorem exists_of_isSingleCall_quote (h : isSingleCall (u ++ (quote s ++ v)) = true) :
    ∃ n w c, u = n ++ (w ++ .char '(' :: c) ∧ IsName n ∧ ∀ x ∈ w, Text.isBlank x = true := by
  obtain ⟨n, w, b, heq, hn, hw, -⟩ := exists_of_isSingleCall h
  have front : mark ∉ n ++ (w ++ [.char '(']) := by
    simp only [List.mem_append, List.mem_singleton, not_or]
    exact ⟨fun hm => (isPlain_of_isNamePart (hn.isNamePart _ hm)).1.1 rfl,
      fun hm => (isPlain_of_isBlank (hw _ hm)).1.1 rfl, by decide⟩
  have split : u ++ (quote s ++ v) = n ++ (w ++ [.char '(']) ++ (b ++ [.char ')']) := by
    rw [heq]
    simp
  obtain ⟨a, ha, hrest⟩ | ⟨c, rfl, -⟩ := List.append_eq_append_iff.mp split
  · -- the literal starts with an apostrophe, so it cannot start earlier
    cases a with
    | nil => exact ⟨n, w, [], by rw [← List.append_nil u, ← ha], hn, hw⟩
    | cons d more =>
      obtain rfl : mark = d := (List.cons.inj hrest).1
      exact absurd (ha ▸ List.mem_append_right u List.mem_cons_self) front
  · exact ⟨n, w, c, by simp, hn, hw⟩

theorem isSingleCall_of_replace (hu : Even (u.count mark))
    (h : isSingleCall (u ++ (quote s ++ v)) = true) :
    isSingleCall (u ++ (quote s' ++ v)) = true := by
  obtain ⟨n, w, c, rfl, hn, hw⟩ := exists_of_isSingleCall_quote h
  have text : ∀ x : Text, n ++ (w ++ .char '(' :: c) ++ x = n ++ (w ++ .char '(' :: (c ++ x)) := by
    simp
  have hcount : Even (c.count mark) := by
    have hn0 : n.count mark = 0 := List.count_eq_zero.mpr fun hm =>
      (isPlain_of_isNamePart (hn.isNamePart _ hm)).1.1 rfl
    have hw0 : w.count mark = 0 := List.count_eq_zero.mpr fun hm =>
      (isPlain_of_isBlank (hw _ hm)).1.1 rfl
    rwa [List.count_append, List.count_append, List.count_cons_of_ne (by decide), hn0, hw0,
      Nat.zero_add, Nat.zero_add] at hu
  rw [text, isSingleCall_behind hn hw] at h ⊢
  rw [closesAtEnd_replace s' s (iff_of_true hcount rfl)]
  exact h

/-- **What a literal says makes no difference**: another may stand in its
place. -/
theorem isSingleCall_replace (hu : Even (u.count mark)) :
    isSingleCall (u ++ (quote s ++ v)) = isSingleCall (u ++ (quote s' ++ v)) :=
  Bool.eq_iff_iff.mpr ⟨isSingleCall_of_replace hu, isSingleCall_of_replace hu⟩

end Replace

/-! ## The grammar -/

/-- **Single calls are what the grammar derives**: a name, white space, and a
body in parentheses. So nothing but a name stands in front and nothing behind
the closing parenthesis, a text with a literal left open is none, and behind
closed literals one literal is as good as another, whatever parentheses and
semicolons are in it. -/
theorem isSingleCall_iff_derived (t : Text) :
    (isSingleCall t = true ↔ ∃ n w b, t = n ++ w ++ "(".toText ++ b ++ ")".toText
      ∧ IsName n ∧ (∀ c ∈ w, Text.isBlank c = true) ∧ IsBody b)
    ∧ (∀ c, isNameStart c = false → isSingleCall (c :: t) = false)
    ∧ (∀ u, u ≠ [] → isSingleCall t = true → isSingleCall (t ++ u) = false)
    ∧ (¬ Even (t.count mark) → isSingleCall t = false)
    ∧ ∀ u s s', Even (u.count mark) →
      isSingleCall (u ++ (quote s ++ t)) = isSingleCall (u ++ (quote s' ++ t)) :=
  ⟨isSingleCall_eq_true_iff, fun _ hc => isSingleCall_cons_eq_false hc t,
    fun _ hu h => isSingleCall_append_eq_false h hu, isSingleCall_eq_false_of_not_even,
    fun _ _ _ hu => isSingleCall_replace hu⟩

/-- A parenthesis, a semicolon and a doubled apostrophe in a literal. -/
theorem isSingleCall_iff_derived_report :
    isSingleCall "TO_FILE ('@s', 'it''s; v2).pdf')".toText = true
    ∧ (∃ n w b, "TO_FILE ('@s', 'it''s; v2).pdf')".toText = n ++ w ++ "(".toText ++ b ++ ")".toText
      ∧ IsName n ∧ (∀ c ∈ w, Text.isBlank c = true) ∧ IsBody b)
    ∧ isSingleCall (.char ' ' :: "TO_FILE ('@s', 'it''s; v2).pdf')".toText) = false
    ∧ isSingleCall ("TO_FILE ('@s', 'it''s; v2).pdf')".toText ++ "()".toText) = false
    ∧ isSingleCall "TO_FILE ('@s', 'it's; v2).pdf')".toText = false
    ∧ isSingleCall ("TO_FILE ('@s', ".toText ++ (quote "a.pdf".toText ++ ")".toText)) = true := by
  have call : isSingleCall "TO_FILE ('@s', 'it''s; v2).pdf')".toText = true := by decide +kernel
  obtain ⟨derived, front, behind, -, -⟩ :=
    isSingleCall_iff_derived "TO_FILE ('@s', 'it''s; v2).pdf')".toText
  obtain ⟨-, -, -, closed, -⟩ := isSingleCall_iff_derived "TO_FILE ('@s', 'it's; v2).pdf')".toText
  obtain ⟨-, -, -, -, replace⟩ := isSingleCall_iff_derived ")".toText
  refine ⟨call, derived.mp call, front _ (by decide), behind _ (by decide) call,
    closed (by decide +kernel), ?_⟩
  rw [replace _ _ "it's; v2).pdf".toText (by decide +kernel)]
  exact call

end CortexCall.Sql
