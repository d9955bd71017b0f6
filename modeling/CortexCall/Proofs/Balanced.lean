import Mathlib.Data.List.TakeWhile
import CortexCall.Sql.Expression

/-!
# Balanced text

What may stand between the parentheses of a call without ending it is
**balanced** text: characters that mean nothing to the scanner, literals,
and balanced text in parentheses of its own. The scan behind an opening
parenthesis crosses balanced text as if it were not there, whatever the depth
– `closesAtEnd_append` – and a scan that ends well has crossed nothing else –
`Balanced.of_closesAtEnd`. Between them they say which texts are single calls.

A piece of balanced text that stands among others behind commas must not
have a comma of its own outside its parentheses and literals. That is the
flag of `Balanced`: without it the text is one **item**, and a call as a
whole is an item wherever it stands.
-/

namespace CortexCall.Sql

/-- A character that the scanner passes over outside literals. -/
def IsPlain (c : CodePoint) : Prop := c ≠ mark ∧ c ≠ ';' ∧ c ≠ '(' ∧ c ≠ ')'

instance : DecidablePred IsPlain := fun _ => inferInstanceAs (Decidable (_ ∧ _))

/-- **Balanced text**: plain characters, literals, and balanced text in
parentheses. The flag says whether commas may stand outside of the latter
two. -/
inductive Balanced : Bool → Text → Prop
  | nil {commas : Bool} : Balanced commas []
  | char {commas : Bool} {c : CodePoint} {t : Text} (plain : IsPlain c)
      (comma : c = ',' → commas = true) (rest : Balanced commas t) : Balanced commas (c :: t)
  | literal {commas : Bool} {t : Text} (s : Text) (rest : Balanced commas t) :
      Balanced commas (quote s ++ t)
  | group {commas : Bool} {u t : Text} (inner : Balanced true u) (rest : Balanced commas t) :
      Balanced commas (.char '(' :: (u ++ .char ')' :: t))

/-- Text that is one of several behind commas. -/
abbrev IsItem (t : Text) : Prop := Balanced false t

namespace Balanced

variable {commas : Bool} {t u : Text}

/-- Balanced text without commas is balanced. -/
theorem weaken (h : Balanced commas t) : Balanced true t := by
  induction h with
  | nil => exact .nil
  | char plain _ _ ih => exact .char plain (fun _ => rfl) ih
  | literal s _ ih => exact .literal s ih
  | group inner _ _ ih => exact .group inner ih

theorem append (ht : Balanced commas t) (hu : Balanced commas u) : Balanced commas (t ++ u) := by
  induction ht with
  | nil => exact hu
  | char plain comma _ ih => exact .char plain comma (ih hu)
  | literal s _ ih =>
    rw [List.append_assoc]
    exact .literal s (ih hu)
  | group inner _ _ ih =>
    rw [List.cons_append, List.append_assoc, List.cons_append]
    exact .group inner (ih hu)

/-- Plain characters are balanced. -/
theorem of_forall_plain (h : ∀ c ∈ t, IsPlain c ∧ c ≠ ',') : Balanced commas t := by
  induction t with
  | nil => exact .nil
  | cons c rest ih =>
    obtain ⟨plain, comma⟩ := h c List.mem_cons_self
    exact .char plain (fun e => absurd e comma) (ih fun d hd => h d (List.mem_cons_of_mem c hd))

/-- A literal is an item. -/
theorem of_quote (s : Text) : Balanced commas (quote s) := by
  have h : Balanced commas (quote s ++ []) := .literal s .nil
  rwa [List.append_nil] at h

/-- Balanced text in parentheses is an item. -/
theorem in_parens (h : Balanced true t) : Balanced commas (.char '(' :: (t ++ [.char ')'])) :=
  .group h .nil

end Balanced

/-! ## The scan crosses balanced text -/

section Scan

variable {depth : Nat} {t rest : Text}

theorem closesAtEnd_plain {c : CodePoint} (h : IsPlain c) :
    closesAtEnd false depth (c :: t) = closesAtEnd false depth t := by
  obtain ⟨hm, hs, ho, hc⟩ := h
  rw [closesAtEnd, if_neg hm, if_neg Bool.false_ne_true, if_neg hs, if_neg ho, if_neg hc]

theorem closesAtEnd_mark {inLiteral : Bool} :
    closesAtEnd inLiteral depth (mark :: t) = closesAtEnd (!inLiteral) depth t := by
  rw [closesAtEnd, if_pos rfl]

theorem closesAtEnd_open :
    closesAtEnd false depth (.char '(' :: t) = closesAtEnd false (depth + 1) t := by
  rw [closesAtEnd, if_neg (by decide), if_neg Bool.false_ne_true, if_neg (by decide), if_pos rfl]

theorem closesAtEnd_close :
    closesAtEnd false (depth + 1) (.char ')' :: t)
      = if depth = 0 then t.isEmpty else closesAtEnd false depth t := by
  rw [closesAtEnd, if_neg (by decide), if_neg Bool.false_ne_true, if_neg (by decide),
    if_neg (by decide), if_pos rfl]
  by_cases h : depth = 0
  · rw [if_pos h, if_pos (by rw [h])]
  · rw [if_neg h, if_neg (by omega), Nat.add_sub_cancel]

/-- Inside a literal the scan passes over everything but an apostrophe. -/
theorem closesAtEnd_inside {c : CodePoint} (h : c ≠ mark) :
    closesAtEnd true depth (c :: t) = closesAtEnd true depth t := by
  rw [closesAtEnd, if_neg h, if_pos rfl]

/-- A doubled apostrophe leaves the literal and enters it again. -/
theorem closesAtEnd_doubled (s : Text) :
    closesAtEnd true depth (doubled s ++ rest) = closesAtEnd true depth rest := by
  induction s with
  | nil => rfl
  | cons c more ih =>
    rw [doubled]
    split
    · rw [List.cons_append, List.cons_append, closesAtEnd_mark, closesAtEnd_mark]
      exact ih
    · next hc =>
      rw [List.cons_append, closesAtEnd_inside hc]
      exact ih

/-- **A literal leaves the scan where it was.** -/
theorem closesAtEnd_quote (s : Text) :
    closesAtEnd false depth (quote s ++ rest) = closesAtEnd false depth rest := by
  rw [quote, List.cons_append, List.append_assoc, closesAtEnd_mark, Bool.not_false,
    closesAtEnd_doubled, List.singleton_append, closesAtEnd_mark, Bool.not_true]

/-- **The scan crosses balanced text**, whatever the depth and whatever
follows. -/
theorem closesAtEnd_append {commas : Bool} (h : Balanced commas t) :
    closesAtEnd false (depth + 1) (t ++ rest) = closesAtEnd false (depth + 1) rest := by
  induction h generalizing depth rest with
  | nil => rfl
  | char plain _ _ ih => rw [List.cons_append, closesAtEnd_plain plain, ih]
  | literal s _ ih => rw [List.append_assoc, closesAtEnd_quote, ih]
  | group inner _ ih₁ ih₂ =>
    rw [List.cons_append, closesAtEnd_open, List.append_assoc, ih₁, List.cons_append,
      closesAtEnd_close, if_neg (Nat.succ_ne_zero depth), ih₂]

/-- Balanced text and a closing parenthesis end a call. -/
theorem closesAtEnd_balanced {commas : Bool} (h : Balanced commas t) :
    closesAtEnd false 1 (t ++ [.char ')']) = true := by
  rw [closesAtEnd_append h, closesAtEnd_close]
  rfl

end Scan

/-! ## What a scan that ends well has crossed -/

/-- A scan that ends well leaves the literal it starts in. -/
theorem exists_of_closesAtEnd_inside {depth : Nat} {t : Text}
    (h : closesAtEnd true depth t = true) :
    ∃ s u, t = doubled s ++ mark :: u ∧ closesAtEnd false depth u = true := by
  induction t with
  | nil => exact absurd h Bool.false_ne_true
  | cons c rest ih =>
    by_cases hc : c = mark
    · subst hc
      rw [closesAtEnd_mark, Bool.not_true] at h
      exact ⟨[], rest, rfl, h⟩
    · rw [closesAtEnd_inside hc] at h
      obtain ⟨s, u, rfl, hu⟩ := ih h
      exact ⟨c :: s, u, by rw [doubled, if_neg hc, List.cons_append], hu⟩

/-- **A scan that ends well crosses balanced text to a closing parenthesis**,
which is the last character if no other is open. -/
theorem Balanced.of_closesAtEnd {depth : Nat} {t : Text}
    (h : closesAtEnd false (depth + 1) t = true) :
    ∃ b u, t = b ++ .char ')' :: u ∧ Balanced true b
      ∧ (if depth = 0 then u = [] else closesAtEnd false depth u = true) := by
  -- a literal or a group is crossed in one go, so the induction is on the length
  induction hn : t.length using Nat.strong_induction_on generalizing depth t with
  | _ n ih =>
    subst hn
    cases t with
    | nil => exact absurd h Bool.false_ne_true
    | cons c rest =>
      by_cases plain : IsPlain c
      · rw [closesAtEnd_plain plain] at h
        obtain ⟨b, u, rfl, hb, hu⟩ := ih _ (Nat.lt_succ_self _) h rfl
        exact ⟨c :: b, u, rfl, .char plain (fun _ => rfl) hb, hu⟩
      · simp only [IsPlain, ne_eq, not_and_or, not_not] at plain
        obtain rfl | rfl | rfl | rfl := plain
        -- an apostrophe: a scan that ends well leaves the literal again
        · rw [closesAtEnd_mark, Bool.not_false] at h
          obtain ⟨s, v, rfl, hv⟩ := exists_of_closesAtEnd_inside h
          obtain ⟨b, u, rfl, hb, hu⟩ := ih v.length (by simp; omega) hv rfl
          refine ⟨quote s ++ b, u, ?_, .literal s hb, hu⟩
          simp [quote]
        · exact absurd h (by simp [closesAtEnd])
        -- a group: first what is inside of it, then what is behind it
        · rw [closesAtEnd_open] at h
          obtain ⟨b₁, v, rfl, hb₁, hv⟩ := ih _ (Nat.lt_succ_self _) h rfl
          rw [if_neg (Nat.succ_ne_zero depth)] at hv
          obtain ⟨b₂, u, rfl, hb₂, hu⟩ := ih v.length (by simp; omega) hv rfl
          refine ⟨.char '(' :: (b₁ ++ .char ')' :: b₂), u, ?_, .group hb₁ hb₂, hu⟩
          simp
        · rw [closesAtEnd_close] at h
          refine ⟨[], rest, rfl, .nil, ?_⟩
          split
          · next hd =>
            rw [if_pos hd] at h
            exact List.isEmpty_iff.mp h
          · next hd => rwa [if_neg hd] at h

/-! ## Single calls -/

/-- A name that a call may have. -/
def IsName : Text → Prop
  | [] => False
  | c :: rest => isNameStart c = true ∧ ∀ d ∈ rest, isNamePart d = true

instance : DecidablePred IsName
  | [] => inferInstanceAs (Decidable False)
  | _ :: _ => inferInstanceAs (Decidable (_ ∧ _))

/-- A character that may stand in a name is ASCII and no control character. -/
theorem toNat_of_isNamePart {c : CodePoint} (h : isNamePart c = true) :
    0x24 ≤ c.toNat ∧ c.toNat < 0x80 := by
  cases c with
  | half u => simp [isNamePart, CodePoint.isAlphanum, CodePoint.isAlpha, CodePoint.isDigit] at h
  | char c =>
    have alpha : c.isAlpha = (decide ('A'.val ≤ c.val ∧ c.val ≤ 'Z'.val)
        || decide ('a'.val ≤ c.val) && decide (c.val ≤ 'z'.val)) := rfl
    have digit : c.isDigit = (decide ('0'.val ≤ c.val) && decide (c.val ≤ '9'.val)) := rfl
    simp only [isNamePart, CodePoint.isAlphanum, CodePoint.isAlpha, CodePoint.isDigit,
      alpha, digit, Bool.or_eq_true, Bool.and_eq_true, decide_eq_true_eq, beq_iff_eq,
      CodePoint.char.injEq, UInt32.le_iff_toNat_le] at h
    change ((((65 ≤ c.toNat ∧ c.toNat ≤ 90 ∨ 97 ≤ c.toNat ∧ c.toNat ≤ 122)
      ∨ 48 ≤ c.toNat ∧ c.toNat ≤ 57) ∨ c = '_') ∨ c = '$') ∨ c = '.' at h
    change 36 ≤ c.toNat ∧ c.toNat < 128
    obtain ((((h | h) | h) | rfl) | rfl) | rfl := h
    · omega
    · omega
    · omega
    all_goals decide

/-- A character that may stand in a name is no blank. -/
theorem isBlank_of_isNamePart {c : CodePoint} (h : isNamePart c = true) :
    Text.isBlank c = false := by
  obtain ⟨hl, hu⟩ := toNat_of_isNamePart h
  have outside : ∀ r ∈ Text.blankRanges, r.2 < 0x24 ∨ 0x80 ≤ r.1 := by decide
  rw [← Bool.not_eq_true, Text.isBlank, Text.inRanges_iff]
  rintro ⟨r, hr, hr₁, hr₂⟩
  have := outside r hr
  omega

/-- A character that may stand in a name is plain and no comma. -/
theorem isPlain_of_isNamePart {c : CodePoint} (h : isNamePart c = true) :
    IsPlain c ∧ c ≠ ',' := by
  refine ⟨⟨?_, ?_, ?_, ?_⟩, ?_⟩ <;> rintro rfl <;> exact absurd h (by decide)

/-- A blank is plain and no comma. -/
theorem isPlain_of_isBlank {c : CodePoint} (h : Text.isBlank c = true) : IsPlain c ∧ c ≠ ',' := by
  refine ⟨⟨?_, ?_, ?_, ?_⟩, ?_⟩ <;> rintro rfl <;> exact absurd h (by decide)

theorem isNamePart_of_isNameStart {c : CodePoint} (h : isNameStart c = true) :
    isNamePart c = true := by
  simp only [isNameStart, Bool.or_eq_true] at h
  obtain h | h := h <;> simp [isNamePart, CodePoint.isAlphanum, h]

/-- A name is made of characters that may stand in one. -/
theorem IsName.isNamePart {n : Text} (h : IsName n) : ∀ c ∈ n, isNamePart c = true := by
  cases n with
  | nil => exact h.elim
  | cons c rest =>
    intro d hd
    obtain rfl | hd := List.mem_cons.mp hd
    · exact isNamePart_of_isNameStart h.1
    · exact h.2 d hd

/-- What stands behind a name and blanks, if it is a parenthesis. -/
theorem afterName_append {n w : Text} (hn : IsName n) (hw : ∀ c ∈ w, Text.isBlank c = true)
    (t : Text) : afterName (n ++ (w ++ .char '(' :: t)) = some (.char '(' :: t) := by
  obtain _ | ⟨c, rest⟩ := n
  · exact hn.elim
  obtain ⟨hc, hrest⟩ := hn
  have stop : (w ++ .char '(' :: t).dropWhile isNamePart = w ++ .char '(' :: t := by
    cases w with
    | nil => rfl
    | cons d more =>
      have hd : isNamePart d ≠ true := fun e =>
        Bool.noConfusion ((isBlank_of_isNamePart e).symm.trans (hw d List.mem_cons_self))
      rw [List.cons_append, List.dropWhile_cons_of_neg hd]
  rw [List.cons_append, afterName, if_pos hc, List.dropWhile_append_of_pos hrest, stop,
    List.dropWhile_append_of_pos hw]
  rfl

/-- Balanced text in parentheses behind a name is a single call. -/
theorem isSingleCall_append {n w b : Text} (hn : IsName n)
    (hw : ∀ c ∈ w, Text.isBlank c = true) {commas : Bool} (hb : Balanced commas b) :
    isSingleCall (n ++ (w ++ .char '(' :: (b ++ [.char ')']))) = true := by
  rw [isSingleCall, afterName_append hn hw]
  exact closesAtEnd_balanced hb

/-- **A single call is a name, blanks, and balanced text in parentheses.** -/
theorem exists_of_isSingleCall {t : Text} (h : isSingleCall t = true) :
    ∃ n w b, t = n ++ (w ++ .char '(' :: (b ++ [.char ')'])) ∧ IsName n
      ∧ (∀ c ∈ w, Text.isBlank c = true) ∧ Balanced true b := by
  cases t with
  | nil => exact absurd h Bool.false_ne_true
  | cons c rest =>
    rw [isSingleCall, afterName] at h
    by_cases hc : isNameStart c = true
    · rw [if_pos hc] at h
      set behind := rest.dropWhile isNamePart with hbehind
      cases hbody : behind.dropWhile Text.isBlank with
      | nil => rw [hbody] at h; exact absurd h Bool.false_ne_true
      | cons d body =>
        rw [hbody] at h
        split at h
        · next heq =>
          obtain ⟨rfl, rfl⟩ := List.cons.inj (Option.some.inj heq)
          obtain ⟨b, u, rfl, hb, hu⟩ := Balanced.of_closesAtEnd h
          -- no other parenthesis is open, so nothing follows
          rw [if_pos rfl] at hu
          subst hu
          refine ⟨c :: rest.takeWhile isNamePart, behind.takeWhile Text.isBlank, b, ?_,
            ⟨hc, fun d hd => List.mem_takeWhile_imp hd⟩,
            fun d hd => List.mem_takeWhile_imp hd, hb⟩
          rw [← hbody, List.takeWhile_append_dropWhile, hbehind, List.cons_append,
            List.takeWhile_append_dropWhile]
        · exact absurd h Bool.false_ne_true
    · rw [if_neg hc] at h
      exact absurd h Bool.false_ne_true

/-- **A single call is an item**: it may stand among others behind commas. -/
theorem IsItem.of_isSingleCall {t : Text} (h : isSingleCall t = true) : IsItem t := by
  obtain ⟨n, w, b, rfl, hn, hw, hb⟩ := exists_of_isSingleCall h
  have name : IsItem n := .of_forall_plain fun c hc => isPlain_of_isNamePart (hn.isNamePart c hc)
  have blanks : IsItem w := .of_forall_plain fun c hc => isPlain_of_isBlank (hw c hc)
  exact name.append (blanks.append (.in_parens hb))

end CortexCall.Sql
