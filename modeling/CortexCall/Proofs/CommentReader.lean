import CortexCall.Proofs.RenderedArgument

/-!
# A reader of SQL that knows comments

A database reads more in a statement than literals and parentheses: from two
dashes to the end of the line, and between `/*` and `*/`, nothing counts. What
opens a comment does not open one inside a literal, and an apostrophe in a
comment opens no literal, so a reader has to know all three at every character.

`Place` is where such a reader stands. A position of a statement is the text
before it, and it is **outside** if the reader that has come there from the start
is in no literal and in no comment; `Place.level` is the number of parentheses
that are open there, those in literals and comments not counted.

`Reading` is the same reader in one piece. It carries the number of open
parentheses and gives up at a semicolon, or at a parenthesis that closes nothing,
so what it crosses is text that leaves its surroundings alone:
`Reading.across_eq_some_iff`. Everything that the renderer writes by itself is
crossed (`IsSelfContained.of_render`), because it has apostrophes in pairs and
neither dashes nor slashes outside of them. So is a single call, if no comment begins
in it (`IsSelfContained.of_isSingleCall`): then the scan that accepts it goes through
it side by side with the reader. With a comment the two may part.
-/

namespace CortexCall.Sql

/-- **Where a reader stands.** -/
inductive Place where
  /-- Outside literals and comments. -/
  | code
  /-- Outside, behind a dash. -/
  | dash
  /-- Outside, behind a slash. -/
  | slash
  /-- In a literal. -/
  | literal
  /-- In a comment that ends with the line. -/
  | lineComment
  /-- In a comment that ends with `*/`. -/
  | blockComment
  /-- In such a comment, behind an asterisk. -/
  | star
deriving DecidableEq, Repr

namespace Place

/-- Whether a place is in no literal and in no comment. -/
def isOutside : Place → Bool
  | .code => true
  | .dash => true
  | .slash => true
  | _ => false

/-- Whether a place is in a comment. -/
def isComment : Place → Bool
  | .lineComment => true
  | .blockComment => true
  | .star => true
  | _ => false

/-- The place behind a character that stands outside and opens no comment. -/
def behind (c : CodePoint) : Place :=
  if c = mark then .literal else if c = '-' then .dash else if c = '/' then .slash else .code

/-- **The place behind one more character.** A doubled apostrophe leaves the literal
and enters it again. -/
def next (p : Place) (c : CodePoint) : Place :=
  match p with
  | .code => behind c
  | .dash => if c = '-' then .lineComment else behind c
  | .slash => if c = '*' then .blockComment else behind c
  | .literal => if c = mark then .code else .literal
  | .lineComment => if c = '\n' then .code else .lineComment
  | .blockComment => if c = '*' then .star else .blockComment
  | .star => if c = '/' then .code else if c = '*' then .star else .blockComment

/-- The place behind a text. -/
def after (p : Place) (t : Text) : Place := t.foldl next p

/-- By how much a character changes the number of open parentheses. -/
def change (p : Place) (c : CodePoint) : ℤ :=
  if p.isOutside then if c = '(' then 1 else if c = ')' then -1 else 0 else 0

/-- By how much a text changes the number of open parentheses. -/
def level (p : Place) : Text → ℤ
  | [] => 0
  | c :: rest => p.change c + (p.next c).level rest

theorem after_append (p : Place) (t u : Text) : p.after (t ++ u) = (p.after t).after u :=
  List.foldl_append

theorem level_append (p : Place) (t u : Text) :
    p.level (t ++ u) = p.level t + (p.after t).level u := by
  induction t generalizing p with
  | nil => exact (zero_add _).symm
  | cons c rest ih =>
    rw [List.cons_append, level, level, ih, add_assoc]
    rfl

/-- A parenthesis opens no literal and no comment. -/
theorem next_open {p : Place} (h : p.isOutside = true) : p.next (.char '(') = .code := by
  cases p with
  | code | dash | slash => decide
  | _ => cases h

theorem next_close {p : Place} (h : p.isOutside = true) : p.next (.char ')') = .code := by
  cases p with
  | code | dash | slash => decide
  | _ => cases h

/-- Behind a closing parenthesis that stands outside nothing is pending. -/
theorem next_close_eq_code {p : Place} (h : (p.next (.char ')')).isOutside = true) :
    p.next (.char ')') = .code := by
  revert h
  cases p <;> decide

end Place

/-! ## Reading in one piece -/

/-- A place, and how many parentheses are open. -/
structure Reading where
  place : Place
  depth : ℕ
deriving DecidableEq, Repr

namespace Reading

/-- The reading behind one more character, unless that is a semicolon or closes
nothing. -/
def next (r : Reading) (c : CodePoint) : Option Reading :=
  if r.place.isOutside then
    if c = ';' then none
    else if c = '(' then some ⟨.code, r.depth + 1⟩
    else if c = ')' then if r.depth = 0 then none else some ⟨.code, r.depth - 1⟩
    else some ⟨r.place.next c, r.depth⟩
  else some ⟨r.place.next c, r.depth⟩

/-- **The reading behind a text**, unless there is a semicolon in it, or a parenthesis
that closes nothing. -/
def across (r : Reading) (t : Text) : Option Reading := t.foldlM next r

theorem across_cons (r : Reading) (c : CodePoint) (t : Text) :
    r.across (c :: t) = (r.next c).bind fun r' => r'.across t := List.foldlM_cons

theorem across_append (r : Reading) (t u : Text) :
    r.across (t ++ u) = (r.across t).bind fun r' => r'.across u := List.foldlM_append

/-- A reading is known by its place and its depth. -/
theorem some_eq_some_iff {r' : Reading} {p : Place} {d : ℕ} {depth : ℤ} {allowed : Prop}
    (hdepth : (d : ℤ) = depth) (hallowed : allowed) :
    some ⟨p, d⟩ = some r' ↔ r'.place = p ∧ (r'.depth : ℤ) = depth ∧ allowed := by
  obtain ⟨p', d'⟩ := r'
  rw [Option.some.injEq, mk.injEq]
  constructor
  · rintro ⟨rfl, rfl⟩
    exact ⟨rfl, hdepth, hallowed⟩
  · rintro ⟨hplace, hd, -⟩
    exact ⟨hplace.symm, by exact_mod_cast hdepth.trans hd.symm⟩

/-- What one character does. -/
theorem next_eq_some_iff {r r' : Reading} {c : CodePoint} :
    r.next c = some r' ↔ r'.place = r.place.next c ∧ (r'.depth : ℤ) = r.depth + r.place.change c
      ∧ (c = ';' → r.place.isOutside = false) := by
  obtain ⟨p, d⟩ := r
  unfold next Place.change
  dsimp only
  by_cases outside : p.isOutside = true
  · rw [if_pos outside, if_pos outside]
    by_cases hs : c = ';'
    · rw [if_pos hs]
      refine iff_of_false (Option.some_ne_none r').symm fun h => ?_
      exact Bool.noConfusion (outside.symm.trans (h.2.2 hs))
    by_cases ho : c = '('
    · rw [if_neg hs, if_pos ho, if_pos ho, ho, Place.next_open outside]
      exact some_eq_some_iff (by push_cast; rfl) fun e => absurd e (by decide)
    by_cases hc : c = ')'
    · rw [if_neg hs, if_neg ho, if_pos hc, if_neg ho, if_pos hc, hc, Place.next_close outside]
      by_cases hd : d = 0
      · rw [if_pos hd]
        refine iff_of_false (Option.some_ne_none r').symm fun h => ?_
        -- no parenthesis is closed if none is open
        have closed := h.2.1
        omega
      · rw [if_neg hd]
        exact some_eq_some_iff (by omega) fun e => absurd e (by decide)
    · rw [if_neg hs, if_neg ho, if_neg hc, if_neg ho, if_neg hc]
      exact some_eq_some_iff (add_zero _).symm fun e => absurd e hs
  · rw [if_neg outside, if_neg outside]
    exact some_eq_some_iff (add_zero _).symm fun _ => eq_false_of_ne_true outside

/-- **A text is crossed** if its parentheses close nothing outside of it, and it has no
semicolon outside literals and comments. -/
theorem across_eq_some_iff {r r' : Reading} {t : Text} :
    r.across t = some r' ↔ r'.place = r.place.after t ∧ (r'.depth : ℤ) = r.depth + r.place.level t
      ∧ (∀ u v, t = u ++ v → 0 ≤ r.depth + r.place.level u)
      ∧ ∀ u v, t = u ++ .char ';' :: v → (r.place.after u).isOutside = false := by
  induction t generalizing r with
  | nil =>
    refine some_eq_some_iff (add_zero _).symm ⟨fun u v heq => ?_, fun u v heq => ?_⟩
    · rw [(List.append_eq_nil_iff.mp heq.symm).1, Place.level, add_zero]
      exact Int.natCast_nonneg r.depth
    · cases (List.append_eq_nil_iff.mp heq.symm).2
  | cons c rest ih =>
    rw [across_cons, Option.bind_eq_some_iff]
    constructor
    · rintro ⟨s, hs, hr⟩
      obtain ⟨place, depth, semicolon⟩ := next_eq_some_iff.mp hs
      obtain ⟨hplace, hdepth, inside, semicolons⟩ := ih.mp hr
      rw [place] at hplace hdepth inside semicolons
      rw [depth] at hdepth inside
      refine ⟨hplace, by rw [hdepth, Place.level, add_assoc], ?_, ?_⟩
      · rintro (_ | ⟨d, u⟩) v heq
        · exact Int.natCast_nonneg _ |>.trans (by rw [Place.level, add_zero])
        · obtain ⟨rfl, rfl⟩ := List.cons.inj heq
          have := inside u v rfl
          rwa [add_assoc] at this
      · rintro (_ | ⟨d, u⟩) v heq
        · exact semicolon (List.cons.inj heq).1
        · obtain ⟨rfl, rfl⟩ := List.cons.inj heq
          exact semicolons u v rfl
    · rintro ⟨hplace, hdepth, inside, semicolons⟩
      have first := inside [c] rest rfl
      rw [Place.level, Place.level, add_zero] at first
      rw [Place.level, ← add_assoc] at hdepth
      have depth := Int.toNat_of_nonneg first
      refine ⟨⟨r.place.next c, (r.depth + r.place.change c).toNat⟩,
        next_eq_some_iff.mpr ⟨rfl, depth, fun e => semicolons [] rest (by rw [e]; rfl)⟩,
        ih.mpr ⟨hplace, by rw [depth]; exact hdepth, fun u v heq => ?_, fun u v heq => ?_⟩⟩
      · have := inside (c :: u) v (by rw [heq]; rfl)
        rwa [Place.level, ← add_assoc, ← depth] at this
      · exact semicolons (c :: u) v (by rw [heq]; rfl)

section Crossed

variable {p p' : Place} {d d' : ℕ} {t : Text}

/-- What is crossed leaves the place and the number of open parentheses that it says. -/
theorem after_of_across (h : across ⟨p, d⟩ t = some ⟨p', d'⟩) : p.after t = p' :=
  (across_eq_some_iff.mp h).1.symm

theorem level_of_across (h : across ⟨p, d⟩ t = some ⟨p', d'⟩) : p.level t = d' - d :=
  eq_sub_of_add_eq' (across_eq_some_iff.mp h).2.1.symm

/-- What is crossed is crossed with more parentheses open, too. -/
theorem across_deeper (h : across ⟨p, d⟩ t = some ⟨p', d'⟩) (k : ℕ) :
    across ⟨p, d + k⟩ t = some ⟨p', d' + k⟩ := by
  obtain ⟨place, depth, inside, semicolons⟩ := across_eq_some_iff.mp h
  dsimp only at place depth inside semicolons
  refine across_eq_some_iff.mpr ⟨place, ?_, fun u v heq => ?_, semicolons⟩
  · push_cast
    omega
  · have := inside u v heq
    push_cast
    omega

end Crossed

end Reading

/-- **A text that leaves its surroundings alone**: it is crossed, and the reader stands
behind it as it stood before it. -/
def IsSelfContained (t : Text) : Prop := Reading.across ⟨.code, 0⟩ t = some ⟨.code, 0⟩

instance : DecidablePred IsSelfContained := fun _ => inferInstanceAs (Decidable (_ = _))

/-! ## Quiet texts -/

/-- A character that opens and ends nothing, wherever a reader stands. -/
def IsQuiet (c : CodePoint) : Prop :=
  IsPlain c ∧ c ≠ '-' ∧ c ≠ '/' ∧ c ≠ '*' ∧ c ≠ '\n'

instance : DecidablePred IsQuiet := fun _ => inferInstanceAs (Decidable (_ ∧ _))

/-- A character that may stand in a name is quiet. -/
theorem isQuiet_of_isNamePart {c : CodePoint} (h : isNamePart c = true) : IsQuiet c := by
  refine ⟨(isPlain_of_isNamePart h).1, ?_, ?_, ?_, ?_⟩ <;> rintro rfl <;> exact absurd h (by decide)

section Quiet

variable {c : CodePoint} {t : Text}

theorem IsQuiet.behind (h : IsQuiet c) : Place.behind c = .code := by
  obtain ⟨⟨hm, -⟩, hdash, hslash, -⟩ := h
  rw [Place.behind, if_neg hm, if_neg hdash, if_neg hslash]

/-- A quiet character neither leaves nor enters a literal or a comment. -/
theorem IsQuiet.isOutside_next (h : IsQuiet c) (p : Place) :
    (p.next c).isOutside = p.isOutside := by
  have quiet := h.behind
  obtain ⟨⟨hm, -⟩, hdash, hslash, hstar, hline⟩ := h
  cases p with
  | code => rw [Place.next, quiet]
  | dash => rw [Place.next, if_neg hdash, quiet]; rfl
  | slash => rw [Place.next, if_neg hstar, quiet]; rfl
  | literal => rw [Place.next, if_neg hm]
  | lineComment => rw [Place.next, if_neg hline]
  | blockComment => rw [Place.next, if_neg hstar]
  | star => rw [Place.next, if_neg hslash, if_neg hstar]; rfl

theorem IsQuiet.change_eq (h : IsQuiet c) (p : Place) : p.change c = 0 := by
  obtain ⟨⟨-, -, ho, hc⟩, -⟩ := h
  rw [Place.change, if_neg ho, if_neg hc, ite_self]

theorem Place.isOutside_after_quiet (h : ∀ c ∈ t, IsQuiet c) (p : Place) :
    (p.after t).isOutside = p.isOutside := by
  induction t generalizing p with
  | nil => rfl
  | cons c rest ih =>
    obtain ⟨hc, hrest⟩ := List.forall_mem_cons.mp h
    exact (ih hrest (p.next c)).trans (hc.isOutside_next p)

theorem Place.level_quiet (h : ∀ c ∈ t, IsQuiet c) (p : Place) : p.level t = 0 := by
  induction t generalizing p with
  | nil => rfl
  | cons c rest ih =>
    obtain ⟨hc, hrest⟩ := List.forall_mem_cons.mp h
    rw [Place.level, hc.change_eq, ih hrest, add_zero]

/-- What has no apostrophe, semicolon or parenthesis, and no sign that could begin a
comment, is crossed. -/
theorem IsSelfContained.of_plain (h : ∀ c ∈ t, IsPlain c ∧ c ≠ '-' ∧ c ≠ '/') :
    IsSelfContained t := by
  induction t with
  | nil => rfl
  | cons c rest ih =>
    obtain ⟨⟨⟨hm, hs, ho, hc⟩, hdash, hslash⟩, hrest⟩ := List.forall_mem_cons.mp h
    have code : Place.code.next c = .code := by
      rw [Place.next, Place.behind, if_neg hm, if_neg hdash, if_neg hslash]
    have stay : Reading.next ⟨.code, 0⟩ c = some ⟨.code, 0⟩ := by
      rw [Reading.next, if_neg hs, if_neg ho, if_neg hc, ite_self]
      exact congrArg (fun p => some (Reading.mk p 0)) code
    rw [IsSelfContained, Reading.across_cons, stay]
    exact ih hrest

/-- A quiet text is crossed. -/
theorem IsSelfContained.of_quiet (h : ∀ c ∈ t, IsQuiet c) : IsSelfContained t :=
  .of_plain fun c hc => ⟨(h c hc).1, (h c hc).2.1, (h c hc).2.2.1⟩

end Quiet

/-! ## What the renderer writes by itself -/

namespace IsSelfContained

variable {t u : Text}

theorem append (ht : IsSelfContained t) (hu : IsSelfContained u) : IsSelfContained (t ++ u) := by
  rw [IsSelfContained, Reading.across_append, ht]
  exact hu

/-- Inside a literal everything is crossed, with its apostrophes doubled. -/
theorem across_doubled (s : Text) (d : ℕ) :
    Reading.across ⟨.literal, d⟩ (doubled s) = some ⟨.literal, d⟩ := by
  induction s with
  | nil => rfl
  | cons c rest ih =>
    rw [doubled]
    split
    · rw [Reading.across_cons]
      show Reading.across ⟨.code, d⟩ (mark :: doubled rest) = _
      rw [Reading.across_cons]
      exact ih
    · next hc =>
      have stay : Reading.next ⟨.literal, d⟩ c = some ⟨.literal, d⟩ := by
        rw [Reading.next, Place.next, if_neg hc]
        rfl
      rw [Reading.across_cons, stay]
      exact ih

/-- **A literal is crossed**, whatever it says. -/
theorem of_quote (s : Text) : IsSelfContained (quote s) := by
  rw [IsSelfContained, quote, Reading.across_cons]
  show Reading.across ⟨.literal, 0⟩ (doubled s ++ [mark]) = _
  rw [Reading.across_append, across_doubled]
  rfl

/-- What is crossed is crossed in parentheses. -/
theorem in_parens (h : IsSelfContained t) : IsSelfContained (.char '(' :: (t ++ [.char ')'])) := by
  rw [IsSelfContained, Reading.across_cons]
  show Reading.across ⟨.code, 1⟩ (t ++ [.char ')']) = _
  rw [Reading.across_append, Reading.across_deeper h 1]
  rfl

/-- A keyword is crossed. -/
theorem of_keyword (h : ∀ c ∈ t, isNamePart c = true) : IsSelfContained t :=
  .of_quiet fun c hc => isQuiet_of_isNamePart (h c hc)

/-- A value that the database parses is crossed. -/
theorem of_embed {v : Json} (h : embed v = .ok t) : IsSelfContained t := by
  obtain ⟨-, rfl⟩ := embed_eq_ok_iff.mp h
  have name : IsSelfContained "PARSE_JSON".toText := .of_keyword (by decide)
  have call := name.append (in_parens (of_quote (v.print .compact)))
  exact (List.append_assoc ..).symm ▸ call

/-- **A rendered argument is crossed**, unless it is an expression that is not. -/
theorem of_render {a : Argument} (ha : ∀ e, a = .expression e → IsSelfContained e)
    (h : a.render = .ok t) : IsSelfContained t := by
  cases a with
  | expression e =>
    obtain rfl := Except.ok.inj h
    exact ha e rfl
  | value v =>
    obtain ⟨b, rfl, rfl⟩ | ⟨s, rfl, rfl⟩ | ⟨-, hembed⟩ := Argument.render_value_eq_ok_iff.mp h
    · cases b
      · exact .of_keyword (by decide)
      · exact .of_keyword (by decide)
    · exact .of_quote s
    · exact .of_embed hembed

/-- Texts one after another are crossed if each of them is. -/
theorem flatMap {f : Text → Text} {ts : List Text} (h : ∀ t ∈ ts, IsSelfContained (f t)) :
    IsSelfContained (ts.flatMap f) := by
  induction ts with
  | nil => rfl
  | cons t rest ih =>
    obtain ⟨ht, hrest⟩ := List.forall_mem_cons.mp h
    exact ht.append (ih hrest)

/-- Texts behind commas are crossed if each of them is. -/
theorem join {ts : List Text} (h : ∀ t ∈ ts, IsSelfContained t) :
    IsSelfContained (Text.join ", ".toText ts) := by
  induction ts with
  | nil => rfl
  | cons t rest ih =>
    obtain ⟨ht, hrest⟩ := List.forall_mem_cons.mp h
    cases rest with
    | nil => exact ht
    | cons u us => exact (ht.append (.of_quiet (by decide))).append (ih hrest)

end IsSelfContained

/-! ## Single calls without comments -/

section Scan

variable {p : Place} {c : CodePoint} {t : Text}

/-- Outside, an apostrophe opens a literal. -/
theorem Place.next_mark (h : p.isOutside = true) : p.next mark = .literal := by
  cases p with
  | code | dash | slash => decide
  | _ => cases h

/-- Outside, only an apostrophe opens a literal. -/
theorem Place.isOutside_next (h : p.isOutside = true) (hc : c ≠ mark)
    (hnone : (p.next c).isComment = false) : (p.next c).isOutside = true := by
  have outside : (behind c).isOutside = true := by
    unfold behind
    rw [if_neg hc]
    split
    · rfl
    · split <;> rfl
  cases p with
  | code => exact outside
  | dash =>
    unfold next at hnone ⊢
    dsimp only at hnone ⊢
    split at hnone
    · cases hnone
    · next hdash => rwa [if_neg hdash]
  | slash =>
    unfold next at hnone ⊢
    dsimp only at hnone ⊢
    split at hnone
    · cases hnone
    · next hstar => rwa [if_neg hstar]
  | _ => cases h

/-- **The scan is right where no comment begins**: it knows whether the reader is in a
literal, and crosses what the reader crosses. -/
theorem Reading.across_of_closesAtEnd {inLiteral : Bool} {depth : ℕ}
    (h : closesAtEnd inLiteral (depth + 1) t = true)
    (hplace : if inLiteral then p = .literal else p.isOutside = true)
    (hnone : ∀ u v, t = u ++ v → (p.after u).isComment = false) :
    Reading.across ⟨p, depth + 1⟩ t = some ⟨.code, 0⟩ := by
  induction t generalizing inLiteral depth p with
  | nil => exact absurd h Bool.false_ne_true
  | cons c rest ih =>
    have first := hnone [c] rest rfl
    have others : ∀ u v, rest = u ++ v → ((p.next c).after u).isComment = false :=
      fun u v heq => hnone (c :: u) v (by rw [heq]; rfl)
    rw [Reading.across_cons]
    cases inLiteral with
    | true =>
      obtain rfl : p = .literal := hplace
      show Reading.across ⟨Place.literal.next c, depth + 1⟩ rest = _
      by_cases hc : c = mark
      · subst hc
        rw [closesAtEnd_mark, Bool.not_true] at h
        exact ih h rfl others
      · rw [closesAtEnd_inside hc] at h
        refine ih h ?_ others
        exact if_neg hc
    | false =>
      have outside : p.isOutside = true := hplace
      have stay : c ≠ ';' → c ≠ '(' → c ≠ ')' →
          Reading.next ⟨p, depth + 1⟩ c = some ⟨p.next c, depth + 1⟩ := by
        intro hs ho hc
        rw [Reading.next, if_pos outside, if_neg hs, if_neg ho, if_neg hc]
      by_cases hm : c = mark
      · subst hm
        rw [closesAtEnd_mark, Bool.not_false] at h
        rw [stay (by decide) (by decide) (by decide)]
        exact ih h (Place.next_mark outside) others
      by_cases ho : c = '('
      · subst ho
        have opened : Reading.next ⟨p, depth + 1⟩ (.char '(') = some ⟨.code, depth + 2⟩ := by
          rw [Reading.next, if_pos outside, if_neg (by decide), if_pos rfl]
        rw [closesAtEnd_open] at h
        rw [Place.next_open outside] at others
        rw [opened]
        exact ih h rfl others
      by_cases hc : c = ')'
      · subst hc
        have closed : Reading.next ⟨p, depth + 1⟩ (.char ')') = some ⟨.code, depth⟩ := by
          rw [Reading.next, if_pos outside, if_neg (by decide), if_neg (by decide), if_pos rfl,
            if_neg (Nat.succ_ne_zero depth), Nat.add_sub_cancel]
        rw [closesAtEnd_close] at h
        rw [Place.next_close outside] at others
        rw [closed]
        cases depth with
        | zero =>
          obtain rfl := List.isEmpty_iff.mp h
          rfl
        | succ depth => exact ih h rfl others
      by_cases hs : c = ';'
      · subst hs
        exact absurd h (by simp [closesAtEnd])
      · rw [closesAtEnd_plain ⟨hm, hs, ho, hc⟩] at h
        rw [stay hs ho hc]
        exact ih h (Place.isOutside_next outside hm first) others

/-- **A single call in which no comment begins is self-contained.** -/
theorem IsSelfContained.of_isSingleCall (h : isSingleCall t = true)
    (hnone : ∀ u v, t = u ++ v → (Place.code.after u).isComment = false) : IsSelfContained t := by
  obtain ⟨n, w, b, rfl, hn, hw, hb⟩ := exists_of_isSingleCall h
  have name : IsSelfContained n := .of_keyword hn.isNamePart
  have blanks : IsSelfContained w := by
    refine .of_plain fun c hc => ⟨(isPlain_of_isBlank (hw c hc)).1, ?_, ?_⟩ <;> rintro rfl
    · exact absurd (hw _ hc) (by decide)
    · exact absurd (hw _ hc) (by decide)
  have front := name.append blanks
  have inside : Reading.across ⟨.code, 1⟩ (b ++ [.char ')']) = some ⟨.code, 0⟩ := by
    refine Reading.across_of_closesAtEnd (closesAtEnd_balanced hb) rfl fun u v heq => ?_
    have behind := hnone (n ++ w ++ .char '(' :: u) v (by rw [heq]; simp)
    rw [Place.after_append, Reading.after_of_across front] at behind
    exact behind
  rw [IsSelfContained, ← List.append_assoc, Reading.across_append, front]
  exact inside

end Scan

end CortexCall.Sql
