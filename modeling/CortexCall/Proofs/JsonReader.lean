import CortexCall.Proofs.JsonGrammar
import CortexCall.Proofs.Outcome

/-!
# The reader reads the grammar

The reader of JSON has a budget of members, looks at words before it looks at
numerals, and takes the longest numeral that it can. None of this is in the
grammar, and the two agree all the same: what the reader returns is derived –
`derives_of_readValue` – and what is derived is returned, if nothing behind it
could continue a numeral – `Derives.returns` – both for the same bound on the
containers inside each other. For a whole text this is `readWithin_eq_ok_iff`;
and since no text has more containers than characters, a reader without a bound
reads whatever is JSON, `read_eq_ok_iff`.

The second half is one induction over the derivation, in which every phrase
claims to be returned by the reader that is for its sort. The budget never
runs out, because each member takes something off the text.
-/

namespace CortexCall.Json

/-! ## White space -/

section Space

variable {t rest : Text}

theorem Space.refl (t : Text) : Space t t := ⟨[], nofun, rfl⟩

theorem space_skipSpace (t : Text) : Space t (skipSpace t) :=
  ⟨t.takeWhile isSpace, List.all_eq_true.mp List.all_takeWhile,
    List.takeWhile_append_dropWhile.symm⟩

/-- White space is skipped up to what is none. -/
theorem Space.skipSpace_eq (h : Space t rest) (hrest : ∀ c ∈ rest.head?, isSpace c = false) :
    skipSpace t = rest := by
  obtain ⟨s, hs, rfl⟩ := h
  rw [skipSpace, List.dropWhile_append_of_pos hs]
  cases rest with
  | nil => rfl
  | cons c more => exact List.dropWhile_cons_of_neg (by simp [hrest c rfl])

end Space

/-! ## Texts -/

section Spells

variable {opening : Nat} {t rest : Text} {us : List Spelled}

theorem spells_of_scanSpelled (h : scanSpelled opening t = .ok (us, rest)) :
    Spells t us rest := by
  fun_induction scanSpelled opening t generalizing us with
  | case2 more =>
    obtain ⟨rfl, rfl⟩ := Prod.mk.inj (Except.ok.inj h)
    exact .close
  | case4 a b c e more n _ hn ih =>
    obtain ⟨⟨vs, _⟩, hvs, h⟩ := Outcome.bind_eq_ok_iff.mp h
    obtain ⟨rfl, rfl⟩ := Prod.mk.inj (Except.ok.inj h)
    exact .number hn (ih hvs)
  | case7 c more _ _ c' hc ih =>
    obtain ⟨⟨vs, _⟩, hvs, h⟩ := Outcome.bind_eq_ok_iff.mp h
    obtain ⟨rfl, rfl⟩ := Prod.mk.inj (Except.ok.inj h)
    exact .escape hc (ih hvs)
  | case10 c more hquote hlast hnumber hshort hescape hcontrol ih =>
    obtain ⟨⟨vs, _⟩, hvs, h⟩ := Outcome.bind_eq_ok_iff.mp h
    obtain ⟨rfl, rfl⟩ := Prod.mk.inj (Except.ok.inj h)
    refine .plain hquote (fun hc => ?_) (Nat.le_of_not_lt hcontrol) (ih hvs)
    cases more with
    | nil => exact hlast hc rfl
    | cons d more => exact hescape d more hc rfl
  | _ => exact absurd h (by simp)

theorem scanSpelled_of_spells (h : Spells t us rest) : scanSpelled opening t = .ok (us, rest) := by
  induction h with
  | close => rw [scanSpelled]
  | plain quote backslash control _ ih =>
    rw [scanSpelled]
    · rw [if_neg (Nat.not_lt_of_le control), ih]
      rfl
    all_goals simp_all
  | @escape c c' t rest us plain _ ih =>
    have hu : c ≠ .char 'u' := by
      rintro rfl
      have hnone : plainEscape (.char 'u') = none := by decide
      rw [hnone] at plain
      cases plain
    rw [scanSpelled]
    · rw [plain, ih]
      rfl
    all_goals simp_all
  | @number a b c e n t rest us unit more ih =>
    rw [scanSpelled]
    have hempty : t.isEmpty = false := by
      cases t with
      | nil => exact absurd rfl more.ne_nil
      | cons => rfl
    rw [unit, hempty, ih]
    rfl

/-- **The reader of texts reads what the grammar spells.** -/
theorem scanText_eq_ok_iff {s : Text} :
    scanText opening t = .ok (s, rest) ↔ ∃ us, Spells t us rest ∧ s = Spelled.text us := by
  unfold scanText
  rw [Outcome.bind_eq_ok_iff]
  constructor
  · rintro ⟨⟨us, u⟩, hus, h⟩
    obtain ⟨rfl, rfl⟩ := Prod.mk.inj (Except.ok.inj h)
    exact ⟨us, spells_of_scanSpelled hus, rfl⟩
  · rintro ⟨us, hus, rfl⟩
    exact ⟨(us, rest), scanSpelled_of_spells hus, rfl⟩

end Spells

/-! ## Numerals -/

/-- What may stand behind a numeral that is taken to its end. -/
def Follows (rest : Text) : Prop :=
  ∀ c ∈ rest.head?, c.isDigit = false ∧ c ≠ '.' ∧ c ≠ 'e' ∧ c ≠ 'E'

section Numeral

variable {t u rest ds : Text}

theorem digits_append (hds : ∀ c ∈ ds, c.isDigit = true)
    (hrest : ∀ c ∈ rest.head?, c.isDigit = false) :
    (ds ++ rest).takeWhile CodePoint.isDigit = ds
      ∧ (ds ++ rest).dropWhile CodePoint.isDigit = rest := by
  rw [List.takeWhile_append_of_pos hds, List.dropWhile_append_of_pos hds]
  cases rest with
  | nil => exact ⟨List.append_nil ds, rfl⟩
  | cons c more =>
    have hc : ¬ c.isDigit = true := by simp [hrest c rfl]
    rw [List.takeWhile_cons_of_neg hc, List.dropWhile_cons_of_neg hc]
    exact ⟨List.append_nil ds, rfl⟩

theorem isDigits_takeWhile (h : (t.takeWhile CodePoint.isDigit).isEmpty = false) :
    IsDigits (t.takeWhile CodePoint.isDigit) :=
  ⟨fun e => absurd (e ▸ h) (by simp), List.all_eq_true.mp List.all_takeWhile⟩

theorem isWholePart_of_scanWhole (h : scanWhole t = some (ds, rest)) :
    IsWholePart ds ∧ t = ds ++ rest := by
  cases t with
  | nil => cases h
  | cons c more =>
    rw [scanWhole] at h
    split at h
    · next hc =>
      obtain ⟨rfl, rfl⟩ := Prod.mk.inj (Option.some.inj h)
      subst hc
      exact ⟨⟨⟨List.cons_ne_nil _ _, by decide⟩, fun _ => rfl⟩, rfl⟩
    · next hc =>
      split at h
      · next hdigit =>
        obtain ⟨rfl, rfl⟩ := Prod.mk.inj (Option.some.inj h)
        refine ⟨⟨⟨List.cons_ne_nil _ _, ?_⟩, fun e => absurd (Option.some.inj e) hc⟩, ?_⟩
        · exact List.forall_mem_cons.mpr ⟨hdigit, List.all_eq_true.mp List.all_takeWhile⟩
        · exact congrArg (c :: ·) List.takeWhile_append_dropWhile.symm
      · cases h

theorem scanWhole_of_isWholePart (h : IsWholePart ds)
    (hrest : ∀ c ∈ rest.head?, c.isDigit = false) : scanWhole (ds ++ rest) = some (ds, rest) := by
  obtain ⟨⟨hne, hdigits⟩, hzero⟩ := h
  obtain ⟨c, more, rfl⟩ := List.exists_cons_of_ne_nil hne
  rw [List.cons_append, scanWhole]
  split
  · next hc =>
    obtain rfl : more = [] := by
      subst hc
      simpa using hzero rfl
    rfl
  · obtain ⟨hc, hmore⟩ := List.forall_mem_cons.mp hdigits
    obtain ⟨htake, hdrop⟩ := digits_append hmore hrest
    rw [if_pos hc, htake, hdrop]

theorem fraction_scanFraction (t : Text) : Fraction t (scanFraction t).1 (scanFraction t).2 := by
  unfold scanFraction
  split
  · next more =>
    split
    · exact .none
    · next h =>
      have digits := isDigits_takeWhile (eq_false_of_ne_true h)
      have behind : Fraction (.char '.' :: (more.takeWhile CodePoint.isDigit
          ++ more.dropWhile CodePoint.isDigit)) (more.takeWhile CodePoint.isDigit)
          (more.dropWhile CodePoint.isDigit) := .some digits
      rwa [List.takeWhile_append_dropWhile] at behind
  · exact .none

theorem sign_scanSign (t : Text) : Sign t (scanSign t).1 (scanSign t).2 := by
  unfold scanSign
  split
  · exact .minus
  · exact .plus
  · exact .none

theorem exponent_scanExponent (t : Text) :
    Exponent t (scanExponent t).1 (scanExponent t).2 := by
  unfold scanExponent
  split
  · next c more =>
    split
    · next hc =>
      dsimp only
      split
      · exact .none
      · next h =>
        refine .some hc ?_ (isDigits_takeWhile (eq_false_of_ne_true h))
        rw [List.takeWhile_append_dropWhile]
        exact sign_scanSign more
    · exact .none
  · exact .none

theorem numeralAt_of_scanNumeral {n : Numeral} (h : scanNumeral t = some (n, rest)) :
    NumeralAt t n rest := by
  unfold scanNumeral at h
  dsimp only at h
  split at h
  · cases h
  · next whole behind hwhole =>
    obtain ⟨rfl, rfl⟩ := Prod.mk.inj (Option.some.inj h)
    have hfraction := fraction_scanFraction behind
    have hexponent := exponent_scanExponent (scanFraction behind).2
    obtain ⟨digits, heq⟩ := isWholePart_of_scanWhole hwhole
    split at heq
    · subst heq
      exact .negative digits hfraction hexponent
    · subst heq
      exact .positive digits hfraction hexponent

theorem scanFraction_of_fraction (h : Fraction t ds rest) (hdot : rest.head? ≠ some '.')
    (hrest : ∀ c ∈ rest.head?, c.isDigit = false) : scanFraction t = (ds, rest) := by
  cases h with
  | none =>
    unfold scanFraction
    split
    · exact absurd rfl hdot
    · rfl
  | @some ds rest digits =>
    obtain ⟨htake, hdrop⟩ := digits_append digits.2 hrest
    have hne : ds.isEmpty = false := eq_false_of_ne_true fun e => digits.1 (List.isEmpty_iff.mp e)
    show (if ((ds ++ rest).takeWhile CodePoint.isDigit).isEmpty = true then _ else _) = _
    rw [htake, hdrop, hne]
    rfl

theorem scanSign_of_sign {negative : Bool} (h : Sign t negative (ds ++ rest))
    (hds : IsDigits ds) : scanSign t = (negative, ds ++ rest) := by
  cases h with
  | none =>
    obtain ⟨c, more, rfl⟩ := List.exists_cons_of_ne_nil hds.1
    have hc := hds.2 c List.mem_cons_self
    rw [List.cons_append, scanSign]
    · rintro _ ⟨⟩
      exact absurd hc (by decide)
    · rintro _ ⟨⟩
      exact absurd hc (by decide)
  | plus => rfl
  | minus => rfl

theorem scanExponent_of_exponent {e : Option (Bool × Text)} (h : Exponent t e rest)
    (hrest : Follows rest) : scanExponent t = (e, rest) := by
  cases h with
  | none =>
    unfold scanExponent
    cases t with
    | nil => rfl
    | cons c more =>
      obtain ⟨-, -, he, hE⟩ := hrest c rfl
      exact if_neg (not_or_intro he hE)
  | @some c t ds rest negative mark sign digits =>
    obtain ⟨htake, hdrop⟩ := digits_append digits.2 fun c hc => (hrest c hc).1
    have hne : ds.isEmpty = false := eq_false_of_ne_true fun e => digits.1 (List.isEmpty_iff.mp e)
    rw [scanExponent, if_pos mark, scanSign_of_sign sign digits]
    dsimp only
    rw [htake, hdrop, hne]
    rfl

/-- Behind the whole part there is no digit, and behind the fraction there is
neither a digit nor a point. -/
theorem Exponent.head (h : Exponent t e rest) (hrest : Follows rest) :
    ∀ c ∈ t.head?, c.isDigit = false ∧ c ≠ '.' := by
  cases h with
  | none => exact fun c hc => ⟨(hrest c hc).1, (hrest c hc).2.1⟩
  | some mark =>
    rintro c ⟨⟩
    obtain rfl | rfl := mark <;> decide

theorem Fraction.head (h : Fraction t ds u) (hu : ∀ c ∈ u.head?, c.isDigit = false ∧ c ≠ '.') :
    ∀ c ∈ t.head?, c.isDigit = false := by
  cases h with
  | none => exact fun c hc => (hu c hc).1
  | some =>
    rintro c ⟨⟩
    decide

/-- **A numeral is read to its end**, if nothing behind it continues it. -/
theorem scanNumeral_of_numeralAt {n : Numeral} (h : NumeralAt t n rest) (hrest : Follows rest) :
    scanNumeral t = some (n, rest) := by
  cases h with
  | @positive whole fraction t u _ exponent digits behind last =>
    have hu := last.head hrest
    have hwhole := scanWhole_of_isWholePart digits (behind.head hu)
    have hfraction := scanFraction_of_fraction behind (fun e => (hu _ e).2 rfl)
      fun c hc => (hu c hc).1
    obtain ⟨c, more, rfl⟩ := List.exists_cons_of_ne_nil digits.1.1
    have hc := digits.1.2 c List.mem_cons_self
    unfold scanNumeral
    split
    · next heq =>
      obtain rfl := (List.cons.inj heq).1
      exact absurd hc (by decide)
    · dsimp only
      rw [hwhole]
      dsimp only
      rw [hfraction, scanExponent_of_exponent last hrest]
  | @negative whole fraction t u _ exponent digits behind last =>
    have hu := last.head hrest
    have hwhole := scanWhole_of_isWholePart digits (behind.head hu)
    have hfraction := scanFraction_of_fraction behind (fun e => (hu _ e).2 rfl)
      fun c hc => (hu c hc).1
    unfold scanNumeral
    split
    · next heq =>
      obtain rfl := (List.cons.inj heq).2
      dsimp only
      rw [hwhole]
      dsimp only
      rw [hfraction, scanExponent_of_exponent last hrest]
    · next hne => exact absurd rfl (hne _)

end Numeral

/-! ## Words -/

section Word

variable {t w rest : Text} {v : Json} {l : List (Text × Json)}

theorem mem_of_scanWord (h : scanWord t l = some (w, v, rest)) : (w, v) ∈ l ∧ t = w ++ rest := by
  induction l with
  | nil => cases h
  | cons p more ih =>
    obtain ⟨w', v'⟩ := p
    rw [scanWord] at h
    split at h
    · next hw =>
      obtain ⟨u, rfl⟩ := List.isPrefixOf_iff_prefix.mp hw
      rw [List.drop_left] at h
      obtain ⟨rfl, rfl, rfl⟩ := Option.some.inj h
      exact ⟨List.mem_cons_self, rfl⟩
    · obtain ⟨hmem, rfl⟩ := ih h
      exact ⟨List.mem_cons_of_mem _ hmem, rfl⟩

theorem scanWord_eq_none (h : ∀ p ∈ l, ¬ p.1 <+: t) : scanWord t l = none := by
  induction l with
  | nil => rfl
  | cons p more ih =>
    obtain ⟨hp, hmore⟩ := List.forall_mem_cons.mp h
    rw [scanWord, if_neg fun e => hp (List.isPrefixOf_iff_prefix.mp e)]
    exact ih hmore

end Word

/-! ## Soundness -/

section Sound

variable {d : Dialect} {n : ℕ} {t rest : Text} {v : Json}

theorem derives_of_scanScalar (h : scanScalar d t = .ok (v, rest)) :
    Derives d n t (.value v) rest := by
  unfold scanScalar at h
  split at h
  · next w v' rest' hw =>
    obtain ⟨rfl, rfl⟩ := Prod.mk.inj (Except.ok.inj h)
    obtain ⟨hmem, rfl⟩ := mem_of_scanWord hw
    exact .word hmem
  · split at h
    · next w v' rest' hw =>
      split at h
      · next hd =>
        obtain ⟨rfl, rfl⟩ := Prod.mk.inj (Except.ok.inj h)
        obtain ⟨hmem, rfl⟩ := mem_of_scanWord hw
        exact .infinity hd hmem
      · exact absurd h (by simp [failAt])
    · split at h
      · exact absurd h (by simp [failAt])
      · next numeral rest' hnumeral =>
        split at h
        · next v' hv =>
          obtain ⟨rfl, rfl⟩ := Prod.mk.inj (Except.ok.inj h)
          exact .number (numeralAt_of_scanNumeral hnumeral) hv
        · exact absurd h (by simp [failAt])

/-- A name that is read, with its colon and the white space around it. -/
theorem exists_of_readName {name u : Text} (h : readName t = .ok (name, u)) :
    ∃ t' us u' w, t = .char '"' :: t' ∧ name = Spelled.text us ∧ Spells t' us u'
      ∧ Space u' (.char ':' :: w) ∧ Space w u := by
  unfold readName at h
  split at h
  · next t' =>
    obtain ⟨⟨s, u'⟩, hs, h⟩ := Outcome.bind_eq_ok_iff.mp h
    obtain ⟨us, hus, rfl⟩ := scanText_eq_ok_iff.mp hs
    have space := space_skipSpace u'
    dsimp only at h
    split at h
    · next w heq =>
      obtain ⟨rfl, rfl⟩ := Prod.mk.inj (Except.ok.inj h)
      exact ⟨t', us, u', w, rfl, rfl, hus, heq ▸ space, space_skipSpace w⟩
    · exact absurd h (by simp [failAt])
  · exact absurd h (by simp [failAt])

variable {read : Text → Except Fault (Json × Text)}
  (hread : ∀ {t rest v}, read t = .ok (v, rest) → Derives d n t (.value v) rest)

include hread

theorem derives_of_readItems {budget : Nat} {vs : List Json}
    (h : readItems read budget t = .ok (vs, rest)) : Derives d n t (.items vs) rest := by
  induction budget generalizing t vs with
  | zero => exact absurd h (by simp [readItems, failAt])
  | succ budget ih =>
    obtain ⟨⟨v, u⟩, hv, h⟩ := Outcome.bind_eq_ok_iff.mp h
    have space := space_skipSpace u
    dsimp only at h
    split at h
    · next heq =>
      obtain ⟨rfl, rfl⟩ := Prod.mk.inj (Except.ok.inj h)
      exact .lastItem (hread hv) (heq ▸ space)
    · next more heq =>
      obtain ⟨⟨vs', _⟩, hvs, h⟩ := Outcome.bind_eq_ok_iff.mp h
      obtain ⟨rfl, rfl⟩ := Prod.mk.inj (Except.ok.inj h)
      exact .item (hread hv) (heq ▸ space) (space_skipSpace more) (ih hvs)
    · exact absurd h (by simp [failAt])

theorem derives_of_readMembers {budget : Nat} {ms : List (Text × Json)}
    (h : readMembers read budget t = .ok (ms, rest)) : Derives d n t (.members ms) rest := by
  induction budget generalizing t ms with
  | zero => exact absurd h (by simp [readMembers, failAt])
  | succ budget ih =>
    obtain ⟨⟨name, u⟩, hname, h⟩ := Outcome.bind_eq_ok_iff.mp h
    obtain ⟨t', us, u', x, rfl, rfl, hspells, hcolon, hspace⟩ := exists_of_readName hname
    obtain ⟨⟨v, y⟩, hv, h⟩ := Outcome.bind_eq_ok_iff.mp h
    have space := space_skipSpace y
    dsimp only at h
    split at h
    · next heq =>
      obtain ⟨rfl, rfl⟩ := Prod.mk.inj (Except.ok.inj h)
      exact .lastMember hspells hcolon hspace (hread hv) (heq ▸ space)
    · next more heq =>
      obtain ⟨⟨ms', _⟩, hms, h⟩ := Outcome.bind_eq_ok_iff.mp h
      obtain ⟨rfl, rfl⟩ := Prod.mk.inj (Except.ok.inj h)
      exact .member hspells hcolon hspace (hread hv) (heq ▸ space) (space_skipSpace more) (ih hms)
    · exact absurd h (by simp [failAt])

omit hread in
/-- **What the reader returns is derived**, within the bound that it kept. -/
theorem derives_of_readValue {levels : ℕ} (h : readValue d levels t = .ok (v, rest)) :
    Derives d levels t (.value v) rest := by
  induction levels using Nat.strongRecOn generalizing t v rest with
  | ind levels ih =>
    unfold readValue at h
    split at h
    · next more =>
      obtain ⟨⟨s, _⟩, hs, h⟩ := Outcome.bind_eq_ok_iff.mp h
      obtain ⟨rfl, rfl⟩ := Prod.mk.inj (Except.ok.inj h)
      obtain ⟨us, hus, rfl⟩ := scanText_eq_ok_iff.mp hs
      exact .text hus
    · next more =>
      have space := space_skipSpace more
      split at h
      · exact absurd h (by simp [failAt])
      · next levels =>
        split at h
        · next heq =>
          obtain ⟨rfl, rfl⟩ := Prod.mk.inj (Except.ok.inj h)
          exact .emptyArray (heq ▸ space)
        · obtain ⟨⟨vs, _⟩, hvs, h⟩ := Outcome.bind_eq_ok_iff.mp h
          obtain ⟨rfl, rfl⟩ := Prod.mk.inj (Except.ok.inj h)
          exact .array space (derives_of_readItems (ih levels (Nat.lt_succ_self _)) hvs)
    · next more =>
      have space := space_skipSpace more
      split at h
      · exact absurd h (by simp [failAt])
      · next levels =>
        split at h
        · next heq =>
          obtain ⟨rfl, rfl⟩ := Prod.mk.inj (Except.ok.inj h)
          exact .emptyObject (heq ▸ space)
        · obtain ⟨⟨ms, _⟩, hms, h⟩ := Outcome.bind_eq_ok_iff.mp h
          obtain ⟨rfl, rfl⟩ := Prod.mk.inj (Except.ok.inj h)
          exact .object space (derives_of_readMembers (ih levels (Nat.lt_succ_self _)) hms)
    · exact derives_of_scanScalar h

end Sound

/-! ## Completeness -/

section Complete

variable {d : Dialect} {n : ℕ} {t u rest : Text} {v : Json} {p : Phrase}

/-- White space does not continue a numeral. -/
theorem Space.follows (h : Space t rest) (hrest : Follows rest) : Follows t := by
  obtain ⟨s, hs, rfl⟩ := h
  cases s with
  | nil => exact hrest
  | cons c more =>
    rintro _ ⟨⟩
    have hc : c = ' ' ∨ c = '\t' ∨ c = '\n' ∨ c = '\r' := by
      simpa [isSpace, or_assoc] using hs c List.mem_cons_self
    obtain rfl | rfl | rfl | rfl := hc <;> decide

theorem readName_of_spells {us : List Spelled} {w x : Text} (name : Spells t us u)
    (colon : Space u (.char ':' :: w)) (space : Space w x) (hx : Starts x) :
    readName (.char '"' :: t) = .ok (Spelled.text us, x) := by
  show (scanText _ t >>= _) = _
  rw [scanText_eq_ok_iff.mpr ⟨us, name, rfl⟩]
  dsimp only [bind, Except.bind]
  rw [colon.skipSpace_eq (by rintro _ ⟨⟩; decide)]
  show Except.ok (_, skipSpace w) = _
  rw [space.skipSpace_eq fun c hc => (hx c hc).1]

/-- **A phrase is returned** by the reader that is for its sort and keeps to `n`
containers, if the budget of members is not smaller than the text. -/
def Returns (d : Dialect) (n : ℕ) (t : Text) : Phrase → Text → Prop
  | .value v, rest => Follows rest → readValue d n t = .ok (v, rest)
  | .items vs, rest => ∀ count, t.length < count →
    readItems (readValue d n) count t = .ok (vs, rest)
  | .members ms, rest => ∀ count, t.length < count →
    readMembers (readValue d n) count t = .ok (ms, rest)

theorem readValue_of_number {numeral : Numeral} (digits : NumeralAt t numeral rest)
    (value : numeral.value = .ok v) (hrest : Follows rest) :
    readValue d n t = .ok (v, rest) := by
  have hscalar : scanScalar d t = .ok (v, rest) := by
    have none := digits.not_prefix
    rw [scanScalar, scanWord_eq_none fun p hp => none p (List.mem_append_left _ hp)]
    dsimp only
    rw [scanWord_eq_none fun p hp => none p (List.mem_append_right _ hp)]
    dsimp only
    rw [scanNumeral_of_numeralAt digits hrest]
    dsimp only
    rw [value]
  rw [← hscalar]
  unfold readValue
  obtain ⟨c, more, hc, h⟩ := digits.exists_digit
  have ne : ∀ e : CodePoint, e.isDigit = false → c ≠ e := by
    rintro e he rfl
    exact Bool.false_ne_true (he.symm.trans hc)
  split
  case h_4 => rfl
  all_goals
    obtain h | h := h
    · exact absurd (List.cons.inj h).1.symm (ne _ (by decide))
    · exact absurd (List.cons.inj h).1 (by decide)

/-- **What is derived is returned.** -/
theorem Derives.returns (h : Derives d n t p rest) : Returns d n t p rest := by
  -- every member leaves less of the text, so the budget is never used up
  induction h with
  | @word n w rest v listed =>
    intro _
    simp only [words, List.mem_cons, List.not_mem_nil, or_false, Prod.mk.injEq] at listed
    obtain ⟨rfl, rfl⟩ | ⟨rfl, rfl⟩ | ⟨rfl, rfl⟩ := listed <;> cases n <;> rfl
  | @infinity n w rest v allowed listed =>
    intro _
    simp only [infinityWords, List.mem_cons, List.not_mem_nil, or_false, Prod.mk.injEq] at listed
    obtain ⟨rfl, rfl⟩ | ⟨rfl, rfl⟩ | ⟨rfl, rfl⟩ := listed <;> cases n <;> exact if_pos allowed
  | number digits value => exact readValue_of_number digits value
  | @text n t rest us spells =>
    intro _
    unfold readValue
    show (scanText _ t >>= _) = _
    rw [scanText_eq_ok_iff.mpr ⟨us, spells, rfl⟩]
    rfl
  | @emptyArray n t rest space =>
    intro _
    rw [readValue]
    rw [space.skipSpace_eq (by rintro _ ⟨⟩; decide)]
    rfl
  | @array n t u rest vs space items ih =>
    intro _
    have starts := items.starts
    rw [readValue]
    rw [space.skipSpace_eq fun c hc => (starts c hc).1]
    split
    · exact absurd rfl (starts _ rfl).2.1
    · rw [ih (u.length + 1) (Nat.lt_succ_self _)]
      rfl
  | @emptyObject n t rest space =>
    intro _
    rw [readValue]
    rw [space.skipSpace_eq (by rintro _ ⟨⟩; decide)]
    rfl
  | @object n t u rest ms space members ih =>
    intro _
    have starts := members.starts
    rw [readValue]
    rw [space.skipSpace_eq fun c hc => (starts c hc).1]
    split
    · exact absurd rfl (starts _ rfl).2.2.1
    · rw [ih (u.length + 1) (Nat.lt_succ_self _)]
      rfl
  | lastItem value close ih =>
    rintro (_ | count) hcount
    · exact absurd hcount (Nat.not_lt_zero _)
    · unfold readItems
      rw [ih (close.follows (by unfold Follows; rintro _ ⟨⟩; decide))]
      dsimp only [bind, Except.bind]
      rw [close.skipSpace_eq (by rintro _ ⟨⟩; decide)]
      rfl
  | @item n t u w x rest v vs value comma space more ih₁ ih₂ =>
    rintro (_ | count) hcount
    · exact absurd hcount (Nat.not_lt_zero _)
    · have h₁ := value.length_lt
      have h₂ := comma.length_le
      have h₃ := space.length_le
      rw [List.length_cons] at h₂
      unfold readItems
      rw [ih₁ (comma.follows (by unfold Follows; rintro _ ⟨⟩; decide))]
      dsimp only [bind, Except.bind]
      rw [comma.skipSpace_eq (by rintro _ ⟨⟩; decide)]
      show (readItems _ _ (skipSpace w) >>= _) = _
      rw [space.skipSpace_eq fun c hc => (more.starts c hc).1, ih₂ count (by omega)]
      rfl
  | @lastMember n t u w x y rest us v name colon space value close ih =>
    rintro (_ | count) hcount
    · exact absurd hcount (Nat.not_lt_zero _)
    · unfold readMembers
      rw [readName_of_spells name colon space value.starts]
      show (readValue d n x >>= _) = _
      rw [ih (close.follows (by unfold Follows; rintro _ ⟨⟩; decide))]
      dsimp only [bind, Except.bind]
      rw [close.skipSpace_eq (by rintro _ ⟨⟩; decide)]
      rfl
  | @member n t u w x y z z' rest us v ms name colon space value comma space' more ih₁ ih₂ =>
    rintro (_ | count) hcount
    · exact absurd hcount (Nat.not_lt_zero _)
    · have h₁ := name.length_lt
      have h₂ := colon.length_le
      have h₃ := space.length_le
      have h₄ := value.length_lt
      have h₅ := comma.length_le
      have h₆ := space'.length_le
      simp only [List.length_cons] at h₂ h₅ hcount
      unfold readMembers
      rw [readName_of_spells name colon space value.starts]
      show (readValue d n x >>= _) = _
      rw [ih₁ (comma.follows (by unfold Follows; rintro _ ⟨⟩; decide))]
      dsimp only [bind, Except.bind]
      rw [comma.skipSpace_eq (by rintro _ ⟨⟩; decide)]
      show (readMembers _ _ (skipSpace z) >>= _) = _
      rw [space'.skipSpace_eq fun c hc => (more.starts c hc).1, ih₂ count (by omega)]
      rfl

end Complete

/-- **The reader reads the grammar**: it returns a value for the texts that
denote one within its bound, and that value. -/
theorem readWithin_eq_ok_iff {levels : ℕ} {d : Dialect} {t : Text} {v : Json} :
    readWithin levels d t = .ok v ↔ DenotesWithin levels d t v := by
  unfold readWithin
  rw [Outcome.mapError_eq_ok_iff]
  unfold readAll
  constructor
  · intro h
    split at h
    · exact absurd h (by simp [failAt])
    · obtain ⟨⟨v', w⟩, hv, h⟩ := Outcome.bind_eq_ok_iff.mp h
      have space := space_skipSpace w
      dsimp only at h
      split at h
      · next heq =>
        obtain rfl := Except.ok.inj h
        exact ⟨_, w, space_skipSpace t, derives_of_readValue hv, heq ▸ space⟩
      · exact absurd h (by simp [failAt])
  · rintro ⟨u, w, space, derives, space'⟩
    have hbom : t.head? ≠ some (.ofNat 0xFEFF) := by
      obtain ⟨s, hs, rfl⟩ := space
      cases s with
      | nil => exact fun e => (derives.starts _ e).2.2.2 rfl
      | cons c more =>
        intro e
        obtain rfl := Option.some.inj e
        exact absurd (hs _ List.mem_cons_self) (by decide)
    rw [if_neg hbom, space.skipSpace_eq fun c hc => (derives.starts c hc).1,
      derives.returns (space'.follows (by unfold Follows; simp))]
    dsimp only [bind, Except.bind]
    rw [space'.skipSpace_eq (by simp)]
    rfl

/-- A text has no more containers inside each other than characters. -/
theorem DenotesWithin.of_length {n m : ℕ} {d : Dialect} {t : Text} {v : Json}
    (h : DenotesWithin n d t v) (hm : t.length ≤ m) : DenotesWithin m d t v := by
  obtain ⟨u, w, space, derives, space'⟩ := h
  have length := space.length_le
  exact ⟨u, w, space, derives.of_length m (by omega), space'⟩

/-- **A reader without a bound reads what is JSON**, and the value it spells. -/
theorem read_eq_ok_iff {d : Dialect} {t : Text} {v : Json} :
    read d t = .ok v ↔ Denotes d t v := by
  unfold read
  rw [readWithin_eq_ok_iff]
  exact ⟨fun h => ⟨_, h⟩, fun ⟨_, h⟩ => h.of_length (Nat.le_refl _)⟩

/-- **A text denotes one value at most.** -/
theorem Denotes.unique {d : Dialect} {t : Text} {v v' : Json} (h : Denotes d t v)
    (h' : Denotes d t v') : v = v' :=
  Except.ok.inj ((read_eq_ok_iff.mpr h).symm.trans (read_eq_ok_iff.mpr h'))

end CortexCall.Json
