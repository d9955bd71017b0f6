import CortexCall.Json.Reader

/-!
# The grammar of JSON

JSON is given by a grammar, and this is it: `Derives` says that a text starts
with a value, or with the items or the members of a container and the bracket
that closes it, and what is behind. Each rule names the text in front of what
it takes and the text behind it, so that the rules are put together as a
reader is, without a position in a text to keep track of. A dialect may have
words for infinite numbers besides. A derivation also bounds how many
containers are inside each other, since a reader may have to keep to a bound:
`DenotesWithin` is the same for a whole text, and `Denotes` is without a bound.

Of a text that is derived three things are said here, since a reader depends
on them: how it starts, which tells the sorts of values apart; that the phrase
takes something of it, so that whoever reads on has less to read; and that what
it takes bounds the containers in it.
-/

namespace CortexCall.Json

/-! ## Tokens -/

/-- White space, and what is behind it. -/
def Space (t rest : Text) : Prop := ∃ s : Text, (∀ c ∈ s, isSpace c = true) ∧ t = s ++ rest

/-- What stands inside quotes with the closing quote, and what is behind. -/
inductive Spells : Text → List Spelled → Text → Prop
  | close {rest : Text} : Spells (.char '"' :: rest) [] rest
  | plain {c : CodePoint} {t rest : Text} {us : List Spelled} (quote : c ≠ .char '"')
      (backslash : c ≠ .char '\\') (control : 0x20 ≤ c.toNat) (more : Spells t us rest) :
      Spells (c :: t) (.point c :: us) rest
  | escape {c c' : CodePoint} {t rest : Text} {us : List Spelled} (plain : plainEscape c = some c')
      (more : Spells t us rest) : Spells (.char '\\' :: c :: t) (.point c' :: us) rest
  | number {a b c e : CodePoint} {n : Nat} {t rest : Text} {us : List Spelled}
      (unit : hexUnit a b c e = some n) (more : Spells t us rest) :
      Spells (.char '\\' :: .char 'u' :: a :: b :: c :: e :: t) (.ofNumber n :: us) rest

/-- One digit or more. -/
def IsDigits (ds : Text) : Prop := ds ≠ [] ∧ ∀ c ∈ ds, c.isDigit = true

/-- The digits before the point of a numeral: a zero alone, or digits that
start with no zero. -/
def IsWholePart (ds : Text) : Prop := IsDigits ds ∧ (ds.head? = some '0' → ds = [.char '0'])

/-- The point of a numeral and the digits behind it, if it has them. -/
inductive Fraction : Text → Text → Text → Prop
  | none {t : Text} : Fraction t [] t
  | some {ds rest : Text} (digits : IsDigits ds) : Fraction (.char '.' :: (ds ++ rest)) ds rest

/-- The sign of an exponent. -/
inductive Sign : Text → Bool → Text → Prop
  | none {t : Text} : Sign t false t
  | plus {t : Text} : Sign (.char '+' :: t) false t
  | minus {t : Text} : Sign (.char '-' :: t) true t

/-- The exponent of a numeral, if it has one. -/
inductive Exponent : Text → Option (Bool × Text) → Text → Prop
  | none {t : Text} : Exponent t .none t
  | some {c : CodePoint} {t ds rest : Text} {negative : Bool} (mark : c = 'e' ∨ c = 'E')
      (sign : Sign t negative (ds ++ rest)) (digits : IsDigits ds) :
      Exponent (c :: t) (.some (negative, ds)) rest

/-- A numeral and what is behind it. -/
inductive NumeralAt : Text → Numeral → Text → Prop
  | positive {whole fraction t u rest : Text} {exponent : Option (Bool × Text)}
      (digits : IsWholePart whole) (behind : Fraction t fraction u)
      (last : Exponent u exponent rest) :
      NumeralAt (whole ++ t) ⟨false, whole, fraction, exponent⟩ rest
  | negative {whole fraction t u rest : Text} {exponent : Option (Bool × Text)}
      (digits : IsWholePart whole) (behind : Fraction t fraction u)
      (last : Exponent u exponent rest) :
      NumeralAt (.char '-' :: (whole ++ t)) ⟨true, whole, fraction, exponent⟩ rest

/-! ## Values -/

/-- What the grammar derives. -/
inductive Phrase where
  /-- A value. -/
  | value (v : Json)
  /-- The items of an array, one at least, and the closing bracket. -/
  | items (vs : List Json)
  /-- The members of an object, one at least, and the closing brace. -/
  | members (ms : List (Text × Json))

/-- **The grammar of JSON**: a text starts with a phrase that has no more than
`n` containers inside each other, and what is behind it. -/
inductive Derives (d : Dialect) : Nat → Text → Phrase → Text → Prop
  | word {n : Nat} {w rest : Text} {v : Json} (listed : (w, v) ∈ words) :
      Derives d n (w ++ rest) (.value v) rest
  | infinity {n : Nat} {w rest : Text} {v : Json} (allowed : d.infinities = true)
      (listed : (w, v) ∈ infinityWords) : Derives d n (w ++ rest) (.value v) rest
  | number {n : Nat} {t rest : Text} {numeral : Numeral} {v : Json}
      (digits : NumeralAt t numeral rest) (value : numeral.value = .ok v) :
      Derives d n t (.value v) rest
  | text {n : Nat} {t rest : Text} {us : List Spelled} (spells : Spells t us rest) :
      Derives d n (.char '"' :: t) (.value (.str (Spelled.text us))) rest
  | emptyArray {n : Nat} {t rest : Text} (space : Space t (.char ']' :: rest)) :
      Derives d (n + 1) (.char '[' :: t) (.value (.arr [])) rest
  | array {n : Nat} {t u rest : Text} {vs : List Json} (space : Space t u)
      (items : Derives d n u (.items vs) rest) :
      Derives d (n + 1) (.char '[' :: t) (.value (.arr vs)) rest
  | emptyObject {n : Nat} {t rest : Text} (space : Space t (.char '\x7d' :: rest)) :
      Derives d (n + 1) (.char '\x7b' :: t) (.value (.obj [])) rest
  | object {n : Nat} {t u rest : Text} {ms : List (Text × Json)} (space : Space t u)
      (members : Derives d n u (.members ms) rest) :
      Derives d (n + 1) (.char '\x7b' :: t) (.value (.obj (Members.ofPairs ms))) rest
  | lastItem {n : Nat} {t u rest : Text} {v : Json} (value : Derives d n t (.value v) u)
      (close : Space u (.char ']' :: rest)) : Derives d n t (.items [v]) rest
  | item {n : Nat} {t u w x rest : Text} {v : Json} {vs : List Json}
      (value : Derives d n t (.value v) u) (comma : Space u (.char ',' :: w)) (space : Space w x)
      (more : Derives d n x (.items vs) rest) : Derives d n t (.items (v :: vs)) rest
  | lastMember {n : Nat} {t u w x y rest : Text} {us : List Spelled} {v : Json}
      (name : Spells t us u) (colon : Space u (.char ':' :: w)) (space : Space w x)
      (value : Derives d n x (.value v) y) (close : Space y (.char '\x7d' :: rest)) :
      Derives d n (.char '"' :: t) (.members [(Spelled.text us, v)]) rest
  | member {n : Nat} {t u w x y z z' rest : Text} {us : List Spelled} {v : Json}
      {ms : List (Text × Json)} (name : Spells t us u) (colon : Space u (.char ':' :: w))
      (space : Space w x) (value : Derives d n x (.value v) y) (comma : Space y (.char ',' :: z))
      (space' : Space z z') (more : Derives d n z' (.members ms) rest) :
      Derives d n (.char '"' :: t) (.members ((Spelled.text us, v) :: ms)) rest

/-- **A text that is JSON** with no more than `n` containers inside each other,
and the value it spells. -/
def DenotesWithin (n : Nat) (d : Dialect) (t : Text) (v : Json) : Prop :=
  ∃ u w, Space t u ∧ Derives d n u (.value v) w ∧ Space w []

/-- **A text that is JSON**, and the value it spells. -/
def Denotes (d : Dialect) (t : Text) (v : Json) : Prop := ∃ n, DenotesWithin n d t v

/-! ## Less is left -/

section Length

variable {t u rest : Text}

theorem Space.length_le (h : Space t rest) : rest.length ≤ t.length := by
  obtain ⟨s, -, rfl⟩ := h
  rw [List.length_append]
  exact Nat.le_add_left _ _

theorem Spells.ne_nil {us : List Spelled} (h : Spells t us rest) : t ≠ [] := by
  cases h <;> exact List.cons_ne_nil _ _

theorem Spells.length_lt {us : List Spelled} (h : Spells t us rest) :
    rest.length < t.length := by
  induction h with
  | close => exact Nat.lt_succ_self _
  | plain _ _ _ _ ih => exact Nat.lt_succ_of_lt ih
  | escape _ _ ih =>
    simp only [List.length_cons]
    omega
  | number _ _ ih =>
    simp only [List.length_cons]
    omega

theorem Fraction.length_le {ds : Text} (h : Fraction t ds u) : u.length ≤ t.length := by
  cases h with
  | none => exact Nat.le_refl _
  | some =>
    simp only [List.length_cons, List.length_append]
    omega

theorem Exponent.length_le {e : Option (Bool × Text)} (h : Exponent t e u) :
    u.length ≤ t.length := by
  cases h with
  | none => exact Nat.le_refl _
  | some _ sign =>
    cases sign <;> simp only [List.length_cons, List.length_append] <;> omega

theorem NumeralAt.length_lt {n : Numeral} (h : NumeralAt t n rest) : rest.length < t.length := by
  cases h with
  | positive digits behind last =>
    have := List.length_pos_iff.mpr digits.1.1
    have := behind.length_le
    have := last.length_le
    rw [List.length_append]
    omega
  | negative digits behind last =>
    have := behind.length_le
    have := last.length_le
    rw [List.length_cons, List.length_append]
    omega

/-- **What is derived takes something.** -/
theorem Derives.length_lt {d : Dialect} {n : Nat} {p : Phrase} (h : Derives d n t p rest) :
    rest.length < t.length := by
  induction h with
  | word listed =>
    have := List.length_pos_iff.mpr ((by decide : ∀ q ∈ words, q.1 ≠ []) _ listed)
    dsimp only at this
    rw [List.length_append]
    omega
  | infinity _ listed =>
    have := List.length_pos_iff.mpr ((by decide : ∀ q ∈ infinityWords, q.1 ≠ []) _ listed)
    dsimp only at this
    rw [List.length_append]
    omega
  | number digits => exact digits.length_lt
  | text spells => exact Nat.lt_succ_of_lt spells.length_lt
  | emptyArray space =>
    have := space.length_le
    simp only [List.length_cons] at *
    omega
  | array space _ ih =>
    have := space.length_le
    simp only [List.length_cons] at *
    omega
  | emptyObject space =>
    have := space.length_le
    simp only [List.length_cons] at *
    omega
  | object space _ ih =>
    have := space.length_le
    simp only [List.length_cons] at *
    omega
  | lastItem _ close ih =>
    have := close.length_le
    simp only [List.length_cons] at *
    omega
  | item _ comma space _ ih₁ ih₂ =>
    have := comma.length_le
    have := space.length_le
    simp only [List.length_cons] at *
    omega
  | lastMember name colon space _ close ih =>
    have := name.length_lt
    have := colon.length_le
    have := space.length_le
    have := close.length_le
    simp only [List.length_cons] at *
    omega
  | member name colon space _ comma space' _ ih₁ ih₂ =>
    have := name.length_lt
    have := colon.length_le
    have := space.length_le
    have := comma.length_le
    have := space'.length_le
    simp only [List.length_cons] at *
    omega

/-- **What a phrase takes bounds the containers in it**, since each of them takes
a bracket. -/
theorem Derives.of_length {d : Dialect} {n : Nat} {p : Phrase} (h : Derives d n t p rest) :
    ∀ m, t.length ≤ m + rest.length → Derives d m t p rest := by
  induction h with
  | word listed => exact fun _ _ => .word listed
  | infinity allowed listed => exact fun _ _ => .infinity allowed listed
  | number digits value => exact fun _ _ => .number digits value
  | text spells => exact fun _ _ => .text spells
  | emptyArray space =>
    have := space.length_le
    rintro (_ | m) hm
    · simp only [List.length_cons] at *
      omega
    · exact .emptyArray space
  | array space items ih =>
    have := space.length_le
    have := items.length_lt
    rintro (_ | m) hm
    all_goals simp only [List.length_cons] at *
    · omega
    · exact .array space (ih m (by omega))
  | emptyObject space =>
    have := space.length_le
    rintro (_ | m) hm
    · simp only [List.length_cons] at *
      omega
    · exact .emptyObject space
  | object space members ih =>
    have := space.length_le
    have := members.length_lt
    rintro (_ | m) hm
    all_goals simp only [List.length_cons] at *
    · omega
    · exact .object space (ih m (by omega))
  | lastItem _ close ih =>
    have := close.length_le
    intro m hm
    simp only [List.length_cons] at *
    exact .lastItem (ih m (by omega)) close
  | item value comma space more ih₁ ih₂ =>
    have := value.length_lt
    have := comma.length_le
    have := space.length_le
    have := more.length_lt
    intro m hm
    simp only [List.length_cons] at *
    exact .item (ih₁ m (by omega)) comma space (ih₂ m (by omega))
  | lastMember name colon space _ close ih =>
    have := name.length_lt
    have := colon.length_le
    have := space.length_le
    have := close.length_le
    intro m hm
    simp only [List.length_cons] at *
    exact .lastMember name colon space (ih m (by omega)) close
  | member name colon space value comma space' more ih₁ ih₂ =>
    have := name.length_lt
    have := colon.length_le
    have := space.length_le
    have := value.length_lt
    have := comma.length_le
    have := space'.length_le
    have := more.length_lt
    intro m hm
    simp only [List.length_cons] at *
    exact .member name colon space (ih₁ m (by omega)) comma space' (ih₂ m (by omega))

end Length

/-! ## How phrases start -/

/-- How no phrase starts: with white space, a closing bracket or a byte order
mark. -/
def Starts (t : Text) : Prop :=
  ∀ c ∈ t.head?, isSpace c = false ∧ c ≠ ']' ∧ c ≠ '\x7d' ∧ c ≠ .ofNat 0xFEFF

section Starts

variable {d : Dialect} {n : Nat} {t rest : Text} {p : Phrase}

/-- A numeral starts with a digit, perhaps behind a minus sign. -/
theorem NumeralAt.exists_digit {n : Numeral} (h : NumeralAt t n rest) :
    ∃ c more, c.isDigit = true ∧ (t = c :: more ∨ t = .char '-' :: c :: more) := by
  cases h with
  | positive digits =>
    obtain ⟨c, more, rfl⟩ := List.exists_cons_of_ne_nil digits.1.1
    exact ⟨c, _, digits.1.2 c List.mem_cons_self, .inl rfl⟩
  | negative digits =>
    obtain ⟨c, more, rfl⟩ := List.exists_cons_of_ne_nil digits.1.1
    exact ⟨c, _, digits.1.2 c List.mem_cons_self, .inr rfl⟩

/-- No word starts as a numeral does. -/
theorem NumeralAt.not_prefix {n : Numeral} (h : NumeralAt t n rest) :
    ∀ p ∈ words ++ infinityWords, ¬ p.1 <+: t := by
  have heads : ∀ p ∈ words ++ infinityWords,
      2 ≤ p.1.length ∧ ∀ c ∈ p.1.take 2, c.isDigit = false := by decide
  rintro ⟨w, v⟩ hp ⟨u, rfl⟩
  obtain ⟨hlength, hw⟩ := heads _ hp
  obtain ⟨c, more, hc, h⟩ := h.exists_digit
  have hmem : c ∈ w.take 2 := by
    have htake : (w ++ u).take 2 = w.take 2 := List.take_append_of_le_length hlength
    rw [← htake]
    dsimp only at h
    obtain h | h := h <;> simp [h]
  exact Bool.false_ne_true ((hw c hmem).symm.trans hc)

theorem starts_of_isDigit {c : CodePoint} (h : c.isDigit = true) : Starts (c :: t) := by
  have ne : ∀ e : CodePoint, e.isDigit = false → c ≠ e := by
    rintro e he rfl
    exact Bool.false_ne_true (he.symm.trans h)
  rintro _ ⟨⟩
  refine ⟨?_, ne _ (by decide), ne _ (by decide), ne _ (by decide)⟩
  simp only [isSpace, Bool.or_eq_false_iff, beq_eq_false_iff_ne]
  exact ⟨⟨⟨ne _ (by decide), ne _ (by decide)⟩, ne _ (by decide)⟩, ne _ (by decide)⟩

theorem starts_cons {c : CodePoint} (h : Starts [c]) : Starts (c :: t) := h

/-- **What is derived starts as phrases do.** -/
theorem Derives.starts (h : Derives d n t p rest) : Starts t := by
  have heads : ∀ q ∈ words ++ infinityWords, q.1 ≠ [] ∧ Starts q.1 := by
    unfold Starts
    decide
  have word : ∀ {w rest : Text} {v : Json}, (w, v) ∈ words ++ infinityWords →
      Starts (w ++ rest) := by
    intro w rest v hw
    obtain ⟨hne, hstarts⟩ := heads _ hw
    obtain ⟨c, more, rfl⟩ := List.exists_cons_of_ne_nil hne
    exact hstarts
  induction h with
  | word listed => exact word (List.mem_append_left _ listed)
  | infinity _ listed => exact word (List.mem_append_right _ listed)
  | number digits =>
    obtain ⟨c, more, hc, rfl | rfl⟩ := digits.exists_digit
    · exact starts_of_isDigit hc
    · exact starts_cons (by unfold Starts; decide)
  | lastItem _ _ ih => exact ih
  | item _ _ _ _ ih => exact ih
  | _ => exact starts_cons (by unfold Starts; decide)

end Starts

end CortexCall.Json
