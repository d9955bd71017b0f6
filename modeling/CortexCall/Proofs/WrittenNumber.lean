import Mathlib.Tactic.Ring
import CortexCall.Decimal.Shortest
import CortexCall.Proofs.JsonGrammar
import CortexCall.Proofs.NearestDouble

/-!
# Numbers that are written read back

A whole number is written in full and a double by its shortest numeral, with
the point where its size puts it or with an exponent. Either way what is
written is a numeral of the grammar – `Text.exists_numeral_ofInt`,
`Binary64.exists_numeral_write` – and its value is the number again: the
whole number because its digits are, the double because of a numeral only the
value counts and every way of laying out digits keeps it.

A double is told from a whole number by the point or the exponent that it
always has.
-/

namespace CortexCall

namespace Json.Numeral

/-! ## The number that digits spell -/

/-- Digits are characters, so that there are as many of either. -/
theorem length_chars {ds : Text} (h : ∀ c ∈ ds, c.isDigit = true) :
    ds.chars.length = ds.length := by
  induction ds with
  | nil => rfl
  | cons c rest ih =>
    obtain ⟨hc, hrest⟩ := List.forall_mem_cons.mp h
    cases c with
    | char c => exact congrArg Nat.succ (ih hrest)
    | half u => cases hc

@[simp] theorem valueOf_ofNat (n : ℕ) : valueOf (Text.ofNat n) = n := by
  rw [valueOf, Text.ofNat, Text.chars_ofChars]
  exact Nat.ofDigitChars_toDigits (by decide) (by decide)

/-- **Digits in front count as often as the digits behind have places.** -/
theorem valueOf_append (t : Text) {u : Text} (hu : ∀ c ∈ u, c.isDigit = true) :
    valueOf (t ++ u) = valueOf t * 10 ^ u.length + valueOf u := by
  have split : (t ++ u).chars = t.chars ++ u.chars := List.filterMap_append
  rw [valueOf, split, Nat.ofDigitChars_append, Nat.ofDigitChars_eq_ofDigitChars_zero,
    length_chars hu, Nat.mul_comm]
  rfl

/-- **Digits spell less than the power of ten that has one more.** -/
theorem valueOf_lt {ds : Text} (h : ∀ c ∈ ds, c.isDigit = true) : valueOf ds < 10 ^ ds.length := by
  induction ds with
  | nil => exact Nat.one_pos
  | cons c rest ih =>
    obtain ⟨hc, hrest⟩ := List.forall_mem_cons.mp h
    have digit : valueOf [c] < 10 := by
      cases c with
      | half u => cases hc
      | char c =>
        simp only [CodePoint.isDigit, Char.isDigit, Bool.and_eq_true, decide_eq_true_eq,
          UInt32.le_iff_toNat_le] at hc
        have hc : c.toNat ≤ 57 := hc.2
        show 10 * 0 + (c.toNat - 48) < 10
        omega
    have value := valueOf_append [c] hrest
    have more := ih hrest
    have bound : (valueOf [c] + 1) * 10 ^ rest.length ≤ 10 * 10 ^ rest.length :=
      Nat.mul_le_mul_right _ digit
    rw [List.singleton_append] at value
    rw [List.length_cons, Nat.pow_succ, value]
    rw [Nat.add_mul, Nat.one_mul] at bound
    omega

/-- Some zeros. -/
abbrev zeros (n : ℕ) : Text := List.replicate n (.char '0')

theorem isDigit_of_mem_zeros {n : ℕ} : ∀ c ∈ zeros n, c.isDigit = true := by
  intro c hc
  rw [List.eq_of_mem_replicate hc]
  rfl

theorem valueOf_zeros (n : ℕ) : valueOf (zeros n) = 0 := by
  have chars : (zeros n).chars = List.replicate n '0' := by
    induction n with
    | zero => rfl
    | succ n ih => exact congrArg ('0' :: ·) ih
  rw [valueOf, chars, Nat.ofDigitChars_replicate_zero, Nat.mul_zero]

/-- Zeros in front do not count. -/
theorem valueOf_zeros_append (n : ℕ) {t : Text} (ht : ∀ c ∈ t, c.isDigit = true) :
    valueOf (zeros n ++ t) = valueOf t := by
  rw [valueOf_append _ ht, valueOf_zeros, Nat.zero_mul, Nat.zero_add]

/-- A zero behind is one more place. -/
theorem valueOf_append_zeros (t : Text) (n : ℕ) : valueOf (t ++ zeros n) = valueOf t * 10 ^ n := by
  rw [valueOf_append t isDigit_of_mem_zeros, valueOf_zeros, List.length_replicate, Nat.add_zero]

end Json.Numeral

namespace Json

/-- A numeral with a minus sign in front. -/
theorem NumeralAt.negate {t rest : Text} {n : Numeral} (h : NumeralAt t n rest)
    (hn : n.negative = false) : NumeralAt (.char '-' :: t) { n with negative := true } rest := by
  cases h with
  | positive digits behind last => exact .negative digits behind last
  | negative => cases hn

end Json

namespace Text

open Json Json.Numeral

theorem isDigits_ofNat (n : ℕ) : IsDigits (ofNat n) := by
  refine ⟨fun h => Nat.toDigits_ne_nil (List.map_eq_nil_iff.mp h), fun c hc => ?_⟩
  obtain ⟨d, hd, rfl⟩ := List.mem_map.mp hc
  exact Nat.isDigit_of_mem_toDigits (by decide) (by decide) hd

/-- A number other than zero does not start with a zero. -/
theorem head?_ofNat_ne {n : ℕ} (hn : 0 < n) : (ofNat n).head? ≠ some (.char '0') := by
  induction n using Nat.strongRecOn with
  | ind n ih =>
    unfold ofNat ofChars at ih ⊢
    rw [Nat.toDigits_eq_if (by decide)]
    split
    · next hlt =>
      have digits : ∀ d < 10, 0 < d →
          ([Nat.digitChar d].map CodePoint.char).head? ≠ some (.char '0') := by decide
      exact digits n hlt hn
    · next hge =>
      have hpos : 0 < n / 10 := Nat.div_pos (Nat.le_of_not_lt hge) (by decide)
      have hlt : n / 10 < n := Nat.div_lt_self hn (by decide)
      rw [List.map_append, List.head?_append_of_ne_nil _ (by simp [Nat.toDigits_ne_nil])]
      exact ih _ hlt hpos

theorem isWholePart_ofNat (n : ℕ) : IsWholePart (ofNat n) := by
  refine ⟨isDigits_ofNat n, fun h => ?_⟩
  obtain rfl | hn := Nat.eq_zero_or_pos n
  · rfl
  · exact absurd h (head?_ofNat_ne hn)

/-- **A whole number is written as its numeral**, if it has no more digits
than a numeral may have. -/
theorem exists_numeral_ofInt {i : ℤ} (h : i.natAbs < 10 ^ maxDigits) :
    ∃ n : Numeral, n.value = .ok (.int i) ∧ ∀ rest, NumeralAt (ofInt i ++ rest) n rest := by
  have short : ∀ {n : ℕ}, n < 10 ^ maxDigits → ¬ maxDigits < (ofNat n).length := by
    intro n hn
    rw [ofNat, ofChars, List.length_map, Nat.not_lt]
    exact (Nat.length_toDigits_le_iff (by decide) (by decide)).mpr hn
  cases i with
  | ofNat n =>
    refine ⟨⟨false, ofNat n, [], none⟩, ?_, fun rest => .positive (isWholePart_ofNat n) .none .none⟩
    refine (if_pos rfl).trans ((if_neg (short h)).trans ?_)
    exact congrArg (fun k : ℕ => Except.ok (Json.int k)) (valueOf_ofNat n)
  | negSucc n =>
    refine ⟨⟨true, ofNat (n + 1), [], none⟩, ?_, fun rest =>
      .negative (isWholePart_ofNat (n + 1)) .none .none⟩
    refine (if_pos rfl).trans ((if_neg (short h)).trans ?_)
    exact congrArg (fun k : ℕ => Except.ok (Json.int (-k))) (valueOf_ofNat (n + 1))

end Text

namespace Decimal

open Json Json.Numeral

/-- **A text writes a value** if it is a numeral of that value, one without a
sign and with a point or an exponent. -/
def Writes (t : Text) (digits : ℕ) (e : ℤ) : Prop :=
  ∃ n : Numeral, n.negative = false ∧ n.isWhole = false
    ∧ (valueOf (n.whole ++ n.fraction) : ℚ) * 10 ^ (n.exponentValue - n.fraction.length)
      = digits * 10 ^ e
    ∧ ∀ rest, NumeralAt (t ++ rest) n rest

/-! ## Layouts -/

section Layout

variable {ds whole fraction : Text} {e : ℤ}

theorem isWholePart_of_head (h : IsDigits ds) (hhead : ds.head? ≠ some (.char '0')) :
    IsWholePart ds :=
  ⟨h, fun e => absurd e hhead⟩

/-- Digits on both sides of a point. -/
theorem writes_point {digits : ℕ} (hwhole : IsWholePart whole) (hfraction : IsDigits fraction)
    (hvalue : (valueOf (whole ++ fraction) : ℚ) * 10 ^ (-(fraction.length : ℤ)) = digits * 10 ^ e) :
    Writes (whole ++ ".".toText ++ fraction) digits e := by
  refine ⟨⟨false, whole, fraction, none⟩, rfl, ?_, ?_, fun rest => ?_⟩
  · obtain ⟨c, more, rfl⟩ := List.exists_cons_of_ne_nil hfraction.1
    rfl
  · rw [← hvalue, exponentValue, zero_sub]
  · rw [List.append_assoc, List.append_assoc]
    exact .positive hwhole (.some hfraction) .none

/-- Moving the point is multiplying by a power of ten. -/
theorem mul_ten_pow_mul (n k : ℕ) (e : ℤ) :
    ((n * 10 ^ k : ℕ) : ℚ) * 10 ^ e = n * 10 ^ (k + e) := by
  rw [zpow_add₀ (by norm_num), zpow_natCast, ← mul_assoc]
  push_cast
  rfl

theorem isDigits_zeros_append {n : ℕ} (h : IsDigits ds) : IsDigits (zeros n ++ ds) := by
  refine ⟨fun e => h.1 (List.append_eq_nil_iff.mp e).2, fun c hc => ?_⟩
  exact (List.mem_append.mp hc).elim (isDigit_of_mem_zeros c) (h.2 c)

/-- An exponent is a sign and digits, at least two of them. -/
theorem exists_exponent_writeExponent (e : ℤ) : ∃ x : Bool × Text,
    (∀ n : Numeral, n.exponent = some x → n.exponentValue = e)
      ∧ ∀ rest, Exponent ("e".toText ++ writeExponent e ++ rest) (some x) rest := by
  have digits := Text.isDigits_ofNat e.natAbs
  have padded : ∃ ds : Text, IsDigits ds ∧ valueOf ds = e.natAbs
      ∧ writeExponent e = (if e < 0 then .char '-' else .char '+') :: ds := by
    by_cases hshort : (Text.ofNat e.natAbs).length < 2
    · refine ⟨zeros 1 ++ Text.ofNat e.natAbs, isDigits_zeros_append digits, ?_, ?_⟩
      · rw [valueOf_zeros_append 1 digits.2, valueOf_ofNat]
      · exact congrArg _ (if_pos hshort)
    · exact ⟨_, digits, valueOf_ofNat _, congrArg _ (if_neg hshort)⟩
  obtain ⟨ds, hds, hvalue, htext⟩ := padded
  rw [htext]
  by_cases hneg : e < 0
  · refine ⟨(true, ds), ?_, fun rest => ?_⟩
    · rintro ⟨-, -, -, -⟩ rfl
      show -(valueOf ds : ℤ) = e
      omega
    · rw [if_pos hneg]
      exact .some (.inl rfl) .minus hds
  · refine ⟨(false, ds), ?_, fun rest => ?_⟩
    · rintro ⟨-, -, -, -⟩ rfl
      show (valueOf ds : ℤ) = e
      omega
    · rw [if_neg hneg]
      exact .some (.inl rfl) .plus hds

/-- A value below one: zeros in front, a single one of them before the point. -/
theorem writes_layout_below (h : IsDigits ds) {point : ℤ} (hneg : point < 0) :
    Writes ("0.".toText ++ zeros (-point - 1).toNat ++ ds) (valueOf ds)
      (point + 1 - ds.length) := by
  have hzeros := isDigits_zeros_append (n := (-point - 1).toNat) h
  have zero : IsWholePart "0".toText := ⟨⟨by decide, by decide⟩, fun _ => rfl⟩
  have text : "0.".toText ++ zeros (-point - 1).toNat ++ ds
      = "0".toText ++ ".".toText ++ (zeros (-point - 1).toNat ++ ds) := List.append_assoc _ _ _
  rw [text]
  refine writes_point zero hzeros ?_
  rw [show "0".toText = zeros 1 from rfl, valueOf_zeros_append 1 hzeros.2,
    valueOf_zeros_append _ h.2, List.length_append, List.length_replicate]
  congr 2
  omega

/-- A value with `w + 1` places in front of the point. -/
theorem writes_layout_above (h : IsDigits ds) (hhead : ds.head? ≠ some (.char '0')) (w : ℕ) :
    Writes (ds.take (w + 1) ++ zeros (w + 1 - ds.length) ++ ".".toText
        ++ if (ds.drop (w + 1)).isEmpty then "0".toText else ds.drop (w + 1))
      (valueOf ds) ((w : ℤ) + 1 - ds.length) := by
  have front : IsWholePart (ds.take (w + 1)) := by
    refine isWholePart_of_head ⟨?_, fun c hc => h.2 c (List.mem_of_mem_take hc)⟩ ?_
    · simp [List.take_eq_nil_iff, h.1]
    · rwa [List.head?_take, if_neg (Nat.succ_ne_zero w)]
  by_cases hlong : w + 1 < ds.length
  -- the point stands between the digits
  · have hne : ds.drop (w + 1) ≠ [] := by simpa using hlong
    rw [if_neg (fun e => hne (List.isEmpty_iff.mp e)), Nat.sub_eq_zero_of_le hlong.le,
      zeros, List.replicate_zero, List.append_nil]
    refine writes_point front ⟨hne, fun c hc => h.2 c (List.mem_of_mem_drop hc)⟩ ?_
    rw [List.take_append_drop, List.length_drop]
    congr 2
    omega
  -- the digits end in front of the point, and zeros fill up to it
  · have hnil : ds.drop (w + 1) = [] := by simpa using hlong
    rw [hnil, List.take_of_length_le (Nat.not_lt.mp hlong), if_pos List.isEmpty_nil]
    have head : (ds ++ zeros (w + 1 - ds.length)).head? ≠ some (.char '0') := by
      rwa [List.head?_append_of_ne_nil _ h.1]
    have digits : IsDigits (ds ++ zeros (w + 1 - ds.length)) :=
      ⟨List.append_ne_nil_of_left_ne_nil h.1 _, fun c hc =>
        (List.mem_append.mp hc).elim (h.2 c) (isDigit_of_mem_zeros c)⟩
    refine writes_point (isWholePart_of_head digits head) ⟨by decide, by decide⟩ ?_
    rw [show "0".toText = zeros 1 from rfl, valueOf_append_zeros, valueOf_append_zeros,
      Nat.mul_assoc, ← Nat.pow_add, mul_ten_pow_mul, List.length_replicate]
    congr 2
    omega

/-- One digit in front of the point and an exponent. -/
theorem writes_layout_scientific {d : CodePoint} {more : Text} (h : IsDigits (d :: more))
    (hhead : (d :: more).head? ≠ some (.char '0')) (point : ℤ) :
    Writes ([d] ++ (if more.isEmpty then [] else .char '.' :: more) ++ "e".toText
      ++ writeExponent point) (valueOf (d :: more)) (point + 1 - (d :: more).length) := by
  have first : IsWholePart [d] :=
    isWholePart_of_head ⟨List.cons_ne_nil _ _, fun c hc =>
      h.2 c (List.mem_cons.mpr (.inl (List.mem_singleton.mp hc)))⟩ hhead
  obtain ⟨x, hvalue, hexponent⟩ := exists_exponent_writeExponent point
  refine ⟨⟨false, [d], more, some x⟩, rfl, Bool.and_false _, ?_, fun rest => ?_⟩
  · rw [hvalue _ rfl]
    dsimp only [List.singleton_append, List.length_cons]
    congr 2
    push_cast
    ring
  · rw [List.append_assoc, List.append_assoc, List.append_assoc, ← List.append_assoc "e".toText]
    refine .positive first ?_ (hexponent rest)
    cases more with
    | nil => exact .none
    | cons c more =>
      exact .some ⟨List.cons_ne_nil _ _, fun b hb => h.2 b (List.mem_cons_of_mem _ hb)⟩

/-- **Every way of laying out digits keeps their value.** -/
theorem writes_layout (h : IsDigits ds) (hhead : ds.head? ≠ some (.char '0')) (point : ℤ) :
    Writes (layout ds point) (valueOf ds) (point + 1 - ds.length) := by
  unfold layout
  split
  · split
    · next hneg => exact writes_layout_below h hneg
    · next hnonneg =>
      obtain ⟨w, rfl⟩ := Int.eq_ofNat_of_zero_le (Int.not_lt.mp hnonneg)
      exact writes_layout_above h hhead w
  · obtain ⟨d, more, rfl⟩ := List.exists_cons_of_ne_nil h.1
    exact writes_layout_scientific h hhead point

end Layout

/-! ## Decimals -/

theorem eq_append_zeros (ds : Text) :
    ds = (trimZeros ds).1 ++ zeros (trimZeros ds).2 := by
  have split : ds = (ds.reverse.dropWhile (· == .char '0')).reverse
      ++ (ds.reverse.takeWhile (· == .char '0')).reverse := by
    rw [← List.reverse_append, List.takeWhile_append_dropWhile, List.reverse_reverse]
  have zero : (ds.reverse.takeWhile (· == .char '0')).reverse = zeros (trimZeros ds).2 := by
    refine List.eq_replicate_iff.mpr ⟨?_, fun c hc => ?_⟩
    · have length := congrArg List.length split
      rw [List.length_append] at length
      exact Nat.eq_sub_of_add_eq' length.symm
    · exact beq_iff_eq.mp (List.all_eq_true.mp List.all_takeWhile c (List.mem_reverse.mp hc))
  rw [← zero]
  exact split

/-- **A decimal is written as a numeral of its value.** -/
theorem writes_write (d : Decimal) : Writes d.write d.digits d.exponent := by
  unfold write
  split
  · next hzero =>
    have zero : IsWholePart "0".toText := ⟨⟨by decide, by decide⟩, fun _ => rfl⟩
    show Writes ("0".toText ++ ".".toText ++ "0".toText) _ _
    refine writes_point zero zero.1 ?_
    have value : valueOf ("0".toText ++ "0".toText) = 0 := valueOf_zeros 2
    rw [value, hzero, Nat.cast_zero, zero_mul, zero_mul]
  · next hpos =>
    have hpos := Nat.pos_of_ne_zero hpos
    have digits := Text.isDigits_ofNat d.digits
    have head := Text.head?_ofNat_ne hpos
    have value := valueOf_ofNat d.digits
    dsimp only
    have split := eq_append_zeros (Text.ofNat d.digits)
    generalize Text.ofNat d.digits = all at split digits head value ⊢
    generalize (trimZeros all).1 = kept at split ⊢
    generalize (trimZeros all).2 = k at split
    subst split
    -- the zeros that are cut off are no digits in front, since the first digit is no zero
    have hne : kept ≠ [] := by
      rintro rfl
      rw [List.nil_append] at value
      exact hpos.ne' (value ▸ valueOf_zeros k)
    have hkept : IsDigits kept := ⟨hne, fun c hc => digits.2 c (List.mem_append_left _ hc)⟩
    rw [List.head?_append_of_ne_nil _ hne] at head
    obtain ⟨n, hn, hpoint, heq, hat⟩ :=
      writes_layout hkept head (d.exponent + (kept ++ zeros k).length - 1)
    refine ⟨n, hn, hpoint, heq.trans ?_, hat⟩
    rw [← value, valueOf_append_zeros, mul_ten_pow_mul, List.length_append, List.length_replicate]
    congr 2
    push_cast
    ring

/-- The expansion of a double has its value. -/
theorem value_expansion (m : ℕ) (e : ℤ) :
    ((expansion m e).digits : ℚ) * 10 ^ (expansion m e).exponent = m * 2 ^ e := by
  unfold expansion
  split
  · next he =>
    obtain ⟨n, rfl⟩ := Int.eq_ofNat_of_zero_le he
    simp [Nat.pow_eq]
  · next he =>
    obtain ⟨n, rfl⟩ := Int.exists_eq_neg_ofNat (Int.le_of_not_le he)
    have ten : (10 : ℚ) ^ n = 5 ^ n * 2 ^ n := by rw [← mul_pow]; norm_num
    dsimp only
    rw [neg_neg, Int.toNat_natCast, Nat.pow_eq, zpow_neg, zpow_neg, zpow_natCast, zpow_natCast, ten]
    push_cast
    field_simp

end Decimal

namespace Binary64

open Json Json.Numeral Decimal

/-- **The shortest numeral of a canonical double reads as it.** -/
theorem ofDecimal_shortest {negative : Bool} {m : ℕ} {e : ℤ}
    (h : (finite negative m e).IsCanonical) :
    ofDecimal negative (shortest m e).digits (shortest m e).exponent = finite negative m e := by
  obtain hreads | hexact := readsAs_shortest_or m e
  · exact ofDecimal_eq_finite (beq_iff_eq.mp hreads)
  · rw [hexact]
    exact ofDecimal_eq_of_value h (value_expansion m e)

/-- **A canonical double is written as a numeral that reads as it.** -/
theorem exists_numeral_write {d : Binary64} (h : d.IsCanonical) (hd : d.isFinite = true) :
    ∃ n : Numeral, n.value = .ok (.double d) ∧ ∀ rest, NumeralAt (d.write ++ rest) n rest := by
  cases d with
  | infinite => cases hd
  | nan => cases hd
  | finite negative m e =>
    obtain ⟨n, hn, hpoint, hvalue, hat⟩ := writes_write (shortest m e)
    have reads := (ofDecimal_congr hvalue).trans (ofDecimal_shortest h)
    cases negative with
    | false =>
      refine ⟨n, ?_, hat⟩
      rw [value, if_neg (by rw [hpoint]; exact Bool.false_ne_true), hn, reads]
    | true =>
      refine ⟨{ n with negative := true }, ?_, fun rest => (hat rest).negate hn⟩
      exact (if_neg (show ¬ n.isWhole = true by rw [hpoint]; exact Bool.false_ne_true)).trans
        (congrArg (fun d => Except.ok (Json.double d)) reads)

end Binary64

end CortexCall
