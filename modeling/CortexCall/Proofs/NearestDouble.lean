import Mathlib.Data.Rat.Cast.Order
import Mathlib.Algebra.Order.Field.Power
import Mathlib.Tactic.FieldSimp
import Mathlib.Tactic.Linarith
import Mathlib.Tactic.NormNum
import Mathlib.Tactic.Positivity
import Mathlib.Tactic.Ring
import CortexCall.Decimal.Binary64

/-!
# The double nearest to a quotient

Reading a numeral works on two naturals, and what it finds depends on their
quotient only. That is seen step by step: the binade is where the quotient
lies between powers of two, the grid follows from the binade, and the nearest
point of the grid from the quotient on it – `ofRatio_congr`. The guards that
keep absurd exponents from being multiplied out are shortcuts, so that of a
decimal numeral, too, only the value counts: `ofDecimal_congr`.

What is found is a double in its **canonical** form, with a significand that
fills its bits unless the exponent is the least there is. A canonical double
lies on its own grid, so that whatever has its value reads as this double and
no other: `ofDecimal_eq_of_value`.
-/

namespace CortexCall.Binary64

/-- **The form in which doubles are read**: the significand has fifty-three
bits, fewer only on the finest grid. -/
def IsCanonical : Binary64 → Prop
  | .finite _ m e =>
    m < 2 ^ 53 ∧ minExponent ≤ e ∧ e ≤ maxExponent ∧ (2 ^ 52 ≤ m ∨ e = minExponent)
  | _ => True

/-! ## The nearest integer -/

section Nearest

variable {num den num' den' n : ℕ}

theorem nearest_mul_mul {k : ℕ} (hk : 0 < k) (num den : ℕ) :
    nearest (num * k) (den * k) = nearest num den := by
  have below : 2 * (num % den * k) < den * k ↔ 2 * (num % den) < den := by
    rw [← Nat.mul_assoc]
    exact Nat.mul_lt_mul_right hk
  have above : den * k < 2 * (num % den * k) ↔ den < 2 * (num % den) := by
    rw [← Nat.mul_assoc]
    exact Nat.mul_lt_mul_right hk
  unfold nearest
  rw [Nat.mul_div_mul_right _ _ hk, Nat.mul_mod_mul_right]
  simp only [below, above]

/-- **The nearest integer is that of the quotient.** -/
theorem nearest_congr (hden : 0 < den) (hden' : 0 < den')
    (h : (num : ℚ) / den = num' / den') : nearest num den = nearest num' den' := by
  have cross : num * den' = num' * den := by
    rw [div_eq_div_iff (by positivity) (by positivity)] at h
    exact_mod_cast h
  calc nearest num den = nearest (num * den') (den * den') := (nearest_mul_mul hden' _ _).symm
    _ = nearest (num' * den) (den' * den) := by rw [cross, Nat.mul_comm den]
    _ = nearest num' den' := nearest_mul_mul hden _ _

theorem le_nearest (hden : 0 < den) (h : (n : ℚ) ≤ num / den) : n ≤ nearest num den := by
  have le : n * den ≤ num := by
    rw [le_div_iff₀ (by positivity)] at h
    exact_mod_cast h
  have floor : n ≤ num / den := (Nat.le_div_iff_mul_le hden).mpr le
  unfold nearest
  split
  · exact floor
  · split
    · exact Nat.le_succ_of_le floor
    · exact Nat.le_add_right_of_le floor

theorem nearest_le (hden : 0 < den) (h : (num : ℚ) / den ≤ n) : nearest num den ≤ n := by
  have le : num ≤ n * den := by
    rw [div_le_iff₀ (by positivity)] at h
    exact_mod_cast h
  have floor : num / den ≤ n := Nat.div_le_of_le_mul (by rwa [Nat.mul_comm])
  unfold nearest
  split
  · exact floor
  · next hbelow =>
    -- a remainder is left, so the quotient is below the integer
    have lt : num / den < n := by
      refine lt_of_le_of_ne floor fun e => hbelow ?_
      have split := Nat.div_add_mod num den
      rw [e, Nat.mul_comm] at split
      omega
    split
    · exact lt
    · have := Nat.mod_lt (num / den) Nat.two_pos
      omega

theorem nearest_eq_zero (h : 2 * num < den) : nearest num den = 0 := by
  have lt : num < den := by omega
  rw [nearest, Nat.mod_eq_of_lt lt, if_pos h, Nat.div_eq_of_lt lt]

end Nearest

/-! ## The grid -/

section Grid

variable {num den num' den' : ℕ} {e e' : ℤ}

theorem two_zpow_pos (e : ℤ) : (0 : ℚ) < 2 ^ e := by positivity

/-- Powers of two are told apart by what lies between them. -/
theorem lt_of_two_zpow_lt {q : ℚ} (h : 2 ^ e ≤ q) (h' : q < 2 ^ e') : e < e' :=
  (zpow_lt_zpow_iff_right₀ (by norm_num : (1 : ℚ) < 2)).mp (lt_of_le_of_lt h h')

/-- **The binade is where the quotient lies** between powers of two. -/
theorem binade_spec (hnum : 0 < num) (hden : 0 < den) :
    (2 : ℚ) ^ binade num den ≤ num / den ∧ (num : ℚ) / den < 2 ^ (binade num den + 1) := by
  unfold binade
  split
  · next hle =>
    have hne : num / den ≠ 0 := (Nat.div_pos hle hden).ne'
    have lower := Nat.log2_self_le hne
    have upper := Nat.lt_log2_self (n := num / den)
    rw [Nat.le_div_iff_mul_le hden] at lower
    rw [Nat.div_lt_iff_lt_mul hden] at upper
    constructor
    · rw [le_div_iff₀ (by positivity), zpow_natCast]
      exact_mod_cast lower
    · rw [div_lt_iff₀ (by positivity), ← Nat.cast_succ, zpow_natCast]
      exact_mod_cast upper
  · next hlt =>
    -- below one it is the inverse that has a logarithm
    have hlt : num ≤ den - 1 := by omega
    have hne : (den - 1) / num ≠ 0 := (Nat.div_pos hlt hnum).ne'
    have lower := Nat.log2_self_le hne
    have upper := Nat.lt_log2_self (n := (den - 1) / num)
    rw [Nat.le_div_iff_mul_le hnum] at lower
    rw [Nat.div_lt_iff_lt_mul hnum] at upper
    generalize ((den - 1) / num).log2 = l at lower upper
    have lower : 2 ^ l * num < den := by omega
    have upper : den ≤ 2 ^ (l + 1) * num := by omega
    constructor
    · rw [zpow_neg, zpow_natCast, inv_le_iff_one_le_mul₀ (by positivity), ← mul_div_right_comm,
        le_div_iff₀ (by positivity), one_mul, mul_comm]
      exact_mod_cast upper
    · have exponent : -((l + 1 : ℕ) : ℤ) + 1 = -(l : ℤ) := by push_cast; ring
      rw [exponent, zpow_neg, zpow_natCast, lt_inv_comm₀ (by positivity) (by positivity), inv_div,
        lt_div_iff₀ (by positivity)]
      exact_mod_cast lower

theorem binade_congr (hnum : 0 < num) (hden : 0 < den) (hnum' : 0 < num') (hden' : 0 < den')
    (h : (num : ℚ) / den = num' / den') : binade num den = binade num' den' := by
  obtain ⟨lower, upper⟩ := binade_spec hnum hden
  obtain ⟨lower', upper'⟩ := binade_spec hnum' hden'
  rw [h] at lower upper
  have := lt_of_two_zpow_lt lower upper'
  have := lt_of_two_zpow_lt lower' upper
  omega

theorem scaled_den_pos (hden : 0 < den) (num : ℕ) (e : ℤ) : 0 < (scaled num den e).2 := by
  unfold scaled
  split
  · exact Nat.mul_pos hden (Nat.pow_pos Nat.two_pos)
  · exact hden

/-- **Scaling divides the quotient** by the distance between points of the
grid. -/
theorem scaled_div (num den : ℕ) (e : ℤ) :
    ((scaled num den e).1 : ℚ) / (scaled num den e).2 = num / den / 2 ^ e := by
  unfold scaled
  split
  · next he =>
    obtain ⟨n, rfl⟩ := Int.eq_ofNat_of_zero_le he
    rw [Int.toNat_natCast, Nat.pow_eq, zpow_natCast, div_div]
    push_cast
    rfl
  · next he =>
    obtain ⟨n, rfl⟩ := Int.exists_eq_neg_ofNat (Int.le_of_not_le he)
    rw [neg_neg, Int.toNat_natCast, Nat.pow_eq, zpow_neg, zpow_natCast, div_inv_eq_mul]
    push_cast
    exact mul_div_right_comm _ _ _

/-- **The double nearest to a quotient** depends on the quotient only. -/
theorem ofRatio_congr (hnum : 0 < num) (hden : 0 < den) (hnum' : 0 < num') (hden' : 0 < den')
    (h : (num : ℚ) / den = num' / den') (negative : Bool) :
    ofRatio negative num den = ofRatio negative num' den' := by
  have grid : gridExponent num den = gridExponent num' den' := by
    rw [gridExponent, binade_congr hnum hden hnum' hden' h, gridExponent]
  have point : nearest (scaled num den (gridExponent num' den')).1
        (scaled num den (gridExponent num' den')).2
      = nearest (scaled num' den' (gridExponent num' den')).1
        (scaled num' den' (gridExponent num' den')).2 := by
    refine nearest_congr (scaled_den_pos hden _ _) (scaled_den_pos hden' _ _) ?_
    rw [scaled_div, scaled_div, h]
  unfold ofRatio
  dsimp only
  rw [grid, point]

/-- **The nearest double is canonical**, or infinite. -/
theorem isCanonical_ofRatio (hnum : 0 < num) (hden : 0 < den) (negative : Bool) :
    (ofRatio negative num den).IsCanonical := by
  have hb := binade_spec hnum hden
  have hscaled := scaled_div num den (gridExponent num den)
  have hpos := scaled_den_pos hden num (gridExponent num den)
  have hmin : minExponent ≤ gridExponent num den := le_max_left _ _
  have hgrid : binade num den + 1 ≤ gridExponent num den + 53 := by
    have : binade num den - 52 ≤ gridExponent num den := le_max_right _ _
    omega
  unfold ofRatio
  dsimp only
  generalize hg : gridExponent num den = g at *
  have hle : nearest (scaled num den g).1 (scaled num den g).2 ≤ 2 ^ 53 := by
    refine nearest_le hpos ?_
    rw [hscaled, div_le_iff₀ (two_zpow_pos g)]
    calc (num : ℚ) / den ≤ 2 ^ (binade num den + 1) := hb.2.le
      _ ≤ 2 ^ (53 + g) := zpow_le_zpow_right₀ (by norm_num) (by omega)
      _ = ((2 ^ 53 : ℕ) : ℚ) * 2 ^ g := by
        rw [zpow_add₀ (by norm_num)]
        norm_num
  split
  -- a significand that rounds up belongs to the next grid
  · unfold ofParts
    split
    · trivial
    · exact ⟨by decide, by omega, by omega, .inl (by decide)⟩
  · next hne =>
    unfold ofParts
    split
    · trivial
    · refine ⟨lt_of_le_of_ne hle hne, hmin, by omega, ?_⟩
      by_cases hfine : g = minExponent
      · exact .inr hfine
      · have hg' : g = binade num den - 52 :=
          hg ▸ (max_choice _ _).resolve_left fun e => hfine (hg ▸ e)
        refine .inl (le_nearest hpos ?_)
        rw [hscaled, le_div_iff₀ (two_zpow_pos g)]
        calc ((2 ^ 52 : ℕ) : ℚ) * 2 ^ g = 2 ^ (52 + g) := by
              rw [zpow_add₀ (by norm_num)]
              norm_num
          _ = 2 ^ binade num den := by
              rw [hg']
              ring_nf
          _ ≤ num / den := hb.1

/-- **A canonical double is the nearest one to its own value.** -/
theorem ofRatio_eq_of_value {negative : Bool} {m : ℕ} {e : ℤ}
    (h : (finite negative m e).IsCanonical) (hm : 0 < m) (hden : 0 < den)
    (hvalue : (num : ℚ) / den = m * 2 ^ e) : ofRatio negative num den = .finite negative m e := by
  obtain ⟨hlt, hmin, hmax, hfull⟩ := h
  have hvaluePos : (0 : ℚ) < num / den := by
    rw [hvalue]
    positivity
  have hnum : 0 < num := by
    rw [div_pos_iff_of_pos_right (by positivity)] at hvaluePos
    exact_mod_cast hvaluePos
  obtain ⟨lower, upper⟩ := binade_spec hnum hden
  have hupper : (num : ℚ) / den < 2 ^ (53 + e) := by
    rw [hvalue, zpow_add₀ (by norm_num)]
    have : (m : ℚ) < 2 ^ 53 := by exact_mod_cast hlt
    exact mul_lt_mul_of_pos_right this (two_zpow_pos e)
  have hbinade := lt_of_two_zpow_lt lower hupper
  have hgrid : gridExponent num den = e := by
    unfold gridExponent
    obtain hfull | hfine := hfull
    · have hlower : (2 : ℚ) ^ (52 + e) ≤ num / den := by
        rw [hvalue, zpow_add₀ (by norm_num)]
        have : (2 : ℚ) ^ 52 ≤ m := by exact_mod_cast hfull
        exact mul_le_mul_of_nonneg_right this (two_zpow_pos e).le
      have := lt_of_two_zpow_lt hlower upper
      omega
    · omega
  have hpoint : ((scaled num den e).1 : ℚ) / (scaled num den e).2 = m := by
    rw [scaled_div, hvalue, mul_div_assoc, div_self (two_zpow_pos e).ne', mul_one]
  have hpos := scaled_den_pos hden num e
  have hnearest : nearest (scaled num den e).1 (scaled num den e).2 = m :=
    le_antisymm (nearest_le hpos hpoint.le) (le_nearest hpos hpoint.ge)
  unfold ofRatio
  dsimp only
  rw [hgrid, hnearest, if_neg (show m ≠ Nat.pow 2 53 from hlt.ne), ofParts, if_neg (by omega)]

end Grid

/-! ## Decimal numerals -/

section Decimal

variable {negative : Bool} {digits digits' : ℕ} {e e' : ℤ}

/-- The value of a decimal numeral as the quotient that it is read as. -/
theorem decimal_value (digits : ℕ) (e : ℤ) :
    ((digits * 10 ^ e.toNat : ℕ) : ℚ) / (10 ^ (-e).toNat : ℕ) = digits * 10 ^ e := by
  obtain ⟨n, rfl | rfl⟩ := e.eq_nat_or_neg
  · simp
  · simp [div_eq_mul_inv]

/-- A quotient beyond the coarsest grid has no finite double. -/
theorem ofRatio_eq_infinite {num den : ℕ} (hnum : 0 < num) (hden : 0 < den)
    (h : (2 : ℚ) ^ (1029 : ℤ) ≤ num / den) : ofRatio negative num den = .infinite negative := by
  have hbinade := lt_of_two_zpow_lt h (binade_spec hnum hden).2
  have hgrid : binade num den - 52 ≤ gridExponent num den := le_max_right _ _
  have hmax : maxExponent = 971 := rfl
  unfold ofRatio ofParts
  dsimp only
  split
  · rw [if_pos (by omega)]
  · rw [if_pos (by omega)]

/-- A quotient far below the finest grid is nearest to zero. -/
theorem ofRatio_eq_zero {num den : ℕ} (hnum : 0 < num) (hden : 0 < den)
    (h : (num : ℚ) / den < 2 ^ (-1075 : ℤ)) : ofRatio negative num den = zero negative := by
  have hbinade := lt_of_two_zpow_lt (binade_spec hnum hden).1 h
  have hmin : minExponent = -1074 := rfl
  have hgrid : gridExponent num den = minExponent := by
    unfold gridExponent
    omega
  have hpoint : nearest (scaled num den minExponent).1 (scaled num den minExponent).2 = 0 := by
    refine nearest_eq_zero ?_
    have hpos : (0 : ℚ) < (scaled num den minExponent).2 := by
      exact_mod_cast scaled_den_pos hden num minExponent
    have hlt : ((scaled num den minExponent).1 : ℚ) / (scaled num den minExponent).2 < 1 / 2 := by
      rw [scaled_div, div_lt_iff₀ (two_zpow_pos _), hmin]
      calc (num : ℚ) / den < 2 ^ (-1075 : ℤ) := h
        _ = 1 / 2 * 2 ^ (-1074 : ℤ) := by
          rw [show (-1075 : ℤ) = -1 + -1074 from rfl, zpow_add₀ (by norm_num)]
          norm_num
    rw [div_lt_iff₀ hpos] at hlt
    have : (2 : ℚ) * (scaled num den minExponent).1 < (scaled num den minExponent).2 := by linarith
    exact_mod_cast this
  unfold ofRatio
  dsimp only
  rw [hgrid, hpoint]
  rfl

/-- The powers between which the guards of the reader lie. -/
theorem two_zpow_le_ten_zpow : (2 : ℚ) ^ (1029 : ℤ) ≤ 10 ^ (310 : ℤ) := by
  have h : 2 ^ 1029 ≤ 10 ^ 310 := by decide +kernel
  exact_mod_cast h

theorem ten_zpow_lt_two_zpow : 2 * (10 : ℚ) ^ (-333 : ℤ) < 2 ^ (-1075 : ℤ) := by
  have h : 2 * 2 ^ 1075 < 10 ^ 333 := by decide +kernel
  have h : (2 : ℚ) * 2 ^ 1075 < 10 ^ 333 := by exact_mod_cast h
  rw [zpow_neg, zpow_neg, ← div_eq_mul_inv, ← one_div, div_lt_div_iff₀ (by positivity)
    (by positivity), one_mul]
  exact h

/-- **The guards of the reader are shortcuts**: a numeral reads as the double
nearest to its value. -/
theorem ofDecimal_eq_ofRatio (hdigits : 0 < digits) (e : ℤ) :
    ofDecimal negative digits e
      = ofRatio negative (digits * 10 ^ e.toNat) (10 ^ (-e).toNat) := by
  have hnum : 0 < digits * 10 ^ e.toNat := by positivity
  have hden : 0 < 10 ^ (-e).toNat := by positivity
  unfold ofDecimal
  rw [if_neg hdigits.ne']
  split
  · next he =>
    refine (ofRatio_eq_infinite hnum hden ?_).symm
    have hone : (1 : ℚ) ≤ digits := by exact_mod_cast hdigits
    rw [decimal_value]
    calc (2 : ℚ) ^ (1029 : ℤ) ≤ 10 ^ (310 : ℤ) := two_zpow_le_ten_zpow
      _ ≤ 10 ^ e := zpow_le_zpow_right₀ (by norm_num) he
      _ ≤ digits * 10 ^ e := le_mul_of_one_le_left (by positivity) hone
  · split
    · next he =>
      rw [Int.toNat_of_nonpos (by omega : -e ≤ 0), pow_zero]
      rfl
    · next he =>
      split
      · next hsmall =>
        refine (ofRatio_eq_zero hnum hden ?_).symm
        rw [decimal_value]
        have hlog : (digits : ℚ) < 2 ^ (digits.log2 + 1) := by
          exact_mod_cast Nat.lt_log2_self (n := digits)
        generalize digits.log2 = l at hlog hsmall
        have hpow : (2 : ℚ) ^ l ≤ 10 ^ l := pow_le_pow_left₀ (by norm_num) (by norm_num) l
        calc (digits : ℚ) * 10 ^ e ≤ 2 ^ (l + 1) * 10 ^ (-l + -333 : ℤ) :=
              mul_le_mul hlog.le (zpow_le_zpow_right₀ (by norm_num) (by omega)) (by positivity)
                (by positivity)
          _ ≤ 10 ^ l * 2 * 10 ^ (-l + -333 : ℤ) := by
              rw [pow_succ]
              gcongr
          _ = 2 * 10 ^ (-333 : ℤ) := by
              rw [zpow_add₀ (by norm_num), zpow_neg, zpow_natCast]
              field_simp
          _ < 2 ^ (-1075 : ℤ) := ten_zpow_lt_two_zpow
      · rw [Int.toNat_of_nonpos (by omega : e ≤ 0), pow_zero, Nat.mul_one]
        rfl

/-- **Of a numeral only its value counts.** -/
theorem ofDecimal_congr (h : (digits : ℚ) * 10 ^ e = digits' * 10 ^ e') :
    ofDecimal negative digits e = ofDecimal negative digits' e' := by
  have zero_iff : digits = 0 ↔ digits' = 0 := by
    have hten : ∀ n : ℤ, (10 : ℚ) ^ n ≠ 0 := fun n => (zpow_pos (by norm_num) n).ne'
    rw [← Nat.cast_eq_zero (R := ℚ), ← mul_eq_zero_iff_right (hten e), h,
      mul_eq_zero_iff_right (hten e'), Nat.cast_eq_zero]
  obtain rfl | hdigits := Nat.eq_zero_or_pos digits
  · rw [zero_iff.mp rfl, ofDecimal_zero, ofDecimal_zero]
  · have hdigits' : 0 < digits' := Nat.pos_of_ne_zero fun h' => hdigits.ne' (zero_iff.mpr h')
    rw [ofDecimal_eq_ofRatio hdigits, ofDecimal_eq_ofRatio hdigits']
    refine ofRatio_congr (by positivity) (by positivity) (by positivity) (by positivity) ?_ _
    rw [decimal_value, decimal_value, h]

/-- **What is read is canonical.** -/
theorem isCanonical_ofDecimal (negative : Bool) (digits : ℕ) (e : ℤ) :
    (ofDecimal negative digits e).IsCanonical := by
  obtain rfl | hdigits := Nat.eq_zero_or_pos digits
  · exact ⟨by decide, by decide, by decide, .inr rfl⟩
  · rw [ofDecimal_eq_ofRatio hdigits]
    exact isCanonical_ofRatio (by positivity) (by positivity) negative

/-- **A numeral that has the value of a canonical double reads as it.** -/
theorem ofDecimal_eq_of_value {m : ℕ} (h : (finite negative m e').IsCanonical)
    (hvalue : (digits : ℚ) * 10 ^ e = m * 2 ^ e') :
    ofDecimal negative digits e = finite negative m e' := by
  obtain rfl | hm := Nat.eq_zero_or_pos m
  · -- there is one canonical zero
    obtain rfl : e' = minExponent := h.2.2.2.resolve_left (by decide)
    rw [Nat.cast_zero, zero_mul, mul_eq_zero, Nat.cast_eq_zero] at hvalue
    obtain rfl := hvalue.resolve_right (zpow_pos (by norm_num) e).ne'
    rfl
  · have hdigits : 0 < digits := by
      refine Nat.pos_of_ne_zero fun h' => ?_
      have hpos : (0 : ℚ) < m * 2 ^ e' := by positivity
      rw [← hvalue, h', Nat.cast_zero, zero_mul] at hpos
      exact lt_irrefl _ hpos
    rw [ofDecimal_eq_ofRatio hdigits]
    refine ofRatio_eq_of_value h hm (by positivity) ?_
    rw [decimal_value, hvalue]

/-- **The sign of a numeral is the sign of the double** and nothing else. -/
theorem ofDecimal_eq_finite {negative' : Bool} {m : ℕ}
    (h : ofDecimal negative digits e = finite negative m e') :
    ofDecimal negative' digits e = finite negative' m e' := by
  have parts : ∀ {m' : ℕ} {g : ℤ}, ofParts negative m' g = finite negative m e' →
      ofParts negative' m' g = finite negative' m e' := by
    intro m' g h
    unfold ofParts at h ⊢
    split at h
    · cases h
    · next hg =>
      rw [if_neg hg]
      cases h
      rfl
  obtain rfl | hdigits := Nat.eq_zero_or_pos digits
  · rw [ofDecimal_zero] at h ⊢
    cases h
    rfl
  · rw [ofDecimal_eq_ofRatio hdigits] at h ⊢
    unfold ofRatio at h ⊢
    dsimp only at h ⊢
    split at h
    · next hm =>
      rw [if_pos hm]
      exact parts h
    · next hm =>
      rw [if_neg hm]
      exact parts h

end Decimal

end CortexCall.Binary64
