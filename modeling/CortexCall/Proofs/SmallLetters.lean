import CortexCall.Text.Case
import CortexCall.Proofs.CheckedValue

/-!
# Small letters stay small

Putting a text in small letters twice is doing it once: `lower_lower`. The
only rule that looks around is the one for the capital sigma, and no sigma is
left after it, so that the matter is one of single characters: what a small
form consists of has no other small form. For the letters beyond ASCII this is
a property of the table. It is not looked up letter by letter: the rows are
stretches, their images are again stretches, and an image is **apart** from
every stretch of characters that have a small form – `image_isApart`.

Since white space is no letter, and no letter becomes white space, a text
without blanks around it has none around its small form either:
`strip_lower`.
-/

namespace CortexCall.Text

/-! ## Stretches -/

namespace CaseRow

/-- The stretch of the other case. -/
def image (r : CaseRow) : CaseRow := ⟨r.shift r.first, r.shift r.last, r.step, 0⟩

/-- Whether two stretches have no code point in common, seen from their ends or
from one of them being even and the other odd. -/
def isApart (r s : CaseRow) : Bool :=
  Nat.blt r.last s.first || Nat.blt s.last r.first
    || (s.step == 2 && (r.step == 2 || r.first == r.last) && (r.first + s.first) % 2 == 1)

variable {r s : CaseRow} {n : ℕ}

theorem contains_iff : r.contains n = true ↔
    r.first ≤ n ∧ n ≤ r.last ∧ (n - r.first) % r.step = 0 := by
  simp [contains, and_assoc]

/-- The other case of a code point is in the stretch of the other case. -/
theorem contains_image (h : r.contains n = true) (hr : 0 ≤ r.first + r.distance) :
    r.image.contains (r.shift n) = true := by
  obtain ⟨hfirst, hlast, hstep⟩ := contains_iff.mp h
  refine contains_iff.mpr ⟨?_, ?_, ?_⟩
  · show (r.first + r.distance).toNat ≤ (n + r.distance).toNat
    omega
  · show (n + r.distance).toNat ≤ (r.last + r.distance).toNat
    omega
  · show ((n + r.distance).toNat - (r.first + r.distance).toNat) % r.step = 0
    have same : (n + r.distance).toNat - (r.first + r.distance).toNat = n - r.first := by omega
    rw [same, hstep]

/-- **Stretches that are apart have no code point in common.** -/
theorem contains_eq_false (h : r.isApart s = true) (hr : r.contains n = true) :
    s.contains n = false := by
  refine eq_false_of_ne_true fun hs => ?_
  obtain ⟨hfirst, hlast, hstep⟩ := contains_iff.mp hr
  obtain ⟨hfirst', hlast', hstep'⟩ := contains_iff.mp hs
  simp only [isApart, Bool.or_eq_true, Bool.and_eq_true, Nat.blt_eq, beq_iff_eq] at h
  obtain (h | h) | ⟨⟨heven, hparity⟩, hodd⟩ := h
  · omega
  · omega
  · rw [heven] at hstep'
    obtain h | h := hparity
    · rw [h] at hstep
      omega
    · omega

end CaseRow

/-! ## Small forms -/

/-- The stretches of characters that have a small form, the capital sigma and
the dotted capital among them. -/
def capitalRows : List CaseRow :=
  ⟨0x41, 0x5A, 1, 32⟩ :: ⟨0x0130, 0x0130, 1, 0⟩ :: ⟨0x03A3, 0x03A3, 1, 0⟩ :: lowerRows

/-- The stretches of white space. -/
def blankRows : List CaseRow := blankRanges.map fun p => ⟨p.1, p.2, 1, 0⟩

/-- **No small form in the table has a small form**, or is white space. -/
theorem image_isApart : (lowerRows.all fun r => decide (0 ≤ r.first + r.distance)
    && Nat.blt (r.shift r.last) 0x110000
    && (capitalRows ++ blankRows).all r.image.isApart) = true := by
  decide +kernel

/-- A character that is its own small form. -/
def IsSmall (c : CodePoint) : Prop := lowerChar c = [c] ∧ c ≠ capitalSigma

theorem toNat_ofNat {n : ℕ} (h : n < 0x110000) : (CodePoint.ofNat n).toNat = n := by
  unfold CodePoint.ofNat
  split
  · next hn => exact Nat.add_sub_cancel' hn.2
  · next hn =>
    have valid : n.isValidChar := by
      unfold CodePoint.firstHalf at hn
      unfold Nat.isValidChar
      omega
    show (Char.ofNat n).toNat = n
    rw [Char.ofNat, dif_pos valid]
    rfl

theorem shiftBy_eq_self {rows : List CaseRow} {c : CodePoint}
    (h : ∀ r ∈ rows, r.contains c.toNat = false) : shiftBy rows c = c := by
  have none : rows.find? (fun r => r.contains c.toNat) = none := by
    rw [List.find?_eq_none]
    exact fun r hr => by rw [h r hr]; exact Bool.false_ne_true
  rw [shiftBy, none]

/-- A character in none of the stretches is its own small form. -/
theorem isSmall_of_not_contains {c : CodePoint}
    (h : ∀ s ∈ capitalRows, s.contains c.toNat = false) : IsSmall c := by
  obtain ⟨hascii, hdotted, hsigma, htable⟩ :=
    (by simpa [capitalRows] using h : _ ∧ _ ∧ _ ∧ ∀ s ∈ lowerRows, s.contains c.toNat = false)
  have ne : ∀ n : ℕ, (⟨n, n, 1, 0⟩ : CaseRow).contains c.toNat = false → c.toNat ≠ n := by
    rintro n hn rfl
    have : (⟨c.toNat, c.toNat, 1, 0⟩ : CaseRow).contains c.toNat = true :=
      CaseRow.contains_iff.mpr ⟨Nat.le_refl _, Nat.le_refl _, by simp⟩
    exact Bool.false_ne_true (hn.symm.trans this)
  refine ⟨?_, fun e => ne _ hsigma (by rw [e]; rfl)⟩
  unfold lowerChar
  split
  · cases c with
    | half u => rfl
    | char c =>
      have small : ¬ ('A'.val ≤ c.val ∧ c.val ≤ 'Z'.val) := by
        rintro ⟨hfirst, hlast⟩
        have : (⟨0x41, 0x5A, 1, 32⟩ : CaseRow).contains c.toNat = true :=
          CaseRow.contains_iff.mpr ⟨UInt32.le_iff_toNat_le.mp hfirst,
            UInt32.le_iff_toNat_le.mp hlast, Nat.mod_one _⟩
        exact Bool.false_ne_true (hascii.symm.trans this)
      have same : c.toLower = c := dif_neg small
      exact congrArg (fun b => [CodePoint.char b]) same
  · rw [if_neg (ne _ hdotted), shiftBy_eq_self htable]

/-- The ASCII letters. -/
theorem isSmall_ascii : ∀ n : Fin 0x80,
    (lowerChar (CodePoint.char (Char.ofNat n)).toLower = [(CodePoint.char (Char.ofNat n)).toLower]
      ∧ (CodePoint.char (Char.ofNat n)).toLower ≠ capitalSigma)
    ∧ (isBlank (CodePoint.char (Char.ofNat n)).toLower = true
      → isBlank (CodePoint.char (Char.ofNat n)) = true) := by
  decide

/-- The letters of the table. -/
theorem isSmall_shift {r : CaseRow} {n : ℕ} (hr : r ∈ lowerRows) (hn : r.contains n = true) :
    IsSmall (.ofNat (r.shift n)) ∧ isBlank (.ofNat (r.shift n)) = false := by
  have table := List.all_eq_true.mp image_isApart r hr
  rw [Bool.and_eq_true, Bool.and_eq_true, decide_eq_true_eq, Nat.blt_eq, List.all_eq_true] at table
  obtain ⟨⟨hfirst, hlast⟩, apart⟩ := table
  have himage := CaseRow.contains_image hn hfirst
  have hlt : r.shift n < 0x110000 :=
    lt_of_le_of_lt (CaseRow.contains_iff.mp himage).2.1 hlast
  have free : ∀ s ∈ capitalRows ++ blankRows, s.contains (r.shift n) = false :=
    fun s hs => CaseRow.contains_eq_false (apart s hs) himage
  refine ⟨isSmall_of_not_contains fun s hs => ?_, eq_false_of_ne_true fun hblank => ?_⟩
  · rw [toNat_ofNat hlt]
    exact free s (List.mem_append_left _ hs)
  · obtain ⟨p, hp, hle⟩ := inRanges_iff.mp hblank
    rw [toNat_ofNat hlt] at hle
    have hnot := free ⟨p.1, p.2, 1, 0⟩ (List.mem_append_right _ (List.mem_map_of_mem hp))
    have hcontains : (⟨p.1, p.2, 1, 0⟩ : CaseRow).contains (r.shift n) = true :=
      CaseRow.contains_iff.mpr ⟨hle.1, hle.2, Nat.mod_one _⟩
    exact Bool.false_ne_true (hnot.symm.trans hcontains)

/-- **A small form consists of small letters**, and it has white space only for
white space. -/
theorem isSmall_of_mem_lowerChar {c x : CodePoint} (hc : c ≠ capitalSigma) (hx : x ∈ lowerChar c) :
    IsSmall x ∧ (isBlank x = true → isBlank c = true) := by
  unfold lowerChar at hx
  split at hx
  · next hascii =>
    obtain rfl := List.mem_singleton.mp hx
    cases c with
    | half u =>
      have : CodePoint.firstHalf + u.val < 0x80 := hascii
      exact absurd this (by unfold CodePoint.firstHalf; omega)
    | char c =>
      have letter := isSmall_ascii ⟨c.toNat, hascii⟩
      rwa [Char.ofNat_toNat] at letter
  · next hascii =>
    split at hx
    · have dotted : ∀ y ∈ (['i', .ofNat 0x0307] : Text),
          (lowerChar y = [y] ∧ y ≠ capitalSigma) ∧ isBlank y = false := by decide +kernel
      obtain ⟨small, hblank⟩ := dotted x hx
      exact ⟨small, fun h => absurd (hblank.symm.trans h) Bool.false_ne_true⟩
    · next hdotted =>
      obtain rfl := List.mem_singleton.mp hx
      unfold shiftBy
      split
      · next r hr =>
        obtain ⟨small, hblank⟩ := isSmall_shift (List.mem_of_find?_eq_some hr)
          (List.find?_some (p := fun r : CaseRow => r.contains c.toNat) hr)
        exact ⟨small, fun h => absurd (hblank.symm.trans h) Bool.false_ne_true⟩
      · next hnone =>
        rw [List.find?_eq_none] at hnone
        refine ⟨⟨?_, hc⟩, id⟩
        unfold lowerChar
        rw [if_neg hascii, if_neg hdotted,
          shiftBy_eq_self fun r hr => eq_false_of_ne_true (hnone r hr)]

theorem lowerChar_ne_nil (c : CodePoint) : lowerChar c ≠ [] := by
  unfold lowerChar
  split
  · exact List.cons_ne_nil _ _
  · split <;> exact List.cons_ne_nil _ _

/-- The small form of a character in its place. -/
def lowerPart (afterCased : Bool) (c : CodePoint) (rest : Text) : Text :=
  if c = capitalSigma then [lowerSigma afterCased (casedAhead rest)] else lowerChar c

theorem lowerAfter_cons (afterCased : Bool) (c : CodePoint) (rest : Text) :
    lowerAfter afterCased (c :: rest) = lowerPart afterCased c rest
      ++ lowerAfter (if isCaseIgnorable c then afterCased else isCased c) rest := rfl

theorem lowerPart_ne_nil (afterCased : Bool) (c : CodePoint) (rest : Text) :
    lowerPart afterCased c rest ≠ [] := by
  unfold lowerPart
  split
  · exact List.cons_ne_nil _ _
  · exact lowerChar_ne_nil c

theorem isSmall_of_mem_lowerPart {afterCased : Bool} {c x : CodePoint} {rest : Text}
    (hx : x ∈ lowerPart afterCased c rest) :
    IsSmall x ∧ (isBlank x = true → isBlank c = true) := by
  unfold lowerPart at hx
  split at hx
  · have sigma : ∀ y ∈ ([.ofNat 0x03C2, .ofNat 0x03C3] : Text),
        (lowerChar y = [y] ∧ y ≠ capitalSigma) ∧ isBlank y = false := by decide +kernel
    obtain rfl := List.mem_singleton.mp hx
    have hmem : lowerSigma afterCased (casedAhead rest)
        ∈ ([.ofNat 0x03C2, .ofNat 0x03C3] : Text) := by
      unfold lowerSigma
      split
      · exact List.mem_cons_self
      · exact List.mem_cons_of_mem _ List.mem_cons_self
    obtain ⟨small, hblank⟩ := sigma _ hmem
    exact ⟨small, fun h => absurd (hblank.symm.trans h) Bool.false_ne_true⟩
  · next hc => exact isSmall_of_mem_lowerChar hc hx

/-! ## Texts -/

section Text

variable {t : Text} {afterCased : Bool}

theorem isSmall_of_mem_lowerAfter {x : CodePoint} (hx : x ∈ lowerAfter afterCased t) :
    IsSmall x := by
  induction t generalizing afterCased with
  | nil => exact absurd hx List.not_mem_nil
  | cons c rest ih =>
    rw [lowerAfter_cons] at hx
    obtain hx | hx := List.mem_append.mp hx
    · exact (isSmall_of_mem_lowerPart hx).1
    · exact ih hx

theorem lowerAfter_eq_self (h : ∀ x ∈ t, IsSmall x) : lowerAfter afterCased t = t := by
  induction t generalizing afterCased with
  | nil => rfl
  | cons c rest ih =>
    obtain ⟨⟨hc, hsigma⟩, hrest⟩ := List.forall_mem_cons.mp h
    rw [lowerAfter_cons, lowerPart, if_neg hsigma, hc, ih hrest]
    rfl

/-- **Putting a text in small letters twice is doing it once.** -/
theorem lower_lower (t : Text) : lower (lower t) = lower t :=
  lowerAfter_eq_self fun _ hx => isSmall_of_mem_lowerAfter hx

theorem dropWhile_eq_self_iff :
    t.dropWhile isBlank = t ↔ ∀ c ∈ t.head?, isBlank c = false := by
  cases t with
  | nil => exact iff_of_true rfl nofun
  | cons c rest =>
    cases h : isBlank c with
    | true =>
      rw [List.dropWhile_cons_of_pos h]
      refine iff_of_false (fun e => ?_) fun e => Bool.false_ne_true ((e c rfl).symm.trans h)
      have shorter := (List.dropWhile_sublist (l := rest) isBlank).length_le
      rw [e, List.length_cons] at shorter
      omega
    | false =>
      refine iff_of_true (List.dropWhile_cons_of_neg (by rw [h]; exact Bool.false_ne_true)) ?_
      rintro _ ⟨⟩
      exact h

theorem stripEnd_eq_self_iff : stripEnd t = t ↔ ∀ c ∈ t.getLast?, isBlank c = false := by
  rw [stripEnd, List.reverse_eq_iff, dropWhile_eq_self_iff, List.head?_reverse]

/-- **A text is stripped** if it neither starts nor ends blank. -/
theorem strip_eq_self_iff : strip t = t ↔
    (∀ c ∈ t.head?, isBlank c = false) ∧ ∀ c ∈ t.getLast?, isBlank c = false := by
  rw [← dropWhile_eq_self_iff, ← stripEnd_eq_self_iff]
  refine ⟨fun h => ?_, fun ⟨hstart, hend⟩ => ?_⟩
  · have hstart := dropWhile_strip t
    rw [h] at hstart
    rw [strip, hstart] at h
    exact ⟨hstart, h⟩
  · rw [strip, hstart, hend]

theorem head?_lowerAfter (h : ∀ c ∈ t.head?, isBlank c = false) :
    ∀ x ∈ (lowerAfter afterCased t).head?, isBlank x = false := by
  cases t with
  | nil => nofun
  | cons c rest =>
    intro x hx
    rw [lowerAfter_cons, List.head?_append_of_ne_nil _ (lowerPart_ne_nil _ _ _)] at hx
    refine eq_false_of_ne_true fun hblank => ?_
    have := (isSmall_of_mem_lowerPart (List.mem_of_mem_head? hx)).2 hblank
    exact Bool.false_ne_true ((h c rfl).symm.trans this)

theorem getLast?_lowerAfter (h : ∀ c ∈ t.getLast?, isBlank c = false) :
    ∀ x ∈ (lowerAfter afterCased t).getLast?, isBlank x = false := by
  induction t generalizing afterCased with
  | nil => nofun
  | cons c rest ih =>
    intro x hx
    rw [lowerAfter_cons] at hx
    cases rest with
    | nil =>
      rw [lowerAfter, List.append_nil] at hx
      refine eq_false_of_ne_true fun hblank => ?_
      have := (isSmall_of_mem_lowerPart (List.mem_of_getLast? hx)).2 hblank
      exact Bool.false_ne_true ((h c rfl).symm.trans this)
    | cons d more =>
      rw [List.getLast?_append_of_ne_nil _ (by rw [lowerAfter_cons]; simp [lowerPart_ne_nil])] at hx
      exact ih (fun c hc => h c hc) x hx

/-- **A stripped text has a stripped small form.** -/
theorem strip_lower (h : strip t = t) : strip (lower t) = lower t := by
  obtain ⟨hhead, hlast⟩ := strip_eq_self_iff.mp h
  exact strip_eq_self_iff.mpr ⟨head?_lowerAfter hhead, getLast?_lowerAfter hlast⟩

end Text

end CortexCall.Text
