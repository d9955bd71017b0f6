import CortexCall.Proofs.SingleCall
import CortexCall.Proofs.SmallLetters

/-!
# Names by their capital forms

A function is looked up by the capital form of its name, and so is found in either
case. But capital forms follow Unicode in full, and there they do more than change
the case of ASCII letters: ten characters beyond ASCII have a capital form in it,
among them the long `ſ`, the `ı` without its dot, and ligatures such as `ﬁ`. These
are the **look-alikes**, and that there are no others is a property of the table,
`exists_not_ascii`: wherever else a capital form comes from, some of it is beyond
ASCII.

Names are ASCII. So the look-up takes a look-alike for the letters in its capital
form and everything else as it stands, `Callee.resolve_eq_ok_iff`, and it is exact up
to the case of ASCII letters unless a look-alike completes a spelling:
`Callee.resolvesExactly_iff`.
-/

namespace CortexCall

/-- In a list with distinct keys a key has the value that stands with it. -/
theorem lookup_eq_some_iff_mem {α β : Type} [BEq α] [LawfulBEq α] {l : List (α × β)} {k : α}
    {b : β} (distinct : (l.map Prod.fst).Nodup) : l.lookup k = some b ↔ (k, b) ∈ l := by
  refine ⟨mem_of_lookup, fun h => ?_⟩
  obtain ⟨before, after, rfl⟩ := List.append_of_mem h
  rw [List.map_append, List.map_cons, List.nodup_middle, List.nodup_cons] at distinct
  have apart : ∀ p ∈ before, (k != p.1) = true := fun p hp => bne_iff_ne.mpr fun e =>
    distinct.1 (List.mem_append_left _ (List.mem_map.mpr ⟨p, hp, e.symm⟩))
  exact List.lookup_eq_some_iff.mpr ⟨before, after, rfl, apart⟩

theorem CodePoint.ofNat_toNat (c : CodePoint) : CodePoint.ofNat c.toNat = c := by
  cases c with
  | half u => exact ofNat_toNat_half u
  | char c =>
    have notHalf : ¬ (c.toNat - firstHalf < 0x800 ∧ firstHalf ≤ c.toNat) := by
      have valid := c.valid
      unfold firstHalf
      unfold UInt32.isValidChar Nat.isValidChar at valid
      unfold Char.toNat
      omega
    show CodePoint.ofNat c.toNat = .char c
    rw [CodePoint.ofNat, dif_neg notHalf, Char.ofNat_toNat]

namespace Text

/-! ## Capital forms in ASCII -/

/-- Whether a code point is in ASCII. -/
def isAscii (c : CodePoint) : Bool := c.toNat < 0x80

/-- **The text with each small ASCII letter as a capital**, and all else as it stands. -/
def asciiUpper (t : Text) : Text := t.map CodePoint.toUpper

/-- **The look-alikes**: the characters beyond ASCII that have a capital form in it, and
that form. -/
def lookalikes : List (Nat × Text) :=
  [(0x00DF, "SS".toText), (0x0131, "I".toText), (0x017F, "S".toText), (0xFB00, "FF".toText),
   (0xFB01, "FI".toText), (0xFB02, "FL".toText), (0xFB03, "FFI".toText), (0xFB04, "FFL".toText),
   (0xFB05, "ST".toText), (0xFB06, "ST".toText)]

/-- Whether a code point is a look-alike. -/
def isLookalike (c : CodePoint) : Bool := (lookalikes.lookup c.toNat).isSome

/-- The capital form of a code point, as far as it is in ASCII. -/
def asciiForm (c : CodePoint) : Text := (lookalikes.lookup c.toNat).getD [c.toUpper]

/-- **The text with its look-alikes spelled out**, in ASCII capitals. -/
def spelledOut (t : Text) : Text := t.flatMap asciiForm

/-- The table has no other form in ASCII than that of a look-alike. -/
theorem expansions_not_ascii : (upperExpansions.all fun e =>
    (lookalikes.lookup e.1).isSome
      || e.2.any fun n => Nat.ble 0x80 n && Nat.blt n 0x110000) = true := by
  decide +kernel

/-- And it shifts nothing else into ASCII. -/
theorem rows_not_ascii : (upperRows.all fun r =>
    (r.first == r.last && (lookalikes.lookup r.first).isSome)
      || decide (0x80 ≤ r.first + r.distance ∧ r.last + r.distance < 0x110000)) = true := by
  decide +kernel

/-- The look-alikes have the forms in the list. -/
theorem upperChar_lookalikes : ∀ e ∈ lookalikes, upperChar (.ofNat e.1) = e.2 := by
  decide +kernel

/-- No look-alike is in ASCII. -/
theorem lookup_of_ascii : ∀ n : Fin 0x80, lookalikes.lookup n.val = none := by decide

section CapitalForm

variable {c : CodePoint} {t u : Text}

theorem asciiForm_of_not_lookalike (h : isLookalike c = false) : asciiForm c = [c.toUpper] := by
  have none : lookalikes.lookup c.toNat = none :=
    Option.not_isSome_iff_eq_none.mp (ne_true_of_eq_false h)
  rw [asciiForm, none]
  rfl

theorem isLookalike_of_ascii (h : isAscii c = true) : isLookalike c = false := by
  have below : c.toNat < 0x80 := of_decide_eq_true h
  rw [isLookalike, lookup_of_ascii ⟨c.toNat, below⟩]
  rfl

/-- Beyond ASCII nothing is changed by putting ASCII letters in capitals. -/
theorem toUpper_of_not_ascii (h : isAscii c = false) : c.toUpper = c := by
  cases c with
  | half u => rfl
  | char c =>
    have beyond : ¬ c.toNat < 0x80 := of_decide_eq_false h
    have notSmall : ¬ ('a'.val ≤ c.val ∧ c.val ≤ 'z'.val) := by
      rintro ⟨-, hlast⟩
      have : c.toNat ≤ 'z'.toNat := UInt32.le_iff_toNat_le.mp hlast
      have : 'z'.toNat = 122 := rfl
      omega
    exact congrArg CodePoint.char (dif_neg notSmall)

/-- **A form in ASCII is the form of ASCII or of a look-alike.** -/
theorem upperChar_eq_asciiForm (h : isAscii c = true ∨ isLookalike c = true) :
    upperChar c = asciiForm c := by
  obtain h | h := h
  · rw [upperChar_of_ascii (of_decide_eq_true h),
      asciiForm_of_not_lookalike (isLookalike_of_ascii h)]
  · obtain ⟨form, hform⟩ := Option.isSome_iff_exists.mp h
    have upper := upperChar_lookalikes _ (mem_of_lookup hform)
    rw [CodePoint.ofNat_toNat] at upper
    rw [upper, asciiForm, hform]
    rfl

/-- **The form of everything else is beyond ASCII**, at least in part. -/
theorem exists_not_ascii (h : isAscii c = false) (hl : isLookalike c = false) :
    ∃ x ∈ upperChar c, isAscii x = false := by
  have beyond : ¬ c.toNat < 0x80 := of_decide_eq_false h
  have ofNat : ∀ n, 0x80 ≤ n → n < 0x110000 → isAscii (.ofNat n) = false := fun n hlow hhigh => by
    rw [isAscii, toNat_ofNat hhigh]
    exact decide_eq_false (Nat.not_lt.mpr hlow)
  unfold upperChar
  rw [if_neg beyond]
  split
  · next form hform =>
    have entry := List.all_eq_true.mp expansions_not_ascii _ (mem_of_lookup hform)
    unfold isLookalike at hl
    rw [hl, Bool.false_or, List.any_eq_true] at entry
    obtain ⟨n, hn, hbounds⟩ := entry
    rw [Bool.and_eq_true, Nat.ble_eq, Nat.blt_eq] at hbounds
    exact ⟨_, List.mem_map_of_mem hn, ofNat n hbounds.1 hbounds.2⟩
  · refine ⟨_, List.mem_singleton_self _, ?_⟩
    unfold shiftBy
    split
    · next r hr =>
      obtain ⟨hfirst, hlast, -⟩ := CaseRow.contains_iff.mp
        (List.find?_some (p := fun r : CaseRow => r.contains c.toNat) hr)
      have row := List.all_eq_true.mp rows_not_ascii r (List.mem_of_find?_eq_some hr)
      rw [Bool.or_eq_true, Bool.and_eq_true, beq_iff_eq, decide_eq_true_eq] at row
      obtain ⟨single, hsome⟩ | ⟨hlow, hhigh⟩ := row
      · have own : r.first = c.toNat := Nat.le_antisymm hfirst (single ▸ hlast)
        rw [own] at hsome
        exact absurd (hl.symm.trans hsome) Bool.false_ne_true
      · refine ofNat _ ?_ ?_
        · unfold CaseRow.shift
          omega
        · unfold CaseRow.shift
          omega
    · exact h

/-- **A text has a capital form in ASCII exactly if it has that form with its look-alikes
spelled out.** -/
theorem upper_eq_iff (hu : ∀ x ∈ u, isAscii x = true) : upper t = u ↔ spelledOut t = u := by
  by_cases plain : ∀ c ∈ t, isAscii c = true ∨ isLookalike c = true
  · have same : upper t = spelledOut t :=
      List.flatMap_congr fun c hc => upperChar_eq_asciiForm (plain c hc)
    rw [same]
  · -- otherwise both forms keep something beyond ASCII
    obtain ⟨c, hc, other⟩ : ∃ c ∈ t, ¬ (isAscii c = true ∨ isLookalike c = true) := by
      simpa only [not_forall, exists_prop] using plain
    rw [not_or, Bool.not_eq_true, Bool.not_eq_true] at other
    obtain ⟨h, hl⟩ := other
    obtain ⟨x, hx, beyond⟩ := exists_not_ascii h hl
    have kept : c ∈ asciiForm c := by
      rw [asciiForm_of_not_lookalike hl, toUpper_of_not_ascii h]
      exact List.mem_singleton_self c
    refine iff_of_false (fun e => ?_) fun e => ?_
    · have hmem : x ∈ u := e ▸ List.mem_flatMap.mpr ⟨c, hc, hx⟩
      exact Bool.false_ne_true (beyond.symm.trans (hu x hmem))
    · have hmem : c ∈ u := e ▸ List.mem_flatMap.mpr ⟨c, hc, kept⟩
      exact Bool.false_ne_true (h.symm.trans (hu c hmem))

/-- Without look-alikes there is nothing to spell out. -/
theorem spelledOut_eq_asciiUpper (h : ∀ c ∈ t, isLookalike c = false) :
    spelledOut t = asciiUpper t := by
  unfold asciiUpper
  rw [List.map_eq_flatMap]
  exact List.flatMap_congr fun c hc => asciiForm_of_not_lookalike (h c hc)

/-- What is in ASCII with its letters in capitals is in ASCII as it stands. -/
theorem isAscii_of_asciiUpper (h : ∀ x ∈ asciiUpper t, isAscii x = true) :
    ∀ c ∈ t, isAscii c = true := by
  intro c hc
  by_contra beyond
  have beyond := eq_false_of_ne_true beyond
  have hmem : c ∈ asciiUpper t := toUpper_of_not_ascii beyond ▸ List.mem_map_of_mem hc
  exact Bool.false_ne_true (beyond.symm.trans (h c hmem))

end CapitalForm

end Text

/-! ## Names -/

namespace Callee

variable {s : Text} {c : Callee}

/-- **The look-up of a name is exact up to the case of ASCII letters.** -/
structure ResolvesExactly (s : Text) : Prop where
  /-- What is found is what is listed for the name, without the white space around it. -/
  resolved : ∀ c, resolve (some s) = .ok c ↔ (Text.asciiUpper (Text.strip s), c) ∈ spellings
  /-- What is not listed is not supported. -/
  unsupported : Text.strip s ≠ [] → Text.asciiUpper (Text.strip s) ∉ spellings.map Prod.fst →
    ∃ capitals, resolve (some s) = .error (.unsupported capitals)

theorem nodup_spellings : (spellings.map Prod.fst).Nodup := by decide +kernel

/-- **Spellings are in ASCII.** -/
theorem isAscii_of_mem_spellings :
    ∀ t ∈ spellings.map Prod.fst, ∀ x ∈ t, Text.isAscii x = true := by
  decide +kernel

theorem lookup_upper_eq_some_iff {t : Text} : spellings.lookup (Text.upper t) = some c
    ↔ (Text.spelledOut t, c) ∈ spellings := by
  rw [lookup_eq_some_iff_mem nodup_spellings]
  constructor
  · intro h
    have ascii := isAscii_of_mem_spellings _ (List.mem_map_of_mem h)
    rwa [(Text.upper_eq_iff ascii).mp rfl]
  · intro h
    have ascii := isAscii_of_mem_spellings _ (List.mem_map_of_mem h)
    rwa [(Text.upper_eq_iff ascii).mpr rfl]

/-- **A name means what its form with the look-alikes spelled out is listed for.** -/
theorem resolve_eq_ok_iff : resolve (some s) = .ok c
    ↔ (Text.spelledOut (Text.strip s), c) ∈ spellings := by
  rw [← lookup_upper_eq_some_iff]
  unfold resolve
  rw [Option.getD_some]
  dsimp only
  split
  · next blank =>
    have nothing : spellings.lookup (Text.upper []) = none := by decide +kernel
    rw [List.isEmpty_iff.mp blank, nothing]
    exact iff_of_false nofun nofun
  · cases spellings.lookup (Text.upper (Text.strip s)) with
    | none => exact iff_of_false nofun nofun
    | some c' =>
      exact ⟨fun h => congrArg some (Except.ok.inj h), fun h => congrArg _ (Option.some.inj h)⟩

/-- A name that means nothing is not supported, unless it is blank. -/
theorem resolve_of_not_listed (hs : Text.strip s ≠ [])
    (h : Text.spelledOut (Text.strip s) ∉ spellings.map Prod.fst) :
    resolve (some s) = .error (.unsupported (Text.upper (Text.strip s))) := by
  have absent : spellings.lookup (Text.upper (Text.strip s)) = none := by
    refine Option.eq_none_iff_forall_ne_some.mpr fun c found => h ?_
    exact List.mem_map_of_mem (lookup_upper_eq_some_iff.mp found)
  unfold resolve
  rw [Option.getD_some]
  dsimp only
  rw [if_neg (by rwa [List.isEmpty_iff]), absent]

/-- **The look-up is exact unless a look-alike completes a spelling.** A name means what it is
listed for with its look-alikes spelled out, anything else that is not blank is not
supported, and this is the look-up up to the case of ASCII letters for every name except
those that have a look-alike in them and mean something. -/
theorem resolvesExactly_iff (s : Text) :
    (∀ c, resolve (some s) = .ok c ↔ (Text.spelledOut (Text.strip s), c) ∈ spellings)
      ∧ (Text.strip s ≠ [] → Text.spelledOut (Text.strip s) ∉ spellings.map Prod.fst →
        resolve (some s) = .error (.unsupported (Text.upper (Text.strip s))))
      ∧ (ResolvesExactly s ↔ ¬ ((∃ x ∈ Text.strip s, Text.isLookalike x = true)
        ∧ Text.spelledOut (Text.strip s) ∈ spellings.map Prod.fst)) := by
  refine ⟨fun c => resolve_eq_ok_iff, resolve_of_not_listed, ?_⟩
  by_cases alike : ∃ x ∈ Text.strip s, Text.isLookalike x = true
  · -- a look-alike is beyond ASCII, so the name as it stands is not listed
    have unlisted : Text.asciiUpper (Text.strip s) ∉ spellings.map Prod.fst := by
      intro listed
      obtain ⟨x, hx, hl⟩ := alike
      have ascii := Text.isAscii_of_asciiUpper (isAscii_of_mem_spellings _ listed) x hx
      exact Bool.false_ne_true ((Text.isLookalike_of_ascii ascii).symm.trans hl)
    refine ⟨fun exact ⟨_, listed⟩ => ?_, fun h => ⟨fun c => ?_, fun hs _ => ?_⟩⟩
    · obtain ⟨⟨t, c⟩, hmem, rfl⟩ := List.mem_map.mp listed
      exact unlisted (List.mem_map_of_mem ((exact.resolved c).mp (resolve_eq_ok_iff.mpr hmem)))
    · rw [resolve_eq_ok_iff]
      exact iff_of_false (fun hmem => h ⟨alike, List.mem_map_of_mem hmem⟩)
        fun hmem => unlisted (List.mem_map_of_mem hmem)
    · exact ⟨_, resolve_of_not_listed hs fun listed => h ⟨alike, listed⟩⟩
  · have plain : Text.spelledOut (Text.strip s) = Text.asciiUpper (Text.strip s) :=
      Text.spelledOut_eq_asciiUpper fun x hx => eq_false_of_ne_true fun hl => alike ⟨x, hx, hl⟩
    refine iff_of_true ⟨fun c => ?_, fun hs unlisted => ?_⟩ fun ⟨h, _⟩ => alike h
    · rw [resolve_eq_ok_iff, plain]
    · exact ⟨_, resolve_of_not_listed hs (plain ▸ unlisted)⟩

/-- **A name with `ı` for `i` is found**, though no spelling is listed that it is in ASCII
capitals. -/
theorem not_resolvesExactly_dotless : ¬ ResolvesExactly "aı_complete".toText := by
  intro h
  have found : resolve (some "aı_complete".toText) = .ok (ofFunction .complete) := by
    decide +kernel
  have unlisted : (Text.asciiUpper (Text.strip "aı_complete".toText), ofFunction .complete)
      ∉ spellings := by
    decide +kernel
  exact unlisted ((h.resolved _).mp found)

end Callee

end CortexCall
