import Mathlib.Data.List.DropRight
import Mathlib.Data.Option.Basic
import CortexCall.Proofs.Outcome
import CortexCall.Request.Value

/-!
# What a checked value is

A kind says what a field may hold before it is checked; `Kind.Admits` says
what it holds afterwards: a value of the one form that belongs to the kind,
cleaned, with the conditions met that the check asks for. The check returns
nothing else – `Kind.admits_of_check` – so whoever takes a checked value
apart has one case for each form and no other.
-/

namespace CortexCall

namespace Text

/-! ## Stripped texts -/

theorem stripEnd_eq_rdropWhile (t : Text) : stripEnd t = t.rdropWhile isBlank := rfl

/-- A stripped text does not start with a blank. -/
theorem dropWhile_strip (t : Text) : (strip t).dropWhile isBlank = strip t := by
  rw [List.dropWhile_eq_self_iff]
  intro hpos
  unfold strip at hpos ⊢
  rw [stripEnd_eq_rdropWhile] at hpos
  simp only [stripEnd_eq_rdropWhile]
  have pre := List.rdropWhile_prefix isBlank (t.dropWhile isBlank)
  have pos : 0 < (t.dropWhile isBlank).length := lt_of_lt_of_le hpos pre.length_le
  rw [pre.getElem hpos]
  exact List.dropWhile_get_zero_not isBlank t pos

/-- **Stripping twice is stripping once.** -/
theorem strip_strip (t : Text) : strip (strip t) = strip t := by
  rw [strip, dropWhile_strip, strip, stripEnd_eq_rdropWhile, stripEnd_eq_rdropWhile]
  exact List.rdropWhile_idempotent isBlank _

end Text

/-- A text without blanks around it, and not empty. -/
def IsTerm (t : Text) : Prop := Text.strip t = t ∧ t ≠ []

/-- **Stripping makes a term** of a text that is not blank. -/
theorem IsTerm.strip {t : Text} (h : Text.strip t ≠ []) : IsTerm (Text.strip t) :=
  ⟨Text.strip_strip t, h⟩

/-- A file as a check leaves it. -/
def FileRef.IsSound : FileRef → Prop
  | .expression t => IsTerm t ∧ Sql.isSingleCall t = true
  | .location stage path => IsTerm stage ∧ IsTerm path

/-- A category as a check leaves it. -/
def Category.IsSound : Category → Prop
  | .label t => IsTerm t
  | .entry t description => IsTerm t ∧ ∀ d ∈ description, Text.strip d ≠ []

/-- **What a field of a kind holds once it is checked.** -/
def Kind.Admits : Kind → Value → Prop
  | .prose, .text t => Text.strip t ≠ []
  | .term, .text t => IsTerm t
  | .functionName, .text t => functionStem <+: t
  | .flag, .flag _ => True
  | .object, .json (.obj _) => True
  | .objectOrList, .json (.obj _) => True
  | .objectOrList, .json (.arr _) => True
  | .proseOrObject, .text t => Text.strip t ≠ []
  | .proseOrObject, .json (.obj _) => True
  | .labels bounds, .labels ls =>
    LabelBounds.admits bounds ls.length = true ∧ LabelBounds.overlong bounds ls = none
      ∧ ls.Nodup ∧ ∀ l ∈ ls, IsTerm l
  | .categories, .categories cs =>
    Issue.fewestCategories ≤ cs.length ∧ (cs.map Category.key).Nodup ∧ ∀ c ∈ cs, c.IsSound
  | .file, .file f => f.IsSound
  | _, _ => False

namespace Kind.Admits

variable {k : Kind}

/-- A value of free form is an object or a list. -/
theorem of_json {j : Json} (h : k.Admits (.json j)) :
    (∃ m, j = .obj m) ∨ ∃ items, j = .arr items := by
  cases j with
  | obj m => exact .inl ⟨m, rfl⟩
  | arr items => exact .inr ⟨items, rfl⟩
  | _ => cases k <;> exact h.elim

/-- A file is one that the check of files leaves. -/
theorem of_file {f : FileRef} (h : k.Admits (.file f)) : f.IsSound := by
  cases k with
  | file => exact h
  | _ => exact h.elim

end Kind.Admits

/-! ## Texts -/

theorem strip_of_checkProse {v : Json} {t : Text} (h : checkProse v = .ok t) :
    v = .str t ∧ Text.strip t ≠ [] := by
  unfold checkProse at h
  split at h
  · next u =>
    split at h
    · exact absurd h (by simp)
    · next hu =>
      obtain rfl := Except.ok.inj h
      exact ⟨rfl, fun e => hu (List.isEmpty_iff.mpr e)⟩
  · exact absurd h (by simp)

theorem isTerm_of_checkTerm {v : Json} {t : Text} (h : checkTerm v = .ok t) :
    ∃ u, v = .str u ∧ t = Text.strip u ∧ IsTerm t := by
  unfold checkTerm at h
  split at h
  · next u =>
    split at h
    · exact absurd h (by simp)
    · next hu =>
      obtain rfl := Except.ok.inj h
      exact ⟨u, rfl, rfl, .strip fun e => hu (List.isEmpty_iff.mpr e)⟩
  · exact absurd h (by simp)

theorem prefix_of_checkFunctionName {v : Json} {t : Text} (h : checkFunctionName v = .ok t) :
    functionStem <+: t := by
  obtain ⟨u, -, h⟩ := Outcome.bind_eq_ok_iff.mp h
  split at h
  · next hu =>
    obtain rfl := Except.ok.inj h
    exact List.isPrefixOf_iff_prefix.mp hu
  · exact absurd h (by simp)

/-! ## Lists -/

section Distinct

variable {α : Type} {key : α → Text}

theorem distinctFrom_sublist (seen : List Text) (items : List α) :
    (distinctFrom key seen items).Sublist items := by
  induction items generalizing seen with
  | nil => exact .slnil
  | cons x rest ih =>
    rw [distinctFrom]
    split
    · exact (ih seen).cons x
    · exact (ih (key x :: seen)).cons_cons x

theorem nodup_distinctFrom (seen : List Text) (items : List α) :
    ((distinctFrom key seen items).map key).Nodup
      ∧ ∀ k ∈ (distinctFrom key seen items).map key, k ∉ seen := by
  induction items generalizing seen with
  | nil => exact ⟨.nil, fun _ h => absurd h List.not_mem_nil⟩
  | cons x rest ih =>
    rw [distinctFrom]
    split
    · exact ih seen
    · next hx =>
      rw [List.contains_iff_mem] at hx
      obtain ⟨nodup, fresh⟩ := ih (key x :: seen)
      rw [List.map_cons]
      refine ⟨List.nodup_cons.mpr ⟨fun h => fresh _ h List.mem_cons_self, nodup⟩, ?_⟩
      intro k hk
      obtain rfl | hk := List.mem_cons.mp hk
      · exact hx
      · exact fun h => fresh k hk (List.mem_cons_of_mem _ h)

/-- **Distinct items have distinct keys.** -/
theorem nodup_distinctBy (items : List α) : ((distinctBy key items).map key).Nodup :=
  (nodup_distinctFrom [] items).1

theorem distinctBy_subset (items : List α) : distinctBy key items ⊆ items :=
  (distinctFrom_sublist [] items).subset

end Distinct

/-- Every checked item comes from an item that passes the check. -/
theorem exists_of_mem_checkItems {α : Type} {check : Json → Except Issue α} {index : Nat}
    {items : List Json} {xs : List α} (h : checkItems check index items = .ok xs) {x : α}
    (hx : x ∈ xs) : ∃ v ∈ items, check v = .ok x := by
  induction items generalizing index xs with
  | nil =>
    obtain rfl := Except.ok.inj h
    exact absurd hx List.not_mem_nil
  | cons v rest ih =>
    obtain ⟨y, hy, h⟩ := Outcome.bind_eq_ok_iff.mp h
    obtain ⟨ys, hys, h⟩ := Outcome.bind_eq_ok_iff.mp h
    obtain rfl := Except.ok.inj h
    obtain rfl | hx := List.mem_cons.mp hx
    · exact ⟨v, List.mem_cons_self, Outcome.mapError_eq_ok_iff.mp hy⟩
    · obtain ⟨w, hw, hwx⟩ := ih hys hx
      exact ⟨w, List.mem_cons_of_mem v hw, hwx⟩

theorem admits_of_checkLabels {bounds : Option LabelBounds} {v : Json} {ls : List Text}
    (h : checkLabels bounds v = .ok ls) : (Kind.labels bounds).Admits (.labels ls) := by
  obtain ⟨items, -, h⟩ := Outcome.bind_eq_ok_iff.mp h
  obtain ⟨terms, hterms, h⟩ := Outcome.bind_eq_ok_iff.mp h
  dsimp only at h
  split at h
  · next hcount =>
    split at h
    · exact absurd h (by simp)
    · next hlength =>
      obtain rfl := Except.ok.inj h
      refine ⟨hcount, hlength, ?_, fun l hl => ?_⟩
      · simpa using @nodup_distinctBy _ id terms
      · obtain ⟨w, -, hw⟩ := exists_of_mem_checkItems hterms (distinctBy_subset terms hl)
        obtain ⟨-, -, -, hl⟩ := isTerm_of_checkTerm hw
        exact hl
  · exact absurd h (by simp)

/-! ## Categories and files -/

theorem toOption_eq_some_iff {ε α : Type} {x : Except ε α} {a : α} :
    x.toOption = some a ↔ x = .ok a := by
  cases x <;> simp [Except.toOption]

/-- What an object says about a category besides its label: nothing, which
may be written `null`, or a text. -/
def Describes (m : Members) (description : Option Text) : Prop :=
  (m.get? "description".toText).getD .null = .null ∧ description = none
    ∨ ∃ v d, m.get? "description".toText = some v ∧ checkProse v = .ok d ∧ description = some d

/-- **An object is a category** when it has a label, perhaps a description,
and nothing else. -/
theorem entryOf?_eq_some_iff {m : Members} {c : Category} :
    entryOf? m = some c ↔ hasOnly ["label".toText, "description".toText] m = true
      ∧ ∃ v label description, m.get? "label".toText = some v ∧ checkTerm v = .ok label
        ∧ Describes m description ∧ c = .entry label description := by
  unfold entryOf?
  simp only [bind, Option.bind_eq_some_iff, toOption_eq_some_iff, Option.guard_eq_some']
  refine ⟨?_, ?_⟩
  · rintro ⟨-, honly, v, hv, label, hlabel, h⟩
    split at h
    · next hd =>
      exact ⟨honly, v, label, none, hv, hlabel, .inl ⟨by rw [hd]; rfl, rfl⟩,
        (Option.some.inj h).symm⟩
    · next hd =>
      exact ⟨honly, v, label, none, hv, hlabel, .inl ⟨by rw [hd]; rfl, rfl⟩,
        (Option.some.inj h).symm⟩
    · next w _ hd =>
      obtain ⟨d, hwd, h⟩ := Option.bind_eq_some_iff.mp h
      exact ⟨honly, v, label, some d, hv, hlabel,
        .inr ⟨w, d, hd, toOption_eq_some_iff.mp hwd, rfl⟩, (Option.some.inj h).symm⟩
  · rintro ⟨honly, v, label, description, hv, hlabel, hd, rfl⟩
    refine ⟨(), honly, v, hv, label, hlabel, ?_⟩
    obtain ⟨hd, rfl⟩ | ⟨w, d, hd, hwd, rfl⟩ := hd
    · split
      · rfl
      · rfl
      · next w hw heq =>
        rw [heq] at hd
        exact absurd hd hw
    · obtain ⟨rfl, -⟩ := strip_of_checkProse hwd
      rw [hd]
      exact Option.bind_eq_some_iff.mpr ⟨d, toOption_eq_some_iff.mpr hwd, rfl⟩

/-- **An object is a file** when it has a stage, a path, and nothing else. -/
theorem locationOf?_eq_some_iff {m : Members} {f : FileRef} :
    locationOf? m = some f ↔ hasOnly ["stage".toText, "path".toText] m = true
      ∧ ∃ v stage w path, m.get? "stage".toText = some v ∧ checkTerm v = .ok stage
        ∧ m.get? "path".toText = some w ∧ checkTerm w = .ok path ∧ f = .location stage path := by
  unfold locationOf?
  simp only [bind, Option.bind_eq_some_iff, toOption_eq_some_iff, Option.guard_eq_some']
  refine ⟨?_, ?_⟩
  · rintro ⟨-, honly, v, hv, stage, hstage, w, hw, path, hpath, h⟩
    exact ⟨honly, v, stage, w, path, hv, hstage, hw, hpath, (Option.some.inj h).symm⟩
  · rintro ⟨honly, v, stage, w, path, hv, hstage, hw, hpath, rfl⟩
    exact ⟨(), honly, v, hv, stage, hstage, w, hw, path, hpath, rfl⟩

theorem isSound_of_entryOf? {m : Members} {c : Category} (h : entryOf? m = some c) :
    c.IsSound := by
  obtain ⟨-, v, label, description, -, hlabel, hd, rfl⟩ := entryOf?_eq_some_iff.mp h
  obtain ⟨-, -, -, term⟩ := isTerm_of_checkTerm hlabel
  refine ⟨term, fun d hmem => ?_⟩
  obtain rfl := Option.mem_def.mp hmem
  obtain ⟨-, hnone⟩ | ⟨w, d', -, hd', heq⟩ := hd
  · exact absurd hnone (by simp)
  · obtain rfl := Option.some.inj heq
    exact (strip_of_checkProse hd').2

theorem isSound_of_locationOf? {m : Members} {f : FileRef} (h : locationOf? m = some f) :
    f.IsSound := by
  obtain ⟨-, v, stage, w, path, -, hstage, -, hpath, rfl⟩ := locationOf?_eq_some_iff.mp h
  obtain ⟨-, -, -, hs⟩ := isTerm_of_checkTerm hstage
  obtain ⟨-, -, -, hp⟩ := isTerm_of_checkTerm hpath
  exact ⟨hs, hp⟩

theorem isSound_of_checkCategory {v : Json} {c : Category} (h : checkCategory v = .ok c) :
    c.IsSound := by
  unfold checkCategory at h
  split at h
  · split at h
    · next hentry =>
      obtain rfl := Except.ok.inj h
      exact isSound_of_entryOf? hentry
    · exact absurd h (by simp)
  · obtain ⟨t, ht, rfl⟩ := Outcome.map_eq_ok_iff.mp h
    obtain ⟨-, -, -, term⟩ := isTerm_of_checkTerm ht
    exact term

theorem isSound_of_checkFile {v : Json} {f : FileRef} (h : checkFile v = .ok f) :
    f.IsSound := by
  unfold checkFile at h
  split at h
  · split at h
    · next hlocation =>
      obtain rfl := Except.ok.inj h
      exact isSound_of_locationOf? hlocation
    · exact absurd h (by simp)
  · obtain ⟨t, ht, h⟩ := Outcome.bind_eq_ok_iff.mp h
    obtain ⟨-, -, -, term⟩ := isTerm_of_checkTerm ht
    split at h
    · next hcall =>
      obtain rfl := Except.ok.inj h
      exact ⟨term, hcall⟩
    · exact absurd h (by simp)

theorem admits_of_checkCategories {v : Json} {cs : List Category}
    (h : checkCategories v = .ok cs) : Kind.categories.Admits (.categories cs) := by
  obtain ⟨items, -, h⟩ := Outcome.bind_eq_ok_iff.mp h
  obtain ⟨all, hall, h⟩ := Outcome.bind_eq_ok_iff.mp h
  dsimp only at h
  split at h
  · next hcount =>
    obtain rfl := Except.ok.inj h
    refine ⟨hcount, nodup_distinctBy all, fun c hc => ?_⟩
    obtain ⟨w, -, hw⟩ := exists_of_mem_checkItems hall (distinctBy_subset all hc)
    exact isSound_of_checkCategory hw
  · exact absurd h (by simp)

/-- **A checked value is one that its kind admits.** -/
theorem Kind.admits_of_check {k : Kind} {j : Json} {v : Value} (h : k.check j = .ok v) :
    k.Admits v := by
  unfold Kind.check at h
  split at h
  · obtain ⟨t, ht, rfl⟩ := Outcome.map_eq_ok_iff.mp h
    exact (strip_of_checkProse ht).2
  · obtain ⟨t, ht, rfl⟩ := Outcome.map_eq_ok_iff.mp h
    obtain ⟨-, -, -, term⟩ := isTerm_of_checkTerm ht
    exact term
  · obtain ⟨t, ht, rfl⟩ := Outcome.map_eq_ok_iff.mp h
    exact prefix_of_checkFunctionName ht
  · obtain rfl := Except.ok.inj h
    trivial
  · exact absurd h (by simp)
  · obtain rfl := Except.ok.inj h
    trivial
  · exact absurd h (by simp)
  · obtain rfl := Except.ok.inj h
    trivial
  · obtain rfl := Except.ok.inj h
    trivial
  · exact absurd h (by simp)
  · obtain rfl := Except.ok.inj h
    trivial
  · obtain ⟨t, ht, rfl⟩ := Outcome.map_eq_ok_iff.mp h
    exact (strip_of_checkProse ht).2
  · obtain ⟨ls, hls, rfl⟩ := Outcome.map_eq_ok_iff.mp h
    exact admits_of_checkLabels hls
  · obtain ⟨cs, hcs, rfl⟩ := Outcome.map_eq_ok_iff.mp h
    exact admits_of_checkCategories hcs
  · obtain ⟨f, hf, rfl⟩ := Outcome.map_eq_ok_iff.mp h
    exact isSound_of_checkFile hf

end CortexCall
