import Mathlib.Data.List.Dedup
import CortexCall.Proofs.CheckedValue
import CortexCall.Proofs.FirstFailure
import CortexCall.Proofs.VerbatimJson

/-!
# What a field's value has to meet

For each kind of field this module lists the checks that a value has to pass,
in their order, as conditions on the JSON value alone: that it is of the right
sort, that a text in it is not blank, that a file is a call or a place on a
stage, that a list has so many distinct labels. An issue is either about the
value itself or about an item of it, so the place of a check is the index of
an item, or none.

The list decides the check of the kind – `Kind.decides_check` – under the one
condition that the texts in the value are whole: a label that is too long is
named in the issue, and a label that is not whole cannot be.
-/

namespace CortexCall

namespace Json

/-- A text. -/
def IsText (v : Json) : Prop := ∃ t, v = .str t

/-- An object. -/
def IsObject (v : Json) : Prop := ∃ m, v = .obj m

/-- A list. -/
def IsList (v : Json) : Prop := ∃ items, v = .arr items

/-- No blank text. -/
def IsFilled (v : Json) : Prop := ∀ t, v = .str t → Text.strip t ≠ []

/-- An object with a stage and a path, both texts that are not blank, and
nothing else. -/
def IsLocation (v : Json) : Prop := ∃ m : Members, v = .obj m
  ∧ (∀ n ∈ m.names, n = "stage".toText ∨ n = "path".toText)
  ∧ (∃ w, m.get? "stage".toText = some w ∧ w.IsText ∧ w.IsFilled)
  ∧ ∃ w, m.get? "path".toText = some w ∧ w.IsText ∧ w.IsFilled

/-- An object with a label, a text that is not blank, perhaps with a
description that is one too or `null`, and nothing else. -/
def IsEntry (v : Json) : Prop := ∃ m : Members, v = .obj m
  ∧ (∀ n ∈ m.names, n = "label".toText ∨ n = "description".toText)
  ∧ (∃ w, m.get? "label".toText = some w ∧ w.IsText ∧ w.IsFilled)
  ∧ ∀ w, m.get? "description".toText = some w → w = .null ∨ w.IsText ∧ w.IsFilled

/-- The items of a list; other values have none. -/
def items : Json → List Json
  | .arr items => items
  | _ => []

/-- The label of an item: its text, or the text of its label, without the
blanks around it. -/
def label : Json → Text
  | .str t => Text.strip t
  | .obj m =>
    match Members.get? "label".toText m with
    | some (.str t) => Text.strip t
    | _ => []
  | _ => []

/-- The labels of a list, each of them once. -/
def labels (v : Json) : List Text := (v.items.map label).dedup

end Json

namespace Check

/-- A text that is not blank. -/
def text (v : Json) : List (Check Unit) :=
  [⟨v.IsText, .typeMismatch, ()⟩, ⟨v.IsFilled, .blankField, ()⟩]

/-- A text that is not blank, or a value of another form. -/
def textOr (other : Prop) (v : Json) : List (Check Unit) :=
  [⟨v.IsText ∨ other, .typeMismatch, ()⟩, ⟨v.IsFilled, .blankField, ()⟩]

/-- A file, by an expression or by its place. -/
def file (v : Json) : List (Check Unit) :=
  textOr v.IsLocation v
    ++ [⟨∀ t, v = .str t → Sql.isSingleCall (Text.strip t) = true, .typeMismatch, ()⟩]

/-- A category, by its label or in an object. -/
def category (v : Json) : List (Check Unit) := textOr v.IsEntry v

/-- Checks of a value itself. -/
def onValue (checks : List (Check Unit)) : List (Check (Option Nat)) :=
  checks.map (relocate fun _ => none)

/-- Checks of the items of a list, one item after the other. -/
def onItems (item : Json → List (Check Unit)) (index : Nat) (items : List Json) :
    List (Check (Option Nat)) :=
  (items.zipIdx index).flatMap fun p => (item p.1).map (relocate fun _ => some p.2)

end Check

/-- **The checks of a kind**, in their order. -/
def Kind.checks : Kind → Json → List (Check (Option Nat))
  | .prose, v => Check.onValue (Check.text v)
  | .term, v => Check.onValue (Check.text v)
  | .functionName, v =>
    Check.onValue (Check.text v ++ [⟨∀ t, v = .str t → functionStem <+: Text.lower (Text.strip t),
      .boundsViolation, ()⟩])
  | .flag, v => Check.onValue [⟨∃ b, v = .bool b, .typeMismatch, ()⟩]
  | .object, v => Check.onValue [⟨v.IsObject, .typeMismatch, ()⟩]
  | .objectOrList, v => Check.onValue [⟨v.IsObject ∨ v.IsList, .typeMismatch, ()⟩]
  | .proseOrObject, v => Check.onValue (Check.textOr v.IsObject v)
  | .labels bounds, v =>
    Check.onValue [⟨v.IsList, .typeMismatch, ()⟩] ++ Check.onItems Check.text 0 v.items
      ++ Check.onValue [
        ⟨1 ≤ v.labels.length ∧ ∀ b ∈ bounds, v.labels.length ≤ b.most, .boundsViolation, ()⟩,
        ⟨∀ b ∈ bounds, ∀ t ∈ v.labels, t.length ≤ b.longest, .boundsViolation, ()⟩]
  | .categories, v =>
    Check.onValue [⟨v.IsList, .typeMismatch, ()⟩] ++ Check.onItems Check.category 0 v.items
      ++ Check.onValue [⟨2 ≤ v.labels.length, .boundsViolation, ()⟩]
  | .file, v => Check.onValue (Check.file v)

/-! ## Single values -/

/-- An issue with a value itself. -/
def Issue.IsHere (i : Issue) (kind : ErrorKind) (_ : Unit) : Prop := i.kind = kind ∧ i.path = []

/-- An issue with a value, or with an item of it. -/
def Issue.IsAt (i : Issue) (kind : ErrorKind) (spot : Option Nat) : Prop :=
  i.kind = kind ∧ i.path = (spot.map fun n => Step.index n).toList

section Single

theorem isText_str (t : Text) : (Json.str t).IsText := ⟨t, rfl⟩

theorem isFilled_str_iff {t : Text} :
    (Json.str t).IsFilled ↔ ¬ (Text.strip t).isEmpty = true := by
  rw [List.isEmpty_iff]
  refine ⟨fun h => h t rfl, ?_⟩
  rintro h _ ⟨⟩
  exact h

theorem not_isFilled_str {t : Text} (h : (Text.strip t).isEmpty = true) :
    ¬ (Json.str t).IsFilled :=
  fun filled => isFilled_str_iff.mp filled h

theorem decides_checkProse (v : Json) :
    Check.Decides Issue.IsHere (Check.text v) (checkProse v) := by
  cases v with
  | str t =>
    show Check.Decides _ _ (if (Text.strip t).isEmpty then _ else _)
    by_cases h : (Text.strip t).isEmpty
    · rw [if_pos h]
      exact ⟨_, .cons (isText_str t) (.head (not_isFilled_str h)), rfl, rfl⟩
    · rw [if_neg h]
      refine List.forall_mem_cons.mpr ⟨isText_str t, List.forall_mem_singleton.mpr ?_⟩
      exact isFilled_str_iff.mpr h
  | _ =>
    refine (Check.IsFirstFailing.head ?_).decides ⟨rfl, rfl⟩
    rintro ⟨_, ⟨⟩⟩

theorem checkProse_eq_ok_iff {v : Json} :
    (∃ t, checkProse v = .ok t) ↔ v.IsText ∧ v.IsFilled := by
  rw [(decides_checkProse v).isOk_iff]
  simp [Check.text]

/-- A term is prose without the blanks around it. -/
theorem checkTerm_eq_map (v : Json) : checkTerm v = (checkProse v).map Text.strip := by
  cases v with
  | str t =>
    show (if (Text.strip t).isEmpty then _ else _)
      = Except.map _ (if (Text.strip t).isEmpty then _ else _)
    by_cases h : (Text.strip t).isEmpty
    · rw [if_pos h, if_pos h]
      rfl
    · rw [if_neg h, if_neg h]
      rfl
  | _ => rfl

theorem decides_checkTerm (v : Json) :
    Check.Decides Issue.IsHere (Check.text v) (checkTerm v) := by
  rw [checkTerm_eq_map]
  exact (decides_checkProse v).map

theorem checkTerm_eq_ok_iff {v : Json} : (∃ t, checkTerm v = .ok t) ↔ v.IsText ∧ v.IsFilled := by
  rw [(decides_checkTerm v).isOk_iff]
  simp [Check.text]

/-! ## Objects with two names -/

theorem hasOnly_pair_iff {m : Members} {left right : Text} :
    hasOnly [left, right] m = true ↔ ∀ n ∈ m.names, n = left ∨ n = right := by
  unfold hasOnly
  rw [List.all_eq_true]
  refine forall₂_congr fun n _ => ?_
  rw [List.contains_iff_mem, List.mem_cons, List.mem_singleton]

/-- **An object is the place of a file** when the check of places says so. -/
theorem isLocation_obj_iff {m : Members} :
    (Json.obj m).IsLocation ↔ ∃ f, locationOf? m = some f := by
  constructor
  · rintro ⟨_, ⟨⟩, only, ⟨v, hv, stage⟩, w, hw, path⟩
    obtain ⟨s, hs⟩ := checkTerm_eq_ok_iff.mpr stage
    obtain ⟨p, hp⟩ := checkTerm_eq_ok_iff.mpr path
    refine ⟨.location s p, locationOf?_eq_some_iff.mpr ?_⟩
    exact ⟨hasOnly_pair_iff.mpr only, v, s, w, p, hv, hs, hw, hp, rfl⟩
  · rintro ⟨f, hf⟩
    obtain ⟨only, v, s, w, p, hv, hs, hw, hp, -⟩ := locationOf?_eq_some_iff.mp hf
    exact ⟨m, rfl, hasOnly_pair_iff.mp only, ⟨v, hv, checkTerm_eq_ok_iff.mp ⟨s, hs⟩⟩, w, hw,
      checkTerm_eq_ok_iff.mp ⟨p, hp⟩⟩

/-- **An object is a category** when the check of categories says so. -/
theorem isEntry_obj_iff {m : Members} :
    (Json.obj m).IsEntry ↔ ∃ c, entryOf? m = some c := by
  constructor
  · rintro ⟨_, ⟨⟩, only, ⟨v, hv, label⟩, described⟩
    obtain ⟨t, ht⟩ := checkTerm_eq_ok_iff.mpr label
    have describes : ∃ description, Describes m description := by
      cases hd : m.get? "description".toText with
      | none => exact ⟨none, .inl ⟨by rw [hd]; rfl, rfl⟩⟩
      | some w =>
        obtain rfl | filled := described w hd
        · exact ⟨none, .inl ⟨by rw [hd]; rfl, rfl⟩⟩
        · obtain ⟨d, hwd⟩ := checkProse_eq_ok_iff.mpr filled
          exact ⟨some d, .inr ⟨w, d, hd, hwd, rfl⟩⟩
    obtain ⟨description, describes⟩ := describes
    exact ⟨.entry t description, entryOf?_eq_some_iff.mpr
      ⟨hasOnly_pair_iff.mpr only, v, t, description, hv, ht, describes, rfl⟩⟩
  · rintro ⟨c, hc⟩
    obtain ⟨only, v, t, description, hv, ht, describes, -⟩ := entryOf?_eq_some_iff.mp hc
    refine ⟨m, rfl, hasOnly_pair_iff.mp only, ⟨v, hv, checkTerm_eq_ok_iff.mp ⟨t, ht⟩⟩, ?_⟩
    intro w hw
    obtain ⟨hnull, -⟩ | ⟨w', d, hw', hwd, -⟩ := describes
    · rw [hw] at hnull
      exact .inl hnull
    · obtain rfl := Option.some.inj (hw'.symm.trans hw)
      exact .inr (checkProse_eq_ok_iff.mp ⟨d, hwd⟩)

/-! ## Files and categories -/

theorem isFilled_obj (m : Members) : (Json.obj m).IsFilled := nofun

theorem textOr_of_not {other : Prop} (h : ¬ other) (v : Json) :
    Check.textOr other v = Check.text v := by
  unfold Check.textOr
  rw [show (v.IsText ∨ other) = v.IsText from propext (or_iff_left h)]
  rfl

/-- **An object may stand for a text** if it is one of the other form. -/
theorem decides_textOr_obj {α : Type} {other : Prop} {m : Members} {x : Except Issue α}
    (hok : other → ∃ a, x = .ok a) (herror : ¬ other → x = .error .notText) :
    Check.Decides Issue.IsHere (Check.textOr other (.obj m)) x := by
  by_cases hother : other
  · obtain ⟨a, rfl⟩ := hok hother
    exact List.forall_mem_cons.mpr
      ⟨.inr hother, List.forall_mem_singleton.mpr (isFilled_obj m)⟩
  · rw [herror hother]
    refine (Check.IsFirstFailing.head ?_).decides ⟨rfl, rfl⟩
    rintro (⟨_, ⟨⟩⟩ | h)
    exact hother h

theorem not_isLocation {v : Json} (h : ∀ m, v ≠ .obj m) : ¬ v.IsLocation :=
  fun ⟨m, hm, _⟩ => h m hm

theorem not_isEntry {v : Json} (h : ∀ m, v ≠ .obj m) : ¬ v.IsEntry := fun ⟨m, hm, _⟩ => h m hm

theorem decides_checkFile (v : Json) :
    Check.Decides Issue.IsHere (Check.file v) (checkFile v) := by
  unfold checkFile Check.file
  split
  · next m =>
    refine Check.Decides.append_holding (decides_textOr_obj (fun location => ?_) fun h => ?_)
      fun _ _ => List.forall_mem_singleton.mpr (by rintro _ ⟨⟩)
    · obtain ⟨f, hf⟩ := isLocation_obj_iff.mp location
      exact ⟨f, by rw [hf]⟩
    · cases hf : locationOf? m with
      | some f => exact absurd (isLocation_obj_iff.mpr ⟨f, hf⟩) h
      | none => rfl
  · next h =>
    rw [textOr_of_not (not_isLocation fun m hm => h m hm)]
    refine (decides_checkTerm v).bind fun u hu => ?_
    obtain ⟨t, rfl, rfl, -⟩ := isTerm_of_checkTerm hu
    by_cases hcall : Sql.isSingleCall (Text.strip t) = true
    · rw [if_pos hcall]
      refine Check.decides_ok ?_
      rintro _ ⟨⟩
      exact hcall
    · rw [if_neg hcall]
      exact Check.decides_error (fun single => hcall (single t rfl)) ⟨rfl, rfl⟩

theorem decides_checkCategory (v : Json) :
    Check.Decides Issue.IsHere (Check.category v) (checkCategory v) := by
  unfold checkCategory Check.category
  split
  · next m =>
    refine decides_textOr_obj (fun entry => ?_) fun h => ?_
    · obtain ⟨c, hc⟩ := isEntry_obj_iff.mp entry
      exact ⟨c, by rw [hc]⟩
    · cases hc : entryOf? m with
      | some c => exact absurd (isEntry_obj_iff.mpr ⟨c, hc⟩) h
      | none => rfl
  · next h =>
    rw [textOr_of_not (not_isEntry fun m hm => h m hm)]
    exact (decides_checkTerm v).map

end Single

/-! ## Lists -/

section Items

variable {α : Type} {item : Json → List (Check Unit)} {check : Json → Except Issue α}

/-- **A list of items is decided item by item**, and an issue tells the index
of the item it is with. -/
theorem decides_checkItems (h : ∀ v, Check.Decides Issue.IsHere (item v) (check v)) (index : Nat)
    (items : List Json) :
    Check.Decides Issue.IsAt (Check.onItems item index items) (checkItems check index items) := by
  induction items generalizing index with
  | nil => exact Check.decides_pure []
  | cons v rest ih =>
    have first : Check.Decides Issue.IsAt ((item v).map (Check.relocate fun _ => some index))
        ((check v).mapError (·.under (.index index))) := by
      refine (h v).mapError ?_
      rintro i kind _ ⟨hkind, hpath⟩
      exact ⟨hkind, by rw [Issue.under, hpath]; rfl⟩
    exact first.bind fun _ _ => (ih (index + 1)).bind_pure

/-- What is read off the checked items can be read off the items, if it can
for each of them. -/
theorem map_checkItems {β : Type} {key : α → β} {f : Json → β}
    (h : ∀ v x, check v = .ok x → key x = f v) {index : Nat} {items : List Json} {xs : List α}
    (hxs : checkItems check index items = .ok xs) : xs.map key = items.map f := by
  induction items generalizing index xs with
  | nil =>
    obtain rfl := Except.ok.inj hxs
    rfl
  | cons v rest ih =>
    obtain ⟨x, hx, hxs⟩ := Outcome.bind_eq_ok_iff.mp hxs
    obtain ⟨ys, hys, hxs⟩ := Outcome.bind_eq_ok_iff.mp hxs
    obtain rfl := Except.ok.inj hxs
    rw [List.map_cons, List.map_cons, h v x (Outcome.mapError_eq_ok_iff.mp hx), ih hys]

theorem mem_map_distinctFrom {key : α → Text} {seen : List Text} {xs : List α} {k : Text} :
    k ∈ (distinctFrom key seen xs).map key ↔ k ∈ xs.map key ∧ k ∉ seen := by
  induction xs generalizing seen with
  | nil => exact iff_of_false List.not_mem_nil fun h => List.not_mem_nil h.1
  | cons x rest ih =>
    rw [distinctFrom, List.map_cons]
    split
    · next hx =>
      rw [List.contains_iff_mem] at hx
      rw [ih, List.mem_cons]
      refine and_congr_left fun hk => (or_iff_right ?_).symm
      rintro rfl
      exact hk hx
    · next hx =>
      rw [List.contains_iff_mem] at hx
      rw [List.map_cons, List.mem_cons, List.mem_cons, ih, List.mem_cons, not_or]
      constructor
      · rintro (rfl | ⟨hmem, -, hk⟩)
        · exact ⟨.inl rfl, hx⟩
        · exact ⟨.inr hmem, hk⟩
      · rintro ⟨rfl | hmem, hk⟩
        · exact .inl rfl
        · by_cases he : k = key x
          · exact .inl he
          · exact .inr ⟨hmem, he, hk⟩

/-- **The keys of the distinct items** are the keys of all items, each once. -/
theorem perm_map_distinctBy (key : α → Text) (xs : List α) :
    ((distinctBy key xs).map key).Perm (xs.map key).dedup := by
  refine (List.perm_ext_iff_of_nodup (nodup_distinctBy xs) (List.nodup_dedup _)).mpr fun k => ?_
  rw [List.mem_dedup]
  exact mem_map_distinctFrom.trans (and_iff_left List.not_mem_nil)

end Items

theorem decides_checkList (v : Json) :
    Check.Decides Issue.IsHere [⟨v.IsList, .typeMismatch, ()⟩] (checkList v) := by
  cases v with
  | arr items => exact Check.decides_ok ⟨items, rfl⟩
  | _ =>
    refine Check.decides_error ?_ ⟨rfl, rfl⟩
    rintro ⟨_, ⟨⟩⟩

theorem eq_arr_of_checkList {v : Json} {items : List Json} (h : checkList v = .ok items) :
    v = .arr items := by
  cases v with
  | arr _ => exact congrArg Json.arr (Except.ok.inj h)
  | _ => cases h

/-! ## Labels -/

theorem label_of_checkTerm {v : Json} {t : Text} (h : checkTerm v = .ok t) : t = v.label := by
  obtain ⟨u, rfl, rfl, -⟩ := isTerm_of_checkTerm h
  rfl

theorem label_of_checkCategory {v : Json} {c : Category} (h : checkCategory v = .ok c) :
    c.key = v.label := by
  unfold checkCategory at h
  split at h
  · next m =>
    split at h
    · next hc =>
      obtain rfl := Except.ok.inj h
      obtain ⟨-, w, t, description, hw, ht, -, rfl⟩ := entryOf?_eq_some_iff.mp hc
      obtain ⟨u, rfl, rfl, -⟩ := isTerm_of_checkTerm ht
      show Text.strip u = match Members.get? "label".toText m with
        | some (.str t) => Text.strip t
        | _ => []
      rw [hw]
    · cases h
  · obtain ⟨t, ht, rfl⟩ := Outcome.map_eq_ok_iff.mp h
    exact label_of_checkTerm ht

/-- **Distinct checked items are as many as the labels**, and have those. -/
theorem perm_labels {α : Type} {key : α → Text} {check : Json → Except Issue α}
    {items : List Json} {xs : List α} (h : ∀ v x, check v = .ok x → key x = v.label)
    (hxs : checkItems check 0 items = .ok xs) :
    ((distinctBy key xs).map key).Perm (Json.arr items).labels := by
  show ((distinctBy key xs).map key).Perm (items.map Json.label).dedup
  rw [← map_checkItems h hxs]
  exact perm_map_distinctBy key xs

theorem LabelBounds.admits_iff {bounds : Option LabelBounds} {n : Nat} :
    LabelBounds.admits bounds n = true ↔ 1 ≤ n ∧ ∀ b ∈ bounds, n ≤ b.most := by
  unfold admits
  rw [Bool.and_eq_true, decide_eq_true_iff]
  refine and_congr_right fun _ => ?_
  cases bounds with
  | none => exact iff_of_true rfl nofun
  | some b => simp

theorem LabelBounds.overlong_eq_none_iff {bounds : Option LabelBounds} {labels : List Text} :
    LabelBounds.overlong bounds labels = none
      ↔ ∀ b ∈ bounds, ∀ t ∈ labels, t.length ≤ b.longest := by
  cases bounds with
  | none => exact iff_of_true rfl nofun
  | some b => simp [overlong]

theorem LabelBounds.mem_of_overlong {bounds : Option LabelBounds} {labels : List Text} {t : Text}
    {n : Nat} (h : LabelBounds.overlong bounds labels = some (t, n)) : t ∈ labels := by
  cases bounds with
  | none => cases h
  | some b =>
    obtain ⟨u, hu, heq⟩ := Option.map_eq_some_iff.mp h
    obtain ⟨rfl, -⟩ := Prod.mk.inj heq
    exact List.mem_of_find?_eq_some hu

/-! ## Whole labels -/

/-- No text and no name in a value has a half of a surrogate pair. -/
def Json.IsWhole (v : Json) : Prop := v.everyChar (fun c => !c.isHalf) = true

theorem Json.everyChar_of_mem {p : CodePoint → Bool} {items : List Json}
    (h : Json.itemsEveryChar p items = true) {v : Json} (hv : v ∈ items) :
    v.everyChar p = true := by
  induction items with
  | nil => exact absurd hv List.not_mem_nil
  | cons w rest ih =>
    rw [Json.itemsEveryChar, Bool.and_eq_true] at h
    obtain rfl | hv := List.mem_cons.mp hv
    · exact h.1
    · exact ih h.2 hv

theorem Text.mem_of_mem_strip {t : Text} {c : CodePoint} (h : c ∈ Text.strip t) : c ∈ t := by
  have hstart : c ∈ t.dropWhile Text.isBlank :=
    (List.rdropWhile_prefix Text.isBlank (t.dropWhile Text.isBlank)).subset h
  exact (List.dropWhile_sublist Text.isBlank).subset hstart

theorem Text.isWhole_append {t u : Text} :
    (t ++ u).isWhole = (t.isWhole && u.isWhole) := List.all_append

theorem Text.isWhole_ofChars (cs : List Char) : (Text.ofChars cs).isWhole = true := by
  refine List.all_eq_true.mpr fun c hc => ?_
  obtain ⟨d, -, rfl⟩ := List.mem_map.mp hc
  rfl

/-- A label that is too long can be named if it is whole. -/
theorem Issue.isHere_labelLength {t : Text} (h : t.isWhole = true) (n : Nat) :
    (Issue.labelLength t n).IsHere .boundsViolation () := by
  have whole : Text.isWhole ("category '".toText ++ t ++ "' exceeds ".toText ++ Text.ofNat n
      ++ " characters".toText) = true := by
    rw [Text.isWhole_append, Text.isWhole_append, Text.isWhole_append, Text.isWhole_append, h,
      Text.ofNat, Text.isWhole_ofChars]
    rfl
  unfold labelLength
  dsimp only
  rw [(Text.isWhole_iff_find? _).mp whole]
  exact ⟨rfl, rfl⟩

/-- The labels of a whole value are whole, if they are checked terms. -/
theorem isWhole_of_checkTerm {items : List Json} (hwhole : (Json.arr items).IsWhole)
    {terms : List Text} (h : checkItems checkTerm 0 items = .ok terms) {t : Text} (ht : t ∈ terms) :
    t.isWhole = true := by
  obtain ⟨v, hv, hvt⟩ := exists_of_mem_checkItems h ht
  obtain ⟨u, rfl, rfl, -⟩ := isTerm_of_checkTerm hvt
  have whole : u.isWhole = true := Json.everyChar_of_mem hwhole hv
  exact List.all_eq_true.mpr fun c hc => List.all_eq_true.mp whole c (Text.mem_of_mem_strip hc)

/-! ## Lists of labels -/

/-- Checks of a value itself, seen from the field. -/
theorem decides_onValue {ks : List (Check Unit)} {α : Type} {x : Except Issue α}
    (h : Check.Decides Issue.IsHere ks x) : Check.Decides Issue.IsAt (Check.onValue ks) x := by
  refine h.imp ?_
  rintro i kind _ ⟨hkind, hpath⟩
  exact ⟨hkind, hpath⟩

theorem decides_checkLabels (bounds : Option LabelBounds) {v : Json} (hwhole : v.IsWhole) :
    Check.Decides Issue.IsAt ((Kind.labels bounds).checks v) (checkLabels bounds v) := by
  show Check.Decides _ (_ ++ _ ++ _) _
  rw [List.append_assoc]
  refine (decides_onValue (decides_checkList v)).bind fun items hitems => ?_
  obtain ⟨rfl⟩ : v = .arr items := eq_arr_of_checkList hitems
  refine (decides_checkItems decides_checkTerm 0 items).bind fun terms hterms => ?_
  have perm : ((distinctBy id terms).map id).Perm (Json.arr items).labels :=
    perm_labels (fun _ _ h => label_of_checkTerm h) hterms
  rw [List.map_id] at perm
  refine decides_onValue ?_
  dsimp only
  -- a number out of bounds is reported before a label that is too long
  by_cases hcount : LabelBounds.admits bounds (distinctBy id terms).length = true
  · rw [if_pos hcount]
    rw [perm.length_eq, LabelBounds.admits_iff] at hcount
    split
    · next t n hlong =>
      have hmem := distinctBy_subset terms (LabelBounds.mem_of_overlong hlong)
      refine (Check.IsFirstFailing.cons hcount (.head fun short => ?_)).decides
        (Issue.isHere_labelLength (isWhole_of_checkTerm hwhole hterms hmem) n)
      have hnone : LabelBounds.overlong bounds (distinctBy id terms) = none :=
        LabelBounds.overlong_eq_none_iff.mpr fun b hb t ht => short b hb t (perm.subset ht)
      rw [hlong] at hnone
      cases hnone
    · next hnone =>
      refine List.forall_mem_cons.mpr ⟨hcount, List.forall_mem_singleton.mpr fun b hb t ht => ?_⟩
      exact LabelBounds.overlong_eq_none_iff.mp hnone b hb t (perm.symm.subset ht)
  · rw [if_neg hcount]
    rw [perm.length_eq, LabelBounds.admits_iff] at hcount
    exact (Check.IsFirstFailing.head hcount).decides ⟨rfl, rfl⟩

theorem decides_checkCategories (v : Json) :
    Check.Decides Issue.IsAt (Kind.categories.checks v) (checkCategories v) := by
  show Check.Decides _ (_ ++ _ ++ _) _
  rw [List.append_assoc]
  refine (decides_onValue (decides_checkList v)).bind fun items hitems => ?_
  obtain ⟨rfl⟩ : v = .arr items := eq_arr_of_checkList hitems
  refine (decides_checkItems decides_checkCategory 0 items).bind fun categories hcategories => ?_
  have perm := perm_labels (fun _ _ h => label_of_checkCategory h) hcategories
  have length : (distinctBy Category.key categories).length = (Json.arr items).labels.length := by
    rw [← perm.length_eq, List.length_map]
  refine decides_onValue ?_
  dsimp only
  rw [length]
  by_cases hcount : Issue.fewestCategories ≤ (Json.arr items).labels.length
  · rw [if_pos hcount]
    exact Check.decides_ok hcount
  · rw [if_neg hcount]
    exact Check.decides_error hcount ⟨rfl, rfl⟩

/-! ## All kinds -/

theorem decides_checkFunctionName (v : Json) :
    Check.Decides Issue.IsAt (Kind.functionName.checks v) (checkFunctionName v) := by
  refine decides_onValue ((decides_checkTerm v).bind fun t ht => ?_)
  obtain ⟨u, rfl, rfl, -⟩ := isTerm_of_checkTerm ht
  by_cases h : functionStem.isPrefixOf (Text.lower (Text.strip u)) = true
  · rw [if_pos h]
    refine Check.decides_ok ?_
    rintro _ ⟨⟩
    exact List.isPrefixOf_iff_prefix.mp h
  · rw [if_neg h]
    refine Check.decides_error (fun stem => h ?_) ⟨rfl, rfl⟩
    exact List.isPrefixOf_iff_prefix.mpr (stem u rfl)

/-- **The checks of a kind decide its check**: a value is accepted exactly if
it meets them all, and else the issue is about the first it does not meet. -/
theorem Kind.decides_check (k : Kind) {v : Json} (hwhole : v.IsWhole) :
    Check.Decides Issue.IsAt (k.checks v) (k.check v) := by
  cases k with
  | prose => exact (decides_onValue (decides_checkProse v)).map
  | term => exact (decides_onValue (decides_checkTerm v)).map
  | functionName => exact (decides_checkFunctionName v).map
  | flag =>
    refine decides_onValue ?_
    cases v with
    | bool b => exact Check.decides_ok ⟨b, rfl⟩
    | _ => exact Check.decides_error nofun ⟨rfl, rfl⟩
  | object =>
    refine decides_onValue ?_
    cases v with
    | obj m => exact Check.decides_ok ⟨m, rfl⟩
    | _ => exact Check.decides_error nofun ⟨rfl, rfl⟩
  | objectOrList =>
    refine decides_onValue ?_
    cases v with
    | obj m => exact Check.decides_ok (.inl ⟨m, rfl⟩)
    | arr items => exact Check.decides_ok (.inr ⟨items, rfl⟩)
    | _ => exact Check.decides_error (by rintro (⟨_, ⟨⟩⟩ | ⟨_, ⟨⟩⟩)) ⟨rfl, rfl⟩
  | proseOrObject =>
    refine decides_onValue ?_
    cases v with
    | obj m =>
      exact List.forall_mem_cons.mpr
        ⟨.inr ⟨m, rfl⟩, List.forall_mem_singleton.mpr (isFilled_obj m)⟩
    | _ =>
      rw [textOr_of_not (by rintro ⟨_, ⟨⟩⟩)]
      exact (decides_checkProse _).map (f := Value.text)
  | labels bounds => exact (decides_checkLabels bounds hwhole).map
  | categories => exact (decides_checkCategories v).map
  | file => exact (decides_onValue (decides_checkFile v)).map

end CortexCall
