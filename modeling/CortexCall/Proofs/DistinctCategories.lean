import CortexCall.Proofs.FaithfulEcho

/-!
# Lists of categories

Three functions take a list of categories, and each looks at the list in the same
order: entry by entry first, then at the labels with repetitions left out, at how
many they are and – for one of them – at how long they are. Texts and objects
may be mixed; what tells two entries apart is the label without the blanks
around it, in whichever form it is written.

Once every entry is valid on its own, nothing about the list matters but
`Json.firstOfEach`, the entries whose label no earlier entry has. Their labels are
the distinct labels in the order of first appearance
(`Json.map_label_firstOfEach`), each of them is the first entry of its label
(`Json.find?_of_mem_firstOfEach`), and a copy of an entry put in anywhere behind it
is not seen (`Json.Repeated.firstOfEach_eq`). `categories_settled` puts this together
with the bounds of each function.
-/

namespace CortexCall

/-! ## First entries -/

namespace Json

variable {items items' : List Json} {v : Json}

/-- The labels of some entries in the order of first appearance, each of them once. -/
def distinctLabels (items : List Json) : List Text := (items.map label).eraseDups

/-- Entries can be dropped by their labels before or after the later ones of each
label. -/
theorem firstOfEach_filter (p : Text → Bool) (items : List Json) :
    firstOfEach (items.filter fun v => p v.label)
      = (firstOfEach items).filter fun v => p v.label := by
  induction items with
  | nil => rfl
  | cons v rest ih =>
    by_cases hv : p v.label = true
    · rw [List.filter_cons_of_pos (p := fun v : Json => p v.label) hv, firstOfEach, firstOfEach,
        List.filter_cons_of_pos (p := fun v : Json => p v.label) hv, ih, List.filter_filter,
        List.filter_filter]
      simp only [Bool.and_comm]
    · rw [List.filter_cons_of_neg (p := fun v : Json => p v.label) hv, firstOfEach,
        List.filter_cons_of_neg (p := fun v : Json => p v.label) hv, ih, List.filter_filter]
      refine List.filter_congr fun w _ => ?_
      by_cases hw : p w.label = true
      · have apart : w.label ≠ v.label := fun same => hv (same ▸ hw)
        rw [bne_iff_ne.mpr apart, Bool.and_true]
      · rw [eq_false_of_ne_true hw, Bool.false_and]

/-- **The first entries have the distinct labels**, in the same order. -/
theorem map_label_firstOfEach (items : List Json) :
    (firstOfEach items).map label = distinctLabels items := by
  -- behind an entry its label is left out, so the induction is on what is left
  have left (p : Text → Bool) : (firstOfEach (items.filter fun v => p v.label)).map label
      = ((items.map label).filter p).eraseDups := by
    induction items generalizing p with
    | nil => rfl
    | cons v rest ih =>
      rw [List.map_cons]
      by_cases hv : p v.label = true
      · rw [List.filter_cons_of_pos (p := fun v : Json => p v.label) hv, List.filter_cons_of_pos hv,
          List.eraseDups_cons, firstOfEach, List.map_cons, List.filter_filter, ← ih,
          ← firstOfEach_filter (fun t => t != v.label), List.filter_filter]
        rfl
      · rw [List.filter_cons_of_neg (p := fun v : Json => p v.label) hv,
          List.filter_cons_of_neg hv, ih]
  have all := left fun _ => true
  rwa [List.filter_true, List.filter_true] at all

/-- **A first entry is the first of its label.** -/
theorem find?_of_mem_firstOfEach (h : v ∈ firstOfEach items) :
    items.find? (fun w => w.label == v.label) = some v := by
  induction items with
  | nil => exact absurd h List.not_mem_nil
  | cons w rest ih =>
    obtain rfl | h := List.mem_cons.mp h
    · exact List.find?_cons_of_pos (beq_self_eq_true _)
    · obtain ⟨hrest, apart⟩ := List.mem_filter.mp h
      rw [List.find?_cons_of_neg, ih hrest]
      exact fun same => bne_iff_ne.mp apart (eq_of_beq same).symm

theorem firstOfEach_subset : firstOfEach items ⊆ items := fun _ h =>
  List.mem_of_find?_eq_some (find?_of_mem_firstOfEach h)

/-- Some entries, and the same with some of them repeated behind them. -/
inductive Repeated (items : List Json) : List Json → Prop
  /-- Nothing is repeated. -/
  | none : Repeated items items
  /-- One more entry is repeated, anywhere behind it. -/
  | insert {before after : List Json} {v : Json} (shorter : Repeated items (before ++ after))
      (behind : v ∈ before) : Repeated items (before ++ v :: after)

/-- An entry behind one of the same label is not a first one. -/
theorem firstOfEach_insert {before : List Json} (h : v ∈ before) (after : List Json) :
    firstOfEach (before ++ v :: after) = firstOfEach (before ++ after) := by
  induction before with
  | nil => exact absurd h List.not_mem_nil
  | cons w rest ih =>
    rw [List.cons_append, List.cons_append, firstOfEach, firstOfEach]
    congr 1
    obtain rfl | h := List.mem_cons.mp h
    · rw [← firstOfEach_filter (fun t => t != v.label),
        ← firstOfEach_filter (fun t => t != v.label), List.filter_append, List.filter_append,
        List.filter_cons_of_neg (by rw [bne_self_eq_false]; exact Bool.false_ne_true)]
    · rw [ih h]

/-- **Repetitions are not seen.** -/
theorem Repeated.firstOfEach_eq (h : Repeated items items') :
    firstOfEach items' = firstOfEach items := by
  induction h with
  | none => rfl
  | insert _ behind ih => rw [firstOfEach_insert behind, ih]

/-- A repeated entry is one of the entries. -/
theorem Repeated.subset (h : Repeated items items') : items' ⊆ items := by
  induction h with
  | none => exact List.Subset.refl items
  | insert _ behind ih =>
    intro w hw
    obtain hw | hw := List.mem_append.mp hw
    · exact ih (List.mem_append_left _ hw)
    obtain rfl | hw := List.mem_cons.mp hw
    · exact ih (List.mem_append_left _ behind)
    · exact ih (List.mem_append_right _ hw)

end Json

/-! ## Entries that are valid -/

/-- An entry that is valid on its own: a text that is not blank, and for a
classification also an object with a label. -/
def AiFunction.AdmitsEntry : AiFunction → Json → Prop
  | .classify, v => (v.IsText ∨ v.IsEntry) ∧ v.IsFilled
  | _, v => v.IsText ∧ v.IsFilled

theorem checkCategory_eq_ok_iff {v : Json} :
    (∃ c, checkCategory v = .ok c) ↔ (v.IsText ∨ v.IsEntry) ∧ v.IsFilled := by
  rw [(decides_checkCategory v).isOk_iff]
  simp [Check.category, Check.textOr]

section Entries

variable {α : Type} {key : α → Text} {check : Json → Except Issue α} {items : List Json}

/-- Entries that are valid one by one are valid together. -/
theorem exists_checkItems (h : ∀ v ∈ items, ∃ x, check v = .ok x) (index : ℕ) :
    ∃ xs, checkItems check index items = .ok xs := by
  induction items generalizing index with
  | nil => exact ⟨[], rfl⟩
  | cons v rest ih =>
    obtain ⟨⟨x, hx⟩, hrest⟩ := List.forall_mem_cons.mp h
    obtain ⟨xs, hxs⟩ := ih hrest (index + 1)
    refine ⟨x :: xs, ?_⟩
    rw [checkItems, hx, hxs]
    rfl

/-- The entries of a list that is checked depend on the first ones only, and
have the distinct labels. -/
theorem exists_distinct (hkey : ∀ {v x}, check v = .ok x → key x = v.label)
    (h : ∀ v ∈ items, ∃ x, check v = .ok x) :
    ∃ xs, checkItems check 0 items = .ok xs
      ∧ List.Forall₂ (fun v x => check v = .ok x) (Json.firstOfEach items) (distinctBy key xs)
      ∧ (distinctBy key xs).map key = Json.distinctLabels items := by
  obtain ⟨xs, hxs⟩ := exists_checkItems h 0
  refine ⟨xs, hxs, forall₂_distinctBy (fun _ _ hx => hkey hx) (forall₂_of_checkItems hxs), ?_⟩
  rw [map_distinctBy hkey hkey hxs, Json.map_label_firstOfEach]

end Entries

/-! ## Labels and categories -/

/-- **A list of valid texts is settled by its distinct labels.** -/
theorem checkLabels_arr {items : List Json} (h : ∀ v ∈ items, v.IsText ∧ v.IsFilled)
    (bounds : Option LabelBounds) : checkLabels bounds (.arr items)
      = if LabelBounds.admits bounds (Json.distinctLabels items).length then
          match LabelBounds.overlong bounds (Json.distinctLabels items) with
          | some (t, n) => .error (.labelLength t n)
          | none => .ok (Json.distinctLabels items)
        else .error (.labelCount bounds (Json.distinctLabels items).length) := by
  have labelled : ∀ {v t}, checkTerm v = .ok t → id t = v.label := label_of_checkTerm
  obtain ⟨terms, hterms, -, distinct⟩ :=
    exists_distinct labelled fun v hv => checkTerm_eq_ok_iff.mpr (h v hv)
  rw [List.map_id] at distinct
  unfold checkLabels
  show (checkItems checkTerm 0 items >>= _) = _
  rw [hterms, ← distinct]
  rfl

/-- **A list of valid categories is settled by its first entries.** -/
theorem exists_checkCategories_arr {items : List Json}
    (h : ∀ v ∈ items, (v.IsText ∨ v.IsEntry) ∧ v.IsFilled) :
    ∃ cs, List.Forall₂ (fun v c => checkCategory v = .ok c) (Json.firstOfEach items) cs
      ∧ checkCategories (.arr items)
        = if Issue.fewestCategories ≤ (Json.distinctLabels items).length then .ok cs
          else .error (.categoryCount (Json.distinctLabels items).length) := by
  obtain ⟨all, hall, kept, distinct⟩ :=
    exists_distinct label_of_checkCategory fun v hv => checkCategory_eq_ok_iff.mpr (h v hv)
  refine ⟨distinctBy Category.key all, kept, ?_⟩
  have count := congrArg List.length distinct
  rw [List.length_map] at count
  unfold checkCategories
  show (checkItems checkCategory 0 items >>= _) = _
  rw [hall, ← count]
  rfl

/-! ## The three functions -/

namespace AiFunction

/-- How many distinct labels a function takes. -/
def AdmitsLabelCount : AiFunction → ℕ → Prop
  | .sentiment, n => 1 ≤ n ∧ n ≤ 10
  | .classify, n => 2 ≤ n
  | .countTokens, n => 1 ≤ n
  | _, _ => False

/-- How many code points a label may have, if there is a bound. -/
def longestLabel? : AiFunction → Option ℕ
  | .sentiment => some 30
  | _ => none

/-- What is said about a wrong number of distinct labels. -/
def labelCountText : AiFunction → ℕ → Text
  | .sentiment, n => "expected 1 to 10 categories, got ".toText ++ Text.ofNat n
  | .classify, n => "expected at least 2 unique categories, got ".toText ++ Text.ofNat n
  | _, _ => "expected at least 1 category".toText

/-- A list of categories is a list of labels or of categories. -/
theorem kind_of_categories {f : AiFunction} {q : Parameter} (hq : q ∈ f.parameters)
    (hfield : q.field = .categories) :
    f = .sentiment ∧ q.kind = .labels (some aspectBounds)
      ∨ f = .countTokens ∧ q.kind = .labels none ∨ f = .classify ∧ q.kind = .categories := by
  revert q
  cases f <;> decide

end AiFunction

/-- **A list of categories settled by its distinct labels**: what its check says when
its entries are valid one by one. -/
structure SettledByLabels (f : AiFunction) (check : Json → Except Issue Value)
    (items : List Json) : Prop where
  /-- The list is accepted exactly if the number of distinct labels is right, and
  none of them is too long. -/
  accepted : (∃ v, check (.arr items) = .ok v)
    ↔ f.AdmitsLabelCount (Json.distinctLabels items).length
      ∧ ∀ t ∈ Json.distinctLabels items, ∀ n ∈ f.longestLabel?, t.length ≤ n
  /-- For each distinct label, in the order of first appearance, the first entry of
  that label is kept, cleaned. -/
  kept : ∀ v, check (.arr items) = .ok v → ∃ kept : List Json,
    kept.map Json.label = Json.distinctLabels items
      ∧ (∀ e ∈ kept, items.find? (fun w => w.label == e.label) = some e)
      ∧ v.toJson = .arr (kept.map Json.cleanedCategory)
  /-- A wrong number of distinct labels is reported, whatever their lengths. -/
  count : ¬ f.AdmitsLabelCount (Json.distinctLabels items).length → check (.arr items)
    = .error (.here .boundsViolation (f.labelCountText (Json.distinctLabels items).length))
  /-- If the number is right, the first label that is too long is reported. -/
  length : f.AdmitsLabelCount (Json.distinctLabels items).length → ∀ n ∈ f.longestLabel?, ∀ t,
    (Json.distinctLabels items).find? (fun u => n < u.length) = some t →
      check (.arr items) = .error (.labelLength t n)
  /-- Entries that are repeated behind themselves change nothing. -/
  repeated : ∀ items', Json.Repeated items items' → check (.arr items') = check (.arr items)
  /-- What is kept is kept again as it is. -/
  again : ∀ v, check (.arr items) = .ok v → check v.toJson = .ok v

section Settled

variable {f : AiFunction} {items : List Json}

/-- What a check of a list keeps are the first entries, cleaned. -/
theorem exists_kept {k : Kind} {v : Value} (h : k.check (.arr items) = .ok v)
    (hcleaned : k.cleaned (.arr items)
      = .arr ((Json.firstOfEach items).map Json.cleanedCategory)) :
    ∃ kept : List Json, kept.map Json.label = Json.distinctLabels items
      ∧ (∀ e ∈ kept, items.find? (fun w => w.label == e.label) = some e)
      ∧ v.toJson = .arr (kept.map Json.cleanedCategory) :=
  ⟨Json.firstOfEach items, Json.map_label_firstOfEach items,
    fun _ he => Json.find?_of_mem_firstOfEach he, by rw [← hcleaned, Kind.cleaned_of_check h]⟩

theorem distinctLabels_eq_of_repeated {items' : List Json} (h : Json.Repeated items items') :
    Json.distinctLabels items' = Json.distinctLabels items := by
  rw [← Json.map_label_firstOfEach, h.firstOfEach_eq, Json.map_label_firstOfEach]

/-- A text among the entries is cleaned like one among the labels. -/
theorem cleaned_labels (h : ∀ v ∈ items, v.IsText ∧ v.IsFilled) (bounds : Option LabelBounds) :
    (Kind.labels bounds).cleaned (.arr items)
      = .arr ((Json.firstOfEach items).map Json.cleanedCategory) := by
  refine congrArg Json.arr (List.map_congr_left fun v hv => ?_)
  obtain ⟨t, rfl⟩ := (h v (Json.firstOfEach_subset hv)).1
  rfl

/-- **A list of labels is settled by its distinct labels**, if its bounds are those
of the function. -/
theorem settledByLabels_labels {bounds : Option LabelBounds}
    (hcount : ∀ n, LabelBounds.admits bounds n = true ↔ f.AdmitsLabelCount n)
    (hlength : bounds.map LabelBounds.longest = f.longestLabel?)
    (htext : ∀ n, ¬ f.AdmitsLabelCount n →
      Issue.labelCount bounds n = .here .boundsViolation (f.labelCountText n))
    (h : ∀ v ∈ items, v.IsText ∧ v.IsFilled) :
    SettledByLabels f (Kind.labels bounds).check items := by
  have settled := checkLabels_arr h bounds
  have wrong : ¬ f.AdmitsLabelCount (Json.distinctLabels items).length →
      checkLabels bounds (.arr items)
        = .error (.here .boundsViolation (f.labelCountText (Json.distinctLabels items).length)) :=
    fun hn => by rw [settled, if_neg (mt (hcount _).mp hn), htext _ hn]
  have long : f.AdmitsLabelCount (Json.distinctLabels items).length → ∀ t n,
      LabelBounds.overlong bounds (Json.distinctLabels items) = some (t, n) →
        checkLabels bounds (.arr items) = .error (.labelLength t n) :=
    fun hn t n ht => by rw [settled, if_pos ((hcount _).mpr hn), ht]
  have right : f.AdmitsLabelCount (Json.distinctLabels items).length →
      LabelBounds.overlong bounds (Json.distinctLabels items) = none →
        checkLabels bounds (.arr items) = .ok (Json.distinctLabels items) :=
    fun hn ht => by rw [settled, if_pos ((hcount _).mpr hn), ht]
  have short : LabelBounds.overlong bounds (Json.distinctLabels items) = none
      ↔ ∀ t ∈ Json.distinctLabels items, ∀ n ∈ f.longestLabel?, t.length ≤ n := by
    rw [LabelBounds.overlong_eq_none_iff, ← hlength]
    cases bounds with
    | none => simp
    | some b => simp
  constructor
  case accepted =>
    rw [← short]
    constructor
    · rintro ⟨v, hv⟩
      obtain ⟨ls, hls, -⟩ := Outcome.map_eq_ok_iff.mp hv
      have hn : f.AdmitsLabelCount (Json.distinctLabels items).length := by
        by_contra hn
        cases (wrong hn).symm.trans hls
      refine ⟨hn, ?_⟩
      cases ht : LabelBounds.overlong bounds (Json.distinctLabels items) with
      | none => rfl
      | some tn => cases (long hn tn.1 tn.2 ht).symm.trans hls
    · rintro ⟨hn, ht⟩
      exact ⟨_, congrArg (Except.map Value.labels) (right hn ht)⟩
  case kept => exact fun v hv => exists_kept hv (cleaned_labels h bounds)
  case count => exact fun hn => congrArg (Except.map Value.labels) (wrong hn)
  case length =>
    intro hn n hlongest t ht
    refine congrArg (Except.map Value.labels) (long hn t n ?_)
    obtain ⟨b, rfl, rfl⟩ := Option.map_eq_some_iff.mp (hlength.trans hlongest)
    exact congrArg (Option.map (·, b.longest)) ht
  case repeated =>
    intro items' hrepeated
    refine congrArg (Except.map Value.labels) ?_
    rw [checkLabels_arr (fun v hv => h v (hrepeated.subset hv)), settled,
      distinctLabels_eq_of_repeated hrepeated]
  case again =>
    intro v hv
    obtain ⟨ls, -, rfl⟩ := Outcome.map_eq_ok_iff.mp hv
    exact congrArg (Except.map Value.labels) (checkLabels_map (Kind.admits_of_check hv))

/-- **A list of categories is settled by its distinct labels.** -/
theorem settledByLabels_categories (h : ∀ v ∈ items, (v.IsText ∨ v.IsEntry) ∧ v.IsFilled) :
    SettledByLabels .classify Kind.categories.check items := by
  obtain ⟨cs, hcs, settled⟩ := exists_checkCategories_arr h
  have wrong : ¬ 2 ≤ (Json.distinctLabels items).length → checkCategories (.arr items)
      = .error (.categoryCount (Json.distinctLabels items).length) :=
    fun hn => settled.trans (if_neg hn)
  have right : 2 ≤ (Json.distinctLabels items).length → checkCategories (.arr items) = .ok cs :=
    fun hn => settled.trans (if_pos hn)
  constructor
  case accepted =>
    constructor
    · rintro ⟨v, hv⟩
      obtain ⟨cs', hcs', -⟩ := Outcome.map_eq_ok_iff.mp hv
      refine ⟨?_, fun _ _ n hn => absurd hn (Option.not_mem_none n)⟩
      by_contra hn
      cases (wrong hn).symm.trans hcs'
    · rintro ⟨hn, -⟩
      exact ⟨_, congrArg (Except.map Value.categories) (right hn)⟩
  case kept => exact fun v hv => exists_kept hv rfl
  case count => exact fun hn => congrArg (Except.map Value.categories) (wrong hn)
  case length => exact fun _ n hn => absurd hn (Option.not_mem_none n)
  case repeated =>
    intro items' hrepeated
    obtain ⟨cs', hcs', settled'⟩ :=
      exists_checkCategories_arr fun v hv => h v (hrepeated.subset hv)
    rw [hrepeated.firstOfEach_eq] at hcs'
    rw [distinctLabels_eq_of_repeated hrepeated] at settled'
    -- the same entries are checked, and a check has one result
    have same : cs' = cs := List.right_unique_forall₂'
      (fun _ _ _ hc hc' => Except.ok.inj (hc.symm.trans hc')) hcs' hcs
    refine congrArg (Except.map Value.categories) ?_
    rw [settled', settled, same]
  case again =>
    intro v hv
    obtain ⟨ls, -, rfl⟩ := Outcome.map_eq_ok_iff.mp hv
    exact congrArg (Except.map Value.categories) (checkCategories_map (Kind.admits_of_check hv))

end Settled

/-- **A list of categories is settled by its distinct labels**, for each function that
takes one. -/
theorem categories_settled {f : AiFunction} {q : Parameter} (hq : q ∈ f.parameters)
    (hfield : q.field = .categories) {items : List Json}
    (hvalid : ∀ v ∈ items, f.AdmitsEntry v) : SettledByLabels f q.kind.check items := by
  obtain ⟨rfl, hkind⟩ | ⟨rfl, hkind⟩ | ⟨rfl, hkind⟩ := AiFunction.kind_of_categories hq hfield
  · rw [hkind]
    refine settledByLabels_labels (fun n => ?_) rfl (fun n _ => ?_) hvalid
    · rw [LabelBounds.admits_iff]
      simp [AiFunction.AdmitsLabelCount, AiFunction.aspectBounds]
    · have ten : Text.ofNat AiFunction.aspectBounds.most = "10".toText := by decide
      unfold Issue.labelCount AiFunction.labelCountText
      dsimp only
      rw [ten]
      rfl
  · rw [hkind]
    refine settledByLabels_labels (fun n => ?_) rfl (fun n _ => rfl) hvalid
    rw [LabelBounds.admits_iff]
    simp [AiFunction.AdmitsLabelCount]
  · rw [hkind]
    exact settledByLabels_categories hvalid

/-- Two labels, each in both forms and with blanks around it in one of them. -/
def mixedCategories : List Json :=
  [.str " a".toText,
   .obj [("description".toText, .str "of a".toText), ("label".toText, .str "a".toText)],
   .obj [("label".toText, .str "b ".toText)],
   .str "b".toText]

/-- The text comes first for one label and the object for the other. -/
theorem categories_settled_mixed :
    (∀ v ∈ mixedCategories, AiFunction.classify.AdmitsEntry v)
      ∧ Kind.categories.check (.arr mixedCategories)
        = .ok (.categories [.label "a".toText, .entry "b".toText none])
      ∧ SettledByLabels .classify Kind.categories.check mixedCategories := by
  have valid : ∀ v ∈ mixedCategories, AiFunction.classify.AdmitsEntry v := by
    have checked : ∀ v ∈ mixedCategories, (checkCategory v).toOption.isSome = true := by decide
    intro v hv
    obtain ⟨c, hc⟩ := Option.isSome_iff_exists.mp (checked v hv)
    exact checkCategory_eq_ok_iff.mp ⟨c, toOption_eq_some_iff.mp hc⟩
  have listed : Parameter.mandatory .categories .categories ["list_of_categories".toText]
      ∈ AiFunction.classify.parameters := by decide
  exact ⟨valid, rfl, categories_settled listed rfl valid⟩

end CortexCall
