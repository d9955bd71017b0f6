import CortexCall.Proofs.EquivalentRequests

/-!
# Unifying the spellings conserves the values

Unifying takes members out under one name and appends them under another, so
it has two ways to go wrong: a value may get lost, or be there twice. Neither
happens, whatever the table is – even where an alternate spelling of one field
is the name of another, so that a later row moves what an earlier one has moved.
The reason is the same in every row: a member is only moved to a name that is not
in use. Distinct names stay distinct, and the values are rearranged,
`unifyField_conserved` for a row and `unifyFields_conserved` for a walk.

If no name stands twice in the table, more can be said. A walk that does not end in
a conflict takes out all alternate spellings, leaves the rest in its order, and puts
the renamed fields behind it in the order of the table: `unifyFields_eq`. The
first field with two spellings is the one conflict there can be. Both together are
`unify_conserves`.
-/

namespace CortexCall

namespace SpellingTable

/-- The alternate spellings in a table. -/
def alternates (table : SpellingTable) : List Text := table.flatMap Prod.snd

/-- **The name that a table has for a name**: the field of the first row in which the
name stands, and the name itself if it stands in none. -/
def canonical (table : SpellingTable) (name : Text) : Text :=
  ((table.find? fun row => (row.1 :: row.2).contains name).map Prod.fst).getD name

end SpellingTable

namespace Members

/-- **Nothing is lost and nothing is invented**: the values are those that are not
`null`, each as often as before. -/
structure Conserved (m r : Members) : Prop where
  values : (r.map Prod.snd).Perm ((m.map Prod.snd).filter fun v => !v.isNull)
  notNull : ∀ v ∈ r.map Prod.snd, v.isNull = false

/-- **Each field under its own name**, of the members that are not `null`. -/
structure Collapsed (table : SpellingTable) (m r : Members) : Prop where
  /-- A name has the value that is given under one of its spellings. -/
  maps : ∀ n v, r.get? n = some v
    ↔ ∃ k, (k, v) ∈ m ∧ v.isNull = false ∧ table.canonical k = n
  alternates : ∀ n ∈ table.alternates, n ∉ r.names
  /-- What need not be renamed comes first, and then the fields that were. -/
  order : r.names = (m.present.names.filter fun n => !table.alternates.contains n)
    ++ (table.filter fun row => row.2.any fun n => m.present.names.contains n).map Prod.fst

/-- **How the spellings of a table are settled**, one field after the other. -/
structure Settles (function : Text) (table : SpellingTable) (m : Members) : Prop where
  /-- Two spellings of a field are the only reason to refuse. -/
  refused_iff : (∃ e, m.unify function table = .error e)
    ↔ ∃ row ∈ table, 1 < (m.present.spellingsOf row.1 row.2).length
  /-- The first such field is named, and its spellings in the order of the table. -/
  first : ∀ e, m.unify function table = .error e → ∃ row,
    table.find? (fun row => 1 < (m.present.spellingsOf row.1 row.2).length) = some row
      ∧ e = .conflict function row.1 (m.present.spellingsOf row.1 row.2)
      ∧ e.kind = .aliasConflict ∧ e.field = some row.1
      ∧ e.message = function ++ ": provide only one of ".toText
        ++ Text.join ", ".toText (m.present.spellingsOf row.1 row.2) ++ ".".toText
  collapsed : ∀ r, m.unify function table = .ok r → Collapsed table m r
  /-- There is nothing left to settle. -/
  again : ∀ r, m.unify function table = .ok r → r.unify function table = .ok r

/-! ## A member that moves -/

section Moved

variable {m m' : Members} {function field old new : Text} {alternates : List Text} {v : Json}

/-- A member can be taken out and put in front. -/
theorem perm_cons_erase (distinct : m.names.Nodup) (h : m.get? old = some v) :
    m.Perm ((old, v) :: m.erase old) := by
  induction m with
  | nil => cases h
  | cons p rest ih =>
    obtain ⟨n, w⟩ := p
    obtain ⟨absent, distinct⟩ := List.nodup_cons.mp distinct
    rw [get?_cons] at h
    unfold erase at ih ⊢
    by_cases hn : n = old
    · subst hn
      obtain rfl := Option.some.inj ((if_pos rfl).symm.trans h)
      have kept : rest.filter (fun p => p.1 != n) = rest :=
        List.filter_eq_self.mpr fun p hp =>
          bne_iff_ne.mpr fun e => absent (List.mem_map.mpr ⟨p, hp, e⟩)
      rw [List.filter_cons_of_neg (by simp), kept]
    · rw [if_neg hn] at h
      rw [List.filter_cons, if_pos (bne_iff_ne.mpr hn)]
      exact ((ih distinct h).cons _).trans (.swap _ _ _)

/-- **Renaming a member rearranges the values.** -/
theorem values_rename (distinct : m.names.Nodup) (h : m.get? old = some v) :
    ((m.rename old new).map Prod.snd).Perm (m.map Prod.snd) := by
  unfold rename
  rw [h]
  have moved : (m.erase old ++ [(new, v)]).Perm ((new, v) :: m.erase old) :=
    List.perm_append_singleton _ _
  exact (moved.map Prod.snd).trans ((perm_cons_erase distinct h).map Prod.snd).symm

/-- Renaming to a name that is not in use keeps the names distinct. -/
theorem nodup_names_rename (distinct : m.names.Nodup) (h : m.get? old = some v)
    (hnew : m.get? new = none) : (m.rename old new).names.Nodup := by
  rw [names_rename h]
  refine (distinct.filter _).append (List.nodup_singleton new) ?_
  rw [List.disjoint_singleton]
  exact fun hmem => get?_eq_none_iff.mp hnew (List.mem_of_mem_filter hmem)

/-- **A row conserves the values**, and distinct names. -/
theorem unifyField_conserved (distinct : m.names.Nodup)
    (h : m.unifyField function field alternates = .ok m') :
    m'.names.Nodup ∧ (m'.map Prod.snd).Perm (m.map Prod.snd) := by
  unfold unifyField at h
  split at h
  · obtain rfl := Except.ok.inj h
    exact ⟨distinct, .refl _⟩
  · next name hused =>
    obtain rfl := Except.ok.inj h
    split
    · exact ⟨distinct, .refl _⟩
    · next hne =>
      have hmem : name ∈ m.spellingsOf field alternates := hused ▸ List.mem_singleton_self name
      obtain ⟨v, hv⟩ := Option.isSome_iff_exists.mp (List.mem_filter.mp hmem).2
      have unused : m.get? field = none :=
        get?_eq_none_of_spellingsOf hused List.mem_cons_self
          fun e => hne (List.mem_singleton.mp e).symm
      exact ⟨nodup_names_rename distinct hv unused, values_rename distinct hv⟩
  · cases h

/-- **A walk conserves the values**, whatever the table. -/
theorem unifyFields_conserved {table : SpellingTable} (distinct : m.names.Nodup)
    (h : m.unifyFields function table = .ok m') :
    m'.names.Nodup ∧ (m'.map Prod.snd).Perm (m.map Prod.snd) := by
  induction table generalizing m with
  | nil =>
    obtain rfl := Except.ok.inj h
    exact ⟨distinct, .refl _⟩
  | cons row rest ih =>
    obtain ⟨m₁, h₁, h⟩ := Outcome.bind_eq_ok_iff.mp h
    obtain ⟨distinct₁, moved₁⟩ := unifyField_conserved distinct h₁
    obtain ⟨distinct', moved⟩ := ih distinct₁ h
    exact ⟨distinct', moved.trans moved₁⟩

/-- Unifying drops every `null` and conserves the other values. -/
theorem conserved_of_unify {table : SpellingTable} (distinct : m.names.Nodup)
    (h : m.unify function table = .ok m') : Conserved m m' := by
  have rearranged := (unifyFields_conserved (nodup_names_present distinct) h).2
  have values : (m'.map Prod.snd).Perm ((m.map Prod.snd).filter fun v => !v.isNull) := by
    rw [List.filter_map]
    exact rearranged
  refine ⟨values, fun v hv => ?_⟩
  simpa using (List.mem_filter.mp (values.subset hv)).2

end Moved

/-! ## Where the members are found -/

section Order

variable {m m₁ r : Members} {function field name : Text} {alternates : List Text}
  {table : SpellingTable} {row : Text × List Text}

theorem get?_isSome_of_mem {p : Text × Json} (hp : p ∈ m) : (m.get? p.1).isSome = true :=
  get?_isSome_iff.mpr (List.mem_map_of_mem hp)

/-- **A row takes out its alternate spellings** and puts the field at the end, if it was
given under one of them. -/
theorem unifyField_eq (hfield : field ∉ alternates)
    (h : m.unifyField function field alternates = .ok r) :
    r = (m.filter fun p => !alternates.contains p.1)
      ++ ((m.anyOf alternates).map fun v => (field, v)).toList := by
  -- without alternate spellings nothing is taken out and nothing is put at the end
  have settled (unused : ∀ n ∈ alternates, m.get? n = none) :
      m = (m.filter fun p => !alternates.contains p.1)
        ++ ((m.anyOf alternates).map fun v => (field, v)).toList := by
    have none : m.anyOf alternates = none := List.findSome?_eq_none_iff.mpr unused
    have kept : (m.filter fun p => !alternates.contains p.1) = m := by
      refine List.filter_eq_self.mpr fun p hp => ?_
      rw [Bool.not_eq_true', Bool.eq_false_iff, ne_eq, List.contains_iff_mem]
      intro hmem
      simpa [unused _ hmem] using get?_isSome_of_mem hp
    rw [none, kept]
    exact (List.append_nil m).symm
  unfold unifyField at h
  split at h
  · next hused =>
    obtain rfl := Except.ok.inj h
    exact settled fun n hn =>
      get?_eq_none_of_spellingsOf hused (List.mem_cons_of_mem _ hn) List.not_mem_nil
  · next name hused =>
    obtain rfl := Except.ok.inj h
    have only : ∀ n ∈ field :: alternates, (m.get? n).isSome = true → n = name := fun n hn hs =>
      List.mem_singleton.mp (hused ▸ List.mem_filter.mpr ⟨hn, hs⟩)
    split
    · next heq =>
      subst heq
      refine settled fun n hn => Option.not_isSome_iff_eq_none.mp fun hs => hfield ?_
      exact only n (List.mem_cons_of_mem _ hn) hs ▸ hn
    · next hne =>
      have hmem : name ∈ m.spellingsOf field alternates := hused ▸ List.mem_singleton_self name
      obtain ⟨hname, hsome⟩ := List.mem_filter.mp hmem
      have halternate : name ∈ alternates := (List.mem_cons.mp hname).resolve_left hne
      obtain ⟨v, hv⟩ := Option.isSome_iff_exists.mp hsome
      have unused : m.get? field = none :=
        Option.not_isSome_iff_eq_none.mp fun hs => hne (only field List.mem_cons_self hs).symm
      have found : m.anyOf alternates = some v := by
        have whole := anyOf_of_spellingsOf hused
        unfold anyOf at whole ⊢
        rw [List.findSome?_cons, unused] at whole
        exact whole.trans hv
      have taken : m.erase name = m.filter fun p => !alternates.contains p.1 := by
        refine List.filter_congr fun p hp => ?_
        rw [bne, Bool.not_inj_iff, Bool.eq_iff_iff, beq_iff_eq, List.contains_iff_mem]
        exact ⟨fun e => e ▸ halternate,
          fun hmem => only _ (List.mem_cons_of_mem _ hmem) (get?_isSome_of_mem hp)⟩
      unfold rename
      rw [hv, found, taken]
      rfl
  · cases h

/-- **A walk takes out all alternate spellings** and puts the renamed fields behind the
rest in the order of the table. -/
theorem unifyFields_eq (hd : table.IsDisjoint) (h : m.unifyFields function table = .ok r) :
    r = (m.filter fun p => !table.alternates.contains p.1)
      ++ table.filterMap fun row => (m.anyOf row.2).map fun v => (row.1, v) := by
  induction table generalizing m with
  | nil =>
    obtain rfl := Except.ok.inj h
    rw [List.filterMap_nil, List.append_nil]
    exact (List.filter_eq_self.mpr fun _ _ => rfl).symm
  | cons row rest ih =>
    obtain ⟨hrow, hrest, apart⟩ := isDisjoint_cons_iff.mp hd
    obtain ⟨m₁, h₁, h⟩ := Outcome.bind_eq_ok_iff.mp h
    have first := unifyField_eq (List.nodup_cons.mp hrow).1 h₁
    have unified := Unified.of_unifyField (List.nodup_cons.mp hrow).1 h₁
    -- the rows behind this one do not take out what it has renamed
    have stays : (SpellingTable.alternates rest).contains row.1 = false := by
      rw [Bool.eq_false_iff, ne_eq, List.contains_iff_mem]
      intro hmem
      obtain ⟨r, hr, hn⟩ := List.mem_flatMap.mp hmem
      exact apart r hr _ (List.mem_cons_of_mem _ hn) List.mem_cons_self
    have renamed : ((m.anyOf row.2).map fun v => (row.1, v)).toList.filter
          (fun p : Text × Json => !(SpellingTable.alternates rest).contains p.1)
        = ((m.anyOf row.2).map fun v => (row.1, v)).toList := by
      refine List.filter_eq_self.mpr fun p hp => ?_
      obtain ⟨v, -, rfl⟩ := Option.map_eq_some_iff.mp (Option.mem_toList.mp hp)
      rw [stays]
      rfl
    -- and they find what they ask for as it was before
    have later : (rest.filterMap fun row => (m₁.anyOf row.2).map fun v => (row.1, v))
        = rest.filterMap fun row => (m.anyOf row.2).map fun v => (row.1, v) := by
      refine List.filterMap_congr fun r hr => ?_
      rw [anyOf_congr fun n hn => unified.other n fun q hq => ?_]
      rw [List.mem_singleton.mp hq]
      exact apart r hr n (List.mem_cons_of_mem _ hn)
    rw [ih hrest h, later, first, List.filter_append, List.filter_filter, renamed,
      List.filterMap_cons, List.append_assoc]
    congr 1
    · refine List.filter_congr fun p _ => ?_
      unfold SpellingTable.alternates
      rw [List.flatMap_cons, List.contains_append, Bool.not_or, Bool.and_comm]
    · cases (m.anyOf row.2).map fun v => (row.1, v) <;> rfl

end Order

/-! ## The result of a walk -/

section Settled

variable {m r : Members} {function name : Text} {table : SpellingTable} {row : Text × List Text}

theorem canonical_of_mem (hd : table.IsDisjoint) (hrow : row ∈ table)
    (hname : name ∈ row.1 :: row.2) : table.canonical name = row.1 := by
  unfold SpellingTable.canonical
  cases found : table.find? fun row => (row.1 :: row.2).contains name with
  | none =>
    exact absurd (List.contains_iff_mem.mpr hname) (List.find?_eq_none.mp found row hrow)
  | some row' =>
    have hname' : name ∈ row'.1 :: row'.2 :=
      List.contains_iff_mem.mp (List.find?_eq_some_iff_append.mp found).1
    rw [hd.eq_of_mem hrow (List.mem_of_find?_eq_some found) hname hname']
    rfl

theorem canonical_of_not_mem (h : ∀ row ∈ table, name ∉ row.1 :: row.2) :
    table.canonical name = name := by
  unfold SpellingTable.canonical
  rw [List.find?_eq_none.mpr fun row hrow hc => h row hrow (List.contains_iff_mem.mp hc)]
  rfl

/-- **A name has the value that is given under one of its spellings**, if no field has two
spellings. -/
theorem get?_collapsed (hd : table.IsDisjoint) (hu : Unified table m r)
    (single : ∀ row ∈ table, (m.spellingsOf row.1 row.2).length ≤ 1) (n : Text) (v : Json) :
    r.get? n = some v ↔ ∃ k, m.get? k = some v ∧ table.canonical k = n := by
  constructor
  · intro found
    by_cases h : ∃ row ∈ table, n ∈ row.1 :: row.2
    · obtain ⟨row, hrow, hn⟩ := h
      obtain rfl | hn := List.mem_cons.mp hn
      · obtain ⟨k, hk, hv⟩ :=
          List.exists_of_findSome?_eq_some ((hu.field row hrow).symm.trans found)
        exact ⟨k, hv, canonical_of_mem hd hrow hk⟩
      · cases (hu.alternate row hrow n hn).symm.trans found
    · simp only [not_exists, not_and] at h
      exact ⟨n, (hu.other n h).symm.trans found, canonical_of_not_mem h⟩
  · rintro ⟨k, found, rfl⟩
    by_cases h : ∃ row ∈ table, k ∈ row.1 :: row.2
    · obtain ⟨row, hrow, hk⟩ := h
      rw [canonical_of_mem hd hrow hk, hu.field row hrow,
        anyOf_of_spellingsOf (spellingsOf_eq_of_single (single row hrow) hk found), found]
    · simp only [not_exists, not_and] at h
      rw [canonical_of_not_mem h, hu.other k h, found]

/-- The names that a walk leaves, in their order. -/
theorem names_unifyFields (hd : table.IsDisjoint) (h : m.unifyFields function table = .ok r) :
    r.names = (m.names.filter fun n => !table.alternates.contains n)
      ++ (table.filter fun row => row.2.any fun n => m.names.contains n).map Prod.fst := by
  rw [unifyFields_eq hd h]
  unfold names
  rw [List.map_append, List.filter_map]
  congr 1
  clear h hd
  induction table with
  | nil => rfl
  | cons row rest ih =>
    have given : (m.anyOf row.2).isSome = row.2.any fun n => (m.map Prod.fst).contains n := by
      unfold anyOf
      rw [List.isSome_findSome?]
      refine List.any_congr rfl fun n => ?_
      rw [Bool.eq_iff_iff, get?_isSome_iff, List.contains_iff_mem]
      rfl
    rw [List.filterMap_cons, List.filter_cons, ← given]
    cases m.anyOf row.2 with
    | none => exact ih
    | some v => exact congrArg (row.1 :: ·) ih

/-- No alternate spelling is left. -/
theorem alternates_not_mem_names (hu : Unified table m r) :
    ∀ n ∈ table.alternates, n ∉ r.names := by
  intro n hn
  obtain ⟨row, hrow, hn⟩ := List.mem_flatMap.mp hn
  exact get?_eq_none_iff.mp (hu.alternate row hrow n hn)

/-- **What is not refused is collapsed.** -/
theorem collapsed_of_unify (hd : table.IsDisjoint) (distinct : m.names.Nodup)
    (h : m.unify function table = .ok r) : Collapsed table m r := by
  obtain ⟨single, unified⟩ := unifyFields_eq_ok hd h
  refine ⟨fun n v => ?_, alternates_not_mem_names unified, names_unifyFields hd h⟩
  have given : ∀ k, m.present.get? k = some v ↔ (k, v) ∈ m ∧ v.isNull = false := fun k =>
    ⟨fun found => ⟨List.mem_of_mem_filter (mem_of_get? found),
        isNull_of_mem_present (mem_of_get? found)⟩,
      fun ⟨hmem, notNull⟩ => get?_of_mem (nodup_names_present distinct)
        (List.mem_filter.mpr ⟨hmem, by rw [notNull]; rfl⟩)⟩
  simp only [get?_collapsed hd unified single, given, and_assoc]

/-- A result is its own result: it has no `null`, and no alternate spelling. -/
theorem unify_again (hd : table.IsDisjoint) (distinct : m.names.Nodup)
    (h : m.unify function table = .ok r) : r.unify function table = .ok r := by
  have notNull : ∀ a ∈ r, a.2.isNull = false := fun a ha =>
    (conserved_of_unify distinct h).notNull _ (List.mem_map_of_mem ha)
  unfold unify
  rw [present_eq_self notNull]
  exact unifyFields_eq_self (unifyFields_eq_ok hd h).2.alternate

/-- **A table without repeated names is settled**: refused at the first field with two
spellings, and collapsed for good if there is none. -/
theorem settles (function : Text) (hd : table.IsDisjoint) (distinct : m.names.Nodup) :
    Settles function table m := by
  have first : ∀ e, m.unify function table = .error e → ∃ row,
      table.find? (fun row => 1 < (m.present.spellingsOf row.1 row.2).length) = some row
        ∧ e = .conflict function row.1 (m.present.spellingsOf row.1 row.2)
        ∧ e.kind = .aliasConflict ∧ e.field = some row.1
        ∧ e.message = function ++ ": provide only one of ".toText
          ++ Text.join ", ".toText (m.present.spellingsOf row.1 row.2) ++ ".".toText := by
    intro e h
    obtain ⟨row, found, -, rfl⟩ := find?_of_unifyFields_error hd h
    exact ⟨row, found, rfl, rfl, rfl, rfl⟩
  refine ⟨⟨fun ⟨e, h⟩ => ?_, fun ⟨row, hrow, several⟩ => ?_⟩, first,
    fun r => collapsed_of_unify hd distinct, fun r => unify_again hd distinct⟩
  · obtain ⟨row, found, -⟩ := first e h
    exact ⟨row, List.mem_of_find?_eq_some found, by simpa using List.find?_some found⟩
  · cases h : m.unify function table with
    | error e => exact ⟨e, rfl⟩
    | ok r => exact absurd several (Nat.not_lt.mpr ((unifyFields_eq_ok hd h).1 row hrow))

end Settled

end Members

/-- **Unifying conserves the values of an object** under any table; and under a table that
has no name twice, as is that of every function, it refuses exactly the objects that give
a field under two spellings, and puts every other one under the names of the fields. -/
theorem unify_conserves (function : Text) (table : SpellingTable) (o : Object) :
    (∀ r, o.members.unify function table = .ok r → o.members.Conserved r)
      ∧ (table.IsDisjoint → o.members.Settles function table)
      ∧ ∀ f : AiFunction, f.spellings.IsDisjoint :=
  ⟨fun _ => Members.conserved_of_unify o.distinct, fun hd => Members.settles function hd o.distinct,
    AiFunction.isDisjoint_spellings⟩

/-- Arguments for counting tokens, with a field that is given as `null` under its own
name, one under an alternate spelling, and two members that are no fields. -/
def scatteredArguments : Object where
  members := [("z".toText, .int 1), ("text".toText, .str "hi".toText), ("model_name".toText, .null),
    ("y".toText, .arr [.null]), ("function".toText, .str "ai_embed".toText)]
  distinct := by decide

/-- The arguments that are scattered keep three values and lose their `null`. -/
theorem unify_conserves_countTokens : AiFunction.countTokens.spellings.IsDisjoint
    ∧ ∃ r, scatteredArguments.members.unify AiFunction.countTokens.name
          AiFunction.countTokens.spellings = .ok r
        ∧ scatteredArguments.members.Conserved r
        ∧ scatteredArguments.members.Settles AiFunction.countTokens.name
          AiFunction.countTokens.spellings := by
  have conserves := unify_conserves AiFunction.countTokens.name AiFunction.countTokens.spellings
    scatteredArguments
  have disjoint := AiFunction.countTokens.isDisjoint_spellings
  refine ⟨disjoint, [("z".toText, .int 1), ("y".toText, .arr [.null]),
    ("function_name".toText, .str "ai_embed".toText), ("input_text".toText, .str "hi".toText)],
    rfl, conserves.1 _ rfl, conserves.2.1 disjoint⟩

end CortexCall
