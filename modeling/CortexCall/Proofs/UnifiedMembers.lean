import CortexCall.Request.Spelling
import CortexCall.Proofs.Outcome

/-!
# What unifying the spellings does

Unifying walks a table of fields and moves the members about as it goes. If no
name stands twice in the table, what it does can be said without the walk. It
fails at the first field that is given under two spellings – `unifyFields_eq_error`
– and otherwise leaves members in which each field of the table has the value
that was given under any of its spellings, no alternate spelling is left, and
all other members are as they were, in their order: `Unified`.

One field is the step, `Unified.of_unifyField`, and the walk is an induction
over the table: what a later row asks about is not touched by an earlier one.
-/

namespace CortexCall

/-- Whether no name stands twice in a table. -/
def SpellingTable.IsDisjoint (table : SpellingTable) : Prop :=
  (table.flatMap fun row => row.1 :: row.2).Nodup

namespace Members

/-- The value of the first of some names that the members have. -/
def anyOf (m : Members) (names : List Text) : Option Json := names.findSome? fun n => m.get? n

section Members

variable {m m' : Members} {name old new : Text} {v : Json}

theorem get?_erase (m : Members) (old name : Text) :
    get? name (m.erase old) = if name = old then none else get? name m := by
  refine (get?_filter m (fun n => n != old) name).trans ?_
  by_cases h : name = old
  · rw [if_pos h, if_neg (by simpa using h)]
  · rw [if_neg h, if_pos (by simpa using h)]

/-- **A renamed member is found under its new name**, and not under the old
one; the others are found as before. -/
theorem get?_rename (hold : m.get? old = some v) (hne : old ≠ new) (hnew : m.get? new = none) :
    get? name (m.rename old new)
      = if name = new then some v else if name = old then none else get? name m := by
  unfold rename
  rw [hold]
  dsimp only
  rw [get?_append, get?_erase]
  by_cases h₁ : name = new
  · subst h₁
    rw [if_neg (Ne.symm hne), hnew, if_pos rfl]
    exact if_pos rfl
  · rw [if_neg h₁]
    by_cases h₂ : name = old
    · rw [if_pos h₂]
      exact if_neg (Ne.symm h₁)
    · rw [if_neg h₂]
      cases get? name m with
      | none => exact if_neg (Ne.symm h₁)
      | some w => rfl

theorem get?_eq_none_iff : get? name m = none ↔ name ∉ m.names := by
  rw [← Option.not_isSome_iff_eq_none, get?_isSome_iff]

theorem names_rename (hold : m.get? old = some v) :
    (m.rename old new).names = (m.names.filter (· != old)) ++ [new] := by
  unfold rename
  rw [hold]
  dsimp only
  unfold names erase
  rw [List.map_append, List.filter_map]
  rfl

/-- The names of the present members are distinct if all names are. -/
theorem nodup_names_present (h : m.names.Nodup) : m.present.names.Nodup :=
  h.sublist (List.filter_sublist.map _)

/-! ## The spellings that are used -/

theorem anyOf_eq_head (m : Members) (names : List Text) :
    m.anyOf names = (names.filter fun n => (m.get? n).isSome).head?.bind fun n => m.get? n := by
  induction names with
  | nil => rfl
  | cons n rest ih =>
    unfold anyOf at ih ⊢
    rw [List.findSome?_cons, List.filter_cons]
    cases h : m.get? n with
    | none => exact ih
    | some v => exact h.symm

theorem anyOf_congr {names : List Text} (h : ∀ n ∈ names, m.get? n = m'.get? n) :
    m.anyOf names = m'.anyOf names := by
  induction names with
  | nil => rfl
  | cons n rest ih =>
    unfold anyOf at ih ⊢
    rw [List.findSome?_cons, List.findSome?_cons, h n List.mem_cons_self,
      ih fun n hn => h n (List.mem_cons_of_mem _ hn)]

theorem spellingsOf_congr {field : Text} {alternates : List Text}
    (h : ∀ n ∈ field :: alternates, m.get? n = m'.get? n) :
    m.spellingsOf field alternates = m'.spellingsOf field alternates :=
  List.filter_congr fun n hn => by rw [h n hn]

end Members

/-- **What unifying the fields of a table leaves**, if no name stands twice in
the table. -/
structure Unified (table : SpellingTable) (m m' : Members) : Prop where
  /-- A field has the value that was given under any of its spellings. -/
  field : ∀ row ∈ table, m'.get? row.1 = m.anyOf (row.1 :: row.2)
  /-- No alternate spelling is left. -/
  alternate : ∀ row ∈ table, ∀ n ∈ row.2, m'.get? n = none
  /-- What the table does not name is as it was. -/
  other : ∀ n, (∀ row ∈ table, n ∉ row.1 :: row.2) → m'.get? n = m.get? n
  /-- And it is in the order in which it was. -/
  order : ∀ p : Text → Bool, (∀ row ∈ table, ∀ n ∈ row.1 :: row.2, p n = false) →
    m'.names.filter p = m.names.filter p

section Unify

variable {function field : Text} {alternates : List Text} {m m₁ m' : Members}
  {row : Text × List Text} {table : SpellingTable} {e : RequestError}

theorem get?_eq_none_of_spellingsOf {name : Text} {l : List Text}
    (h : m.spellingsOf field alternates = l) (hname : name ∈ field :: alternates)
    (hl : name ∉ l) : m.get? name = none := by
  by_contra hs
  exact hl (h ▸ List.mem_filter.mpr ⟨hname, Option.isSome_iff_ne_none.mpr hs⟩)

/-- **A spelling that is used is the only one**, if one is used at most. -/
theorem spellingsOf_eq_of_single {name : Text} {v : Json}
    (single : (m.spellingsOf field alternates).length ≤ 1) (hname : name ∈ field :: alternates)
    (hv : m.get? name = some v) : m.spellingsOf field alternates = [name] := by
  have used : name ∈ m.spellingsOf field alternates :=
    List.mem_filter.mpr ⟨hname, Option.isSome_of_eq_some hv⟩
  obtain ⟨n, hn⟩ := List.length_eq_one_iff.mp
    (Nat.le_antisymm single (List.length_pos_of_mem used))
  rw [hn] at used ⊢
  rw [List.mem_singleton.mp used]

/-- **One field is unified** when it is given under one spelling at most. -/
theorem Unified.of_unifyField (hfield : field ∉ alternates)
    (h : m.unifyField function field alternates = .ok m') :
    Unified [(field, alternates)] m m' := by
  have head : m.anyOf (field :: alternates)
      = (m.spellingsOf field alternates).head?.bind fun n => m.get? n := anyOf_eq_head _ _
  have ne : ∀ n ∈ alternates, n ≠ field := fun n hn e => hfield (e ▸ hn)
  have single : ∀ q : Text × List Text → Prop, q (field, alternates) →
      ∀ row ∈ [(field, alternates)], q row := fun q hq row hrow => by
    rwa [List.mem_singleton.mp hrow]
  unfold unifyField at h
  split at h
  -- the field is not given
  · next hused =>
    obtain rfl := Except.ok.inj h
    rw [hused] at head
    refine ⟨single _ ?_, single _ fun n hn => ?_, fun _ _ => rfl, fun _ _ => rfl⟩
    · rw [head]
      exact get?_eq_none_of_spellingsOf hused List.mem_cons_self List.not_mem_nil
    · exact get?_eq_none_of_spellingsOf hused (List.mem_cons_of_mem _ hn) List.not_mem_nil
  -- it is given once, under its own name or under an alternate one
  · next name hused =>
    obtain rfl := Except.ok.inj h
    rw [hused] at head
    have unused : ∀ n ∈ field :: alternates, n ≠ name → m.get? n = none := fun n hn hne =>
      get?_eq_none_of_spellingsOf hused hn fun e => hne (List.mem_singleton.mp e)
    split
    · next heq =>
      subst heq
      refine ⟨single _ head.symm, single _ fun n hn => ?_, fun _ _ => rfl, fun _ _ => rfl⟩
      exact unused n (List.mem_cons_of_mem _ hn) (ne n hn)
    · next hne =>
      have hmem : name ∈ m.spellingsOf field alternates := hused ▸ List.mem_singleton_self name
      obtain ⟨hname, hsome⟩ := List.mem_filter.mp hmem
      obtain ⟨v, hv⟩ := Option.isSome_iff_exists.mp hsome
      have renamed : ∀ n, get? n (m.rename name field)
          = if n = field then some v else if n = name then none else get? n m :=
        fun n => get?_rename hv hne (unused field List.mem_cons_self (Ne.symm hne))
      refine ⟨single _ ?_, single _ fun n hn => ?_, fun n hn => ?_, fun p hp => ?_⟩
      · rw [renamed, if_pos rfl, head]
        exact hv.symm
      · rw [renamed, if_neg (ne n hn)]
        split
        · rfl
        · next hn' => exact unused n (List.mem_cons_of_mem _ hn) hn'
      · have hn := hn _ List.mem_cons_self
        have hfield : n ≠ field := fun e => hn (List.mem_cons.mpr (.inl e))
        have hname : n ≠ name := fun e => hn (e ▸ hname)
        rw [renamed, if_neg hfield, if_neg hname]
      · have hp := hp _ List.mem_cons_self
        rw [names_rename hv, List.filter_append, List.filter_filter,
          List.filter_cons_of_neg (by rw [hp field List.mem_cons_self]; exact Bool.false_ne_true),
          List.filter_nil, List.append_nil]
        refine List.filter_congr fun n _ => ?_
        by_cases hn : n = name
        · rw [hn, hp name hname, Bool.false_and]
        · rw [(bne_iff_ne).mpr hn, Bool.and_true]
  · cases h

theorem unifyField_eq_error {e : RequestError}
    (h : m.unifyField function field alternates = .error e) :
    1 < (m.spellingsOf field alternates).length
      ∧ e = .conflict function field (m.spellingsOf field alternates) := by
  unfold unifyField at h
  split at h
  · cases h
  · cases h
  · next hnil hone =>
    refine ⟨?_, (Except.error.inj h).symm⟩
    match hused : m.spellingsOf field alternates with
    | [] => exact absurd hused hnil
    | [name] => exact absurd hused (hone name)
    | _ :: _ :: rest => exact Nat.succ_lt_succ (Nat.succ_pos _)

theorem unifyField_eq_ok (h : m.unifyField function field alternates = .ok m') :
    (m.spellingsOf field alternates).length ≤ 1 := by
  unfold unifyField at h
  split at h
  · next hused => simp [hused]
  · next hused => simp [hused]
  · cases h

/-- **The rows of a table do not touch each other**, so that one row and the
rest of the table may be unified one after the other. -/
theorem Unified.cons (hrow : Unified [row] m m₁) (htable : Unified table m₁ m')
    (hdisjoint : ∀ r ∈ table, ∀ n ∈ r.1 :: r.2, n ∉ row.1 :: row.2) :
    Unified (row :: table) m m' := by
  have kept : ∀ r ∈ table, ∀ n ∈ r.1 :: r.2, m₁.get? n = m.get? n := by
    intro r hr n hn
    refine hrow.other n fun q hq => ?_
    rw [List.mem_singleton.mp hq]
    exact hdisjoint r hr n hn
  have apart : ∀ n ∈ row.1 :: row.2, ∀ r ∈ table, n ∉ r.1 :: r.2 :=
    fun n hn r hr hn' => hdisjoint r hr n hn' hn
  refine ⟨?_, ?_, ?_, ?_⟩
  · refine List.forall_mem_cons.mpr ⟨?_, fun r hr => ?_⟩
    · rw [htable.other _ (apart _ List.mem_cons_self), hrow.field row List.mem_cons_self]
    · rw [htable.field r hr]
      exact anyOf_congr (kept r hr)
  · refine List.forall_mem_cons.mpr ⟨fun n hn => ?_, htable.alternate⟩
    rw [htable.other _ (apart _ (List.mem_cons_of_mem _ hn))]
    exact hrow.alternate row List.mem_cons_self n hn
  · intro n hn
    obtain ⟨hn, hrest⟩ := List.forall_mem_cons.mp hn
    rw [htable.other n hrest]
    exact hrow.other n fun q hq => List.mem_singleton.mp hq ▸ hn
  · intro p hp
    obtain ⟨hp, hrest⟩ := List.forall_mem_cons.mp hp
    rw [htable.order p hrest]
    exact hrow.order p fun q hq => List.mem_singleton.mp hq ▸ hp

theorem isDisjoint_cons_iff : SpellingTable.IsDisjoint (row :: table) ↔
    (row.1 :: row.2).Nodup ∧ SpellingTable.IsDisjoint table
      ∧ ∀ r ∈ table, ∀ n ∈ r.1 :: r.2, n ∉ row.1 :: row.2 := by
  unfold SpellingTable.IsDisjoint
  rw [List.flatMap_cons, List.nodup_append]
  refine and_congr_right fun _ => and_congr_right fun _ => ⟨fun h r hr n hn hn' => ?_, fun h => ?_⟩
  · exact h n hn' n (List.mem_flatMap.mpr ⟨r, hr, hn⟩) rfl
  · rintro n hn _ hn' rfl
    obtain ⟨r, hr, hnr⟩ := List.mem_flatMap.mp hn'
    exact h r hr n hnr hn

/-- The rows behind one that is unified are as they were before. -/
theorem spellingsOf_eq_of_unified (hrow : Unified [row] m m₁)
    (hdisjoint : ∀ r ∈ table, ∀ n ∈ r.1 :: r.2, n ∉ row.1 :: row.2) :
    ∀ r ∈ table, m₁.spellingsOf r.1 r.2 = m.spellingsOf r.1 r.2 := by
  intro r hr
  refine spellingsOf_congr fun n hn => hrow.other n fun q hq => ?_
  rw [List.mem_singleton.mp hq]
  exact hdisjoint r hr n hn

/-- **A table is unified** when each of its fields is given under one spelling
at most. -/
theorem unifyFields_eq_ok (hd : table.IsDisjoint)
    (h : m.unifyFields function table = .ok m') :
    (∀ row ∈ table, (m.spellingsOf row.1 row.2).length ≤ 1) ∧ Unified table m m' := by
  induction table generalizing m with
  | nil =>
    obtain rfl := Except.ok.inj h
    exact ⟨nofun, ⟨nofun, nofun, fun _ _ => rfl, fun _ _ => rfl⟩⟩
  | cons row rest ih =>
    obtain ⟨hrow, hrest, hdisjoint⟩ := isDisjoint_cons_iff.mp hd
    obtain ⟨m₁, h₁, h⟩ := Outcome.bind_eq_ok_iff.mp h
    obtain ⟨hused, hunified⟩ := ih hrest h
    have first := Unified.of_unifyField (List.nodup_cons.mp hrow).1 h₁
    have same := spellingsOf_eq_of_unified first hdisjoint
    refine ⟨List.forall_mem_cons.mpr ⟨unifyField_eq_ok h₁, fun r hr => ?_⟩,
      first.cons hunified hdisjoint⟩
    exact same r hr ▸ hused r hr

/-- **A table is not unified** because of the first of its fields that is given
under two spellings. -/
theorem unifyFields_eq_error (hd : table.IsDisjoint)
    (h : m.unifyFields function table = .error e) : ∃ before row after,
      table = before ++ row :: after
        ∧ (∀ r ∈ before, (m.spellingsOf r.1 r.2).length ≤ 1)
        ∧ 1 < (m.spellingsOf row.1 row.2).length
        ∧ e = .conflict function row.1 (m.spellingsOf row.1 row.2) := by
  induction table generalizing m with
  | nil => cases h
  | cons row rest ih =>
    obtain ⟨hrow, hrest, hdisjoint⟩ := isDisjoint_cons_iff.mp hd
    obtain h | ⟨m₁, h₁, h⟩ := Outcome.bind_eq_error_iff.mp h
    · obtain ⟨hused, rfl⟩ := unifyField_eq_error h
      exact ⟨[], row, rest, rfl, nofun, hused, rfl⟩
    · have first := Unified.of_unifyField (List.nodup_cons.mp hrow).1 h₁
      have same := spellingsOf_eq_of_unified first hdisjoint
      obtain ⟨before, q, after, rfl, hbefore, hq, rfl⟩ := ih hrest h
      have hqmem : q ∈ before ++ q :: after := List.mem_append_right _ List.mem_cons_self
      rw [same q hqmem] at hq ⊢
      refine ⟨row :: before, q, after, rfl, ?_, hq, rfl⟩
      refine List.forall_mem_cons.mpr ⟨unifyField_eq_ok h₁, fun r hr => ?_⟩
      exact same r (List.mem_append_left _ hr) ▸ hbefore r hr

end Unify

end Members

end CortexCall
