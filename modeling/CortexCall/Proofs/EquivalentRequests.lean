import Mathlib.Logic.Relation
import CortexCall.Proofs.DispatchOutcome
import CortexCall.Proofs.SettledPayload

/-!
# Arguments that say the same

The same arguments can be written in many ways. The members of an object may
stand in any order, a field that is not given may also be given as `null`, and
a field that goes by several names may be given under any of them. Two objects
that a chain of such steps joins say the same, and `dispatch_of_rephrased` is
that a dispatch cannot tell them apart – except that, of several members that
are no fields, it reports the one that it meets first.

The walk over the spellings takes members out and puts them at the end, so it
would be no use to follow it on both sides. But little of an object decides how
a walk ends: which spellings of a field are used, and then only if there are
several; which value is given for each parameter; and which members are no
fields, in whatever order. This is what `Object.Alike` compares. Each step keeps
it, so a chain of steps does, and a dispatch asks for no more.
-/

namespace CortexCall

/-- The members of an object, in which no name stands twice. -/
structure Object where
  members : Members
  distinct : members.names.Nodup

namespace Object

/-- **One step from an object to another that says the same** to a function. As
both are objects, the name that is new in the other one is not present in the
first. -/
inductive Rephrased (f : AiFunction) (a b : Object) : Prop
  /-- The members stand in another order. -/
  | reorder (same : a.members.Perm b.members)
  /-- A name is given `null`. -/
  | null (name : Text) (added : b.members = a.members ++ [(name, .null)])
  /-- A field that is given, and no field is given twice, is given under another
  of its spellings. -/
  | respell (row : Text × List Text) (listed : row ∈ f.spellings) (before after : Members)
      (old new : Text) (v : Json) (holds : ∀ k ∈ f.spellingChecks a.members, k.Holds)
      (notNull : v.isNull = false) (hold : old ∈ row.1 :: row.2) (hnew : new ∈ row.1 :: row.2)
      (source : a.members = before ++ (old, v) :: after)
      (target : b.members = before ++ (new, v) :: after)

/-- **What a dispatch sees of an object**: the spellings of a field where there
are several, the value that is given for a parameter, and the names that are no
fields, in any order. -/
structure Alike (f : AiFunction) (a b : Object) : Prop where
  spellings : ∀ row ∈ f.spellings,
    a.members.present.spellingsOf row.1 row.2 = b.members.present.spellingsOf row.1 row.2
      ∨ (a.members.present.spellingsOf row.1 row.2).length ≤ 1
        ∧ (b.members.present.spellingsOf row.1 row.2).length ≤ 1
  given : ∀ q ∈ f.parameters, q.given a.members = q.given b.members
  others : (a.members.present.names.filter fun n => !f.memberNames.contains n).Perm
    (b.members.present.names.filter fun n => !f.memberNames.contains n)

end Object

/-! ## A step keeps what counts -/

namespace Members

variable {m m' : Members} {name : Text} {v : Json}

/-- **Where a member stands does not matter** for finding it. -/
theorem get?_of_perm (h : m.Perm m') (hm : m.names.Nodup) (name : Text) :
    m.get? name = m'.get? name := by
  have hm' : m'.names.Nodup := (h.map Prod.fst).nodup_iff.mp hm
  cases found : m.get? name with
  | some v => exact (get?_of_mem hm' (h.subset (mem_of_get? found))).symm
  | none =>
    rw [get?_eq_none_iff] at found
    exact (get?_eq_none_iff.mpr fun hmem => found ((h.map Prod.fst).mem_iff.mpr hmem)).symm

/-- A member that is replaced by another one is not looked at by who asks for neither
name. -/
theorem get?_of_replaced {before after : Members} {old new : Text} {w : Json} (hold : name ≠ old)
    (hnew : name ≠ new) :
    get? name (before ++ (old, v) :: after) = get? name (before ++ (new, w) :: after) := by
  rw [get?_append, get?_append, get?_cons, get?_cons, if_neg (Ne.symm hold), if_neg (Ne.symm hnew)]

/-- A member that is replaced by one of another name is not found any more. -/
theorem get?_old_of_replaced {before after : Members} {old new : Text}
    (h : (names (before ++ (old, v) :: after)).Nodup) (hne : old ≠ new) :
    get? old (before ++ (new, v) :: after) = none := by
  unfold names at h
  rw [List.map_append, List.map_cons, List.nodup_middle, List.nodup_cons, ← List.map_append] at h
  have absent : get? old (before ++ after) = none := get?_eq_none_iff.mpr h.1
  rw [get?_append] at absent ⊢
  rw [get?_cons, if_neg (Ne.symm hne)]
  exact absent

/-- Nor is it seen by who passes over both names. -/
theorem filter_names_of_replaced {before after : Members} {old new : Text} {p : Text → Bool}
    (hold : p old = false) (hnew : p new = false) :
    (names (before ++ (old, v) :: after)).filter p
      = (names (before ++ (new, v) :: after)).filter p := by
  unfold names
  rw [List.map_append, List.map_append, List.filter_append, List.filter_append, List.map_cons,
    List.map_cons, List.filter_cons, List.filter_cons, hold, hnew]
  rfl

theorem present_append_cons {before after : Members} (h : v.isNull = false) :
    present (before ++ (name, v) :: after) = before.present ++ (name, v) :: after.present := by
  unfold present
  rw [List.filter_append, List.filter_cons_of_pos (by rw [h]; rfl)]

/-- **A field is given under one spelling** if it is the only one present. -/
theorem spellingsOf_eq_singleton {field : Text} {alternates : List Text}
    (hrow : (field :: alternates).Nodup) (hname : name ∈ field :: alternates)
    (hv : m.get? name = some v) (hother : ∀ n ∈ field :: alternates, n ≠ name → m.get? n = none) :
    m.spellingsOf field alternates = [name] := by
  unfold spellingsOf
  have only : ∀ n ∈ field :: alternates, (m.get? n).isSome = (n == name) := by
    intro n hn
    by_cases h : n = name
    · rw [h, hv, beq_self_eq_true, Option.isSome_some]
    · rw [hother n hn h, beq_eq_false_iff_ne.mpr h, Option.isSome_none]
  rw [List.filter_congr only, List.filter_beq, List.count_eq_one_of_mem hrow hname]
  rfl

theorem anyOf_of_spellingsOf {field : Text} {alternates : List Text}
    (h : m.spellingsOf field alternates = [name]) :
    m.anyOf (field :: alternates) = m.get? name := by
  have head : m.anyOf (field :: alternates)
      = (m.spellingsOf field alternates).head?.bind fun n => m.get? n := anyOf_eq_head _ _
  rw [head, h]
  rfl

/-- **A field that is respelled is given under the new spelling only**, if it was
given under the old one only. -/
theorem spellingsOf_of_replaced {before after : Members} {old new field : Text}
    {alternates : List Text} (hrow : (field :: alternates).Nodup)
    (hold : old ∈ field :: alternates) (hnew : new ∈ field :: alternates)
    (ha : (names (before ++ (old, v) :: after)).Nodup)
    (hb : (names (before ++ (new, v) :: after)).Nodup)
    (single : (spellingsOf (before ++ (old, v) :: after) field alternates).length ≤ 1) :
    spellingsOf (before ++ (new, v) :: after) field alternates = [new] := by
  have used := spellingsOf_eq_of_single single hold
    (get?_of_mem ha (List.mem_append_right _ List.mem_cons_self))
  have found := get?_of_mem hb (List.mem_append_right _ List.mem_cons_self)
  refine spellingsOf_eq_singleton hrow hnew found fun n hn hne => ?_
  by_cases heq : n = old
  · rw [heq]
    exact get?_old_of_replaced ha (heq ▸ hne)
  · rw [← get?_of_replaced heq hne]
    exact get?_eq_none_of_spellingsOf used hn fun h => heq (List.mem_singleton.mp h)

end Members

/-- **A name is in one row of a table** that has no name twice. -/
theorem SpellingTable.IsDisjoint.eq_of_mem {table : SpellingTable} (h : table.IsDisjoint)
    {row row' : Text × List Text} (hrow : row ∈ table) (hrow' : row' ∈ table) {n : Text}
    (hn : n ∈ row.1 :: row.2) (hn' : n ∈ row'.1 :: row'.2) : row = row' := by
  induction table with
  | nil => exact absurd hrow List.not_mem_nil
  | cons r rest ih =>
    obtain ⟨-, hrest, apart⟩ := Members.isDisjoint_cons_iff.mp h
    obtain heq | hrow := List.mem_cons.mp hrow
    · obtain heq' | hrow' := List.mem_cons.mp hrow'
      · rw [heq, heq']
      · exact absurd (heq ▸ hn) (apart row' hrow' n hn')
    · obtain heq' | hrow' := List.mem_cons.mp hrow'
      · exact absurd (heq' ▸ hn') (apart row hrow n hn)
      · exact ih hrest hrow hrow'

theorem SpellingTable.IsDisjoint.nodup_row {table : SpellingTable} (h : table.IsDisjoint)
    {row : Text × List Text} (hrow : row ∈ table) : (row.1 :: row.2).Nodup :=
  (List.nodup_flatMap.mp h).1 row hrow

namespace AiFunction

variable {f : AiFunction} {row : Text × List Text}

/-- A parameter and a row of the table either are about one field or have no name
in common. -/
theorem eq_row_or_apart (listed : row ∈ f.spellings) {q : Parameter} (hq : q ∈ f.parameters) :
    (q.field.name, q.alternates) = row
      ∨ ∀ n ∈ q.field.name :: q.alternates, n ∉ row.1 :: row.2 := by
  by_cases hnone : q.alternates = []
  · right
    rw [hnone]
    exact List.forall_mem_singleton.mpr (f.not_mem_spellings q hq hnone row listed)
  · have listed' := mem_spellings_iff.mpr ⟨q, hq, hnone, rfl⟩
    by_cases heq : (q.field.name, q.alternates) = row
    · exact .inl heq
    · exact .inr fun n hn hn' =>
        heq (f.isDisjoint_spellings.eq_of_mem listed' listed hn hn')

theorem mem_memberNames_of_mem_row (listed : row ∈ f.spellings) {n : Text}
    (hn : n ∈ row.1 :: row.2) : n ∈ f.memberNames := by
  obtain ⟨q, hq, -, rfl⟩ := mem_spellings_iff.mp listed
  exact mem_memberNames_iff.mpr ⟨q, hq, hn⟩

end AiFunction

namespace Object

variable {f : AiFunction} {a b c : Object}

namespace Alike

protected theorem refl (f : AiFunction) (a : Object) : Alike f a a :=
  ⟨fun _ _ => .inl rfl, fun _ _ => rfl, .refl _⟩

protected theorem symm (h : Alike f a b) : Alike f b a :=
  ⟨fun row hrow => (h.spellings row hrow).imp Eq.symm And.symm,
    fun q hq => (h.given q hq).symm, h.others.symm⟩

protected theorem trans (h : Alike f a b) (h' : Alike f b c) : Alike f a c := by
  refine ⟨fun row hrow => ?_, fun q hq => (h.given q hq).trans (h'.given q hq),
    h.others.trans h'.others⟩
  obtain heq | ⟨ha, hb⟩ := h.spellings row hrow
  · rw [heq]
    exact h'.spellings row hrow
  · obtain heq' | ⟨-, hc⟩ := h'.spellings row hrow
    · exact .inr ⟨ha, heq' ▸ hb⟩
    · exact .inr ⟨ha, hc⟩

/-- Objects are alike if their members are found alike and stand in some order. -/
theorem of_get? (found : ∀ n, a.members.present.get? n = b.members.present.get? n)
    (names : a.members.present.names.Perm b.members.present.names) : Alike f a b :=
  ⟨fun _ _ => .inl (Members.spellingsOf_congr fun n _ => found n),
    fun _ _ => Members.anyOf_congr fun n _ => found n, names.filter _⟩

end Alike

/-- Objects are alike if only the spelling of one field is different. -/
theorem Alike.of_used {row : Text × List Text} (listed : row ∈ f.spellings) {old new : Text}
    (usedA : a.members.present.spellingsOf row.1 row.2 = [old])
    (usedB : b.members.present.spellingsOf row.1 row.2 = [new])
    (found : a.members.present.get? old = b.members.present.get? new)
    (elsewhere : ∀ n, n ∉ row.1 :: row.2 →
      a.members.present.get? n = b.members.present.get? n)
    (others : (a.members.present.names.filter fun n => !f.memberNames.contains n)
      = b.members.present.names.filter fun n => !f.memberNames.contains n) : Alike f a b := by
  refine ⟨fun r hr => ?_, fun q hq => ?_, .of_eq others⟩
  · by_cases heq : r = row
    · rw [heq, usedA, usedB]
      exact .inr ⟨le_rfl, le_rfl⟩
    · exact .inl (Members.spellingsOf_congr fun n hn => elsewhere n fun hn' =>
        heq (f.isDisjoint_spellings.eq_of_mem hr listed hn hn'))
  · obtain rfl | apart := AiFunction.eq_row_or_apart listed hq
    · unfold Parameter.given
      rw [Members.anyOf_of_spellingsOf usedA, Members.anyOf_of_spellingsOf usedB, found]
    · exact Members.anyOf_congr fun n hn => elsewhere n (apart n hn)

/-- **A step keeps what a dispatch sees.** -/
theorem Rephrased.alike (h : Rephrased f a b) : Alike f a b := by
  cases h with
  | reorder same =>
    have present : a.members.present.Perm b.members.present := same.filter _
    exact .of_get? (Members.get?_of_perm present (Members.nodup_names_present a.distinct))
      (present.map Prod.fst)
  | null name added =>
    have present : b.members.present = a.members.present := by
      rw [added]
      unfold Members.present
      rw [List.filter_append, List.filter_cons_of_neg (by simp [Json.isNull]), List.filter_nil,
        List.append_nil]
    exact .of_get? (fun n => by rw [present]) (by rw [present])
  | respell row listed before after old new v holds notNull hold hnew source target =>
    have distinctA := Members.nodup_names_present a.distinct
    have distinctB := Members.nodup_names_present b.distinct
    have presentA := congrArg Members.present source
    have presentB := congrArg Members.present target
    rw [Members.present_append_cons notNull] at presentA presentB
    have single := holds _ (List.mem_map_of_mem listed)
    have foundA : a.members.present.get? old = some v :=
      Members.get?_of_mem distinctA (presentA ▸ by simp)
    have foundB : b.members.present.get? new = some v :=
      Members.get?_of_mem distinctB (presentB ▸ by simp)
    have usedB : b.members.present.spellingsOf row.1 row.2 = [new] := by
      rw [presentA] at distinctA
      rw [presentB] at distinctB ⊢
      exact Members.spellingsOf_of_replaced (f.isDisjoint_spellings.nodup_row listed) hold hnew
        distinctA distinctB (presentA ▸ single)
    have field : ∀ n ∈ row.1 :: row.2, (!f.memberNames.contains n) = false := fun n hn => by
      rw [List.contains_iff_mem.mpr (AiFunction.mem_memberNames_of_mem_row listed hn)]
      rfl
    refine .of_used listed (Members.spellingsOf_eq_of_single single hold foundA) usedB
      (foundA.trans foundB.symm) (fun n hn => ?_) ?_
    · rw [presentA, presentB]
      exact Members.get?_of_replaced (fun e => hn (e ▸ hold)) fun e => hn (e ▸ hnew)
    · rw [presentA, presentB]
      exact Members.filter_names_of_replaced (field old hold) (field new hnew)

/-- **Objects that a chain of steps joins are alike.** -/
theorem alike_of_rephrased (h : Relation.EqvGen (Rephrased f) a b) : Alike f a b := by
  induction h with
  | rel a b step => exact step.alike
  | refl a => exact .refl f a
  | symm a b _ ih => exact ih.symm
  | trans a b c _ _ ih₁ ih₂ => exact ih₁.trans ih₂

end Object

/-! ## What a dispatch makes of it -/

namespace Members

variable {function : Text} {table : SpellingTable} {m m' : Members} {e : RequestError}

theorem find?_of_unifyFields_error (hd : table.IsDisjoint)
    (h : m.unifyFields function table = .error e) :
    ∃ row, table.find? (fun row => 1 < (m.spellingsOf row.1 row.2).length) = some row
      ∧ 1 < (m.spellingsOf row.1 row.2).length
      ∧ e = .conflict function row.1 (m.spellingsOf row.1 row.2) := by
  obtain ⟨before, row, after, rfl, hbefore, hrow, rfl⟩ := unifyFields_eq_error hd h
  refine ⟨row, List.find?_eq_some_iff_append.mpr ⟨decide_eq_true hrow, before, after, rfl, ?_⟩,
    hrow, rfl⟩
  intro r hr
  rw [decide_eq_false (Nat.not_lt.mpr (hbefore r hr))]
  rfl

/-- **A conflict is the same conflict** where several spellings of a field are the
same spellings. -/
theorem unifyFields_error_congr (hd : table.IsDisjoint)
    (same : ∀ row ∈ table, m.spellingsOf row.1 row.2 = m'.spellingsOf row.1 row.2
      ∨ (m.spellingsOf row.1 row.2).length ≤ 1 ∧ (m'.spellingsOf row.1 row.2).length ≤ 1)
    (h : m.unifyFields function table = .error e) :
    m'.unifyFields function table = .error e := by
  have first : table.find? (fun row => 1 < (m.spellingsOf row.1 row.2).length)
      = table.find? fun row => 1 < (m'.spellingsOf row.1 row.2).length := by
    rw [← List.head?_filter, ← List.head?_filter]
    refine congrArg List.head? (List.filter_congr fun row hrow => ?_)
    obtain heq | ⟨hm, hm'⟩ := same row hrow
    · rw [heq]
    · rw [decide_eq_false (Nat.not_lt.mpr hm), decide_eq_false (Nat.not_lt.mpr hm')]
  obtain ⟨row, hrow, several, rfl⟩ := find?_of_unifyFields_error hd h
  have listed := List.mem_of_find?_eq_some hrow
  have used : m.spellingsOf row.1 row.2 = m'.spellingsOf row.1 row.2 :=
    (same row listed).resolve_right fun single => Nat.not_lt.mpr single.1 several
  cases h' : m'.unifyFields function table with
  | ok u =>
    have single := (unifyFields_eq_ok hd h').1 row listed
    rw [← used] at single
    exact absurd several (Nat.not_lt.mpr single)
  | error e' =>
    obtain ⟨row', hrow', -, rfl⟩ := find?_of_unifyFields_error hd h'
    obtain rfl := Option.some.inj (hrow.symm.trans (first.trans hrow'))
    rw [used]

/-- **Two requests are unified together** or fail for the same conflict, where several
spellings of a field are the same spellings. -/
theorem unify_together (function : Text) (hd : table.IsDisjoint)
    (same : ∀ row ∈ table,
      m.present.spellingsOf row.1 row.2 = m'.present.spellingsOf row.1 row.2
        ∨ (m.present.spellingsOf row.1 row.2).length ≤ 1
          ∧ (m'.present.spellingsOf row.1 row.2).length ≤ 1) :
    (∃ e, m.unify function table = .error e ∧ m'.unify function table = .error e)
      ∨ ∃ u u', m.unify function table = .ok u ∧ m'.unify function table = .ok u' := by
  cases hu : m.unify function table with
  | error e => exact .inl ⟨e, rfl, unifyFields_error_congr hd same hu⟩
  | ok u =>
    cases hu' : m'.unify function table with
    | ok u' => exact .inr ⟨u, u', rfl, rfl⟩
    | error e =>
      have failed : m.unify function table = .error e :=
        unifyFields_error_congr hd (fun row hrow => (same row hrow).imp Eq.symm And.symm) hu'
      cases hu.symm.trans failed

end Members

namespace Parameter

variable {m m' : Members}

theorem check_congr {q : Parameter} (h : m.get? q.field.name = m'.get? q.field.name) :
    q.check m = q.check m' := by
  unfold Parameter.check
  rw [h]

/-- **The pass over some parameters** sees no more of the members than the values
of these. -/
theorem checkAll_congr {ps : List Parameter}
    (h : ∀ q ∈ ps, m.get? q.field.name = m'.get? q.field.name) :
    checkAll m ps = checkAll m' ps := by
  induction ps with
  | nil => rfl
  | cons q rest ih =>
    obtain ⟨hq, hrest⟩ := List.forall_mem_cons.mp h
    rw [checkAll, checkAll, check_congr hq, ih hrest]

end Parameter

namespace Payload

variable {f : AiFunction} {a b : Object} {u u' : Members}

/-- Only the names that are no fields can be unreadable. -/
theorem hasReadableNames_eq (f : AiFunction) (m : Members) : hasReadableNames m
    = (m.names.filter fun n => !(Parameter.names f.parameters).contains n).all Text.isWhole := by
  unfold hasReadableNames
  rw [Bool.eq_iff_iff, List.all_eq_true, List.all_eq_true]
  refine ⟨fun h n hn => h n (List.mem_of_mem_filter hn), fun h n hn => ?_⟩
  by_cases hfield : n ∈ Parameter.names f.parameters
  · obtain ⟨q, -, rfl⟩ := List.mem_map.mp hfield
    exact q.field.isWhole_name
  · refine h n (List.mem_filter.mpr ⟨hn, ?_⟩)
    rw [Bool.not_eq_true', Bool.eq_false_iff, ne_eq, List.contains_iff_mem]
    exact hfield

/-- **Objects that are alike fill the same payload**, or both have a member that
is no field. -/
theorem ofJson_of_alike (h : Object.Alike f a b)
    (hu : Members.Unified f.spellings a.members.present u)
    (hu' : Members.Unified f.spellings b.members.present u') :
    ofJson f (.obj u) = ofJson f (.obj u')
      ∨ ∃ n n', ofJson f (.obj u) = .error (.unexpected n)
        ∧ ofJson f (.obj u') = .error (.unexpected n') := by
  have readable : hasReadableNames u = hasReadableNames u' := by
    rw [hasReadableNames_eq f, hasReadableNames_eq f u', filter_names_of_unified hu,
      filter_names_of_unified hu', h.others.all_eq]
  have entries : Parameter.checkAll u f.parameters = Parameter.checkAll u' f.parameters :=
    Parameter.checkAll_congr fun q hq => by
      rw [get?_of_unified hu hq, get?_of_unified hu' hq, h.given q hq]
  unfold ofJson
  dsimp only
  rw [readable]
  split
  · unfold ofMembers
    rw [entries, firstUnexpected_of_unified hu, firstUnexpected_of_unified hu',
      ← List.head?_filter, ← List.head?_filter]
    have others := h.others
    cases Parameter.checkAll u' f.parameters with
    | error i => exact .inl rfl
    | ok e =>
      cases hn : a.members.present.names.filter fun n => !f.memberNames.contains n with
      | nil =>
        rw [hn] at others
        rw [List.nil_perm.mp others]
        exact .inl rfl
      | cons n rest =>
        cases hn' : b.members.present.names.filter fun n => !f.memberNames.contains n with
        | nil =>
          rw [hn, hn'] at others
          exact absurd (List.perm_nil.mp others) (List.cons_ne_nil n rest)
        | cons n' rest' => exact .inr ⟨n, n', rfl, rfl⟩
  · exact .inl rfl

theorem ofText_of_unify {c : Callee} {args : Option Text} {m : Members}
    (hm : Request.object? args = some m) (hu : m.unify c.sqlName c.function.spellings = .ok u) :
    ofText c args = match ofJson c.function (.obj u) with
      | .ok p => checkDetails c p
      | .error i => .error (.invalid c.sqlName (some i)) := by
  unfold ofText
  rw [readObject_of_object? _ hm]
  show (m.unify c.sqlName c.function.spellings >>= _) = _
  rw [hu]
  rfl

theorem ofText_of_unify_error {c : Callee} {args : Option Text} {m : Members} {e : RequestError}
    (hm : Request.object? args = some m)
    (hu : m.unify c.sqlName c.function.spellings = .error e) : ofText c args = .error e := by
  unfold ofText
  rw [readObject_of_object? _ hm]
  show (m.unify c.sqlName c.function.spellings >>= _) = _
  rw [hu]
  rfl

/-- **Texts of objects that are alike make the same payload**, or are rejected
for a member that is no field. -/
theorem ofText_of_alike {c : Callee} {args args' : Option Text}
    (ha : Request.object? args = some a.members) (hb : Request.object? args' = some b.members)
    (h : Object.Alike c.function a b) :
    ofText c args = ofText c args' ∨ ∃ n n',
      ofText c args = .error (.invalid c.sqlName (some (.unexpected n)))
        ∧ ofText c args' = .error (.invalid c.sqlName (some (.unexpected n'))) := by
  have disjoint := c.function.isDisjoint_spellings
  obtain ⟨e, hu, hu'⟩ | ⟨u, u', hu, hu'⟩ :=
    Members.unify_together c.sqlName disjoint h.spellings
  · rw [ofText_of_unify_error ha hu, ofText_of_unify_error hb hu']
    exact .inl rfl
  · rw [ofText_of_unify ha hu, ofText_of_unify hb hu']
    obtain same | ⟨n, n', hn, hn'⟩ := ofJson_of_alike h
      (Members.unifyFields_eq_ok disjoint hu).2 (Members.unifyFields_eq_ok disjoint hu').2
    · rw [same]
      exact .inl rfl
    · rw [hn, hn']
      exact .inr ⟨n, n', rfl, rfl⟩

end Payload

/-- **A dispatch has the same outcome for arguments that say the same**: the same
statement, the same echo and the same lines, or the same failure – unless both
are rejected for a member that is no field, and then the member may be another
one. -/
theorem dispatch_of_rephrased {function args args' : Option Text} {a b : Object}
    (ha : Request.object? args = some a.members) (hb : Request.object? args' = some b.members)
    (rephrased : ∀ c, Callee.resolve function = .ok c →
      Relation.EqvGen (Object.Rephrased c.function) a b) (level : LogLevel) :
    dispatch function args level = dispatch function args' level
      ∨ ∃ e e', dispatch function args level = .error (.request e)
        ∧ dispatch function args' level = .error (.request e')
        ∧ e.kind = .unexpectedField ∧ e'.kind = .unexpectedField := by
  have rejected : ∀ {args c e}, Callee.resolve function = .ok c → Payload.ofText c args = .error e →
      dispatch function args level = .error (.request e) := by
    intro args c e hc he
    refine dispatch_of_rejected ?_
    unfold accept
    rw [hc]
    exact Outcome.bind_eq_error_iff.mpr (.inr ⟨c, rfl, by rw [he]; rfl⟩)
  cases hc : Callee.resolve function with
  | error e =>
    unfold dispatch accept
    rw [hc]
    exact .inl rfl
  | ok c =>
    obtain same | ⟨n, n', hn, hn'⟩ :=
      Payload.ofText_of_alike ha hb (Object.alike_of_rephrased (rephrased c hc))
    · left
      unfold dispatch accept
      rw [hc]
      show (((Payload.ofText c args >>= _).mapError _) >>= _) = _
      rw [same]
      rfl
    · exact .inr ⟨_, _, rejected hc hn, rejected hc hn', rfl, rfl⟩

/-- Arguments of a completion, the options under their other name and last. -/
def optionsLast : Object where
  members := [("prompt".toText, .str "p".toText), ("model".toText, .str "m".toText),
    ("options".toText, .obj [])]
  distinct := by decide

/-- The same arguments in the order of the fields, and a name that is `null`. -/
def fieldsInOrder : Object where
  members := [("model".toText, .str "m".toText), ("prompt".toText, .str "p".toText),
    ("model_parameters".toText, .obj []), ("seed".toText, .null)]
  distinct := by decide

/-- The objects are three steps apart. -/
theorem optionsLast_rephrased :
    Relation.EqvGen (Object.Rephrased .complete) optionsLast fieldsInOrder := by
  have row : ("model_parameters".toText, ["options".toText]) ∈ AiFunction.complete.spellings := by
    decide
  have unambiguous : ∀ k ∈ AiFunction.complete.spellingChecks optionsLast.members, k.Holds := by
    refine List.forall_mem_map.mpr ?_
    show ∀ row ∈ AiFunction.complete.spellings,
      (optionsLast.members.present.spellingsOf row.1 row.2).length ≤ 1
    decide
  let respelled : Object := ⟨[("prompt".toText, .str "p".toText), ("model".toText, .str "m".toText),
    ("model_parameters".toText, .obj [])], by decide⟩
  let reordered : Object := ⟨[("model".toText, .str "m".toText), ("prompt".toText, .str "p".toText),
    ("model_parameters".toText, .obj [])], by decide⟩
  refine .trans _ respelled _ (.rel _ _ ?_) (.trans _ reordered _ (.rel _ _ ?_) (.rel _ _ ?_))
  · exact .respell _ row [_, _] [] "options".toText "model_parameters".toText (.obj []) unambiguous
      rfl (by decide) (by decide) rfl rfl
  · exact .reorder (.swap _ _ _)
  · exact .null "seed".toText rfl

/-- The text of an object. -/
def Object.text (a : Object) : Text := (Json.obj a.members).print .spaced

/-- Both texts of the arguments of the completion are dispatched, and alike. -/
theorem dispatch_of_rephrased_complete :
    Request.object? (some optionsLast.text) = some optionsLast.members
      ∧ Request.object? (some fieldsInOrder.text) = some fieldsInOrder.members
      ∧ optionsLast.text ≠ fieldsInOrder.text
      ∧ (∃ r, dispatch (some "AI_COMPLETE".toText) (some optionsLast.text) .minimal = .ok r)
      ∧ dispatch (some "AI_COMPLETE".toText) (some optionsLast.text) .minimal
        = dispatch (some "AI_COMPLETE".toText) (some fieldsInOrder.text) .minimal := by
  have ha : Request.object? (some optionsLast.text) = some optionsLast.members :=
    Request.object?_print ⟨optionsLast.distinct, trivial, trivial, ⟨.nil, trivial⟩, trivial⟩ rfl
  have hb : Request.object? (some fieldsInOrder.text) = some fieldsInOrder.members :=
    Request.object?_print
      ⟨fieldsInOrder.distinct, trivial, trivial, ⟨.nil, trivial⟩, trivial, trivial⟩ rfl
  have resolved : Callee.resolve (some "AI_COMPLETE".toText) = .ok (.ofFunction .complete) := by
    decide +kernel
  have returns : dispatchFailure? (some "AI_COMPLETE".toText) (some optionsLast.text) .minimal
      = none := by
    decide +kernel
  unfold dispatchFailure? at returns
  cases hr : dispatch (some "AI_COMPLETE".toText) (some optionsLast.text) .minimal with
  | error e =>
    rw [hr] at returns
    cases returns
  | ok r =>
    have rephrased : ∀ c, Callee.resolve (some "AI_COMPLETE".toText) = .ok c →
        Relation.EqvGen (Object.Rephrased c.function) optionsLast fieldsInOrder := by
      intro c hc
      obtain rfl := Except.ok.inj (resolved.symm.trans hc)
      exact optionsLast_rephrased
    obtain same | ⟨e, -, he, -⟩ := dispatch_of_rephrased ha hb rephrased .minimal
    · exact ⟨ha, hb, by decide +kernel, ⟨r, rfl⟩, hr.symm.trans same⟩
    · cases hr.symm.trans he

end CortexCall
