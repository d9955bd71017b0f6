import CortexCall.Proofs.RegularJson
import CortexCall.Request.Echo

/-!
# What the echo shows of a value

The echo walks over a value of free form and fails with what it meets first.
When it fails can be said without the walk: a value has so many **levels**, and
it has names that are whole or not; `checkWithin_eq_ok_iff` says that the walk
succeeds exactly if there are not too many levels and every name is whole. The
names of the value itself do not count there, since they are mended.

What is shown in the end is the value with its own names mended and `null` for
every infinite number. It is shown unchanged if its own names are whole and its
numbers finite, and only then as far as names go; and to show it once more
changes nothing (`settled_settled`).
-/

namespace CortexCall

/-! ## Mended texts -/

namespace Text

/-- **A mended text is whole.** -/
theorem isWhole_mended (t : Text) : t.mended.isWhole = true := by
  refine List.all_eq_true.mpr fun c hc => ?_
  obtain ⟨b, -, hb⟩ := List.mem_flatMap.mp hc
  split at hb
  · have fits : ∀ r ∈ [replacement, replacement, replacement], (!r.isHalf) = true := by decide
    exact fits c hb
  · next hhalf =>
    obtain rfl := List.mem_singleton.mp hb
    rw [eq_false_of_ne_true hhalf]
    rfl

/-- A whole text needs no mending. -/
theorem mended_eq_self {t : Text} (h : t.isWhole = true) : t.mended = t := by
  induction t with
  | nil => rfl
  | cons c rest ih =>
    rw [isWhole, List.all_cons, Bool.and_eq_true, Bool.not_eq_true'] at h
    have hrest : mended rest = rest := ih h.2
    unfold mended at hrest ⊢
    rw [List.flatMap_cons, if_neg (by rw [h.1]; exact Bool.false_ne_true), hrest]
    rfl

theorem requireWhole_eq_ok_iff {t : Text} : t.requireWhole = .ok () ↔ t.isWhole = true := by
  rw [isWhole_iff_find?]
  unfold requireWhole
  split
  · next e he => simp [he]
  · next he => simp [he]

end Text

namespace Json

/-! ## Levels and names -/

mutual

/-- How many levels a value has: one for a scalar or an empty container, and one
more than its parts for any other. -/
def levels : Json → ℕ
  | .null => 1
  | .bool _ => 1
  | .int _ => 1
  | .double _ => 1
  | .str _ => 1
  | .arr items => itemsLevels items + 1
  | .obj members => membersLevels members + 1

/-- How many levels the deepest of some values has. -/
def itemsLevels : List Json → ℕ
  | [] => 0
  | v :: rest => max v.levels (itemsLevels rest)

/-- How many levels the deepest value of some members has. -/
def membersLevels : List (Text × Json) → ℕ
  | [] => 0
  | (_, v) :: rest => max v.levels (membersLevels rest)

end

mutual

/-- Whether every name in a value is whole. -/
def namesWhole : Json → Bool
  | .null => true
  | .bool _ => true
  | .int _ => true
  | .double _ => true
  | .str _ => true
  | .arr items => itemsNamesWhole items
  | .obj members => membersNamesWhole members

/-- Whether every name in some values is whole. -/
def itemsNamesWhole : List Json → Bool
  | [] => true
  | v :: rest => v.namesWhole && itemsNamesWhole rest

/-- Whether every name in some members, theirs included, is whole. -/
def membersNamesWhole : List (Text × Json) → Bool
  | [] => true
  | (name, v) :: rest => name.isWhole && v.namesWhole && membersNamesWhole rest

end

theorem itemsLevels_le_iff {items : List Json} {n : ℕ} :
    itemsLevels items ≤ n ↔ ∀ v ∈ items, v.levels ≤ n := by
  induction items with
  | nil => exact iff_of_true (Nat.zero_le n) nofun
  | cons v rest ih => rw [itemsLevels, Nat.max_le, ih, List.forall_mem_cons]

theorem membersLevels_eq (members : List (Text × Json)) :
    membersLevels members = itemsLevels (members.map Prod.snd) := by
  induction members with
  | nil => rfl
  | cons p rest ih => rw [membersLevels, ih, List.map_cons, itemsLevels]

theorem itemsNamesWhole_iff {items : List Json} :
    itemsNamesWhole items = true ↔ ∀ v ∈ items, v.namesWhole = true := by
  induction items with
  | nil => exact iff_of_true rfl nofun
  | cons v rest ih => rw [itemsNamesWhole, Bool.and_eq_true, ih, List.forall_mem_cons]

theorem membersNamesWhole_iff {members : List (Text × Json)} :
    membersNamesWhole members = true
      ↔ ∀ p ∈ members, p.1.isWhole = true ∧ p.2.namesWhole = true := by
  induction members with
  | nil => exact iff_of_true rfl nofun
  | cons p rest ih =>
    rw [membersNamesWhole, Bool.and_eq_true, Bool.and_eq_true, ih, List.forall_mem_cons]

section Walk

variable {n : ℕ} {x : Except EchoError Unit}

/-- A container is walked if it may have a level and its parts are. -/
theorem walkContainer_eq_ok_iff {parts : ℕ} {whole : Bool}
    (h : x = .ok () ↔ parts ≤ n - 1 ∧ whole = true) :
    (if n = 0 then .error .tooDeep else x) = .ok () ↔ parts + 1 ≤ n ∧ whole = true := by
  split
  · next hn =>
    subst hn
    exact iff_of_false (by simp) fun e => Nat.not_succ_le_zero _ e.1
  · next hn =>
    rw [h]
    exact and_congr_left fun _ => by omega

/-- A scalar is walked if it may have a level. -/
theorem walkScalar_eq_ok_iff :
    (if n = 0 then .error .tooDeep else .ok () : Except EchoError Unit) = .ok ()
      ↔ 1 ≤ n ∧ true = true := by
  split
  · next hn =>
    subst hn
    exact iff_of_false (by simp) fun e => Nat.not_succ_le_zero _ e.1
  · next hn => exact iff_of_true rfl ⟨Nat.one_le_iff_ne_zero.mpr hn, rfl⟩

end Walk

mutual

/-- **The walk over a value** succeeds if it has no more levels than given and
every name in it is whole. -/
theorem checkWithin_eq_ok_iff (n : ℕ) :
    (v : Json) → (checkWithin n v = .ok () ↔ v.levels ≤ n ∧ v.namesWhole = true)
  | .null => by unfold checkWithin; exact walkScalar_eq_ok_iff
  | .bool _ => by unfold checkWithin; exact walkScalar_eq_ok_iff
  | .int _ => by unfold checkWithin; exact walkScalar_eq_ok_iff
  | .double _ => by unfold checkWithin; exact walkScalar_eq_ok_iff
  | .str _ => by unfold checkWithin; exact walkScalar_eq_ok_iff
  | .arr items => by
    unfold checkWithin levels namesWhole
    exact walkContainer_eq_ok_iff (checkItemsWithin_eq_ok_iff (n - 1) items)
  | .obj members => by
    unfold checkWithin levels namesWhole
    exact walkContainer_eq_ok_iff (checkMembersWithin_eq_ok_iff (n - 1) members)

theorem checkItemsWithin_eq_ok_iff (n : ℕ) : (items : List Json) →
    (checkItemsWithin n items = .ok () ↔ itemsLevels items ≤ n ∧ itemsNamesWhole items = true)
  | [] => iff_of_true rfl ⟨Nat.zero_le n, rfl⟩
  | v :: rest => by
    unfold checkItemsWithin itemsLevels itemsNamesWhole
    rw [Outcome.bind_eq_ok_iff, Nat.max_le, Bool.and_eq_true]
    constructor
    · rintro ⟨⟨⟩, hv, hrest⟩
      have first := (checkWithin_eq_ok_iff n v).mp hv
      have others := (checkItemsWithin_eq_ok_iff n rest).mp hrest
      exact ⟨⟨first.1, others.1⟩, first.2, others.2⟩
    · rintro ⟨⟨hv, hrest⟩, wv, wrest⟩
      exact ⟨(), (checkWithin_eq_ok_iff n v).mpr ⟨hv, wv⟩,
        (checkItemsWithin_eq_ok_iff n rest).mpr ⟨hrest, wrest⟩⟩

theorem checkMembersWithin_eq_ok_iff (n : ℕ) : (members : List (Text × Json)) →
    (checkMembersWithin n members = .ok ()
      ↔ membersLevels members ≤ n ∧ membersNamesWhole members = true)
  | [] => iff_of_true rfl ⟨Nat.zero_le n, rfl⟩
  | (name, v) :: rest => by
    unfold checkMembersWithin membersLevels membersNamesWhole
    rw [Outcome.bind_eq_ok_iff, Nat.max_le, Bool.and_eq_true, Bool.and_eq_true]
    constructor
    · rintro ⟨⟨⟩, hname, h⟩
      obtain ⟨⟨⟩, hv, hrest⟩ := Outcome.bind_eq_ok_iff.mp h
      have whole := Text.requireWhole_eq_ok_iff.mp (Outcome.mapError_eq_ok_iff.mp hname)
      have first := (checkWithin_eq_ok_iff n v).mp hv
      have others := (checkMembersWithin_eq_ok_iff n rest).mp hrest
      exact ⟨⟨first.1, others.1⟩, ⟨whole, first.2⟩, others.2⟩
    · rintro ⟨⟨hv, hrest⟩, ⟨whole, wv⟩, wrest⟩
      have value := (checkWithin_eq_ok_iff n v).mpr ⟨hv, wv⟩
      have others := (checkMembersWithin_eq_ok_iff n rest).mpr ⟨hrest, wrest⟩
      exact ⟨(), Outcome.mapError_eq_ok_iff.mpr (Text.requireWhole_eq_ok_iff.mpr whole),
        Outcome.bind_eq_ok_iff.mpr ⟨(), value, others⟩⟩

end

/-- **A value of free form can be shown** if it nests no deeper than the limit
and the names inside its parts are whole. -/
theorem checkParts_eq_ok_iff {v : Json} :
    v.checkParts = .ok () ↔ v.levels ≤ maxDepth ∧ itemsNamesWhole v.parts = true := by
  unfold checkParts
  rw [checkItemsWithin_eq_ok_iff]
  refine and_congr_left fun _ => ?_
  have limit : 0 < maxDepth := by decide
  cases v with
  | arr items => exact Nat.le_sub_one_iff_lt limit
  | obj members =>
    rw [levels, membersLevels_eq]
    exact Nat.le_sub_one_iff_lt limit
  | _ => exact iff_of_true (Nat.zero_le _) limit

/-- The walk that counts the value's own names asks for more. -/
theorem checkParts_of_checkWithin {v : Json} (h : v.checkWithin (maxDepth - 1) = .ok ()) :
    v.checkParts = .ok () := by
  obtain ⟨hlevels, hnames⟩ := (checkWithin_eq_ok_iff _ v).mp h
  refine checkParts_eq_ok_iff.mpr ⟨hlevels.trans (Nat.sub_le _ _), itemsNamesWhole_iff.mpr ?_⟩
  cases v with
  | arr items => exact itemsNamesWhole_iff.mp hnames
  | obj members =>
    exact List.forall_mem_map.mpr fun p hp => (membersNamesWhole_iff.mp hnames p hp).2
  | _ => exact nofun

/-! ## Induction on a value -/

/-- **Induction on a value**: a container has what its parts have. -/
@[elab_as_elim]
theorem induction {P : Json → Prop} (null : P .null) (bool : ∀ b, P (.bool b))
    (int : ∀ n, P (.int n)) (double : ∀ d, P (.double d)) (str : ∀ t, P (.str t))
    (arr : ∀ items, (∀ v ∈ items, P v) → P (.arr items))
    (obj : ∀ members, (∀ p ∈ members, P p.2) → P (.obj members)) (v : Json) : P v :=
  @Json.rec P (fun items => ∀ v ∈ items, P v) (fun members => ∀ p ∈ members, P p.2)
    (fun p => P p.2) null bool int double str arr obj nofun
    (fun _ _ hv hrest => List.forall_mem_cons.mpr ⟨hv, hrest⟩) nofun
    (fun _ _ hp hrest => List.forall_mem_cons.mpr ⟨hp, hrest⟩) (fun _ _ hv => hv) v

/-! ## Infinite numbers -/

theorem itemsFinite_iff {items : List Json} :
    itemsFinite items = true ↔ ∀ v ∈ items, v.allFinite = true := by
  induction items with
  | nil => exact iff_of_true rfl nofun
  | cons v rest ih => rw [itemsFinite, Bool.and_eq_true, ih, List.forall_mem_cons]

theorem membersFinite_iff {members : List (Text × Json)} :
    membersFinite members = true ↔ ∀ p ∈ members, p.2.allFinite = true := by
  induction members with
  | nil => exact iff_of_true rfl nofun
  | cons p rest ih => rw [membersFinite, Bool.and_eq_true, ih, List.forall_mem_cons]

theorem itemsNullInfinite_eq (items : List Json) :
    itemsNullInfinite items = items.map nullInfinite := by
  induction items with
  | nil => rfl
  | cons v rest ih => rw [itemsNullInfinite, ih, List.map_cons]

theorem membersNullInfinite_eq (members : List (Text × Json)) :
    membersNullInfinite members = members.map fun p => (p.1, p.2.nullInfinite) := by
  induction members with
  | nil => rfl
  | cons p rest ih => rw [membersNullInfinite, ih, List.map_cons]

theorem names_membersNullInfinite (members : Members) :
    Members.names (membersNullInfinite members) = members.names := by
  rw [membersNullInfinite_eq]
  exact List.map_map

theorem allFinite_nullInfinite (v : Json) : v.nullInfinite.allFinite = true := by
  induction v using induction with
  | null => rfl
  | bool b => rfl
  | int n => rfl
  | double d =>
    rw [nullInfinite]
    split
    · next h => exact h
    · rfl
  | str t => rfl
  | arr items ih =>
    rw [nullInfinite, allFinite, itemsNullInfinite_eq, itemsFinite_iff]
    exact List.forall_mem_map.mpr ih
  | obj members ih =>
    rw [nullInfinite, allFinite, membersNullInfinite_eq, membersFinite_iff]
    exact List.forall_mem_map.mpr ih

/-- **A value whose numbers are finite is shown with them.** -/
theorem nullInfinite_eq_self {v : Json} (h : v.allFinite = true) : v.nullInfinite = v := by
  induction v using induction with
  | null => rfl
  | bool b => rfl
  | int n => rfl
  | double d => exact if_pos h
  | str t => rfl
  | arr items ih =>
    rw [allFinite, itemsFinite_iff] at h
    rw [nullInfinite, itemsNullInfinite_eq, List.map_congr_left fun v hv => ih v hv (h v hv),
      List.map_id']
  | obj members ih =>
    rw [allFinite, membersFinite_iff] at h
    have same : ∀ p ∈ members, (p.1, p.2.nullInfinite) = p := fun p hp =>
      Prod.ext rfl (ih p hp (h p hp))
    rw [nullInfinite, membersNullInfinite_eq, List.map_congr_left same, List.map_id']

theorem levels_nullInfinite (v : Json) : v.nullInfinite.levels = v.levels := by
  induction v using induction with
  | null => rfl
  | bool b => rfl
  | int n => rfl
  | double d =>
    rw [nullInfinite]
    split <;> rfl
  | str t => rfl
  | arr items ih =>
    rw [nullInfinite, levels, levels]
    congr 1
    induction items with
    | nil => rfl
    | cons v rest ihrest =>
      obtain ⟨hv, hrest⟩ := List.forall_mem_cons.mp ih
      rw [itemsNullInfinite, itemsLevels, itemsLevels, hv, ihrest hrest]
  | obj members ih =>
    rw [nullInfinite, levels, levels]
    congr 1
    induction members with
    | nil => rfl
    | cons p rest ihrest =>
      obtain ⟨hp, hrest⟩ := List.forall_mem_cons.mp ih
      rw [membersNullInfinite, membersLevels, membersLevels, hp, ihrest hrest]

theorem namesWhole_nullInfinite {v : Json} (h : v.namesWhole = true) :
    v.nullInfinite.namesWhole = true := by
  induction v using induction with
  | null => rfl
  | bool b => rfl
  | int n => rfl
  | double d =>
    rw [nullInfinite]
    split <;> rfl
  | str t => rfl
  | arr items ih =>
    rw [namesWhole, itemsNamesWhole_iff] at h
    rw [nullInfinite, namesWhole, itemsNullInfinite_eq, itemsNamesWhole_iff]
    exact List.forall_mem_map.mpr fun v hv => ih v hv (h v hv)
  | obj members ih =>
    rw [namesWhole, membersNamesWhole_iff] at h
    rw [nullInfinite, namesWhole, membersNullInfinite_eq, membersNamesWhole_iff]
    exact List.forall_mem_map.mpr fun p hp => ⟨(h p hp).1, ih p hp (h p hp).2⟩

theorem isRegular_nullInfinite {v : Json} (h : v.IsRegular) : v.nullInfinite.IsRegular := by
  induction v using induction with
  | null => exact trivial
  | bool b => exact trivial
  | int n => exact h
  | double d =>
    rw [nullInfinite]
    split
    · exact h
    · exact trivial
  | str t => exact trivial
  | arr items ih =>
    rw [IsRegular, itemsRegular_iff] at h
    rw [nullInfinite, IsRegular, itemsNullInfinite_eq, itemsRegular_iff]
    exact List.forall_mem_map.mpr fun v hv => ih v hv (h v hv)
  | obj members ih =>
    rw [IsRegular, membersRegular_iff] at h
    rw [nullInfinite, IsRegular, names_membersNullInfinite, membersNullInfinite_eq,
      membersRegular_iff]
    exact ⟨h.1, List.forall_mem_map.mpr fun p hp => ih p hp (h.2 p hp)⟩

theorem parts_nullInfinite (v : Json) : v.nullInfinite.parts = v.parts.map nullInfinite := by
  cases v with
  | double d =>
    rw [nullInfinite]
    split <;> rfl
  | arr items => exact itemsNullInfinite_eq items
  | obj members =>
    show (membersNullInfinite members).map Prod.snd = (members.map Prod.snd).map nullInfinite
    rw [membersNullInfinite_eq, List.map_map, List.map_map]
    rfl
  | _ => rfl

/-! ## Names of the value itself -/

/-- The names of an object; other values have none. -/
def ownNames : Json → List Text
  | .obj members => Members.names members
  | _ => []

theorem ownNames_nullInfinite (v : Json) : v.nullInfinite.ownNames = v.ownNames := by
  cases v with
  | double d =>
    rw [nullInfinite]
    split <;> rfl
  | obj members => exact names_membersNullInfinite members
  | _ => rfl

/-- The names of a mended object are whole. -/
theorem isWhole_of_mem_mendNames {v : Json} : ∀ n ∈ v.mendNames.ownNames, n.isWhole = true := by
  intro n hn
  cases v with
  | obj members =>
    have hn := Members.names_ofPairs_subset _ hn
    rw [Members.names, List.map_map] at hn
    obtain ⟨p, -, rfl⟩ := List.mem_map.mp hn
    exact Text.isWhole_mended p.1
  | _ => exact absurd hn List.not_mem_nil

/-- **An object is mended only if a name of it is not whole.** -/
theorem mendNames_eq_self {v : Json} (h : v.IsRegular)
    (whole : ∀ n ∈ v.ownNames, n.isWhole = true) : v.mendNames = v := by
  cases v with
  | obj members =>
    have same : ∀ p ∈ members, (p.1.mended, p.2) = p := fun p hp =>
      Prod.ext (Text.mended_eq_self (whole p.1 (List.mem_map_of_mem hp))) rfl
    rw [mendNames, List.map_congr_left same, List.map_id', Members.ofPairs_eq_self h.1]
  | _ => rfl

/-- What is true of the values of an object is true of them when it is mended. -/
theorem forall_mem_parts_mendNames {P : Json → Prop} {v : Json} (h : ∀ u ∈ v.parts, P u) :
    ∀ u ∈ v.mendNames.parts, P u := by
  cases v with
  | obj members =>
    have pairs : ∀ p ∈ members.map fun p => (p.1.mended, p.2), P p.2 :=
      List.forall_mem_map.mpr fun p hp => h p.2 (List.mem_map_of_mem hp)
    exact List.forall_mem_map.mpr (Members.forall_mem_ofPairs pairs)
  | _ => exact h

theorem isRegular_mendNames {v : Json} (h : v.IsRegular) : v.mendNames.IsRegular := by
  cases v with
  | obj members =>
    refine ⟨Members.nodup_names_ofPairs _, membersRegular_iff.mpr ?_⟩
    exact Members.forall_mem_ofPairs (List.forall_mem_map.mpr (membersRegular_iff.mp h.2))
  | _ => exact h

/-! ## Values as they are shown -/

/-- What is shown in place of a value of free form. -/
def settled (v : Json) : Json := v.mendNames.nullInfinite

theorem allFinite_settled (v : Json) : v.settled.allFinite = true := allFinite_nullInfinite _

theorem isRegular_settled {v : Json} (h : v.IsRegular) : v.settled.IsRegular :=
  isRegular_nullInfinite (isRegular_mendNames h)

theorem isWhole_of_mem_settled {v : Json} : ∀ n ∈ v.settled.ownNames, n.isWhole = true := by
  unfold settled
  rw [ownNames_nullInfinite]
  exact isWhole_of_mem_mendNames

/-- **What is shown is shown again as it is.** -/
theorem settled_settled {v : Json} (h : v.IsRegular) : v.settled.settled = v.settled := by
  rw [settled, mendNames_eq_self (isRegular_settled h) isWhole_of_mem_settled,
    nullInfinite_eq_self v.allFinite_settled]

/-- **A value whose names are whole is shown as it is**, with `null` for what is
infinite. -/
theorem settled_eq_nullInfinite {v : Json} (h : v.IsRegular)
    (whole : ∀ n ∈ v.ownNames, n.isWhole = true) : v.settled = v.nullInfinite := by
  rw [settled, mendNames_eq_self h whole]

/-- What is shown of a value that can be shown can be shown. -/
theorem checkParts_settled {v : Json} (h : v.checkParts = .ok ()) :
    v.settled.checkParts = .ok () := by
  unfold checkParts at h ⊢
  rw [checkItemsWithin_eq_ok_iff, itemsLevels_le_iff, itemsNamesWhole_iff] at h ⊢
  rw [settled, parts_nullInfinite]
  constructor
  · refine List.forall_mem_map.mpr fun u hu => ?_
    rw [levels_nullInfinite]
    exact forall_mem_parts_mendNames h.1 u hu
  · exact List.forall_mem_map.mpr fun u hu =>
      namesWhole_nullInfinite (forall_mem_parts_mendNames h.2 u hu)

end Json

end CortexCall
