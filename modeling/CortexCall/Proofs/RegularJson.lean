import Mathlib.Data.List.Nodup
import CortexCall.Proofs.JsonReader
import CortexCall.Proofs.WrittenNumber

/-!
# What the reader leaves

Not every JSON value can come out of a text. A whole number that is read has
no more digits than a numeral may have, a double is canonical, and an object
has no name twice, because the reader keeps the last of equal ones. Such a
value is **regular**, and all values that are read are: `Denotes.isRegular`.

An object whose names are distinct is also the object that its members
denote, so that reading them again changes nothing: `Members.ofPairs_eq_self`.
-/

namespace CortexCall

namespace Members

variable {m : Members} {name : Text} {value : Json}

/-- An insertion leaves the names distinct. -/
theorem nodup_names_insert (hm : m.names.Nodup) (name : Text) (value : Json) :
    (m.insert name value).names.Nodup := by
  rw [names_insert]
  split
  · exact hm
  · next hname =>
    rw [List.nodup_append]
    refine ⟨hm, List.nodup_singleton name, ?_⟩
    rintro n hn _ hn' rfl
    exact hname (List.mem_singleton.mp hn' ▸ hn)

/-- What is true of every value is true of every value after an insertion of
such a value. -/
theorem forall_mem_insert {P : Json → Prop} (hm : ∀ p ∈ m, P p.2) (name : Text) (hv : P value) :
    ∀ p ∈ m.insert name value, P p.2 := by
  induction m with
  | nil => exact List.forall_mem_singleton.mpr hv
  | cons q rest ih =>
    obtain ⟨hq, hrest⟩ := List.forall_mem_cons.mp hm
    rw [insert]
    split
    · exact List.forall_mem_cons.mpr ⟨hv, hrest⟩
    · exact List.forall_mem_cons.mpr ⟨hq, ih hrest⟩

/-- **Inserting pairs one by one** keeps the names distinct and the values what
they are. -/
theorem foldl_insert (pairs : List (Text × Json)) {P : Json → Prop} (hm : m.names.Nodup)
    (hvalues : ∀ p ∈ m, P p.2) (hpairs : ∀ p ∈ pairs, P p.2) :
    (names (pairs.foldl (fun m p => m.insert p.1 p.2) m)).Nodup
      ∧ ∀ p ∈ pairs.foldl (fun m p => m.insert p.1 p.2) m, P p.2 := by
  induction pairs generalizing m with
  | nil => exact ⟨hm, hvalues⟩
  | cons q rest ih =>
    obtain ⟨hq, hrest⟩ := List.forall_mem_cons.mp hpairs
    exact ih (nodup_names_insert hm _ _) (forall_mem_insert hvalues _ hq) hrest

theorem nodup_names_ofPairs (pairs : List (Text × Json)) : (ofPairs pairs).names.Nodup :=
  (foldl_insert (m := []) (P := fun _ => True) pairs List.nodup_nil (fun _ h => nomatch h)
    fun _ _ => trivial).1

theorem forall_mem_ofPairs {pairs : List (Text × Json)} {P : Json → Prop}
    (h : ∀ p ∈ pairs, P p.2) : ∀ p ∈ ofPairs pairs, P p.2 :=
  (foldl_insert (m := []) pairs List.nodup_nil (fun _ h => nomatch h) h).2

/-- Every name comes from some pair. -/
theorem names_ofPairs_subset (pairs : List (Text × Json)) :
    (ofPairs pairs).names ⊆ names pairs := by
  have grow : ∀ m : Members,
      names (pairs.foldl (fun m p => m.insert p.1 p.2) m) ⊆ m.names ++ names pairs := by
    induction pairs with
    | nil => exact fun m => List.subset_append_left _ _
    | cons q rest ih =>
      intro m n hn
      obtain hn | hn := List.mem_append.mp (ih _ hn)
      · rw [names_insert] at hn
        split at hn
        · exact List.mem_append_left _ hn
        · show n ∈ m.names ++ q.1 :: names rest
          rw [List.append_cons]
          exact List.mem_append_left _ hn
      · exact List.mem_append_right _ (List.mem_cons_of_mem _ hn)
  exact grow []

/-- **A member is found** under its name, if the names are distinct. -/
theorem get?_of_mem (h : m.names.Nodup) (hv : (name, value) ∈ m) : m.get? name = some value := by
  induction m with
  | nil => exact absurd hv List.not_mem_nil
  | cons p rest ih =>
    obtain ⟨fresh, nodup⟩ := List.nodup_cons.mp h
    obtain rfl | hv := List.mem_cons.mp hv
    · exact if_pos rfl
    · have ne : p.1 ≠ name := fun heq => fresh (List.mem_map.mpr ⟨_, hv, heq.symm⟩)
      exact (if_neg ne).trans (ih nodup hv)

/-- A new name goes to the end. -/
theorem insert_of_not_mem (h : name ∉ m.names) : m.insert name value = m ++ [(name, value)] := by
  induction m with
  | nil => rfl
  | cons p rest ih =>
    obtain ⟨hp, hrest⟩ := not_or.mp (fun e => h (List.mem_cons.mpr e))
    rw [insert, if_neg (Ne.symm hp), ih hrest]
    rfl

/-- **An object with distinct names is the one that its members denote.** -/
theorem ofPairs_eq_self {pairs : List (Text × Json)} (h : (names pairs).Nodup) :
    ofPairs pairs = pairs := by
  have append : ∀ m : Members, (names (m ++ pairs)).Nodup →
      pairs.foldl (fun m p => m.insert p.1 p.2) m = m ++ pairs := by
    clear h
    induction pairs with
    | nil => exact fun m _ => (List.append_nil m).symm
    | cons q rest ih =>
      intro m h
      have fresh : q.1 ∉ m.names := by
        unfold names at h ⊢
        rw [List.map_append, List.nodup_append] at h
        exact fun hq => h.2.2 _ hq _ List.mem_cons_self rfl
      have assoc : m ++ q :: rest = m ++ [q] ++ rest := List.append_cons m q rest
      rw [List.foldl_cons, insert_of_not_mem fresh, assoc]
      exact ih _ (assoc ▸ h)
  exact append [] h

end Members

namespace Json

mutual

/-- **A value that a text can spell**: its whole numbers are not too long, its
doubles canonical, and no object in it has a name twice. -/
def IsRegular : Json → Prop
  | .null => True
  | .bool _ => True
  | .int n => n.natAbs < 10 ^ Text.maxDigits
  | .double d => d.IsCanonical
  | .str _ => True
  | .arr items => ItemsRegular items
  | .obj members => (Members.names members).Nodup ∧ MembersRegular members

/-- Some values that a text can spell. -/
def ItemsRegular : List Json → Prop
  | [] => True
  | v :: rest => v.IsRegular ∧ ItemsRegular rest

/-- Some members whose values a text can spell. -/
def MembersRegular : List (Text × Json) → Prop
  | [] => True
  | (_, v) :: rest => v.IsRegular ∧ MembersRegular rest

end

theorem itemsRegular_iff {items : List Json} :
    ItemsRegular items ↔ ∀ v ∈ items, v.IsRegular := by
  induction items with
  | nil => exact iff_of_true trivial nofun
  | cons v rest ih => rw [ItemsRegular, ih, List.forall_mem_cons]

theorem membersRegular_iff {members : List (Text × Json)} :
    MembersRegular members ↔ ∀ p ∈ members, p.2.IsRegular := by
  induction members with
  | nil => exact iff_of_true trivial nofun
  | cons p rest ih => rw [MembersRegular, ih, List.forall_mem_cons]

/-- An object with a value inserted is regular. -/
theorem isRegular_insert {m : Members} (h : (Json.obj m).IsRegular) (name : Text) {v : Json}
    (hv : v.IsRegular) : (Json.obj (m.insert name v)).IsRegular := by
  unfold IsRegular at h ⊢
  rw [membersRegular_iff] at h ⊢
  exact ⟨Members.nodup_names_insert h.1 name v, Members.forall_mem_insert h.2 name hv⟩

/-! ## Reading -/

/-- The value of a numeral is regular. -/
theorem Numeral.isRegular_of_value {n : Numeral} (hn : ∀ c ∈ n.whole, c.isDigit = true) {v : Json}
    (h : n.value = .ok v) : v.IsRegular := by
  unfold value at h
  split at h
  · split at h
    · cases h
    · next hlong =>
      obtain rfl := Except.ok.inj h
      have bound : valueOf n.whole < 10 ^ Text.maxDigits :=
        lt_of_lt_of_le (valueOf_lt hn) (Nat.pow_le_pow_right (by decide) (Nat.not_lt.mp hlong))
      unfold IsRegular
      split <;> simpa using bound
  · obtain rfl := Except.ok.inj h
    exact Binary64.isCanonical_ofDecimal _ _ _

/-- A phrase that a text can spell. -/
def Phrase.IsRegular : Phrase → Prop
  | .value v => v.IsRegular
  | .items vs => ItemsRegular vs
  | .members ms => MembersRegular ms

/-- **What the grammar derives is regular.** -/
theorem Derives.isRegular {d : Dialect} {n : ℕ} {t rest : Text} {p : Phrase}
    (h : Derives d n t p rest) : p.IsRegular := by
  induction h with
  | word listed =>
    simp only [words, List.mem_cons, List.not_mem_nil, or_false, Prod.mk.injEq] at listed
    obtain ⟨-, rfl⟩ | ⟨-, rfl⟩ | ⟨-, rfl⟩ := listed <;> exact trivial
  | infinity _ listed =>
    simp only [infinityWords, List.mem_cons, List.not_mem_nil, or_false, Prod.mk.injEq] at listed
    obtain ⟨-, rfl⟩ | ⟨-, rfl⟩ | ⟨-, rfl⟩ := listed <;> exact trivial
  | number digits value =>
    cases digits with
    | positive digits => exact Numeral.isRegular_of_value digits.1.2 value
    | negative digits => exact Numeral.isRegular_of_value digits.1.2 value
  | text => exact trivial
  | emptyArray => exact trivial
  | array _ _ ih => exact ih
  | emptyObject => exact ⟨.nil, trivial⟩
  | object _ _ ih =>
    refine ⟨Members.nodup_names_ofPairs _, membersRegular_iff.mpr ?_⟩
    exact Members.forall_mem_ofPairs (membersRegular_iff.mp ih)
  | lastItem _ _ ih => exact ⟨ih, trivial⟩
  | item _ _ _ _ ih₁ ih₂ => exact ⟨ih₁, ih₂⟩
  | lastMember _ _ _ _ _ ih => exact ⟨ih, trivial⟩
  | member _ _ _ _ _ _ _ ih₁ ih₂ => exact ⟨ih₁, ih₂⟩

/-- **What is read is regular.** -/
theorem Denotes.isRegular {d : Dialect} {t : Text} {v : Json} (h : Denotes d t v) :
    v.IsRegular := by
  obtain ⟨n, u, w, -, derives, -⟩ := h
  exact derives.isRegular

end Json

end CortexCall
