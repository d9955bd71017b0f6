import CortexCall.Proofs.RegularJson

/-!
# How deep a text nests

A reader that may be inside so many containers at once gives up at the bracket
of one more. It gives up there and not at the end of the text, so a text can
be too deep and no JSON at all, and a text can be too deep although the value
it spells is not: of two members of one name the last one counts, and the
first may be as deep as it likes.

`Opens` says without a reader when a text opens so many containers inside each
other, each of them reached through items and members that are as they should
be. A reader gives up exactly if its text opens one container more than it may
be inside, `isCut_readValue_iff`; and if it does not give up, it reads what a
reader without a bound reads, `readWithin_eq_read`.

For one direction two readers of different bounds are compared: the one with
the smaller bound agrees with the other wherever it does not give up. So a
value that is derived at all is either returned or given up, and never taken
for a fault.
-/

namespace CortexCall.Json

/-! ## Values -/

mutual

/-- How many containers of a value are inside each other. -/
def nesting : Json → ℕ
  | .null => 0
  | .bool _ => 0
  | .int _ => 0
  | .double _ => 0
  | .str _ => 0
  | .arr items => itemsNesting items + 1
  | .obj members => membersNesting members + 1

/-- The nesting of the deepest of some values. -/
def itemsNesting : List Json → ℕ
  | [] => 0
  | v :: rest => max v.nesting (itemsNesting rest)

/-- The nesting of the deepest value of some members. -/
def membersNesting : List (Text × Json) → ℕ
  | [] => 0
  | (_, v) :: rest => max v.nesting (membersNesting rest)

end

theorem itemsNesting_le_iff {items : List Json} {n : ℕ} :
    itemsNesting items ≤ n ↔ ∀ v ∈ items, v.nesting ≤ n := by
  induction items with
  | nil => exact iff_of_true (Nat.zero_le n) nofun
  | cons v rest ih => rw [itemsNesting, Nat.max_le, ih, List.forall_mem_cons]

theorem membersNesting_le_iff {members : List (Text × Json)} {n : ℕ} :
    membersNesting members ≤ n ↔ ∀ p ∈ members, p.2.nesting ≤ n := by
  induction members with
  | nil => exact iff_of_true (Nat.zero_le n) nofun
  | cons p rest ih => rw [membersNesting, Nat.max_le, ih, List.forall_mem_cons]

/-- So many arrays inside each other, around `null`. -/
def nested : ℕ → Json
  | 0 => .null
  | n + 1 => .arr [nested n]

@[simp] theorem nesting_nested (n : ℕ) : (nested n).nesting = n := by
  induction n with
  | zero => rfl
  | succ n ih => rw [nested, nesting, itemsNesting, itemsNesting, ih, Nat.max_zero]

@[simp] theorem allFinite_nested (n : ℕ) : (nested n).allFinite = true := by
  induction n with
  | zero => rfl
  | succ n ih => rw [nested, allFinite, itemsFinite, ih]; rfl

theorem isRegular_nested (n : ℕ) : (nested n).IsRegular := by
  induction n with
  | zero => trivial
  | succ n ih => exact ⟨ih, trivial⟩

/-- The nesting of a phrase, without that of the container it belongs to. -/
def Phrase.nesting : Phrase → ℕ
  | .value v => v.nesting
  | .items vs => itemsNesting vs
  | .members ms => membersNesting ms

/-- **A derivation bounds the nesting** of what it derives. -/
theorem Derives.nesting_le {d : Dialect} {n : ℕ} {t rest : Text} {p : Phrase}
    (h : Derives d n t p rest) : p.nesting ≤ n := by
  induction h with
  | @word n w rest v listed =>
    simp only [words, List.mem_cons, List.not_mem_nil, or_false, Prod.mk.injEq] at listed
    obtain ⟨-, rfl⟩ | ⟨-, rfl⟩ | ⟨-, rfl⟩ := listed <;> exact Nat.zero_le n
  | @infinity n w rest v allowed listed =>
    simp only [infinityWords, List.mem_cons, List.not_mem_nil, or_false, Prod.mk.injEq] at listed
    obtain ⟨-, rfl⟩ | ⟨-, rfl⟩ | ⟨-, rfl⟩ := listed <;> exact Nat.zero_le n
  | @number n t rest numeral v digits value =>
    unfold Numeral.value at value
    split at value
    · split at value
      · cases value
      · exact Except.ok.inj value ▸ Nat.zero_le n
    · exact Except.ok.inj value ▸ Nat.zero_le n
  | text => exact Nat.zero_le _
  | emptyArray => exact Nat.succ_le_succ (Nat.zero_le _)
  | array _ _ ih => exact Nat.succ_le_succ ih
  | emptyObject => exact Nat.succ_le_succ (Nat.zero_le _)
  | object _ _ ih =>
    refine Nat.succ_le_succ (membersNesting_le_iff.mpr ?_)
    exact Members.forall_mem_ofPairs (P := fun v => v.nesting ≤ _) (membersNesting_le_iff.mp ih)
  | lastItem _ _ ih => exact Nat.max_le.mpr ⟨ih, Nat.zero_le _⟩
  | item _ _ _ _ ih₁ ih₂ => exact Nat.max_le.mpr ⟨ih₁, ih₂⟩
  | lastMember _ _ _ _ _ ih => exact Nat.max_le.mpr ⟨ih, Nat.zero_le _⟩
  | member _ _ _ _ _ _ _ ih₁ ih₂ => exact Nat.max_le.mpr ⟨ih₁, ih₂⟩

/-! ## Readers of different bounds -/

section Cut

variable {α β : Type}

/-- **A reading that was given up** at a container too many. -/
def IsCut (x : Except Fault α) : Prop := ∃ c left, x = .error ⟨.nesting c, left⟩

/-- A reading **agrees** with another unless it was given up. -/
def Agrees (x y : Except Fault α) : Prop := x = y ∨ IsCut x

theorem IsCut.bind {x : Except Fault α} (h : IsCut x) (f : α → Except Fault β) :
    IsCut (x >>= f) := by
  obtain ⟨c, left, rfl⟩ := h
  exact ⟨c, left, rfl⟩

theorem not_isCut_ok (a : α) : ¬ IsCut (.ok a) := by
  rintro ⟨c, left, ⟨⟩⟩

theorem isCut_bind_iff {x : Except Fault α} {f : α → Except Fault β} :
    IsCut (x >>= f) ↔ IsCut x ∨ ∃ a, x = .ok a ∧ IsCut (f a) := by
  cases x with
  | ok a =>
    refine ⟨fun h => .inr ⟨a, rfl, h⟩, ?_⟩
    rintro (h | ⟨_, ⟨⟩, h⟩)
    · exact absurd h (not_isCut_ok a)
    · exact h
  | error e =>
    have cut : IsCut (.error e : Except Fault β) ↔ IsCut (.error e : Except Fault α) := by
      unfold IsCut
      simp only [Except.error.injEq]
    exact cut.trans ⟨.inl, fun h => h.resolve_right (by rintro ⟨_, ⟨⟩, _⟩)⟩

theorem Agrees.refl (x : Except Fault α) : Agrees x x := .inl rfl

theorem Agrees.bind {x y : Except Fault α} {f g : α → Except Fault β} (h : Agrees x y)
    (hfg : ∀ a, Agrees (f a) (g a)) : Agrees (x >>= f) (y >>= g) := by
  obtain rfl | hcut := h
  · cases x with
    | ok a => exact hfg a
    | error e => exact .refl _
  · exact .inr (hcut.bind f)

variable {read read' : Text → Except Fault (Json × Text)}
  (hread : ∀ t, Agrees (read t) (read' t))

include hread

theorem agrees_readItems (budget : ℕ) (t : Text) :
    Agrees (readItems read budget t) (readItems read' budget t) := by
  induction budget generalizing t with
  | zero => exact .refl _
  | succ budget ih =>
    refine (hread t).bind fun p => ?_
    dsimp only
    split
    · exact .refl _
    · exact (ih _).bind fun _ => .refl _
    · exact .refl _

theorem agrees_readMembers (budget : ℕ) (t : Text) :
    Agrees (readMembers read budget t) (readMembers read' budget t) := by
  induction budget generalizing t with
  | zero => exact .refl _
  | succ budget ih =>
    refine (Agrees.refl (readName t)).bind fun q => (hread q.2).bind fun p => ?_
    dsimp only
    split
    · exact .refl _
    · exact (ih _).bind fun _ => .refl _
    · exact .refl _

omit hread in
/-- **A reader agrees with one of a larger bound** unless it gives up. -/
theorem agrees_readValue {d : Dialect} {levels levels' : ℕ} (h : levels ≤ levels') (t : Text) :
    Agrees (readValue d levels t) (readValue d levels' t) := by
  induction levels generalizing levels' t with
  | zero =>
    unfold readValue
    split
    · exact .refl _
    · exact .inr ⟨.array, _, rfl⟩
    · exact .inr ⟨.object, _, rfl⟩
    · exact .refl _
  | succ levels ih =>
    obtain ⟨levels', rfl⟩ : ∃ m, levels' = m + 1 := ⟨levels' - 1, by omega⟩
    have inside : ∀ t, Agrees (readValue d levels t) (readValue d levels' t) :=
      ih (Nat.le_of_succ_le_succ h)
    unfold readValue
    split
    · exact .refl _
    · dsimp only
      split
      · exact .refl _
      · exact (agrees_readItems inside _ _).bind fun _ => .refl _
    · dsimp only
      split
      · exact .refl _
      · exact (agrees_readMembers inside _ _).bind fun _ => .refl _
    · exact .refl _

end Cut

/-! ## Where a reader gives up -/

section Faults

variable {d : Dialect} {opening : ℕ} {t : Text}

/-- A fault of another cause is no giving up. -/
theorem not_isCut_error {α : Type} {fault : Fault} (h : ∀ c, fault.cause ≠ .nesting c) :
    ¬ IsCut (.error fault : Except Fault α) := by
  rintro ⟨c, left, ⟨⟩⟩
  exact h c rfl

/-- What goes on after a result gives up only if one of the two does. -/
theorem not_isCut_bind {α β : Type} {x : Except Fault α} {f : α → Except Fault β}
    (hx : ¬ IsCut x) (hf : ∀ a, ¬ IsCut (f a)) : ¬ IsCut (x >>= f) := by
  rw [isCut_bind_iff]
  rintro (h | ⟨a, -, h⟩)
  · exact hx h
  · exact hf a h

theorem not_isCut_scanSpelled : ¬ IsCut (scanSpelled opening t) := by
  fun_induction scanSpelled opening t
  case case2 => exact not_isCut_ok _
  case case4 ih | case7 ih | case10 ih =>
    exact not_isCut_bind ih fun _ => not_isCut_ok _
  all_goals
    refine not_isCut_error ?_
    rintro c ⟨⟩

theorem not_isCut_scanText : ¬ IsCut (scanText opening t) :=
  not_isCut_bind not_isCut_scanSpelled fun _ => not_isCut_ok _

theorem not_isCut_scanScalar : ¬ IsCut (scanScalar d t) := by
  unfold scanScalar
  split
  · exact not_isCut_ok _
  · split
    · split
      · exact not_isCut_ok _
      · exact not_isCut_error nofun
    · split
      · exact not_isCut_error nofun
      · next numeral rest _ =>
        split
        · exact not_isCut_ok _
        · next cause hcause =>
          refine not_isCut_error fun c hc => ?_
          unfold Numeral.value at hcause
          split at hcause
          · split at hcause
            · cases (Except.error.inj hcause).trans hc
            · cases hcause
          · cases hcause

theorem not_isCut_readName : ¬ IsCut (readName t) := by
  unfold readName
  split
  · refine not_isCut_bind not_isCut_scanText fun p => ?_
    dsimp only
    split
    · exact not_isCut_ok _
    · exact not_isCut_error nofun
  · exact not_isCut_error nofun

end Faults

/-- Where an item of an array starts, `u` is where this one or one behind it
does. -/
inductive ItemAt (d : Dialect) : Text → Text → Prop
  | here {t : Text} : ItemAt d t t
  | later {n : ℕ} {t u w x y : Text} {v : Json} (value : Derives d n t (.value v) u)
      (comma : Space u (.char ',' :: w)) (space : Space w x) (more : ItemAt d x y) : ItemAt d t y

/-- Where a member of an object starts, `u` is where the value of this one or of
one behind it does. -/
inductive MemberAt (d : Dialect) : Text → Text → Prop
  | here {t u w x : Text} {us : List Spelled} (name : Spells t us u)
      (colon : Space u (.char ':' :: w)) (space : Space w x) : MemberAt d (.char '"' :: t) x
  | later {n : ℕ} {t u w x y z z' a : Text} {us : List Spelled} {v : Json} (name : Spells t us u)
      (colon : Space u (.char ':' :: w)) (space : Space w x) (value : Derives d n x (.value v) y)
      (comma : Space y (.char ',' :: z)) (space' : Space z z') (more : MemberAt d z' a) :
      MemberAt d (.char '"' :: t) a

/-- **A text that opens so many containers inside each other**, one at least. What
stands in front of each bracket is as it should be; what stands behind the last
one does not matter. -/
inductive Opens (d : Dialect) : ℕ → Text → Prop
  | array {t : Text} : Opens d 1 (.char '[' :: t)
  | object {t : Text} : Opens d 1 (.char '\x7b' :: t)
  | inArray {n : ℕ} {t u w : Text} (space : Space t u) (item : ItemAt d u w)
      (inside : Opens d n w) : Opens d (n + 1) (.char '[' :: t)
  | inObject {n : ℕ} {t u w : Text} (space : Space t u) (member : MemberAt d u w)
      (inside : Opens d n w) : Opens d (n + 1) (.char '\x7b' :: t)

section Given

variable {d : Dialect} {n m : ℕ} {t u : Text} {read : Text → Except Fault (Json × Text)}

/-! ### Giving up is at a bracket -/

section Sound

variable (hread : ∀ {t rest v}, read t = .ok (v, rest) → Derives d n t (.value v) rest)

include hread

theorem exists_of_isCut_readItems {budget : ℕ} (h : IsCut (readItems read budget t)) :
    ∃ u, ItemAt d t u ∧ IsCut (read u) := by
  induction budget generalizing t with
  | zero => exact absurd h (not_isCut_error nofun)
  | succ budget ih =>
    obtain h | ⟨⟨v, u⟩, hv, h⟩ := isCut_bind_iff.mp h
    · exact ⟨t, .here, h⟩
    · have space := space_skipSpace u
      dsimp only at h
      split at h
      · exact absurd h (not_isCut_ok _)
      · next more heq =>
        obtain h | ⟨_, _, h⟩ := isCut_bind_iff.mp h
        · obtain ⟨y, hy, cut⟩ := ih h
          exact ⟨y, .later (hread hv) (heq ▸ space) (space_skipSpace more) hy, cut⟩
        · exact absurd h (not_isCut_ok _)
      · exact absurd h (not_isCut_error nofun)

theorem exists_of_isCut_readMembers {budget : ℕ} (h : IsCut (readMembers read budget t)) :
    ∃ u, MemberAt d t u ∧ IsCut (read u) := by
  induction budget generalizing t with
  | zero => exact absurd h (not_isCut_error nofun)
  | succ budget ih =>
    obtain h | ⟨⟨name, u⟩, hname, h⟩ := isCut_bind_iff.mp h
    · exact absurd h not_isCut_readName
    · obtain ⟨t', us, u', x, rfl, rfl, spells, colon, space⟩ := exists_of_readName hname
      obtain h | ⟨⟨v, y⟩, hv, h⟩ := isCut_bind_iff.mp h
      · exact ⟨u, .here spells colon space, h⟩
      · have space' := space_skipSpace y
        dsimp only at h
        split at h
        · exact absurd h (not_isCut_ok _)
        · next more heq =>
          obtain h | ⟨_, _, h⟩ := isCut_bind_iff.mp h
          · obtain ⟨a, ha, cut⟩ := ih h
            exact ⟨a, .later spells colon space (hread hv) (heq ▸ space') (space_skipSpace more) ha,
              cut⟩
          · exact absurd h (not_isCut_ok _)
        · exact absurd h (not_isCut_error nofun)

end Sound

/-- A reader that gives up has met a container too many. -/
theorem opens_of_isCut (h : IsCut (readValue d n t)) : Opens d (n + 1) t := by
  induction n using Nat.strongRecOn generalizing t with
  | ind n ih =>
    unfold readValue at h
    split at h
    · obtain h | ⟨_, _, h⟩ := isCut_bind_iff.mp h
      · exact absurd h not_isCut_scanText
      · exact absurd h (not_isCut_ok _)
    · next more =>
      split at h
      · exact .array
      · next levels =>
        split at h
        · exact absurd h (not_isCut_ok _)
        · obtain h | ⟨_, _, h⟩ := isCut_bind_iff.mp h
          · obtain ⟨u, item, cut⟩ := exists_of_isCut_readItems derives_of_readValue h
            exact .inArray (space_skipSpace more) item (ih levels (Nat.lt_succ_self _) cut)
          · exact absurd h (not_isCut_ok _)
    · next more =>
      split at h
      · exact .object
      · next levels =>
        split at h
        · exact absurd h (not_isCut_ok _)
        · obtain h | ⟨_, _, h⟩ := isCut_bind_iff.mp h
          · obtain ⟨u, member, cut⟩ := exists_of_isCut_readMembers derives_of_readValue h
            exact .inObject (space_skipSpace more) member (ih levels (Nat.lt_succ_self _) cut)
          · exact absurd h (not_isCut_ok _)
    · exact absurd h not_isCut_scanScalar

/-! ### At a bracket too many it gives up -/

theorem Opens.starts (h : Opens d n t) : Starts t := by
  cases h <;> exact starts_cons (by unfold Starts; decide)

theorem ItemAt.starts (h : ItemAt d t u) (hu : Starts u) : Starts t := by
  cases h with
  | here => exact hu
  | later value => exact value.starts

theorem MemberAt.starts (h : MemberAt d t u) : Starts t := by
  cases h <;> exact starts_cons (by unfold Starts; decide)

/-- **What is derived is returned by a reader of any bound**, or given up. -/
theorem Derives.returned_or_cut {rest : Text} {v : Json} (h : Derives d m t (.value v) rest)
    (hrest : Follows rest) (n : ℕ) :
    readValue d n t = .ok (v, rest) ∨ IsCut (readValue d n t) := by
  have returned : readValue d m t = .ok (v, rest) := h.returns hrest
  obtain hle | hle := Nat.le_total n m
  · have agrees := agrees_readValue (d := d) hle t
    rwa [returned] at agrees
  · have agrees := agrees_readValue (d := d) hle t
    rw [returned] at agrees
    exact .inl (agrees.resolve_right (not_isCut_ok _)).symm

section Complete

variable (hread : ∀ {m t rest v}, Derives d m t (.value v) rest → Follows rest →
  read t = .ok (v, rest) ∨ IsCut (read t))

include hread

theorem ItemAt.isCut (h : ItemAt d t u) (starts : Starts u) (cut : IsCut (read u)) :
    ∀ budget, t.length < budget → IsCut (readItems read budget t) := by
  induction h with
  | here =>
    rintro (_ | budget) hbudget
    · exact absurd hbudget (Nat.not_lt_zero _)
    · exact cut.bind _
  | @later n t u w x y v value comma space more ih =>
    rintro (_ | budget) hbudget
    · exact absurd hbudget (Nat.not_lt_zero _)
    · have h₁ := value.length_lt
      have h₂ := comma.length_le
      have h₃ := space.length_le
      rw [List.length_cons] at h₂
      unfold readItems
      obtain returned | hcut := hread value
        (comma.follows (by unfold Follows; rintro _ ⟨⟩; decide))
      · rw [returned]
        dsimp only [bind, Except.bind]
        rw [comma.skipSpace_eq (by rintro _ ⟨⟩; decide)]
        show IsCut (readItems _ _ (skipSpace w) >>= _)
        rw [space.skipSpace_eq fun c hc => (more.starts starts c hc).1]
        exact (ih starts cut budget (by omega)).bind _
      · exact hcut.bind _

theorem MemberAt.isCut (h : MemberAt d t u) (starts : Starts u) (cut : IsCut (read u)) :
    ∀ budget, t.length < budget → IsCut (readMembers read budget t) := by
  induction h with
  | here name colon space =>
    rintro (_ | budget) hbudget
    · exact absurd hbudget (Nat.not_lt_zero _)
    · unfold readMembers
      rw [readName_of_spells name colon space starts]
      exact cut.bind _
  | @later n t u w x y z z' a us v name colon space value comma space' more ih =>
    rintro (_ | budget) hbudget
    · exact absurd hbudget (Nat.not_lt_zero _)
    · have h₁ := name.length_lt
      have h₂ := colon.length_le
      have h₃ := space.length_le
      have h₄ := value.length_lt
      have h₅ := comma.length_le
      have h₆ := space'.length_le
      simp only [List.length_cons] at h₂ h₅ hbudget
      unfold readMembers
      rw [readName_of_spells name colon space value.starts]
      show IsCut (read x >>= _)
      obtain returned | hcut := hread value
        (comma.follows (by unfold Follows; rintro _ ⟨⟩; decide))
      · rw [returned]
        dsimp only [bind, Except.bind]
        rw [comma.skipSpace_eq (by rintro _ ⟨⟩; decide)]
        show IsCut (readMembers _ _ (skipSpace z) >>= _)
        rw [space'.skipSpace_eq fun c hc => (more.starts c hc).1]
        exact (ih starts cut budget (by omega)).bind _
      · exact hcut.bind _

end Complete

/-- A text with too many containers is given up. -/
theorem Opens.isCut (h : Opens d m t) : ∀ n < m, IsCut (readValue d n t) := by
  induction h with
  | array =>
    intro n hn
    obtain rfl := Nat.lt_one_iff.mp hn
    exact ⟨.array, _, rfl⟩
  | object =>
    intro n hn
    obtain rfl := Nat.lt_one_iff.mp hn
    exact ⟨.object, _, rfl⟩
  | @inArray m t u w space item inside ih =>
    rintro (_ | n) hn
    · exact ⟨.array, _, rfl⟩
    · have starts := item.starts inside.starts
      rw [readValue]
      rw [space.skipSpace_eq fun c hc => (starts c hc).1]
      split
      · exact absurd rfl (starts _ rfl).2.1
      · exact (item.isCut (fun h hrest => h.returned_or_cut hrest n) inside.starts
          (ih n (Nat.lt_of_succ_lt_succ hn)) _ (Nat.lt_succ_self _)).bind _
  | @inObject m t u w space member inside ih =>
    rintro (_ | n) hn
    · exact ⟨.object, _, rfl⟩
    · have starts := member.starts
      rw [readValue]
      rw [space.skipSpace_eq fun c hc => (starts c hc).1]
      split
      · exact absurd rfl (starts _ rfl).2.2.1
      · exact (member.isCut (fun h hrest => h.returned_or_cut hrest n) inside.starts
          (ih n (Nat.lt_of_succ_lt_succ hn)) _ (Nat.lt_succ_self _)).bind _

/-- **A reader gives up** exactly if the text opens one container more than it
may be inside. -/
theorem isCut_readValue_iff : IsCut (readValue d n t) ↔ Opens d (n + 1) t :=
  ⟨opens_of_isCut, fun h => h.isCut n (Nat.lt_succ_self n)⟩

/-- A text that opens so many containers opens fewer. -/
theorem Opens.of_lt (h : Opens d m t) (hn : n < m) : Opens d (n + 1) t :=
  isCut_readValue_iff.mp (h.isCut n hn)

theorem ItemAt.length_le (h : ItemAt d t u) : u.length ≤ t.length := by
  induction h with
  | here => exact Nat.le_refl _
  | later value comma space _ ih =>
    have h₁ := value.length_lt
    have h₂ := comma.length_le
    have h₃ := space.length_le
    rw [List.length_cons] at h₂
    omega

theorem MemberAt.length_le (h : MemberAt d t u) : u.length ≤ t.length := by
  induction h with
  | here name colon space =>
    have h₁ := name.length_lt
    have h₂ := colon.length_le
    have h₃ := space.length_le
    simp only [List.length_cons] at h₂ ⊢
    omega
  | later name colon space value comma space' _ ih =>
    have h₁ := name.length_lt
    have h₂ := colon.length_le
    have h₃ := space.length_le
    have h₄ := value.length_lt
    have h₅ := comma.length_le
    have h₆ := space'.length_le
    simp only [List.length_cons] at h₂ h₅ ⊢
    omega

/-- A text does not open more containers than it has characters. -/
theorem Opens.le_length (h : Opens d n t) : n ≤ t.length := by
  induction h with
  | array => exact Nat.succ_le_succ (Nat.zero_le _)
  | object => exact Nat.succ_le_succ (Nat.zero_le _)
  | inArray space item _ ih =>
    exact Nat.succ_le_succ (ih.trans (item.length_le.trans space.length_le))
  | inObject space member _ ih =>
    exact Nat.succ_le_succ (ih.trans (member.length_le.trans space.length_le))

end Given

/-! ## Whole texts -/

section Whole

variable {d : Dialect} {n m : ℕ} {t : Text}

/-- **A reading that was interrupted**: it was given up, at a container. -/
def IsInterrupted (x : Except ReadError Json) (c : Container) : Prop :=
  ∃ before, x = .error ⟨.nesting c, before⟩

theorem isCut_readAll_iff : IsCut (readAll d n t) ↔ Opens d (n + 1) (skipSpace t) := by
  unfold readAll
  by_cases hbom : t.head? = some (.ofNat 0xFEFF)
  · rw [if_pos hbom]
    refine iff_of_false (not_isCut_error nofun) fun h => ?_
    obtain ⟨more, rfl⟩ : ∃ more, t = .ofNat 0xFEFF :: more := by
      cases t with
      | nil => cases hbom
      | cons c more => exact ⟨more, congrArg (· :: more) (Option.some.inj hbom)⟩
    exact (h.starts _ rfl).2.2.2 rfl
  · rw [if_neg hbom, isCut_bind_iff, isCut_readValue_iff]
    refine or_iff_left ?_
    rintro ⟨p, -, h⟩
    dsimp only at h
    split at h
    · exact not_isCut_ok _ h
    · exact absurd h (not_isCut_error nofun)

/-- **A reading is interrupted** exactly if the text opens one container more than
the reader may be inside. -/
theorem exists_isInterrupted_iff :
    (∃ c, IsInterrupted (readWithin n d t) c) ↔ Opens d (n + 1) (skipSpace t) := by
  rw [← isCut_readAll_iff]
  unfold readWithin
  cases readAll d n t with
  | ok v => exact iff_of_false (by rintro ⟨c, before, ⟨⟩⟩) (not_isCut_ok v)
  | error fault =>
    obtain ⟨cause, left⟩ := fault
    constructor
    · rintro ⟨c, before, h⟩
      obtain rfl : cause = .nesting c := congrArg ReadError.cause (Except.error.inj h)
      exact ⟨c, left, rfl⟩
    · rintro ⟨c, left', h⟩
      obtain rfl : cause = .nesting c := congrArg Fault.cause (Except.error.inj h)
      exact ⟨c, _, rfl⟩

theorem agrees_readAll (h : n ≤ m) (t : Text) : Agrees (readAll d n t) (readAll d m t) := by
  unfold readAll
  split
  · exact .refl _
  · exact (agrees_readValue h _).bind fun _ => .refl _

theorem not_opens_length : ¬ Opens d (t.length + 1) (skipSpace t) := fun h => by
  have opened := h.le_length
  have skipped := (space_skipSpace t).length_le
  omega

/-- **A reading that is not interrupted is as without a bound.** -/
theorem readWithin_eq_read (h : ¬ Opens d (n + 1) (skipSpace t)) :
    readWithin n d t = read d t := by
  rw [← isCut_readAll_iff] at h
  have same : readAll d n t = readAll d t.length t := by
    obtain hle | hle := Nat.le_total n t.length
    · exact (agrees_readAll hle t).resolve_right h
    · refine ((agrees_readAll hle t).resolve_right fun cut => ?_).symm
      exact not_opens_length (isCut_readAll_iff.mp cut)
  unfold read readWithin
  rw [same]

/-- A reader without a bound is never interrupted. -/
theorem not_isInterrupted_read (c : Container) : ¬ IsInterrupted (read d t) c := fun h =>
  not_opens_length (exists_isInterrupted_iff.mp ⟨c, h⟩)

/-- **What is JSON is read within any bound**, or the reading is interrupted. -/
theorem Denotes.read_or_interrupted {v : Json} (h : Denotes d t v) (n : ℕ) :
    readWithin n d t = .ok v ∨ ∃ c, IsInterrupted (readWithin n d t) c := by
  by_cases opens : Opens d (n + 1) (skipSpace t)
  · exact .inr (exists_isInterrupted_iff.mpr opens)
  · exact .inl ((readWithin_eq_read opens).trans (read_eq_ok_iff.mpr h))

end Whole

end CortexCall.Json
