import CortexCall.Proofs.Acceptance
import CortexCall.Proofs.RegularJson

/-!
# Where the values of a payload come from

A payload that is made from a text holds, for each parameter in order, the
value that was given for it, checked by its kind, and nothing for a parameter
that was not given. `Entries.Taken` says so of any entries and any account of
what was given; `Parameter.checkAll_eq_ok_iff` says that the pass over the
parameters leaves exactly such entries. The members of the argument text are
one account – `Payload.exists_of_ofText` – and an echo that is read again is
another.
-/

namespace CortexCall

namespace Entries

/-- **Entries that are taken from what is given** for some parameters: for each
parameter in order the given value, checked, and none only if the parameter is
optional. -/
inductive Taken (given : Parameter → Option Json) : List Parameter → Entries → Prop
  | nil : Taken given [] []
  | some {q : Parameter} {j : Json} {v : Value} {ps : List Parameter} {e : Entries}
      (isGiven : given q = .some j) (check : q.kind.check j = .ok v) (rest : Taken given ps e) :
      Taken given (q :: ps) ((q.field, v) :: e)
  | none {q : Parameter} {ps : List Parameter} {e : Entries} (notGiven : given q = .none)
      (optional : q.required = false) (rest : Taken given ps e) : Taken given (q :: ps) e

namespace Taken

variable {given : Parameter → Option Json} {ps : List Parameter} {e : Entries}
  {q : Parameter} {f : Field} {v : Value}

/-- The entries are of the parameters that are given, in their order. -/
theorem fields (h : Taken given ps e) :
    e.map Prod.fst = (ps.filter fun q => (given q).isSome).map Parameter.field := by
  induction h with
  | nil => rfl
  | some isGiven _ _ ih =>
    rw [List.filter_cons_of_pos (by rw [isGiven]; rfl), List.map_cons, List.map_cons, ih]
  | none notGiven _ _ ih => rw [List.filter_cons_of_neg (by rw [notGiven]; simp), ih]

/-- No field has two entries, if none has two parameters. -/
theorem nodup (h : Taken given ps e) (hps : (ps.map Parameter.field).Nodup) :
    (e.map Prod.fst).Nodup := by
  rw [h.fields]
  exact hps.sublist (List.filter_sublist.map _)

/-- An entry is of some parameter, and it is what was given for it. -/
theorem exists_of_mem (h : Taken given ps e) (hv : (f, v) ∈ e) :
    ∃ q ∈ ps, q.field = f ∧ ∃ j, given q = .some j ∧ q.kind.check j = .ok v := by
  induction h with
  | nil => exact absurd hv List.not_mem_nil
  | @some q j w ps e isGiven check _ ih =>
    obtain heq | hv := List.mem_cons.mp hv
    · obtain ⟨rfl, rfl⟩ := Prod.mk.inj heq
      exact ⟨q, List.mem_cons_self, rfl, j, isGiven, check⟩
    · obtain ⟨p, hp, found⟩ := ih hv
      exact ⟨p, List.mem_cons_of_mem q hp, found⟩
  | none _ _ _ ih =>
    obtain ⟨p, hp, found⟩ := ih hv
    exact ⟨p, List.mem_cons_of_mem _ hp, found⟩

end Taken

/-- A field is given if it is a field of some entry. -/
theorem has_iff_mem {e : Entries} {f : Field} : e.has f = true ↔ f ∈ e.map Prod.fst := by
  unfold has
  induction e with
  | nil => simp [get?]
  | cons p rest ih =>
    obtain ⟨g, v⟩ := p
    rw [get?, List.map_cons, List.mem_cons]
    by_cases hg : g = f
    · simp [hg]
    · rw [if_neg hg, ih]
      exact (or_iff_right (Ne.symm hg)).symm

theorem mem_of_get? {e : Entries} {f : Field} {v : Value} (h : get? f e = some v) : (f, v) ∈ e := by
  induction e with
  | nil => cases h
  | cons p rest ih =>
    obtain ⟨g, w⟩ := p
    rw [get?] at h
    split at h
    · next hg =>
      obtain rfl := Option.some.inj h
      exact hg ▸ List.mem_cons_self
    · exact List.mem_cons_of_mem _ (ih h)

/-- **An entry is found** under its field, if no other has the same field. -/
theorem get?_of_mem {e : Entries} (h : (e.map Prod.fst).Nodup) {f : Field} {v : Value}
    (hv : (f, v) ∈ e) : get? f e = some v := by
  induction e with
  | nil => exact absurd hv List.not_mem_nil
  | cons p rest ih =>
    obtain ⟨fresh, nodup⟩ := List.nodup_cons.mp h
    obtain rfl | hv := List.mem_cons.mp hv
    · exact if_pos rfl
    · have ne : p.1 ≠ f := fun heq => fresh (List.mem_map.mpr ⟨_, hv, heq.symm⟩)
      exact (if_neg ne).trans (ih nodup hv)

namespace Taken

variable {given : Parameter → Option Json} {ps : List Parameter} {e : Entries} {q : Parameter}

/-- **What is given for a parameter is found**, checked, under its field. -/
theorem exists_get? (h : Taken given ps e) (hps : (ps.map Parameter.field).Nodup) (hq : q ∈ ps)
    {j : Json} (hj : given q = .some j) :
    ∃ v, q.kind.check j = .ok v ∧ get? q.field e = .some v := by
  have hfield : q.field ∈ e.map Prod.fst := by
    rw [h.fields]
    exact List.mem_map_of_mem (List.mem_filter.mpr ⟨hq, Option.isSome_of_eq_some hj⟩)
  obtain ⟨⟨_, v⟩, hv, rfl⟩ := List.mem_map.mp hfield
  obtain ⟨p, hp, hsame, i, hi, check⟩ := h.exists_of_mem hv
  obtain rfl := List.inj_on_of_nodup_map hps hp hq hsame
  obtain rfl := Option.some.inj (hi.symm.trans hj)
  exact ⟨v, check, get?_of_mem (h.nodup hps) hv⟩

/-- Where nothing is given for a parameter, nothing is found under its field. -/
theorem get?_eq_none (h : Taken given ps e) (hps : (ps.map Parameter.field).Nodup) (hq : q ∈ ps)
    (hj : given q = .none) : get? q.field e = .none := by
  cases hv : get? q.field e with
  | none => rfl
  | some v =>
    obtain ⟨p, hp, hsame, i, hi, -⟩ := h.exists_of_mem (mem_of_get? hv)
    obtain rfl := List.inj_on_of_nodup_map hps hp hq hsame
    cases hj.symm.trans hi

end Taken

end Entries

namespace Parameter

section Check

variable {m : Members} {q : Parameter}

theorem check_of_none (hq : m.get? q.field.name = none) :
    q.check m = if q.required then .error (.missing q.field) else .ok none := by
  unfold Parameter.check
  rw [hq]

theorem check_of_some {j : Json} (hq : m.get? q.field.name = some j) (hnull : j.isNull = false) :
    q.check m = ((q.kind.check j).map some).mapError (·.under (.name q.field.name)) := by
  unfold Parameter.check
  rw [hq]
  dsimp only
  rw [hnull, Bool.and_false]
  rfl

/-- A parameter that has a value has it from a member. -/
theorem exists_of_check {v : Value} (h : q.check m = .ok (some v)) :
    ∃ j, m.get? q.field.name = some j ∧ q.kind.check j = .ok v := by
  unfold Parameter.check at h
  split at h
  · split at h <;> cases h
  · next j hj =>
    split at h
    · cases h
    · obtain ⟨w, hw, heq⟩ := Outcome.map_eq_ok_iff.mp (Outcome.mapError_eq_ok_iff.mp h)
      obtain rfl := Option.some.inj heq
      exact ⟨j, hj, hw⟩

end Check

/-- **The pass over some parameters takes what is given** among the members. -/
theorem checkAll_eq_ok_iff {m : Members} {given : Parameter → Option Json} {ps : List Parameter}
    (hps : ∀ q ∈ ps, m.get? q.field.name = given q)
    (hnull : ∀ q ∈ ps, ∀ j, given q = some j → j.isNull = false) {e : Entries} :
    checkAll m ps = .ok e ↔ e.Taken given ps := by
  induction ps generalizing e with
  | nil =>
    constructor
    · intro h
      obtain rfl := Except.ok.inj h
      exact .nil
    · rintro ⟨⟩
      rfl
  | cons q rest ih =>
    obtain ⟨hq, hrest⟩ := List.forall_mem_cons.mp hps
    obtain ⟨hqnull, hrestnull⟩ := List.forall_mem_cons.mp hnull
    show (q.check m >>= _) = _ ↔ _
    rw [Outcome.bind_eq_ok_iff]
    cases hj : given q with
    | none =>
      rw [check_of_none (hq.trans hj)]
      constructor
      · rintro ⟨value, hvalue, h⟩
        obtain ⟨entries, hentries, h⟩ := Outcome.bind_eq_ok_iff.mp h
        split at hvalue
        · cases hvalue
        · next hr =>
          obtain rfl := Except.ok.inj hvalue
          obtain rfl := Except.ok.inj h
          exact .none hj (eq_false_of_ne_true hr) ((ih hrest hrestnull).mp hentries)
      · rintro (_ | ⟨hj', -, -⟩ | ⟨-, hr, others⟩)
        · exact absurd (hj.symm.trans hj') nofun
        · exact ⟨none, if_neg (by rw [hr]; exact Bool.false_ne_true),
            Outcome.bind_eq_ok_iff.mpr ⟨_, (ih hrest hrestnull).mpr others, rfl⟩⟩
    | some j =>
      rw [check_of_some (hq.trans hj) (hqnull j hj)]
      constructor
      · rintro ⟨value, hvalue, h⟩
        obtain ⟨entries, hentries, h⟩ := Outcome.bind_eq_ok_iff.mp h
        obtain ⟨v, hv, rfl⟩ := Outcome.map_eq_ok_iff.mp (Outcome.mapError_eq_ok_iff.mp hvalue)
        obtain rfl := Except.ok.inj h
        exact .some hj hv ((ih hrest hrestnull).mp hentries)
      · rintro (_ | ⟨hj', hv, others⟩ | ⟨hj', -, -⟩)
        · obtain rfl := Option.some.inj (hj.symm.trans hj')
          exact ⟨some _,
            Outcome.mapError_eq_ok_iff.mpr (Outcome.map_eq_ok_iff.mpr ⟨_, hv, rfl⟩),
            Outcome.bind_eq_ok_iff.mpr ⟨_, (ih hrest hrestnull).mpr others, rfl⟩⟩
        · exact absurd (hj.symm.trans hj') nofun

/-- **What the pass over some parameters leaves was among the members**, also where
some of them are `null`. -/
theorem exists_of_mem_checkAll {m : Members} {ps : List Parameter} {e : Entries}
    (h : checkAll m ps = .ok e) {f : Field} {v : Value} (hv : (f, v) ∈ e) :
    ∃ q ∈ ps, q.field = f ∧ ∃ j, m.get? q.field.name = some j ∧ q.kind.check j = .ok v := by
  induction ps generalizing e with
  | nil =>
    obtain rfl := Except.ok.inj h
    exact absurd hv List.not_mem_nil
  | cons q rest ih =>
    obtain ⟨value, hvalue, h⟩ := Outcome.bind_eq_ok_iff.mp h
    obtain ⟨entries, hentries, h⟩ := Outcome.bind_eq_ok_iff.mp h
    have later : (f, v) ∈ entries →
        ∃ q' ∈ q :: rest, q'.field = f ∧ ∃ j, m.get? q'.field.name = some j
          ∧ q'.kind.check j = .ok v := by
      intro hv
      obtain ⟨q', hq', found⟩ := ih hentries hv
      exact ⟨q', List.mem_cons_of_mem q hq', found⟩
    cases value with
    | none =>
      obtain rfl := Except.ok.inj h
      exact later hv
    | some w =>
      obtain rfl := Except.ok.inj h
      obtain heq | hv := List.mem_cons.mp hv
      · obtain ⟨rfl, rfl⟩ := Prod.mk.inj heq
        exact ⟨q, List.mem_cons_self, rfl, exists_of_check hvalue⟩
      · exact later hv

end Parameter

/-- An object that a text spells is read from it. -/
theorem readObject_of_object? (label : Text) {args : Option Text} {m : Members}
    (h : Request.object? args = some m) : Request.readObject label args = .ok m := by
  rw [readObject_eq]
  unfold Request.object? at h
  split at h
  · next members hm =>
    obtain rfl := Option.some.inj h
    rw [if_neg, hm]
    intro hblank
    rw [List.isEmpty_iff.mp hblank] at hm
    have nothing : (Json.read .strict []).toOption.isNone = true := by decide
    rw [hm] at nothing
    cases nothing
  · cases h

namespace Payload

/-- **A payload is made of members** when its entries are taken from them, no
member is left and the rule holds. -/
theorem ofMembers_eq_ok_iff {f : AiFunction} {m : Members} {p : Payload} :
    ofMembers f m = .ok p ↔ p.function = f ∧ Parameter.checkAll m f.parameters = .ok p.entries
      ∧ Parameter.firstUnexpected f.parameters m = none ∧ f.rule.check p.entries = .ok () := by
  unfold ofMembers
  rw [Outcome.bind_eq_ok_iff]
  constructor
  · rintro ⟨e, he, h⟩
    split at h
    · cases h
    · next hnone =>
      obtain ⟨⟨⟩, hrule, h⟩ := Outcome.bind_eq_ok_iff.mp h
      obtain rfl := Except.ok.inj h
      exact ⟨rfl, he, hnone, hrule⟩
  · rintro ⟨rfl, he, hnone, hrule⟩
    refine ⟨p.entries, he, ?_⟩
    rw [hnone]
    exact Outcome.bind_eq_ok_iff.mpr ⟨(), hrule, rfl⟩

theorem checkDetails_eq_ok_iff {c : Callee} {p q : Payload} :
    checkDetails c p = .ok q ↔ q = p ∧ (c.isLegacy && p.has .showDetails) = false := by
  unfold checkDetails
  split
  · next h => simp [h]
  · next h =>
    rw [Except.ok.injEq, eq_comm]
    exact (and_iff_left (eq_false_of_ne_true h)).symm

/-- **A payload comes out of a text** when the text is an object, and the
payload is made of its members, each under the name of its field. -/
theorem ofText_eq_ok_iff {c : Callee} {args : Option Text} {p : Payload} :
    ofText c args = .ok p ↔ ∃ m m', Request.object? args = some m
      ∧ m.unify c.sqlName c.function.spellings = .ok m' ∧ hasReadableNames m' = true
      ∧ ofMembers c.function m' = .ok p ∧ (c.isLegacy && p.has .showDetails) = false := by
  unfold ofText
  constructor
  · intro h
    obtain ⟨m, hm, h⟩ := Outcome.bind_eq_ok_iff.mp h
    obtain ⟨m', hm', h⟩ := Outcome.bind_eq_ok_iff.mp h
    split at h
    · next q hq =>
      obtain ⟨rfl, hdetails⟩ := checkDetails_eq_ok_iff.mp h
      unfold ofJson at hq
      dsimp only at hq
      split at hq
      · next hnames => exact ⟨m, m', object?_of_readObject hm, hm', hnames, hq, hdetails⟩
      · cases hq
    · cases h
  · rintro ⟨m, m', hobject, hunify, hnames, hmembers, hdetails⟩
    refine Outcome.bind_eq_ok_iff.mpr ⟨m, readObject_of_object? _ hobject,
      Outcome.bind_eq_ok_iff.mpr ⟨m', hunify, ?_⟩⟩
    have hjson : ofJson c.function (.obj m') = .ok p := (if_pos hnames).trans hmembers
    rw [hjson]
    exact checkDetails_eq_ok_iff.mpr ⟨rfl, hdetails⟩

/-- **What a payload holds was given** in the argument text. -/
theorem exists_of_ofText {c : Callee} {args : Option Text} {p : Payload}
    (h : ofText c args = .ok p) : ∃ m, Request.object? args = some m
      ∧ p.entries.Taken (fun q => q.given m) c.function.parameters := by
  obtain ⟨m, m', hobject, hunify, -, hmembers, -⟩ := ofText_eq_ok_iff.mp h
  obtain ⟨-, hentries, -, -⟩ := ofMembers_eq_ok_iff.mp hmembers
  have unified := (Members.unifyFields_eq_ok c.function.isDisjoint_spellings hunify).2
  refine ⟨m, hobject, (Parameter.checkAll_eq_ok_iff (fun q hq => get?_of_unified unified hq) ?_).mp
    hentries⟩
  exact fun q _ j hj => (Parameter.exists_mem_of_given hj).2

end Payload

/-! ## Values of free form -/

/-- A value of free form in a value is one that a text can spell. -/
def Value.IsRegular (v : Value) : Prop := ∀ j, v = .json j → j.IsRegular

/-- A value of free form is kept as it is given. -/
theorem Kind.eq_of_check_json {k : Kind} {j j' : Json} (h : k.check j = .ok (.json j')) :
    j = j' := by
  unfold Kind.check at h
  split at h <;>
    first
    | exact Value.json.inj (Except.ok.inj h)
    | cases h
    | obtain ⟨x, -, heq⟩ := Outcome.map_eq_ok_iff.mp h
      cases heq

/-- **What a payload holds is regular**, since a text spells it. -/
theorem Payload.isRegular_of_mem {c : Callee} {args : Option Text} {p : Payload}
    (h : ofText c args = .ok p) : ∀ a ∈ p.entries, a.2.IsRegular := by
  rintro ⟨f, v⟩ hv j rfl
  obtain ⟨m, hobject, taken⟩ := exists_of_ofText h
  obtain ⟨q, -, -, j', hgiven, check⟩ := taken.exists_of_mem hv
  obtain rfl := Kind.eq_of_check_json check
  obtain ⟨⟨n, hmem⟩, -⟩ := Parameter.exists_mem_of_given hgiven
  have regular := (Request.object?_eq_some_iff.mp hobject).isRegular
  exact Json.membersRegular_iff.mp regular.2 _ hmem

/-- What a payload holds that is made of an object is regular if the object is. -/
theorem Payload.isRegular_of_ofJson {f : AiFunction} {m : Members} {p : Payload}
    (regular : (Json.obj m).IsRegular) (h : ofJson f (.obj m) = .ok p) {g : Field} {v : Value}
    (hv : p.get? g = some v) : v.IsRegular := by
  rintro j rfl
  unfold ofJson at h
  dsimp only at h
  split at h
  · obtain ⟨-, hentries, -, -⟩ := ofMembers_eq_ok_iff.mp h
    obtain ⟨q, -, -, j', hmember, check⟩ :=
      Parameter.exists_of_mem_checkAll hentries (Entries.mem_of_get? hv)
    obtain rfl := Kind.eq_of_check_json check
    exact Json.membersRegular_iff.mp regular.2 _ (Members.mem_of_get? hmember)
  · cases h

theorem Payload.isRegular_of_ofText {c : Callee} {args : Option Text} {p : Payload}
    (h : ofText c args = .ok p) {f : Field} {v : Value} (hv : p.get? f = some v) : v.IsRegular :=
  isRegular_of_mem h _ (Entries.mem_of_get? hv)

end CortexCall
