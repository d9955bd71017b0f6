import CortexCall.Proofs.CheckedPayload
import CortexCall.Proofs.UnifiedMembers
import CortexCall.Proofs.ValueChecks

/-!
# What the members of a request have to meet

Once the arguments are known to be an object, its members have to meet the
checks that are listed here for a function: no field is given under two
spellings; each parameter in order is given if it must be, with a value that
meets the checks of its kind; no member is left that is no parameter; the
rule of the function holds. All of them are conditions on the members as they
were given, so what is done to the members in between – `null` is dropped,
alternate spellings are moved to the name of their field – is not part of
them.

Each step of the pass over the members is decided by its part of the list,
and `decides_ofMembers` puts the parts together.
-/

namespace CortexCall

/-- How the place of a check in the value of a field is called. -/
def Field.spot (f : Field) : Option Nat → Option Text
  | none => some f.name
  | some n => some (f.name ++ "[".toText ++ Text.ofNat n ++ "]".toText)

/-- The value that is given for a parameter, under whatever spelling. -/
def Parameter.given (q : Parameter) (m : Members) : Option Json :=
  m.present.anyOf (q.field.name :: q.alternates)

/-- **The checks of a parameter**: it is given if it must be, and what is
given meets the checks of its kind. -/
def Parameter.checks (q : Parameter) (m : Members) : List (Check (Option Text)) :=
  ⟨q.required = true → (q.given m).isSome = true, .missingField, some q.field.name⟩ ::
    match q.given m with
    | some v => (q.kind.checks v).map (Check.relocate q.field.spot)
    | none => []

namespace AiFunction

/-- The names under which the fields of a function may be given. -/
def memberNames (f : AiFunction) : List Text :=
  f.parameters.flatMap fun q => q.field.name :: q.alternates

/-- Whether a field of a function is given, under whatever spelling. -/
def isGiven (f : AiFunction) (m : Members) (field : Field) : Bool :=
  f.parameters.any fun q => q.field == field && (q.given m).isSome

/-- No field is given under two spellings. -/
def spellingChecks (f : AiFunction) (m : Members) : List (Check (Option Text)) :=
  f.spellings.map fun row =>
    ⟨(m.present.spellingsOf row.1 row.2).length ≤ 1, .aliasConflict, some row.1⟩

/-- Every member is a field of the function. -/
def nameChecks (f : AiFunction) (m : Members) : List (Check (Option Text)) :=
  m.present.names.map fun name => ⟨name ∈ f.memberNames, .unexpectedField, some name⟩

/-- What the members have to meet once each field is under one name: the
checks of the parameters, the names, and the rule. -/
def memberChecks (f : AiFunction) (m : Members) : List (Check (Option Text)) :=
  (f.parameters.flatMap fun q => q.checks m) ++ f.nameChecks m
    ++ [⟨f.rule.Holds (f.isGiven m), .mutuallyExclusiveViolation, none⟩]

/-- **The checks of the members for a function**, in their order. -/
def checks (f : AiFunction) (m : Members) : List (Check (Option Text)) :=
  f.spellingChecks m ++ f.memberChecks m

end AiFunction

/-- An issue of a kind at a field. -/
def Issue.IsAbout (i : Issue) (kind : ErrorKind) (field : Option Text) : Prop :=
  i.kind = kind ∧ i.field = field

/-- A rejection of a kind at a field. -/
def RequestError.IsAbout (e : RequestError) (kind : ErrorKind) (field : Option Text) : Prop :=
  e.kind = kind ∧ e.field = field

/-! ## The tables of the functions -/

namespace AiFunction

/-- No name means two fields of a function. -/
theorem isDisjoint_spellings (f : AiFunction) : SpellingTable.IsDisjoint f.spellings := by
  unfold SpellingTable.IsDisjoint
  cases f <;> decide

/-- A field without alternates is not in the table of spellings at all. -/
theorem not_mem_spellings (f : AiFunction) : ∀ q ∈ f.parameters, q.alternates = [] →
    ∀ row ∈ f.spellings, q.field.name ∉ row.1 :: row.2 := by
  cases f <;> decide

theorem mem_spellings_iff {f : AiFunction} {row : Text × List Text} :
    row ∈ f.spellings
      ↔ ∃ q ∈ f.parameters, q.alternates ≠ [] ∧ (q.field.name, q.alternates) = row := by
  unfold spellings
  rw [List.mem_map]
  refine exists_congr fun q => ?_
  rw [List.mem_filter, and_assoc]
  simp

theorem mem_memberNames_iff {f : AiFunction} {name : Text} :
    name ∈ f.memberNames ↔ ∃ q ∈ f.parameters, name ∈ q.field.name :: q.alternates :=
  List.mem_flatMap

end AiFunction

/-! ## What is given is what is found -/

theorem Json.everyChar_of_mem_members {p : CodePoint → Bool} {m : Members}
    (h : (Json.obj m).everyChar p = true) {n : Text} {v : Json} (hv : (n, v) ∈ m) :
    n.all p = true ∧ v.everyChar p = true := by
  rw [everyChar] at h
  induction m with
  | nil => exact absurd hv List.not_mem_nil
  | cons q rest ih =>
    rw [membersEveryChar, Bool.and_eq_true, Bool.and_eq_true] at h
    obtain rfl | hv := List.mem_cons.mp hv
    · exact h.1
    · exact ih h.2 hv

namespace Members

variable {m m' : Members} {name : Text} {v : Json}

theorem anyOf_singleton (m : Members) (name : Text) : m.anyOf [name] = m.get? name := by
  unfold anyOf
  rw [List.findSome?_cons]
  cases m.get? name with
  | none => rfl
  | some v => rfl

theorem exists_mem_of_anyOf {names : List Text} (h : m.anyOf names = some v) :
    ∃ n ∈ names, (n, v) ∈ m := by
  obtain ⟨n, hn, hv⟩ := List.exists_of_findSome?_eq_some h
  exact ⟨n, hn, mem_of_get? hv⟩

end Members

section Given

variable {f : AiFunction} {m m' : Members} {q : Parameter} {v : Json}

theorem Parameter.exists_mem_of_given (h : q.given m = some v) :
    (∃ n, (n, v) ∈ m) ∧ v.isNull = false := by
  obtain ⟨n, -, hmem⟩ := Members.exists_mem_of_anyOf h
  exact ⟨⟨n, (List.mem_filter.mp hmem).1⟩, Members.isNull_of_mem_present hmem⟩

/-- What is given is neither `null` nor has it halves of surrogate pairs. -/
theorem isPlain_of_given (hwhole : (Json.obj m).IsWhole) (v : Json) (h : q.given m = some v) :
    v.isNull = false ∧ v.IsWhole := by
  obtain ⟨⟨n, hmem⟩, hnull⟩ := Parameter.exists_mem_of_given h
  exact ⟨hnull, (Json.everyChar_of_mem_members hwhole hmem).2⟩

/-- **A field is found under its own name** once the spellings are unified,
with the value that was given. -/
theorem get?_of_unified (hm : Members.Unified f.spellings m.present m') (hq : q ∈ f.parameters) :
    m'.get? q.field.name = q.given m := by
  by_cases hnone : q.alternates = []
  · rw [hm.other _ (f.not_mem_spellings q hq hnone), Parameter.given, hnone]
    exact (Members.anyOf_singleton _ _).symm
  · exact hm.field _ (AiFunction.mem_spellings_iff.mpr ⟨q, hq, hnone, rfl⟩)

/-- No alternate spelling is left. -/
theorem not_mem_names_of_unified (hm : Members.Unified f.spellings m.present m')
    (hq : q ∈ f.parameters) {n : Text} (hn : n ∈ q.alternates) : n ∉ m'.names := by
  have row := AiFunction.mem_spellings_iff.mpr ⟨q, hq, List.ne_nil_of_mem hn, rfl⟩
  exact Members.get?_eq_none_iff.mp (hm.alternate _ row n hn)

/-- **The members that are no fields** stand in the order in which they were
given. -/
theorem filter_names_of_unified (hm : Members.Unified f.spellings m.present m') :
    (m'.names.filter fun n => !(Parameter.names f.parameters).contains n)
      = m.present.names.filter fun n => !f.memberNames.contains n := by
  rw [← hm.order]
  -- no alternate spelling is left, so that it does not matter who asks for them
  · refine List.filter_congr fun n hn => congrArg _ (Bool.eq_iff_iff.mpr ?_)
    rw [List.contains_iff_mem, List.contains_iff_mem, AiFunction.mem_memberNames_iff]
    constructor
    · intro h
      obtain ⟨q, hq, rfl⟩ := List.mem_map.mp h
      exact ⟨q, hq, List.mem_cons_self⟩
    · rintro ⟨q, hq, h⟩
      obtain rfl | h := List.mem_cons.mp h
      · exact List.mem_map_of_mem hq
      · exact absurd hn (not_mem_names_of_unified hm hq h)
  · intro row hrow n hn
    obtain ⟨q, hq, -, rfl⟩ := AiFunction.mem_spellings_iff.mp hrow
    have hmem : n ∈ f.memberNames := AiFunction.mem_memberNames_iff.mpr ⟨q, hq, hn⟩
    rw [List.contains_iff_mem.mpr hmem]
    rfl

end Given

/-! ## The steps -/

theorem Field.isWhole_name (f : Field) : f.name.isWhole = true := by cases f <;> decide

/-- **Unifying the spellings** is decided by the table, row by row. -/
theorem decides_unify (function : Text) (f : AiFunction) (m : Members) :
    Check.Decides RequestError.IsAbout (f.spellingChecks m) (m.unify function f.spellings) := by
  unfold Members.unify
  cases h : m.present.unifyFields function f.spellings with
  | ok m' =>
    intro k hk
    obtain ⟨row, hrow, rfl⟩ := List.mem_map.mp hk
    exact (Members.unifyFields_eq_ok f.isDisjoint_spellings h).1 row hrow
  | error e =>
    obtain ⟨before, row, after, htable, hbefore, hrow, rfl⟩ :=
      Members.unifyFields_eq_error f.isDisjoint_spellings h
    unfold AiFunction.spellingChecks
    rw [htable, List.map_append, List.map_cons]
    refine (Check.IsFirstFailing.append_left ?_ (.head (Nat.not_le_of_lt hrow))).decides ⟨rfl, rfl⟩
    intro k hk
    obtain ⟨r, hr, rfl⟩ := List.mem_map.mp hk
    exact hbefore r hr

theorem Field.name_ne_nil (f : Field) : f.name ≠ [] := by cases f <;> decide

/-- An issue with a member is about its name, if there is something in it. -/
theorem Issue.field_of_path {i : Issue} {name : Text} (h : i.path = [.name name]) :
    i.field = if name = [] then none else some name := by
  unfold field
  rw [h]
  show (if (name ++ []).isEmpty then none else some (name ++ [])) = _
  rw [List.append_nil]
  simp only [List.isEmpty_iff]

/-- An issue with the value of a field is about the field, or an item of it. -/
theorem Issue.isAbout_under {i : Issue} {kind : ErrorKind} {spot : Option Nat}
    (h : i.IsAt kind spot) (f : Field) : (i.under (.name f.name)).IsAbout kind (f.spot spot) := by
  obtain ⟨hkind, hpath⟩ := h
  refine ⟨hkind, ?_⟩
  cases spot with
  | none => exact (field_of_path (congrArg _ hpath)).trans (if_neg f.name_ne_nil)
  | some n =>
    unfold field under
    rw [hpath]
    have hne : ¬ (f.name ++ ("[".toText ++ Text.ofNat n ++ "]".toText)).isEmpty = true := by
      rw [List.isEmpty_iff, List.append_eq_nil_iff]
      exact fun h => f.name_ne_nil h.1
    show (if (f.name ++ ("[".toText ++ Text.ofNat n ++ "]".toText)).isEmpty then none
      else some (f.name ++ ("[".toText ++ Text.ofNat n ++ "]".toText))) = _
    rw [if_neg hne, ← List.append_assoc, ← List.append_assoc]
    rfl

section Fields

variable {f : AiFunction} {m m' : Members} {q : Parameter} {v : Json}

/-- **A parameter is decided by its checks**, where its value is what was given
and neither `null` nor with halves of surrogate pairs. -/
theorem decides_check (hq : m'.get? q.field.name = q.given m)
    (hgiven : ∀ v, q.given m = some v → v.isNull = false ∧ v.IsWhole) :
    Check.Decides Issue.IsAbout (q.checks m) (q.check m') := by
  unfold Parameter.check Parameter.checks
  rw [hq]
  cases h : q.given m with
  | none =>
    dsimp only
    cases hr : q.required with
    | false => exact Check.decides_ok nofun
    | true =>
      refine Check.decides_error (fun given => ?_) ⟨rfl, ?_⟩
      · exact absurd (given rfl) (by decide)
      · exact (Issue.field_of_path rfl).trans (if_neg q.field.name_ne_nil)
  | some v =>
    obtain ⟨hnull, hwhole⟩ := hgiven v h
    have kind := (q.kind.decides_check hwhole).map (f := some)
    dsimp only
    rw [hnull, Bool.and_false]
    have required : ∀ k ∈ [(⟨q.required = true → (some v).isSome = true, .missingField,
        some q.field.name⟩ : Check (Option Text))], k.Holds :=
      List.forall_mem_singleton.mpr fun _ => rfl
    exact .after_holding required
      (kind.mapError fun i kind spot hi => Issue.isAbout_under hi q.field)

/-- A parameter has a value exactly if one was given. -/
theorem isSome_of_check (hq : m'.get? q.field.name = q.given m)
    (hgiven : ∀ v, q.given m = some v → v.isNull = false ∧ v.IsWhole) {value : Option Value}
    (h : q.check m' = .ok value) : value.isSome = (q.given m).isSome := by
  unfold Parameter.check at h
  rw [hq] at h
  cases hv : q.given m with
  | none =>
    rw [hv] at h
    dsimp only at h
    split at h
    · cases h
    · rw [← Except.ok.inj h]
      rfl
  | some v =>
    rw [hv] at h
    dsimp only at h
    rw [(hgiven v hv).1, Bool.and_false] at h
    obtain ⟨w, -, rfl⟩ := Outcome.map_eq_ok_iff.mp (Outcome.mapError_eq_ok_iff.mp h)
    rfl

/-- **Parameters are decided one after the other.** -/
theorem decides_checkAll {ps : List Parameter}
    (hps : ∀ q ∈ ps, m'.get? q.field.name = q.given m)
    (hgiven : ∀ q ∈ ps, ∀ v, q.given m = some v → v.isNull = false ∧ v.IsWhole) :
    Check.Decides Issue.IsAbout (ps.flatMap fun q => q.checks m) (Parameter.checkAll m' ps) := by
  induction ps with
  | nil => exact Check.decides_pure []
  | cons q rest ih =>
    obtain ⟨hq, hrest⟩ := List.forall_mem_cons.mp hps
    obtain ⟨hqgiven, hrestgiven⟩ := List.forall_mem_cons.mp hgiven
    rw [List.flatMap_cons]
    refine (decides_check hq hqgiven).bind fun value _ => ?_
    cases value with
    | none => exact (ih hrest hrestgiven).bind_pure
    | some v => exact (ih hrest hrestgiven).bind_pure

/-- **The entries are of the fields that were given.** -/
theorem has_of_checkAll {ps : List Parameter}
    (hps : ∀ q ∈ ps, m'.get? q.field.name = q.given m)
    (hgiven : ∀ q ∈ ps, ∀ v, q.given m = some v → v.isNull = false ∧ v.IsWhole) {e : Entries}
    (h : Parameter.checkAll m' ps = .ok e) (field : Field) :
    e.has field = ps.any fun q => q.field == field && (q.given m).isSome := by
  induction ps generalizing e with
  | nil =>
    obtain rfl := Except.ok.inj h
    rfl
  | cons q rest ih =>
    obtain ⟨hq, hrest⟩ := List.forall_mem_cons.mp hps
    obtain ⟨hqgiven, hrestgiven⟩ := List.forall_mem_cons.mp hgiven
    obtain ⟨value, hvalue, h⟩ := Outcome.bind_eq_ok_iff.mp h
    obtain ⟨entries, hentries, h⟩ := Outcome.bind_eq_ok_iff.mp h
    rw [List.any_cons, ← ih hrest hrestgiven hentries, ← isSome_of_check hq hqgiven hvalue]
    cases value with
    | none =>
      obtain rfl := Except.ok.inj h
      rw [Option.isSome_none, Bool.and_false, Bool.false_or]
    | some v =>
      obtain rfl := Except.ok.inj h
      rw [Option.isSome_some, Bool.and_true]
      unfold Entries.has
      rw [Entries.get?]
      by_cases hf : q.field = field
      · rw [if_pos hf, beq_iff_eq.mpr hf]
        rfl
      · rw [if_neg hf, beq_eq_false_iff_ne.mpr hf, Bool.false_or]

end Fields

section Rest

variable {f : AiFunction} {m m' : Members}

/-- A rule that is not met is about no field. -/
theorem Rule.isAbout_of_check {r : Rule} {e : Entries} {i : Issue} (h : r.check e = .error i) :
    i.IsAbout .mutuallyExclusiveViolation none := by
  unfold check at h
  split at h
  · cases h
  · split at h
    · obtain rfl := Except.error.inj h
      exact ⟨rfl, rfl⟩
    · cases h
  · next left right =>
    dsimp only at h
    split at h
    · obtain rfl := Except.error.inj h
      exact ⟨rfl, rfl⟩
    · -- which pair is incomplete does not matter
      generalize (if (e.has left.1 || e.has left.2) = true then left else right) = pair at h
      split at h
      · cases h
      · obtain rfl := Except.error.inj h
        exact ⟨rfl, rfl⟩

theorem decides_rule (r : Rule) (e : Entries) :
    Check.Decides Issue.IsAbout [⟨r.Holds e.has, .mutuallyExclusiveViolation, none⟩]
      (r.check e) := by
  cases h : r.check e with
  | ok u => exact Check.decides_ok (Rule.check_eq_ok_iff.mp h)
  | error i =>
    refine Check.decides_error (fun holds => ?_) (Rule.isAbout_of_check h)
    rw [Rule.check_eq_ok_iff.mpr holds] at h
    cases h

theorem firstUnexpected_of_unified (hm : Members.Unified f.spellings m.present m') :
    Parameter.firstUnexpected f.parameters m'
      = m.present.names.find? fun n => !f.memberNames.contains n := by
  unfold Parameter.firstUnexpected
  rw [← List.head?_filter, ← List.head?_filter, filter_names_of_unified hm]

/-- **The pass over the members is decided by their checks**, once no field is
given under two spellings. Names are not empty and there are no halves of
surrogate pairs. -/
theorem decides_ofMembers (hm : Members.Unified f.spellings m.present m')
    (hnames : [] ∉ m.names) (hwhole : (Json.obj m).IsWhole) :
    Check.Decides Issue.IsAbout (f.memberChecks m) (Payload.ofMembers f m') := by
  have hps := fun q (hq : q ∈ f.parameters) => get?_of_unified hm hq
  have hgiven := fun q (_ : q ∈ f.parameters) => isPlain_of_given (q := q) hwhole
  unfold Payload.ofMembers AiFunction.memberChecks
  rw [List.append_assoc]
  refine (decides_checkAll hps hgiven).bind fun e he => ?_
  have has : e.has = f.isGiven m := funext (has_of_checkAll hps hgiven he)
  -- the names are asked for as they were given, not as they stand now
  rw [firstUnexpected_of_unified hm]
  unfold AiFunction.nameChecks
  cases h : m.present.names.find? fun n => !f.memberNames.contains n with
  | some name =>
    obtain ⟨hname, before, after, heq, hbefore⟩ := List.find?_eq_some_iff_append.mp h
    have hmem : name ∈ m.present.names := heq ▸ List.mem_append_right _ List.mem_cons_self
    have hne : name ≠ [] := by
      rintro rfl
      obtain ⟨p, hp, hpname⟩ := List.mem_map.mp hmem
      exact hnames (List.mem_map.mpr ⟨p, (List.mem_filter.mp hp).1, hpname⟩)
    rw [heq, List.map_append, List.map_cons]
    refine (Check.IsFirstFailing.append_right (.append_left ?_ (.head ?_)) _).decides ⟨rfl, ?_⟩
    · intro k hk
      obtain ⟨n, hn, rfl⟩ := List.mem_map.mp hk
      simpa using hbefore n hn
    · intro hmem
      rw [List.contains_iff_mem.mpr hmem] at hname
      cases hname
    · exact (Issue.field_of_path rfl).trans (if_neg hne)
  | none =>
    refine Check.Decides.after_holding ?_ ?_
    · intro k hk
      obtain ⟨n, hn, rfl⟩ := List.mem_map.mp hk
      simpa using List.find?_eq_none.mp h n hn
    · rw [← has]
      exact (decides_rule f.rule e).bind_pure

/-- The payload has the fields that were given. -/
theorem has_of_ofMembers (hm : Members.Unified f.spellings m.present m')
    (hwhole : (Json.obj m).IsWhole) {p : Payload} (h : Payload.ofMembers f m' = .ok p)
    (field : Field) : p.has field = f.isGiven m field := by
  obtain ⟨e, he, h⟩ := Outcome.bind_eq_ok_iff.mp h
  split at h
  · cases h
  · obtain ⟨⟨⟩, -, h⟩ := Outcome.bind_eq_ok_iff.mp h
    obtain rfl := Except.ok.inj h
    exact has_of_checkAll (fun q hq => get?_of_unified hm hq)
      (fun q _ => isPlain_of_given hwhole) he field

/-- **No name with a half of a surrogate pair comes up** where none was given. -/
theorem hasReadableNames_of_unified (hm : Members.Unified f.spellings m.present m')
    (hwhole : (Json.obj m).IsWhole) : Payload.hasReadableNames m' = true := by
  refine List.all_eq_true.mpr fun n hn => ?_
  by_cases hname : n ∈ f.memberNames
  · obtain ⟨q, hq, h⟩ := AiFunction.mem_memberNames_iff.mp hname
    obtain rfl | h := List.mem_cons.mp h
    · exact q.field.isWhole_name
    · exact absurd hn (not_mem_names_of_unified hm hq h)
  · have hother : m'.get? n = m.present.get? n := by
      refine hm.other n fun row hrow h => hname ?_
      obtain ⟨q, hq, -, rfl⟩ := AiFunction.mem_spellings_iff.mp hrow
      exact AiFunction.mem_memberNames_iff.mpr ⟨q, hq, h⟩
    rw [← Members.get?_isSome_iff, hother, Members.get?_isSome_iff] at hn
    obtain ⟨⟨_, v⟩, hp, rfl⟩ := List.mem_map.mp hn
    exact (Json.everyChar_of_mem_members hwhole (List.mem_filter.mp hp).1).1

/-- Whether details are asked for is decided by whether they are given. -/
theorem decides_checkDetails (c : Callee) (p : Payload) :
    Check.Decides RequestError.IsAbout
      [⟨c.isLegacy = true → p.has .showDetails = false, .unsupportedArgument,
        some Field.showDetails.name⟩]
      (p.checkDetails c) := by
  unfold Payload.checkDetails
  by_cases h : (c.isLegacy && p.has .showDetails) = true
  · rw [if_pos h]
    rw [Bool.and_eq_true] at h
    refine Check.decides_error (fun absent => ?_) ⟨rfl, rfl⟩
    exact Bool.eq_false_iff.mp (absent h.1) h.2
  · rw [if_neg h]
    refine Check.decides_ok fun legacy => ?_
    rw [legacy, Bool.true_and] at h
    exact Bool.eq_false_iff.mpr h

end Rest

end CortexCall
