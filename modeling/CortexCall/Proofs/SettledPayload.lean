import CortexCall.Proofs.GivenValues
import CortexCall.Proofs.PrintedJson
import CortexCall.Proofs.RenderedArgument
import CortexCall.Proofs.ShownValue
import CortexCall.Proofs.SmallLetters

/-!
# Reading an echo again

An echo is an object with a member for each field that is given, so it can be
read as the arguments of a new request. What comes out is the payload it is
the echo of, **settled**: values of free form are what was shown of them, and
nothing else is different. `Payload.ofText_echo` says so for every payload that
comes out of a text.

The reason is the same for each kind of field: a check is also a cleaning, and
what is clean stays as it is when it is checked again – `Kind.check_shown`. The
echo itself has no alternate spelling in it and no `null`, and what is printed
of it is read as what was printed.
-/

namespace CortexCall

/-! ## Checked values are checked again -/

theorem checkProse_str {t : Text} (h : Text.strip t ≠ []) : checkProse (.str t) = .ok t :=
  if_neg fun hempty => h (List.isEmpty_iff.mp hempty)

theorem checkTerm_str {t : Text} (h : IsTerm t) : checkTerm (.str t) = .ok t := by
  have filled : ¬ (Text.strip t).isEmpty = true := fun hempty =>
    h.2 (h.1.symm.trans (List.isEmpty_iff.mp hempty))
  exact (if_neg filled).trans (congrArg Except.ok h.1)

/-- A name in small letters that a check leaves is a term. -/
theorem checkFunctionName_str {v : Json} {t : Text} (h : checkFunctionName v = .ok t) :
    checkFunctionName (.str t) = .ok t := by
  have stem := prefix_of_checkFunctionName h
  obtain ⟨u, hu, h⟩ := Outcome.bind_eq_ok_iff.mp h
  obtain ⟨-, -, -, stripped, -⟩ := isTerm_of_checkTerm hu
  split at h
  · obtain rfl := Except.ok.inj h
    have filled : Text.lower u ≠ [] := by
      rintro hempty
      rw [hempty] at stem
      exact absurd (List.prefix_nil.mp stem) (by decide)
    unfold checkFunctionName
    rw [checkTerm_str ⟨Text.strip_lower stripped, filled⟩]
    show (if functionStem.isPrefixOf (Text.lower (Text.lower u)) = true then _ else _) = _
    rw [Text.lower_lower, if_pos (List.isPrefixOf_iff_prefix.mpr stem)]
  · cases h

section Lists

variable {α : Type} {key : α → Text} {check : Json → Except Issue α}

/-- Items that pass a check as they are pass it together. -/
theorem checkItems_map {toJson : α → Json} {xs : List α} (h : ∀ x ∈ xs, check (toJson x) = .ok x)
    (index : ℕ) : checkItems check index (xs.map toJson) = .ok xs := by
  induction xs generalizing index with
  | nil => rfl
  | cons x rest ih =>
    obtain ⟨hx, hrest⟩ := List.forall_mem_cons.mp h
    rw [List.map_cons, checkItems, hx, ih hrest (index + 1)]
    rfl

theorem distinctFrom_eq_self {seen : List Text} {xs : List α} (h : (xs.map key).Nodup)
    (fresh : ∀ k ∈ xs.map key, k ∉ seen) : distinctFrom key seen xs = xs := by
  induction xs generalizing seen with
  | nil => rfl
  | cons x rest ih =>
    obtain ⟨hx, hrest⟩ := List.nodup_cons.mp h
    obtain ⟨first, others⟩ := List.forall_mem_cons.mp fresh
    rw [distinctFrom, if_neg (fun e => first (List.contains_iff_mem.mp e)), ih hrest]
    intro k hk hseen
    obtain rfl | hseen := List.mem_cons.mp hseen
    · exact hx hk
    · exact others k hk hseen

/-- **Items with distinct keys are all kept.** -/
theorem distinctBy_eq_self {xs : List α} (h : (xs.map key).Nodup) : distinctBy key xs = xs :=
  distinctFrom_eq_self h fun _ _ => List.not_mem_nil

end Lists

theorem checkLabels_map {bounds : Option LabelBounds} {ls : List Text}
    (h : (Kind.labels bounds).Admits (.labels ls)) :
    checkLabels bounds (.arr (ls.map .str)) = .ok ls := by
  obtain ⟨count, length, nodup, terms⟩ := h
  have items := checkItems_map (fun l hl => checkTerm_str (terms l hl)) 0
  have distinct : distinctBy id ls = ls := distinctBy_eq_self (by rwa [List.map_id])
  unfold checkLabels
  show (checkItems checkTerm 0 (ls.map .str) >>= _) = _
  rw [items]
  show (if LabelBounds.admits bounds (distinctBy id ls).length = true then _ else _) = _
  rw [distinct, if_pos count, length]

theorem Category.IsSound.check_toJson {c : Category} (h : c.IsSound) :
    checkCategory c.toJson = .ok c := by
  match c with
  | .label t =>
    show (checkTerm (.str t)).map _ = _
    rw [checkTerm_str h]
    rfl
  | .entry t description =>
    have entry : ∀ m : Members, hasOnly ["label".toText, "description".toText] m = true →
        m.get? "label".toText = some (.str t) → Describes m description →
        checkCategory (.obj m) = .ok (.entry t description) := by
      intro m only label describes
      have found := entryOf?_eq_some_iff.mpr
        ⟨only, .str t, t, description, label, checkTerm_str h.1, describes, rfl⟩
      unfold checkCategory
      dsimp only
      rw [found]
    cases description with
    | none => exact entry _ rfl rfl (.inl ⟨rfl, rfl⟩)
    | some d => exact entry _ rfl rfl (.inr ⟨.str d, d, rfl, checkProse_str (h.2 d rfl), rfl⟩)

theorem checkCategories_map {cs : List Category} (h : Kind.categories.Admits (.categories cs)) :
    checkCategories (.arr (cs.map Category.toJson)) = .ok cs := by
  obtain ⟨count, nodup, sound⟩ := h
  have items := checkItems_map (fun c hc => (sound c hc).check_toJson) 0
  unfold checkCategories
  show (checkItems checkCategory 0 (cs.map Category.toJson) >>= _) = _
  rw [items]
  show (if Issue.fewestCategories ≤ (distinctBy Category.key cs).length then _ else _) = _
  rw [distinctBy_eq_self nodup, if_pos count]

theorem FileRef.IsSound.check_toJson {f : FileRef} (h : f.IsSound) :
    checkFile f.toJson = .ok f := by
  cases f with
  | expression t =>
    show (checkTerm (.str t) >>= _) = _
    rw [checkTerm_str h.1]
    exact if_pos h.2
  | location stage path =>
    have found : locationOf? [("stage".toText, .str stage), ("path".toText, .str path)]
        = some (.location stage path) :=
      locationOf?_eq_some_iff.mpr ⟨rfl, .str stage, stage, .str path, path, rfl,
        checkTerm_str h.1, rfl, checkTerm_str h.2, rfl⟩
    unfold checkFile toJson
    dsimp only
    rw [found]

/-! ## Settled values -/

namespace Value

/-- A value as it is once its echo is read again. -/
def settled : Value → Value
  | .json v => .json v.settled
  | v => v

/-- **What is shown of a value** is the settled value. -/
theorem shown_eq (v : Value) : v.shown = v.settled.toJson := by cases v <;> rfl

theorem IsRegular.settled {v : Value} (h : v.IsRegular) : v.settled.IsRegular := by
  rintro j hj
  cases v with
  | json i =>
    obtain rfl := Value.json.inj hj
    exact Json.isRegular_settled (h i rfl)
  | _ => cases hj

theorem settled_settled {v : Value} (h : v.IsRegular) : v.settled.settled = v.settled := by
  cases v with
  | json j => exact congrArg Value.json (Json.settled_settled (h j rfl))
  | _ => rfl

/-- Only a value of free form has numbers in it. -/
theorem allFinite_toJson {v : Value} (h : ∀ j, v = .json j → j.allFinite = true) :
    v.toJson.allFinite = true := by
  cases v with
  | json j => exact h j rfl
  | labels ls =>
    exact Json.itemsFinite_iff.mpr (List.forall_mem_map.mpr fun _ _ => rfl)
  | categories cs =>
    refine Json.itemsFinite_iff.mpr (List.forall_mem_map.mpr fun c _ => ?_)
    match c with
    | .label _ => rfl
    | .entry _ none => rfl
    | .entry _ (some _) => rfl
  | file f => cases f <;> rfl
  | _ => rfl

theorem allFinite_settled (v : Value) : v.settled.toJson.allFinite = true := by
  refine allFinite_toJson fun j hj => ?_
  cases v with
  | json i =>
    obtain rfl := Value.json.inj hj
    exact i.allFinite_settled
  | _ => cases hj

end Value

/-- **What is shown of a checked value is checked again**, and it settles. -/
theorem Kind.check_shown {k : Kind} {j : Json} {v : Value} (h : k.check j = .ok v) :
    k.check v.shown = .ok v.settled := by
  have admits := admits_of_check h
  cases k <;> cases v <;> try exact admits.elim
  case prose.text t => exact congrArg (Except.map Value.text) (checkProse_str admits)
  case term.text t => exact congrArg (Except.map Value.text) (checkTerm_str admits)
  case functionName.text t =>
    obtain ⟨u, hu, heq⟩ := Outcome.map_eq_ok_iff.mp h
    obtain rfl := Value.text.inj heq
    exact congrArg (Except.map Value.text) (checkFunctionName_str hu)
  case flag.flag b => rfl
  case object.json j =>
    obtain ⟨m, rfl⟩ | ⟨items, rfl⟩ := admits.of_json
    · rfl
    · exact admits.elim
  case objectOrList.json j =>
    obtain ⟨m, rfl⟩ | ⟨items, rfl⟩ := admits.of_json <;> rfl
  case proseOrObject.text t => exact congrArg (Except.map Value.text) (checkProse_str admits)
  case proseOrObject.json j =>
    obtain ⟨m, rfl⟩ | ⟨items, rfl⟩ := admits.of_json
    · rfl
    · exact admits.elim
  case labels.labels bounds ls =>
    exact congrArg (Except.map Value.labels) (checkLabels_map admits)
  case categories.categories cs =>
    exact congrArg (Except.map Value.categories) (checkCategories_map admits)
  case file.file f => exact congrArg (Except.map Value.file) (FileRef.IsSound.check_toJson admits)

/-- What is shown of a checked value is not `null`. -/
theorem Kind.Admits.isNull_shown {k : Kind} {v : Value} (h : k.Admits v) :
    v.shown.isNull = false := by
  cases v with
  | json j => obtain ⟨m, rfl⟩ | ⟨items, rfl⟩ := h.of_json <;> rfl
  | file f => cases f <;> rfl
  | _ => rfl

/-! ## Settled entries -/

namespace Entries

variable {given given' : Parameter → Option Json} {ps : List Parameter} {e : Entries}

/-- Entries with their values changed, each as its field says. -/
theorem get?_map (change : Field → Value → Value) (e : Entries) (f : Field) :
    get? f (e.map fun a => (a.1, change a.1 a.2)) = (get? f e).map (change f) := by
  induction e with
  | nil => rfl
  | cons a rest ih =>
    obtain ⟨g, v⟩ := a
    rw [List.map_cons, get?, get?, ih]
    split
    · next hg => exact congrArg (fun f => some (change f v)) hg
    · rfl

theorem has_map (change : Field → Value → Value) (e : Entries) (f : Field) :
    has (e.map fun a => (a.1, change a.1 a.2)) f = e.has f := by
  unfold has
  rw [get?_map, Option.isSome_map]

/-- **Settled entries are taken from what is shown** of entries that are taken
themselves. -/
theorem Taken.settled (h : e.Taken given ps) (hps : (ps.map Parameter.field).Nodup)
    (hgiven : ∀ q ∈ ps, given' q = (get? q.field e).map Value.shown) :
    Taken given' ps (e.map fun a => (a.1, a.2.settled)) := by
  induction h with
  | nil => exact .nil
  | @some q j v ps e _ check rest ih =>
    obtain ⟨fresh, nodup⟩ := List.nodup_cons.mp hps
    obtain ⟨hq, hrest⟩ := List.forall_mem_cons.mp hgiven
    refine .some (hq.trans ?_) (Kind.check_shown check) (ih nodup fun p hp => ?_)
    · rw [get?, if_pos rfl]
      rfl
    · have ne : q.field ≠ p.field := fun heq => fresh (heq ▸ List.mem_map_of_mem hp)
      rw [hrest p hp, get?, if_neg ne]
  | @none q ps e _ optional rest ih =>
    obtain ⟨fresh, nodup⟩ := List.nodup_cons.mp hps
    obtain ⟨hq, hrest⟩ := List.forall_mem_cons.mp hgiven
    refine .none (hq.trans ?_) optional (ih nodup hrest)
    have absent : ¬ e.has q.field = true := by
      rw [has_iff_mem, rest.fields]
      exact fun hmem => fresh ((List.filter_sublist.map _).subset hmem)
    rw [Option.not_isSome_iff_eq_none.mp absent]
    rfl

end Entries

namespace Payload

variable {c : Callee} {args : Option Text} {p : Payload}

/-- A payload with its values settled. -/
def settled (p : Payload) : Payload := ⟨p.function, p.entries.map fun e => (e.1, e.2.settled)⟩

theorem get?_settled (p : Payload) (f : Field) :
    p.settled.get? f = (p.get? f).map Value.settled :=
  Entries.get?_map (fun _ => Value.settled) _ _

theorem has_settled (p : Payload) (f : Field) : p.settled.has f = p.has f :=
  Entries.has_map (fun _ => Value.settled) _ _

/-! ## The members of the echo -/

theorem names_echoMembers (p : Payload) :
    p.echoMembers.names = (p.entries.map Prod.fst).map Field.name := by
  unfold echoMembers Members.names
  rw [List.map_map, List.map_map]
  rfl

theorem get?_echoMembers (p : Payload) (f : Field) :
    p.echoMembers.get? f.name = (p.get? f).map Value.shown := by
  unfold echoMembers get?
  induction p.entries with
  | nil => rfl
  | cons a rest ih =>
    obtain ⟨g, v⟩ := a
    rw [List.map_cons, Members.get?_cons, Entries.get?, ih]
    by_cases hg : g = f
    · rw [if_pos hg, if_pos (congrArg Field.name hg)]
      rfl
    · rw [if_neg hg, if_neg fun h => hg (Field.name_injective h)]

/-- **The echo of a payload is a regular object** if the payload holds regular
values. -/
theorem isRegular_echo (hfields : (p.entries.map Prod.fst).Nodup)
    (regular : ∀ a ∈ p.entries, a.2.IsRegular) : (Json.obj p.echoMembers).IsRegular := by
  refine ⟨?_, Json.membersRegular_iff.mpr ?_⟩
  · rw [names_echoMembers]
    exact hfields.map fun _ _ h => Field.name_injective h
  · refine List.forall_mem_map.mpr fun a ha => ?_
    show a.2.shown.IsRegular
    rw [Value.shown_eq]
    exact (regular a ha).settled.toJson

theorem allFinite_echo (p : Payload) : (Json.obj p.echoMembers).allFinite = true := by
  refine Json.membersFinite_iff.mpr (List.forall_mem_map.mpr fun a _ => ?_)
  show a.2.shown.allFinite = true
  rw [Value.shown_eq]
  exact a.2.allFinite_settled

end Payload

/-! ## Reading the echo -/

/-- A printed object has no blanks around it. -/
theorem Json.strip_print_obj (l : Layout) (m : Members) :
    Text.strip ((Json.obj m).print l) = (Json.obj m).print l := by
  refine Text.strip_eq_self_iff.mpr ?_
  have braces : ∃ t, (Json.obj m).print l = .char '\x7b' :: (t ++ [.char '\x7d']) := by
    show ∃ t, l.enclose '\x7b' '\x7d' 0 (printMembers l 1 m) = _
    cases printMembers l 1 m with
    | nil => exact ⟨[], rfl⟩
    | cons t rest => exact ⟨_, rfl⟩
  obtain ⟨t, ht⟩ := braces
  rw [ht, List.head?_cons, ← List.cons_append, List.getLast?_concat]
  constructor
  · rintro c ⟨⟩
    decide
  · rintro c ⟨⟩
    decide

/-- **An object that is printed is found again**, in whatever layout. -/
theorem Request.object?_printed {l : Json.Layout} (hl : l.IsSound) {m : Members}
    (regular : (Json.obj m).IsRegular) (finite : (Json.obj m).allFinite = true) :
    object? (some ((Json.obj m).print l)) = some m := by
  unfold object?
  rw [Option.getD_some, Json.strip_print_obj, Json.read_print hl .strict regular finite]

theorem Request.object?_print {m : Members} (regular : (Json.obj m).IsRegular)
    (finite : (Json.obj m).allFinite = true) :
    object? (some ((Json.obj m).print .spaced)) = some m :=
  object?_printed Json.Layout.isSound_spaced regular finite

/-- An object that a text spells is known by what is printed of it. -/
theorem Request.object?_of_print {args : Option Text} {m : Members}
    (regular : (Json.obj m).IsRegular) (finite : (Json.obj m).allFinite = true)
    (h : (object? args).map (fun u => ((Json.obj u).allFinite, (Json.obj u).print .spaced))
      = some (true, (Json.obj m).print .spaced)) : object? args = some m := by
  obtain ⟨u, hu, h⟩ := Option.map_eq_some_iff.mp h
  obtain ⟨finite', same⟩ := Prod.mk.inj h
  have printed := object?_print (object?_eq_some_iff.mp hu).isRegular finite'
  rw [same, object?_print regular finite] at printed
  rw [hu, printed]

namespace Members

/-- Members without `null` are all present. -/
theorem present_eq_self {m : Members} (h : ∀ a ∈ m, a.2.isNull = false) : m.present = m :=
  List.filter_eq_self.mpr fun a ha => by rw [h a ha]; rfl

/-- **Members without alternate spellings are unified as they are.** -/
theorem unifyFields_eq_self {function : Text} {table : SpellingTable} {m : Members}
    (h : ∀ row ∈ table, ∀ n ∈ row.2, m.get? n = none) :
    m.unifyFields function table = .ok m := by
  induction table with
  | nil => rfl
  | cons row rest ih =>
    obtain ⟨hrow, hrest⟩ := List.forall_mem_cons.mp h
    have unused : (row.2.filter fun n => (m.get? n).isSome) = [] :=
      List.filter_eq_nil_iff.mpr fun n hn => by rw [hrow n hn]; exact Bool.false_ne_true
    have used : m.spellingsOf row.1 row.2 = [] ∨ m.spellingsOf row.1 row.2 = [row.1] := by
      unfold spellingsOf
      rw [List.filter_cons, unused]
      split
      · exact .inr rfl
      · exact .inl rfl
    have field : m.unifyField function row.1 row.2 = .ok m := by
      unfold unifyField
      obtain hnone | hone := used
      · rw [hnone]
      · rw [hone]
        exact congrArg Except.ok (if_pos rfl)
    unfold unifyFields
    rw [field]
    exact ih hrest

end Members

/-- No alternate spelling of a function is the name of one of its fields. -/
theorem AiFunction.alternates_ne (f : AiFunction) : ∀ row ∈ f.spellings, ∀ n ∈ row.2,
    ∀ q ∈ f.parameters, q.field.name ≠ n := by
  cases f <;> decide

namespace Payload

variable {c : Callee} {args : Option Text} {p : Payload}

/-- The members of an echo have the names of parameters. -/
theorem names_echoMembers_subset {given : Parameter → Option Json}
    (taken : p.entries.Taken given c.function.parameters) :
    p.echoMembers.names ⊆ Parameter.names c.function.parameters := by
  rw [names_echoMembers, taken.fields, List.map_map]
  exact (List.filter_sublist.map _).subset

/-- **An echo is in its final spelling**: it has no `null` and no alternate
spelling. -/
theorem unify_echoMembers {given : Parameter → Option Json}
    (taken : p.entries.Taken given c.function.parameters) :
    p.echoMembers.unify c.sqlName c.function.spellings = .ok p.echoMembers := by
  have notNull : ∀ a ∈ p.echoMembers, a.2.isNull = false := by
    refine List.forall_mem_map.mpr fun a ha => ?_
    obtain ⟨q, -, -, j, -, check⟩ := taken.exists_of_mem ha
    exact (Kind.admits_of_check check).isNull_shown
  have noAlternate : ∀ row ∈ c.function.spellings, ∀ n ∈ row.2, p.echoMembers.get? n = none := by
    intro row hrow n hn
    refine Members.get?_eq_none_iff.mpr fun hmem => ?_
    obtain ⟨q, hq, hname⟩ := List.mem_map.mp (names_echoMembers_subset taken hmem)
    exact c.function.alternates_ne row hrow n hn q hq hname
  unfold Members.unify
  rw [Members.present_eq_self notNull, Members.unifyFields_eq_self noAlternate]

/-- **The echo of a payload is read as the settled payload.** -/
theorem ofText_echo (h : ofText c args = .ok p) :
    ofText c (some ((Json.obj p.echoMembers).print .spaced)) = .ok p.settled := by
  obtain ⟨m, -, taken⟩ := exists_of_ofText h
  obtain ⟨valid, hf⟩ := valid_of_ofText h
  have distinct := c.function.parameters_nodup
  have subset := names_echoMembers_subset taken
  have unified := unify_echoMembers taken
  have readable : hasReadableNames p.echoMembers = true := by
    refine List.all_eq_true.mpr fun n hn => ?_
    obtain ⟨q, -, rfl⟩ := List.mem_map.mp (subset hn)
    exact q.field.isWhole_name
  have expected : Parameter.firstUnexpected c.function.parameters p.echoMembers = none := by
    refine List.find?_eq_none.mpr fun n hn => ?_
    rw [List.contains_iff_mem.mpr (subset hn)]
    exact Bool.false_ne_true
  have checked : Parameter.checkAll p.echoMembers c.function.parameters
      = .ok p.settled.entries := by
    refine (Parameter.checkAll_eq_ok_iff (fun q _ => get?_echoMembers p q.field)
      fun q _ j hj => ?_).mpr (taken.settled distinct fun _ _ => rfl)
    obtain ⟨v, hv, rfl⟩ := Option.map_eq_some_iff.mp hj
    obtain ⟨k, hk⟩ := valid.exists_admits hv
    exact hk.isNull_shown
  have rule : c.function.rule.check p.settled.entries = .ok () := by
    have holds := valid.rule_holds
    rw [hf] at holds
    refine Rule.check_eq_ok_iff.mpr ?_
    have same : p.settled.entries.has = p.has := funext p.has_settled
    rwa [same]
  have details : (c.isLegacy && p.settled.has .showDetails) = false := by
    rw [has_settled]
    obtain ⟨-, -, -, -, -, -, details⟩ := ofText_eq_ok_iff.mp h
    exact details
  exact ofText_eq_ok_iff.mpr ⟨p.echoMembers, p.echoMembers,
    Request.object?_print (isRegular_echo (taken.nodup distinct) (isRegular_of_mem h))
      p.allFinite_echo,
    unified, readable, ofMembers_eq_ok_iff.mpr ⟨hf, checked, expected, rule⟩, details⟩

end Payload

end CortexCall
