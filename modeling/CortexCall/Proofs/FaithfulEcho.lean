import CortexCall.Proofs.DispatchOutcome
import CortexCall.Proofs.SettledPayload

/-!
# The echo is faithful

An echo says what was given, cleaned and nothing else. What a value of each kind
is when it is **cleaned** is written down here on the JSON value alone, apart
from the checks that do it: terms lose the blanks around them, the name of a
function is put in small letters, a list of labels keeps the first of those that
are alike, and a description that is `null` is dropped. Texts of other kinds
and values of free form are not changed.

`dispatch_echo_faithful` compares the members of an echo with the members of the
arguments. There is one for each parameter that was given, under whatever
spelling, in the order of the parameters; and everything in the arguments that
is not `null` was given for some parameter. The value is the given one, cleaned,
if no number in it is infinite and the names in it, where it is an object, are
whole.
-/

namespace CortexCall

/-! ## Cleaned values -/

namespace Json

/-- A text without the blanks around it. -/
def stripped : Json → Json
  | .str t => .str (Text.strip t)
  | v => v

/-- A text without the blanks around it, in small letters. -/
def strippedSmall : Json → Json
  | .str t => .str (Text.lower (Text.strip t))
  | v => v

/-- The member of a name with its value changed, if it has one that is not
`null`. -/
def memberWith (change : Json → Json) (name : Text) (m : Members) : Members :=
  match m.get? name with
  | none => []
  | some .null => []
  | some v => [(name, change v)]

/-- A category with its label stripped, and its description if there is one. -/
def cleanedCategory : Json → Json
  | .obj m =>
    .obj (memberWith stripped "label".toText m ++ memberWith id "description".toText m)
  | v => v.stripped

/-- A file with its expression, or its stage and its path, stripped. -/
def cleanedFile : Json → Json
  | .obj m => .obj (memberWith stripped "stage".toText m ++ memberWith stripped "path".toText m)
  | v => v.stripped

/-- The items without those whose label an earlier item has. -/
def firstOfEach : List Json → List Json
  | [] => []
  | v :: rest => v :: (firstOfEach rest).filter fun w => w.label != v.label

end Json

/-- **A given value as it is echoed.** -/
def Kind.cleaned : Kind → Json → Json
  | .term, v => v.stripped
  | .functionName, v => v.strippedSmall
  | .labels _, v => .arr ((Json.firstOfEach v.items).map Json.stripped)
  | .categories, v => .arr ((Json.firstOfEach v.items).map Json.cleanedCategory)
  | .file, v => v.cleanedFile
  | .prose, v => v
  | .flag, v => v
  | .object, v => v
  | .objectOrList, v => v
  | .proseOrObject, v => v

/-! ## Checking is cleaning -/

section Lists

variable {α : Type} {key : α → Text} {check : Json → Except Issue α}

theorem forall₂_of_checkItems {index : ℕ} {items : List Json} {xs : List α}
    (h : checkItems check index items = .ok xs) :
    List.Forall₂ (fun v x => check v = .ok x) items xs := by
  induction items generalizing index xs with
  | nil =>
    obtain rfl := Except.ok.inj h
    exact .nil
  | cons v rest ih =>
    obtain ⟨x, hx, h⟩ := Outcome.bind_eq_ok_iff.mp h
    obtain ⟨ys, hys, h⟩ := Outcome.bind_eq_ok_iff.mp h
    obtain rfl := Except.ok.inj h
    exact .cons (Outcome.mapError_eq_ok_iff.mp hx) (ih hys)

/-- **Of checked items those are kept whose label no earlier item has.** -/
theorem forall₂_distinctFrom {related : Json → α → Prop} {items : List Json} {xs : List α}
    (hkey : ∀ v x, related v x → key x = v.label) (h : List.Forall₂ related items xs)
    (seen : List Text) : List.Forall₂ related
      ((Json.firstOfEach items).filter fun v => !seen.contains v.label)
      (distinctFrom key seen xs) := by
  induction h generalizing seen with
  | nil => exact .nil
  | @cons v x items xs hvx _ ih =>
    rw [distinctFrom, Json.firstOfEach, List.filter_cons, List.filter_filter, hkey v x hvx]
    by_cases hseen : seen.contains v.label = true
    · rw [if_pos hseen, if_neg (by rw [hseen]; exact Bool.false_ne_true)]
      convert ih seen using 1
      refine List.filter_congr fun w _ => ?_
      by_cases hw : w.label = v.label
      · rw [hw, hseen]
        rfl
      · rw [bne_iff_ne.mpr hw, Bool.and_true]
    · rw [if_neg hseen, if_pos (by rw [eq_false_of_ne_true hseen]; rfl)]
      refine .cons hvx ?_
      convert ih (v.label :: seen) using 1
      refine List.filter_congr fun w _ => ?_
      rw [List.contains_cons, Bool.not_or, Bool.and_comm]
      rfl

theorem forall₂_distinctBy {related : Json → α → Prop} {items : List Json} {xs : List α}
    (hkey : ∀ v x, related v x → key x = v.label) (h : List.Forall₂ related items xs) :
    List.Forall₂ related (Json.firstOfEach items) (distinctBy key xs) := by
  have kept := forall₂_distinctFrom hkey h []
  have all : (Json.firstOfEach items).filter (fun v => !([] : List Text).contains v.label)
      = Json.firstOfEach items := List.filter_eq_self.mpr fun _ _ => rfl
  rwa [all] at kept

end Lists

theorem stripped_of_checkTerm {v : Json} {t : Text} (h : checkTerm v = .ok t) :
    .str t = v.stripped := by
  obtain ⟨u, rfl, rfl, -⟩ := isTerm_of_checkTerm h
  rfl

theorem strippedSmall_of_checkFunctionName {v : Json} {t : Text}
    (h : checkFunctionName v = .ok t) : .str t = v.strippedSmall := by
  obtain ⟨u, hu, h⟩ := Outcome.bind_eq_ok_iff.mp h
  obtain ⟨w, rfl, rfl, -⟩ := isTerm_of_checkTerm hu
  split at h
  · obtain rfl := Except.ok.inj h
    rfl
  · cases h

/-- The member of a term is the term. -/
theorem memberWith_term {m : Members} {name : Text} {v : Json} {t : Text}
    (hv : m.get? name = some v) (ht : checkTerm v = .ok t) :
    Json.memberWith Json.stripped name m = [(name, .str t)] := by
  obtain ⟨u, rfl, rfl, -⟩ := isTerm_of_checkTerm ht
  unfold Json.memberWith
  rw [hv]
  rfl

theorem cleanedCategory_of_check {v : Json} {c : Category} (h : checkCategory v = .ok c) :
    c.toJson = v.cleanedCategory := by
  unfold checkCategory at h
  split at h
  · next m =>
    split at h
    · next hentry =>
      obtain rfl := Except.ok.inj h
      obtain ⟨-, w, label, description, hw, hlabel, hd, rfl⟩ := entryOf?_eq_some_iff.mp hentry
      unfold Json.cleanedCategory
      dsimp only
      rw [memberWith_term hw hlabel]
      obtain ⟨hnull, rfl⟩ | ⟨d, t, hd, ht, rfl⟩ := hd
      · unfold Json.memberWith
        cases hget : Members.get? "description".toText m with
        | none => rfl
        | some d =>
          rw [hget] at hnull
          obtain rfl : d = .null := hnull
          rfl
      · obtain ⟨rfl, -⟩ := strip_of_checkProse ht
        unfold Json.memberWith
        rw [hd]
        rfl
    · cases h
  · next hobj =>
    obtain ⟨t, ht, rfl⟩ := Outcome.map_eq_ok_iff.mp h
    obtain ⟨u, rfl, rfl, -⟩ := isTerm_of_checkTerm ht
    rfl

theorem cleanedFile_of_check {v : Json} {f : FileRef} (h : checkFile v = .ok f) :
    f.toJson = v.cleanedFile := by
  unfold checkFile at h
  split at h
  · next m =>
    split at h
    · next hlocation =>
      obtain rfl := Except.ok.inj h
      obtain ⟨-, w, stage, w', path, hw, hstage, hw', hpath, rfl⟩ :=
        locationOf?_eq_some_iff.mp hlocation
      unfold Json.cleanedFile
      dsimp only
      rw [memberWith_term hw hstage, memberWith_term hw' hpath]
      rfl
    · cases h
  · obtain ⟨t, ht, h⟩ := Outcome.bind_eq_ok_iff.mp h
    obtain ⟨u, rfl, rfl, -⟩ := isTerm_of_checkTerm ht
    split at h
    · obtain rfl := Except.ok.inj h
      rfl
    · cases h

/-- What is read off distinct checked items can be read off the first items of each
label, if it can for each of them. -/
theorem map_distinctBy {α β : Type} {key : α → Text} {check : Json → Except Issue α}
    {g : α → β} {f : Json → β} {items : List Json} {xs : List α}
    (hkey : ∀ {v x}, check v = .ok x → key x = v.label)
    (hread : ∀ {v x}, check v = .ok x → g x = f v)
    (h : checkItems check 0 items = .ok xs) :
    (distinctBy key xs).map g = (Json.firstOfEach items).map f := by
  have kept := forall₂_distinctBy (fun _ _ hx => hkey hx) (forall₂_of_checkItems h)
  have same : List.Forall₂ (· = ·) ((distinctBy key xs).map g)
      ((Json.firstOfEach items).map f) := by
    rw [List.forall₂_map_left_iff, List.forall₂_map_right_iff]
    exact (kept.imp fun _ _ hx => hread hx).flip
  rwa [List.forall₂_eq_eq_eq] at same

theorem cleaned_of_checkLabels {bounds : Option LabelBounds} {j : Json} {ls : List Text}
    (h : checkLabels bounds j = .ok ls) :
    .arr (ls.map Json.str) = (Kind.labels bounds).cleaned j := by
  obtain ⟨items, hitems, hrest⟩ := Outcome.bind_eq_ok_iff.mp h
  obtain ⟨terms, hterms, hls⟩ := Outcome.bind_eq_ok_iff.mp hrest
  have kept : (distinctBy id terms).map Json.str = _ :=
    map_distinctBy (fun hx => label_of_checkTerm hx) (fun hx => stripped_of_checkTerm hx) hterms
  rw [eq_arr_of_checkList hitems]
  dsimp only at hls
  split at hls
  · split at hls
    · cases hls
    · obtain rfl := Except.ok.inj hls
      exact congrArg Json.arr kept
  · cases hls

theorem cleaned_of_checkCategories {j : Json} {cs : List Category}
    (h : checkCategories j = .ok cs) :
    .arr (cs.map Category.toJson) = Kind.categories.cleaned j := by
  obtain ⟨items, hitems, hrest⟩ := Outcome.bind_eq_ok_iff.mp h
  obtain ⟨all, hall, hcs⟩ := Outcome.bind_eq_ok_iff.mp hrest
  have kept := map_distinctBy (fun hx => label_of_checkCategory hx)
    (fun hx => cleanedCategory_of_check hx) hall
  rw [eq_arr_of_checkList hitems]
  dsimp only at hcs
  split at hcs
  · obtain rfl := Except.ok.inj hcs
    exact congrArg Json.arr kept
  · cases hcs

/-- **A checked value is the given one, cleaned.** -/
theorem Kind.cleaned_of_check {k : Kind} {j : Json} {v : Value} (h : k.check j = .ok v) :
    k.cleaned j = v.toJson := by
  have admits := admits_of_check h
  cases k <;> cases v <;> try exact admits.elim
  case prose.text t =>
    obtain ⟨u, hu, heq⟩ := Outcome.map_eq_ok_iff.mp h
    obtain rfl := Value.text.inj heq
    exact (strip_of_checkProse hu).1
  case term.text t =>
    obtain ⟨u, hu, heq⟩ := Outcome.map_eq_ok_iff.mp h
    obtain rfl := Value.text.inj heq
    exact (stripped_of_checkTerm hu).symm
  case functionName.text t =>
    obtain ⟨u, hu, heq⟩ := Outcome.map_eq_ok_iff.mp h
    obtain rfl := Value.text.inj heq
    exact (strippedSmall_of_checkFunctionName hu).symm
  case flag.flag b =>
    cases j with
    | bool b' => exact congrArg Json.bool (Value.flag.inj (Except.ok.inj h))
    | _ => cases h
  case object.json i => exact eq_of_check_json h
  case objectOrList.json i => exact eq_of_check_json h
  case proseOrObject.json i => exact eq_of_check_json h
  case proseOrObject.text t =>
    cases j with
    | str s =>
      have checked : (checkProse (.str s)).map Value.text = .ok (.text t) := h
      obtain ⟨u, hu, heq⟩ := Outcome.map_eq_ok_iff.mp checked
      obtain rfl := Value.text.inj heq
      exact (strip_of_checkProse hu).1
    | _ => cases h
  case labels.labels bounds ls =>
    obtain ⟨ls', hchecked, heq⟩ := Outcome.map_eq_ok_iff.mp h
    obtain rfl := Value.labels.inj heq
    exact (cleaned_of_checkLabels hchecked).symm
  case categories.categories cs =>
    obtain ⟨cs', hchecked, heq⟩ := Outcome.map_eq_ok_iff.mp h
    obtain rfl := Value.categories.inj heq
    exact (cleaned_of_checkCategories hchecked).symm
  case file.file f =>
    obtain ⟨g, hg, heq⟩ := Outcome.map_eq_ok_iff.mp h
    obtain rfl := Value.file.inj heq
    exact (cleanedFile_of_check hg).symm

/-! ## What is given -/

namespace Parameter

variable {f : AiFunction} {m m' : Members} {q : Parameter} {n : Text} {v : Json}

theorem length_spellingsOf_le (function : Text)
    (hm : m.unify function f.spellings = .ok m') (hq : q ∈ f.parameters) :
    (m.present.spellingsOf q.field.name q.alternates).length ≤ 1 := by
  by_cases hnone : q.alternates = []
  · rw [hnone]
    exact List.length_filter_le _ _
  · exact (Members.unifyFields_eq_ok f.isDisjoint_spellings hm).1 _
      (AiFunction.mem_spellings_iff.mpr ⟨q, hq, hnone, rfl⟩)

/-- **A member that is not `null` is what is given** for the parameter whose
spelling its name is, if it is the only spelling that is used. -/
theorem given_of_mem (distinct : m.names.Nodup)
    (single : (m.present.spellingsOf q.field.name q.alternates).length ≤ 1) (ha : (n, v) ∈ m)
    (hv : v.isNull = false) (hn : n ∈ q.field.name :: q.alternates) : q.given m = some v := by
  have present : (n, v) ∈ m.present := List.mem_filter.mpr ⟨ha, by rw [hv]; rfl⟩
  have found : m.present.get? n = some v :=
    Members.get?_of_mem (Members.nodup_names_present distinct) present
  have only := Members.spellingsOf_eq_of_single single hn found
  have head := Members.anyOf_eq_head m.present (q.field.name :: q.alternates)
  unfold Members.spellingsOf at only
  rw [only] at head
  exact head.trans found

end Parameter

/-! ## What is shown -/

/-- **What is shown of a value** is what is shown of it as JSON. -/
theorem Value.settled_toJson (v : Value) : v.toJson.settled = v.shown := by
  have plain : (∀ j, v ≠ .json j) → (∀ n ∈ v.toJson.ownNames, n.isWhole = true) →
      v.toJson.settled = v.toJson := by
    intro free whole
    have regular : v.IsRegular := fun j hj => absurd hj (free j)
    rw [Json.settled_eq_nullInfinite regular.toJson whole,
      Json.nullInfinite_eq_self (allFinite_toJson fun j hj => absurd hj (free j))]
  cases v with
  | json j => rfl
  | text t => exact plain nofun nofun
  | flag b => exact plain nofun nofun
  | labels ls => exact plain nofun nofun
  | categories cs => exact plain nofun nofun
  | file f =>
    cases f with
    | expression t => exact plain nofun nofun
    | location stage path =>
      have names : ∀ n ∈ ["stage".toText, "path".toText], n.isWhole = true := by decide
      exact plain nofun names

/-- The members of an echo, one for each parameter that is given. -/
theorem Entries.Taken.forall₂_shown {given : Parameter → Option Json} {ps : List Parameter}
    {e : Entries} (h : e.Taken given ps) :
    List.Forall₂ (fun q a => a.1 = q.field.name
        ∧ ∃ j v, given q = .some j ∧ q.kind.check j = .ok v ∧ a.2 = v.shown)
      (ps.filter fun q => (given q).isSome) (e.map fun a => (a.1.name, a.2.shown)) := by
  induction h with
  | nil => exact .nil
  | @some q j v ps e isGiven check _ ih =>
    rw [List.filter_cons_of_pos (by rw [isGiven]; rfl), List.map_cons]
    exact .cons ⟨rfl, j, v, isGiven, check, rfl⟩ ih
  | none notGiven _ _ ih =>
    rwa [List.filter_cons_of_neg (by rw [notGiven]; exact Bool.false_ne_true)]

/-- **An echo that is faithful** to the members that were given to a function. -/
structure IsFaithfulEcho (f : AiFunction) (given echoed : Members) : Prop where
  /-- Everything that is not `null` is given for some parameter, under one of its
  spellings. -/
  noLoss : ∀ a ∈ given, a.2.isNull = false →
    ∃ q ∈ f.parameters, a.1 ∈ q.field.name :: q.alternates ∧ q.given given = some a.2
  /-- The parameters that are given have one member each, in their order, and it
  shows the given value, cleaned. If no number in that is infinite, it is that
  value itself exactly when the names in it are whole. -/
  noInvention : List.Forall₂ (fun q a => a.1 = q.field.name
      ∧ ∃ j, q.given given = some j ∧ a.2 = (q.kind.cleaned j).settled
        ∧ (j.allFinite = true → (a.2 = q.kind.cleaned j
          ↔ ∀ n ∈ (q.kind.cleaned j).ownNames, n.isWhole = true)))
    (f.parameters.filter fun q => (q.given given).isSome) echoed

/-- A checked value is shown as the given one, cleaned, if the names in that are
whole and the numbers finite. -/
theorem Kind.shown_eq_cleaned_iff {k : Kind} {j : Json} {v : Value} (h : k.check j = .ok v)
    (regular : j.IsRegular) (finite : j.allFinite = true) :
    v.shown = k.cleaned j ↔ ∀ n ∈ (k.cleaned j).ownNames, n.isWhole = true := by
  have kept : ∀ {P : Json → Prop}, P j → ∀ i, v = .json i → P i := by
    rintro P hj i rfl
    exact eq_of_check_json h ▸ hj
  rw [cleaned_of_check h, ← v.settled_toJson]
  constructor
  · intro same
    rw [← same]
    exact Json.isWhole_of_mem_settled
  · intro whole
    have regularValue : v.IsRegular := kept (P := Json.IsRegular) regular
    rw [Json.settled_eq_nullInfinite regularValue.toJson whole, Json.nullInfinite_eq_self]
    exact Value.allFinite_toJson (kept (P := fun i => i.allFinite = true) finite)

/-- **The echo of a dispatched request is faithful** to the object that the
arguments denote. -/
theorem dispatch_echo_faithful {function args : Option Text} {level : LogLevel} {r : Dispatched}
    (h : dispatch function args level = .ok r) :
    ∃ given echoed, Json.Denotes .strict (Text.strip (args.getD [])) (.obj given)
      ∧ r.request = .obj echoed ∧ IsFaithfulEcho r.callee.function given echoed := by
  obtain ⟨p, accepted⟩ := exists_accept_of_dispatch h
  obtain ⟨-, sql, -, hr⟩ := (dispatch_eq_ok_iff accepted).mp h
  obtain ⟨-, hp⟩ := accept_eq_ok_iff.mp accepted
  obtain ⟨m, m', hobject, hunify, -, hmembers, -⟩ := Payload.ofText_eq_ok_iff.mp hp
  obtain ⟨-, -, hexpected, -⟩ := Payload.ofMembers_eq_ok_iff.mp hmembers
  have unified := (Members.unifyFields_eq_ok r.callee.function.isDisjoint_spellings hunify).2
  obtain ⟨m₀, hobject₀, taken⟩ := Payload.exists_of_ofText hp
  obtain rfl := Option.some.inj (hobject₀.symm.trans hobject)
  have denotes := Request.object?_eq_some_iff.mp hobject
  have regular := denotes.isRegular
  refine ⟨m₀, p.echoMembers, denotes, by rw [hr], ?_, ?_⟩
  · rintro ⟨n, v⟩ ha hv
    have known : n ∈ r.callee.function.memberNames := by
      rw [firstUnexpected_of_unified unified, List.find?_eq_none] at hexpected
      have present : n ∈ m₀.present.names :=
        List.mem_map_of_mem (f := Prod.fst) (List.mem_filter.mpr ⟨ha, by rw [hv]; rfl⟩)
      simpa using hexpected n present
    obtain ⟨q, hq, hn⟩ := AiFunction.mem_memberNames_iff.mp known
    exact ⟨q, hq, hn, Parameter.given_of_mem regular.1
      (Parameter.length_spellingsOf_le r.callee.sqlName hunify hq) ha hv hn⟩
  · refine taken.forall₂_shown.imp fun q a hqa => ?_
    obtain ⟨hname, j, v, hgiven, check, hshown⟩ := hqa
    obtain ⟨⟨n, hmem⟩, -⟩ := Parameter.exists_mem_of_given hgiven
    have regularValue := Json.membersRegular_iff.mp regular.2 _ hmem
    refine ⟨hname, j, hgiven, ?_, fun finite => ?_⟩
    · rw [hshown, Kind.cleaned_of_check check, Value.settled_toJson]
    · rw [hshown]
      exact Kind.shown_eq_cleaned_iff check regularValue finite

/-- Arguments of a classification with an object that is kept as it is, and a list
that is cleaned. -/
def describedArguments : Text :=
  "\x7b\"list_of_categories\": [\x7b\"description\": null, \"label\": \" a\"\x7d, ".toText
    ++ "\"b\", \"a \"], \"config\": null, ".toText
    ++ "\"input\": \x7b\"t\": [null, false, \x7b\x7d], \"\": \" \"\x7d\x7d".toText

/-- What the function is asked about stands first, and is what was given. -/
theorem dispatch_echo_faithful_classify :
    ∃ r, dispatch (some "ai_classify".toText) (some describedArguments) .minimal = .ok r
      ∧ r.request.print .spaced
        = ("\x7b\"input\": \x7b\"t\": [null, false, \x7b\x7d], \"\": \" \"\x7d, ".toText
          ++ "\"categories\": [\x7b\"label\": \"a\"\x7d, \"b\"]\x7d".toText)
      ∧ ∃ given echoed,
        Json.Denotes .strict (Text.strip ((some describedArguments).getD [])) (.obj given)
        ∧ r.request = .obj echoed ∧ IsFaithfulEcho r.callee.function given echoed := by
  have printed : (dispatch (some "ai_classify".toText) (some describedArguments) .minimal
        ).toOption.map (fun r => r.request.print .spaced)
      = some ("\x7b\"input\": \x7b\"t\": [null, false, \x7b\x7d], \"\": \" \"\x7d, ".toText
          ++ "\"categories\": [\x7b\"label\": \"a\"\x7d, \"b\"]\x7d".toText) := by
    decide +kernel
  obtain ⟨r, hr, hrequest⟩ := Option.map_eq_some_iff.mp printed
  have returned := toOption_eq_some_iff.mp hr
  exact ⟨r, returned, hrequest, dispatch_echo_faithful returned⟩

/-- Arguments of an extraction with a name that is half of a surrogate pair. -/
def halvedName : Text :=
  "\x7b\"response_format\": \x7b\"\\ud800\": 1\x7d, \"text\": \"x\"\x7d".toText

/-- The names of the object that a value has under a name. -/
def Json.namesUnder (name : Text) : Json → Option (List Text)
  | .obj m => (Members.get? name m).map ownNames
  | _ => none

/-- **A name that is not whole is lost**: the object is echoed under another name
than it was given. -/
theorem not_faithful_halvedName :
    ∃ (r : Dispatched) (given : Members) (v : Json),
      dispatch (some "AI_EXTRACT".toText) (some halvedName) .minimal = .ok r
      ∧ Json.Denotes .strict (Text.strip halvedName) (.obj given)
      ∧ given.get? "response_format".toText = some v ∧ v.allFinite = true
      ∧ ∀ echoed : Members, r.request = .obj echoed →
        echoed.get? "response_format".toText ≠ some v := by
  have echo : (dispatch (some "AI_EXTRACT".toText) (some halvedName) .minimal).toOption.bind
      (fun r => r.request.namesUnder "response_format".toText)
      = some ["\uFFFD\uFFFD\uFFFD".toText] := by
    decide +kernel
  have source : (Request.object? (some halvedName)).bind
      (fun given => (given.get? "response_format".toText).map fun v => (v.ownNames, v.allFinite))
      = some ([[.half 0]], true) := by
    decide +kernel
  obtain ⟨r, hr, hechoed⟩ := Option.bind_eq_some_iff.mp echo
  obtain ⟨given, hgiven, h⟩ := Option.bind_eq_some_iff.mp source
  obtain ⟨v, hv, h⟩ := Option.map_eq_some_iff.mp h
  obtain ⟨names, finite⟩ := Prod.mk.inj h
  refine ⟨r, given, v, toOption_eq_some_iff.mp hr, Request.object?_eq_some_iff.mp hgiven, hv,
    finite, fun echoed hrequest same => ?_⟩
  rw [hrequest] at hechoed
  unfold Json.namesUnder at hechoed
  dsimp only at hechoed
  rw [same, Option.map_some, names] at hechoed
  exact absurd hechoed (by decide)

end CortexCall
