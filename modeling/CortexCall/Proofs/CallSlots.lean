import CortexCall.Proofs.SingleCall

/-!
# Every argument in its slot

What a callee takes is documented as a **convention**: some callees take
their arguments by key, in a fixed order, and others by position. Here the
convention is written down for each callee apart from the table that the
statement is built from, and read against the text of the statement: cut at
the commas between its arguments, the call shows each argument in the slot
that is documented for it.

By key this is a matter of order. By position more is needed: an argument
that is not given is left out, and whatever stood behind it would then move
forward. That this does not happen rests on the rules between fields – of
two sources exactly one is given – so that what is left out is the end of the
slots and nothing else: `Convention.Fills`.
-/

namespace CortexCall

/-- **A value that is inserted** takes the place of the member of its name, or
goes behind all members if there is none. -/
theorem Members.insert_eq (m : Members) (name : Text) (value : Json) :
    m.insert name value
      = m.takeWhile (·.1 ≠ name) ++ (name, value) :: (m.dropWhile (·.1 ≠ name)).tail := by
  induction m with
  | nil => rfl
  | cons p rest ih =>
    rw [insert]
    by_cases h : p.1 = name
    · simp [h]
    · simp [h, ih]

/-- How a callee takes its arguments, and what goes into its slots. -/
inductive Convention where
  /-- By key: a slot for each field that may be given. -/
  | byKey (slots : List (Text × Field))
  /-- By position: a slot for each argument, some of them at the end perhaps
  empty, but so many filled at least. -/
  | byPosition (fewest : Nat) (slots : List (Option Sql.Argument))

/-- The function with an older form takes no file. -/
theorem AiFunction.ne_complete_of_file (f : AiFunction) :
    ∀ q ∈ f.parameters, q.kind = .file → f ≠ .complete := by
  cases f <;> decide

/-- Every parameter of a function has a slot. -/
theorem AiFunction.exists_passing (f : AiFunction) :
    ∀ q ∈ f.parameters, ∃ s ∈ f.passings, s.field = q.field := by
  cases f <;> decide

namespace Payload

/-- The argument of a field, if it is given. -/
def given? (p : Payload) (f : Field) : Option Sql.Argument := (p.get? f).map Value.toArgument

/-- The members of the options of the older form: the model parameters, and a
response format, if one is given, in the place of the parameter of its name, or
behind all of them if there is none. -/
def givenMembers (p : Payload) : Members :=
  match p.get? .responseFormat with
  | none => p.membersOf .modelParameters
  | some format =>
    (p.membersOf .modelParameters).takeWhile (·.1 ≠ Field.responseFormat.name)
      ++ (Field.responseFormat.name, format.toJson)
        :: ((p.membersOf .modelParameters).dropWhile (·.1 ≠ Field.responseFormat.name)).tail

/-- The options of the older form. There are none if no response format is given
and the model parameters are missing or empty. -/
def givenOptions? (p : Payload) : Option Sql.Argument :=
  if p.has .responseFormat = false ∧ p.membersOf .modelParameters = [] then none
  else some (.value (.obj p.givenMembers))

/-- **The convention of a callee**, with the arguments of a payload. -/
def convention (c : Callee) (p : Payload) : Convention :=
  match c.function with
  | .complete =>
    if c.isLegacy then
      .byPosition 2 [p.given? .model, p.given? .prompt, p.givenOptions?]
    else
      .byKey
        [("model".toText, .model), ("prompt".toText, .prompt),
         ("model_parameters".toText, .modelParameters),
         ("response_format".toText, .responseFormat), ("show_details".toText, .showDetails)]
  | .extract =>
    .byKey [("text".toText, .text), ("file".toText, .file),
      ("responseFormat".toText, .responseFormat)]
  | .sentiment => .byPosition 1 [p.given? .text, p.given? .categories]
  | .classify =>
    .byKey [("input".toText, .input), ("list_of_categories".toText, .categories),
      ("config_object".toText, .configObject)]
  | .countTokens =>
    if p.has .modelName then
      .byPosition 3 [p.given? .functionName, p.given? .modelName, p.given? .inputText]
    else .byPosition 3 [p.given? .functionName, p.given? .inputText, p.given? .categories]
  | .embed =>
    if p.has .input then .byPosition 2 [p.given? .model, p.given? .input]
    else .byPosition 2 [p.given? .model, p.given? .inputFile]
  | .similarity =>
    if p.has .input1File then
      .byPosition 2 [p.given? .input1File, p.given? .input2File, p.given? .configObject]
    else .byPosition 2 [p.given? .input1, p.given? .input2, p.given? .configObject]
  | .parseDocument => .byKey [("file".toText, .file), ("options".toText, .options)]
  | .filter => .byPosition 1 [p.given? .predicate, p.given? .file]

end Payload

/-- **What fills the slots of a convention**: by key, a pair for each field
that is given and no other; by position, one argument after the other, with
no empty slot in front of a filled one. -/
def Convention.Fills (p : Payload) : Convention → List Text → Prop
  | .byKey slots, parts =>
    List.Forall₂
      (fun s t => ∃ a u, p.given? s.2 = some a ∧ a.render = .ok u ∧ t = s.1 ++ " => ".toText ++ u)
      (slots.filter fun s => p.has s.2) parts
  | .byPosition fewest slots, parts =>
    ∃ arguments n, slots = arguments.map some ++ List.replicate n none
      ∧ fewest ≤ arguments.length
      ∧ List.Forall₂ (fun (a : Sql.Argument) t => a.render = .ok t) arguments parts

/-- Slots without keys are rendered as their arguments. -/
theorem Sql.Slot.mapM_render_bare {arguments : List Sql.Argument} {parts : List Text} :
    (arguments.map (⟨none, ·⟩)).mapM Sql.Slot.render = .ok parts
      ↔ List.Forall₂ (fun (a : Sql.Argument) t => a.render = .ok t) arguments parts := by
  have bare : ∀ a : Sql.Argument, Sql.Slot.render ⟨none, a⟩ = a.render := by
    intro a
    show (a.render >>= _) = _
    cases a.render <;> rfl
  rw [Outcome.mapM_eq_ok_iff, List.forall₂_map_left_iff]
  simp only [bare]

namespace Payload

variable {p : Payload} {c : Callee} {parts : List Text}

theorem given?_of_has {f : Field} (h : p.has f = true) : p.given? f = some (p.argument f) := by
  obtain ⟨v, hv⟩ := Option.isSome_iff_exists.mp h
  have hget : p.get? f = some v := hv
  rw [given?, argument, hget]
  rfl

theorem given?_of_not_has {f : Field} (h : p.has f = false) : p.given? f = none := by
  have hget : p.get? f = none := Option.isSome_eq_false_iff.mp h |> Option.isNone_iff_eq_none.mp
  rw [given?, hget]
  rfl

/-- The slots that are filled are those of the fields that are given. -/
theorem Valid.present_call (h : p.Valid) (name : Text) :
    (p.call name).present = (p.function.passings.filter fun s => p.has s.field).map
      fun s => ⟨s.key, p.argument s.field⟩ := by
  unfold call Sql.Call.present
  rw [List.filter_map]
  congr 1
  refine List.filter_congr fun s _ => ?_
  show (!(p.argument s.field).isAbsent) = _
  rw [h.isAbsent_argument, Bool.not_not]

/-- **By key, what is written is what is given.** -/
theorem Valid.fills_byKey (h : p.Valid) {name : Text} {slots : List (Text × Field)}
    (hslots : p.function.passings = slots.map fun s => ⟨some s.1, s.2⟩)
    (hparts : (p.call name).present.mapM Sql.Slot.render = .ok parts) :
    (Convention.byKey slots).Fills p parts := by
  rw [h.present_call, hslots, List.filter_map, List.map_map, Outcome.mapM_eq_ok_iff,
    List.forall₂_map_left_iff] at hparts
  show List.Forall₂ _ (slots.filter fun s => p.has s.2) parts
  have given : ∀ s ∈ slots.filter fun s => p.has s.2, p.has s.2 = true :=
    fun s hs => (List.mem_filter.mp hs).2
  refine ((List.forall₂_and_left _ _).mpr ⟨given, hparts⟩).imp fun s t hst => ?_
  obtain ⟨u, hu, ht⟩ := Outcome.bind_eq_ok_iff.mp hst.2
  exact ⟨_, u, given?_of_has hst.1, hu, (Except.ok.inj ht).symm⟩

/-- **By position, what is written are the filled slots**, if the fields that
are given are those of the first slots and no others. -/
theorem Valid.fills_byPosition (h : p.Valid) {name : Text} {fewest : Nat}
    {fields : List Field} (filled empty : List Field)
    (hpassings : p.function.passings = fields.map .bare)
    (hfilled : (fields.filter fun f => p.has f) = filled)
    (hempty : ∀ f ∈ empty, p.has f = false) (hfewest : fewest ≤ filled.length)
    (hparts : (p.call name).present.mapM Sql.Slot.render = .ok parts) :
    (Convention.byPosition fewest ((filled ++ empty).map p.given?)).Fills p parts := by
  have slots : (p.call name).present = (filled.map p.argument).map (⟨none, ·⟩) := by
    rw [h.present_call, hpassings, List.filter_map, ← hfilled, List.map_map, List.map_map]
    rfl
  rw [slots, Sql.Slot.mapM_render_bare] at hparts
  have given : ∀ f ∈ filled, p.given? f = some (p.argument f) := by
    intro f hf
    rw [← hfilled] at hf
    exact given?_of_has (List.mem_filter.mp hf).2
  refine ⟨filled.map p.argument, empty.length, ?_, ?_, hparts⟩
  · rw [List.map_append, List.map_congr_left given, List.map_map,
      List.map_congr_left fun f hf => given?_of_not_has (hempty f hf), List.map_const']
    rfl
  · rwa [List.length_map]

/-- **A last slot may stay empty** where the slots in front of it are filled. -/
theorem Valid.fills_optionalLast (h : p.Valid) {name : Text} {fewest : Nat} {fields : List Field}
    (filled : List Field) (last : Field) (hpassings : p.function.passings = fields.map .bare)
    (hfields : (fields.filter fun f => p.has f) = (filled ++ [last]).filter fun f => p.has f)
    (hfilled : ∀ f ∈ filled, p.has f = true)
    (hfewest : fewest ≤ filled.length)
    (hparts : (p.call name).present.mapM Sql.Slot.render = .ok parts) :
    (Convention.byPosition fewest ((filled ++ [last]).map p.given?)).Fills p parts := by
  rw [List.filter_append, List.filter_eq_self.mpr hfilled] at hfields
  cases hlast : p.has last with
  | false =>
    rw [List.filter_cons_of_neg (Bool.eq_false_iff.mp hlast), List.filter_nil,
      List.append_nil] at hfields
    exact h.fills_byPosition filled [last] hpassings hfields (List.forall_mem_singleton.mpr hlast)
      hfewest hparts
  | true =>
    rw [List.filter_cons_of_pos hlast, List.filter_nil] at hfields
    have hlength : fewest ≤ (filled ++ [last]).length := by
      rw [List.length_append]
      exact Nat.le_add_right_of_le hfewest
    have fills := h.fills_byPosition (filled ++ [last]) [] hpassings hfields nofun hlength hparts
    rwa [List.append_nil] at fills

theorem callFor_of_ne (h : c.function ≠ .complete) (p : Payload) :
    p.callFor c = p.call c.sqlName := by
  rw [callFor, decide_eq_false h, Bool.and_false]
  exact if_neg Bool.false_ne_true

/-- The options that are built are those that are given. -/
theorem mergedOptions_eq (p : Payload) : p.mergedOptions = p.givenMembers := by
  unfold mergedOptions givenMembers
  cases p.get? .responseFormat with
  | none => rfl
  | some v => exact Members.insert_eq _ _ _

theorem mergedOptions_eq_nil_iff (p : Payload) :
    p.mergedOptions = [] ↔ p.has .responseFormat = false ∧ p.membersOf .modelParameters = [] := by
  have hhas : p.has .responseFormat = (p.get? .responseFormat).isSome := rfl
  rw [hhas, mergedOptions]
  cases p.get? .responseFormat with
  | none => simp
  | some v =>
    refine iff_of_false ?_ (by simp)
    cases p.membersOf .modelParameters with
    | nil => exact List.cons_ne_nil _ _
    | cons m rest =>
      show (if _ then _ else _) ≠ []
      split <;> exact List.cons_ne_nil _ _

/-! ## The callees by position -/

section ByPosition

variable {name : Text} (h : p.Valid)
  (hparts : (p.call name).present.mapM Sql.Slot.render = .ok parts)

include h

theorem Valid.has_of_exists {f : Field}
    (hf : ∃ q ∈ p.function.parameters, q.required = true ∧ q.field = f) : p.has f = true := by
  obtain ⟨q, hq, hr, rfl⟩ := hf
  exact h.has_of_required hq hr

include hparts

theorem Valid.fills_sentiment (hf : p.function = .sentiment) :
    (Convention.byPosition 1 [p.given? .text, p.given? .categories]).Fills p parts := by
  have text := h.has_of_exists (f := .text) (by rw [hf]; decide)
  refine h.fills_optionalLast [.text] .categories ?_ rfl (List.forall_mem_singleton.mpr text)
    (Nat.le_refl 1) hparts
  rw [hf]
  rfl

theorem Valid.fills_filter (hf : p.function = .filter) :
    (Convention.byPosition 1 [p.given? .predicate, p.given? .file]).Fills p parts := by
  have predicate := h.has_of_exists (f := .predicate) (by rw [hf]; decide)
  refine h.fills_optionalLast [.predicate] .file ?_ rfl
    (List.forall_mem_singleton.mpr predicate) (Nat.le_refl 1) hparts
  rw [hf]
  rfl

/-- An input and a file never stand together, so that either is the second
argument. -/
theorem Valid.fills_embed (hf : p.function = .embed) :
    (if p.has .input then Convention.byPosition 2 [p.given? .model, p.given? .input]
      else .byPosition 2 [p.given? .model, p.given? .inputFile]).Fills p parts := by
  have model := h.has_of_exists (f := .model) (by rw [hf]; decide)
  have rule : p.has .input ≠ p.has .inputFile := by
    have holds := h.rule_holds
    rwa [hf] at holds
  have passings : p.function.passings = [.model, .input, .inputFile].map .bare := by
    rw [hf]
    rfl
  cases input : p.has .input with
  | false =>
    have file : p.has .inputFile = true := by simpa [input] using rule
    exact h.fills_byPosition [.model, .inputFile] [] passings (by simp [model, input, file])
      nofun (Nat.le_refl 2) hparts
  | true =>
    have file : p.has .inputFile = false := by simpa [input] using rule
    exact h.fills_byPosition [.model, .input] [] passings (by simp [model, input, file])
      nofun (Nat.le_refl 2) hparts

/-- A model name stands before the input text and categories behind it, and
exactly one of the two is given, so that no slot of the three is empty. -/
theorem Valid.fills_countTokens (hf : p.function = .countTokens) :
    (if p.has .modelName then
        Convention.byPosition 3 [p.given? .functionName, p.given? .modelName, p.given? .inputText]
      else .byPosition 3 [p.given? .functionName, p.given? .inputText, p.given? .categories]).Fills
        p parts := by
  have function := h.has_of_exists (f := .functionName) (by rw [hf]; decide)
  have text := h.has_of_exists (f := .inputText) (by rw [hf]; decide)
  have rule : p.has .modelName ≠ p.has .categories := by
    have holds := h.rule_holds
    rwa [hf] at holds
  have passings : p.function.passings
      = [.functionName, .modelName, .inputText, .categories].map .bare := by
    rw [hf]
    rfl
  cases model : p.has .modelName with
  | false =>
    have categories : p.has .categories = true := by simpa [model] using rule
    exact h.fills_byPosition [.functionName, .inputText, .categories] [] passings
      (by simp [function, model, text, categories]) nofun (Nat.le_refl 3) hparts
  | true =>
    have categories : p.has .categories = false := by simpa [model] using rule
    exact h.fills_byPosition [.functionName, .modelName, .inputText] [] passings
      (by simp [function, model, text, categories]) nofun (Nat.le_refl 3) hparts

/-- A pair is given as a whole, so that the configuration is always third. -/
theorem Valid.fills_similarity (hf : p.function = .similarity) :
    (if p.has .input1File then
        Convention.byPosition 2
          [p.given? .input1File, p.given? .input2File, p.given? .configObject]
      else .byPosition 2 [p.given? .input1, p.given? .input2, p.given? .configObject]).Fills
        p parts := by
  have rule := h.rule_holds
  rw [hf] at rule
  obtain ⟨texts, files, ne⟩ := rule
  dsimp only at texts files ne
  have passings : p.function.passings
      = [.input1, .input2, .input1File, .input2File, .configObject].map .bare := by
    rw [hf]
    rfl
  cases file₁ : p.has .input1File with
  | false =>
    have file₂ : p.has .input2File = false := files ▸ file₁
    have text₁ : p.has .input1 = true := by simpa [file₁] using ne
    have text₂ : p.has .input2 = true := texts ▸ text₁
    exact h.fills_optionalLast [.input1, .input2] .configObject passings
      (by simp [text₁, text₂, file₁, file₂]) (by simp [text₁, text₂]) (Nat.le_refl 2) hparts
  | true =>
    have file₂ : p.has .input2File = true := files ▸ file₁
    have text₁ : p.has .input1 = false := by simpa [file₁] using ne
    have text₂ : p.has .input2 = false := texts ▸ text₁
    exact h.fills_optionalLast [.input1File, .input2File] .configObject passings
      (by simp [text₁, text₂, file₁, file₂]) (by simp [file₁, file₂]) (Nat.le_refl 2) hparts

end ByPosition

/-- **The slots of the older form that are filled**: the model, the prompt, and
the options if there are any. -/
theorem Valid.present_legacyCall (h : p.Valid) (hf : p.function = .complete) (name : Text) :
    (p.legacyCall name).present
      = ([p.argument .model, p.argument .prompt] ++ p.givenOptions?.toList).map (⟨none, ·⟩) := by
  have model := h.has_of_exists (f := .model) (by rw [hf]; decide)
  have prompt := h.has_of_exists (f := .prompt) (by rw [hf]; decide)
  have hmodel : (p.argument .model).isAbsent = false := by rw [h.isAbsent_argument, model]; rfl
  have hprompt : (p.argument .prompt).isAbsent = false := by rw [h.isAbsent_argument, prompt]; rfl
  -- an object without members is not passed at all
  unfold legacyCall legacyOptions givenOptions? Sql.Call.positional Sql.Call.present
  rw [← p.mergedOptions_eq]
  by_cases hempty : p.mergedOptions = []
  · rw [if_pos (by rw [hempty]; rfl), if_pos (p.mergedOptions_eq_nil_iff.mp hempty)]
    have hnull : (Sql.Argument.value .null).isAbsent = true := rfl
    simp [hmodel, hprompt, hnull]
  · rw [if_neg (fun e => hempty (List.isEmpty_iff.mp e)),
      if_neg (fun e => hempty (p.mergedOptions_eq_nil_iff.mpr e))]
    have hobject : (Sql.Argument.value (.obj p.mergedOptions)).isAbsent = false := rfl
    simp [hmodel, hprompt, hobject]

/-- **The older form**: model and prompt are always given, and of the options
either the object is passed or nothing. -/
theorem Valid.fills_legacy (h : p.Valid) (hf : p.function = .complete) {name : Text}
    (hparts : (p.legacyCall name).present.mapM Sql.Slot.render = .ok parts) :
    (Convention.byPosition 2 [p.given? .model, p.given? .prompt, p.givenOptions?]).Fills p
      parts := by
  have model := h.has_of_exists (f := .model) (by rw [hf]; decide)
  have prompt := h.has_of_exists (f := .prompt) (by rw [hf]; decide)
  rw [h.present_legacyCall hf, Sql.Slot.mapM_render_bare] at hparts
  rw [given?_of_has model, given?_of_has prompt]
  cases hoptions : p.givenOptions? with
  | none =>
    rw [hoptions] at hparts
    exact ⟨[p.argument .model, p.argument .prompt], 1, rfl, Nat.le_refl 2, hparts⟩
  | some o =>
    rw [hoptions] at hparts
    exact ⟨[p.argument .model, p.argument .prompt, o], 0, rfl, Nat.le_succ 2, hparts⟩

/-- **The arguments of a valid payload fill the slots of the callee's
convention.** -/
theorem Valid.fills_convention (h : p.Valid) (hf : p.function = c.function)
    (hparts : (p.callFor c).present.mapM Sql.Slot.render = .ok parts) :
    (p.convention c).Fills p parts := by
  unfold convention
  by_cases hcomplete : c.function = .complete
  · rw [hcomplete]
    unfold callFor at hparts
    rw [decide_eq_true hcomplete, Bool.and_true] at hparts
    dsimp only
    by_cases hlegacy : c.isLegacy = true
    · rw [if_pos hlegacy] at hparts ⊢
      exact h.fills_legacy (hf.trans hcomplete) hparts
    · rw [if_neg hlegacy] at hparts ⊢
      exact h.fills_byKey (by rw [hf, hcomplete]; rfl) hparts
  · rw [callFor_of_ne hcomplete] at hparts
    cases hfun : c.function with
    | complete => exact absurd hfun hcomplete
    | extract => exact h.fills_byKey (by rw [hf, hfun]; rfl) hparts
    | sentiment => exact h.fills_sentiment hparts (hf.trans hfun)
    | classify => exact h.fills_byKey (by rw [hf, hfun]; rfl) hparts
    | countTokens => exact h.fills_countTokens hparts (hf.trans hfun)
    | embed => exact h.fills_embed hparts (hf.trans hfun)
    | similarity => exact h.fills_similarity hparts (hf.trans hfun)
    | parseDocument => exact h.fills_byKey (by rw [hf, hfun]; rfl) hparts
    | filter => exact h.fills_filter hparts (hf.trans hfun)

theorem fills_byKey_ne_nil {slots : List (Text × Field)}
    (hfills : (Convention.byKey slots).Fills p parts)
    (hslots : ∃ s ∈ slots, p.has s.2 = true) : parts ≠ [] := by
  rintro rfl
  obtain ⟨s, hs, hhas⟩ := hslots
  have hnil := List.forall₂_nil_right_iff.mp hfills
  exact List.filter_eq_nil_iff.mp hnil s hs hhas

theorem fills_byPosition_ne_nil {fewest : Nat} {slots : List (Option Sql.Argument)}
    (hfills : (Convention.byPosition fewest slots).Fills p parts) (hfewest : 0 < fewest) :
    parts ≠ [] := by
  rintro rfl
  obtain ⟨arguments, n, -, hle, hall⟩ := hfills
  rw [List.forall₂_nil_right_iff.mp hall] at hle
  exact absurd hle (Nat.not_le_of_lt hfewest)

/-- **No call is without arguments.** -/
theorem Valid.ne_nil_of_fills (h : p.Valid) (hf : p.function = c.function)
    (hfills : (p.convention c).Fills p parts) : parts ≠ [] := by
  have given : ∀ f : Field, (∃ q ∈ c.function.parameters, q.required = true ∧ q.field = f) →
      p.has f = true := fun _ hq => h.has_of_exists (hf ▸ hq)
  unfold convention at hfills
  cases hfun : c.function with
  | complete =>
    rw [hfun] at hfills given
    dsimp only at hfills
    split at hfills
    · exact fills_byPosition_ne_nil hfills Nat.two_pos
    · exact fills_byKey_ne_nil hfills ⟨_, List.mem_cons_self, given .model (by decide)⟩
  | extract =>
    rw [hfun] at hfills given
    exact fills_byKey_ne_nil hfills ⟨("responseFormat".toText, .responseFormat), by decide,
      given .responseFormat (by decide)⟩
  | classify =>
    rw [hfun] at hfills given
    exact fills_byKey_ne_nil hfills ⟨_, List.mem_cons_self, given .input (by decide)⟩
  | parseDocument =>
    rw [hfun] at hfills given
    exact fills_byKey_ne_nil hfills ⟨_, List.mem_cons_self, given .file (by decide)⟩
  | sentiment =>
    rw [hfun] at hfills
    exact fills_byPosition_ne_nil hfills Nat.one_pos
  | filter =>
    rw [hfun] at hfills
    exact fills_byPosition_ne_nil hfills Nat.one_pos
  | _ =>
    rw [hfun] at hfills
    dsimp only at hfills
    split at hfills <;> exact fills_byPosition_ne_nil hfills (by decide)

end Payload

/-- **Every argument stands in its slot.** The statement of accepted arguments
is a call whose text between the parentheses, cut at the commas between the
arguments, shows what fills the slots of the callee's convention. -/
theorem statement_fills_convention {function args : Option Text} {c : Callee} {p : Payload}
    {sql : Text} (h : accept function args = .ok (c, p)) (hsql : p.statement c = .ok sql) :
    ∃ inside, sql = Sql.selectResponse (c.sqlName ++ "(".toText ++ inside ++ ")".toText)
      ∧ (p.convention c).Fills p (Sql.splitArguments inside) := by
  obtain ⟨valid, hf⟩ := Payload.valid_of_ofText (accept_eq_ok_iff.mp h).2
  obtain ⟨parts, hparts, items, heq⟩ := valid.exists_of_statement hsql
  have fills := valid.fills_convention hf hparts
  refine ⟨Text.join ", ".toText parts, heq, ?_⟩
  rw [Sql.splitArguments_join items (valid.ne_nil_of_fills hf fills)]
  exact fills

/-- Commas and parentheses in a text and in a file expression. -/
theorem statement_fills_convention_filter :
    ∃ c p sql, accept (some "ai_filter".toText)
        (some ("\x7b\"file\":\"TO_FILE('@s', 'x,y')\",\"predicate\":\"a, (b\"\x7d".toText))
          = .ok (c, p)
      ∧ p.statement c = .ok sql
      ∧ sql = "select AI_FILTER('a, (b', TO_FILE('@s', 'x,y')) as response".toText
      ∧ ∃ inside, sql = Sql.selectResponse (c.sqlName ++ "(".toText ++ inside ++ ")".toText)
        ∧ (p.convention c).Fills p (Sql.splitArguments inside) := by
  have query : (accept (some "ai_filter".toText)
        (some ("\x7b\"file\":\"TO_FILE('@s', 'x,y')\",\"predicate\":\"a, (b\"\x7d".toText))
          ).toOption.bind (fun r => (r.2.statement r.1).toOption)
      = some "select AI_FILTER('a, (b', TO_FILE('@s', 'x,y')) as response".toText := by
    decide +kernel
  obtain ⟨⟨c, p⟩, hr, hsql⟩ := Option.bind_eq_some_iff.mp query
  have accepted := toOption_eq_some_iff.mp hr
  have built := toOption_eq_some_iff.mp hsql
  exact ⟨c, p, _, accepted, built, rfl, statement_fills_convention accepted built⟩

end CortexCall
