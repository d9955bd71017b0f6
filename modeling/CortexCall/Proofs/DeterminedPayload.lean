import CortexCall.Proofs.CallSlots
import CortexCall.Proofs.GivenValues
import CortexCall.Proofs.RenderedArgument

/-!
# The statement determines the payload

Two payloads for one callee that have the same statement are the same, field
by field: `statement_determines_payload`. What is identified is only what
`FileRef.Agrees` identifies, and in the older form what is merged into its
options.

The arguments are read off the statement as in `CortexCall.Proofs.CallSlots`,
and each shows its value. It remains to see that two equal lists of arguments
are arguments of the same fields. By key this is what the keys are for. By
position the rules between fields leave two possibilities at most, and they
differ in how many arguments there are or in whether some argument is a
literal.
-/

namespace CortexCall

/-- **Entries that SQL cannot tell apart**: of the same fields in the same
order, with values that it cannot tell apart. -/
def Entries.Agree (e e' : Entries) : Prop :=
  List.Forall₂ (fun a b => a.1 = b.1 ∧ a.2.Agrees b.2) e e'

namespace Entries

variable {e e' : Entries} {ps : List Parameter} {f : Field}

/-- Entries that agree have values that agree. -/
theorem Agree.exists_get? (h : e.Agree e') {v : Value} (hv : get? f e = some v) :
    ∃ v', get? f e' = some v' ∧ v.Agrees v' := by
  induction h with
  | nil => cases hv
  | @cons a b _ _ hab _ ih =>
    obtain ⟨g, u⟩ := a
    obtain ⟨g', u'⟩ := b
    obtain ⟨rfl, agrees⟩ : g = g' ∧ u.Agrees u' := hab
    rw [get?] at hv ⊢
    split at hv
    · next hg =>
      obtain rfl := Option.some.inj hv
      exact ⟨u', if_pos hg, agrees⟩
    · next hg =>
      rw [if_neg hg]
      exact ih hv

/-- The entries are of the parameters that have one. -/
theorem Conforms.fields (h : e.Conforms ps) (hps : (ps.map Parameter.field).Nodup) :
    e.map Prod.fst = (ps.filter fun q => e.has q.field).map Parameter.field := by
  induction h with
  | nil => rfl
  | @given q v ps e _ rest ih =>
    obtain ⟨fresh, nodup⟩ := List.nodup_cons.mp hps
    have same : (ps.filter fun p => has ((q.field, v) :: e) p.field)
        = ps.filter fun p => has e p.field := by
      refine List.filter_congr fun p hp => ?_
      have ne : q.field ≠ p.field := fun heq => fresh (heq ▸ List.mem_map_of_mem hp)
      unfold has
      rw [get?, if_neg ne]
    have first : has ((q.field, v) :: e) q.field = true := has_iff_mem.mpr List.mem_cons_self
    rw [List.filter_cons, if_pos first, same, List.map_cons, List.map_cons, ih nodup]
  | @absent q ps e _ rest ih =>
    obtain ⟨fresh, nodup⟩ := List.nodup_cons.mp hps
    have none : ¬ has e q.field = true := by
      intro h
      obtain ⟨v, hv⟩ := Option.isSome_iff_exists.mp h
      obtain ⟨p, hp, hfield, -⟩ := rest.exists_parameter hv
      exact fresh (hfield ▸ List.mem_map_of_mem hp)
    rw [List.filter_cons, if_neg none, ih nodup]

/-- No field has two entries, if none has two parameters. -/
theorem Conforms.nodup (h : e.Conforms ps) (hps : (ps.map Parameter.field).Nodup) :
    (e.map Prod.fst).Nodup := by
  rw [h.fields hps]
  exact hps.sublist (List.filter_sublist.map _)

/-- Entries of the same fields agree if their values do. -/
theorem agree_of_get? (hfields : e.map Prod.fst = e'.map Prod.fst) (nodup : (e.map Prod.fst).Nodup)
    (h : ∀ f v v', get? f e = some v → get? f e' = some v' → v.Agrees v') : e.Agree e' := by
  induction e generalizing e' with
  | nil =>
    obtain rfl := List.map_eq_nil_iff.mp hfields.symm
    exact .nil
  | cons p rest ih =>
    obtain ⟨⟨g, w⟩, rest', rfl, hg, hrest⟩ := List.map_eq_cons_iff.mp hfields.symm
    obtain ⟨f, v⟩ := p
    obtain rfl : g = f := hg
    obtain ⟨fresh, nodup⟩ := List.nodup_cons.mp nodup
    refine .cons ⟨rfl, h g v w (if_pos rfl) (if_pos rfl)⟩ (ih hrest.symm nodup ?_)
    intro f u u' hu hu'
    have ne : g ≠ f := by
      rintro rfl
      exact fresh (has_iff_mem.mp (Option.isSome_of_eq_some hu))
    exact h f u u' ((if_neg ne).trans hu) ((if_neg ne).trans hu')

end Entries

namespace Payload

variable {c : Callee} {p p' : Payload} {name t : Text} {parts : List Text} {q q' : Parameter}

/-! ## Arguments in their places -/

/-- What is written in the place of a passing. -/
def Writes (p : Payload) (s : Passing) (t : Text) : Prop :=
  Sql.Slot.render ⟨s.key, p.argument s.field⟩ = .ok t

theorem Valid.forall₂_writes (h : p.Valid)
    (hparts : (p.call name).present.mapM Sql.Slot.render = .ok parts) :
    List.Forall₂ p.Writes (p.function.passings.filter fun s => p.has s.field) parts := by
  rw [h.present_call, Outcome.mapM_eq_ok_iff, List.forall₂_map_left_iff] at hparts
  exact hparts

theorem writes_iff {s : Passing} : p.Writes s t ↔
    ∃ u, (p.argument s.field).render = .ok u
      ∧ t = (s.key.map (· ++ " => ".toText)).getD [] ++ u := by
  unfold Writes Sql.Slot.render Sql.Slot.renderBy
  rw [Outcome.bind_eq_ok_iff]
  refine exists_congr fun u => and_congr_right fun _ => ?_
  dsimp only
  cases s.key with
  | none => exact ⟨fun h => (Except.ok.inj h).symm, fun h => congrArg Except.ok h.symm⟩
  | some key => exact ⟨fun h => (Except.ok.inj h).symm, fun h => congrArg Except.ok h.symm⟩

/-- **A named argument shows its key.** -/
theorem key_of_writes {s : Passing} {key : Text} (hkey : s.key = some key)
    (hname : ∀ c ∈ key, Sql.isNamePart c = true) (h : p.Writes s t) :
    t.takeWhile Sql.isNamePart = key := by
  obtain ⟨u, -, rfl⟩ := writes_iff.mp h
  rw [hkey]
  show (key ++ " => ".toText ++ u).takeWhile _ = key
  rw [List.append_assoc, List.takeWhile_append_of_pos hname]
  show key ++ (CodePoint.char ' ' :: _).takeWhile _ = key
  rw [List.takeWhile_cons_of_neg (by decide), List.append_nil]

/-- The value of a field that is given is its argument. -/
theorem argument_of_get? {f : Field} {v : Value} (h : p.get? f = some v) :
    p.argument f = v.toArgument := by
  rw [argument, h]
  rfl

theorem exists_get? {f : Field} (h : p.has f = true) : ∃ v, p.get? f = some v :=
  Option.isSome_iff_exists.mp h

theorem writes_bare {f : Field} (h : p.Writes (.bare f) t) : (p.argument f).render = .ok t := by
  obtain ⟨u, hu, rfl⟩ := writes_iff.mp h
  exact hu

theorem exists_getElem? {ss : List Passing} (h : List.Forall₂ p.Writes ss parts) {i : ℕ}
    {s : Passing} (hs : ss[i]? = some s) : ∃ t, parts[i]? = some t ∧ p.Writes s t := by
  induction h generalizing i with
  | nil => cases hs
  | cons hst _ ih =>
    cases i with
    | zero =>
      obtain rfl := Option.some.inj hs
      exact ⟨_, rfl, hst⟩
    | succ i => exact ih hs

/-- **Prose does not stand where what is no text stands.** -/
theorem Valid.false_of_place (h : p.Valid) (h' : p'.Valid) {ss ss' : List Passing}
    (writes : List.Forall₂ p.Writes ss parts) (writes' : List.Forall₂ p'.Writes ss' parts) (i : ℕ)
    (f f' : Field) (hi : ss[i]? = some (.bare f)) (hi' : ss'[i]? = some (.bare f'))
    (hf : ∃ q ∈ p.function.parameters, q.field = f ∧ q.kind = .prose)
    (hf' : ∃ q ∈ p'.function.parameters, q.field = f' ∧ q.kind.hasText = false)
    (hhas : p.has f = true) (hhas' : p'.has f' = true) : False := by
  obtain ⟨t, ht, hwrites⟩ := exists_getElem? writes hi
  obtain ⟨t', ht', hwrites'⟩ := exists_getElem? writes' hi'
  obtain rfl := Option.some.inj (ht.symm.trans ht')
  obtain ⟨v, hv⟩ := exists_get? hhas
  obtain ⟨v', hv'⟩ := exists_get? hhas'
  obtain ⟨q, hq, rfl, hkind⟩ := hf
  obtain ⟨q', hq', rfl, hkind'⟩ := hf'
  have admits := h.admits hq hv
  have admits' := h'.admits hq' hv'
  have render := writes_bare hwrites
  have render' := writes_bare hwrites'
  rw [argument_of_get? hv] at render
  rw [argument_of_get? hv'] at render'
  rw [hkind] at admits
  have text : ∃ s, v = .text s := by
    cases v with
    | text s => exact ⟨s, rfl⟩
    | _ => exact admits.elim
  obtain ⟨s, rfl⟩ := (admits'.head?_render render').mp ((admits.head?_render render).mpr text)
  exact Bool.false_ne_true (hkind'.symm.trans admits'.hasText)

/-! ## The fields that are given -/

/-- **The keys tell which fields are given.** -/
theorem has_eq_of_keys {ss : List Passing} (distinct : (ss.map Passing.key).Nodup)
    (keyed : ∀ s ∈ ss, s.key.isSome = true)
    (named : ∀ s ∈ ss, ∀ key ∈ s.key, ∀ c ∈ key, Sql.isNamePart c = true)
    (h : List.Forall₂ p.Writes (ss.filter fun s => p.has s.field) parts)
    (h' : List.Forall₂ p'.Writes (ss.filter fun s => p'.has s.field) parts) :
    ∀ s ∈ ss, p.has s.field = p'.has s.field := by
  have keys : ∀ {r : Payload}, List.Forall₂ r.Writes (ss.filter fun s => r.has s.field) parts →
      (ss.filter fun s => r.has s.field).map Passing.key
        = parts.map fun t => some (t.takeWhile Sql.isNamePart) := by
    intro r hr
    rw [← List.forall₂_eq_eq_eq, List.forall₂_map_left_iff, List.forall₂_map_right_iff]
    have members : List.Forall₂ (fun s t => s ∈ ss ∧ r.Writes s t) _ parts :=
      (List.forall₂_and_left _ _).mpr ⟨fun s hs => List.mem_of_mem_filter hs, hr⟩
    refine members.imp fun s t hst => ?_
    obtain ⟨key, hkey⟩ := Option.isSome_iff_exists.mp (keyed s hst.1)
    rw [key_of_writes hkey (named s hst.1 key hkey) hst.2, hkey]
  have mem : ∀ {r : Payload}, ∀ s ∈ ss, r.has s.field = true ↔
      s.key ∈ (ss.filter fun s => r.has s.field).map Passing.key := by
    intro r s hs
    constructor
    · exact fun hr => List.mem_map_of_mem (List.mem_filter.mpr ⟨hs, hr⟩)
    · intro hr
      obtain ⟨s', hs', heq⟩ := List.mem_map.mp hr
      obtain ⟨hs', hr⟩ := List.mem_filter.mp hs'
      exact List.inj_on_of_nodup_map distinct hs' hs heq ▸ hr
  intro s hs
  rw [Bool.eq_iff_iff, mem s hs, mem s hs, keys h, keys h']

/-- **The number of arguments tells whether the last slot is filled**, if the
same slots in front of it are. -/
theorem has_eq_of_last (ss : List Passing) (last : Passing)
    (others : ∀ s ∈ ss, p.has s.field = p'.has s.field)
    (h : List.Forall₂ p.Writes ((ss ++ [last]).filter fun s => p.has s.field) parts)
    (h' : List.Forall₂ p'.Writes ((ss ++ [last]).filter fun s => p'.has s.field) parts) :
    ∀ s ∈ ss ++ [last], p.has s.field = p'.has s.field := by
  have length := h.length_eq.trans h'.length_eq.symm
  rw [List.filter_append, List.filter_append, List.filter_congr others, List.length_append,
    List.length_append, Nat.add_left_cancel_iff] at length
  have same : p.has last.field = p'.has last.field := by
    cases hp : p.has last.field <;> cases hp' : p'.has last.field <;> simp [hp, hp'] at length ⊢
  exact List.forall_mem_append.mpr ⟨others, List.forall_mem_singleton.mpr same⟩

/-- A field that neither payload has alone. -/
theorem has_eq_of_false {f : Field} (alone : p.has f = true → p'.has f = false → False)
    (alone' : p'.has f = true → p.has f = false → False) : p.has f = p'.has f := by
  cases hp : p.has f <;> cases hp' : p'.has f
  · rfl
  · exact (alone' hp' hp).elim
  · exact (alone hp hp').elim
  · rfl

section Positions

variable (h : p.Valid) (h' : p'.Valid)
  (writes : List.Forall₂ p.Writes (p.function.passings.filter fun s => p.has s.field) parts)
  (writes' : List.Forall₂ p'.Writes (p'.function.passings.filter fun s => p'.has s.field) parts)

include h h' writes writes'

/-- The third argument is the input text behind a model name and the categories
otherwise. -/
theorem Valid.false_of_modelName (hf : p.function = .countTokens)
    (hf' : p'.function = .countTokens) (hm : p.has .modelName = true)
    (hm' : p'.has .modelName = false) : False := by
  have function := h.has_of_exists (f := .functionName) (by rw [hf]; decide)
  have function' := h'.has_of_exists (f := .functionName) (by rw [hf']; decide)
  have text := h.has_of_exists (f := .inputText) (by rw [hf]; decide)
  have text' := h'.has_of_exists (f := .inputText) (by rw [hf']; decide)
  have rule : p.has .modelName ≠ p.has .categories := by
    have holds := h.rule_holds
    rwa [hf] at holds
  have rule' : p'.has .modelName ≠ p'.has .categories := by
    have holds := h'.rule_holds
    rwa [hf'] at holds
  have categories : p.has .categories = false := by simpa [hm] using rule
  have categories' : p'.has .categories = true := by simpa [hm'] using rule'
  refine h.false_of_place h' writes writes' 2 .inputText .categories ?_ ?_
    (by rw [hf]; decide) (by rw [hf']; decide) text categories'
  · simp [hf, AiFunction.passings, Passing.bare, function, hm, text, categories]
  · simp [hf', AiFunction.passings, Passing.bare, function', hm', text', categories']

/-- The second argument is the input or the file in its place. -/
theorem Valid.false_of_input (hf : p.function = .embed) (hf' : p'.function = .embed)
    (hi : p.has .input = true) (hi' : p'.has .input = false) : False := by
  have model := h.has_of_exists (f := .model) (by rw [hf]; decide)
  have model' := h'.has_of_exists (f := .model) (by rw [hf']; decide)
  have rule : p.has .input ≠ p.has .inputFile := by
    have holds := h.rule_holds
    rwa [hf] at holds
  have rule' : p'.has .input ≠ p'.has .inputFile := by
    have holds := h'.rule_holds
    rwa [hf'] at holds
  have file : p.has .inputFile = false := by simpa [hi] using rule
  have file' : p'.has .inputFile = true := by simpa [hi'] using rule'
  refine h.false_of_place h' writes writes' 1 .input .inputFile ?_ ?_
    (by rw [hf]; decide) (by rw [hf']; decide) hi file'
  · simp [hf, AiFunction.passings, Passing.bare, model, hi, file]
  · simp [hf', AiFunction.passings, Passing.bare, model', hi', file']

/-- The first argument is the first text or the first file. -/
theorem Valid.false_of_input1 (hf : p.function = .similarity) (hf' : p'.function = .similarity)
    (hi : p.has .input1 = true) (hi' : p'.has .input1 = false) : False := by
  have rule' := h'.rule_holds
  rw [hf'] at rule'
  obtain ⟨texts, -, ne⟩ := rule'
  dsimp only at texts ne
  have input2 : p'.has .input2 = false := texts ▸ hi'
  have file : p'.has .input1File = true := by simpa [hi'] using ne
  refine h.false_of_place h' writes writes' 0 .input1 .input1File ?_ ?_
    (by rw [hf]; decide) (by rw [hf']; decide) hi file
  · simp [hf, AiFunction.passings, Passing.bare, hi]
  · simp [hf', AiFunction.passings, Passing.bare, hi', input2, file]

/-- Of `AI_COUNT_TOKENS` the third argument tells which of its two forms it is. -/
theorem Valid.has_eq_countTokens (hf : p.function = .countTokens)
    (hf' : p'.function = .countTokens) :
    ∀ s ∈ AiFunction.countTokens.passings, p.has s.field = p'.has s.field := by
  have function := h.has_of_exists (f := .functionName) (by rw [hf]; decide)
  have function' := h'.has_of_exists (f := .functionName) (by rw [hf']; decide)
  have text := h.has_of_exists (f := .inputText) (by rw [hf]; decide)
  have text' := h'.has_of_exists (f := .inputText) (by rw [hf']; decide)
  have rule : p.has .modelName ≠ p.has .categories := by
    have holds := h.rule_holds
    rwa [hf] at holds
  have rule' : p'.has .modelName ≠ p'.has .categories := by
    have holds := h'.rule_holds
    rwa [hf'] at holds
  have model : p.has .modelName = p'.has .modelName :=
    has_eq_of_false (h.false_of_modelName h' writes writes' hf hf')
      (h'.false_of_modelName h writes' writes hf' hf)
  have categories : p.has .categories = p'.has .categories := by
    rw [Bool.eq_not.mpr rule.symm, Bool.eq_not.mpr rule'.symm, model]
  intro s hs
  simp only [AiFunction.passings, List.mem_cons, List.not_mem_nil, or_false] at hs
  obtain rfl | rfl | rfl | rfl := hs
  · exact function.trans function'.symm
  · exact model
  · exact text.trans text'.symm
  · exact categories

/-- Of `AI_EMBED` the second argument tells whether it is a text or a file. -/
theorem Valid.has_eq_embed (hf : p.function = .embed) (hf' : p'.function = .embed) :
    ∀ s ∈ AiFunction.embed.passings, p.has s.field = p'.has s.field := by
  have model := h.has_of_exists (f := .model) (by rw [hf]; decide)
  have model' := h'.has_of_exists (f := .model) (by rw [hf']; decide)
  have rule : p.has .input ≠ p.has .inputFile := by
    have holds := h.rule_holds
    rwa [hf] at holds
  have rule' : p'.has .input ≠ p'.has .inputFile := by
    have holds := h'.rule_holds
    rwa [hf'] at holds
  have input : p.has .input = p'.has .input :=
    has_eq_of_false (h.false_of_input h' writes writes' hf hf')
      (h'.false_of_input h writes' writes hf' hf)
  have file : p.has .inputFile = p'.has .inputFile := by
    rw [Bool.eq_not.mpr rule.symm, Bool.eq_not.mpr rule'.symm, input]
  intro s hs
  simp only [AiFunction.passings, List.mem_cons, List.not_mem_nil, or_false] at hs
  obtain rfl | rfl | rfl := hs
  · exact model.trans model'.symm
  · exact input
  · exact file

/-- Of `AI_SIMILARITY` the first argument tells whether both are texts or files,
and their number tells whether there is a configuration. -/
theorem Valid.has_eq_similarity (hf : p.function = .similarity) (hf' : p'.function = .similarity) :
    ∀ s ∈ AiFunction.similarity.passings, p.has s.field = p'.has s.field := by
  have input1 : p.has .input1 = p'.has .input1 :=
    has_eq_of_false (h.false_of_input1 h' writes writes' hf hf')
      (h'.false_of_input1 h writes' writes hf' hf)
  have rule := h.rule_holds
  have rule' := h'.rule_holds
  rw [hf] at rule
  rw [hf'] at rule'
  obtain ⟨texts, files, ne⟩ := rule
  obtain ⟨texts', files', ne'⟩ := rule'
  dsimp only at texts files ne texts' files' ne'
  have file1 : p.has .input1File = p'.has .input1File := by
    rw [Bool.eq_not.mpr ne.symm, Bool.eq_not.mpr ne'.symm, input1]
  rw [hf] at writes
  rw [hf'] at writes'
  refine has_eq_of_last [.bare .input1, .bare .input2, .bare .input1File,
    .bare .input2File] (.bare .configObject) (fun s hs => ?_) writes writes'
  simp only [List.mem_cons, List.not_mem_nil, or_false] at hs
  obtain rfl | rfl | rfl | rfl := hs
  · exact input1
  · exact texts.symm.trans (input1.trans texts')
  · exact file1
  · exact files.symm.trans (file1.trans files')

/-- A required argument in front of an optional one. -/
theorem Valid.has_eq_second {f g : Field} (hf : p'.function = p.function)
    (passings : p.function.passings = [.bare f, .bare g])
    (required : ∃ q ∈ p.function.parameters, q.required = true ∧ q.field = f) :
    ∀ s ∈ p.function.passings, p.has s.field = p'.has s.field := by
  have first := h.has_of_exists required
  have first' := h'.has_of_exists (hf ▸ required)
  rw [hf, passings] at writes'
  rw [passings] at writes ⊢
  exact has_eq_of_last [.bare f] (.bare g)
    (List.forall_mem_singleton.mpr (first.trans first'.symm)) writes writes'

/-- **The arguments tell which fields are given.** -/
theorem Valid.has_eq (hf : p'.function = p.function) :
    ∀ s ∈ p.function.passings, p.has s.field = p'.has s.field := by
  have named : (p.function.passings.map Passing.key).Nodup →
      (∀ s ∈ p.function.passings, s.key.isSome = true) →
      ∀ s ∈ p.function.passings, p.has s.field = p'.has s.field := fun distinct keyed =>
    has_eq_of_keys distinct keyed p.function.isNamePart_of_mem_passings writes (hf ▸ writes')
  cases hfun : p.function with
  | complete => exact hfun ▸ named (by rw [hfun]; decide) (by rw [hfun]; decide)
  | extract => exact hfun ▸ named (by rw [hfun]; decide) (by rw [hfun]; decide)
  | classify => exact hfun ▸ named (by rw [hfun]; decide) (by rw [hfun]; decide)
  | parseDocument => exact hfun ▸ named (by rw [hfun]; decide) (by rw [hfun]; decide)
  | sentiment =>
    exact hfun ▸ h.has_eq_second h' writes writes' hf (by rw [hfun]; rfl) (by rw [hfun]; decide)
  | filter =>
    exact hfun ▸ h.has_eq_second h' writes writes' hf (by rw [hfun]; rfl) (by rw [hfun]; decide)
  | countTokens => exact h.has_eq_countTokens h' writes writes' hfun (hf.trans hfun)
  | embed => exact h.has_eq_embed h' writes writes' hfun (hf.trans hfun)
  | similarity => exact h.has_eq_similarity h' writes writes' hfun (hf.trans hfun)

end Positions

/-! ## The values -/

section Values

variable (h : p.Valid) (h' : p'.Valid) (hf : p'.function = p.function)
  (hparts : (p.call name).present.mapM Sql.Slot.render = .ok parts)
  (hparts' : (p'.call name).present.mapM Sql.Slot.render = .ok parts)

include h h' hf hparts hparts'

/-- **A field that both payloads have holds values that agree.** -/
theorem Valid.agrees_of_parts {f : Field} {v v' : Value} (hv : p.get? f = some v)
    (hv' : p'.get? f = some v') (regular : v.IsRegular) (regular' : v'.IsRegular) :
    v.Agrees v' := by
  have writes := h.forall₂_writes hparts
  have writes' := h'.forall₂_writes hparts'
  have same := h.has_eq h' writes writes' hf
  rw [hf, ← List.filter_congr same] at writes'
  obtain ⟨q, hq, rfl, admits⟩ := h.conforms.exists_parameter hv
  have admits' := h'.admits (hf ▸ hq) hv'
  obtain ⟨s, hs, hfield⟩ := p.function.exists_passing q hq
  have filled : s ∈ p.function.passings.filter fun s => p.has s.field :=
    List.mem_filter.mpr ⟨hs, hfield ▸ Option.isSome_of_eq_some hv⟩
  obtain ⟨i, hi⟩ := List.mem_iff_getElem?.mp filled
  obtain ⟨t, ht, hwrites⟩ := exists_getElem? writes hi
  obtain ⟨t', ht', hwrites'⟩ := exists_getElem? writes' hi
  obtain rfl := Option.some.inj (ht.symm.trans ht')
  obtain ⟨u, hu, rfl⟩ := writes_iff.mp hwrites
  obtain ⟨u', hu', heq⟩ := writes_iff.mp hwrites'
  obtain rfl := List.append_cancel_left heq
  rw [hfield, argument_of_get? hv] at hu
  rw [hfield, argument_of_get? hv'] at hu'
  exact admits.agrees admits' regular regular' hu hu'

/-- **The payloads agree**, entry by entry. -/
theorem Valid.agree_of_parts (regular : ∀ {f v}, p.get? f = some v → v.IsRegular)
    (regular' : ∀ {f v}, p'.get? f = some v → v.IsRegular) : p.entries.Agree p'.entries := by
  have same := h.has_eq h' (h.forall₂_writes hparts) (h'.forall₂_writes hparts') hf
  have given : ∀ q ∈ p.function.parameters, p.has q.field = p'.has q.field := by
    intro q hq
    obtain ⟨s, hs, hfield⟩ := p.function.exists_passing q hq
    rw [← hfield]
    exact same s hs
  have distinct := p.function.parameters_nodup
  have fields := h.conforms.fields distinct
  have fields' : p'.entries.map Prod.fst
      = (p'.function.parameters.filter fun q => p'.has q.field).map Parameter.field :=
    h'.conforms.fields (hf ▸ distinct)
  rw [hf, ← List.filter_congr given] at fields'
  refine Entries.agree_of_get? (fields.trans fields'.symm) (h.conforms.nodup distinct)
    fun f v v' hv hv' => ?_
  exact h.agrees_of_parts h' hf hparts hparts' hv hv' (regular hv) (regular' hv')

end Values

/-! ## The older form -/

/-- An argument that is a value, and one that a text can spell. -/
def IsPlainValue (a : Sql.Argument) : Prop := ∃ v, a = .value v ∧ v.IsRegular

theorem eq_of_forall₂_render {as as' : List Sql.Argument} (plain : ∀ a ∈ as, IsPlainValue a)
    (plain' : ∀ a ∈ as', IsPlainValue a)
    (h : List.Forall₂ (fun (a : Sql.Argument) t => a.render = .ok t) as parts)
    (h' : List.Forall₂ (fun (a : Sql.Argument) t => a.render = .ok t) as' parts) : as = as' := by
  induction h generalizing as' with
  | nil => exact (List.forall₂_nil_right_iff.mp h').symm
  | @cons a t as parts hat _ ih =>
    obtain ⟨a', as', hat', hrest, rfl⟩ := List.forall₂_cons_right_iff.mp h'
    obtain ⟨⟨v, rfl, regular⟩, others⟩ := List.forall_mem_cons.mp plain
    obtain ⟨⟨v', rfl, regular'⟩, others'⟩ := List.forall_mem_cons.mp plain'
    rw [Sql.Argument.value_injective regular regular' hat hat', ih others others' hrest]

/-- **As many slots that are filled alike are the same slots.** -/
theorem slots_eq_of_fills {fewest : ℕ} {slots slots' : List (Option Sql.Argument)}
    (length : slots.length = slots'.length) (plain : ∀ a, some a ∈ slots → IsPlainValue a)
    (plain' : ∀ a, some a ∈ slots' → IsPlainValue a)
    (h : (Convention.byPosition fewest slots).Fills p parts)
    (h' : (Convention.byPosition fewest slots').Fills p' parts) : slots = slots' := by
  obtain ⟨as, n, rfl, -, h⟩ := h
  obtain ⟨as', n', rfl, -, h'⟩ := h'
  have filled : ∀ {bs : List Sql.Argument} {k : ℕ}, ∀ a ∈ bs,
      some a ∈ bs.map some ++ List.replicate k none := fun a ha =>
    List.mem_append_left _ (List.mem_map_of_mem ha)
  obtain rfl := eq_of_forall₂_render (fun a ha => plain a (filled a ha))
    (fun a ha => plain' a (filled a ha)) h h'
  rw [List.length_append, List.length_append, Nat.add_left_cancel_iff, List.length_replicate,
    List.length_replicate] at length
  rw [length]

theorem givenOptions?_eq (p : Payload) : p.givenOptions? = p.legacyOptions.map .value := by
  unfold givenOptions? legacyOptions
  rw [← p.mergedOptions_eq]
  by_cases h : p.mergedOptions = []
  · rw [if_pos (p.mergedOptions_eq_nil_iff.mp h), if_pos (List.isEmpty_iff.mpr h)]
    rfl
  · rw [if_neg fun e => h (p.mergedOptions_eq_nil_iff.mpr e),
      if_neg fun e => h (List.isEmpty_iff.mp e)]
    rfl

section Older

variable (regular : ∀ {f v}, p.get? f = some v → v.IsRegular)

include regular

/-- The object of a field is one that a text can spell. -/
theorem isRegular_membersOf (f : Field) : (Json.obj (p.membersOf f)).IsRegular := by
  unfold membersOf
  split
  · next m hm => exact regular hm _ rfl
  · exact ⟨List.nodup_nil, trivial⟩

theorem isRegular_mergedOptions : (Json.obj p.mergedOptions).IsRegular := by
  unfold mergedOptions
  split
  · next v hv => exact Json.isRegular_insert (isRegular_membersOf regular _) _ (regular hv).toJson
  · exact isRegular_membersOf regular _

end Older

/-- No argument of the older form is a file. -/
theorem Valid.toArgument_complete (h : p.Valid) (hf : p.function = .complete) {f : Field}
    {v : Value} (hv : p.get? f = some v) : v.toArgument = .value v.toJson := by
  obtain ⟨q, hq, -, admits⟩ := h.conforms.exists_parameter hv
  refine Value.toArgument_eq ?_
  rintro g rfl
  have noFile : ∀ q ∈ AiFunction.complete.parameters, q.kind ≠ .file := by decide
  exact noFile q (hf ▸ hq) admits.eq_file

/-- What is given to the older form is passed as a regular value. -/
theorem Valid.isPlainValue_of_mem (h : p.Valid) (hf : p.function = .complete)
    (regular : ∀ {f v}, p.get? f = some v → v.IsRegular) : ∀ a,
    some a ∈ [p.given? .model, p.given? .prompt, p.givenOptions?] → IsPlainValue a := by
  have given : ∀ {f : Field} {a}, p.given? f = some a → IsPlainValue a := by
    intro f a ha
    obtain ⟨v, hv, rfl⟩ := Option.map_eq_some_iff.mp ha
    exact ⟨v.toJson, h.toArgument_complete hf hv, (regular hv).toJson⟩
  intro a ha
  simp only [List.mem_cons, List.not_mem_nil, or_false] at ha
  obtain ha | ha | ha := ha
  · exact given ha.symm
  · exact given ha.symm
  · unfold givenOptions? at ha
    rw [← p.mergedOptions_eq] at ha
    split at ha
    · cases ha
    · exact ⟨_, Option.some.inj ha, isRegular_mergedOptions regular⟩

/-- Of the older form the same argument is the same value. -/
theorem Valid.get?_eq_of_given? (h : p.Valid) (h' : p'.Valid) (hf : p.function = .complete)
    (hf' : p'.function = .complete) {f : Field} (same : p.given? f = p'.given? f) :
    p.get? f = p'.get? f := by
  unfold given? at same
  cases hv : p.get? f with
  | none =>
    rw [hv] at same
    exact (Option.map_eq_none_iff.mp same.symm).symm
  | some v =>
    rw [hv] at same
    obtain ⟨v', hv', heq⟩ := Option.map_eq_some_iff.mp same.symm
    obtain ⟨q, hq, rfl, admits⟩ := h.conforms.exists_parameter hv
    have admits' := h'.admits (hf'.trans hf.symm ▸ hq) hv'
    rw [h.toArgument_complete hf hv, h'.toArgument_complete hf' hv'] at heq
    rw [hv', admits.eq_of_toJson admits' (Sql.Argument.value.inj heq).symm]

/-- **In the older form the arguments tell the model, the prompt and the
options.** -/
theorem Valid.eq_of_legacyCall (h : p.Valid) (h' : p'.Valid) (hf : p.function = .complete)
    (hf' : p'.function = .complete) (regular : ∀ {f v}, p.get? f = some v → v.IsRegular)
    (regular' : ∀ {f v}, p'.get? f = some v → v.IsRegular)
    (hparts : (p.legacyCall name).present.mapM Sql.Slot.render = .ok parts)
    (hparts' : (p'.legacyCall name).present.mapM Sql.Slot.render = .ok parts) :
    p.get? .model = p'.get? .model ∧ p.get? .prompt = p'.get? .prompt
      ∧ p.legacyOptions = p'.legacyOptions := by
  have length : [p.given? .model, p.given? .prompt, p.givenOptions?].length
      = [p'.given? .model, p'.given? .prompt, p'.givenOptions?].length := rfl
  have slots := slots_eq_of_fills length (h.isPlainValue_of_mem hf regular)
    (h'.isPlainValue_of_mem hf' regular') (h.fills_legacy hf hparts) (h'.fills_legacy hf' hparts')
  rw [List.cons.injEq, List.cons.injEq, List.cons.injEq] at slots
  obtain ⟨model, prompt, options, -⟩ := slots
  refine ⟨h.get?_eq_of_given? h' hf hf' model, h.get?_eq_of_given? h' hf hf' prompt, ?_⟩
  rw [givenOptions?_eq, givenOptions?_eq] at options
  exact Option.map_injective (fun _ _ e => Sql.Argument.value.inj e) options

/-- **Valid payloads of one callee that have the same statement** agree entry by
entry; in the older form they have the same model, the same prompt and the same
options. -/
theorem Valid.determined {sql : Text} (h : p.Valid) (h' : p'.Valid) (hf : p.function = c.function)
    (hf' : p'.function = c.function) (hc : c.isLegacy = true → c.function = .complete)
    (regular : ∀ {f v}, p.get? f = some v → v.IsRegular)
    (regular' : ∀ {f v}, p'.get? f = some v → v.IsRegular) (hsql : p.statement c = .ok sql)
    (hsql' : p'.statement c = .ok sql) :
    (c.isLegacy = false → p.entries.Agree p'.entries)
      ∧ (c.isLegacy = true → p.get? .model = p'.get? .model ∧ p.get? .prompt = p'.get? .prompt
        ∧ p.legacyOptions = p'.legacyOptions) := by
  obtain ⟨parts, hparts, items, heq⟩ := h.exists_of_statement hsql
  obtain ⟨parts', hparts', items', heq'⟩ := h'.exists_of_statement hsql'
  -- the same text between the parentheses is cut into the same arguments
  have same : parts = parts' := by
    have joined := heq.symm.trans heq'
    unfold Sql.selectResponse at joined
    rw [List.append_left_inj, List.append_right_inj, List.append_left_inj,
      List.append_right_inj] at joined
    rw [← Sql.splitArguments_join items (h.ne_nil_of_fills hf (h.fills_convention hf hparts)),
      ← Sql.splitArguments_join items'
        (h'.ne_nil_of_fills hf' (h'.fills_convention hf' hparts')), joined]
  subst same
  unfold callFor at hparts hparts'
  constructor
  · intro other
    rw [other, Bool.false_and, if_neg Bool.false_ne_true] at hparts hparts'
    exact h.agree_of_parts h' (hf'.trans hf.symm) hparts hparts' regular regular'
  · intro legacy
    have complete := hc legacy
    rw [legacy, complete, decide_eq_true rfl, Bool.true_and, if_pos rfl] at hparts hparts'
    exact h.eq_of_legacyCall h' (hf.trans complete) (hf'.trans complete) regular regular'
      hparts hparts'

end Payload

/-- The older name is a name of one function only. -/
theorem Callee.function_of_isLegacy {raw : Option Text} {c : Callee} (h : resolve raw = .ok c)
    (legacy : c.isLegacy = true) : c.function = .complete := by
  have listed : ∀ s ∈ spellings, s.2.isLegacy = true → s.2.function = .complete := by
    decide
  obtain ⟨t, ht⟩ := exists_of_resolve h
  exact listed _ ht legacy

/-- **The statement determines the payload.** Accepted arguments of one callee
that have the same statement agree field by field; in the older form they
have the same model, the same prompt and the same options. -/
theorem statement_determines_payload {function function' args args' : Option Text} {c : Callee}
    {p p' : Payload} {sql : Text} (h : accept function args = .ok (c, p))
    (h' : accept function' args' = .ok (c, p')) (hsql : p.statement c = .ok sql)
    (hsql' : p'.statement c = .ok sql) :
    (c.isLegacy = false → p.entries.Agree p'.entries)
      ∧ (c.isLegacy = true → p.get? .model = p'.get? .model ∧ p.get? .prompt = p'.get? .prompt
        ∧ p.legacyOptions = p'.legacyOptions) := by
  obtain ⟨hc, hp⟩ := accept_eq_ok_iff.mp h
  obtain ⟨-, hp'⟩ := accept_eq_ok_iff.mp h'
  obtain ⟨valid, hf⟩ := Payload.valid_of_ofText hp
  obtain ⟨valid', hf'⟩ := Payload.valid_of_ofText hp'
  exact valid.determined valid' hf hf' (Callee.function_of_isLegacy hc)
    (Payload.isRegular_of_ofText hp) (Payload.isRegular_of_ofText hp') hsql hsql'

/-- A file on a stage and the call that yields it: the echoes differ, and the
statement is the same. -/
theorem statement_determines_payload_filter :
    ∃ c p p' sql, accept (some "ai_filter".toText)
        (some "\x7b\"file\":\x7b\"path\":\"p\",\"stage\":\"@s\"\x7d,\"prompt\":\"?\"\x7d".toText)
          = .ok (c, p)
      ∧ accept (some "ai_filter".toText)
          (some "\x7b\"predicate\":\"?\",\"file\":\"TO_FILE('@s', 'p')\"\x7d".toText)
          = .ok (c, p')
      ∧ p.statement c = .ok sql ∧ p'.statement c = .ok sql ∧ p.entries.Agree p'.entries
      ∧ p.echo.toOption.map (Json.print .compact)
        ≠ p'.echo.toOption.map (Json.print .compact) := by
  have first : (accept (some "ai_filter".toText)
        (some "\x7b\"file\":\x7b\"path\":\"p\",\"stage\":\"@s\"\x7d,\"prompt\":\"?\"\x7d".toText)
        ).toOption.map (fun r => (r.1, (r.2.statement r.1).toOption,
          r.2.echo.toOption.map (Json.print .compact)))
      = some (.ofFunction .filter,
          some "select AI_FILTER('?', TO_FILE('@s', 'p')) as response".toText,
          some ("\x7b\"predicate\":\"?\",".toText
            ++ "\"file\":\x7b\"stage\":\"@s\",\"path\":\"p\"\x7d\x7d".toText)) := by
    decide +kernel
  have second : (accept (some "ai_filter".toText)
        (some "\x7b\"predicate\":\"?\",\"file\":\"TO_FILE('@s', 'p')\"\x7d".toText)
        ).toOption.map (fun r => (r.1, (r.2.statement r.1).toOption,
          r.2.echo.toOption.map (Json.print .compact)))
      = some (.ofFunction .filter,
          some "select AI_FILTER('?', TO_FILE('@s', 'p')) as response".toText,
          some "\x7b\"predicate\":\"?\",\"file\":\"TO_FILE('@s', 'p')\"\x7d".toText) := by
    decide +kernel
  obtain ⟨⟨c, p⟩, hr, h⟩ := Option.map_eq_some_iff.mp first
  obtain ⟨⟨c', p'⟩, hr', h'⟩ := Option.map_eq_some_iff.mp second
  rw [Prod.mk.injEq, Prod.mk.injEq] at h h'
  obtain ⟨rfl, hsql, hecho⟩ := h
  obtain ⟨rfl, hsql', hecho'⟩ := h'
  have accepted := toOption_eq_some_iff.mp hr
  have accepted' := toOption_eq_some_iff.mp hr'
  have built := toOption_eq_some_iff.mp hsql
  have built' := toOption_eq_some_iff.mp hsql'
  refine ⟨_, p, p', _, accepted, accepted', built, built',
    (statement_determines_payload accepted accepted' built built').1 (by decide), ?_⟩
  rw [hecho, hecho']
  decide

end CortexCall
