import CortexCall.Proofs.GivenValues
import CortexCall.Proofs.PrintedJson
import CortexCall.Proofs.SingleCall

/-!
# An argument is known by its text

A rendered argument shows its value: a literal shows the text that was quoted
– `quote_injective` – and a literal that the database parses shows, through
the JSON text in it, the object or list – `embed_injective`. Values of one
kind are therefore told apart by their arguments: `Kind.Admits.agrees`. One
identification is made, and it is deliberate: a file on a stage is passed as
the call that yields it, so it cannot be told from an expression that is this
very call. `FileRef.Agrees` is that identification and no more.

By its first character an argument also shows of which sort it is, since only
a literal starts with an apostrophe.
-/

namespace CortexCall

namespace Sql

/-! ## Literals -/

/-- **A literal shows what was quoted.** -/
theorem quote_injective {t u : Text} (h : quote t = quote u) : t = u := by
  have nothing : ([] : Text).head? ≠ some mark := by simp
  have ht := unquote_quote t nothing
  rw [h, unquote_quote u nothing] at ht
  exact (Prod.mk.inj (Option.some.inj ht)).1.symm

/-- Two literals with something behind them that is no apostrophe. -/
theorem quote_append_injective {t u rest rest' : Text} (hrest : rest.head? ≠ some mark)
    (hrest' : rest'.head? ≠ some mark) (h : quote t ++ rest = quote u ++ rest') :
    t = u ∧ rest = rest' := by
  have ht := unquote_quote t hrest
  rw [h, unquote_quote u hrest'] at ht
  obtain ⟨rfl, rfl⟩ := Prod.mk.inj (Option.some.inj ht)
  exact ⟨rfl, rfl⟩

/-- A value is embedded if its numbers are finite. -/
theorem embed_eq_ok_iff {v : Json} {t : Text} : embed v = .ok t ↔
    v.allFinite = true ∧ t = "PARSE_JSON(".toText ++ quote (v.print .compact) ++ ")".toText := by
  unfold embed embedBy jsonText
  rw [Outcome.bind_eq_ok_iff]
  constructor
  · rintro ⟨u, hu, h⟩
    split at hu
    · next finite =>
      obtain rfl := Except.ok.inj hu
      exact ⟨finite, (Except.ok.inj h).symm⟩
    · cases hu
  · rintro ⟨finite, rfl⟩
    exact ⟨_, if_pos finite, rfl⟩

/-- **A value that the database parses is shown by its text.** -/
theorem embed_injective {v w : Json} {t : Text} (hv : v.IsRegular) (hw : w.IsRegular)
    (h : embed v = .ok t) (h' : embed w = .ok t) : v = w := by
  obtain ⟨finite, rfl⟩ := embed_eq_ok_iff.mp h
  obtain ⟨finite', heq⟩ := embed_eq_ok_iff.mp h'
  rw [List.append_assoc, List.append_assoc, List.append_right_inj, List.append_left_inj] at heq
  exact Json.print_injective Json.Layout.isSound_compact hv hw finite finite' (quote_injective heq)

end Sql

/-! ## Values of one kind -/

/-- **Files that SQL cannot tell apart**: the same file, or a file on a stage
and the call that yields it. -/
inductive FileRef.Agrees : FileRef → FileRef → Prop
  | same (f : FileRef) : Agrees f f
  | placed (stage path : Text) :
      Agrees (.location stage path) (.expression (expressionText (.location stage path)))
  | called (stage path : Text) :
      Agrees (.expression (expressionText (.location stage path))) (.location stage path)

/-- **Values that SQL cannot tell apart**: the same value, or files that it
cannot tell apart. -/
inductive Value.Agrees : Value → Value → Prop
  | same (v : Value) : Agrees v v
  | file {f g : FileRef} (h : f.Agrees g) : Agrees (.file f) (.file g)

/-- The stage and the path of a file are shown by the call that yields it. -/
theorem FileRef.location_injective {stage path stage' path' : Text}
    (h : expressionText (.location stage path) = expressionText (.location stage' path')) :
    stage = stage' ∧ path = path' := by
  have comma : ∀ t : Text, (", ".toText ++ t).head? ≠ some Sql.mark := fun t => by
    show some (CodePoint.char ',') ≠ _
    decide
  unfold expressionText at h
  simp only [List.append_assoc, List.append_right_inj] at h
  obtain ⟨hstage, h⟩ := Sql.quote_append_injective (comma _) (comma _) h
  rw [List.append_right_inj, List.append_left_inj] at h
  exact ⟨hstage, Sql.quote_injective h⟩

theorem FileRef.Agrees.of_expressionText {f g : FileRef} (h : f.expressionText = g.expressionText) :
    f.Agrees g := by
  cases f with
  | expression t =>
    cases g with
    | expression u =>
      obtain rfl : t = u := h
      exact .same _
    | location stage path =>
      obtain rfl : t = _ := h
      exact .called stage path
  | location stage path =>
    cases g with
    | expression u =>
      obtain rfl : _ = u := h
      exact .placed stage path
    | location stage' path' =>
      obtain ⟨rfl, rfl⟩ := location_injective h
      exact .same _

theorem Category.toJson_injective {c d : Category} (h : c.toJson = d.toJson) : c = d := by
  match c, d with
  | .label t, .label u =>
    obtain rfl := Json.str.inj h
    rfl
  | .entry t none, .entry u none =>
    simp only [toJson, Json.obj.injEq, List.cons.injEq, Prod.mk.injEq, Json.str.injEq] at h
    rw [h.1.2]
  | .entry t (some d), .entry u (some e) =>
    simp only [toJson, Json.obj.injEq, List.cons.injEq, Prod.mk.injEq, Json.str.injEq] at h
    rw [h.1.2, h.2.1.2]
  | .label _, .entry _ none => cases h
  | .label _, .entry _ (some _) => cases h
  | .entry _ none, .label _ => cases h
  | .entry _ (some _), .label _ => cases h
  | .entry _ none, .entry _ (some _) => cases h
  | .entry _ (some _), .entry _ none => cases h

/-- A category as JSON is one that a text can spell. -/
theorem Category.isRegular_toJson (c : Category) : c.toJson.IsRegular := by
  match c with
  | .label t => exact trivial
  | .entry t none => exact ⟨List.nodup_singleton _, trivial, trivial⟩
  | .entry t (some d) =>
    have distinct : ["label".toText, "description".toText].Nodup := by decide
    exact ⟨distinct, trivial, trivial, trivial⟩

/-- A file as JSON is one that a text can spell. -/
theorem FileRef.isRegular_toJson (f : FileRef) : f.toJson.IsRegular := by
  cases f with
  | expression t => exact trivial
  | location stage path =>
    have distinct : ["stage".toText, "path".toText].Nodup := by decide
    exact ⟨distinct, trivial, trivial, trivial⟩

theorem FileRef.toJson_injective {f g : FileRef} (h : f.toJson = g.toJson) : f = g := by
  match f, g with
  | .expression t, .expression u => exact congrArg expression (Json.str.inj h)
  | .location stage path, .location stage' path' =>
    simp only [toJson, Json.obj.injEq, List.cons.injEq, Prod.mk.injEq, Json.str.injEq] at h
    rw [h.1.2, h.2.1.2]
  | .expression _, .location _ _ => cases h
  | .location _ _, .expression _ => cases h

/-- **A value as JSON is one that a text can spell.** -/
theorem Value.IsRegular.toJson {v : Value} (h : v.IsRegular) : v.toJson.IsRegular := by
  cases v with
  | text t => exact trivial
  | flag b => exact trivial
  | json j => exact h j rfl
  | labels ls =>
    refine Json.itemsRegular_iff.mpr fun j hj => ?_
    obtain ⟨l, -, rfl⟩ := List.mem_map.mp hj
    exact trivial
  | categories cs =>
    refine Json.itemsRegular_iff.mpr fun j hj => ?_
    obtain ⟨c, -, rfl⟩ := List.mem_map.mp hj
    exact c.isRegular_toJson
  | file f => exact f.isRegular_toJson

namespace Sql.Argument

/-- **The values that have a text** are truth values, texts, and objects and
lists whose numbers are finite. -/
theorem render_value_eq_ok_iff {v : Json} {t : Text} : (value v).render = .ok t ↔
    (∃ b, v = .bool b ∧ t = if b then "TRUE".toText else "FALSE".toText)
      ∨ (∃ s, v = .str s ∧ t = quote s)
      ∨ (((∃ m, v = .obj m) ∨ ∃ items, v = .arr items) ∧ embed v = .ok t) := by
  cases v with
  | bool b => cases b <;> simp [render, renderBy, eq_comm]
  | str s => simp [render, renderBy, eq_comm]
  | arr items => simp [render, renderBy, embed]
  | obj m => simp [render, renderBy, embed]
  | _ => simp [render, renderBy]

theorem head?_embed {v : Json} {t : Text} (h : embed v = .ok t) : t.head? = some (.char 'P') := by
  obtain ⟨-, rfl⟩ := embed_eq_ok_iff.mp h
  rfl

/-- **Only a literal starts with an apostrophe.** -/
theorem head?_render_value {v : Json} {t : Text} (h : (value v).render = .ok t) :
    t.head? = some mark ↔ ∃ s, v = .str s := by
  obtain ⟨b, rfl, rfl⟩ | ⟨s, rfl, rfl⟩ | ⟨container, hembed⟩ := render_value_eq_ok_iff.mp h
  · refine iff_of_false ?_ (by simp)
    cases b <;> decide
  · exact iff_of_true rfl ⟨s, rfl⟩
  · rw [head?_embed hembed]
    refine iff_of_false (by decide) ?_
    rintro ⟨s, rfl⟩
    obtain ⟨m, hm⟩ | ⟨items, hitems⟩ := container
    · cases hm
    · cases hitems

/-- The keywords are distinct, and neither starts as a call does. -/
theorem keyword_injective : ∀ b b' : Bool,
    (if b then "TRUE".toText else "FALSE".toText) = (if b' then "TRUE".toText else "FALSE".toText) →
      b = b' := by
  decide

theorem head?_keyword : ∀ b : Bool,
    (if b then "TRUE".toText else "FALSE".toText).head? ≠ some (.char 'P') := by
  decide

/-- **A value among the arguments is shown by its text.** -/
theorem value_injective {v w : Json} {t : Text} (hv : v.IsRegular) (hw : w.IsRegular)
    (h : (value v).render = .ok t) (h' : (value w).render = .ok t) : v = w := by
  have sort := (head?_render_value h).symm.trans (head?_render_value h')
  obtain ⟨b, rfl, rfl⟩ | ⟨s, rfl, rfl⟩ | ⟨-, hembed⟩ := render_value_eq_ok_iff.mp h
  · obtain ⟨b', rfl, heq⟩ | ⟨s, rfl, -⟩ | ⟨-, hembed⟩ := render_value_eq_ok_iff.mp h'
    · rw [keyword_injective b b' heq]
    · exact absurd (sort.mpr ⟨s, rfl⟩) (by simp)
    · exact absurd (head?_embed hembed) (head?_keyword b)
  · obtain ⟨s', rfl⟩ := sort.mp ⟨s, rfl⟩
    rw [quote_injective (Except.ok.inj h')]
  · obtain ⟨b', rfl, rfl⟩ | ⟨s, rfl, -⟩ | ⟨-, hembed'⟩ := render_value_eq_ok_iff.mp h'
    · exact absurd (head?_embed hembed) (head?_keyword b')
    · obtain ⟨s', rfl⟩ := sort.mpr ⟨s, rfl⟩
      rw [← quote_injective ((Except.ok.inj h).trans (Except.ok.inj h').symm)]
    · exact embed_injective hv hw hembed hembed'

end Sql.Argument

/-- An expression that yields a file does not start with an apostrophe. -/
theorem FileRef.IsSound.head?_expressionText {f : FileRef} (h : f.IsSound) :
    f.expressionText.head? ≠ some Sql.mark := by
  cases f with
  | location stage path =>
    show some (CodePoint.char 'T') ≠ _
    decide
  | expression t =>
    intro head
    obtain ⟨rest, rfl⟩ := List.head?_eq_some_iff.mp head
    have none : Sql.afterName (Sql.mark :: rest) = none := rfl
    have single := h.2
    unfold Sql.isSingleCall at single
    rw [none] at single
    cases single

/-- An argument that is no file is a value. -/
theorem Value.toArgument_eq {v : Value} (h : ∀ f, v ≠ .file f) :
    v.toArgument = .value v.toJson := by
  cases v with
  | file f => exact absurd rfl (h f)
  | _ => rfl

/-- Whether what a kind holds may be a text. -/
def Kind.hasText : Kind → Bool
  | .prose => true
  | .term => true
  | .functionName => true
  | .proseOrObject => true
  | _ => false

namespace Kind.Admits

variable {k : Kind} {v w : Value} {t : Text}

theorem hasText {s : Text} (h : k.Admits (.text s)) : k.hasText = true := by
  cases k with
  | prose => rfl
  | term => rfl
  | functionName => rfl
  | proseOrObject => rfl
  | _ => exact h.elim

/-- A value is shown by its JSON form, if the kind is known. -/
theorem eq_of_toJson (hv : k.Admits v) (hw : k.Admits w) (h : v.toJson = w.toJson) : v = w := by
  -- the kind leaves one form, or two of which one is a text
  cases k <;> cases v <;>
    first
    | exact hv.elim
    | cases w <;> first | exact hw.elim | skip
  case proseOrObject.text.json =>
    obtain rfl := h
    exact hw.elim
  case proseOrObject.json.text =>
    obtain rfl : _ = Json.str _ := h
    exact hv.elim
  case labels.labels.labels =>
    have strings := List.map_injective_iff.mpr (fun _ _ e => Json.str.inj e) (Json.arr.inj h)
    exact congrArg Value.labels strings
  case categories.categories.categories =>
    have records := List.map_injective_iff.mpr (fun _ _ e => Category.toJson_injective e)
      (Json.arr.inj h)
    exact congrArg Value.categories records
  all_goals
    first
    | exact congrArg Value.text (Json.str.inj h)
    | exact congrArg Value.flag (Json.bool.inj h)
    | exact congrArg Value.json h
    | exact congrArg Value.file (FileRef.toJson_injective h)

/-- **Only a text starts with an apostrophe.** -/
theorem head?_render (h : k.Admits v) (ht : v.toArgument.render = .ok t) :
    t.head? = some Sql.mark ↔ ∃ s, v = .text s := by
  by_cases hfile : ∃ f, v = .file f
  · obtain ⟨f, rfl⟩ := hfile
    obtain rfl := Except.ok.inj ht
    exact iff_of_false h.of_file.head?_expressionText (by simp)
  · rw [Value.toArgument_eq fun f hf => hfile ⟨f, hf⟩] at ht
    rw [Sql.Argument.head?_render_value ht]
    cases v with
    | text s => exact iff_of_true ⟨s, rfl⟩ ⟨s, rfl⟩
    | json j => obtain ⟨m, rfl⟩ | ⟨items, rfl⟩ := h.of_json <;> simp [Value.toJson]
    | file f => exact absurd ⟨f, rfl⟩ hfile
    | _ => simp [Value.toJson]

/-- A file is a value of its own kind. -/
theorem eq_file {f : FileRef} (h : k.Admits (.file f)) : k = .file := by
  cases k with
  | file => rfl
  | _ => exact h.elim

/-- **Values of one kind that have the same text agree.** -/
theorem agrees (hv : k.Admits v) (hw : k.Admits w) (regular : v.IsRegular) (regular' : w.IsRegular)
    (h : v.toArgument.render = .ok t) (h' : w.toArgument.render = .ok t) : v.Agrees w := by
  by_cases hk : k = .file
  · subst hk
    match v, w with
    | .file f, .file g =>
      exact .file (.of_expressionText ((Except.ok.inj h).trans (Except.ok.inj h').symm))
  · have value : ∀ {u : Value}, k.Admits u → ∀ f, u ≠ .file f := by
      rintro _ hu f rfl
      exact hk hu.eq_file
    rw [Value.toArgument_eq (value hv)] at h
    rw [Value.toArgument_eq (value hw)] at h'
    have same := Sql.Argument.value_injective regular.toJson regular'.toJson h h'
    rw [hv.eq_of_toJson hw same]
    exact .same w

end Kind.Admits

end CortexCall
