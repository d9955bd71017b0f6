import CortexCall.Proofs.ArgumentList
import CortexCall.Proofs.CheckedPayload
import CortexCall.Dispatch

/-!
# A statement selects one call

Whatever the arguments are, the statement that is sent is one call between
`select` and `as response`, and the function called is one of the ten names
the library knows. The reason is local: every argument is rendered to an
item, text that opens and closes its own literals and parentheses, so no
argument reaches beyond the comma that follows it. The one argument that is
not rendered here but copied, a file expression, is an item because it was
checked to be a single call.
-/

namespace CortexCall

/-- A value that is looked up stands in the list with its key. -/
theorem mem_of_lookup {α β : Type} [BEq α] [LawfulBEq α] {l : List (α × β)} {k : α} {b : β}
    (h : l.lookup k = some b) : (k, b) ∈ l := by
  obtain ⟨before, after, hl, -⟩ := List.lookup_eq_some_iff.mp h
  exact hl ▸ List.mem_append_right _ List.mem_cons_self

namespace Callee

/-- The names by which SQL calls the functions. -/
def sqlNames : List Text := AiFunction.all.map AiFunction.name ++ [legacyName]

/-- Every spelling means a callee with one of the names. -/
theorem sqlName_mem_of_mem_spellings : ∀ s ∈ spellings, s.2.sqlName ∈ sqlNames := by
  intro s hs
  obtain hs | hs := List.mem_append.mp hs
  · obtain ⟨f, hf, hs⟩ := List.mem_flatMap.mp hs
    -- plain or qualified, the spelling means the function under its own name
    have own : s.2 = ofFunction f := by
      obtain rfl | hs := List.mem_cons.mp hs
      · rfl
      · rw [List.mem_singleton.mp hs]
    rw [own]
    exact List.mem_append_left _ (List.mem_map_of_mem hf)
  · rw [List.mem_singleton.mp hs]
    exact List.mem_append_right _ (List.mem_singleton_self _)

/-- What a name resolves to is listed. -/
theorem exists_of_resolve {raw : Option Text} {c : Callee} (h : resolve raw = .ok c) :
    ∃ t, (t, c) ∈ spellings := by
  unfold resolve at h
  dsimp only at h
  split at h
  · exact absurd h (by simp)
  · split at h
    · next c' hc' =>
      obtain rfl := Except.ok.inj h
      exact ⟨_, mem_of_lookup hc'⟩
    · exact absurd h (by simp)

/-- **A resolved callee has one of the ten names.** -/
theorem sqlName_mem_of_resolve {raw : Option Text} {c : Callee} (h : resolve raw = .ok c) :
    c.sqlName ∈ sqlNames := by
  obtain ⟨t, ht⟩ := exists_of_resolve h
  exact sqlName_mem_of_mem_spellings _ ht

/-- The names are names of calls. -/
theorem isName_of_mem_sqlNames : ∀ n ∈ sqlNames, Sql.IsName n := by decide

end Callee

/-! ## The slots of a valid payload -/

/-- The keys of named slots are keywords. -/
theorem AiFunction.isNamePart_of_mem_passings (f : AiFunction) :
    ∀ s ∈ f.passings, ∀ key ∈ s.key, ∀ c ∈ key, Sql.isNamePart c = true := by
  cases f <;> decide

namespace Kind.Admits

variable {k : Kind} {v : Value}

/-- What a kind admits is never `null`. -/
theorem isAbsent_toArgument (h : k.Admits v) : v.toArgument.isAbsent = false := by
  cases v with
  | json j =>
    obtain ⟨m, rfl⟩ | ⟨items, rfl⟩ := h.of_json
    · rfl
    · rfl
  | _ => rfl

end Kind.Admits

/-- The literals of a place are balanced. -/
theorem FileRef.balanced_literals (stage path : Text) :
    Sql.Balanced true (Sql.quote stage ++ (", ".toText ++ Sql.quote path)) := by
  have separator : Sql.Balanced true ", ".toText :=
    .char (by decide) (fun _ => rfl) (.char (by decide) (fun _ => rfl) .nil)
  exact .append (.of_quote stage) (.append separator (.of_quote path))

/-- The call that yields a file on a stage is an item. -/
theorem FileRef.isItem_location (stage path : Text) :
    Sql.IsItem (FileRef.location stage path).expressionText := by
  have name : ∀ c ∈ "TO_FILE".toText, Sql.isNamePart c = true := by decide
  have item := Sql.isItem_call name (FileRef.balanced_literals stage path)
  rw [expressionText]
  simpa [String.toText] using item

/-- **A checked file is an item**, whether it was given as an expression or by
its place. -/
theorem FileRef.IsSound.isItem {f : FileRef} (h : f.IsSound) : Sql.IsItem f.expressionText := by
  cases f with
  | expression t => exact .of_isSingleCall h.2
  | location stage path => exact FileRef.isItem_location stage path

/-- What a kind admits is a sound argument. -/
theorem Kind.Admits.isSound_toArgument {k : Kind} {v : Value} (h : k.Admits v) :
    v.toArgument.IsSound := by
  cases v with
  | file f => exact h.of_file.isItem
  | _ => trivial

namespace Payload

variable {p : Payload}

theorem Valid.isSound_argument (h : p.Valid) (f : Field) : (p.argument f).IsSound := by
  unfold argument
  cases hv : p.get? f with
  | none => trivial
  | some v =>
    obtain ⟨k, hk⟩ := h.exists_admits hv
    exact hk.isSound_toArgument

/-- **An argument is left out exactly if its field is not given.** -/
theorem Valid.isAbsent_argument (h : p.Valid) (f : Field) :
    (p.argument f).isAbsent = !p.has f := by
  have get : p.has f = (p.get? f).isSome := rfl
  rw [get]
  unfold argument
  cases hv : p.get? f with
  | none => rfl
  | some v =>
    obtain ⟨k, hk⟩ := h.exists_admits hv
    exact hk.isAbsent_toArgument

/-- The slots of a valid payload are sound. -/
theorem Valid.isSound_slots (h : p.Valid) (c : Callee) :
    ∀ s ∈ (p.callFor c).slots, s.IsSound := by
  unfold callFor
  split
  · intro s hs
    obtain ⟨a, ha, rfl⟩ := List.mem_map.mp hs
    refine ⟨fun key hkey => absurd hkey (by simp), ?_⟩
    simp only [List.mem_cons, List.not_mem_nil, or_false] at ha
    obtain rfl | rfl | rfl := ha
    · exact h.isSound_argument .model
    · exact h.isSound_argument .prompt
    · trivial
  · intro s hs
    obtain ⟨g, hg, rfl⟩ := List.mem_map.mp hs
    exact ⟨p.function.isNamePart_of_mem_passings g hg, h.isSound_argument g.field⟩

theorem name_callFor (c : Callee) (p : Payload) : (p.callFor c).name = c.sqlName := by
  unfold callFor
  split <;> rfl

/-- A statement is the call of its payload, selected. -/
theorem statement_eq_ok_iff {c : Callee} {t : Text} :
    p.statement c = .ok t ↔ p.function = c.function
      ∧ ∃ u, (p.callFor c).render = .ok u ∧ Sql.selectResponse u = t := by
  unfold statement statementBy
  split
  · next hf =>
    rw [Outcome.mapError_eq_ok_iff, Outcome.map_eq_ok_iff, and_iff_right hf]
    exact Iff.rfl
  · next hf => simp [hf]

/-- **The statement of a valid payload**: the name of the callee, and between
parentheses items that are its present slots. -/
theorem Valid.exists_of_statement (h : p.Valid) {c : Callee} {t : Text}
    (ht : p.statement c = .ok t) : ∃ parts, (p.callFor c).present.mapM Sql.Slot.render = .ok parts
      ∧ (∀ u ∈ parts, Sql.IsItem u)
      ∧ t = Sql.selectResponse
          (c.sqlName ++ "(".toText ++ Text.join ", ".toText parts ++ ")".toText) := by
  obtain ⟨-, u, hu, rfl⟩ := statement_eq_ok_iff.mp ht
  obtain ⟨parts, hparts, rfl⟩ := Sql.Call.render_eq_ok_iff.mp hu
  rw [name_callFor]
  refine ⟨parts, hparts, Sql.Call.isItem_of_mem (fun s hs => ?_) hparts, rfl⟩
  exact h.isSound_slots c s (List.mem_of_mem_filter hs)

end Payload

/-! ## Dispatched calls -/

/-- A request is accepted when its name resolves and its arguments pass. -/
theorem accept_eq_ok_iff {function args : Option Text} {c : Callee} {p : Payload} :
    accept function args = .ok (c, p) ↔
      Callee.resolve function = .ok c ∧ Payload.ofText c args = .ok p := by
  unfold accept
  rw [Outcome.bind_eq_ok_iff]
  constructor
  · rintro ⟨c', hc, h⟩
    obtain ⟨p', hp, h⟩ := Outcome.bind_eq_ok_iff.mp h
    obtain ⟨rfl, rfl⟩ := Prod.mk.inj (Except.ok.inj h)
    exact ⟨Outcome.mapError_eq_ok_iff.mp hc, hp⟩
  · rintro ⟨hc, hp⟩
    refine ⟨c, Outcome.mapError_eq_ok_iff.mpr hc, ?_⟩
    rw [hp]
    rfl

/-- What a dispatched call comes from. -/
theorem exists_of_dispatch {function args : Option Text} {level : LogLevel} {r : Dispatched}
    (h : dispatch function args level = .ok r) :
    Callee.resolve function = .ok r.callee
      ∧ ∃ p, Payload.ofText r.callee args = .ok p ∧ p.statement r.callee = .ok r.query
        ∧ p.echo = .ok r.request ∧ r.lines = callLines r.callee p r.query r.request level := by
  obtain ⟨⟨c, p⟩, haccept, h⟩ := Outcome.bind_eq_ok_iff.mp h
  obtain ⟨hc, hp⟩ := accept_eq_ok_iff.mp (Outcome.mapError_eq_ok_iff.mp haccept)
  obtain ⟨query, hquery, h⟩ := Outcome.bind_eq_ok_iff.mp h
  obtain ⟨request, hrequest, h⟩ := Outcome.bind_eq_ok_iff.mp h
  obtain rfl := Except.ok.inj h
  exact ⟨hc, p, hp, Outcome.mapError_eq_ok_iff.mp hquery,
    Outcome.mapError_eq_ok_iff.mp hrequest, rfl⟩

/-- **A dispatched statement selects one call of a known function**: behind
the name its parentheses balance, its literals are closed, no semicolon stands
outside of them, and the parenthesis behind the name closes at the very end. -/
theorem dispatch_singleCall {function args : Option Text} {level : LogLevel} {r : Dispatched}
    (h : dispatch function args level = .ok r) :
    ∃ call inside, r.query = "select ".toText ++ call ++ " as response".toText
      ∧ Sql.isSingleCall call = true
      ∧ call = r.callee.sqlName ++ "(".toText ++ inside ++ ")".toText
      ∧ Sql.Balanced true inside ∧ r.callee.sqlName ∈ Callee.sqlNames := by
  obtain ⟨hc, p, hp, hquery, -, -⟩ := exists_of_dispatch h
  have name := Callee.sqlName_mem_of_resolve hc
  have valid := (Payload.valid_of_ofText hp).1
  obtain ⟨parts, -, items, heq⟩ := valid.exists_of_statement hquery
  have balanced := Sql.balanced_join items
  refine ⟨_, Text.join ", ".toText parts, heq, ?_, rfl, balanced, name⟩
  have single := Sql.isSingleCall_append (w := []) (Callee.isName_of_mem_sqlNames _ name)
    (fun _ hd => absurd hd List.not_mem_nil) balanced
  rw [List.append_assoc, List.append_assoc]
  exact single

/-- An expression and an object that look like the end of the call. -/
theorem dispatch_singleCall_extract :
    ∃ r, dispatch (some "ai_extract".toText)
        (some ("\x7b\"response_format\":\x7b\"a;\":\"it's (\"\x7d,".toText
          ++ "\"file\":\" TO_FILE('@s', 'a)b''') \"\x7d".toText)) .minimal = .ok r
      ∧ r.query = "select AI_EXTRACT(file => TO_FILE('@s', 'a)b'''), ".toText
          ++ "responseFormat => PARSE_JSON('\x7b\"a;\":\"it''s (\"\x7d')) as response".toText
      ∧ ∃ call inside, r.query = "select ".toText ++ call ++ " as response".toText
        ∧ Sql.isSingleCall call = true
        ∧ call = r.callee.sqlName ++ "(".toText ++ inside ++ ")".toText
        ∧ Sql.Balanced true inside ∧ r.callee.sqlName ∈ Callee.sqlNames := by
  have query : (dispatch (some "ai_extract".toText)
        (some ("\x7b\"response_format\":\x7b\"a;\":\"it's (\"\x7d,".toText
          ++ "\"file\":\" TO_FILE('@s', 'a)b''') \"\x7d".toText)) .minimal).toOption.map
        Dispatched.query
      = some ("select AI_EXTRACT(file => TO_FILE('@s', 'a)b'''), ".toText
          ++ "responseFormat => PARSE_JSON('\x7b\"a;\":\"it''s (\"\x7d')) as response".toText) := by
    decide +kernel
  obtain ⟨r, hr, hquery⟩ := Option.map_eq_some_iff.mp query
  have returned := toOption_eq_some_iff.mp hr
  exact ⟨r, returned, hquery, dispatch_singleCall returned⟩

end CortexCall
