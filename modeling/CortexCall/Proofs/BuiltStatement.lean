import CortexCall.Proofs.MergedOptions
import CortexCall.Proofs.RepeatedDispatch

/-!
# When a statement is built

A payload of a function has a statement under every name that SQL may be given
for it, with two exceptions: a number that the call passes may be infinite, and
then there is no text for it; and a value may nest deeper than its writer may
be, who then gives up. No argument is ever of a sort that has no form in SQL,
whatever `null` stands among the members it was made of. Given to another
function, or to a name that is no function's, the payload has no statement, and
nothing of it is looked at.

Which values a call passes is not quite which values are given. The older form
has no place for details, and it passes the model parameters one by one, beside
the response format and all of them inside one more object; so a model parameter
that the response format replaces is not passed, and neither an infinite number
in it nor its depth does any harm – `Payload.Passes`.
-/

namespace CortexCall

/-- **The values that a call passes**, each with the number of containers that it
is put into: the value of each field that is given; in the older form the model
and the prompt, and inside the options the response format and the model
parameters, except that a response format replaces the one of its name. -/
inductive Payload.Passes (c : Callee) (p : Payload) : ℕ → Json → Prop
  | field {f : Field} {v : Value} (given : p.get? f = some v)
      (known : c.IsOlder → f = .model ∨ f = .prompt) : Passes c p 0 v.toArgument.toJson
  | format {v : Value} (older : c.IsOlder) (given : p.get? .responseFormat = some v) :
      Passes c p 1 v.toJson
  | parameter {n : Text} {v : Json} (older : c.IsOlder)
      (member : (n, v) ∈ p.membersOf .modelParameters)
      (kept : n = Field.responseFormat.name → p.has .responseFormat = false) : Passes c p 1 v

/-- An argument is finite if its value is, since a file is passed as a text. -/
theorem Value.allFinite_toArgument_iff (v : Value) :
    v.toArgument.toJson.allFinite = true ↔ v.toJson.allFinite = true := by
  cases v with
  | file f => exact iff_of_true rfl (allFinite_toJson nofun)
  | _ => exact Iff.rfl

namespace Payload

variable {c : Callee} {p : Payload}

/-! ## The merged options -/

section Merged

variable (distinct : (p.membersOf .modelParameters).names.Nodup)

include distinct

/-- **The members of the merged options** are the response format, if one is given,
and the model parameters that it does not replace. -/
theorem mem_mergedOptions_iff {n : Text} {v : Json} : (n, v) ∈ p.mergedOptions ↔
    (n = Field.responseFormat.name ∧ ∃ w, p.get? .responseFormat = some w ∧ v = w.toJson)
      ∨ (n, v) ∈ p.membersOf .modelParameters
        ∧ (n = Field.responseFormat.name → p.has .responseFormat = false) := by
  have has : p.has .responseFormat = (p.get? .responseFormat).isSome := rfl
  unfold mergedOptions
  rw [has]
  cases p.get? .responseFormat with
  | none => simp
  | some w =>
    have distinct' := Members.nodup_names_insert distinct Field.responseFormat.name w.toJson
    have found : ∀ {m : Members}, m.names.Nodup → ((n, v) ∈ m ↔ m.get? n = some v) :=
      fun hm => ⟨Members.get?_of_mem hm, Members.mem_of_get?⟩
    dsimp only
    rw [found distinct', found distinct, Members.get?_insert]
    by_cases hn : n = Field.responseFormat.name
    · rw [if_pos hn.symm]
      simp [hn, eq_comm]
    · rw [if_neg (Ne.symm hn)]
      simp [hn]

end Merged

/-! ## What is said of every value that is passed -/

section Passed

/- What is said of a value inside so many containers. -/
variable {P : ℕ → Json → Prop} (absent : P 0 .null)
  (inside : ∀ {m : Members}, m ≠ [] → (P 0 (.obj m) ↔ ∀ e ∈ m, P 1 e.2))

include absent

theorem holds_argument_iff (f : Field) : P 0 (p.argument f).toJson
    ↔ ∀ v, p.get? f = some v → P 0 v.toArgument.toJson := by
  cases hv : p.get? f with
  | none =>
    unfold argument
    rw [hv]
    exact iff_of_true absent nofun
  | some w =>
    rw [argument_of_get? hv]
    refine ⟨?_, fun hw => hw w rfl⟩
    rintro hw _ ⟨⟩
    exact hw

include inside

/-- The options of the older form hold what is said if the merged options do. -/
theorem holds_options_iff : P 0 (p.legacyOptions.getD .null) ↔ ∀ e ∈ p.mergedOptions, P 1 e.2 := by
  unfold legacyOptions
  split_ifs with hempty
  · rw [List.isEmpty_iff.mp hempty]
    exact iff_of_true absent nofun
  · exact inside fun hnil => hempty (List.isEmpty_iff.mpr hnil)

/-- **What the older form passes** is in the model, the prompt and the merged
options. -/
theorem forall_slots_older_iff (distinct : (p.membersOf .modelParameters).names.Nodup)
    (older : c.IsOlder) : (∀ s ∈ (p.callFor c).slots, P 0 s.argument.toJson)
      ↔ ∀ k v, p.Passes c k v → P k v := by
  have slots : (∀ s ∈ (p.callFor c).slots, P 0 s.argument.toJson)
      ↔ P 0 (p.argument .model).toJson ∧ P 0 (p.argument .prompt).toJson
        ∧ ∀ e ∈ p.mergedOptions, P 1 e.2 := by
    rw [← holds_options_iff absent inside, callFor_of_isOlder older]
    simp [legacyCall, Sql.Call.positional, Sql.Argument.toJson]
  rw [slots, holds_argument_iff absent, holds_argument_iff absent]
  constructor
  · rintro ⟨model, prompt, merged⟩ k v hv
    cases hv with
    | field given known =>
      obtain rfl | rfl := known older
      · exact model _ given
      · exact prompt _ given
    | format _ given =>
      exact merged (_, _) ((mem_mergedOptions_iff distinct).mpr (.inl ⟨rfl, _, given, rfl⟩))
    | parameter _ member kept =>
      exact merged (_, _) ((mem_mergedOptions_iff distinct).mpr (.inr ⟨member, kept⟩))
  · intro passed
    refine ⟨fun v hv => passed _ _ (.field hv fun _ => .inl rfl),
      fun v hv => passed _ _ (.field hv fun _ => .inr rfl), ?_⟩
    rintro ⟨n, v⟩ hv
    obtain ⟨-, w, hw, rfl⟩ | ⟨member, kept⟩ := (mem_mergedOptions_iff distinct).mp hv
    · exact passed _ _ (.format older hw)
    · exact passed _ _ (.parameter older member kept)

/-- **What is said of every argument** is said of every value that is passed. -/
theorem Valid.forall_slots_iff (h : p.Valid)
    (regular : ∀ {f v}, p.get? f = some v → v.IsRegular) :
    (∀ s ∈ (p.callFor c).slots, P 0 s.argument.toJson) ↔ ∀ k v, p.Passes c k v → P k v := by
  by_cases older : c.IsOlder
  · exact forall_slots_older_iff absent inside (isRegular_membersOf regular _).1 older
  · -- every field that is given has its slot, by key or by position
    have slots : (∀ s ∈ (p.callFor c).slots, P 0 s.argument.toJson)
        ↔ ∀ s ∈ p.function.passings, P 0 (p.argument s.field).toJson := by
      have other : ¬ (c.isLegacy && decide (c.function = .complete)) = true := by
        rwa [Bool.and_eq_true, decide_eq_true_iff]
      unfold callFor
      rw [if_neg other]
      exact List.forall_mem_map
    rw [slots]
    constructor
    · intro holds k v hv
      cases hv with
      | @field f w given _ =>
        obtain ⟨q, hq, rfl, -⟩ := h.conforms.exists_parameter given
        obtain ⟨s, hs, hfield⟩ := p.function.exists_passing q hq
        exact (holds_argument_iff absent q.field).mp (hfield ▸ holds s hs) w given
      | format isOlder _ => exact absurd isOlder older
      | parameter isOlder _ _ => exact absurd isOlder older
    · intro passed s _
      refine (holds_argument_iff absent s.field).mpr fun v hv => ?_
      exact passed _ _ (.field hv fun isOlder => absurd isOlder older)

end Passed

section Writers

variable (h : p.Valid) (regular : ∀ {f v}, p.get? f = some v → v.IsRegular)

include h regular

/-- **A payload can be sent** if every value that the call passes is finite. -/
theorem Valid.isSendable_iff : p.IsSendable c ↔ ∀ k v, p.Passes c k v → v.allFinite = true :=
  h.forall_slots_iff (P := fun _ v => v.allFinite = true) rfl
    (fun _ => Json.membersFinite_iff) regular

/-- A call nests as deep as the values that it passes and what it puts them into. -/
theorem Valid.nesting_le_iff (levels : ℕ) :
    (∀ s ∈ (p.callFor c).slots, s.argument.toJson.nesting ≤ levels)
      ↔ ∀ k v, p.Passes c k v → k + v.nesting ≤ levels := by
  rw [← h.forall_slots_iff (P := fun k v => k + v.nesting ≤ levels) (Nat.zero_le _) ?_ regular]
  · simp only [Nat.zero_add]
  · intro m hm
    have first : m.head hm ∈ m := List.head_mem hm
    simp only [Nat.zero_add, Json.nesting]
    cases levels with
    | zero => exact iff_of_false (by omega) fun all => absurd (all _ first) (by omega)
    | succ levels =>
      rw [Nat.succ_le_succ_iff, Json.membersNesting_le_iff]
      exact forall₂_congr fun e _ => by omega

/-- **A statement is built** if all that the call passes is finite, and nests no
deeper than the writer may be. -/
theorem Valid.exists_statementBy_iff (hf : p.function = c.function) (levels : ℕ) :
    (∃ sql, p.statementBy (Sql.jsonTextWithin levels) c = .ok sql)
      ↔ ∀ k v, p.Passes c k v → v.allFinite = true ∧ k + v.nesting ≤ levels := by
  have finite := h.isSendable_iff (c := c) regular
  have shallow := h.nesting_le_iff (c := c) regular levels
  rw [(h.screened_statementBy hf (Sql.demands_jsonTextWithin levels)).exists_ok_iff]
  constructor
  · intro met k v hv
    exact ⟨finite.mp (met _ .outOfRange rfl) k v hv, shallow.mp (met _ .tooDeep rfl) k v hv⟩
  · rintro passed _ reason rfl
    cases reason with
    | outOfRange => exact finite.mpr fun k v hv => (passed k v hv).1
    | tooDeep => exact shallow.mpr fun k v hv => (passed k v hv).2
    | unsupported sort => exact fun _ _ => trivial

/-- **A statement that is not built** fails for a value that the call passes. -/
theorem Valid.exists_passes_of_error (hf : p.function = c.function) {levels : ℕ} {e : BuildError}
    (he : p.statementBy (Sql.jsonTextWithin levels) c = .error e) :
    (e = .render .outOfRange ∧ ∃ k v, p.Passes c k v ∧ v.allFinite = false)
      ∨ (e = .render .tooDeep ∧ ∃ k v, p.Passes c k v ∧ levels < k + v.nesting) := by
  have finite := h.isSendable_iff (c := c) regular
  have shallow := h.nesting_le_iff (c := c) regular levels
  have unmet := (h.screened_statementBy hf (Sql.demands_jsonTextWithin levels)).not_met he
  push Not at unmet
  obtain ⟨reason, rfl, s, hs, failed⟩ := unmet
  cases reason with
  | outOfRange =>
    have infinite := mt finite.mpr fun all => failed (all s hs)
    push Not at infinite
    obtain ⟨k, v, hv, hfailed⟩ := infinite
    exact .inl ⟨rfl, k, v, hv, Bool.eq_false_iff.mpr hfailed⟩
  | tooDeep =>
    have deep := mt shallow.mpr fun all => failed (all s hs)
    push Not at deep
    exact .inr ⟨rfl, deep⟩
  | unsupported sort => exact absurd trivial failed

end Writers

end Payload

theorem AiFunction.ofName?_eq_none {name : Text} (h : ∀ g : AiFunction, name ≠ g.name) :
    ofName? name = none :=
  List.find?_eq_none.mpr fun g _ => by simpa using (h g).symm

/-- **When a statement is built.** A payload that is made of an object for a
function has a statement under the name of that function, whatever name SQL is
given, exactly if every value that the call passes is finite and, with what it is
put into, nests no deeper than its writer may be. Otherwise it is such a value
that the failure is about, and there is no other failure. Under the name of
another function the payload has no statement because it is not of that function,
and under any other name because there is no such function, whatever its values
are and whoever writes them. -/
theorem statementNamedBy_total {f : AiFunction} {m : Members} {p : Payload}
    (regular : (Json.obj m).IsRegular) (h : Payload.ofJson f (.obj m) = .ok p) (levels : ℕ)
    (sqlName : Text) :
    ((∃ sql, p.statementNamedBy (Sql.jsonTextWithin levels) f.name sqlName = .ok sql)
        ↔ ∀ k v, p.Passes ⟨f, sqlName⟩ k v → v.allFinite = true ∧ k + v.nesting ≤ levels)
      ∧ (∀ e, p.statementNamedBy (Sql.jsonTextWithin levels) f.name sqlName = .error e →
        (e = .render .outOfRange
            ∧ ∃ k v, p.Passes ⟨f, sqlName⟩ k v ∧ v.allFinite = false)
          ∨ (e = .render .tooDeep
            ∧ ∃ k v, p.Passes ⟨f, sqlName⟩ k v ∧ levels < k + v.nesting))
      ∧ (∀ write (g : AiFunction), g ≠ f →
        p.statementNamedBy write g.name sqlName = .error (.wrongRecord g f))
      ∧ ∀ write name, (∀ g : AiFunction, name ≠ g.name) →
        p.statementNamedBy write name sqlName = .error (.unknownFunction name) := by
  obtain ⟨valid, hf⟩ := Payload.valid_of_ofJson h
  have named : ∀ write (g : AiFunction),
      p.statementNamedBy write g.name sqlName = p.statementBy write ⟨g, sqlName⟩ := by
    intro write g
    unfold Payload.statementNamedBy
    rw [AiFunction.ofName?_name]
  have given : ∀ {g v}, p.get? g = some v → v.IsRegular := Payload.isRegular_of_ofJson regular h
  refine ⟨?_, fun e he => ?_, fun write g hg => ?_, fun write name hname => ?_⟩
  · rw [named]
    exact valid.exists_statementBy_iff given hf levels
  · rw [named] at he
    exact valid.exists_passes_of_error given hf he
  · rw [named, Payload.statementBy, hf, if_neg (Ne.symm hg)]
  · unfold Payload.statementNamedBy
    rw [AiFunction.ofName?_eq_none hname]

/-- The members of a completion with a `null`, and an infinite number in a model
parameter that the response format replaces. -/
def replacedInfinity : Members :=
  [("model".toText, .str "m".toText), ("prompt".toText, .str "p".toText),
   ("show_details".toText, .null),
   ("model_parameters".toText, .obj [("response_format".toText, .double (.infinite false))]),
   ("response_format".toText, .obj [])]

/-- What is replaced is not passed: there is a statement under the older name, for
a writer that may be inside the two objects, and none under the other one. -/
theorem statementNamedBy_total_replaced :
    ∃ p, (Json.obj replacedInfinity).IsRegular
      ∧ Payload.ofJson .complete (.obj replacedInfinity) = .ok p
      ∧ p.statementNamedBy (Sql.jsonTextWithin 2) "AI_COMPLETE".toText Callee.legacyName
        = .ok ("select SNOWFLAKE.CORTEX.COMPLETE('m', 'p', ".toText
          ++ "PARSE_JSON('\x7b\"response_format\":\x7b\x7d\x7d')) as response".toText)
      ∧ (∀ k v, p.Passes ⟨.complete, Callee.legacyName⟩ k v →
        v.allFinite = true ∧ k + v.nesting ≤ 2)
      ∧ p.statementNamedBy (Sql.jsonTextWithin 1) "AI_COMPLETE".toText Callee.legacyName
        = .error (.render .tooDeep)
      ∧ (∃ k v, p.Passes ⟨.complete, Callee.legacyName⟩ k v ∧ 1 < k + v.nesting)
      ∧ p.statementNamedBy (Sql.jsonTextWithin 2) "AI_COMPLETE".toText "AI_COMPLETE".toText
        = .error (.render .outOfRange)
      ∧ p.statementNamedBy Sql.jsonText "AI_EMBED".toText "AI_EMBED".toText
        = .error (.wrongRecord .embed .complete)
      ∧ p.statementNamedBy Sql.jsonText "COMPLETE".toText Callee.legacyName
        = .error (.unknownFunction "COMPLETE".toText) := by
  have regular : (Json.obj replacedInfinity).IsRegular :=
    ⟨by decide, trivial, trivial, trivial, ⟨by decide, trivial, trivial⟩,
      ⟨by decide, trivial⟩, trivial⟩
  have checked : Payload.ofJson .complete (.obj replacedInfinity) = .ok ⟨.complete,
      [(.model, .text "m".toText), (.prompt, .text "p".toText),
       (.modelParameters,
         .json (.obj [("response_format".toText, .double (.infinite false))])),
       (.responseFormat, .json (.obj []))]⟩ := rfl
  obtain ⟨built, -, -, unknown⟩ := statementNamedBy_total regular checked 2 Callee.legacyName
  obtain ⟨-, shallow, -, -⟩ := statementNamedBy_total regular checked 1 Callee.legacyName
  obtain ⟨-, own, -, -⟩ := statementNamedBy_total regular checked 2 "AI_COMPLETE".toText
  obtain ⟨-, -, wrong, -⟩ := statementNamedBy_total regular checked 2 "AI_EMBED".toText
  refine ⟨_, regular, checked, rfl, built.mp ⟨_, rfl⟩, rfl, ?_, rfl, wrong _ .embed nofun,
    unknown _ _ ?_⟩
  · obtain ⟨⟨⟩, -⟩ | ⟨-, deep⟩ := shallow _ rfl
    exact deep
  · intro g
    cases g <;> decide

/-- The members of a completion with a model parameter of so many arrays inside each
other. -/
def nestedParameter (n : ℕ) : Members :=
  [("model".toText, .str "m".toText), ("prompt".toText, .str "p".toText),
   ("model_parameters".toText, .obj [("a".toText, .nested n)])]

/-- The payload of such a completion. -/
def nestedPayload (n : ℕ) : Payload :=
  ⟨.complete, [(.model, .text "m".toText), (.prompt, .text "p".toText),
    (.modelParameters, .json (.obj [("a".toText, .nested n)]))]⟩

theorem isRegular_nestedParameter (n : ℕ) : (Json.obj (nestedParameter n)).IsRegular := by
  have names : ["model".toText, "prompt".toText, "model_parameters".toText].Nodup := by decide
  exact ⟨names, trivial, trivial, ⟨List.nodup_singleton _, Json.isRegular_nested n, trivial⟩,
    trivial⟩

/-- The newer form is not the older one. -/
theorem not_isOlder_complete : ¬ Callee.IsOlder ⟨.complete, "AI_COMPLETE".toText⟩ := fun older =>
  absurd older.1 (by decide)

/-- All that such a completion passes is finite. -/
theorem allFinite_of_passes_nestedPayload {n k : ℕ} {v : Json}
    (h : (nestedPayload n).Passes ⟨.complete, "AI_COMPLETE".toText⟩ k v) : v.allFinite = true := by
  cases h with
  | @field f w given known =>
    have member := Entries.mem_of_get? given
    simp only [nestedPayload, List.mem_cons, List.not_mem_nil, or_false, Prod.mk.injEq] at member
    obtain ⟨-, rfl⟩ | ⟨-, rfl⟩ | ⟨-, rfl⟩ := member
    · rfl
    · rfl
    · exact Json.membersFinite_iff.mpr (by simp)
  | format older _ => exact absurd older not_isOlder_complete
  | parameter older _ _ => exact absurd older not_isOlder_complete

/-- **No writer is deep enough for every payload**: whatever a writer may be
inside, some payload has no statement although all its numbers are finite. -/
theorem not_built_nestedParameter :
    ¬ ∃ levels, ∀ (f : AiFunction) (m : Members) (p : Payload) (sqlName : Text),
      (Json.obj m).IsRegular → Payload.ofJson f (.obj m) = .ok p →
      (∀ k v, p.Passes ⟨f, sqlName⟩ k v → v.allFinite = true) →
      ∃ sql, p.statementNamedBy (Sql.jsonTextWithin levels) f.name sqlName = .ok sql := by
  rintro ⟨levels, built⟩
  have regular := isRegular_nestedParameter levels
  have checked : Payload.ofJson .complete (.obj (nestedParameter levels))
      = .ok (nestedPayload levels) := rfl
  obtain ⟨valid, hf⟩ := Payload.valid_of_ofJson checked
  have returned := built .complete _ _ "AI_COMPLETE".toText regular checked
    fun _ _ => allFinite_of_passes_nestedPayload
  have passed := (valid.exists_statementBy_iff (Payload.isRegular_of_ofJson regular checked)
    (c := ⟨.complete, "AI_COMPLETE".toText⟩) hf levels).mp returned
  -- the object around the arrays is the container too many
  have shallow := (passed _ _ (.field (f := .modelParameters) rfl fun older =>
    absurd older not_isOlder_complete)).2
  simp [Value.toArgument, Sql.Argument.toJson, Value.toJson, Json.nesting, Json.membersNesting]
    at shallow

end CortexCall
