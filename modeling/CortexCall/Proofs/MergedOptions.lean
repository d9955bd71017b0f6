import CortexCall.Proofs.DeterminedPayload
import CortexCall.Proofs.SettledPayload

/-!
# What the older form passes of its options

The older form of a completion has one place for two things that are supplied
apart, the model parameters and the response format. Both are put into one
object, the response format under its own name. Whoever supplies them expects
to find every one of them in that object, and does, with one exception:
nothing keeps a model parameter from having the name of the response format,
and then the response format takes its place and the parameter is gone.

How the object is looked up says all of it: `Request.IsMerged`.
Whether anything is lost – `legacyCall_keepsSupplied_iff` – is then a matter of
that one name.
-/

namespace CortexCall

/-! ## What is supplied and what is passed -/

namespace Request

/-- The model parameters that are supplied, under either of their names. -/
def suppliedParameters (m : Members) : Members :=
  match m.present.anyOf ["model_parameters".toText, "options".toText] with
  | some (.obj parameters) => parameters
  | _ => []

/-- The response format, if one is supplied. -/
def suppliedFormat? (m : Members) : Option Json := m.present.get? "response_format".toText

/-- **Whether an object keeps what is supplied**: every model parameter under its
own name, and the response format under the name of its field. -/
structure KeepsSupplied (m passed : Members) : Prop where
  parameters : ∀ n v, (n, v) ∈ suppliedParameters m → passed.get? n = some v
  format : ∀ v, suppliedFormat? m = some v → passed.get? "response_format".toText = some v

/-- **How an object is looked up in which both are merged**: under the name of the
response format it has the response format, if one is supplied, and otherwise it
has every model parameter under its own name, and nothing else. -/
def IsMerged (m passed : Members) : Prop :=
  ∀ n, passed.get? n = if n = "response_format".toText then
      (suppliedFormat? m).or ((suppliedParameters m).get? n)
    else (suppliedParameters m).get? n

end Request

/-- Whether a callee takes its arguments in the older form. -/
def Callee.IsOlder (c : Callee) : Prop := c.isLegacy = true ∧ c.function = .complete

/-- The members of the object that a call passes in a place, counted from zero;
there are none if it passes nothing there. -/
def Sql.Call.objectAt (c : Sql.Call) (i : ℕ) : Members :=
  match c.present[i]? with
  | some ⟨_, .value (.obj members)⟩ => members
  | _ => []

/-! ## How the object is looked up -/

/-- A field for any object holds the object that is given for it. -/
theorem Kind.eq_of_check_object {j : Json} {v : Value} (h : Kind.object.check j = .ok v) :
    ∃ members, j = .obj members ∧ v = .json (.obj members) := by
  cases j with
  | obj members => exact ⟨members, rfl, (Except.ok.inj h).symm⟩
  | _ => cases h

namespace Payload

variable {c : Callee} {p : Payload} {m : Members}

/-- An object field of a payload is what is given for it, and it is an object. -/
theorem get?_object {q : Parameter} {given : Parameter → Option Json} {ps : List Parameter}
    (taken : p.entries.Taken given ps) (hps : (ps.map Parameter.field).Nodup) (hq : q ∈ ps)
    (hkind : q.kind = .object) : p.get? q.field = (given q).map .json
      ∧ ∀ j, given q = some j → ∃ members, j = .obj members := by
  cases hj : given q with
  | none => exact ⟨taken.get?_eq_none hps hq hj, nofun⟩
  | some j =>
    obtain ⟨v, hv, found⟩ := taken.exists_get? hps hq hj
    obtain ⟨members, rfl, rfl⟩ := Kind.eq_of_check_object (hkind ▸ hv)
    refine ⟨found, ?_⟩
    rintro _ ⟨⟩
    exact ⟨members, rfl⟩

section Completion

variable (taken : p.entries.Taken (fun q => q.given m) AiFunction.complete.parameters)

include taken

/-- The model parameters of a payload are those that are supplied. -/
theorem membersOf_modelParameters :
    p.membersOf .modelParameters = Request.suppliedParameters m := by
  obtain ⟨found, object⟩ := get?_object (q := .optional .modelParameters .object ["options".toText])
    taken (AiFunction.parameters_nodup _) (by decide) rfl
  have hget : p.get? .modelParameters
      = (m.present.anyOf ["model_parameters".toText, "options".toText]).map .json := found
  unfold membersOf Request.suppliedParameters
  rw [hget]
  cases hj : m.present.anyOf ["model_parameters".toText, "options".toText] with
  | none => rfl
  | some j =>
    obtain ⟨members, rfl⟩ := object j hj
    rfl

/-- The response format of a payload is the one that is supplied. -/
theorem get?_responseFormat :
    p.get? .responseFormat = (Request.suppliedFormat? m).map .json := by
  obtain ⟨found, -⟩ := get?_object (q := .optional .responseFormat .object [])
    taken (AiFunction.parameters_nodup _) (by decide) rfl
  have given : (Parameter.optional .responseFormat .object []).given m
      = Request.suppliedFormat? m := Members.anyOf_singleton _ _
  rw [given] at found
  exact found

/-- **The options of the older form are what is supplied, merged.** -/
theorem isMerged_mergedOptions : Request.IsMerged m p.mergedOptions := by
  intro n
  unfold mergedOptions
  rw [get?_responseFormat taken, membersOf_modelParameters taken]
  cases Request.suppliedFormat? m with
  | none => exact (ite_self _).symm
  | some v =>
    dsimp only [Option.map_some, Option.some_or]
    rw [Members.get?_insert]
    exact ite_congr (propext eq_comm) (fun _ => rfl) fun _ => rfl

end Completion

theorem callFor_of_isOlder (h : c.IsOlder) (p : Payload) :
    p.callFor c = p.legacyCall c.sqlName := by
  unfold callFor
  rw [h.1, h.2]
  rfl

/-- **The object in the third place of the older form** is the merged options. -/
theorem Valid.objectAt_callFor (h : p.Valid) (hf : p.function = .complete) (older : c.IsOlder) :
    (p.callFor c).objectAt 2 = p.mergedOptions := by
  unfold Sql.Call.objectAt
  rw [callFor_of_isOlder older, h.present_legacyCall hf]
  unfold givenOptions?
  rw [← p.mergedOptions_eq]
  split_ifs with hempty
  · exact (p.mergedOptions_eq_nil_iff.mpr hempty).symm
  · rfl

end Payload

/-! ## Whether anything is lost -/

namespace Request

variable {args : Option Text} {m passed : Members}

/-- No model parameter is supplied twice. -/
theorem nodup_suppliedParameters (h : object? args = some m) :
    (suppliedParameters m).names.Nodup := by
  unfold suppliedParameters
  split
  · next parameters hparameters =>
    obtain ⟨n, -, hmem⟩ := Members.exists_mem_of_anyOf hparameters
    have regular := (object?_eq_some_iff.mp h).isRegular
    have member := Json.membersRegular_iff.mp regular.2 _ (List.mem_of_mem_filter hmem)
    exact member.1
  · exact List.nodup_nil

/-- **An object that is looked up like the merged options keeps what is supplied**
exactly if a model parameter with the name of the response format is the response
format that is supplied. -/
theorem keepsSupplied_iff (distinct : (suppliedParameters m).names.Nodup)
    (merged : IsMerged m passed) :
    KeepsSupplied m passed ↔ ∀ v w, suppliedFormat? m = some v →
      (suppliedParameters m).get? "response_format".toText = some w → w = v := by
  have format : ∀ v, suppliedFormat? m = some v →
      passed.get? "response_format".toText = some v := by
    intro v hv
    rw [merged, if_pos rfl, hv, Option.some_or]
  constructor
  · intro keeps v w hv hw
    have kept := keeps.parameters _ w (Members.mem_of_get? hw)
    exact Option.some.inj (kept.symm.trans (format v hv))
  · refine fun same => ⟨fun n w hw => ?_, format⟩
    have found : (suppliedParameters m).get? n = some w := Members.get?_of_mem distinct hw
    rw [merged]
    split_ifs with hn
    · subst hn
      cases hv : suppliedFormat? m with
      | none => exact found
      | some v => rw [same v w hv found, Option.some_or]
    · exact found

end Request

/-- **What the older form passes of its options.** Of an accepted request in the
older form, the object in the third place of the call is what is supplied, merged.
All that is supplied is in it unless a response format and a model parameter of
that name are supplied and differ; then the model parameter is lost. -/
theorem legacyCall_keepsSupplied_iff {function args : Option Text} {c : Callee} {p : Payload}
    (h : accept function args = .ok (c, p)) (legacy : c.isLegacy = true) :
    ∃ m, Request.object? args = some m
      ∧ Request.IsMerged m ((p.callFor c).objectAt 2)
      ∧ (Request.KeepsSupplied m ((p.callFor c).objectAt 2)
        ↔ ∀ v w, Request.suppliedFormat? m = some v →
          (Request.suppliedParameters m).get? "response_format".toText = some w → w = v) := by
  obtain ⟨hc, hp⟩ := accept_eq_ok_iff.mp h
  have complete := Callee.function_of_isLegacy hc legacy
  obtain ⟨valid, hf⟩ := Payload.valid_of_ofText hp
  obtain ⟨m, hobject, taken⟩ := Payload.exists_of_ofText hp
  rw [complete] at hf taken
  have merged := Payload.isMerged_mergedOptions taken
  rw [valid.objectAt_callFor hf ⟨legacy, complete⟩]
  exact ⟨m, hobject, merged,
    Request.keepsSupplied_iff (Request.nodup_suppliedParameters hobject) merged⟩

/-- The members of a completion with a temperature among its options, and a
response format. -/
def formatBesideOptions : Members :=
  [("model".toText, .str "m".toText), ("prompt".toText, .str "p".toText),
   ("options".toText, .obj [("temperature".toText, .int 0)]),
   ("response_format".toText, .obj [("type".toText, .str "json".toText)])]

/-- A temperature and a response format are both passed. -/
theorem legacyCall_keepsSupplied_iff_options :
    ∃ c p m, accept (some Callee.legacyName)
        (some ((Json.obj formatBesideOptions).print .spaced)) = .ok (c, p)
      ∧ c.isLegacy = true
      ∧ Request.object? (some ((Json.obj formatBesideOptions).print .spaced)) = some m
      ∧ Request.suppliedParameters m = [("temperature".toText, .int 0)]
      ∧ Request.KeepsSupplied m ((p.callFor c).objectAt 2) := by
  have callee : (accept (some Callee.legacyName)
      (some ((Json.obj formatBesideOptions).print .spaced))).toOption.map Prod.fst
      = some ⟨.complete, Callee.legacyName⟩ := by
    decide +kernel
  obtain ⟨⟨c, p⟩, hr, rfl⟩ := Option.map_eq_some_iff.mp callee
  have accepted := toOption_eq_some_iff.mp hr
  have hobject : Request.object? (some ((Json.obj formatBesideOptions).print .spaced))
      = some formatBesideOptions := by
    have zero : (Json.int 0).IsRegular := Nat.pow_pos (by decide)
    refine Request.object?_print ?_ rfl
    exact ⟨by decide, trivial, trivial, ⟨by decide, zero, trivial⟩,
      ⟨by decide, trivial, trivial⟩, trivial⟩
  obtain ⟨m, hm, -, keeps⟩ := legacyCall_keepsSupplied_iff accepted rfl
  obtain rfl := Option.some.inj (hobject.symm.trans hm)
  refine ⟨_, p, _, accepted, rfl, hobject, rfl, keeps.mpr fun v w _ hw => ?_⟩
  cases hw

/-- The members of a completion with a response format among its model
parameters, and another response format. -/
def twoFormats : Members :=
  [("model".toText, .str "m".toText), ("prompt".toText, .str "p".toText),
   ("model_parameters".toText,
     .obj [("response_format".toText, .obj [("type".toText, .str "text".toText)])]),
   ("response_format".toText, .obj [("type".toText, .str "json".toText)])]

/-- The statement that is made of them. -/
def oneFormat : Text :=
  "select SNOWFLAKE.CORTEX.COMPLETE('m', 'p', ".toText
    ++ "PARSE_JSON('\x7b\"response_format\":\x7b\"type\":\"json\"\x7d\x7d'))".toText
    ++ " as response".toText

/-- **A response format takes the place of a model parameter of its name**: the
request is accepted and sent, and the parameter is not in what is sent. -/
theorem not_keepsSupplied_twoFormats :
    ∃ c p, accept (some Callee.legacyName)
        (some ((Json.obj twoFormats).print .spaced)) = .ok (c, p)
      ∧ p.statement c = .ok oneFormat
      ∧ Request.object? (some ((Json.obj twoFormats).print .spaced)) = some twoFormats
      ∧ ¬ Request.KeepsSupplied twoFormats ((p.callFor c).objectAt 2) := by
  have query : (accept (some Callee.legacyName)
      (some ((Json.obj twoFormats).print .spaced))).toOption.map
        (fun r => (r.1, (r.2.statement r.1).toOption))
      = some (⟨.complete, Callee.legacyName⟩, some oneFormat) := by
    decide +kernel
  obtain ⟨⟨c, p⟩, hr, h⟩ := Option.map_eq_some_iff.mp query
  obtain ⟨rfl, hsql⟩ := Prod.mk.inj h
  have accepted := toOption_eq_some_iff.mp hr
  have hobject : Request.object? (some ((Json.obj twoFormats).print .spaced))
      = some twoFormats := by
    refine Request.object?_print ?_ rfl
    exact ⟨by decide, trivial, trivial,
      ⟨by decide, ⟨by decide, trivial, trivial⟩, trivial⟩, ⟨by decide, trivial, trivial⟩, trivial⟩
  refine ⟨_, p, accepted, toOption_eq_some_iff.mp hsql, hobject, fun keeps => ?_⟩
  have lost := keeps.parameters "response_format".toText
    (.obj [("type".toText, .str "text".toText)]) List.mem_cons_self
  have kept := keeps.format (.obj [("type".toText, .str "json".toText)]) rfl
  have same := congrArg (Option.map (Json.print .compact)) (lost.symm.trans kept)
  exact absurd same (by decide)

end CortexCall
