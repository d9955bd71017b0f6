import CortexCall.Proofs.DeterminedPayload
import CortexCall.Proofs.DispatchOutcome
import CortexCall.Proofs.SettledPayload

/-!
# A dispatch repeated from its own echo

What a dispatch returns can be given back to it: the name that SQL sees as the
function, and the printed echo as the arguments. `dispatch_echo` says what comes
of it. The call is dispatched again, for the same callee and with the same echo.
Its statement and its lines are the same exactly if the names in the objects of
free form are whole. A name that is not is passed on in the statement as it was
given and mended in the echo, so that the echo is the echo of another request.

One value needs care: a model parameter that a response format stands in for may
hold an infinite number, since it is not passed. It is `null` when it comes
back, and again it is not passed.
-/

namespace CortexCall

/-- **The name that SQL sees means the callee itself.** -/
theorem Callee.resolve_sqlName {raw : Option Text} {c : Callee} (h : resolve raw = .ok c) :
    resolve (some c.sqlName) = .ok c := by
  have listed : ∀ s ∈ spellings, resolve (some s.2.sqlName) = .ok s.2 := by
    decide +kernel
  obtain ⟨t, ht⟩ := exists_of_resolve h
  exact listed _ ht

/-- **The echo is accepted again**, with its values settled. -/
theorem accept_echo {function args : Option Text} {c : Callee} {p : Payload}
    (h : accept function args = .ok (c, p)) :
    accept (some c.sqlName) (some ((Json.obj p.echoMembers).print .spaced))
      = .ok (c, p.settled) := by
  obtain ⟨hc, hp⟩ := accept_eq_ok_iff.mp h
  exact accept_eq_ok_iff.mpr ⟨Callee.resolve_sqlName hc, Payload.ofText_echo hp⟩

/-- An object with a finite value inserted is finite. -/
theorem Json.membersFinite_insert {m : Members} (h : membersFinite m = true) (name : Text)
    {v : Json} (hv : v.allFinite = true) : membersFinite (m.insert name v) = true := by
  rw [membersFinite_iff] at h ⊢
  exact Members.forall_mem_insert (P := fun v => v.allFinite = true) h name hv

/-- A number that is not finite does not matter where another value is inserted. -/
theorem Json.insert_membersNullInfinite {m : Members} {name : Text} {v : Json}
    (h : membersFinite (m.insert name v) = true) :
    Members.insert (membersNullInfinite m) name v = m.insert name v := by
  induction m with
  | nil => rfl
  | cons p rest ih =>
    obtain ⟨n, w⟩ := p
    rw [membersNullInfinite, Members.insert, Members.insert]
    rw [Members.insert] at h
    split at h
    · next hn =>
      have finite : (Json.obj rest).allFinite = true := (Bool.and_eq_true_iff.mp h).2
      rw [if_pos hn, if_pos hn, Json.obj.inj (nullInfinite_eq_self finite)]
    · next hn =>
      obtain ⟨first, others⟩ := Bool.and_eq_true_iff.mp h
      rw [if_neg hn, if_neg hn, nullInfinite_eq_self first, ih others]

namespace Value

/-- The names in a value of free form are its own names. -/
theorem memberNames_json (j : Json) : (Value.json j).memberNames = j.ownNames := by
  cases j <;> rfl

theorem allFinite_toArgument {v : Value} (h : v.toJson.allFinite = true) :
    v.toArgument.toJson.allFinite = true := by
  cases v with
  | file f => rfl
  | _ => exact h

/-- **A value settles as it is** if its names are whole and its numbers finite. -/
theorem settled_eq_self {v : Value} (regular : v.IsRegular)
    (whole : ∀ n ∈ v.memberNames, n.isWhole = true) (finite : v.toJson.allFinite = true) :
    v.settled = v := by
  cases v with
  | json j =>
    rw [memberNames_json] at whole
    have same : j.nullInfinite = j := Json.nullInfinite_eq_self finite
    rw [settled, Json.settled_eq_nullInfinite (regular j rfl) whole, same]
  | _ => rfl

/-- The names of a settled value are whole. -/
theorem isWhole_of_mem_settled (v : Value) : ∀ n ∈ v.settled.memberNames, n.isWhole = true := by
  cases v with
  | json j =>
    show ∀ n ∈ (Value.json j.settled).memberNames, _
    rw [memberNames_json]
    exact Json.isWhole_of_mem_settled
  | _ => nofun

/-- A value that SQL cannot tell from the settled one is settled. -/
theorem Agrees.settled_eq {v : Value} (h : v.Agrees v.settled) : v.settled = v := by
  cases v with
  | json j =>
    generalize hw : (Value.json j).settled = w at h
    cases h
    rfl
  | _ => rfl

theorem IsShowable.settled {v : Value} (h : v.IsShowable) : v.settled.IsShowable := by
  cases v with
  | json j => exact isShowable_json_iff.mpr (Json.checkParts_settled (isShowable_json_iff.mp h))
  | _ => exact h

end Value

namespace Payload

variable {p : Payload} {c : Callee} {f : Field} {v : Value}

/-- **Whether the names in the objects of free form are whole.** -/
def HasWholeNames (p : Payload) : Prop :=
  ∀ f v, p.get? f = some v → ∀ n ∈ v.memberNames, n.isWhole = true

/-! ## The settled payload is sent and shown -/

theorem allFinite_argument_settled (p : Payload) (f : Field) :
    (p.settled.argument f).toJson.allFinite = true := by
  unfold argument
  rw [get?_settled]
  cases p.get? f with
  | none => rfl
  | some v => exact Value.allFinite_toArgument v.allFinite_settled

theorem membersFinite_membersOf_settled (p : Payload) (f : Field) :
    Json.membersFinite (p.settled.membersOf f) = true := by
  unfold membersOf
  rw [get?_settled]
  cases p.get? f with
  | none => rfl
  | some v =>
    rw [Option.map_some]
    split
    · next m hm =>
      have finite := v.allFinite_settled
      rw [Option.some.inj hm] at finite
      exact finite
    · rfl

/-- **A settled payload can be sent.** -/
theorem isSendable_settled (c : Callee) (p : Payload) : p.settled.IsSendable c := by
  have merged : Json.membersFinite p.settled.mergedOptions = true := by
    unfold mergedOptions
    rw [get?_settled]
    cases p.get? .responseFormat with
    | none => exact p.membersFinite_membersOf_settled _
    | some v =>
      exact Json.membersFinite_insert (p.membersFinite_membersOf_settled _) _ v.allFinite_settled
  intro s hs
  unfold callFor at hs
  split at hs
  · obtain ⟨a, ha, rfl⟩ := List.mem_map.mp hs
    simp only [List.mem_cons, List.not_mem_nil, or_false] at ha
    obtain rfl | rfl | rfl := ha
    · exact p.allFinite_argument_settled _
    · exact p.allFinite_argument_settled _
    · unfold legacyOptions
      split
      · rfl
      · exact merged
  · obtain ⟨g, -, rfl⟩ := List.mem_map.mp hs
    exact p.allFinite_argument_settled _

/-- **A payload that can be shown can be shown when it is settled.** -/
theorem IsShowable.settled (h : p.IsShowable) : p.settled.IsShowable :=
  List.forall_mem_map.mpr fun a ha => (h a ha).settled

/-- **The echo of a settled payload is the echo.** -/
theorem echoMembers_settled (regular : ∀ a ∈ p.entries, a.2.IsRegular) :
    p.settled.echoMembers = p.echoMembers := by
  unfold echoMembers Payload.settled
  rw [List.map_map]
  refine List.map_congr_left fun a ha => ?_
  show (a.1.name, a.2.settled.shown) = (a.1.name, a.2.shown)
  rw [Value.shown_eq, Value.shown_eq, Value.settled_settled (regular a ha)]

/-! ## What settling does not change -/

/-- What is said of a value, and of the settled value alike, is the same for a
settled payload. -/
theorem map_get?_settled {α : Type} (p : Payload) (f : Field) (g : Value → α)
    (hg : ∀ v, g v.settled = g v) : (p.settled.get? f).map g = (p.get? f).map g := by
  rw [get?_settled, Option.map_map]
  exact congrArg (Option.map · _) (funext hg)

theorem textOf_settled (p : Payload) (f : Field) : p.settled.textOf f = p.textOf f := by
  unfold textOf
  rw [get?_settled]
  cases p.get? f with
  | none => rfl
  | some v => cases v <;> rfl

theorem lengthOf_settled (p : Payload) (f : Field) : p.settled.lengthOf f = p.lengthOf f := by
  unfold lengthOf
  rw [p.map_get?_settled f Value.textLength fun v => by cases v <;> rfl]

/-- The argument of a field that holds a text is the same. -/
theorem Valid.argument_settled (h : p.Valid) {g : Field} (hg : ∃ q ∈ p.function.parameters,
    (q.kind = .term ∨ q.kind = .prose) ∧ q.field = g) : p.settled.argument g = p.argument g := by
  obtain ⟨q, hq, hkind, rfl⟩ := hg
  unfold argument
  rw [get?_settled]
  cases hv : p.get? q.field with
  | none => rfl
  | some v =>
    have admits := h.admits hq hv
    cases v with
    | json j =>
      obtain hk | hk := hkind
      · rw [hk] at admits
        exact admits.elim
      · rw [hk] at admits
        exact admits.elim
    | _ => rfl

/-- The numbers among the options that the older form passes are finite. -/
theorem IsSendable.membersFinite_mergedOptions (h : p.IsSendable c)
    (hc : (c.isLegacy && decide (c.function = .complete)) = true) :
    Json.membersFinite p.mergedOptions = true := by
  by_cases hempty : p.mergedOptions = []
  · rw [hempty]
    rfl
  · have passed : ⟨none, .value (.obj p.mergedOptions)⟩ ∈ (p.callFor c).slots := by
      unfold callFor legacyCall legacyOptions
      rw [if_pos hc, if_neg fun e => hempty (List.isEmpty_iff.mp e)]
      exact List.mem_cons_of_mem _ (List.mem_cons_of_mem _ List.mem_cons_self)
    exact h _ passed

/-! ## Names that are whole -/

section Whole

variable (regular : ∀ a ∈ p.entries, a.2.IsRegular) (whole : p.HasWholeNames)

include regular whole

/-- **A call by key or by position is made of values as they are**, so that there
is nothing to settle. -/
theorem settled_eq_self (h : p.Valid) (hc : (c.isLegacy && decide (c.function = .complete)) = false)
    (sendable : p.IsSendable c) : p.settled = p := by
  have nodup := h.conforms.nodup p.function.parameters_nodup
  have same : ∀ a ∈ p.entries, (a.1, a.2.settled) = a := by
    rintro ⟨f, v⟩ ha
    have hv : p.get? f = some v := Entries.get?_of_mem nodup ha
    obtain ⟨q, hq, hfield, -⟩ := h.conforms.exists_parameter hv
    obtain ⟨s, hs, hsfield⟩ := p.function.exists_passing q hq
    have passed : ⟨s.key, p.argument s.field⟩ ∈ (p.callFor c).slots := by
      unfold callFor
      rw [hc, if_neg Bool.false_ne_true]
      exact List.mem_map_of_mem hs
    have finite := sendable _ passed
    dsimp only at finite
    rw [hsfield, hfield, argument_of_get? hv] at finite
    refine Prod.ext rfl (Value.settled_eq_self (regular _ ha) (whole f v hv) ?_)
    cases v with
    | file g => exact Value.allFinite_toJson nofun
    | _ => exact finite
  show (⟨p.function, _⟩ : Payload) = p
  rw [List.map_congr_left same, List.map_id']

theorem membersOf_settled (f : Field) :
    p.settled.membersOf f = Json.membersNullInfinite (p.membersOf f) := by
  unfold membersOf
  rw [get?_settled]
  cases hv : p.get? f with
  | none => rfl
  | some v =>
    cases v with
    | json j =>
      have names := whole f _ hv
      rw [Value.memberNames_json] at names
      have settled := Json.settled_eq_nullInfinite (regular _ (Entries.mem_of_get? hv) j rfl) names
      rw [Option.map_some, Value.settled, settled]
      cases j with
      | obj m => rfl
      | double d => cases hd : d.isFinite <;> simp [Json.nullInfinite, hd, Json.membersNullInfinite]
      | _ => rfl
    | _ => rfl

/-- **The options of the older form are the same**, if their numbers are finite
where they are passed. -/
theorem mergedOptions_settled (finite : Json.membersFinite p.mergedOptions = true) :
    p.settled.mergedOptions = p.mergedOptions := by
  unfold mergedOptions at finite ⊢
  rw [get?_settled, membersOf_settled regular whole]
  cases hv : p.get? .responseFormat with
  | none =>
    rw [hv] at finite
    exact Json.obj.inj (Json.nullInfinite_eq_self (v := .obj _) finite)
  | some v =>
    rw [hv] at finite
    dsimp only at finite
    have inserted := Members.mem_of_get? ((Members.get?_insert (p.membersOf .modelParameters)
      Field.responseFormat.name Field.responseFormat.name v.toJson).trans (if_pos rfl))
    have value := Json.membersFinite_iff.mp finite _ inserted
    have same := Value.settled_eq_self (regular _ (Entries.mem_of_get? hv)) (whole _ v hv) value
    rw [Option.map_some, same]
    exact Json.insert_membersNullInfinite finite

/-- The names of a field are the same. -/
theorem namesOf_settled (f : Field) : p.settled.namesOf f = p.namesOf f := by
  unfold namesOf
  rw [get?_settled]
  cases hv : p.get? f with
  | none => rfl
  | some v =>
    cases v with
    | json j =>
      have names := whole f _ hv
      rw [Value.memberNames_json] at names
      have settled := Json.settled_eq_nullInfinite (regular _ (Entries.mem_of_get? hv) j rfl) names
      show (Value.json j.settled).memberNames = (Value.json j).memberNames
      rw [settled, Value.memberNames_json, Value.memberNames_json, Json.ownNames_nullInfinite]
    | _ => rfl

/-- **The summary of a completion is the same.** -/
theorem summary_settled (hf : p.function = .complete) : p.settled.summary = p.summary := by
  have hf' : p.settled.function = .complete := hf
  have details := p.map_get?_settled .showDetails
    (fun v => line "Show details".toText (flagText v)) fun v => by cases v <;> rfl
  unfold summary
  rw [hf, hf']
  dsimp only
  rw [textOf_settled, lengthOf_settled, namesOf_settled regular whole, has_settled, details]

/-- **The statement and the lines of a settled payload are the same**, if the
payload can be sent and its names are whole. -/
theorem statement_settled (h : p.Valid) (hf : p.function = c.function)
    (sendable : p.IsSendable c) :
    p.settled.statement c = p.statement c ∧ p.settled.summary = p.summary := by
  cases hc : c.isLegacy && decide (c.function = .complete) with
  | false =>
    rw [settled_eq_self regular whole h hc sendable]
    exact ⟨rfl, rfl⟩
  | true =>
    obtain ⟨-, hcomplete⟩ := Bool.and_eq_true_iff.mp hc
    have complete := hf.trans (of_decide_eq_true hcomplete)
    refine ⟨?_, summary_settled regular whole complete⟩
    have options := mergedOptions_settled regular whole (sendable.membersFinite_mergedOptions hc)
    have model := h.argument_settled (g := .model) (by rw [complete]; decide)
    have prompt := h.argument_settled (g := .prompt) (by rw [complete]; decide)
    have call : p.settled.callFor c = p.callFor c := by
      unfold callFor legacyCall legacyOptions
      rw [if_pos hc, if_pos hc, options, model, prompt]
    have function : p.settled.function = p.function := rfl
    unfold statement statementBy
    rw [call, function]

end Whole

/-! ## Names that are not whole -/

theorem isWhole_of_mem_membersOf_settled (p : Payload) (f : Field) :
    ∀ n ∈ (p.settled.membersOf f).names, n.isWhole = true := by
  unfold membersOf
  rw [get?_settled]
  cases p.get? f with
  | none => nofun
  | some v =>
    rw [Option.map_some]
    split
    · next m hm =>
      have names := v.isWhole_of_mem_settled
      rwa [Option.some.inj hm] at names
    · nofun

/-- The names of the options of a settled payload are whole. -/
theorem isWhole_of_mem_mergedOptions_settled (p : Payload) :
    ∀ n ∈ p.settled.mergedOptions.names, n.isWhole = true := by
  have parameters := p.isWhole_of_mem_membersOf_settled .modelParameters
  unfold mergedOptions
  split
  · intro n hn
    rw [Members.names_insert] at hn
    split at hn
    · exact parameters n hn
    · obtain hn | hn := List.mem_append.mp hn
      · exact parameters n hn
      · rw [List.mem_singleton.mp hn]
        exact Field.isWhole_name _
  · exact parameters

/-- The model parameters are among the options of the older form. -/
theorem names_membersOf_subset (p : Payload) :
    (p.membersOf .modelParameters).names ⊆ p.mergedOptions.names := by
  unfold mergedOptions
  split
  · rw [Members.names_insert]
    split
    · exact List.Subset.refl _
    · exact List.subset_append_left _ _
  · exact List.Subset.refl _

theorem mergedOptions_eq_of_legacyOptions {p' : Payload} (h : p.legacyOptions = p'.legacyOptions) :
    p.mergedOptions = p'.mergedOptions := by
  unfold legacyOptions at h
  split at h
  · next hempty =>
    split at h
    · next hempty' => rw [List.isEmpty_iff.mp hempty, List.isEmpty_iff.mp hempty']
    · cases h
  · split at h
    · cases h
    · exact Json.obj.inj (Option.some.inj h)

theorem get?_mergedOptions (hv : p.get? .responseFormat = some v) :
    p.mergedOptions.get? Field.responseFormat.name = some v.toJson := by
  unfold mergedOptions
  rw [hv]
  exact (Members.get?_insert ..).trans (if_pos rfl)

/-- **If the options of the older form do not change, their names are whole.** -/
theorem Valid.isWhole_of_mergedOptions (h : p.Valid) (hf : p.function = .complete)
    (same : p.mergedOptions = p.settled.mergedOptions) : p.HasWholeNames := by
  intro f v hv
  obtain ⟨q, hq, rfl, admits⟩ := h.conforms.exists_parameter hv
  rw [hf] at hq
  simp only [AiFunction.parameters, List.mem_cons, List.not_mem_nil, or_false] at hq
  cases v with
  | json j =>
    obtain rfl | rfl | rfl | rfl | rfl := hq
    · exact admits.elim
    · exact admits.elim
    · -- a model parameter is an option under its own name
      obtain ⟨m, rfl⟩ | ⟨items, rfl⟩ := admits.of_json
      · intro n hn
        have members : p.membersOf .modelParameters = m := by
          unfold membersOf
          have found : p.get? .modelParameters = some (.json (.obj m)) := hv
          rw [found]
        refine p.isWhole_of_mem_mergedOptions_settled n ?_
        rw [← same]
        exact p.names_membersOf_subset (members.symm ▸ hn)
      · exact admits.elim
    · -- a response format is an option as a whole
      have given : p.get? .responseFormat = some (.json j) := hv
      have settled : p.settled.get? .responseFormat = some (.json j.settled) := by
        rw [get?_settled, given]
        rfl
      have options := get?_mergedOptions given
      rw [same, get?_mergedOptions settled] at options
      have settles : j.settled = j := Option.some.inj options
      rw [Value.memberNames_json, ← settles]
      exact Json.isWhole_of_mem_settled
    · exact admits.elim
  | _ => nofun

/-- **A payload that has the statement of the settled one has whole names.** -/
theorem hasWholeNames_of_statement (h : p.Valid) (h' : p.settled.Valid)
    (hf : p.function = c.function) (hc : c.isLegacy = true → c.function = .complete)
    (regular : ∀ a ∈ p.entries, a.2.IsRegular) {sql : Text} (hsql : p.statement c = .ok sql)
    (hsql' : p.settled.statement c = .ok sql) : p.HasWholeNames := by
  have regularValue : ∀ {r : Payload}, (∀ a ∈ r.entries, a.2.IsRegular) →
      ∀ {f v}, r.get? f = some v → v.IsRegular := fun hr _ _ hv => hr _ (Entries.mem_of_get? hv)
  have regular' : ∀ a ∈ p.settled.entries, a.2.IsRegular :=
    List.forall_mem_map.mpr fun a ha => (regular a ha).settled
  have determined := h.determined h' hf hf hc (regularValue regular) (regularValue regular')
    hsql hsql'
  have settles : ∀ {v : Value}, v.settled = v → ∀ n ∈ v.memberNames, n.isWhole = true := by
    intro v hv n hn
    rw [← hv] at hn
    exact v.isWhole_of_mem_settled n hn
  intro f v hv
  cases hlegacy : c.isLegacy with
  | false =>
    obtain ⟨v', hv', agrees⟩ := (determined.1 hlegacy).exists_get? hv
    have hsettled : p.settled.get? f = some v.settled := by rw [get?_settled, hv]; rfl
    obtain rfl : v.settled = v' := Option.some.inj (hsettled.symm.trans hv')
    exact settles agrees.settled_eq
  | true =>
    obtain ⟨-, -, options⟩ := determined.2 hlegacy
    have same := mergedOptions_eq_of_legacyOptions options
    exact h.isWhole_of_mergedOptions (hf.trans (hc hlegacy)) same f v hv

end Payload

/-- The lines of a call do not change if its statement, its echo and its summary
do not. -/
theorem callLines_congr {c : Callee} {p p' : Payload} (h : p'.summary = p.summary) (sql : Text)
    (request : Json) (level : LogLevel) :
    callLines c p' sql request level = callLines c p sql request level := by
  cases level with
  | minimal => exact congrArg (_ :: ·) h
  | verbose => rfl

/-- **A dispatch can be repeated from its own echo.** The printed echo, given to
the name that SQL sees, is dispatched again, for the same callee and with the
same echo. All of the result is the same exactly if the names in the objects of
free form are whole. -/
theorem dispatch_echo {function args : Option Text} {level : LogLevel} {r : Dispatched}
    (h : dispatch function args level = .ok r) :
    ∃ p r', accept function args = .ok (r.callee, p)
      ∧ dispatch (some r.callee.sqlName) (some (r.request.print .spaced)) level = .ok r'
      ∧ r'.callee = r.callee ∧ r'.request = r.request ∧ (r' = r ↔ p.HasWholeNames) := by
  obtain ⟨p, accepted⟩ := exists_accept_of_dispatch h
  obtain ⟨showable, sql, hsql, hr⟩ := (dispatch_eq_ok_iff accepted).mp h
  obtain ⟨hc, hp⟩ := accept_eq_ok_iff.mp accepted
  obtain ⟨valid, hf⟩ := Payload.valid_of_ofText hp
  have regular := Payload.isRegular_of_mem hp
  have request : r.request = .obj p.echoMembers := by rw [hr]
  have again := accept_echo accepted
  rw [← request] at again
  have sent := p.isSendable_settled r.callee
  obtain ⟨r', hr'⟩ : ∃ r', dispatch (some r.callee.sqlName) (some (r.request.print .spaced)) level
      = .ok r' := dispatch_of_showable again sent showable.settled
  obtain ⟨-, sql', hsql', heq'⟩ := (dispatch_eq_ok_iff again).mp hr'
  rw [Payload.echoMembers_settled regular] at heq'
  refine ⟨p, r', accepted, hr', by rw [heq'], by rw [heq', request], fun same => ?_,
    fun whole => ?_⟩
  · have query : sql' = sql := by
      have queries := congrArg Dispatched.query same
      rwa [heq', hr] at queries
    subst query
    exact p.hasWholeNames_of_statement valid
      (Payload.valid_of_ofText (accept_eq_ok_iff.mp again).2).1 hf (Callee.function_of_isLegacy hc)
      regular hsql hsql'
  · have sendable : p.IsSendable r.callee := by
      by_contra unsendable
      rw [dispatch_of_not_sendable accepted unsendable] at h
      cases h
    obtain ⟨statement, summary⟩ := p.statement_settled regular whole valid hf sendable
    rw [statement, hsql] at hsql'
    rw [heq', hr, ← Except.ok.inj hsql', callLines_congr summary]

/-- Arguments of a classification with other spellings, `null`, blanks and a label
that stands twice. -/
def untidyArguments : Text :=
  "\x7b\"list_of_categories\": [\" a\", \x7b\"description\": null, ".toText
    ++ "\"label\": \"b \"\x7d, \"a\"], \"config\": null, \"input\": \x7b\"t\": 1.50\x7d\x7d".toText

/-- What is unified, dropped and cleaned the first time is echoed so. -/
theorem dispatch_echo_classify :
    ∃ r, dispatch (some "ai_classify ".toText) (some untidyArguments) .verbose = .ok r
      ∧ r.request.print .spaced
        = ("\x7b\"input\": \x7b\"t\": 1.5\x7d, ".toText
          ++ "\"categories\": [\"a\", \x7b\"label\": \"b\"\x7d]\x7d".toText)
      ∧ ∃ p r', accept (some "ai_classify ".toText) (some untidyArguments) = .ok (r.callee, p)
        ∧ dispatch (some r.callee.sqlName) (some (r.request.print .spaced)) .verbose = .ok r'
        ∧ r'.callee = r.callee ∧ r'.request = r.request ∧ (r' = r ↔ p.HasWholeNames) := by
  have printed : (dispatch (some "ai_classify ".toText) (some untidyArguments) .verbose
        ).toOption.map (fun r => r.request.print .spaced)
      = some ("\x7b\"input\": \x7b\"t\": 1.5\x7d, ".toText
          ++ "\"categories\": [\"a\", \x7b\"label\": \"b\"\x7d]\x7d".toText) := by
    decide +kernel
  obtain ⟨r, hr, hrequest⟩ := Option.map_eq_some_iff.mp printed
  have returned := toOption_eq_some_iff.mp hr
  exact ⟨r, returned, hrequest, dispatch_echo returned⟩

/-- Arguments of an extraction with two names that are halves of surrogate
pairs. -/
def halvedNames : Text :=
  "\x7b\"response_format\": \x7b\"\\ud800\": 1, \"\\udfff\": 2\x7d, \"text\": \"x\"\x7d".toText

/-- The echo of that extraction. -/
def mendedNames : Text :=
  "\x7b\"response_format\": \x7b\"\uFFFD\uFFFD\uFFFD\": 2\x7d, \"text\": \"x\"\x7d".toText

/-- **Two names that are mended alike become one**: the statement has two entries
the first time and one the second time. -/
theorem not_repeated_halvedNames :
    ∃ r, dispatch (some "AI_EXTRACT".toText) (some halvedNames) .minimal = .ok r
      ∧ dispatch (some r.callee.sqlName) (some (r.request.print .spaced)) .minimal ≠ .ok r := by
  have first : (dispatch (some "AI_EXTRACT".toText) (some halvedNames) .minimal).toOption.map
        (fun r => (r.callee.sqlName, r.request.print .spaced, r.lines.getLast?))
      = some ("AI_EXTRACT".toText, mendedNames,
          some "Response format entries: 2".toText) := by
    decide +kernel
  have second : (dispatch (some "AI_EXTRACT".toText) (some mendedNames) .minimal).toOption.map
        (fun r => r.lines.getLast?)
      = some (some "Response format entries: 1".toText) := by
    decide +kernel
  obtain ⟨r, hr, h⟩ := Option.map_eq_some_iff.mp first
  rw [Prod.mk.injEq, Prod.mk.injEq] at h
  obtain ⟨hname, hrequest, hlines⟩ := h
  refine ⟨r, toOption_eq_some_iff.mp hr, fun same => ?_⟩
  rw [hname, hrequest] at same
  rw [same] at second
  have counts := hlines.symm.trans (Option.some.inj second)
  exact absurd counts (by decide)

end CortexCall
