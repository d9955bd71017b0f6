import CortexCall.Proofs.BuiltStatement
import CortexCall.Proofs.EquivalentRequests

/-!
# The two forms of a completion

A completion can be called under its own name, where its arguments go by key, or
under its older name, where they go by position. Both forms take the same
arguments, and they check them alike: whatever is wrong is wrong for the same
reason at the same place, and only the name in the message is another –
`Payload.ofText_relabel`. What tells the forms apart is one check that the older
form makes last. It has no place for details, so it refuses to be asked for them.

`dispatch_forms_agree` says what follows for a dispatch. It returns under the older
name exactly if it returns under the other one and no details are asked for; and
then the echo is the same, the log is the same behind its first line, and the model
and the prompt are written the same way. Numbers that are infinite are left out,
because the forms do not pass the same values.
-/

namespace CortexCall

/-! ## Rejections under another name -/

namespace RequestError

/-- A rejection as it reads under another name of the function. -/
def relabel (function : Text) : RequestError → RequestError
  | .conflict _ field supplied => .conflict function field supplied
  | .invalid _ issue => .invalid function issue
  | .detailsUnsupported _ => .detailsUnsupported function
  | e => e

@[simp] theorem kind_relabel (function : Text) (e : RequestError) :
    (e.relabel function).kind = e.kind := by
  unfold relabel
  split <;> first | rfl | (next issue => cases issue <;> rfl)

@[simp] theorem field_relabel (function : Text) (e : RequestError) :
    (e.relabel function).field = e.field := by
  unfold relabel
  split <;> first | rfl | (next issue => cases issue <;> rfl)

end RequestError

/-- The words of an issue start with the name of the function. -/
theorem Issue.exists_message (i : Issue) :
    ∃ rest, ∀ function, i.message function = function ++ rest := by
  unfold message
  split
  · exact ⟨_, fun function => by rw [List.append_assoc, List.append_assoc]⟩
  · exact ⟨_, fun function => by rw [List.append_assoc, List.append_assoc]⟩
  · cases i.field with
    | none => exact ⟨_, fun function => by rw [List.append_assoc]⟩
    | some f =>
      refine ⟨": ".toText ++ (f ++ (" - ".toText ++ i.text)), fun function => ?_⟩
      dsimp only
      rw [List.append_assoc, List.append_assoc, List.append_assoc]

namespace RequestError

/-- **The words of a rejection** start with the name of the function, or do not
name it. -/
theorem exists_message_relabel (e : RequestError) :
    (∃ rest, ∀ function, (e.relabel function).message = function ++ rest)
      ∨ ∀ function, (e.relabel function).message = e.message := by
  cases e with
  | conflict _ field supplied =>
    refine .inl ⟨": provide only one of ".toText ++ (Text.join ", ".toText supplied ++ ".".toText),
      fun function => ?_⟩
    show function ++ _ ++ _ ++ _ = _
    rw [List.append_assoc, List.append_assoc]
  | invalid _ issue =>
    cases issue with
    | none => exact .inl ⟨_, fun function => rfl⟩
    | some i => exact .inl i.exists_message
  | detailsUnsupported _ => exact .inl ⟨_, fun function => rfl⟩
  | _ => exact .inr fun function => rfl

end RequestError

/-! ## The checks of both forms -/

namespace Members

/-- A table is unified for one function as for another. -/
theorem unifyFields_relabel (function other : Text) (m : Members) (table : SpellingTable) :
    m.unifyFields function table
      = (m.unifyFields other table).mapError (RequestError.relabel function) := by
  induction table generalizing m with
  | nil => rfl
  | cons row rest ih =>
    have step : m.unifyField function row.1 row.2
        = (m.unifyField other row.1 row.2).mapError (RequestError.relabel function) := by
      unfold unifyField
      split <;> rfl
    rw [unifyFields, unifyFields, step]
    cases m.unifyField other row.1 row.2 with
    | error e => rfl
    | ok m' => exact ih m'

end Members

/-- A text that is no object is so for every function. -/
theorem Request.relabel_of_readObject {label function : Text} {raw : Option Text}
    {e : RequestError} (h : readObject label raw = .error e) : e.relabel function = e := by
  rw [readObject_eq] at h
  split at h
  · obtain rfl := Except.error.inj h
    rfl
  · split at h
    · obtain rfl := Except.error.inj h
      rfl
    · cases h
    · obtain rfl := Except.error.inj h
      rfl

namespace Payload

variable {c c' : Callee} {args : Option Text} {p : Payload}

/-- **The same function checks the same text alike**, whatever it is called; the
older name asks once more whether details are asked for. -/
theorem ofText_relabel (hf : c.function = c'.function) (hc' : c'.isLegacy = false)
    (args : Option Text) : ofText c args
      = ((ofText c' args).mapError (RequestError.relabel c.sqlName)) >>= checkDetails c := by
  have plain : ∀ q : Payload, checkDetails c' q = .ok q := by
    intro q
    unfold checkDetails
    rw [hc']
    rfl
  cases hgiven : Request.readObject Request.argsLabel args with
  | error e =>
    have same : e.relabel c.sqlName = e := Request.relabel_of_readObject hgiven
    unfold ofText
    rw [hgiven]
    show (.error e : Except RequestError Payload) = .error (e.relabel c.sqlName)
    rw [same]
  | ok m =>
    have hm := object?_of_readObject hgiven
    have unified : m.unify c.sqlName c.function.spellings
        = (m.unify c'.sqlName c'.function.spellings).mapError (RequestError.relabel c.sqlName) := by
      rw [hf]
      exact Members.unifyFields_relabel _ _ _ _
    cases hu : m.unify c'.sqlName c'.function.spellings with
    | error e =>
      rw [hu] at unified
      rw [ofText_of_unify_error hm hu, ofText_of_unify_error hm unified]
      rfl
    | ok u =>
      rw [hu] at unified
      rw [ofText_of_unify hm hu, ofText_of_unify hm unified, hf]
      cases ofJson c'.function (.obj u) with
      | error i => rfl
      | ok p =>
        dsimp only
        rw [plain]
        rfl

end Payload

/-! ## How a dispatch ends -/

section Outcomes

variable {function args : Option Text} {level : LogLevel} {c : Callee}

/-- **A request is rejected** when its arguments are, once its name is known. -/
theorem dispatch_eq_request_iff (hc : Callee.resolve function = .ok c) {e : RequestError} :
    dispatch function args level = .error (.request e) ↔ Payload.ofText c args = .error e := by
  have accepted := accept_of_resolve hc args
  cases hp : Payload.ofText c args with
  | error e' =>
    rw [hp] at accepted
    rw [dispatch_of_rejected accepted]
    simp
  | ok p =>
    rw [hp] at accepted
    rw [dispatch_of_accepted accepted]
    refine iff_of_false (fun h => ?_) nofun
    -- what fails behind the checks is the statement or the echo
    obtain h | ⟨sql, -, h⟩ := Outcome.bind_eq_error_iff.mp h
    · cases hsql : p.statement c <;> rw [hsql] at h <;> cases h
    · obtain h | ⟨echo, -, h⟩ := Outcome.bind_eq_error_iff.mp h
      · cases hecho : p.echo <;> rw [hecho] at h <;> cases h
      · cases h

end Outcomes

/-- Whether no number in the arguments is infinite. -/
def Request.IsFinite (args : Option Text) : Prop :=
  ∀ m, object? args = some m → (Json.obj m).allFinite = true

namespace Payload

variable {c : Callee} {args : Option Text} {p : Payload}

/-- What is given in finite arguments is finite. -/
theorem allFinite_of_isFinite (h : ofText c args = .ok p) (finite : Request.IsFinite args)
    {f : Field} {v : Value} (hv : p.get? f = some v) : v.toJson.allFinite = true := by
  refine Value.allFinite_toJson ?_
  rintro j rfl
  obtain ⟨m, hobject, taken⟩ := exists_of_ofText h
  obtain ⟨q, -, -, j', hgiven, check⟩ := taken.exists_of_mem (Entries.mem_of_get? hv)
  obtain rfl := Kind.eq_of_check_json check
  obtain ⟨⟨n, hmem⟩, -⟩ := Parameter.exists_mem_of_given hgiven
  exact Json.membersFinite_iff.mp (finite m hobject) _ hmem

/-- **Finite arguments can be sent.** -/
theorem isSendable_of_isFinite (h : ofText c args = .ok p) (finite : Request.IsFinite args) :
    p.IsSendable c := by
  have valid := (valid_of_ofText h).1
  refine (valid.isSendable_iff (isRegular_of_ofText h)).mpr fun k v hv => ?_
  cases hv with
  | @field f w given _ =>
    exact w.allFinite_toArgument_iff.mpr (allFinite_of_isFinite h finite given)
  | format _ given => exact allFinite_of_isFinite h finite given
  | @parameter n v _ member _ =>
    unfold membersOf at member
    split at member
    · next m hm => exact Json.membersFinite_iff.mp (allFinite_of_isFinite h finite hm) _ member
    · exact absurd member List.not_mem_nil

end Payload

/-! ## The first two arguments -/

namespace Payload

variable {p : Payload} {name : Text} {parts : List Text}

/-- **The older form begins with the model and the prompt.** -/
theorem Valid.exists_parts_legacyCall (h : p.Valid) (hf : p.function = .complete)
    (hparts : (p.legacyCall name).present.mapM Sql.Slot.render = .ok parts) :
    ∃ model prompt rest, (p.argument .model).render = .ok model
      ∧ (p.argument .prompt).render = .ok prompt ∧ parts = model :: prompt :: rest := by
  rw [h.present_legacyCall hf, Sql.Slot.mapM_render_bare] at hparts
  obtain ⟨model, more, hmodel, hmore, rfl⟩ := List.forall₂_cons_left_iff.mp hparts
  obtain ⟨prompt, rest, hprompt, -, rfl⟩ := List.forall₂_cons_left_iff.mp hmore
  exact ⟨model, prompt, rest, hmodel, hprompt, rfl⟩

/-- **The form by key begins with the model and the prompt**, each behind its key. -/
theorem Valid.exists_parts_call (h : p.Valid) (hf : p.function = .complete)
    (hparts : (p.call name).present.mapM Sql.Slot.render = .ok parts) :
    ∃ model prompt rest, (p.argument .model).render = .ok model
      ∧ (p.argument .prompt).render = .ok prompt
      ∧ parts = ("model => ".toText ++ model) :: ("prompt => ".toText ++ prompt) :: rest := by
  have model := h.has_of_exists (f := .model) (by rw [hf]; decide)
  have prompt := h.has_of_exists (f := .prompt) (by rw [hf]; decide)
  have writes := h.forall₂_writes hparts
  rw [hf, AiFunction.passings,
    List.filter_cons_of_pos (a := Passing.byName .model) (p := fun s => p.has s.field) model,
    List.filter_cons_of_pos (a := Passing.byName .prompt) (p := fun s => p.has s.field) prompt]
    at writes
  obtain ⟨_, more, hmodel, hmore, rfl⟩ := List.forall₂_cons_left_iff.mp writes
  obtain ⟨_, rest, hprompt, -, rfl⟩ := List.forall₂_cons_left_iff.mp hmore
  obtain ⟨u, hu, rfl⟩ := writes_iff.mp hmodel
  obtain ⟨w, hw, rfl⟩ := writes_iff.mp hprompt
  exact ⟨u, w, rest, hu, hw, rfl⟩

end Payload

/-- **Statements that write the model and the prompt alike**: one as its first two
arguments, the other behind their keys. -/
def WritesAlike (older named : Text) : Prop :=
  ∃ inside inside' model prompt rest rest',
    older = Sql.selectResponse (Callee.legacyName ++ "(".toText ++ inside ++ ")".toText)
      ∧ named = Sql.selectResponse ("AI_COMPLETE".toText ++ "(".toText ++ inside' ++ ")".toText)
      ∧ Sql.splitArguments inside = model :: prompt :: rest
      ∧ Sql.splitArguments inside'
        = ("model => ".toText ++ model) :: ("prompt => ".toText ++ prompt) :: rest'

/-- The older form. -/
def Callee.older : Callee := ⟨.complete, legacyName⟩

theorem Callee.resolve_legacyName : resolve (some legacyName) = .ok older := by decide +kernel

theorem Callee.resolve_complete :
    resolve (some "AI_COMPLETE".toText) = .ok (ofFunction .complete) := by decide +kernel

theorem Payload.Valid.writesAlike {p : Payload} {sql sql' : Text} (h : p.Valid)
    (hf : p.function = .complete) (hsql : p.statement .older = .ok sql)
    (hsql' : p.statement (.ofFunction .complete) = .ok sql') : WritesAlike sql sql' := by
  obtain ⟨parts, hparts, items, heq⟩ := h.exists_of_statement hsql
  obtain ⟨parts', hparts', items', heq'⟩ := h.exists_of_statement hsql'
  obtain ⟨model, prompt, rest, hmodel, hprompt, rfl⟩ := h.exists_parts_legacyCall hf hparts
  obtain ⟨model', prompt', rest', hmodel', hprompt', rfl⟩ := h.exists_parts_call hf hparts'
  obtain rfl := Except.ok.inj (hmodel.symm.trans hmodel')
  obtain rfl := Except.ok.inj (hprompt.symm.trans hprompt')
  exact ⟨_, _, model, prompt, rest, rest', heq, heq',
    Sql.splitArguments_join items (List.cons_ne_nil _ _),
    Sql.splitArguments_join items' (List.cons_ne_nil _ _)⟩

theorem Callee.isLegacy_complete : (ofFunction .complete).isLegacy = false := by decide

/-- Whether an echo shows that no details are asked for. -/
def Json.ShowsNoDetails (echo : Json) : Prop :=
  ∃ members : Members, echo = .obj members ∧ members.get? "show_details".toText = none

theorem Payload.showsNoDetails_iff (p : Payload) :
    (Json.obj p.echoMembers).ShowsNoDetails ↔ p.has .showDetails = false := by
  have shown : p.echoMembers.get? "show_details".toText = (p.get? .showDetails).map Value.shown :=
    p.get?_echoMembers .showDetails
  have has : p.has .showDetails = (p.get? .showDetails).isSome := rfl
  rw [has, Option.isSome_eq_false_iff, Option.isNone_iff_eq_none]
  constructor
  · rintro ⟨members, ⟨⟩, absent⟩
    rw [shown, Option.map_eq_none_iff] at absent
    exact absent
  · intro absent
    exact ⟨_, rfl, by rw [shown, absent, Option.map_none]⟩

/-- **The older form takes what the form by key takes** and has no details. -/
theorem Payload.ofText_older (args : Option Text) : ofText .older args
    = ((ofText (.ofFunction .complete) args).mapError (RequestError.relabel Callee.legacyName))
      >>= checkDetails .older := by
  have function : Callee.older.function = (Callee.ofFunction .complete).function := rfl
  exact ofText_relabel function Callee.isLegacy_complete args

theorem Payload.ofText_older_eq_ok_iff {args : Option Text} {p : Payload} :
    ofText .older args = .ok p
      ↔ ofText (.ofFunction .complete) args = .ok p ∧ p.has .showDetails = false := by
  have legacy : Callee.older.isLegacy = true := by decide
  rw [ofText_older, Outcome.bind_eq_ok_iff]
  constructor
  · rintro ⟨q, hq, h⟩
    obtain ⟨rfl, details⟩ := checkDetails_eq_ok_iff.mp h
    rw [legacy, Bool.true_and] at details
    exact ⟨Outcome.mapError_eq_ok_iff.mp hq, details⟩
  · rintro ⟨hq, details⟩
    refine ⟨p, Outcome.mapError_eq_ok_iff.mpr hq, checkDetails_eq_ok_iff.mpr ⟨rfl, ?_⟩⟩
    rw [legacy, Bool.true_and, details]

/-- **What the form by key rejects the older form rejects**, in its own name. -/
theorem Payload.ofText_older_of_error {args : Option Text} {e : RequestError}
    (h : ofText (.ofFunction .complete) args = .error e) :
    ofText .older args = .error (e.relabel Callee.legacyName)
      ∧ e.relabel "AI_COMPLETE".toText = e := by
  constructor
  · rw [ofText_older, h]
    rfl
  · have own : ofText (.ofFunction .complete) args = _ :=
      ofText_relabel rfl Callee.isLegacy_complete args
    rw [h] at own
    exact (Except.error.inj own).symm

/-- **What only the older form rejects are details.** -/
theorem Payload.eq_of_ofText_older {args : Option Text} {p : Payload} {e : RequestError}
    (hp : ofText (.ofFunction .complete) args = .ok p) (h : ofText .older args = .error e) :
    e = .detailsUnsupported Callee.legacyName := by
  rw [ofText_older, hp] at h
  have refused : checkDetails .older p = .error e := h
  unfold checkDetails at refused
  split at refused
  · exact (Except.error.inj refused).symm
  · cases refused

/-! ## The dispatches of both forms -/

section Forms

variable {args : Option Text} {level : LogLevel} {r r' : Dispatched}

/-- What is dispatched under the older name is accepted under the other one. -/
theorem exists_accepted_of_older (h : dispatch (some Callee.legacyName) args level = .ok r) :
    ∃ p, accept (some Callee.legacyName) args = .ok (.older, p)
      ∧ accept (some "AI_COMPLETE".toText) args = .ok (.ofFunction .complete, p)
      ∧ p.has .showDetails = false := by
  obtain ⟨p, accepted⟩ := exists_accept_of_dispatch h
  obtain ⟨hc, hp⟩ := accept_eq_ok_iff.mp accepted
  rw [← Except.ok.inj (Callee.resolve_legacyName.symm.trans hc)] at accepted hp
  obtain ⟨named, details⟩ := Payload.ofText_older_eq_ok_iff.mp hp
  exact ⟨p, accepted, accept_eq_ok_iff.mpr ⟨Callee.resolve_complete, named⟩, details⟩

/-- **The older form returns** if the form by key does and shows no details. -/
theorem dispatch_older_returns_iff (finite : Request.IsFinite args) :
    (∃ r, dispatch (some Callee.legacyName) args level = .ok r)
      ↔ ∃ r, dispatch (some "AI_COMPLETE".toText) args level = .ok r
        ∧ r.request.ShowsNoDetails := by
  have returns : ∀ {function c p}, accept function args = .ok (c, p) → p.IsShowable →
      ∃ r, dispatch function args level = .ok r := fun accepted showable =>
    dispatch_of_showable accepted
      (Payload.isSendable_of_isFinite (accept_eq_ok_iff.mp accepted).2 finite) showable
  constructor
  · rintro ⟨r, hr⟩
    obtain ⟨p, accepted, named, details⟩ := exists_accepted_of_older hr
    have showable := ((dispatch_eq_ok_iff accepted).mp hr).1
    obtain ⟨r', hr'⟩ := returns named showable
    obtain ⟨-, sql, -, rfl⟩ := (dispatch_eq_ok_iff named).mp hr'
    exact ⟨_, hr', p.showsNoDetails_iff.mpr details⟩
  · rintro ⟨r, hr, noDetails⟩
    obtain ⟨p, named⟩ := exists_accept_of_dispatch hr
    obtain ⟨hc, hp⟩ := accept_eq_ok_iff.mp named
    obtain ⟨showable, sql, -, heq⟩ := (dispatch_eq_ok_iff named).mp hr
    rw [← Except.ok.inj (Callee.resolve_complete.symm.trans hc)] at hp
    rw [heq, Payload.showsNoDetails_iff] at noDetails
    have older := Payload.ofText_older_eq_ok_iff.mpr ⟨hp, noDetails⟩
    exact returns (accept_eq_ok_iff.mpr ⟨Callee.resolve_legacyName, older⟩) showable

/-- **What the two forms return** is the same echo, the same minimal log behind the
first line, and a statement that writes the model and the prompt alike. -/
theorem dispatched_alike (h : dispatch (some Callee.legacyName) args level = .ok r)
    (h' : dispatch (some "AI_COMPLETE".toText) args level = .ok r') :
    r.request = r'.request ∧ (level = .minimal → r.lines.tail = r'.lines.tail)
      ∧ WritesAlike r.query r'.query := by
  obtain ⟨p, accepted, named, -⟩ := exists_accepted_of_older h
  obtain ⟨-, sql, hsql, rfl⟩ := (dispatch_eq_ok_iff accepted).mp h
  obtain ⟨-, sql', hsql', rfl⟩ := (dispatch_eq_ok_iff named).mp h'
  obtain ⟨valid, hf⟩ := Payload.valid_of_ofText (accept_eq_ok_iff.mp accepted).2
  refine ⟨rfl, ?_, valid.writesAlike hf hsql hsql'⟩
  rintro rfl
  rfl

/-- **What the form by key rejects the older form rejects** for the same reason at
the same field, in words that differ in the name of the function at most. -/
theorem rejected_alike {e : RequestError}
    (h : dispatch (some "AI_COMPLETE".toText) args level = .error (.request e)) :
    ∃ e', dispatch (some Callee.legacyName) args level = .error (.request e')
      ∧ e'.kind = e.kind ∧ e'.field = e.field
      ∧ (e'.message = e.message ∨ ∃ rest, e.message = "AI_COMPLETE".toText ++ rest
        ∧ e'.message = Callee.legacyName ++ rest) := by
  obtain ⟨older, own⟩ :=
    Payload.ofText_older_of_error ((dispatch_eq_request_iff Callee.resolve_complete).mp h)
  refine ⟨_, (dispatch_eq_request_iff Callee.resolve_legacyName).mpr older, e.kind_relabel _,
    e.field_relabel _, ?_⟩
  obtain ⟨rest, hrest⟩ | same := e.exists_message_relabel
  · refine .inr ⟨rest, ?_, hrest _⟩
    rw [← hrest, own]
  · exact .inl (same _)

end Forms

/-- **The two forms of a completion agree.** Of finite arguments, a dispatch under
the older name returns exactly if one under the other name does and shows no
details. Then the echoes are equal, the minimal log is equal behind its first line,
and the model and the prompt are written alike. What the form by key rejects the
older one rejects for the same reason at the same field, in words that differ in
the name of the function at most; and what only the older form rejects are
details. -/
theorem dispatch_forms_agree {args : Option Text} (finite : Request.IsFinite args)
    (level : LogLevel) :
    ((∃ r, dispatch (some Callee.legacyName) args level = .ok r)
        ↔ ∃ r, dispatch (some "AI_COMPLETE".toText) args level = .ok r
          ∧ r.request.ShowsNoDetails)
      ∧ (∀ r r', dispatch (some Callee.legacyName) args level = .ok r →
        dispatch (some "AI_COMPLETE".toText) args level = .ok r' →
        r.request = r'.request ∧ (level = .minimal → r.lines.tail = r'.lines.tail)
          ∧ WritesAlike r.query r'.query)
      ∧ (∀ e, dispatch (some "AI_COMPLETE".toText) args level = .error (.request e) →
        ∃ e', dispatch (some Callee.legacyName) args level = .error (.request e')
          ∧ e'.kind = e.kind ∧ e'.field = e.field
          ∧ (e'.message = e.message ∨ ∃ rest, e.message = "AI_COMPLETE".toText ++ rest
            ∧ e'.message = Callee.legacyName ++ rest))
      ∧ ∀ e, dispatch (some Callee.legacyName) args level = .error (.request e) →
        (∀ e', dispatch (some "AI_COMPLETE".toText) args level ≠ .error (.request e')) →
        e.kind = .unsupportedArgument ∧ e.field = some "show_details".toText := by
  refine ⟨dispatch_older_returns_iff finite, fun r r' => dispatched_alike,
    fun e => rejected_alike, fun e he accepted => ?_⟩
  have older := (dispatch_eq_request_iff Callee.resolve_legacyName).mp he
  cases hp : Payload.ofText (.ofFunction .complete) args with
  | error e' =>
    exact absurd ((dispatch_eq_request_iff Callee.resolve_complete).mpr hp) (accepted e')
  | ok p =>
    obtain rfl := Payload.eq_of_ofText_older hp older
    exact ⟨rfl, rfl⟩

/-- Arguments of a completion with an empty object under the other name of its
options, and a `null`. -/
def emptyOptions : Text :=
  "\x7b\"model\":\" m\",\"prompt\":\"p\",\"options\":\x7b\x7d,\"show_details\":null\x7d".toText

/-- An empty object is passed by key and left out by position. -/
theorem dispatch_forms_agree_emptyOptions :
    ∃ r r', Request.IsFinite (some emptyOptions)
      ∧ dispatch (some Callee.legacyName) (some emptyOptions) .minimal = .ok r
      ∧ dispatch (some "AI_COMPLETE".toText) (some emptyOptions) .minimal = .ok r'
      ∧ r.query = "select SNOWFLAKE.CORTEX.COMPLETE('m', 'p') as response".toText
      ∧ r'.query = ("select AI_COMPLETE(model => 'm', prompt => 'p', ".toText
        ++ "model_parameters => PARSE_JSON('\x7b\x7d')) as response".toText)
      ∧ r.request = r'.request ∧ r.lines.tail = r'.lines.tail ∧ WritesAlike r.query r'.query := by
  have finite : Request.IsFinite (some emptyOptions) := by
    have read : (Request.object? (some emptyOptions)).all (fun m => (Json.obj m).allFinite)
        = true := by
      decide +kernel
    intro m hm
    rwa [hm] at read
  have older : (dispatch (some Callee.legacyName) (some emptyOptions) .minimal).toOption.map
        Dispatched.query
      = some "select SNOWFLAKE.CORTEX.COMPLETE('m', 'p') as response".toText := by
    decide +kernel
  have named : (dispatch (some "AI_COMPLETE".toText) (some emptyOptions) .minimal).toOption.map
        Dispatched.query
      = some ("select AI_COMPLETE(model => 'm', prompt => 'p', ".toText
        ++ "model_parameters => PARSE_JSON('\x7b\x7d')) as response".toText) := by
    decide +kernel
  obtain ⟨r, hr, hquery⟩ := Option.map_eq_some_iff.mp older
  obtain ⟨r', hr', hquery'⟩ := Option.map_eq_some_iff.mp named
  have returned := toOption_eq_some_iff.mp hr
  have returned' := toOption_eq_some_iff.mp hr'
  obtain ⟨-, alike, -⟩ := dispatch_forms_agree finite .minimal
  obtain ⟨request, lines, query⟩ := alike r r' returned returned'
  exact ⟨r, r', finite, returned, returned', hquery, hquery', request, lines rfl, query⟩

end CortexCall
