import CortexCall.Proofs.WriterDemands

/-!
# How a dispatch ends

A request that is rejected is answered with its rejection. One that is accepted
can still fail, and for two reasons only. A number that the call passes may be
infinite, and then the statement is not built; or a value cannot be shown,
because it nests too deep or a text in it that has to be written is not whole,
and then there is no echo. Whether either is so can be read off the payload –
`Payload.IsSendable`, `Payload.IsShowable` – and `dispatch_returns_or_rejects`
says that nothing else stands between an accepted request and its result. In
particular no argument is ever of a sort that has no form in SQL, and no
payload ever meets the builder of another function.
-/

namespace CortexCall

open Outcome (Screened)

/-- What a kind admits has a form in SQL. -/
theorem Kind.Admits.hasForm {k : Kind} {v : Value} (h : k.Admits v) : v.toArgument.HasForm := by
  cases v with
  | json j =>
    obtain ⟨m, rfl⟩ | ⟨items, rfl⟩ := h.of_json
    · trivial
    · trivial
  | _ => trivial

namespace Payload

variable {p : Payload} {c : Callee}

/-! ## The statement -/

/-- **Whether a payload can be sent**: every number that the call passes is
finite. -/
def IsSendable (c : Callee) (p : Payload) : Prop :=
  ∀ s ∈ (p.callFor c).slots, s.argument.toJson.allFinite = true

theorem Valid.hasForm_argument (h : p.Valid) {f : Field} (hf : (p.argument f).isAbsent = false) :
    (p.argument f).HasForm := by
  rw [h.isAbsent_argument, Bool.not_eq_false'] at hf
  obtain ⟨v, hv⟩ := Option.isSome_iff_exists.mp hf
  have hget : p.get? f = some v := hv
  obtain ⟨k, hk⟩ := h.exists_admits hget
  unfold argument
  rw [hget]
  exact hk.hasForm

/-- Every argument of a valid payload has a form in SQL. -/
theorem Valid.hasForm_slots (h : p.Valid) (c : Callee) :
    ∀ s ∈ (p.callFor c).present, s.argument.HasForm := by
  intro s hs
  obtain ⟨hs, hpresent⟩ := List.mem_filter.mp hs
  rw [Bool.not_eq_true'] at hpresent
  unfold callFor at hs
  split at hs
  · obtain ⟨a, ha, rfl⟩ := List.mem_map.mp hs
    simp only [List.mem_cons, List.not_mem_nil, or_false] at ha
    obtain rfl | rfl | rfl := ha
    · exact h.hasForm_argument hpresent
    · exact h.hasForm_argument hpresent
    · unfold legacyOptions at hpresent ⊢
      split at hpresent
      · cases hpresent
      · next hne =>
        rw [if_neg hne]
        trivial
  · obtain ⟨g, -, rfl⟩ := List.mem_map.mp hs
    exact h.hasForm_argument hpresent

/-- **The statement of a valid payload is built** by a writer if its demands are
met on every argument of the call. -/
theorem Valid.screened_statementBy (h : p.Valid) (hf : p.function = c.function)
    {write : Sql.Writer} {Met : Json → Sql.RenderError → Prop} (demands : write.Demands Met) :
    Screened (fun e => ∀ reason, e = .render reason →
      ∀ s ∈ (p.callFor c).slots, Met s.argument.toJson reason) (p.statementBy write c) := by
  unfold statementBy
  rw [if_pos hf]
  exact (Sql.Call.screened demands (h.hasForm_slots c)).map.mapError

/-- A payload that can be sent has a statement. -/
theorem Valid.statement_of_sendable (h : p.Valid) (hf : p.function = c.function)
    (sendable : p.IsSendable c) : ∃ sql, p.statement c = .ok sql := by
  refine (h.screened_statementBy hf Sql.demands_jsonText).exists_ok_iff.mpr ?_
  rintro _ reason rfl s hs
  cases reason with
  | outOfRange => exact sendable s hs
  | _ => trivial

/-- A payload that cannot be sent has none, because a number is infinite. -/
theorem Valid.statement_of_not_sendable (h : p.Valid) (hf : p.function = c.function)
    (unsendable : ¬ p.IsSendable c) : p.statement c = .error (.render .outOfRange) := by
  refine (h.screened_statementBy hf Sql.demands_jsonText).eq_error ?_ fun met =>
    unsendable (met .outOfRange rfl)
  rintro _ other reason rfl s -
  cases reason with
  | outOfRange => exact absurd rfl other
  | _ => trivial

/-! ## The echo -/

end Payload

/-- **Whether a value can be shown**: one of free form may not nest too deep, and
the names inside its parts must be whole; an expression must be whole. -/
def Value.IsShowable : Value → Prop
  | .json v => v.levels ≤ maxDepth ∧ ∀ u ∈ v.parts, u.namesWhole = true
  | .file (.expression t) => t.isWhole = true
  | _ => True

theorem Value.isShowable_json_iff {j : Json} :
    (Value.json j).IsShowable ↔ j.checkParts = .ok () := by
  rw [Json.checkParts_eq_ok_iff, Json.itemsNamesWhole_iff]
  rfl

/-- **The walk over a value** succeeds if the value can be shown. To walk over it
as a value of any form asks for more and is never the way out. -/
theorem Value.checkEcho_eq_ok_iff {v : Value} (forms : Bool) :
    v.checkEcho forms = .ok () ↔ v.IsShowable := by
  match v with
  | .json j =>
    rw [isShowable_json_iff]
    unfold checkEcho
    dsimp only
    split
    · next h => exact iff_of_true rfl h
    · next e he =>
      rw [he]
      refine iff_of_false (fun h => ?_) nofun
      split at h
      · rw [Json.checkParts_of_checkWithin h] at he
        cases he
      · cases h
  | .file (.expression t) =>
    exact Outcome.mapError_eq_ok_iff.trans Text.requireWhole_eq_ok_iff
  | .file (.location stage path) => exact iff_of_true rfl trivial
  | .text t => exact iff_of_true rfl trivial
  | .flag b => exact iff_of_true rfl trivial
  | .labels ls => exact iff_of_true rfl trivial
  | .categories cs => exact iff_of_true rfl trivial

namespace Payload

variable {p : Payload}

/-- **Whether a payload can be shown**: each of its values can. -/
def IsShowable (p : Payload) : Prop := ∀ e ∈ p.entries, e.2.IsShowable

theorem checkEcho_eq_ok_iff : p.checkEcho = .ok () ↔ p.IsShowable := by
  unfold checkEcho IsShowable
  rw [Outcome.forM_eq_ok_iff]
  exact forall₂_congr fun e _ => Value.checkEcho_eq_ok_iff _

/-- **The echo of a payload** is there if the payload can be shown, and it is
made of what is shown of its values. -/
theorem echo_eq_ok_iff {j : Json} : p.echo = .ok j ↔ p.IsShowable ∧ j = .obj p.echoMembers := by
  unfold echo
  rw [Outcome.bind_eq_ok_iff, ← checkEcho_eq_ok_iff]
  exact ⟨fun ⟨_, h, hj⟩ => ⟨h, (Except.ok.inj hj).symm⟩, fun ⟨h, hj⟩ => ⟨(), h, hj ▸ rfl⟩⟩

end Payload

/-! ## The dispatch -/

section Outcomes

variable {function args : Option Text} {level : LogLevel} {c : Callee} {p : Payload}

/-- Once its name is known, a request comes to what its arguments come to. -/
theorem accept_of_resolve (hc : Callee.resolve function = .ok c) (args : Option Text) :
    accept function args = (Payload.ofText c args).map (Prod.mk c) := by
  unfold accept
  rw [hc]
  show (Payload.ofText c args >>= _) = _
  cases Payload.ofText c args <;> rfl

/-- A request that is rejected is answered with its rejection. -/
theorem dispatch_of_rejected {e : RequestError} (h : accept function args = .error e) :
    dispatch function args level = .error (.request e) := by
  unfold dispatch
  rw [h]
  rfl

theorem dispatch_of_accepted (h : accept function args = .ok (c, p)) :
    dispatch function args level = dispatchPayload c p level := by
  unfold dispatch
  rw [h]
  rfl

/-- **What an accepted request returns**, if its statement is built and its
payload can be shown. -/
theorem dispatch_eq_ok_iff (h : accept function args = .ok (c, p)) {r : Dispatched} :
    dispatch function args level = .ok r ↔ p.IsShowable ∧ ∃ sql, p.statement c = .ok sql
      ∧ r = ⟨c, sql, .obj p.echoMembers, callLines c p sql (.obj p.echoMembers) level⟩ := by
  rw [dispatch_of_accepted h]
  unfold dispatchPayload
  rw [Outcome.bind_eq_ok_iff]
  constructor
  · rintro ⟨sql, hsql, hr⟩
    obtain ⟨request, hrequest, hr⟩ := Outcome.bind_eq_ok_iff.mp hr
    obtain ⟨showable, rfl⟩ := Payload.echo_eq_ok_iff.mp (Outcome.mapError_eq_ok_iff.mp hrequest)
    exact ⟨showable, sql, Outcome.mapError_eq_ok_iff.mp hsql, (Except.ok.inj hr).symm⟩
  · rintro ⟨showable, sql, hsql, rfl⟩
    have echoed := Payload.echo_eq_ok_iff.mpr ⟨showable, rfl⟩
    exact ⟨sql, Outcome.mapError_eq_ok_iff.mpr hsql,
      Outcome.bind_eq_ok_iff.mpr ⟨_, Outcome.mapError_eq_ok_iff.mpr echoed, rfl⟩⟩

/-- What is dispatched was accepted. -/
theorem exists_accept_of_dispatch {r : Dispatched} (h : dispatch function args level = .ok r) :
    ∃ p, accept function args = .ok (r.callee, p) := by
  obtain ⟨hc, p, hp, -⟩ := exists_of_dispatch h
  exact ⟨p, accept_eq_ok_iff.mpr ⟨hc, hp⟩⟩

/-- **An accepted request returns** if its payload can be sent and shown. -/
theorem dispatch_of_showable (h : accept function args = .ok (c, p)) (sendable : p.IsSendable c)
    (showable : p.IsShowable) : ∃ r, dispatch function args level = .ok r := by
  obtain ⟨valid, hf⟩ := Payload.valid_of_ofText (accept_eq_ok_iff.mp h).2
  obtain ⟨sql, hsql⟩ := valid.statement_of_sendable hf sendable
  exact ⟨_, (dispatch_eq_ok_iff h).mpr ⟨showable, sql, hsql, rfl⟩⟩

/-- **A dispatch returns** exactly if its arguments are accepted and their payload can
be sent and shown, once its name is known. -/
theorem exists_dispatched_iff (hc : Callee.resolve function = .ok c) :
    (∃ r, dispatch function args level = .ok r)
      ↔ ∃ p, Payload.ofText c args = .ok p ∧ p.IsSendable c ∧ p.IsShowable := by
  constructor
  · rintro ⟨r, hr⟩
    obtain ⟨hc', p, hp, hquery, hecho, -⟩ := exists_of_dispatch hr
    obtain rfl := Except.ok.inj (hc.symm.trans hc')
    obtain ⟨valid, hf⟩ := Payload.valid_of_ofText hp
    refine ⟨p, hp, ?_, (Payload.echo_eq_ok_iff.mp hecho).1⟩
    by_contra unsendable
    cases hquery.symm.trans (valid.statement_of_not_sendable hf unsendable)
  · rintro ⟨p, hp, sendable, showable⟩
    exact dispatch_of_showable (accept_eq_ok_iff.mpr ⟨hc, hp⟩) sendable showable

/-- A number that is infinite ends the dispatch, whether the payload can be shown
or not. -/
theorem dispatch_of_not_sendable (h : accept function args = .ok (c, p))
    (sendable : ¬ p.IsSendable c) :
    dispatch function args level = .error (.build (.render .outOfRange)) := by
  obtain ⟨valid, hf⟩ := Payload.valid_of_ofText (accept_eq_ok_iff.mp h).2
  rw [dispatch_of_accepted h]
  unfold dispatchPayload
  rw [valid.statement_of_not_sendable hf sendable]
  rfl

/-- A payload that can be sent and not shown ends the dispatch at the echo. -/
theorem dispatch_of_not_showable (h : accept function args = .ok (c, p))
    (sendable : p.IsSendable c) (showable : ¬ p.IsShowable) :
    ∃ e, dispatch function args level = .error (.echo e) := by
  obtain ⟨valid, hf⟩ := Payload.valid_of_ofText (accept_eq_ok_iff.mp h).2
  obtain ⟨sql, hsql⟩ := valid.statement_of_sendable hf sendable
  rw [dispatch_of_accepted h]
  unfold dispatchPayload
  rw [hsql]
  cases hecho : p.echo with
  | ok j => exact absurd (Payload.echo_eq_ok_iff.mp hecho).1 showable
  | error e => exact ⟨e, rfl⟩

/-- **A dispatch returns a result or rejects the request** exactly if the payload
of an accepted request can be sent and shown. Otherwise it fails because a
number that the call passes is infinite, or because a value cannot be shown,
and for no other reason. -/
theorem dispatch_returns_or_rejects (function args : Option Text) (level : LogLevel) :
    (((∃ r, dispatch function args level = .ok r)
        ∨ ∃ e, dispatch function args level = .error (.request e))
      ↔ ∀ c p, accept function args = .ok (c, p) → p.IsSendable c ∧ p.IsShowable)
      ∧ ∀ e, dispatch function args level = .error e → (∃ rejection, e = .request rejection)
        ∨ e = .build (.render .outOfRange) ∨ ∃ failure, e = .echo failure := by
  cases haccept : accept function args with
  | error e =>
    rw [dispatch_of_rejected haccept]
    refine ⟨iff_of_true (.inr ⟨e, rfl⟩) nofun, fun e' he' => .inl ⟨e, ?_⟩⟩
    exact (Except.error.inj he').symm
  | ok accepted =>
    obtain ⟨c, p⟩ := accepted
    have only : (∀ c' p', .ok (c, p) = (.ok (c', p') : Except RequestError (Callee × Payload)) →
        p'.IsSendable c' ∧ p'.IsShowable) ↔ p.IsSendable c ∧ p.IsShowable := by
      refine ⟨fun h => h c p rfl, ?_⟩
      rintro h _ _ ⟨⟩
      exact h
    rw [only]
    by_cases sendable : p.IsSendable c
    · by_cases showable : p.IsShowable
      · obtain ⟨r, hr⟩ : ∃ r, dispatch function args level = .ok r :=
          dispatch_of_showable haccept sendable showable
        rw [hr]
        exact ⟨iff_of_true (.inl ⟨r, rfl⟩) ⟨sendable, showable⟩, nofun⟩
      · obtain ⟨e, he⟩ : ∃ e, dispatch function args level = .error (.echo e) :=
          dispatch_of_not_showable haccept sendable showable
        rw [he]
        refine ⟨iff_of_false ?_ fun h => showable h.2, fun e' he' => .inr (.inr ⟨e, ?_⟩)⟩
        · rintro (⟨r, hr⟩ | ⟨e', he'⟩)
          · cases hr
          · cases he'
        · exact (Except.error.inj he').symm
    · rw [dispatch_of_not_sendable haccept sendable]
      refine ⟨iff_of_false ?_ fun h => sendable h.1, fun e' he' => .inr (.inl ?_)⟩
      · rintro (⟨r, hr⟩ | ⟨e', he'⟩)
        · cases hr
        · cases he'
      · exact (Except.error.inj he').symm

end Outcomes

/-- Arguments of a completion with one option. -/
def argumentsWithOption (name value : Text) : Text :=
  "\x7b\"model\":\"m\",\"prompt\":\"p\",\"options\":\x7b\"".toText ++ name ++ "\":".toText ++ value
    ++ "\x7d\x7d".toText

/-- How a dispatch fails, if it does. -/
def dispatchFailure? (function args : Option Text) (level : LogLevel) : Option DispatchError :=
  match dispatch function args level with
  | .ok _ => none
  | .error e => some e

/-- A number beyond the doubles passes every check and then has no text, so that
the dispatch fails with neither a result nor a rejection. -/
theorem not_returns_or_rejects_overflow :
    ¬ ((∃ r, dispatch (some "AI_COMPLETE".toText)
          (some (argumentsWithOption "temperature".toText "1e999".toText)) .minimal = .ok r)
      ∨ ∃ e, dispatch (some "AI_COMPLETE".toText)
          (some (argumentsWithOption "temperature".toText "1e999".toText)) .minimal
          = .error (.request e)) := by
  have failure : dispatchFailure? (some "AI_COMPLETE".toText)
      (some (argumentsWithOption "temperature".toText "1e999".toText)) .minimal
      = some (.build (.render .outOfRange)) := by
    decide +kernel
  unfold dispatchFailure? at failure
  rintro (⟨r, hr⟩ | ⟨e, he⟩)
  · rw [hr] at failure
    cases failure
  · rw [he] at failure
    cases failure

/-- Neither has half of a surrogate pair in a name inside an option a place in
the echo. -/
example : dispatchFailure? (some "AI_COMPLETE".toText)
    (some (argumentsWithOption "a".toText "\x7b\"\\ud800\":1\x7d".toText)) .minimal
    = some (.echo (.halves ⟨0, 0, 0⟩)) := by
  decide +kernel

end CortexCall
