import Mathlib.Data.List.Nodup
import CortexCall.Proofs.CheckedValue
import CortexCall.Request.Payload

/-!
# What a checked request is

A payload is made in one pass over the parameters of its function, and what
the pass leaves is said here without the pass: the entries stand in the order
of the parameters, each with a value that its kind admits, and only optional
parameters have none – `Conforms` – and the function's rule holds of them. A
payload with these two properties is `Valid`, and every payload that comes
out of a text is: `Payload.valid_of_ofText`.

Whoever needs a value of a valid payload asks for its field and learns what
the kind admits; the entries themselves need not be looked at again.
-/

namespace CortexCall

namespace Entries

/-- **Entries that some parameters leave**: for each parameter in order a
value that its kind admits, and none only if it is optional. -/
inductive Conforms : List Parameter → Entries → Prop
  | nil : Conforms [] []
  | given {p : Parameter} {v : Value} {ps : List Parameter} {e : Entries}
      (admits : p.kind.Admits v) (rest : Conforms ps e) : Conforms (p :: ps) ((p.field, v) :: e)
  | absent {p : Parameter} {ps : List Parameter} {e : Entries}
      (optional : p.required = false) (rest : Conforms ps e) : Conforms (p :: ps) e

namespace Conforms

variable {ps : List Parameter} {e : Entries} {f : Field} {v : Value}

/-- A field that is given is a field of some parameter, and its value is one
that the kind admits. -/
theorem exists_parameter (h : Conforms ps e) (hv : get? f e = some v) :
    ∃ p ∈ ps, p.field = f ∧ p.kind.Admits v := by
  induction h with
  | nil => exact absurd hv (by simp [get?])
  | @given p w ps e admits _ ih =>
    rw [get?] at hv
    split at hv
    · next hf =>
      obtain rfl := Option.some.inj hv
      exact ⟨p, List.mem_cons_self, hf, admits⟩
    · obtain ⟨q, hq, hf, hk⟩ := ih hv
      exact ⟨q, List.mem_cons_of_mem p hq, hf, hk⟩
  | absent _ _ ih =>
    obtain ⟨q, hq, hf, hk⟩ := ih hv
    exact ⟨q, List.mem_cons_of_mem _ hq, hf, hk⟩

/-- A parameter that must be given is. -/
theorem has_of_required (h : Conforms ps e) {p : Parameter} (hp : p ∈ ps)
    (hr : p.required = true) : e.has p.field = true := by
  induction h with
  | nil => exact absurd hp List.not_mem_nil
  | @given q w ps e _ _ ih =>
    rw [has, get?]
    split
    · rfl
    · next hf =>
      obtain rfl | hp := List.mem_cons.mp hp
      · exact absurd rfl hf
      · exact ih hp
  | absent optional _ ih =>
    obtain rfl | hp := List.mem_cons.mp hp
    · exact absurd (optional.symm.trans hr) Bool.false_ne_true
    · exact ih hp

/-- **The value of a parameter is one that its kind admits**, if no other
parameter has the same field. -/
theorem admits (h : Conforms ps e) (hps : (ps.map Parameter.field).Nodup) {p : Parameter}
    (hp : p ∈ ps) (hv : get? p.field e = some v) : p.kind.Admits v := by
  obtain ⟨q, hq, hf, hk⟩ := h.exists_parameter hv
  rwa [List.inj_on_of_nodup_map hps hq hp hf] at hk

end Conforms

end Entries

namespace Parameter

theorem admits_of_check {p : Parameter} {m : Members} {v : Value}
    (h : p.check m = .ok (some v)) : p.kind.Admits v := by
  unfold check at h
  split at h
  · split at h
    · exact absurd h (by simp)
    · exact absurd h (by simp)
  · split at h
    · exact absurd h (by simp)
    · obtain ⟨w, hw, heq⟩ := Outcome.map_eq_ok_iff.mp (Outcome.mapError_eq_ok_iff.mp h)
      obtain rfl := Option.some.inj heq
      exact Kind.admits_of_check hw

theorem required_of_check {p : Parameter} {m : Members} (h : p.check m = .ok none) :
    p.required = false := by
  unfold check at h
  split at h
  · split at h
    · exact absurd h (by simp)
    · next hr => simpa using hr
  · split at h
    · next hn =>
      rw [Bool.and_eq_true] at hn
      simpa using hn.1
    · obtain ⟨w, -, heq⟩ := Outcome.map_eq_ok_iff.mp (Outcome.mapError_eq_ok_iff.mp h)
      exact absurd heq (by simp)

/-- **Checking parameters leaves entries that conform to them.** -/
theorem conforms_of_checkAll {ps : List Parameter} {m : Members} {e : Entries}
    (h : checkAll m ps = .ok e) : e.Conforms ps := by
  induction ps generalizing e with
  | nil =>
    obtain rfl := Except.ok.inj h
    exact .nil
  | cons p rest ih =>
    obtain ⟨value, hvalue, h⟩ := Outcome.bind_eq_ok_iff.mp h
    obtain ⟨entries, hentries, h⟩ := Outcome.bind_eq_ok_iff.mp h
    cases value with
    | some v =>
      obtain rfl := Except.ok.inj h
      exact .given (admits_of_check hvalue) (ih hentries)
    | none =>
      obtain rfl := Except.ok.inj h
      exact .absent (required_of_check hvalue) (ih hentries)

end Parameter

namespace Rule

/-- **What a rule asks** of the fields that are given: of two fields one, of
two pairs one, and the whole of it. -/
def Holds (has : Field → Bool) : Rule → Prop
  | .free => True
  | .exactlyOne left right => has left ≠ has right
  | .exactlyOnePair left right =>
    has left.1 = has left.2 ∧ has right.1 = has right.2 ∧ has left.1 ≠ has right.1

/-- **A rule is met exactly when what it asks holds.** -/
theorem check_eq_ok_iff {r : Rule} {e : Entries} : r.check e = .ok () ↔ r.Holds e.has := by
  cases r with
  | free => exact iff_of_true rfl trivial
  | exactlyOne left right =>
    simp only [check, Holds]
    split
    · next h => exact iff_of_false (by simp) (not_not_intro h)
    · next h => exact iff_of_true rfl h
  | exactlyOnePair left right =>
    simp only [check, Holds]
    cases hl : e.has left.1 <;> cases hl' : e.has left.2 <;> cases hr : e.has right.1
      <;> cases hr' : e.has right.2 <;> simp [hl, hl', hr, hr']

end Rule

namespace Payload

/-- **A valid payload**: its entries are such as the parameters of its
function leave, and the function's rule holds of them. -/
structure Valid (p : Payload) : Prop where
  conforms : p.entries.Conforms p.function.parameters
  rule : p.function.rule.check p.entries = .ok ()

namespace Valid

variable {p : Payload} {q : Parameter} {v : Value}

theorem has_of_required (h : p.Valid) (hq : q ∈ p.function.parameters)
    (hr : q.required = true) : p.has q.field = true :=
  h.conforms.has_of_required hq hr

theorem admits (h : p.Valid) (hq : q ∈ p.function.parameters)
    (hv : p.get? q.field = some v) : q.kind.Admits v :=
  h.conforms.admits p.function.parameters_nodup hq hv

/-- The rule of the function holds of the fields that are given. -/
theorem rule_holds (h : p.Valid) : p.function.rule.Holds p.has := Rule.check_eq_ok_iff.mp h.rule

/-- A field that is given holds what some kind admits. -/
theorem exists_admits (h : p.Valid) {f : Field} (hv : p.get? f = some v) :
    ∃ k : Kind, k.Admits v := by
  obtain ⟨q, -, -, hk⟩ := h.conforms.exists_parameter hv
  exact ⟨q.kind, hk⟩

end Valid

theorem valid_of_ofMembers {f : AiFunction} {m : Members} {p : Payload}
    (h : ofMembers f m = .ok p) : p.Valid ∧ p.function = f := by
  obtain ⟨e, he, h⟩ := Outcome.bind_eq_ok_iff.mp h
  split at h
  · exact absurd h (by simp [throw, throwThe, MonadExceptOf.throw])
  · obtain ⟨⟨⟩, hrule, h⟩ := Outcome.bind_eq_ok_iff.mp h
    obtain rfl := Except.ok.inj h
    exact ⟨⟨Parameter.conforms_of_checkAll he, hrule⟩, rfl⟩

theorem valid_of_ofJson {f : AiFunction} {j : Json} {p : Payload} (h : ofJson f j = .ok p) :
    p.Valid ∧ p.function = f := by
  unfold ofJson at h
  split at h
  · split at h
    · exact valid_of_ofMembers h
    · exact absurd h (by simp)
  · exact absurd h (by simp)

theorem eq_of_checkDetails {c : Callee} {p q : Payload} (h : checkDetails c p = .ok q) :
    q = p := by
  unfold checkDetails at h
  split at h
  · exact absurd h (by simp)
  · exact (Except.ok.inj h).symm

/-- **A payload that an argument text spells is valid**, and it is one of the
callee's function. -/
theorem valid_of_ofText {c : Callee} {raw : Option Text} {p : Payload}
    (h : ofText c raw = .ok p) : p.Valid ∧ p.function = c.function := by
  obtain ⟨given, -, h⟩ := Outcome.bind_eq_ok_iff.mp h
  obtain ⟨members, -, h⟩ := Outcome.bind_eq_ok_iff.mp h
  split at h
  · next q hq =>
    obtain rfl := eq_of_checkDetails h
    exact valid_of_ofJson hq
  · exact absurd h (by simp [throw, throwThe, MonadExceptOf.throw])

end Payload

end CortexCall
