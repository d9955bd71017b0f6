import CortexCall.Proofs.NestedJson
import CortexCall.Proofs.ShownValue
import CortexCall.Proofs.SingleCall

/-!
# What a writer demands

There are two reasons for which a value has no JSON text: a number in it is
infinite, or it nests deeper than its writer may be. Each reason is spared by a
demand on the value alone, and a writer fails for no other – `Writer.Demands`.
A writer without a bound makes the first demand, `demands_jsonText`, and one
that may be inside so many containers at once makes both,
`demands_jsonTextWithin`; if both go unmet it is what stands first in the value
that is reported.

Nothing that is made of JSON texts adds a demand of its own, as long as every
argument is of a sort that has a form in SQL: `Call.screened`.
-/

namespace CortexCall.Sql

open Outcome (Screened)

/-! ## Writers -/

/-- What is demanded of a value for each reason by a writer without a bound. -/
def Writable (v : Json) : RenderError → Prop
  | .outOfRange => v.allFinite = true
  | .tooDeep => True
  | .unsupported _ => True

/-- What is demanded of a value for each reason by a writer that may be inside so
many containers at once. -/
def WritableWithin (levels : ℕ) (v : Json) : RenderError → Prop
  | .outOfRange => v.allFinite = true
  | .tooDeep => v.nesting ≤ levels
  | .unsupported _ => True

/-- **A writer makes demands** on a value, which every finite value meets that is
no container. -/
structure Writer.Demands (write : Writer) (Met : Json → RenderError → Prop) : Prop where
  screened (v : Json) : Screened (Met v) (write v)
  met {v : Json} (finite : v.allFinite = true) (flat : v.nesting = 0) (e : RenderError) : Met v e

theorem demands_jsonText : Writer.Demands jsonText Writable where
  screened v := by
    unfold jsonText
    split
    · next finite => exact .of_ok rfl fun e => by cases e <;> first | exact finite | trivial
    · next infinite => exact .inr ⟨.outOfRange, rfl, infinite⟩
  met finite _ e := by cases e <;> first | exact finite | trivial

section Walk

variable {levels : ℕ} {items : List Json} {members : List (Text × Json)} {e : RenderError}

theorem writableWithin_of_flat {v : Json} (finite : v.allFinite = true) (flat : v.nesting = 0)
    (e : RenderError) : WritableWithin levels v e := by
  cases e with
  | outOfRange => exact finite
  | tooDeep => exact (flat.trans_le (Nat.zero_le levels) :)
  | unsupported sort => trivial

/-- What is demanded of an array is demanded of its items, one level further in. -/
theorem writableWithin_arr_iff : WritableWithin (levels + 1) (.arr items) e
    ↔ ∀ v ∈ items, WritableWithin levels v e := by
  cases e with
  | outOfRange => exact Json.itemsFinite_iff
  | tooDeep => exact Nat.succ_le_succ_iff.trans Json.itemsNesting_le_iff
  | unsupported sort => exact iff_of_true trivial fun _ _ => trivial

/-- What is demanded of an object is demanded of its values, one level further in. -/
theorem writableWithin_obj_iff : WritableWithin (levels + 1) (.obj members) e
    ↔ ∀ p ∈ members, WritableWithin levels p.2 e := by
  cases e with
  | outOfRange => exact Json.membersFinite_iff
  | tooDeep => exact Nat.succ_le_succ_iff.trans Json.membersNesting_le_iff
  | unsupported sort => exact iff_of_true trivial fun _ _ => trivial

theorem screened_walkItemsWithin
    (h : ∀ v ∈ items, Screened (WritableWithin levels v) (walkWithin levels v)) :
    Screened (fun e => ∀ v ∈ items, WritableWithin levels v e) (walkItemsWithin levels items) := by
  induction items with
  | nil => exact .of_ok rfl fun _ => nofun
  | cons v rest ih =>
    obtain ⟨hv, hrest⟩ := List.forall_mem_cons.mp h
    exact (hv.bind fun _ => ih hrest).congr fun e => by
      rw [List.forall_mem_cons]

theorem screened_walkMembersWithin
    (h : ∀ p ∈ members, Screened (WritableWithin levels p.2) (walkWithin levels p.2)) :
    Screened (fun e => ∀ p ∈ members, WritableWithin levels p.2 e)
      (walkMembersWithin levels members) := by
  induction members with
  | nil => exact .of_ok rfl fun _ => nofun
  | cons p rest ih =>
    obtain ⟨hp, hrest⟩ := List.forall_mem_cons.mp h
    exact (hp.bind fun _ => ih hrest).congr fun e => by
      rw [List.forall_mem_cons]

/-- A container is too deep for a writer that may be inside none. -/
theorem screened_tooDeep {v : Json} (h : v.nesting ≠ 0) :
    Screened (WritableWithin 0 v) (.error .tooDeep : Except RenderError Unit) :=
  .inr ⟨.tooDeep, rfl, fun flat => h (Nat.le_zero.mp flat)⟩

/-- **The walk over a value** fails where a demand goes unmet first. -/
theorem screened_walkWithin (levels : ℕ) (v : Json) :
    Screened (WritableWithin levels v) (walkWithin levels v) := by
  have scalar : ∀ {v : Json} {levels : ℕ}, walkWithin levels v = .ok () → v.allFinite = true →
      v.nesting = 0 → Screened (WritableWithin levels v) (walkWithin levels v) :=
    fun walked finite flat => .of_ok walked (writableWithin_of_flat finite flat)
  induction v using Json.induction generalizing levels with
  | null => exact scalar rfl rfl rfl
  | bool b => exact scalar rfl rfl rfl
  | int n => exact scalar rfl rfl rfl
  | str t => exact scalar rfl rfl rfl
  | double d =>
    by_cases finite : d.isFinite = true
    · exact scalar (if_pos finite) finite rfl
    · exact .inr ⟨.outOfRange, if_neg finite, finite⟩
  | arr items ih =>
    cases levels with
    | zero => exact screened_tooDeep (Nat.succ_ne_zero _)
    | succ levels =>
      refine Screened.congr ?_ fun e => writableWithin_arr_iff.symm
      exact screened_walkItemsWithin fun v hv => ih v hv levels
  | obj members ih =>
    cases levels with
    | zero => exact screened_tooDeep (Nat.succ_ne_zero _)
    | succ levels =>
      refine Screened.congr ?_ fun e => writableWithin_obj_iff.symm
      exact screened_walkMembersWithin fun p hp => ih p hp levels

end Walk

theorem demands_jsonTextWithin (levels : ℕ) :
    Writer.Demands (jsonTextWithin levels) (WritableWithin levels) where
  screened v := (screened_walkWithin levels v).bind_ok fun _ => ⟨_, rfl⟩
  met finite flat e := writableWithin_of_flat finite flat e

/-- A finite value that nests no deeper than its writer may be is embedded. -/
theorem embedBy_of_nesting_le {levels : ℕ} {v : Json} (finite : v.allFinite = true)
    (shallow : v.nesting ≤ levels) : embedBy (jsonTextWithin levels) v
      = .ok ("PARSE_JSON(".toText ++ quote (v.print .compact) ++ ")".toText) := by
  obtain ⟨⟨⟩, walked⟩ : ∃ u, walkWithin levels v = .ok u := by
    refine (screened_walkWithin levels v).exists_ok_iff.mpr fun e => ?_
    cases e with
    | outOfRange => exact finite
    | tooDeep => exact shallow
    | unsupported sort => trivial
  unfold embedBy jsonTextWithin
  rw [walked]
  rfl

/-- One that nests deeper is not. -/
theorem embedBy_of_lt_nesting {levels : ℕ} {v : Json} (finite : v.allFinite = true)
    (deep : levels < v.nesting) : embedBy (jsonTextWithin levels) v = .error .tooDeep := by
  have walked : walkWithin levels v = .error .tooDeep := by
    refine (screened_walkWithin levels v).eq_error (fun e he => ?_) (Nat.not_le_of_lt deep)
    cases e with
    | outOfRange => exact finite
    | tooDeep => exact absurd rfl he
    | unsupported sort => trivial
  unfold embedBy jsonTextWithin
  rw [walked]
  rfl

/-! ## Calls -/

/-- Whether an argument is of a sort that has a form in SQL. -/
def Argument.HasForm : Argument → Prop
  | .value .null => False
  | .value (.int _) => False
  | .value (.double _) => False
  | _ => True

section Demands

variable {write : Writer} {Met : Json → RenderError → Prop} (demands : write.Demands Met)

include demands

/-- What is demanded of a value is all that is demanded to embed it. -/
theorem screened_embedBy (v : Json) : Screened (Met v) (embedBy write v) :=
  (demands.screened v).bind_ok fun _ => ⟨_, rfl⟩

/-- **An argument that has a form in SQL** is rendered if the demands on its value
are met. -/
theorem Argument.HasForm.screened {a : Argument} (h : a.HasForm) :
    Screened (Met a.toJson) (a.renderBy write) := by
  match a with
  | .expression t => exact .of_ok rfl (demands.met rfl rfl)
  | .value (.bool true) => exact .of_ok rfl (demands.met rfl rfl)
  | .value (.bool false) => exact .of_ok rfl (demands.met rfl rfl)
  | .value (.str t) => exact .of_ok rfl (demands.met rfl rfl)
  | .value (.arr items) => exact screened_embedBy demands _
  | .value (.obj members) => exact screened_embedBy demands _
  | .value .null => exact h.elim
  | .value (.int n) => exact h.elim
  | .value (.double d) => exact h.elim

theorem Slot.screened {s : Slot} (h : s.argument.HasForm) :
    Screened (Met s.argument.toJson) (s.renderBy write) := by
  refine (h.screened demands).bind_ok fun t => ?_
  cases s.key <;> exact ⟨_, rfl⟩

/-- **A call is rendered** if the demands on its arguments are met. Nothing is
demanded of one that is left out. -/
theorem Call.screened {c : Call} (h : ∀ s ∈ c.present, s.argument.HasForm) :
    Screened (fun e => ∀ s ∈ c.slots, Met s.argument.toJson e) (c.renderBy write) := by
  have left : ∀ {a : Argument}, a.isAbsent = true → ∀ e, Met a.toJson e := by
    intro a absent e
    match a with
    | .value .null => exact demands.met rfl rfl e
  refine Screened.congr ((Screened.mapM fun s hs => Slot.screened demands (h s hs)).bind_ok
    fun t => ⟨_, rfl⟩) fun e => ⟨fun met s hs => ?_, fun met s hs => ?_⟩
  · cases absent : s.argument.isAbsent with
    | true => exact left absent e
    | false => exact met s (List.mem_filter.mpr ⟨hs, by rw [absent]; rfl⟩)
  · exact met s (List.mem_of_mem_filter hs)

end Demands

end CortexCall.Sql
