import Mathlib.Data.List.Forall2

/-!
# Outcomes of a sequence of steps

Everything that can fail here returns an `Except`, and a sequence of steps
fails with the first failure. What a proof needs of that is small: a sequence
that succeeds is a sequence of successes, and a failure comes from the first
step that fails. The lemmas below say so for each way in which steps are put
together, so that no other proof takes a sequence apart by hand.
-/

namespace CortexCall.Outcome

variable {ε ε' α β : Type}

/-- Two steps succeed when the first does and then the second. -/
theorem bind_eq_ok_iff {x : Except ε α} {f : α → Except ε β} {b : β} :
    x >>= f = .ok b ↔ ∃ a, x = .ok a ∧ f a = .ok b := by
  cases x with
  | ok a =>
    show f a = .ok b ↔ _
    simp
  | error e =>
    show (.error e : Except ε β) = .ok b ↔ _
    simp

/-- Two steps fail when the first does, or the second after it. -/
theorem bind_eq_error_iff {x : Except ε α} {f : α → Except ε β} {e : ε} :
    x >>= f = .error e ↔ x = .error e ∨ ∃ a, x = .ok a ∧ f a = .error e := by
  cases x with
  | ok a =>
    show f a = .error e ↔ _
    simp
  | error e' =>
    show (.error e' : Except ε β) = .error e ↔ _
    simp

theorem mapError_eq_ok_iff {x : Except ε α} {f : ε → ε'} {a : α} :
    x.mapError f = .ok a ↔ x = .ok a := by
  cases x <;> simp [Except.mapError]

theorem map_eq_ok_iff {x : Except ε α} {f : α → β} {b : β} :
    x.map f = .ok b ↔ ∃ a, x = .ok a ∧ f a = b := by
  cases x <;> simp [Except.map]

/-- **A step for each item succeeds with the results in order.** -/
theorem mapM_eq_ok_iff {f : α → Except ε β} {as : List α} {bs : List β} :
    as.mapM f = .ok bs ↔ List.Forall₂ (fun a b => f a = .ok b) as bs := by
  induction as generalizing bs with
  | nil =>
    rw [List.mapM_nil, List.forall₂_nil_left_iff]
    show (.ok [] : Except ε (List β)) = .ok bs ↔ _
    rw [Except.ok.injEq, eq_comm]
  | cons a rest ih =>
    rw [List.mapM_cons, bind_eq_ok_iff, List.forall₂_cons_left_iff]
    refine exists_congr fun b => ?_
    rw [bind_eq_ok_iff]
    constructor
    · rintro ⟨hb, bs', hbs', h⟩
      exact ⟨bs', hb, ih.mp hbs', (Except.ok.inj h).symm⟩
    · rintro ⟨bs', hb, hbs', rfl⟩
      exact ⟨hb, bs', ih.mpr hbs', rfl⟩

/-- Each result is the result of some item. -/
theorem exists_of_mem_mapM {f : α → Except ε β} {as : List α} {bs : List β}
    (h : as.mapM f = .ok bs) {b : β} (hb : b ∈ bs) : ∃ a ∈ as, f a = .ok b := by
  have step := mapM_eq_ok_iff.mp h
  clear h
  induction step with
  | nil => exact absurd hb List.not_mem_nil
  | cons hab _ ih =>
    obtain rfl | hb := List.mem_cons.mp hb
    · exact ⟨_, List.mem_cons_self, hab⟩
    · obtain ⟨a, ha, hab⟩ := ih hb
      exact ⟨a, List.mem_cons_of_mem _ ha, hab⟩

/-- A step for each item succeeds when each step does. -/
theorem forM_eq_ok_iff {f : α → Except ε Unit} {as : List α} :
    as.forM f = .ok () ↔ ∀ a ∈ as, f a = .ok () := by
  induction as with
  | nil => exact iff_of_true rfl nofun
  | cons a rest ih =>
    show (f a >>= fun _ => rest.forM f) = .ok () ↔ _
    rw [bind_eq_ok_iff, List.forall_mem_cons, ← ih]
    exact ⟨fun ⟨_, h⟩ => h, fun h => ⟨(), h⟩⟩

/-! ## Steps that meet demands -/

/-- **A step that demands screen**, one for each reason to fail: it succeeds if
all of them are met, and fails for a reason whose demand is not met otherwise. -/
def Screened (Met : ε → Prop) (x : Except ε α) : Prop :=
  (∃ a, x = .ok a) ∧ (∀ e, Met e) ∨ ∃ e, x = .error e ∧ ¬ Met e

namespace Screened

variable {Met Met' : ε → Prop} {x : Except ε α}

theorem exists_ok_iff (h : Screened Met x) : (∃ a, x = .ok a) ↔ ∀ e, Met e := by
  obtain ⟨returned, met⟩ | ⟨e, rfl, failed⟩ := h
  · exact iff_of_true returned met
  · exact iff_of_false (by rintro ⟨a, ⟨⟩⟩) fun met => failed (met e)

theorem not_met (h : Screened Met x) {e : ε} (he : x = .error e) : ¬ Met e := by
  obtain ⟨⟨a, ha⟩, -⟩ | ⟨e', he', failed⟩ := h
  · cases ha.symm.trans he
  · cases he'.symm.trans he
    exact failed

/-- A step with one demand that can go unmet fails for this reason only. -/
theorem eq_error (h : Screened Met x) {reason : ε} (others : ∀ e, e ≠ reason → Met e)
    (unmet : ¬ Met reason) : x = .error reason := by
  obtain ⟨-, met⟩ | ⟨e, he, failed⟩ := h
  · exact absurd (met reason) unmet
  · by_cases heq : e = reason
    · exact heq ▸ he
    · exact absurd (others e heq) failed

theorem of_ok {a : α} (h : x = .ok a) (met : ∀ e, Met e) : Screened Met x :=
  .inl ⟨⟨a, h⟩, met⟩

theorem congr (h : Screened Met x) (hmet : ∀ e, Met e ↔ Met' e) : Screened Met' x :=
  funext (fun e => propext (hmet e)) ▸ h

/-- **One step after the other** is screened by the demands of both. -/
theorem bind {f : α → Except ε β} (h : Screened Met x) (hf : ∀ a, Screened Met' (f a)) :
    Screened (fun e => Met e ∧ Met' e) (x >>= f) := by
  obtain ⟨⟨a, rfl⟩, met⟩ | ⟨e, rfl, failed⟩ := h
  · obtain ⟨returned, met'⟩ | ⟨e, he, failed⟩ := hf a
    · exact .inl ⟨returned, fun e => ⟨met e, met' e⟩⟩
    · exact .inr ⟨e, he, fun both => failed both.2⟩
  · exact .inr ⟨e, rfl, fun both => failed both.1⟩

/-- A step that cannot fail may follow. -/
theorem bind_ok {f : α → Except ε β} (h : Screened Met x) (hf : ∀ a, ∃ b, f a = .ok b) :
    Screened Met (x >>= f) :=
  have total : ∀ a, Screened (fun _ => True) (f a) := fun a => .inl ⟨hf a, fun _ => trivial⟩
  (h.bind total).congr fun _ => and_iff_left trivial

theorem map {f : α → β} (h : Screened Met x) : Screened Met (x.map f) := by
  obtain ⟨⟨a, rfl⟩, met⟩ | ⟨e, rfl, failed⟩ := h
  · exact .of_ok rfl met
  · exact .inr ⟨e, rfl, failed⟩

/-- A demand on a reason is one on what the reason is passed on as. -/
theorem mapError {f : ε → ε'} (h : Screened Met x) :
    Screened (fun e' => ∀ e, e' = f e → Met e) (x.mapError f) := by
  obtain ⟨⟨a, rfl⟩, met⟩ | ⟨e, rfl, failed⟩ := h
  · exact .of_ok rfl fun _ e _ => met e
  · exact .inr ⟨f e, rfl, fun met => failed (met e rfl)⟩

/-- **A step for each item** is screened by the demands of all of them. -/
theorem mapM {f : α → Except ε β} {Meets : α → ε → Prop} {as : List α}
    (h : ∀ a ∈ as, Screened (Meets a) (f a)) :
    Screened (fun e => ∀ a ∈ as, Meets a e) (as.mapM f) := by
  induction as with
  | nil => exact .of_ok rfl fun _ => nofun
  | cons a rest ih =>
    obtain ⟨ha, hrest⟩ := List.forall_mem_cons.mp h
    rw [List.mapM_cons]
    refine (ha.bind fun b => (ih hrest).bind_ok fun bs => ⟨b :: bs, rfl⟩).congr fun e => ?_
    rw [List.forall_mem_cons]

end Screened

end CortexCall.Outcome
