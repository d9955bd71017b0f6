import CortexCall.Request.Error
import CortexCall.Proofs.Outcome

/-!
# Checks in order

What a request has to meet is said by a list of **checks**: each is a
condition, together with the kind of rejection and the place it is about
should the condition fail. The order of the list is the order in which a
request with several faults is answered.

`Decides` ties such a list to a computation that may fail: it succeeds only if
every condition of the list holds, and it fails with the kind and the place of
the first that does not. Computations that are put together are decided by
the lists one after the other, which is `Decides.bind`; so a decision about
the whole pipeline is made of decisions about its steps.
-/

namespace CortexCall

/-- **A check**: what must hold, and the kind and the place of the rejection
if it does not. -/
structure Check (π : Type) where
  Holds : Prop
  kind : ErrorKind
  place : π

namespace Check

variable {π ρ ε ε' α β : Type}

/-- The first of some checks that fails. -/
def IsFirstFailing (checks : List (Check π)) (k : Check π) : Prop :=
  ∃ before after, checks = before ++ k :: after ∧ (∀ b ∈ before, b.Holds) ∧ ¬ k.Holds

/-- The check with its place seen from elsewhere. -/
def relocate (f : π → ρ) (k : Check π) : Check ρ := ⟨k.Holds, k.kind, f k.place⟩

/-- **A computation is decided by checks**: it succeeds only if they all hold,
and what it fails with reports the first that fails. -/
def Decides (reports : ε → ErrorKind → π → Prop) (checks : List (Check π)) :
    Except ε α → Prop
  | .ok _ => ∀ k ∈ checks, k.Holds
  | .error e => ∃ k, IsFirstFailing checks k ∧ reports e k.kind k.place

section IsFirstFailing

variable {ks ls : List (Check π)} {k : Check π}

theorem IsFirstFailing.append_right (h : IsFirstFailing ks k) (ls : List (Check π)) :
    IsFirstFailing (ks ++ ls) k := by
  obtain ⟨before, after, rfl, hbefore, hk⟩ := h
  exact ⟨before, after ++ ls, by rw [List.append_assoc, List.cons_append], hbefore, hk⟩

theorem IsFirstFailing.append_left (hks : ∀ b ∈ ks, b.Holds) (h : IsFirstFailing ls k) :
    IsFirstFailing (ks ++ ls) k := by
  obtain ⟨before, after, rfl, hbefore, hk⟩ := h
  refine ⟨ks ++ before, after, (List.append_assoc ..).symm, fun b hb => ?_, hk⟩
  exact (List.mem_append.mp hb).elim (hks b) (hbefore b)

theorem IsFirstFailing.head (h : ¬ k.Holds) : IsFirstFailing (k :: ks) k :=
  ⟨[], ks, rfl, nofun, h⟩

theorem IsFirstFailing.cons {l : Check π} (hl : l.Holds) (h : IsFirstFailing ks k) :
    IsFirstFailing (l :: ks) k :=
  h.append_left (List.forall_mem_singleton.mpr hl)

theorem IsFirstFailing.mem (h : IsFirstFailing ks k) : k ∈ ks ∧ ¬ k.Holds := by
  obtain ⟨before, after, rfl, -, hk⟩ := h
  exact ⟨List.mem_append_right _ List.mem_cons_self, hk⟩

theorem IsFirstFailing.map (f : π → ρ) (h : IsFirstFailing ks k) :
    IsFirstFailing (ks.map (relocate f)) (k.relocate f) := by
  obtain ⟨before, after, rfl, hbefore, hk⟩ := h
  refine ⟨before.map (relocate f), after.map (relocate f), ?_, ?_, hk⟩
  · rw [List.map_append, List.map_cons]
  · intro b hb
    obtain ⟨a, ha, rfl⟩ := List.mem_map.mp hb
    exact hbefore a ha

end IsFirstFailing

namespace Decides

variable {reports : ε → ErrorKind → π → Prop} {ks ls : List (Check π)} {x : Except ε α}

/-- **One computation after the other** is decided by their checks in turn. -/
theorem bind {f : α → Except ε β} (hx : Decides reports ks x)
    (hf : ∀ a, x = .ok a → Decides reports ls (f a)) : Decides reports (ks ++ ls) (x >>= f) := by
  cases x with
  | error e =>
    obtain ⟨k, hk, hreports⟩ := hx
    exact ⟨k, hk.append_right ls, hreports⟩
  | ok a =>
    have hfa := hf a rfl
    show Decides reports (ks ++ ls) (f a)
    cases h : f a with
    | error e =>
      rw [h] at hfa
      obtain ⟨k, hk, hreports⟩ := hfa
      exact ⟨k, hk.append_left hx, hreports⟩
    | ok b =>
      rw [h] at hfa
      exact fun k hk => (List.mem_append.mp hk).elim (hx k) (hfa k)

theorem map {f : α → β} (hx : Decides reports ks x) : Decides reports ks (x.map f) := by
  cases x with
  | error e => exact hx
  | ok a => exact hx

/-- What cannot fail may follow. -/
theorem bind_pure {f : α → β} (hx : Decides reports ks x) :
    Decides reports ks (x >>= fun a => .ok (f a)) := by
  cases x with
  | error e => exact hx
  | ok a => exact hx

/-- Places may be called otherwise. -/
theorem imp {reports' : ε → ErrorKind → ρ → Prop} {place : π → ρ} (hx : Decides reports ks x)
    (h : ∀ e kind p, reports e kind p → reports' e kind (place p)) :
    Decides reports' (ks.map (relocate place)) x := by
  cases x with
  | error e =>
    obtain ⟨k, hk, hreports⟩ := hx
    exact ⟨k.relocate place, hk.map place, h _ _ _ hreports⟩
  | ok a =>
    intro k hk
    obtain ⟨l, hl, rfl⟩ := List.mem_map.mp hk
    exact hx l hl

/-- A failure that is wrapped where it stands. -/
theorem wrap {reports' : ε' → ErrorKind → π → Prop} {f : ε → ε'} (hx : Decides reports ks x)
    (hf : ∀ e kind p, reports e kind p → reports' (f e) kind p) :
    Decides reports' ks (x.mapError f) := by
  cases x with
  | error e =>
    obtain ⟨k, hk, hreports⟩ := hx
    exact ⟨k, hk, hf _ _ _ hreports⟩
  | ok a => exact hx

/-- A failure that is wrapped is about the place seen from outside. -/
theorem mapError {reports' : ε' → ErrorKind → ρ → Prop} {f : ε → ε'} {place : π → ρ}
    (hx : Decides reports ks x)
    (hf : ∀ e kind p, reports e kind p → reports' (f e) kind (place p)) :
    Decides reports' (ks.map (relocate place)) (x.mapError f) := by
  have h : Decides (fun e => reports' (f e)) (ks.map (relocate place)) x := hx.imp hf
  exact h.wrap fun _ _ _ he => he

/-- Checks that are known to hold may stand at the end. -/
theorem append_holding (hx : Decides reports ks x) (hls : ∀ a, x = .ok a → ∀ l ∈ ls, l.Holds) :
    Decides reports (ks ++ ls) x := by
  cases x with
  | error e =>
    obtain ⟨k, hk, hreports⟩ := hx
    exact ⟨k, hk.append_right ls, hreports⟩
  | ok a => exact fun k hk => (List.mem_append.mp hk).elim (hx k) (hls a rfl k)

/-- Checks that are known to hold may stand in front. -/
theorem after_holding (hks : ∀ k ∈ ks, k.Holds) (hx : Decides reports ls x) :
    Decides reports (ks ++ ls) x :=
  bind (x := (.ok () : Except ε Unit)) hks fun _ _ => hx

/-- **Success means that every check holds.** -/
theorem isOk_iff (hx : Decides reports ks x) : (∃ a, x = .ok a) ↔ ∀ k ∈ ks, k.Holds := by
  cases x with
  | ok a => exact iff_of_true ⟨a, rfl⟩ hx
  | error e =>
    obtain ⟨k, hk, -⟩ := hx
    exact iff_of_false (fun ⟨_, h⟩ => by cases h) fun h => hk.mem.2 (h k hk.mem.1)

end Decides

/-- A failure is decided by the first check that fails. -/
theorem IsFirstFailing.decides {reports : ε → ErrorKind → π → Prop} {ks : List (Check π)}
    {k : Check π} {e : ε} (h : IsFirstFailing ks k) (he : reports e k.kind k.place) :
    Decides reports ks (.error e : Except ε α) :=
  ⟨k, h, he⟩

/-- One check that fails. -/
theorem decides_error {reports : ε → ErrorKind → π → Prop} {k : Check π} {e : ε}
    (hk : ¬ k.Holds) (he : reports e k.kind k.place) :
    Decides reports [k] (.error e : Except ε α) :=
  (IsFirstFailing.head hk).decides he

/-- One check that holds. -/
theorem decides_ok {reports : ε → ErrorKind → π → Prop} {k : Check π} {a : α} (hk : k.Holds) :
    Decides reports [k] (.ok a : Except ε α) :=
  List.forall_mem_singleton.mpr hk

/-- No check, and no failure. -/
theorem decides_pure {reports : ε → ErrorKind → π → Prop} (a : α) :
    Decides reports [] (.ok a : Except ε α) :=
  nofun

end Check

end CortexCall
