import CortexCall.Dispatch
import CortexCall.Proofs.JsonReader
import CortexCall.Proofs.RequestChecks

/-!
# Which requests are accepted

A request is a function name and an argument text. `Request.checks` lists
everything that it has to meet, in order: there is a name and it is known;
there is a text, it is JSON, it is an object; the members of the object meet
the checks of the function; the older calling form is not asked for details.

`decides_accept` says that this list is all there is to it. A request is
accepted exactly if it meets every check, and otherwise its rejection has the
kind and the field of the first check that it does not meet, whatever else is
wrong with it.
-/

namespace CortexCall

/-- The callee that a name means, if it is known. -/
def Callee.named? (function : Option Text) : Option Callee :=
  spellings.lookup (Text.upper (Text.strip (function.getD [])))

namespace Request

/-- The object that an argument text spells, if it spells one. -/
def object? (args : Option Text) : Option Members :=
  match Json.read .strict (Text.strip (args.getD [])) with
  | .ok (.obj m) => some m
  | _ => none

/-- There is a name, and it is known. -/
def nameChecks (function : Option Text) : List (Check (Option Text)) :=
  [⟨Text.strip (function.getD []) ≠ [], .missingFunctionName, none⟩,
   ⟨(Callee.named? function).isSome = true, .unsupportedFunction, none⟩]

/-- There is a text, it is JSON, and it is an object. -/
def textChecks (args : Option Text) : List (Check (Option Text)) :=
  [⟨Text.strip (args.getD []) ≠ [], .missingInput, none⟩,
   ⟨∃ v, Json.Denotes .strict (Text.strip (args.getD [])) v, .invalidJson, none⟩,
   ⟨∃ m, Json.Denotes .strict (Text.strip (args.getD [])) (.obj m), .wrongShape, none⟩]

/-- The members are what the function takes, and the older calling form is not
asked for details. -/
def objectChecks (c : Callee) (m : Members) : List (Check (Option Text)) :=
  c.function.checks m
    ++ [⟨c.isLegacy = true → c.function.isGiven m .showDetails = false, .unsupportedArgument,
      some Field.showDetails.name⟩]

/-- **What a request has to meet**, in order. What the members have to meet
depends on the callee and on the object, so it is asked once there are both. -/
def checks (function args : Option Text) : List (Check (Option Text)) :=
  nameChecks function ++ (textChecks args
    ++ match Callee.named? function, object? args with
      | some c, some m => objectChecks c m
      | _, _ => [])

/-- No name in the arguments is empty, and there are no halves of surrogate
pairs in them. -/
def IsPlain (args : Option Text) : Prop :=
  ∀ m : Members, Json.Denotes .strict (Text.strip (args.getD [])) (.obj m) →
    [] ∉ m.names ∧ (Json.obj m).IsWhole

/-- **The object that is found is the one that the text denotes.** -/
theorem object?_eq_some_iff {args : Option Text} {m : Members} :
    object? args = some m ↔ Json.Denotes .strict (Text.strip (args.getD [])) (.obj m) := by
  rw [← Json.read_eq_ok_iff]
  unfold object?
  constructor
  · intro h
    split at h
    · next heq =>
      obtain rfl := Option.some.inj h
      exact heq
    · cases h
  · intro h
    rw [h]

end Request

section Steps

variable {function args : Option Text} {c : Callee} {m : Members}

theorem named?_of_resolve (h : Callee.resolve function = .ok c) :
    Callee.named? function = some c := by
  unfold Callee.resolve at h
  dsimp only at h
  split at h
  · cases h
  · split at h
    · next heq =>
      obtain rfl := Except.ok.inj h
      exact heq
    · cases h

/-- **A name is resolved** if it is one and it is known. -/
theorem decides_resolve (function : Option Text) :
    Check.Decides RequestError.IsAbout (Request.nameChecks function)
      ((Callee.resolve function).mapError RequestError.callee) := by
  unfold Callee.resolve
  dsimp only
  by_cases hblank : (Text.strip (function.getD [])).isEmpty
  · rw [if_pos hblank]
    refine (Check.IsFirstFailing.head fun h => ?_).decides ⟨rfl, rfl⟩
    exact h (List.isEmpty_iff.mp hblank)
  · rw [if_neg hblank]
    rw [List.isEmpty_iff] at hblank
    split
    · next c hc =>
      refine List.forall_mem_cons.mpr ⟨hblank, List.forall_mem_singleton.mpr ?_⟩
      exact Option.isSome_iff_exists.mpr ⟨c, hc⟩
    · next hc =>
      refine (Check.IsFirstFailing.cons hblank (.head fun h => ?_)).decides ⟨rfl, rfl⟩
      have hnone : Callee.named? function = none := hc
      rw [hnone] at h
      cases h

/-- Reading an object is stripping the text, reading it as JSON and asking for
an object. -/
theorem readObject_eq (label : Text) (args : Option Text) :
    Request.readObject label args
      = if (Text.strip (args.getD [])).isEmpty then .error (.emptyText label)
        else match Json.read .strict (Text.strip (args.getD [])) with
          | .error e => .error (.invalidJson label e)
          | .ok (.obj m) => .ok m
          | .ok _ => .error (.notAnObject label) := by
  unfold Request.readObject Request.trimmed
  dsimp only
  split
  · rfl
  · show Request.objectOf label _ = _
    unfold Request.objectOf
    rfl

theorem object?_of_readObject {label : Text} (h : Request.readObject label args = .ok m) :
    Request.object? args = some m := by
  rw [readObject_eq] at h
  unfold Request.object?
  split at h
  · cases h
  · split at h
    · cases h
    · next heq =>
      rw [heq, Except.ok.inj h]
    · cases h

/-- **An object is read** if there is a text, it is JSON, and it is an object. -/
theorem decides_readObject (label : Text) (args : Option Text) :
    Check.Decides RequestError.IsAbout (Request.textChecks args)
      (Request.readObject label args) := by
  rw [readObject_eq]
  unfold Request.textChecks
  by_cases hblank : (Text.strip (args.getD [])).isEmpty
  · rw [if_pos hblank]
    refine (Check.IsFirstFailing.head fun h => ?_).decides ⟨rfl, rfl⟩
    exact h (List.isEmpty_iff.mp hblank)
  · rw [if_neg hblank]
    rw [List.isEmpty_iff] at hblank
    split
    · next e he =>
      refine (Check.IsFirstFailing.cons hblank (.head ?_)).decides ⟨rfl, rfl⟩
      rintro ⟨v, hv⟩
      rw [Json.read_eq_ok_iff.mpr hv] at he
      cases he
    · next m hm =>
      have denotes := Json.read_eq_ok_iff.mp hm
      refine List.forall_mem_cons.mpr ⟨hblank, List.forall_mem_cons.mpr ⟨?_, ?_⟩⟩
      · exact ⟨_, denotes⟩
      · exact List.forall_mem_singleton.mpr ⟨m, denotes⟩
    · next v hne hv =>
      have denotes := Json.read_eq_ok_iff.mp hv
      have isJson : ∃ v, Json.Denotes .strict (Text.strip (args.getD [])) v := ⟨v, denotes⟩
      refine (Check.IsFirstFailing.cons hblank (.cons isJson (.head ?_))).decides ⟨rfl, rfl⟩
      rintro ⟨m, hm⟩
      exact hne m (denotes.unique hm)

/-- **The members of an object are decided** by what the function takes and by
whether details are asked for. -/
theorem decides_members (c : Callee) (hnames : [] ∉ Members.names m)
    (hwhole : (Json.obj m).IsWhole) :
    Check.Decides RequestError.IsAbout (Request.objectChecks c m) (Payload.ofObject c m) := by
  unfold Request.objectChecks AiFunction.checks Payload.ofObject
  rw [List.append_assoc]
  refine (decides_unify c.sqlName c.function m).bind fun m' hm' => ?_
  have hm := (Members.unifyFields_eq_ok c.function.isDisjoint_spellings hm').2
  have pass : Check.Decides RequestError.IsAbout _
      ((Payload.ofMembers c.function m').mapError fun i => .invalid c.sqlName (some i)) :=
    (decides_ofMembers hm hnames hwhole).wrap fun i kind place hi => hi
  have readable : Payload.ofJson c.function (.obj m') = Payload.ofMembers c.function m' :=
    if_pos (hasReadableNames_of_unified hm hwhole)
  have details : ∀ p, Payload.ofMembers c.function m' = .ok p →
      Check.Decides RequestError.IsAbout
        [⟨c.isLegacy = true → c.function.isGiven m .showDetails = false, .unsupportedArgument,
          some Field.showDetails.name⟩] (p.checkDetails c) := by
    intro p hp
    rw [← has_of_ofMembers hm hwhole hp]
    exact decides_checkDetails c p
  rw [readable]
  cases h : Payload.ofMembers c.function m' with
  | ok p =>
    rw [h] at pass
    exact pass.bind fun q hq => details q (h.trans (Outcome.mapError_eq_ok_iff.mp hq))
  | error i =>
    rw [h] at pass
    exact pass.bind (f := fun p => Payload.checkDetails c p) nofun

/-- **The payload of a text is decided** by what makes the text an object, and
by the members of the object. -/
theorem decides_ofText (c : Callee) (hplain : Request.IsPlain args) :
    Check.Decides RequestError.IsAbout
      (Request.textChecks args
        ++ match Request.object? args with
          | some m => Request.objectChecks c m
          | none => [])
      (Payload.ofText c args) := by
  unfold Payload.ofText
  refine (decides_readObject Request.argsLabel args).bind fun m hm => ?_
  have hobject := object?_of_readObject hm
  obtain ⟨hnames, hwhole⟩ := hplain m (Request.object?_eq_some_iff.mp hobject)
  rw [hobject]
  exact decides_members c hnames hwhole

/-- **Accepting a request is decided by its checks.** -/
theorem decides_accept (hplain : Request.IsPlain args) :
    Check.Decides RequestError.IsAbout (Request.checks function args) (accept function args) := by
  unfold accept Request.checks
  refine (decides_resolve function).bind fun c hc => ?_
  rw [named?_of_resolve (Outcome.mapError_eq_ok_iff.mp hc)]
  have text := (decides_ofText c hplain).bind_pure (f := fun p => (c, p))
  cases h : Request.object? args with
  | some m =>
    rw [h] at text
    exact text
  | none =>
    rw [h] at text
    exact text

end Steps

end CortexCall
