import CortexCall.Proofs.SettledPayload

/-!
# Requests that nest too deep

A reader that can be inside so many containers at once accepts a request under
one more condition than its checks: the argument text must not open a container
too many. If it does, the request is neither accepted nor rejected. The reading
is interrupted, and nothing further is said of the request, not even that its
text is no JSON: `acceptWithin_iff_checks`. Only the name is looked at before.

The depth of the text is what counts, and not that of the object it spells. Of
two members of one name the last one counts, so that a text can be too deep for
any reader and spell an object that is as flat as can be, `shadowedArguments`.
-/

namespace CortexCall

namespace Request

/-- Whether an argument text opens more containers inside each other than a reader
may be inside. -/
def IsTooDeep (levels : ℕ) (args : Option Text) : Prop :=
  Json.Opens .strict (levels + 1) (Json.skipSpace (Text.strip (args.getD [])))

/-- A text that is too deep is not blank. -/
theorem IsTooDeep.ne_nil {levels : ℕ} {args : Option Text} (h : IsTooDeep levels args) :
    Text.strip (args.getD []) ≠ [] := by
  intro blank
  unfold IsTooDeep at h
  rw [blank] at h
  exact absurd h.le_length (Nat.not_succ_le_zero _)

end Request

/-- **A printed object is too deep** for a reader if it nests deeper than the reader
may be. -/
theorem Request.isTooDeep_print_iff {l : Json.Layout} (hl : l.IsSound) {m : Members}
    (regular : (Json.obj m).IsRegular) (finite : (Json.obj m).allFinite = true) {levels : ℕ} :
    IsTooDeep levels (some ((Json.obj m).print l)) ↔ levels < (Json.obj m).nesting := by
  obtain ⟨within, beyond⟩ := Json.readWithin_print hl .strict regular finite levels
  unfold IsTooDeep
  rw [Option.getD_some, Json.strip_print_obj, ← Json.exists_isInterrupted_iff]
  refine ⟨?_, beyond⟩
  rintro ⟨c, before, interrupted⟩
  refine Nat.lt_of_not_le fun shallow => ?_
  cases interrupted.symm.trans (within shallow)

section Within

variable {levels : ℕ} {label : Text} {function args : Option Text}

/-! ## The object -/

/-- **The reading of an object is interrupted** if its text is too deep. -/
theorem readObjectWithin_of_tooDeep (h : Request.IsTooDeep levels args) (label : Text) :
    ∃ k, Request.readObjectWithin levels label args = .error (.interrupted k) := by
  obtain ⟨k, before, hread⟩ := Json.exists_isInterrupted_iff.mpr h
  refine ⟨k, ?_⟩
  unfold Request.readObjectWithin Request.trimmed
  dsimp only
  rw [if_neg (mt List.isEmpty_iff.mp h.ne_nil)]
  show Request.objectUnlessInterrupted label _ = _
  rw [hread]
  rfl

/-- Any other object is read as without a bound. -/
theorem readObjectWithin_of_not_tooDeep (h : ¬ Request.IsTooDeep levels args) :
    Request.readObjectWithin levels label args
      = (Request.readObject label args).mapError .rejected := by
  unfold Request.readObjectWithin Request.readObject Request.trimmed
  dsimp only
  split
  · rfl
  · show Request.objectUnlessInterrupted label _
      = (Request.objectOf label (Json.read .strict _)).mapError .rejected
    rw [Json.readWithin_eq_read h]
    unfold Request.objectUnlessInterrupted
    split
    · next c before hread => exact absurd ⟨before, hread⟩ (Json.not_isInterrupted_read c)
    · rfl

/-! ## The request -/

/-- A request whose text is too deep is interrupted once its name is known. -/
theorem acceptWithin_of_tooDeep (h : Request.IsTooDeep levels args) {c : Callee}
    (hc : Callee.resolve function = .ok c) :
    ∃ k, acceptWithin levels function args = .error (.interrupted k) := by
  obtain ⟨k, hk⟩ := readObjectWithin_of_tooDeep h Request.argsLabel
  refine ⟨k, ?_⟩
  unfold acceptWithin Payload.ofTextWithin
  rw [hc, hk]
  rfl

/-- A request whose name is not known is rejected for that, however deep its text
is. -/
theorem acceptWithin_of_unresolved {e : ResolveError} (he : Callee.resolve function = .error e)
    (levels : ℕ) (args : Option Text) :
    acceptWithin levels function args = .error (.rejected (.callee e))
      ∧ accept function args = .error (.callee e) := by
  unfold acceptWithin accept
  rw [he]
  exact ⟨rfl, rfl⟩

/-- **Any other request comes to what it comes to without a bound.** -/
theorem acceptWithin_of_not_tooDeep (h : ¬ Request.IsTooDeep levels args) :
    acceptWithin levels function args = (accept function args).mapError .rejected := by
  unfold acceptWithin accept Payload.ofTextWithin Payload.ofText
  rw [readObjectWithin_of_not_tooDeep h]
  cases Callee.resolve function with
  | error e => rfl
  | ok c =>
    cases hm : Request.readObject Request.argsLabel args with
    | error e => rfl
    | ok m =>
      show (Payload.ofObject c m).mapError Refusal.rejected >>= _
        = (Payload.ofObject c m >>= _).mapError Refusal.rejected
      cases Payload.ofObject c m <;> rfl

/-- **A request is accepted exactly if it meets every check** and its text is not
too deep for the reader. One that is rejected is rejected for the first check that
it does not meet: the kind and the field of the rejection are those of the check.
And the reading is interrupted exactly if the name is known and the text is too
deep, whatever else is right or wrong with the request. -/
theorem acceptWithin_iff_checks (hplain : Request.IsPlain args) (levels : ℕ) :
    ((∃ r, acceptWithin levels function args = .ok r)
        ↔ (∀ k ∈ Request.checks function args, k.Holds) ∧ ¬ Request.IsTooDeep levels args)
      ∧ (∀ e, acceptWithin levels function args = .error (.rejected e) →
        ∃ k, Check.IsFirstFailing (Request.checks function args) k
          ∧ e.kind = k.kind ∧ e.field = k.place)
      ∧ ((∃ k, acceptWithin levels function args = .error (.interrupted k))
        ↔ (∀ k ∈ Request.nameChecks function, k.Holds) ∧ Request.IsTooDeep levels args) := by
  have decided : Check.Decides RequestError.IsAbout (Request.checks function args)
      (accept function args) := decides_accept hplain
  have named := (decides_resolve function).isOk_iff
  have resolved : (∃ c, Callee.resolve function = .ok c)
      ↔ ∀ k ∈ Request.nameChecks function, k.Holds := by
    rw [← named]
    exact exists_congr fun c => Outcome.mapError_eq_ok_iff.symm
  by_cases deep : Request.IsTooDeep levels args
  · rw [← resolved]
    cases hc : Callee.resolve function with
    | error e =>
      obtain ⟨bounded, unbounded⟩ := acceptWithin_of_unresolved hc levels args
      rw [unbounded] at decided
      rw [bounded]
      refine ⟨iff_of_false nofun fun h => h.2 deep, ?_, iff_of_false nofun nofun⟩
      rintro _ ⟨⟩
      exact decided
    | ok c =>
      obtain ⟨k, hk⟩ := acceptWithin_of_tooDeep deep hc
      rw [hk]
      exact ⟨iff_of_false nofun fun h => h.2 deep, nofun, iff_of_true ⟨k, rfl⟩ ⟨⟨c, rfl⟩, deep⟩⟩
  · rw [acceptWithin_of_not_tooDeep deep]
    refine ⟨?_, fun e he => ?_, iff_of_false ?_ fun h => deep h.2⟩
    · rw [and_iff_left deep, ← decided.isOk_iff]
      exact exists_congr fun r => Outcome.mapError_eq_ok_iff
    · cases haccept : accept function args with
      | ok r =>
        rw [haccept] at he
        cases he
      | error e' =>
        rw [haccept] at he decided
        obtain rfl := Refusal.rejected.inj (Except.error.inj he)
        exact decided
    · rintro ⟨k, hk⟩
      cases haccept : accept function args <;> rw [haccept] at hk <;> cases hk

end Within

/-- Arguments of a classification with several faults: the label of a category
is blank, there are too few others, and a member is no field. -/
def faultyArguments : Text :=
  "\x7b\"list_of_categories\": [\"a\", \x7b\"label\": \" \"\x7d],".toText
    ++ "\"config\": null, \"input\": \x7b\x7d, \"extra\": []\x7d".toText

/-- How a request is refused, if it is: with the kind and the field of its
rejection, or at a container. -/
def Request.refusal? (levels : ℕ) (function args : Option Text) :
    Option ((ErrorKind × Option Text) ⊕ Json.Container) :=
  match acceptWithin levels function args with
  | .ok _ => none
  | .error (.rejected e) => some (.inl (e.kind, e.field))
  | .error (.interrupted c) => some (.inr c)

/-- To a reader that may be inside three containers the blank label comes first, by
the index of its category. One that may be inside two is interrupted at the
category. -/
theorem acceptWithin_iff_checks_classify :
    Request.IsPlain (some faultyArguments)
      ∧ (∃ e, acceptWithin 3 (some "ai_classify".toText) (some faultyArguments)
          = .error (.rejected e) ∧ e.kind = .typeMismatch ∧ e.field = some "categories[1]".toText
        ∧ ∃ k, Check.IsFirstFailing
            (Request.checks (some "ai_classify".toText) (some faultyArguments)) k
          ∧ e.kind = k.kind ∧ e.field = k.place)
      ∧ acceptWithin 2 (some "ai_classify".toText) (some faultyArguments)
          = .error (.interrupted .object)
      ∧ Request.IsTooDeep 2 (some faultyArguments) := by
  have members : ((Request.object? (some faultyArguments)).all fun m =>
      !(Members.names m).contains [] && (Json.obj m).everyChar fun c => !c.isHalf) = true := by
    decide +kernel
  have plain : Request.IsPlain (some faultyArguments) := by
    intro m hm
    rw [Request.object?_eq_some_iff.mpr hm] at members
    obtain ⟨names, whole⟩ := Bool.and_eq_true_iff.mp members
    refine ⟨fun h => ?_, whole⟩
    rw [List.contains_iff_mem.mpr h] at names
    cases names
  have rejection : Request.refusal? 3 (some "ai_classify".toText) (some faultyArguments)
      = some (.inl (.typeMismatch, some "categories[1]".toText)) := by
    decide +kernel
  have interruption : Request.refusal? 2 (some "ai_classify".toText) (some faultyArguments)
      = some (.inr .object) := by
    decide +kernel
  unfold Request.refusal? at rejection interruption
  have interrupted : acceptWithin 2 (some "ai_classify".toText) (some faultyArguments)
      = .error (.interrupted .object) := by
    split at interruption
    · cases interruption
    · cases interruption
    · next c hc =>
      obtain rfl := Sum.inr.inj (Option.some.inj interruption)
      exact hc
  refine ⟨plain, ?_, interrupted, ?_⟩
  · split at rejection
    · cases rejection
    · next e he =>
      obtain ⟨kind, field⟩ := Prod.mk.inj (Sum.inl.inj (Option.some.inj rejection))
      exact ⟨e, he, kind, field, (acceptWithin_iff_checks plain 3).2.1 e he⟩
    · cases rejection
  · exact ((acceptWithin_iff_checks plain 2).2.2.mp ⟨_, interrupted⟩).2

/-! ## A text deeper than its object -/

section Shadowed

variable {d : Json.Dialect}

theorem Json.printAt_nested (level n : ℕ) (rest : Text) :
    printAt .compact level (nested (n + 1)) ++ rest
      = .char '[' :: (printAt .compact (level + 1) (nested n) ++ .char ']' :: rest) := by
  rw [nested, printAt, printItems, printItems]
  simp [Layout.enclose, Layout.lineBreak, Layout.compact, Text.join_singleton]

/-- Arrays inside each other open as many containers. -/
theorem Json.opens_printAt_nested (level n : ℕ) (rest : Text) :
    Opens d (n + 1) (printAt .compact level (nested (n + 1)) ++ rest) := by
  induction n generalizing level rest with
  | zero => exact .array
  | succ n ih =>
    rw [printAt_nested]
    exact .inArray (.refl _) .here (ih (level + 1) _)

/-- The members of a filter's arguments with so many arrays as a predicate, and behind
them a predicate that is a text. -/
def shadowedMembers (n : ℕ) : List (Text × Json) :=
  [("predicate".toText, .nested n), ("predicate".toText, .str "p".toText)]

/-- Their text, in which the name stands twice. -/
def shadowedArguments (n : ℕ) : Text := (Json.obj (shadowedMembers n)).print .compact

theorem shadowedArguments_eq (n : ℕ) : shadowedArguments n
    = .char '\x7b' :: (Text.join (Json.Layout.compact.between 1)
      (Json.printMembers .compact 1 (shadowedMembers n)) ++ [.char '\x7d']) := by
  unfold shadowedArguments Json.print Json.printAt
  show CodePoint.char '\x7b' :: ([] ++ _ ++ [] ++ [CodePoint.char '\x7d']) = _
  rw [List.nil_append, List.append_nil]

/-- The text spells the predicate that counts, and nothing else. -/
theorem denotes_shadowedArguments (n : ℕ) : Json.Denotes d (shadowedArguments n)
    (.obj [("predicate".toText, .str "p".toText)]) := by
  have members := Json.derives_printMembers (d := d) Json.Layout.isSound_compact 1
    (shadowedMembers n) (List.cons_ne_nil _ _) ⟨Json.isRegular_nested n, trivial, trivial⟩
    (by simp [shadowedMembers, Json.membersFinite, Json.allFinite]) _ (Nat.le_refl _)
    [.char '\x7d'] [] (.refl _)
  rw [shadowedArguments_eq]
  exact ⟨_, _, [], .refl _, .object (.refl _) members, .refl _⟩

/-- The text is too deep for a reader that may be inside as many containers as there
are arrays. -/
theorem opens_shadowedArguments (n : ℕ) : Json.Opens d (n + 2) (shadowedArguments (n + 1)) := by
  rw [shadowedArguments_eq, shadowedMembers]
  unfold Json.printMembers Json.printMembers
  rw [Text.join_cons_cons]
  unfold Json.printText
  simp only [List.cons_append, List.append_assoc]
  exact .inObject (.refl _) (.here (Json.spells_printText _ _) (.refl _) (.refl _))
    (Json.opens_printAt_nested 1 n _)

end Shadowed

/-- Neither does such a text have anything to strip. -/
theorem skipSpace_strip_shadowedArguments (n : ℕ) :
    Json.skipSpace (shadowedArguments n) = shadowedArguments n
      ∧ Text.strip (shadowedArguments n) = shadowedArguments n := by
  refine ⟨?_, Json.strip_print_obj _ (shadowedMembers n)⟩
  rw [shadowedArguments_eq]
  rfl

/-- **No reader is deep enough for every text**: whatever a reader may be inside,
some text meets every check, and the request is not accepted. -/
theorem not_accepted_shadowedArguments :
    ¬ ∃ levels, ∀ function args : Option Text, Request.IsPlain args →
      (∀ k ∈ Request.checks function args, k.Holds) →
      ∃ r, acceptWithin levels function args = .ok r := by
  rintro ⟨levels, accepted⟩
  obtain ⟨space, strip⟩ := skipSpace_strip_shadowedArguments (levels + 1)
  have denotes := denotes_shadowedArguments (d := .strict) (levels + 1)
  have object : Request.object? (some (shadowedArguments (levels + 1)))
      = some [("predicate".toText, .str "p".toText)] := by
    rw [Request.object?_eq_some_iff, Option.getD_some, strip]
    exact denotes
  have plain : Request.IsPlain (some (shadowedArguments (levels + 1))) := by
    intro m hm
    rw [Option.getD_some, strip] at hm
    obtain rfl := Json.obj.inj (hm.unique denotes)
    have whole : Json.everyChar (fun c => !c.isHalf)
        (.obj [("predicate".toText, .str "p".toText)]) = true := by decide
    exact ⟨by decide, whole⟩
  have deep : Request.IsTooDeep levels (some (shadowedArguments (levels + 1))) := by
    unfold Request.IsTooDeep
    rw [Option.getD_some, strip, space]
    exact (opens_shadowedArguments levels).of_lt (by omega)
  have resolved : Callee.resolve (some "AI_FILTER".toText) = .ok ⟨.filter, "AI_FILTER".toText⟩ := by
    decide
  have checked : Payload.ofText ⟨.filter, "AI_FILTER".toText⟩
      (some (shadowedArguments (levels + 1))) = .ok ⟨.filter, [(.predicate, .text "p".toText)]⟩ :=
    Payload.ofText_eq_ok_iff.mpr ⟨_, _, object, rfl, rfl, rfl, rfl⟩
  obtain ⟨r, hr⟩ := accepted _ _ plain ((decides_accept plain).isOk_iff.mp
    ⟨_, accept_eq_ok_iff.mpr ⟨resolved, checked⟩⟩)
  obtain ⟨k, hk⟩ := acceptWithin_of_tooDeep deep resolved
  cases hr.symm.trans hk

end CortexCall
