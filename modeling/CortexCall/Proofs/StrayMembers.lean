import CortexCall.Proofs.EquivalentRequests

/-!
# Members that are no fields

A member that is no field of the function is **stray**. Arguments with a stray member are
rejected, and the rejection should tell which one it is. By the time it is looked for, the
members have been moved about: those that are `null` are gone, and those under an
alternate spelling stand at the end under another name. The stray ones are not touched by
this. They stand in the order in which they were given, and if the fields are in order,
the first of them is what the rejection is about, `Payload.ofText_of_stray`.

Its name is shown as it is, even where it looks like something else, such as an item of a
list. Only a name with nothing in it is lost: a rejection about it is about no field, and
reads as if the member were called `None`. So a rejection names the first stray member
exactly if that has a name, and two rejections read the same for different members only if
one of them has none: `stray_named_iff`.
-/

namespace CortexCall

/-- Whether what is given for a parameter is right by itself: it passes the check of its
kind, and it is given if it must be. -/
def Parameter.isMet (q : Parameter) (m : Members) : Bool :=
  match q.given m with
  | some v => (q.kind.check v).toOption.isSome
  | none => !q.required

namespace AiFunction

/-- **The names of the stray members**, in order: they are not `null`, and no field can be
given under them. -/
def strayNames (f : AiFunction) (m : Members) : List Text :=
  m.present.names.filter fun n => !f.memberNames.contains n

/-- No half of a surrogate pair is in the name of a stray member. -/
def HasWholeStrays (f : AiFunction) (m : Members) : Prop :=
  ∀ n ∈ f.strayNames m, n.isWhole = true

instance (f : AiFunction) (m : Members) : Decidable (f.HasWholeStrays m) :=
  inferInstanceAs (Decidable (∀ n ∈ f.strayNames m, n.isWhole = true))

/-- **Members whose fields are in order**: no field is given under two spellings, and each
one is right by itself. -/
structure IsFilledBy (f : AiFunction) (m : Members) : Prop where
  single : ∀ row ∈ f.spellings, (m.present.spellingsOf row.1 row.2).length ≤ 1
  met : ∀ q ∈ f.parameters, q.isMet m = true

end AiFunction

/-- **A request with a stray member**: a function is called with an object whose fields are
in order, and `name` is the first of the names that are no fields. -/
structure Request.Strays (function args : Option Text) (c : Callee) (m : Members) (name : Text) :
    Prop where
  resolved : Callee.resolve function = .ok c
  object : object? args = some m
  filled : c.function.IsFilledBy m
  first : (c.function.strayNames m).head? = some name

/-- **A rejection names a member** as one that the function does not expect. -/
structure RequestError.Names (e : RequestError) (function name : Text) : Prop where
  kind : e.kind = .unexpectedField
  field : e.field = some name
  message : e.message = function ++ ": unexpected field ".toText ++ name ++ ".".toText

/-- A name as a message shows it. A name with nothing in it reads `None`. -/
def Text.orNone (t : Text) : Text := if t = [] then "None".toText else t

/-! ## The rejection for a stray member -/

section Rejection

variable {c : Callee} {args : Option Text} {m u : Members} {name : Text}

/-- **Entries can be taken from what is given** if each parameter is met by it. -/
theorem Entries.exists_taken {ps : List Parameter} (met : ∀ q ∈ ps, q.isMet m = true) :
    ∃ e, Taken (fun q => q.given m) ps e := by
  induction ps with
  | nil => exact ⟨[], .nil⟩
  | cons q rest ih =>
    obtain ⟨hq, hrest⟩ := List.forall_mem_cons.mp met
    obtain ⟨e, taken⟩ := ih hrest
    unfold Parameter.isMet at hq
    cases hj : q.given m with
    | none =>
      rw [hj] at hq
      exact ⟨e, .none hj (Bool.not_eq_true' _ ▸ hq) taken⟩
    | some j =>
      rw [hj] at hq
      obtain ⟨v, hv⟩ := Option.isSome_iff_exists.mp hq
      exact ⟨(q.field, v) :: e, .some hj (toOption_eq_some_iff.mp hv) taken⟩

/-- Members can be unified if no field is given under two spellings. -/
theorem AiFunction.exists_unified {f : AiFunction} (function : Text)
    (single : ∀ row ∈ f.spellings, (m.present.spellingsOf row.1 row.2).length ≤ 1) :
    ∃ u, m.unify function f.spellings = .ok u ∧ Members.Unified f.spellings m.present u := by
  obtain ⟨u, hu⟩ := (decides_unify function f m).isOk_iff.mpr (List.forall_mem_map.mpr single)
  exact ⟨u, hu, (Members.unifyFields_eq_ok f.isDisjoint_spellings hu).2⟩

namespace Payload

/-- Whether the names can be read is a matter of the stray ones. -/
theorem hasReadableNames_iff {f : AiFunction} (hu : Members.Unified f.spellings m.present u) :
    hasReadableNames u = true ↔ f.HasWholeStrays m := by
  rw [hasReadableNames_eq f, filter_names_of_unified hu]
  exact List.all_eq_true

/-- **A stray name that is not whole** spoils the object. -/
theorem ofText_of_unreadable (hm : Request.object? args = some m)
    (single : ∀ row ∈ c.function.spellings, (m.present.spellingsOf row.1 row.2).length ≤ 1)
    (unreadable : ¬ c.function.HasWholeStrays m) :
    ofText c args = .error (.invalid c.sqlName (some .unreadableName)) := by
  obtain ⟨u, hu, unified⟩ := AiFunction.exists_unified c.sqlName single
  rw [ofText_of_unify hm hu]
  unfold ofJson
  dsimp only
  rw [if_neg (mt (hasReadableNames_iff unified).mp unreadable)]

/-- **The first stray member is what the rejection is about**, if the fields are in order
and the stray names are whole. -/
theorem ofText_of_stray (hm : Request.object? args = some m) (filled : c.function.IsFilledBy m)
    (first : (c.function.strayNames m).head? = some name)
    (whole : c.function.HasWholeStrays m) :
    ofText c args = .error (.invalid c.sqlName (some (.unexpected name))) := by
  obtain ⟨u, hu, unified⟩ := AiFunction.exists_unified c.sqlName filled.single
  obtain ⟨e, taken⟩ := Entries.exists_taken filled.met
  have checked : Parameter.checkAll u c.function.parameters = .ok e :=
    (Parameter.checkAll_eq_ok_iff (fun q hq => get?_of_unified unified hq)
      fun q _ j hj => (Parameter.exists_mem_of_given hj).2).mpr taken
  -- the stray names are looked for among the unified members, and are as they were given
  have found : Parameter.firstUnexpected c.function.parameters u = some name := by
    rw [firstUnexpected_of_unified unified, ← List.head?_filter]
    exact first
  rw [ofText_of_unify hm hu]
  unfold ofJson ofMembers
  dsimp only
  rw [if_pos ((hasReadableNames_iff unified).mpr whole), checked, found]
  rfl

end Payload

end Rejection

namespace Request.Strays

variable {function args : Option Text} {c : Callee} {m : Members} {name : Text}

theorem accept_eq (h : Strays function args c m name) (whole : c.function.HasWholeStrays m) :
    accept function args = .error (.invalid c.sqlName (some (.unexpected name))) := by
  rw [accept_of_resolve h.resolved, Payload.ofText_of_stray h.object h.filled h.first whole]
  rfl

theorem accept_eq_unreadable (h : Strays function args c m name)
    (unreadable : ¬ c.function.HasWholeStrays m) :
    accept function args = .error (.invalid c.sqlName (some .unreadableName)) := by
  rw [accept_of_resolve h.resolved,
    Payload.ofText_of_unreadable h.object h.filled.single unreadable]
  rfl

end Request.Strays

/-! ## What the rejection says -/

/-- No name of a function has a colon in it. -/
theorem Callee.colon_not_mem_sqlNames : ∀ n ∈ sqlNames, CodePoint.char ':' ∉ n := by decide

theorem Request.Strays.colon_not_mem {function args : Option Text} {c : Callee} {m : Members}
    {name : Text} (h : Strays function args c m name) : CodePoint.char ':' ∉ c.sqlName :=
  Callee.colon_not_mem_sqlNames _ (Callee.sqlName_mem_of_resolve h.resolved)

namespace Text

/-- **Names are shown apart**, but for the empty one and `None`. -/
theorem orNone_eq_iff {s t : Text} : s.orNone = t.orNone
    ↔ s = t ∨ s = [] ∧ t = "None".toText ∨ s = "None".toText ∧ t = [] := by
  have none_ne : "None".toText ≠ [] := by decide
  unfold orNone
  split_ifs with hs ht ht
  · simp [hs, ht]
  · simp only [hs, true_and, Ne.symm ht, false_or, none_ne.symm, false_and, or_false]
    exact eq_comm
  · simp [hs, ht]
  · simp [hs, ht]

/-- What stands before a character is found by going up to it. -/
theorem takeWhile_append_cons {s : Text} {x : CodePoint} (hs : x ∉ s) (rest : Text) :
    (s ++ x :: rest).takeWhile (· != x) = s := by
  have before : ∀ c ∈ s, (c != x) = true := fun c hc => bne_iff_ne.mpr fun e => hs (e ▸ hc)
  rw [List.takeWhile_append_of_pos before, List.takeWhile_cons_of_neg (by simp), List.append_nil]

end Text

namespace RequestError

variable {function function' name name' : Text}

theorem message_unexpected (function name : Text) :
    (invalid function (some (.unexpected name))).message
      = function ++ ": unexpected field ".toText ++ name.orNone ++ ".".toText := by
  show function ++ _ ++ (Issue.unexpected name).field.getD "None".toText ++ _ = _
  rw [Issue.field_of_path rfl]
  unfold Text.orNone
  split <;> rfl

/-- **A stray member is named exactly if there is something in its name.** -/
theorem names_unexpected_iff :
    (invalid function (some (.unexpected name))).Names function name ↔ name ≠ [] := by
  constructor
  · rintro ⟨-, field, -⟩ rfl
    cases field
  · intro hname
    refine ⟨rfl, (Issue.field_of_path rfl).trans (if_neg hname), ?_⟩
    rw [message_unexpected, Text.orNone, if_neg hname]

/-- **Two rejections for stray members read the same** for one function and names that are
shown alike. -/
theorem message_unexpected_eq_iff (hf : CodePoint.char ':' ∉ function)
    (hf' : CodePoint.char ':' ∉ function') :
    (invalid function (some (.unexpected name))).message
        = (invalid function' (some (.unexpected name'))).message
      ↔ function = function' ∧ name.orNone = name'.orNone := by
  rw [message_unexpected, message_unexpected, List.append_left_inj, List.append_assoc,
    List.append_assoc]
  constructor
  · intro same
    -- the name of the function ends at the first colon
    have functions : function = function' := by
      rw [← Text.takeWhile_append_cons hf, ← Text.takeWhile_append_cons hf']
      exact congrArg _ same
    subst functions
    exact ⟨rfl, List.append_cancel_left (List.append_cancel_left same)⟩
  · rintro ⟨rfl, hname⟩
    rw [hname]

end RequestError

/-! ## Whether a stray member is named -/

/-- **A stray member is named exactly if it has a name**, and all stray names are whole. A
request with a stray member is always rejected. If the name of the first one is empty, the
rejection is about no field and calls it `None`. Two rejections for stray members read the
same only for one function, and for one name, unless one of the names is empty and the
other one is `None`. -/
theorem stray_named_iff {function args : Option Text} {c : Callee} {m : Members} {name : Text}
    (h : Request.Strays function args c m name) :
    ∃ e, accept function args = .error e
      ∧ (e.Names c.sqlName name ↔ name ≠ [] ∧ c.function.HasWholeStrays m)
      ∧ (c.function.HasWholeStrays m →
        (name = [] → e.kind = .unexpectedField ∧ e.field = none
          ∧ e.message = c.sqlName ++ ": unexpected field None.".toText)
        ∧ ∀ {function' args' : Option Text} {c' : Callee} {m' : Members} {name' : Text},
          Request.Strays function' args' c' m' name' → c'.function.HasWholeStrays m' →
          ∃ e', accept function' args' = .error e'
            ∧ (e.message = e'.message ↔ c.sqlName = c'.sqlName
              ∧ (name = name' ∨ name = [] ∧ name' = "None".toText
                ∨ name = "None".toText ∧ name' = []))) := by
  by_cases whole : c.function.HasWholeStrays m
  · refine ⟨_, h.accept_eq whole, ?_, fun _ => ⟨?_, fun h' whole' => ?_⟩⟩
    · rw [RequestError.names_unexpected_iff]
      exact (and_iff_left whole).symm
    · rintro rfl
      refine ⟨rfl, rfl, ?_⟩
      rw [RequestError.message_unexpected, List.append_assoc, List.append_assoc]
      rfl
    · refine ⟨_, h'.accept_eq whole', ?_⟩
      rw [RequestError.message_unexpected_eq_iff h.colon_not_mem h'.colon_not_mem,
        Text.orNone_eq_iff]
  · refine ⟨_, h.accept_eq_unreadable whole, iff_of_false (fun named => ?_) (whole ·.2),
      fun readable => absurd readable whole⟩
    cases named.kind

/-- Arguments for counting tokens, with two stray members between the fields: one that is
called like an item of a list, and one without a name. A third one is `null`. -/
def strayItem : Members :=
  [("zone".toText, .null), ("text".toText, .str "hi".toText),
   ("categories[0]".toText, .arr []), ("function".toText, .str "ai_embed".toText),
   ("".toText, .bool true), ("modelName".toText, .str "m".toText)]

/-- Arguments for a filter, with a stray member that is called `None`. -/
def strayNone : Members :=
  [("predicate".toText, .str "p".toText), ("None".toText, .bool true)]

theorem strays_strayItem : Request.Strays (some "ai_count_tokens".toText)
    (some ((Json.obj strayItem).print .spaced)) (.ofFunction .countTokens) strayItem
    "categories[0]".toText where
  resolved := by decide +kernel
  object := Request.object?_print
    ⟨by decide, trivial, trivial, trivial, trivial, trivial, trivial, trivial⟩ rfl
  filled := ⟨by decide +kernel, by decide +kernel⟩
  first := by decide +kernel

theorem strays_strayNone : Request.Strays (some "AI_FILTER".toText)
    (some ((Json.obj strayNone).print .spaced)) (.ofFunction .filter) strayNone
    "None".toText where
  resolved := by decide +kernel
  object := Request.object?_print ⟨by decide, trivial, trivial, trivial⟩ rfl
  filled := ⟨by decide +kernel, by decide +kernel⟩
  first := by decide +kernel

/-- The member that is called like an item is named, as itself. -/
theorem stray_named_iff_item :
    Request.Strays (some "ai_count_tokens".toText) (some ((Json.obj strayItem).print .spaced))
        (.ofFunction .countTokens) strayItem "categories[0]".toText
      ∧ AiFunction.countTokens.HasWholeStrays strayItem
      ∧ Request.Strays (some "AI_FILTER".toText) (some ((Json.obj strayNone).print .spaced))
        (.ofFunction .filter) strayNone "None".toText
      ∧ AiFunction.filter.HasWholeStrays strayNone
      ∧ ∃ e e', accept (some "ai_count_tokens".toText)
          (some ((Json.obj strayItem).print .spaced)) = .error e
        ∧ accept (some "AI_FILTER".toText) (some ((Json.obj strayNone).print .spaced)) = .error e'
        ∧ e.Names "AI_COUNT_TOKENS".toText "categories[0]".toText
        ∧ e.message ≠ e'.message := by
  have whole : AiFunction.countTokens.HasWholeStrays strayItem := by decide +kernel
  have whole' : AiFunction.filter.HasWholeStrays strayNone := by decide +kernel
  obtain ⟨e, he, named, others⟩ := stray_named_iff strays_strayItem
  obtain ⟨e', he', same⟩ := (others whole).2 strays_strayNone whole'
  refine ⟨strays_strayItem, whole, strays_strayNone, whole', e, e', he, he',
    named.mpr ⟨by decide, whole⟩, fun h => ?_⟩
  exact absurd (same.mp h).1 (by decide)

/-- Arguments for a filter, with a stray member that has an empty name. -/
def strayUnnamed : Members :=
  [("predicate".toText, .str "p".toText), ("".toText, .bool true)]

theorem strays_strayUnnamed : Request.Strays (some "AI_FILTER".toText)
    (some ((Json.obj strayUnnamed).print .spaced)) (.ofFunction .filter) strayUnnamed [] where
  resolved := by decide +kernel
  object := Request.object?_print ⟨by decide, trivial, trivial, trivial⟩ rfl
  filled := ⟨by decide +kernel, by decide +kernel⟩
  first := by decide +kernel

/-- **A stray member with an empty name is not named**: the rejection is about no field,
and it reads like the one for a member that is called `None`. -/
theorem not_named_strayUnnamed :
    Request.Strays (some "AI_FILTER".toText) (some ((Json.obj strayUnnamed).print .spaced))
        (.ofFunction .filter) strayUnnamed []
      ∧ AiFunction.filter.HasWholeStrays strayUnnamed
      ∧ ∃ e e', accept (some "AI_FILTER".toText)
          (some ((Json.obj strayUnnamed).print .spaced)) = .error e
        ∧ accept (some "AI_FILTER".toText) (some ((Json.obj strayNone).print .spaced)) = .error e'
        ∧ e.kind = .unexpectedField ∧ e.field = none
        ∧ ¬ e.Names "AI_FILTER".toText []
        ∧ e'.Names "AI_FILTER".toText "None".toText ∧ e.message = e'.message := by
  have whole : AiFunction.filter.HasWholeStrays strayUnnamed := by decide +kernel
  have whole' : AiFunction.filter.HasWholeStrays strayNone := by decide +kernel
  refine ⟨strays_strayUnnamed, whole, _, _, strays_strayUnnamed.accept_eq whole,
    strays_strayNone.accept_eq whole', rfl, rfl, ?_, ?_, by decide +kernel⟩
  · exact fun named => RequestError.names_unexpected_iff.mp named rfl
  · exact RequestError.names_unexpected_iff.mpr (by decide)

end CortexCall
