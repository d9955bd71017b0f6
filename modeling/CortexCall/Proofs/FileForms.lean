import CortexCall.Proofs.DeterminedPayload
import CortexCall.Proofs.Disclosure
import CortexCall.Proofs.EquivalentRequests
import CortexCall.Proofs.FaithfulEcho

/-!
# The two forms of a file

A file may be given by its place, in an object with its stage and its path, or by
the expression that the statement writes for that place. It is the same file, and
a request is not to depend on how it is given. Most of a request does not: whoever
takes the one form takes the other, rejects the other for the same reason, sends
the same statement and logs the same lines, whatever stands in the stage and the
path – `Payload.ofText_spelledOut`.

What depends on it is the echo. It shows the file in the form in which it was given,
and it asks of an expression that it be whole, but not of a stage or a path. So
half of a surrogate pair in either does no harm in the object, and in the
expression it ends the dispatch – `dispatch_fileForms`.
-/

namespace CortexCall

/-! ## The expression of a place -/

/-- **The expression of a place is one call**, whatever its stage and its path are. -/
theorem FileRef.isSingleCall_location (stage path : Text) :
    Sql.isSingleCall (FileRef.location stage path).expressionText = true := by
  have name : Sql.IsName "TO_FILE".toText := by decide
  have single := Sql.isSingleCall_append (w := []) name
    (fun _ hd => absurd hd List.not_mem_nil) (FileRef.balanced_literals stage path)
  rw [expressionText]
  simpa [String.toText] using single

/-- The expression of a place is not surrounded by blanks. -/
theorem FileRef.strip_location (stage path : Text) :
    Text.strip (FileRef.location stage path).expressionText
      = (FileRef.location stage path).expressionText := by
  refine Text.strip_eq_self_iff.mpr ⟨?_, ?_⟩
  · rintro _ ⟨⟩
    decide
  · have last : (FileRef.location stage path).expressionText.getLast? = some (.char ')') :=
      List.getLast?_concat
    rw [last]
    rintro _ ⟨⟩
    decide

namespace Text

/-- Half of a surrogate pair is not blank. -/
theorem isHalf_of_isBlank {c : CodePoint} (h : isBlank c = true) : c.isHalf = false := by
  cases c with
  | char c => rfl
  | half u =>
    have below : ∀ r ∈ blankRanges, r.2 < CodePoint.firstHalf := by decide
    obtain ⟨r, hr, -, hle⟩ := inRanges_iff.mp h
    exact absurd hle (Nat.not_le_of_lt (Nat.lt_add_right u.val (below r hr)))

/-- Blanks in front of a text do not matter to whether it is whole. -/
theorem isWhole_dropWhile (t : Text) : isWhole (t.dropWhile isBlank) = t.isWhole := by
  have blank : isWhole (t.takeWhile isBlank) = true :=
    List.all_eq_true.mpr fun c hc => by rw [isHalf_of_isBlank (List.mem_takeWhile_imp hc)]; rfl
  have parts := isWhole_append (t := t.takeWhile isBlank) (u := t.dropWhile isBlank)
  rw [List.takeWhile_append_dropWhile, blank, Bool.true_and] at parts
  exact parts.symm

theorem isWhole_reverse (t : Text) : isWhole t.reverse = t.isWhole := List.all_reverse

/-- **A text is whole if it is whole without the blanks around it.** -/
theorem isWhole_strip (t : Text) : (strip t).isWhole = t.isWhole := by
  unfold strip stripEnd
  rw [isWhole_reverse, isWhole_dropWhile, isWhole_reverse, isWhole_dropWhile]

end Text

namespace Sql

theorem isWhole_doubled (t : Text) : (doubled t).isWhole = t.isWhole := by
  induction t with
  | nil => rfl
  | cons c rest ih =>
    rw [doubled]
    split
    · next hc =>
      subst hc
      exact ih
    · exact congrArg (!c.isHalf && ·) ih

theorem isWhole_quote (t : Text) : (quote t).isWhole = t.isWhole := by
  have body : (doubled t ++ [mark]).isWhole = t.isWhole := by
    rw [Text.isWhole_append, isWhole_doubled]
    exact Bool.and_true _
  exact body

end Sql

/-- **The expression of a place is whole** if the stage and the path are. -/
theorem FileRef.isWhole_location (stage path : Text) :
    (FileRef.location stage path).expressionText.isWhole = (stage.isWhole && path.isWhole) := by
  have name : "TO_FILE(".toText.isWhole = true := by decide
  have separator : ", ".toText.isWhole = true := by decide
  have close : ")".toText.isWhole = true := by decide
  unfold expressionText
  rw [Text.isWhole_append, Text.isWhole_append, Text.isWhole_append, Text.isWhole_append,
    Sql.isWhole_quote, Sql.isWhole_quote, name, separator, close]
  simp

/-! ## Both forms are taken -/

theorem checkTerm_of_ne_nil {t : Text} (h : Text.strip t ≠ []) :
    checkTerm (.str t) = .ok (Text.strip t) :=
  if_neg fun hempty => h (List.isEmpty_iff.mp hempty)

/-- An object that gives the place of a file. -/
def IsPlace (stage path : Text) (place : Members) : Prop :=
  place.Perm [("stage".toText, .str stage), ("path".toText, .str path)]

/-- **A place is taken**, without the blanks around its stage and its path. -/
theorem checkFile_place {stage path : Text} {place : Members} (hstage : Text.strip stage ≠ [])
    (hpath : Text.strip path ≠ []) (hplace : IsPlace stage path place) :
    checkFile (.obj place) = .ok (.location (Text.strip stage) (Text.strip path)) := by
  have distinct :
      (Members.names [("stage".toText, .str stage), ("path".toText, .str path)]).Nodup := by
    show ["stage".toText, "path".toText].Nodup
    decide
  have found := fun name => Members.get?_of_perm hplace.symm distinct name
  have only : hasOnly ["stage".toText, "path".toText] place = true := by
    refine hasOnly_pair_iff.mpr fun n hn => ?_
    have hn := (hplace.map Prod.fst).subset hn
    simpa using hn
  have located := locationOf?_eq_some_iff.mpr ⟨only, .str stage, _, .str path, _,
    (found _).symm, checkTerm_of_ne_nil hstage, (found _).symm, checkTerm_of_ne_nil hpath, rfl⟩
  unfold checkFile
  dsimp only
  rw [located]

/-- **The expression of a place is taken** as it is. -/
theorem checkFile_expression (stage path : Text) :
    checkFile (.str (FileRef.location stage path).expressionText)
      = .ok (.expression (FileRef.location stage path).expressionText) := by
  have term : IsTerm (FileRef.location stage path).expressionText :=
    ⟨FileRef.strip_location stage path, List.cons_ne_nil _ _⟩
  unfold checkFile
  dsimp only
  rw [checkTerm_str term]
  show (if _ then _ else _) = _
  rw [if_pos (FileRef.isSingleCall_location stage path)]

/-! ## The payload of either form -/

/-- A value in which a place is written as the expression that yields it. -/
def Value.spelledOut : Value → Value
  | .file f => .file (.expression f.expressionText)
  | v => v

/-- A file is the same argument in either form. -/
theorem Value.toArgument_spelledOut (v : Value) : v.spelledOut.toArgument = v.toArgument := by
  cases v <;> rfl

/-- **A payload with the file of a field as an expression.** -/
def Payload.spelledOut (g : Field) (p : Payload) : Payload :=
  ⟨p.function, p.entries.map fun e => (e.1, if e.1 = g then e.2.spelledOut else e.2)⟩

/-- A rule sees no more of the entries than which fields have one. -/
theorem Rule.check_congr {e e' : Entries} (h : ∀ f, e.has f = e'.has f) (r : Rule) :
    r.check e = r.check e' := by
  cases r <;> simp only [check, h]

/-- **The pass over the parameters leaves changed values** if each parameter does. -/
theorem Parameter.checkAll_mapValues {m m' : Members} (change : Field → Value → Value)
    {ps : List Parameter}
    (h : ∀ q ∈ ps, q.check m' = (q.check m).map (Option.map (change q.field))) :
    checkAll m' ps = (checkAll m ps).map (List.map fun a => (a.1, change a.1 a.2)) := by
  induction ps with
  | nil => rfl
  | cons q rest ih =>
    obtain ⟨hq, hrest⟩ := List.forall_mem_cons.mp h
    rw [checkAll, checkAll, hq]
    cases q.check m with
    | error i => rfl
    | ok value =>
      show (checkAll m' rest >>= _) = Except.map _ (checkAll m rest >>= _)
      rw [ih hrest]
      cases checkAll m rest with
      | error i => rfl
      | ok entries => cases value <;> rfl

namespace Payload

variable {p : Payload} {c : Callee} {f g : Field}

theorem get?_spelledOut (g : Field) (p : Payload) (f : Field) : (p.spelledOut g).get? f
    = (p.get? f).map fun v => if f = g then v.spelledOut else v :=
  Entries.get?_map (fun f v => if f = g then v.spelledOut else v) p.entries f

theorem has_spelledOut (g : Field) (p : Payload) (f : Field) :
    (p.spelledOut g).has f = p.has f :=
  Entries.has_map (fun f v => if f = g then v.spelledOut else v) p.entries f

/-- **Every argument is the same.** -/
theorem argument_spelledOut (g : Field) (p : Payload) (f : Field) :
    (p.spelledOut g).argument f = p.argument f := by
  unfold argument
  rw [get?_spelledOut]
  cases p.get? f with
  | none => rfl
  | some v =>
    show Value.toArgument (if f = g then v.spelledOut else v) = v.toArgument
    split
    · exact v.toArgument_spelledOut
    · rfl

/-- **The call is the same**, of a callee that is no completion. -/
theorem callFor_spelledOut (hc : c.function ≠ .complete) (g : Field) (p : Payload) :
    (p.spelledOut g).callFor c = p.callFor c := by
  rw [callFor_of_ne hc, callFor_of_ne hc, call, call]
  exact congrArg (Sql.Call.mk _) (List.map_congr_left fun s _ => by rw [argument_spelledOut])

theorem statement_spelledOut (hc : c.function ≠ .complete) (g : Field) (p : Payload) :
    (p.spelledOut g).statement c = p.statement c := by
  have function : (p.spelledOut g).function = p.function := rfl
  unfold statement statementBy
  rw [callFor_spelledOut hc, function]

/-- A field whose value may be seen holds a text or a flag. -/
theorem Valid.sameContent_self (h : p.Valid) {v : Value} (hv : p.get? f = some v)
    (hf : f.disclosure p.function = .content) : v.SameContent v := by
  obtain ⟨q, hq, rfl, admits⟩ := h.conforms.exists_parameter hv
  have seen : ∀ a : AiFunction, ∀ q ∈ a.parameters, q.field.disclosure a = .content →
      q.kind = .term ∨ q.kind = .functionName ∨ q.kind = .flag := by
    intro a
    cases a <;> decide
  obtain hk | hk | hk := seen _ q hq hf <;>
    · rw [hk] at admits
      cases v <;> first | exact rfl | exact admits.elim

/-- **A file looks the same in either form**, since all that may be seen is that
there is one. -/
theorem Valid.sameOutline_spelledOut (h : p.Valid) (hg : g.disclosure p.function = .presence) :
    p.SameOutline (p.spelledOut g) := by
  refine ⟨rfl, fun f => ?_⟩
  rw [get?_spelledOut]
  cases hv : p.get? f with
  | none => trivial
  | some v =>
    show Disclosure.Agree v (if f = g then v.spelledOut else v) _
    split_ifs with hfg
    · rw [hfg, hg]
      trivial
    · cases hd : f.disclosure p.function with
      | content => exact h.sameContent_self hv hd
      | presence => trivial
      | _ => rfl

end Payload

/-! ## What a request makes of either form -/

/-- A parameter for a file. -/
def AiFunction.TakesFile (f : AiFunction) (q : Parameter) : Prop :=
  q ∈ f.parameters ∧ q.kind = .file

namespace AiFunction.TakesFile

variable {f : AiFunction} {q : Parameter} (h : f.TakesFile q)

include h

/-- A completion takes no file. -/
theorem ne_complete : f ≠ .complete := f.ne_complete_of_file q h.1 h.2

theorem disclosure_eq : q.field.disclosure f = .presence := by
  have hidden : ∀ f : AiFunction, ∀ q ∈ f.parameters, q.kind = .file →
      q.field.disclosure f = .presence := by
    intro f
    cases f <;> decide
  exact hidden f q h.1 h.2

end AiFunction.TakesFile

/-- **No name means two parameters of a function.** -/
theorem AiFunction.eq_of_mem_spelling (f : AiFunction) {q q' : Parameter} (hq : q ∈ f.parameters)
    (hq' : q' ∈ f.parameters) {n : Text} (hn : n ∈ q.field.name :: q.alternates)
    (hn' : n ∈ q'.field.name :: q'.alternates) : q = q' := by
  have apart : ∀ f : AiFunction, ∀ q ∈ f.parameters, ∀ q' ∈ f.parameters,
      ∀ n ∈ q.field.name :: q.alternates, n ∈ q'.field.name :: q'.alternates → q = q' := by
    intro f
    cases f <;> decide
  exact apart f q hq q' hq' n hn hn'

namespace Members

variable {before after : Members} {n : Text} {v w : Json}

theorem names_of_changed :
    names (before ++ (n, v) :: after) = names (before ++ (n, w) :: after) := by
  unfold names
  rw [List.map_append, List.map_append, List.map_cons, List.map_cons]

/-- Which spellings are used is a matter of the names. -/
theorem spellingsOf_of_names {m m' : Members} (h : m.names = m'.names) (field : Text)
    (alternates : List Text) :
    m.spellingsOf field alternates = m'.spellingsOf field alternates := by
  refine List.filter_congr fun name _ => ?_
  rw [Bool.eq_iff_iff, get?_isSome_iff, get?_isSome_iff, h]

end Members

/-- **Arguments that give the same file in its two forms** for a parameter, under the
same spelling, and are the same otherwise. -/
inductive Request.GivesSameFile (q : Parameter) (stage path : Text) (args args' : Option Text) :
    Prop
  | mk (n : Text) (before after place : Members) (spelling : n ∈ q.field.name :: q.alternates)
    (isPlace : IsPlace stage path place)
    (byPlace : object? args = some (before ++ (n, .obj place) :: after))
    (byExpression : object? args' = some (before
      ++ (n, .str (FileRef.location (Text.strip stage) (Text.strip path)).expressionText) :: after))

namespace Payload

variable {c : Callee} {q : Parameter} {stage path n : Text} {before after place : Members}

section Changed

variable {f : AiFunction} {v w : Json} {m m' u u' : Members}

/-- **A member with another value** leaves the spellings, the names and the other
parameters as they are. -/
theorem ofJson_of_changed (change : Field → Value → Value)
    (hm : Members.Unified f.spellings m.present u)
    (hm' : Members.Unified f.spellings m'.present u') (names : m.present.names = m'.present.names)
    (checks : ∀ q ∈ f.parameters, q.check u' = (q.check u).map (Option.map (change q.field))) :
    ofJson f (.obj u') = (ofJson f (.obj u)).map
      fun p => ⟨p.function, p.entries.map fun a => (a.1, change a.1 a.2)⟩ := by
  have readable : hasReadableNames u' = hasReadableNames u := by
    rw [hasReadableNames_eq f, hasReadableNames_eq f u, filter_names_of_unified hm,
      filter_names_of_unified hm', names]
  unfold ofJson
  dsimp only
  rw [readable]
  split
  · unfold ofMembers
    rw [firstUnexpected_of_unified hm, firstUnexpected_of_unified hm', names,
      Parameter.checkAll_mapValues change checks]
    cases Parameter.checkAll u f.parameters with
    | error i => rfl
    | ok e =>
      have rule := Rule.check_congr (Entries.has_map change e) f.rule
      cases m'.present.names.find? fun n => !f.memberNames.contains n with
      | some name => rfl
      | none =>
        show (f.rule.check (e.map _) >>= _) = Except.map _ (f.rule.check e >>= _)
        rw [rule]
        cases f.rule.check e <;> rfl
  · rfl

end Changed

theorem checkDetails_spelledOut (c : Callee) (g : Field) (p : Payload) :
    checkDetails c (p.spelledOut g) = (checkDetails c p).map (spelledOut g) := by
  unfold checkDetails
  rw [has_spelledOut]
  split <;> rfl

section Request

variable {f : AiFunction} {c : Callee} {q q' : Parameter} {args args' : Option Text} {n : Text}
  {v w : Json} {x : Value}

/-- What is given for the other parameters is the same. -/
theorem given_of_changed (before after : Members) (hq : q ∈ f.parameters)
    (spelling : n ∈ q.field.name :: q.alternates) (hv : v.isNull = false) (hw : w.isNull = false)
    (hq' : q' ∈ f.parameters) (hne : q' ≠ q) :
    q'.given (before ++ (n, v) :: after) = q'.given (before ++ (n, w) :: after) := by
  unfold Parameter.given
  rw [Members.present_append_cons hv, Members.present_append_cons hw]
  refine Members.anyOf_congr fun name hname => ?_
  have other : name ≠ n := by
    rintro rfl
    exact hne (f.eq_of_mem_spelling hq' hq hname spelling)
  exact Members.get?_of_replaced other other

/-- **The parameters are checked alike** where one of them has a value and another time
the expression of it, and the others are the same. -/
theorem check_of_changed {u u' : Members} (hq : q ∈ f.parameters) (hv : v.isNull = false)
    (hw : w.isNull = false) (hx : q.kind.check v = .ok x) (hy : q.kind.check w = .ok x.spelledOut)
    (given : u.get? q.field.name = some v) (given' : u'.get? q.field.name = some w)
    (others : ∀ q' ∈ f.parameters, q' ≠ q → u'.get? q'.field.name = u.get? q'.field.name) :
    ∀ q' ∈ f.parameters, q'.check u' = (q'.check u).map
      (Option.map fun y => if q'.field = q.field then y.spelledOut else y) := by
  intro q' hq'
  by_cases hsame : q' = q
  · subst hsame
    rw [Parameter.check_of_some given hv, Parameter.check_of_some given' hw, hx, hy]
    exact congrArg (fun y => Except.ok (some y)) (if_pos rfl).symm
  · have hfield : q'.field ≠ q.field := fun h =>
      hsame (List.inj_on_of_nodup_map f.parameters_nodup hq' hq h)
    rw [Parameter.check_congr (others q' hq' hsame)]
    cases q'.check u <;> simp [Except.map, hfield]

/-- **A request with another value for one parameter** comes to the same but for that
value, if the one value is taken and the other one is taken as its expression. -/
theorem ofText_of_changed (hq : q ∈ c.function.parameters)
    (spelling : n ∈ q.field.name :: q.alternates) (hv : v.isNull = false) (hw : w.isNull = false)
    (hx : q.kind.check v = .ok x) (hy : q.kind.check w = .ok x.spelledOut)
    (hm : Request.object? args = some (before ++ (n, v) :: after))
    (hm' : Request.object? args' = some (before ++ (n, w) :: after)) :
    ofText c args' = (ofText c args).map (spelledOut q.field) := by
  have names : Members.names (Members.present (before ++ (n, v) :: after))
      = Members.names (Members.present (before ++ (n, w) :: after)) := by
    rw [Members.present_append_cons hv, Members.present_append_cons hw]
    exact Members.names_of_changed
  have disjoint := c.function.isDisjoint_spellings
  obtain ⟨e, hu, hu'⟩ | ⟨u, u', hu, hu'⟩ := Members.unify_together c.sqlName disjoint
    fun row _ => .inl (Members.spellingsOf_of_names names row.1 row.2)
  · rw [ofText_of_unify_error hm hu, ofText_of_unify_error hm' hu']
    rfl
  · have unified := (Members.unifyFields_eq_ok disjoint hu).2
    have unified' := (Members.unifyFields_eq_ok disjoint hu').2
    have given := Parameter.given_of_mem (Request.object?_eq_some_iff.mp hm).isRegular.1
      (Parameter.length_spellingsOf_le _ hu hq) (List.mem_append_right _ List.mem_cons_self) hv
      spelling
    have given' := Parameter.given_of_mem (Request.object?_eq_some_iff.mp hm').isRegular.1
      (Parameter.length_spellingsOf_le _ hu' hq) (List.mem_append_right _ List.mem_cons_self) hw
      spelling
    have others : ∀ q' ∈ c.function.parameters, q' ≠ q →
        u'.get? q'.field.name = u.get? q'.field.name := by
      intro q' hq' hne
      rw [get?_of_unified unified hq', get?_of_unified unified' hq',
        given_of_changed before after hq spelling hv hw hq' hne]
    have checks := check_of_changed hq hv hw hx hy ((get?_of_unified unified hq).trans given)
      ((get?_of_unified unified' hq).trans given') others
    have same := ofJson_of_changed (fun f y => if f = q.field then y.spelledOut else y) unified
      unified' names checks
    rw [ofText_of_unify hm hu, ofText_of_unify hm' hu', same]
    cases ofJson c.function (.obj u) with
    | error i => rfl
    | ok p => exact checkDetails_spelledOut c q.field p

end Request

/-- **Both forms of a file come to the same**: the same rejection, or the same payload
but for the form of the file. -/
theorem ofText_spelledOut {c : Callee} {q : Parameter} {stage path : Text}
    {args args' : Option Text} (hq : c.function.TakesFile q) (hstage : Text.strip stage ≠ [])
    (hpath : Text.strip path ≠ []) (same : Request.GivesSameFile q stage path args args') :
    ofText c args' = (ofText c args).map (spelledOut q.field) := by
  obtain ⟨n, before, after, place, spelling, isPlace, hm, hm'⟩ := same
  refine ofText_of_changed
    (x := .file (.location (Text.strip stage) (Text.strip path))) hq.1 spelling rfl rfl ?_ ?_ hm hm'
  · rw [hq.2, Kind.check, checkFile_place hstage hpath isPlace]
    rfl
  · rw [hq.2, Kind.check, checkFile_expression]
    rfl

/-- **What is given for a parameter** under one of its names is in the payload. -/
theorem get?_of_given_mem {c : Callee} {q : Parameter} {args : Option Text} {m : Members}
    {n : Text} {v : Json} {p : Payload} {x : Value} (h : ofText c args = .ok p)
    (hq : q ∈ c.function.parameters) (hm : Request.object? args = some m) (hmem : (n, v) ∈ m)
    (spelling : n ∈ q.field.name :: q.alternates) (hv : v.isNull = false)
    (hx : q.kind.check v = .ok x) : p.get? q.field = some x := by
  obtain ⟨m₁, taken, hobject, hunify, -⟩ := ofText_eq_ok_iff.mp h
  obtain rfl := Option.some.inj (hm.symm.trans hobject)
  obtain ⟨m₂, hobject, taken⟩ := exists_of_ofText h
  obtain rfl := Option.some.inj (hm.symm.trans hobject)
  have given := Parameter.given_of_mem (Request.object?_eq_some_iff.mp hm).isRegular.1
    (Parameter.length_spellingsOf_le _ hunify hq) hmem hv spelling
  obtain ⟨y, hy, found⟩ := taken.exists_get? c.function.parameters_nodup hq given
  obtain rfl := Except.ok.inj (hx.symm.trans hy)
  exact found

/-! ## The dispatch of either form -/

variable {p : Payload} {g : Field}

/-- **A place can always be shown**; an expression can if it is whole. -/
theorem Valid.isShowable_spelledOut_iff {stage path : Text} (h : p.Valid)
    (hfile : p.get? g = some (.file (.location stage path))) :
    (p.spelledOut g).IsShowable
      ↔ p.IsShowable ∧ (FileRef.location stage path).expressionText.isWhole = true := by
  have nodup := h.conforms.nodup p.function.parameters_nodup
  have only : ∀ e ∈ p.entries, e.1 = g → e.2 = .file (.location stage path) := by
    rintro ⟨_, v⟩ he rfl
    exact Option.some.inj ((Entries.get?_of_mem nodup he).symm.trans hfile)
  have parts : (p.spelledOut g).IsShowable
      ↔ ∀ e ∈ p.entries, (if e.1 = g then e.2.spelledOut else e.2).IsShowable :=
    List.forall_mem_map
  rw [parts]
  constructor
  · intro shown
    refine ⟨fun e he => ?_, ?_⟩
    · have shown := shown e he
      split at shown
      · next hg =>
        rw [only e he hg]
        trivial
      · exact shown
    · have shown := shown _ (Entries.mem_of_get? hfile)
      rw [if_pos rfl] at shown
      exact shown
  · rintro ⟨shown, whole⟩ e he
    split
    · next hg =>
      rw [only e he hg]
      exact whole
    · exact shown e he

end Payload

section Forms

variable {function : Option Text} {c : Callee} {q : Parameter} {stage path : Text}
  {args args' : Option Text} (hc : Callee.resolve function = .ok c) (hq : c.function.TakesFile q)
  (hstage : Text.strip stage ≠ []) (hpath : Text.strip path ≠ [])
  (same : Request.GivesSameFile q stage path args args') {level : LogLevel}

include hq hstage hpath same

/-- **Whoever takes the place takes the expression**, and the other way round. -/
theorem Payload.ofText_expression_eq_ok_iff {p' : Payload} : ofText c args' = .ok p'
    ↔ ∃ p, ofText c args = .ok p ∧ p' = p.spelledOut q.field := by
  rw [ofText_spelledOut hq hstage hpath same, Outcome.map_eq_ok_iff]
  exact exists_congr fun p => and_congr_right fun _ => eq_comm

/-- What is accepted of the place holds it without the blanks around it. -/
theorem Payload.get?_of_ofText_place {p : Payload} (h : ofText c args = .ok p) :
    p.get? q.field = some (.file (.location (Text.strip stage) (Text.strip path))) := by
  obtain ⟨n, before, after, place, spelling, isPlace, hm, -⟩ := same
  refine get?_of_given_mem h hq.1 hm (List.mem_append_right _ List.mem_cons_self) spelling rfl ?_
  rw [hq.2, Kind.check, checkFile_place hstage hpath isPlace]
  rfl

/-- The expression of an accepted place can be shown if the place can be and the
stage and the path are whole. -/
theorem Payload.isShowable_expression_iff {p : Payload} (h : ofText c args = .ok p) :
    (p.spelledOut q.field).IsShowable
      ↔ p.IsShowable ∧ stage.isWhole = true ∧ path.isWhole = true := by
  have found := get?_of_ofText_place hq hstage hpath same h
  rw [(valid_of_ofText h).1.isShowable_spelledOut_iff found, FileRef.isWhole_location,
    Text.isWhole_strip, Text.isWhole_strip, Bool.and_eq_true]

/-- **What is accepted of either form** makes the same statement and the same
summary. -/
theorem Payload.statement_and_summary_eq {p p' : Payload} (h : ofText c args = .ok p)
    (h' : ofText c args' = .ok p') : p'.statement c = p.statement c ∧ p'.summary = p.summary := by
  obtain ⟨p₁, hp₁, rfl⟩ := (ofText_expression_eq_ok_iff hq hstage hpath same).mp h'
  obtain rfl := Except.ok.inj (h.symm.trans hp₁)
  obtain ⟨valid, hf⟩ := valid_of_ofText h
  have outline := valid.sameOutline_spelledOut (hf ▸ hq.disclosure_eq)
  exact ⟨statement_spelledOut hq.ne_complete _ p, outline.summary_eq.symm⟩

include hc

/-- **The expression is dispatched** if the place is and the stage and the path are
whole. -/
theorem dispatch_expression_returns_iff :
    (∃ r', dispatch function args' level = .ok r')
      ↔ (∃ r, dispatch function args level = .ok r)
        ∧ stage.isWhole = true ∧ path.isWhole = true := by
  rw [exists_dispatched_iff hc, exists_dispatched_iff hc]
  have sendable : ∀ p : Payload, (p.spelledOut q.field).IsSendable c ↔ p.IsSendable c := by
    intro p
    unfold Payload.IsSendable
    rw [Payload.callFor_spelledOut hq.ne_complete]
  constructor
  · rintro ⟨p', hp', sent, shown⟩
    obtain ⟨p, hp, rfl⟩ := (Payload.ofText_expression_eq_ok_iff hq hstage hpath same).mp hp'
    obtain ⟨shown, whole⟩ := (Payload.isShowable_expression_iff hq hstage hpath same hp).mp shown
    exact ⟨⟨p, hp, (sendable p).mp sent, shown⟩, whole⟩
  · rintro ⟨⟨p, hp, sent, shown⟩, whole⟩
    exact ⟨p.spelledOut q.field,
      (Payload.ofText_expression_eq_ok_iff hq hstage hpath same).mpr ⟨p, hp, rfl⟩,
      (sendable p).mpr sent,
      (Payload.isShowable_expression_iff hq hstage hpath same hp).mpr ⟨shown, whole⟩⟩

/-- What is dispatched of either form is the same statement and the same minimal
log. -/
theorem dispatched_query_eq {r r' : Dispatched} (h : dispatch function args level = .ok r)
    (h' : dispatch function args' level = .ok r') :
    r'.query = r.query ∧ (level = .minimal → r'.lines = r.lines) := by
  obtain ⟨p, accepted⟩ := exists_accept_of_dispatch h
  obtain ⟨p', accepted'⟩ := exists_accept_of_dispatch h'
  obtain ⟨-, sql, hsql, hr⟩ := (dispatch_eq_ok_iff accepted).mp h
  obtain ⟨-, sql', hsql', hr'⟩ := (dispatch_eq_ok_iff accepted').mp h'
  obtain ⟨resolved, hp⟩ := accept_eq_ok_iff.mp accepted
  obtain ⟨resolved', hp'⟩ := accept_eq_ok_iff.mp accepted'
  have callee := Except.ok.inj (resolved.symm.trans hc)
  have callee' := Except.ok.inj (resolved'.symm.trans hc)
  rw [callee] at hsql hr hp
  rw [callee'] at hsql' hr' hp'
  obtain ⟨statement, summary⟩ := Payload.statement_and_summary_eq hq hstage hpath same hp hp'
  rw [statement] at hsql'
  obtain rfl := Except.ok.inj (hsql.symm.trans hsql')
  rw [hr, hr']
  refine ⟨rfl, ?_⟩
  rintro rfl
  exact congrArg (Payload.line "Function".toText c.sqlName :: ·) summary

/-- **The two forms of a file agree** up to the echo. The expression of a place is one
call; a request with it is accepted exactly if one with the place is, and then the
statement and the summary are the same. It is dispatched exactly if the one with the
place is and neither the stage nor the path has half of a surrogate pair, and then
what is sent and the minimal log are the same. -/
theorem dispatch_fileForms (level : LogLevel) :
    Sql.isSingleCall (FileRef.location (Text.strip stage) (Text.strip path)).expressionText = true
      ∧ ((∃ p, accept function args = .ok (c, p)) ↔ ∃ p', accept function args' = .ok (c, p'))
      ∧ (∀ p p', accept function args = .ok (c, p) → accept function args' = .ok (c, p') →
        p'.statement c = p.statement c ∧ p'.summary = p.summary)
      ∧ ((∃ r', dispatch function args' level = .ok r')
        ↔ (∃ r, dispatch function args level = .ok r)
          ∧ stage.isWhole = true ∧ path.isWhole = true)
      ∧ ∀ r r', dispatch function args level = .ok r → dispatch function args' level = .ok r' →
        r'.query = r.query ∧ (level = .minimal → r'.lines = r.lines) := by
  refine ⟨FileRef.isSingleCall_location _ _, ⟨?_, ?_⟩, fun p p' h h' => ?_,
    dispatch_expression_returns_iff hc hq hstage hpath same,
    fun r r' => dispatched_query_eq hc hq hstage hpath same⟩
  · rintro ⟨p, hp⟩
    have spelled := (Payload.ofText_expression_eq_ok_iff hq hstage hpath same).mpr
      ⟨p, (accept_eq_ok_iff.mp hp).2, rfl⟩
    exact ⟨_, accept_eq_ok_iff.mpr ⟨hc, spelled⟩⟩
  · rintro ⟨p', hp'⟩
    obtain ⟨p, hp, -⟩ := (Payload.ofText_expression_eq_ok_iff hq hstage hpath same).mp
      (accept_eq_ok_iff.mp hp').2
    exact ⟨p, accept_eq_ok_iff.mpr ⟨hc, hp⟩⟩
  · exact Payload.statement_and_summary_eq hq hstage hpath same (accept_eq_ok_iff.mp h).2
      (accept_eq_ok_iff.mp h').2

end Forms

/-- Arguments for the similarity of two files. -/
def similarityOf (file : Text) : Text :=
  "\x7b\"input2_file\":\"F()\",\"input1_file\":".toText ++ file ++ "\x7d".toText

/-- A file by its place, with a mark in the stage and a parenthesis in the path. -/
def markedPlace : Text := "\x7b\"path\":\"b)\",\"stage\":\" it's \"\x7d".toText

/-- The same file by its expression. -/
def markedExpression : Text := "\"TO_FILE('it''s', 'b)')\"".toText

/-- A mark and a parenthesis do no harm in either form. -/
theorem dispatch_fileForms_marked :
    ∃ r r', Request.GivesSameFile (.optional .input1File .file []) " it's ".toText "b)".toText
        (some (similarityOf markedPlace)) (some (similarityOf markedExpression))
      ∧ dispatch (some "AI_SIMILARITY".toText) (some (similarityOf markedPlace)) .minimal = .ok r
      ∧ dispatch (some "AI_SIMILARITY".toText) (some (similarityOf markedExpression)) .minimal
        = .ok r'
      ∧ r.query = "select AI_SIMILARITY(TO_FILE('it''s', 'b)'), F()) as response".toText
      ∧ r'.query = r.query ∧ r'.lines = r.lines := by
  have same : Request.GivesSameFile (.optional .input1File .file []) " it's ".toText "b)".toText
      (some (similarityOf markedPlace)) (some (similarityOf markedExpression)) := by
    refine .mk "input1_file".toText [("input2_file".toText, .str "F()".toText)] []
      [("path".toText, .str "b)".toText), ("stage".toText, .str " it's ".toText)]
      List.mem_cons_self (.swap _ _ _) (Request.object?_of_print ?_ rfl (by decide +kernel))
      (Request.object?_of_print ?_ rfl (by decide +kernel))
    · exact ⟨by decide, trivial, ⟨by decide, trivial, trivial, trivial⟩, trivial⟩
    · exact ⟨by decide, trivial, trivial, trivial⟩
  have query : (dispatch (some "AI_SIMILARITY".toText) (some (similarityOf markedPlace))
        .minimal).toOption.map Dispatched.query
      = some "select AI_SIMILARITY(TO_FILE('it''s', 'b)'), F()) as response".toText := by
    decide +kernel
  obtain ⟨r, hr, hquery⟩ := Option.map_eq_some_iff.mp query
  have returned := toOption_eq_some_iff.mp hr
  have resolved : Callee.resolve (some "AI_SIMILARITY".toText) = .ok (.ofFunction .similarity) := by
    decide +kernel
  have file : AiFunction.similarity.TakesFile (.optional .input1File .file []) := by
    exact ⟨by decide, rfl⟩
  obtain ⟨-, -, -, returns, alike⟩ :=
    dispatch_fileForms resolved file (by decide) (by decide) same .minimal
  obtain ⟨r', returned'⟩ := returns.mpr ⟨⟨r, returned⟩, by decide, by decide⟩
  obtain ⟨sameQuery, lines⟩ := alike r r' returned returned'
  exact ⟨r, r', same, returned, returned', hquery, sameQuery, lines rfl⟩

/-- Arguments for the layout of a file. -/
def layoutOf (file : Text) : Text := "\x7b\"file\":".toText ++ file ++ "\x7d".toText

/-- A file by its place, with half of a surrogate pair for its stage. -/
def halfPlace : Text := "\x7b\"stage\":\"\\ud800\",\"path\":\"p\"\x7d".toText

/-- The same file by its expression. -/
def halfExpression : Text := "\"TO_FILE('\\ud800', 'p')\"".toText

/-- **Half of a surrogate pair tells the two forms apart**: both are accepted, the place
is dispatched, and the expression of it cannot be shown. -/
theorem not_alike_halfInStage :
    Request.GivesSameFile (.mandatory .file .file ["file_object".toText]) [.half 0] "p".toText
        (some (layoutOf halfPlace)) (some (layoutOf halfExpression))
      ∧ (∃ r, dispatch (some "AI_PARSE_DOCUMENT".toText) (some (layoutOf halfPlace)) .minimal
        = .ok r)
      ∧ (∃ p, accept (some "AI_PARSE_DOCUMENT".toText) (some (layoutOf halfExpression))
        = .ok (.ofFunction .parseDocument, p))
      ∧ dispatch (some "AI_PARSE_DOCUMENT".toText) (some (layoutOf halfExpression)) .minimal
        = .error (.echo (.halves ⟨9, 0, 0⟩)) := by
  have same : Request.GivesSameFile (.mandatory .file .file ["file_object".toText]) [.half 0]
      "p".toText (some (layoutOf halfPlace)) (some (layoutOf halfExpression)) := by
    refine .mk "file".toText [] []
      [("stage".toText, .str [.half 0]), ("path".toText, .str "p".toText)] List.mem_cons_self
      (.refl _) (Request.object?_of_print ?_ rfl (by decide +kernel))
      (Request.object?_of_print ?_ rfl (by decide +kernel))
    · exact ⟨by decide, ⟨by decide, trivial, trivial, trivial⟩, trivial⟩
    · exact ⟨by decide, trivial, trivial⟩
  have returned : (dispatch (some "AI_PARSE_DOCUMENT".toText) (some (layoutOf halfPlace))
      .minimal).toOption.isSome = true := by
    decide +kernel
  have accepted : (accept (some "AI_PARSE_DOCUMENT".toText)
      (some (layoutOf halfExpression))).toOption.map Prod.fst
      = some (.ofFunction .parseDocument) := by
    decide +kernel
  have failed : dispatchFailure? (some "AI_PARSE_DOCUMENT".toText) (some (layoutOf halfExpression))
      .minimal = some (.echo (.halves ⟨9, 0, 0⟩)) := by
    decide +kernel
  obtain ⟨r, hr⟩ := Option.isSome_iff_exists.mp returned
  obtain ⟨⟨c, p⟩, hp, rfl⟩ := Option.map_eq_some_iff.mp accepted
  refine ⟨same, ⟨r, toOption_eq_some_iff.mp hr⟩, ⟨p, toOption_eq_some_iff.mp hp⟩, ?_⟩
  unfold dispatchFailure? at failed
  split at failed
  · cases failed
  · next e he => rw [he, Option.some.inj failed]

end CortexCall
