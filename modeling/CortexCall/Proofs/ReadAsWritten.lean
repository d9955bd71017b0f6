import CortexCall.Proofs.CallSlots
import CortexCall.Proofs.CommentReader

/-!
# When a statement is read as it is written

A file expression is copied into the statement, and it is checked by a scan that
knows literals and parentheses but no comments. To a reader that knows them the
same text can be something else: the comment may hide the apostrophe that opens a
literal for the scan, and then the parenthesis inside of that literal closes the
call.

`Sql.ReadsAsWritten` is what such a reader should find in a statement: the
parenthesis that closes the call where it is written, no semicolon outside literals
and comments, and every argument where it is written, its text inside a literal.
`dispatch_readsAsWritten_iff` says that it does so exactly if every expression that
is copied is self-contained by the reader's own rules. One direction is composition,
since all that is not copied is crossed. For the other, what is written between one
expression and the next argument is quiet, so a reader that begins the next argument
as it should has also left the expression as it should. An expression in which no
comment begins is always self-contained (`dispatch_readsAsWritten_of_uncommented`).
-/

namespace CortexCall

namespace Text

/-- A part of a joined text, with what is before and behind it. -/
theorem join_append_cons (separator : Text) (before : List Text) (t : Text)
    (behind : List Text) : join separator (before ++ t :: behind)
      = before.flatMap (· ++ separator) ++ (t ++ behind.flatMap (separator ++ ·)) := by
  have first : join separator (t :: behind) = t ++ behind.flatMap (separator ++ ·) := by
    induction behind generalizing t with
    | nil => exact (List.append_nil t).symm
    | cons u rest ih =>
      rw [join_cons_cons, ih, List.flatMap_cons, List.append_assoc, List.append_assoc]
  induction before with
  | nil => exact first
  | cons u rest ih =>
    rw [List.cons_append, List.flatMap_cons, List.append_assoc, ← ih]
    cases rest with
    | nil => exact join_cons_cons ..
    | cons w more => exact join_cons_cons ..

end Text

namespace Sql

/-! ## Where an argument stands -/

/-- What stands before an argument in its slot. -/
def Slot.lead (s : Slot) : Text :=
  match s.key with
  | some key => key ++ " => ".toText
  | none => []

/-- **The literal of an argument**: what stands before it, and what it says. Truth
values and expressions have none of their own. -/
def Argument.literal? : Argument → Option (Text × Text)
  | .value (.str t) => some ([], t)
  | .value (.arr items) => some ("PARSE_JSON(".toText, (Json.arr items).print .compact)
  | .value (.obj members) => some ("PARSE_JSON(".toText, (Json.obj members).print .compact)
  | _ => none

namespace Call

/-- A statement up to the parenthesis behind the name. -/
def opening (c : Call) : Text := "select ".toText ++ c.name ++ "(".toText

/-- A statement up to the argument of a slot, with the slots before it as text. -/
def before (c : Call) (parts : List Text) (s : Slot) : Text :=
  c.opening ++ (parts.flatMap (· ++ ", ".toText) ++ s.lead)

end Call

/-- **A statement that is read as it is written**, by a reader that knows literals
and both forms of comments. -/
structure ReadsAsWritten (call : Call) (sql : Text) : Prop where
  /-- The parenthesis at the end of the call stands outside literals and comments, it is
  the one that closes the call, and what is behind it stands outside as well. -/
  closing : ∃ inside, sql = selectResponse (call.name ++ "(".toText ++ inside ++ ")".toText)
    ∧ (Place.code.after (call.opening ++ inside)).isOutside = true
    ∧ Place.code.level (call.opening ++ inside) = 1
    ∧ (∀ u v, inside = u ++ v → 1 ≤ Place.code.level (call.opening ++ u))
    ∧ ∀ u v, " as response".toText = u ++ v →
      (Place.code.after (call.opening ++ inside ++ ")".toText ++ u)).isOutside = true
  /-- No semicolon stands outside literals and comments. -/
  semicolon : ∀ u v, sql = u ++ .char ';' :: v → (Place.code.after u).isOutside = false
  /-- Every argument begins where it is written, in the parentheses of the call and in
  no others, and if it has a text, then a literal begins outside and says this text. -/
  argument : ∀ earlier s later, call.present = earlier ++ s :: later →
    ∃ parts text behind, earlier.mapM Slot.render = .ok parts ∧ s.argument.render = .ok text
      ∧ sql = call.before parts s ++ (text ++ behind)
      ∧ Place.code.after (call.before parts s) = .code
      ∧ Place.code.level (call.before parts s) = 1
      ∧ ∀ front t, s.argument.literal? = some (front, t) →
        (Place.code.after (call.before parts s ++ front)).isOutside = true
          ∧ ∃ rest, text = front ++ (quote t ++ rest)
            ∧ unquote (quote t ++ (rest ++ behind)) = some (t, rest ++ behind)

/-! ## Crossing a statement -/

theorem Slot.render_eq_ok_iff {s : Slot} {t : Text} :
    s.render = .ok t ↔ ∃ u, s.argument.render = .ok u ∧ t = s.lead ++ u := by
  obtain ⟨key, argument⟩ := s
  unfold render renderBy lead
  rw [Outcome.bind_eq_ok_iff]
  refine exists_congr fun u => and_congr_right fun _ => ?_
  cases key with
  | none =>
    show (.ok _ : Except RenderError Text) = .ok t ↔ _
    rw [Except.ok.injEq, eq_comm]
    rfl
  | some key =>
    show (.ok _ : Except RenderError Text) = .ok t ↔ _
    rw [Except.ok.injEq, eq_comm]

/-- **A slot of a rendered call**, with the text of its argument between the slots
before and behind it. -/
theorem Call.exists_of_present {call : Call} {text : Text} (hrender : call.render = .ok text)
    {earlier : List Slot} {s : Slot} {later : List Slot}
    (hpresent : call.present = earlier ++ s :: later) :
    ∃ parts u others, earlier.mapM Slot.render = .ok parts ∧ s.argument.render = .ok u
      ∧ later.mapM Slot.render = .ok others
      ∧ text = call.name ++ "(".toText ++ (parts.flatMap (· ++ ", ".toText)
        ++ (s.lead ++ (u ++ others.flatMap (", ".toText ++ ·)))) ++ ")".toText := by
  obtain ⟨all, hall, rfl⟩ := Call.render_eq_ok_iff.mp hrender
  rw [hpresent, List.mapM_append] at hall
  obtain ⟨parts, hparts, h⟩ := Outcome.bind_eq_ok_iff.mp hall
  obtain ⟨rest, hrest, h⟩ := Outcome.bind_eq_ok_iff.mp h
  obtain rfl := Except.ok.inj h
  rw [List.mapM_cons] at hrest
  obtain ⟨slot, hslot, h⟩ := Outcome.bind_eq_ok_iff.mp hrest
  obtain ⟨others, hothers, h⟩ := Outcome.bind_eq_ok_iff.mp h
  obtain rfl := Except.ok.inj h
  obtain ⟨u, hu, rfl⟩ := Slot.render_eq_ok_iff.mp hslot
  refine ⟨parts, u, others, hparts, hu, hothers, ?_⟩
  rw [Text.join_append_cons, List.append_assoc s.lead]

/-- The statement of a call, cut where an argument begins. -/
theorem Call.selectResponse_eq (call : Call) (parts : List Text) (s : Slot) (t : Text) :
    selectResponse (call.name ++ "(".toText
        ++ (parts.flatMap (· ++ ", ".toText) ++ (s.lead ++ t)) ++ ")".toText)
      = call.before parts s ++ (t ++ ") as response".toText) := by
  simp [selectResponse, before, opening, String.toText]

/-- A statement shows what is in the parentheses of its call. -/
theorem Call.inside_injective {call : Call} {t u : Text}
    (h : selectResponse (call.name ++ "(".toText ++ t ++ ")".toText)
      = selectResponse (call.name ++ "(".toText ++ u ++ ")".toText)) : t = u := by
  unfold selectResponse at h
  rwa [List.append_left_inj, List.append_right_inj, List.append_left_inj,
    List.append_right_inj] at h

theorem Call.before_append (call : Call) (parts : List Text) (s : Slot) (t : Text) :
    call.before parts s ++ t
      = call.opening ++ (parts.flatMap (· ++ ", ".toText) ++ (s.lead ++ t)) := by
  rw [before, List.append_assoc, List.append_assoc]

/-- With the slot itself among those before, the next argument is as far as a comma. -/
theorem Call.before_concat (call : Call) (parts : List Text) (s s' : Slot) (t : Text) :
    call.before (parts ++ [s.lead ++ t]) s'
      = call.before parts s ++ (t ++ (", ".toText ++ s'.lead)) := by
  rw [before_append, before, List.flatMap_append, List.flatMap_singleton, List.append_assoc,
    List.append_assoc, List.append_assoc]

/-- The text of an argument with a literal: behind that there is at most a parenthesis,
and before it nothing that a reader would take for a literal or a comment. -/
theorem Argument.exists_of_literal? {a : Argument} {front t text : Text}
    (hliteral : a.literal? = some (front, t)) (hrender : a.render = .ok text) :
    Place.code.after front = .code
      ∧ ∃ rest, text = front ++ (quote t ++ rest) ∧ (rest = [] ∨ rest = ")".toText) := by
  have embedded : ∀ v : Json, ("PARSE_JSON(".toText, v.print .compact) = (front, t) →
      embed v = .ok text → Place.code.after front = .code
        ∧ ∃ rest, text = front ++ (quote t ++ rest) ∧ (rest = [] ∨ rest = ")".toText) := by
    rintro v heq hembed
    obtain ⟨rfl, rfl⟩ := Prod.mk.inj heq
    obtain ⟨-, rfl⟩ := embed_eq_ok_iff.mp hembed
    exact ⟨by decide, _, List.append_assoc .., .inr rfl⟩
  unfold literal? at hliteral
  split at hliteral
  · obtain ⟨rfl, rfl⟩ := Prod.mk.inj (Option.some.inj hliteral)
    obtain rfl := Except.ok.inj hrender
    exact ⟨rfl, [], (List.append_nil _).symm, .inl rfl⟩
  · exact embedded _ (Option.some.inj hliteral) hrender
  · exact embedded _ (Option.some.inj hliteral) hrender
  · cases hliteral

section Crossing

variable {call : Call} {s : Slot} {parts : List Text}

/-- The reader comes to the parenthesis behind the name and has one parenthesis open. -/
theorem Call.across_opening (hname : ∀ c ∈ call.name, isNamePart c = true) :
    Reading.across ⟨.code, 0⟩ call.opening = some ⟨.code, 1⟩ := by
  have select : IsSelfContained "select ".toText := .of_quiet (by decide)
  have name : IsSelfContained ("select ".toText ++ call.name) := select.append (.of_keyword hname)
  rw [Call.opening, Reading.across_append, name]
  rfl

/-- What stands before an argument in its slot is quiet, if the key is a keyword. -/
theorem Slot.isQuiet_lead (hkey : ∀ key ∈ s.key, ∀ c ∈ key, isNamePart c = true) :
    ∀ c ∈ s.lead, IsQuiet c := by
  obtain ⟨key, argument⟩ := s
  cases key with
  | none => exact fun c hc => absurd hc List.not_mem_nil
  | some key =>
    have arrow : ∀ c ∈ " => ".toText, IsQuiet c := by decide
    refine List.forall_mem_append.mpr ⟨fun c hc => ?_, arrow⟩
    exact isQuiet_of_isNamePart (hkey key rfl c hc)

/-- The reader comes to an argument with one parenthesis open, if it crosses the slots
before. -/
theorem Call.across_before (hname : ∀ c ∈ call.name, isNamePart c = true)
    (hkey : ∀ key ∈ s.key, ∀ c ∈ key, isNamePart c = true)
    (hparts : ∀ t ∈ parts, IsSelfContained t) :
    Reading.across ⟨.code, 0⟩ (call.before parts s) = some ⟨.code, 1⟩ := by
  have comma : IsSelfContained ", ".toText := .of_quiet (by decide)
  have slots : IsSelfContained (parts.flatMap (· ++ ", ".toText)) :=
    .flatMap fun t ht => (hparts t ht).append comma
  have crossed := slots.append (.of_quiet (Slot.isQuiet_lead hkey))
  rw [Call.before, Reading.across_append, across_opening hname]
  exact Reading.across_deeper crossed 1

/-- A statement is crossed, if what is in the parentheses of its call is. -/
theorem IsSelfContained.statement {inside : Text} (hname : ∀ c ∈ call.name, isNamePart c = true)
    (h : IsSelfContained inside) :
    IsSelfContained (selectResponse (call.name ++ "(".toText ++ inside ++ ")".toText)) := by
  have select : IsSelfContained "select ".toText := .of_quiet (by decide)
  have name : IsSelfContained call.name := .of_keyword hname
  have response : IsSelfContained " as response".toText := .of_quiet (by decide)
  have crossed := (select.append (name.append h.in_parens)).append response
  simpa [selectResponse, String.toText] using crossed

/-- The call is closed where it is written, if what is in its parentheses is crossed. -/
theorem IsSelfContained.closing {inside : Text} (hname : ∀ c ∈ call.name, isNamePart c = true)
    (h : IsSelfContained inside) :
    (Place.code.after (call.opening ++ inside)).isOutside = true
      ∧ Place.code.level (call.opening ++ inside) = 1
      ∧ (∀ u v, inside = u ++ v → 1 ≤ Place.code.level (call.opening ++ u))
      ∧ ∀ u v, " as response".toText = u ++ v →
        (Place.code.after (call.opening ++ inside ++ ")".toText ++ u)).isOutside = true := by
  have opened := Call.across_opening hname
  have through : Reading.across ⟨.code, 0⟩ (call.opening ++ inside) = some ⟨.code, 1⟩ := by
    rw [Reading.across_append, opened]
    exact Reading.across_deeper h 1
  have response : ∀ c ∈ " as response".toText, IsQuiet c := by decide
  refine ⟨by rw [Reading.after_of_across through]; rfl, Reading.level_of_across through,
    fun u v heq => ?_, fun u v heq => ?_⟩
  · have nonneg := (Reading.across_eq_some_iff.mp h).2.2.1 u v heq
    rw [Place.level_append, Reading.level_of_across opened, Reading.after_of_across opened]
    push_cast at nonneg ⊢
    omega
  · have quiet : ∀ c ∈ u, IsQuiet c := fun c hc =>
      response c (by rw [heq]; exact List.mem_append_left v hc)
    rw [Place.after_append, Place.after_append, Reading.after_of_across through,
      Place.isOutside_after_quiet quiet]
    rfl

end Crossing

/-! ## Statements that are read as they are written -/

/-- **A call is read as it is written** if every part of it is crossed. -/
theorem Call.readsAsWritten {call : Call} (hname : ∀ c ∈ call.name, isNamePart c = true)
    (hkeys : ∀ s ∈ call.present, ∀ key ∈ s.key, ∀ c ∈ key, isNamePart c = true)
    (hexpressions : ∀ s ∈ call.present, ∀ e, s.argument = .expression e → IsSelfContained e)
    {text : Text} (hrender : call.render = .ok text) :
    ReadsAsWritten call (selectResponse text) := by
  obtain ⟨parts, hparts, rfl⟩ := Call.render_eq_ok_iff.mp hrender
  have crossed : ∀ slots ⊆ call.present, ∀ parts, slots.mapM Slot.render = .ok parts →
      ∀ t ∈ parts, IsSelfContained t := by
    intro slots hslots parts hparts t ht
    obtain ⟨s, hs, hst⟩ := Outcome.exists_of_mem_mapM hparts ht
    obtain ⟨u, hu, rfl⟩ := Slot.render_eq_ok_iff.mp hst
    exact .append (.of_quiet (Slot.isQuiet_lead (hkeys s (hslots hs))))
      (.of_render (hexpressions s (hslots hs)) hu)
  have inside : IsSelfContained (Text.join ", ".toText parts) :=
    .join (crossed _ (List.Subset.refl _) parts hparts)
  constructor
  case closing => exact ⟨_, rfl, inside.closing hname⟩
  case semicolon =>
    exact (Reading.across_eq_some_iff.mp (IsSelfContained.statement hname inside)).2.2.2
  case argument =>
    intro earlier s later hpresent
    have hs : s ∈ call.present := by rw [hpresent]; exact List.mem_append_cons_self
    obtain ⟨before, text, others, hbefore, htext, -, heq⟩ := Call.exists_of_present hrender hpresent
    have reached : Reading.across ⟨.code, 0⟩ (call.before before s) = some ⟨.code, 1⟩ := by
      refine Call.across_before hname (hkeys s hs) (crossed earlier ?_ before hbefore)
      rw [hpresent]
      exact List.subset_append_left _ _
    refine ⟨before, text, others.flatMap (", ".toText ++ ·) ++ ") as response".toText, hbefore,
      htext, ?_, Reading.after_of_across reached, Reading.level_of_across reached, ?_⟩
    · rw [heq, Call.selectResponse_eq, List.append_assoc]
    · intro front t hliteral
      obtain ⟨hfront, rest, htext', hrest⟩ := Argument.exists_of_literal? hliteral htext
      refine ⟨?_, rest, htext', unquote_quote t ?_⟩
      · rw [Place.after_append, Reading.after_of_across reached, hfront]
        rfl
      -- behind the literal there is a parenthesis or a comma
      · obtain rfl | rfl := hrest
        · cases others with
          | nil => exact fun h => absurd (Option.some.inj h) (by decide)
          | cons u us => exact fun h => absurd (Option.some.inj h) (by decide)
        · exact fun h => absurd (Option.some.inj h) (by decide)

section Reads

variable {call : Call} {text e : Text} {s : Slot} {earlier later : List Slot} {parts : List Text}

/-- From an argument to the next one, or to the end of the call, all is quiet, and
there the reader is outside, with one parenthesis open. -/
theorem ReadsAsWritten.exists_quiet (h : ReadsAsWritten call (selectResponse text))
    (hrender : call.render = .ok text)
    (hkeys : ∀ s ∈ call.present, ∀ key ∈ s.key, ∀ c ∈ key, isNamePart c = true)
    (hpresent : call.present = earlier ++ s :: later)
    (hparts : earlier.mapM Slot.render = .ok parts) (he : s.argument.render = .ok e) :
    ∃ q, (∀ c ∈ q, IsQuiet c)
      ∧ (Place.code.after (call.before parts s ++ (e ++ q))).isOutside = true
      ∧ Place.code.level (call.before parts s ++ (e ++ q)) = 1 := by
  cases later with
  | nil =>
    obtain ⟨parts', e', others, hparts', he', hothers, rfl⟩ :=
      Call.exists_of_present hrender hpresent
    obtain rfl := Except.ok.inj (hparts.symm.trans hparts')
    obtain rfl := Except.ok.inj (he.symm.trans he')
    obtain rfl := List.forall₂_nil_left_iff.mp (Outcome.mapM_eq_ok_iff.mp hothers)
    obtain ⟨inside, hinside, outside, level, -⟩ := h.closing
    obtain rfl := Call.inside_injective hinside
    refine ⟨[], fun c hc => absurd hc List.not_mem_nil, ?_⟩
    rw [Call.before_append]
    exact ⟨outside, level⟩
  | cons s' later =>
    have hs' : s' ∈ call.present := by rw [hpresent]; simp
    have comma : ∀ c ∈ ", ".toText, IsQuiet c := by decide
    obtain ⟨parts', -, -, hparts', -, -, place, level, -⟩ :=
      h.argument (earlier ++ [s]) s' later (by rw [hpresent, List.append_assoc]; rfl)
    have hconcat : (earlier ++ [s]).mapM Slot.render = .ok (parts ++ [s.lead ++ e]) := by
      rw [List.mapM_append, hparts, List.mapM_cons, Slot.render_eq_ok_iff.mpr ⟨e, he, rfl⟩]
      rfl
    rw [Except.ok.inj (hparts'.symm.trans hconcat), Call.before_concat] at place level
    exact ⟨", ".toText ++ s'.lead, List.forall_mem_append.mpr
      ⟨comma, Slot.isQuiet_lead (hkeys s' hs')⟩, by rw [place]; rfl, level⟩

/-- **An expression is self-contained** if the call it is copied into is read as it is
written. -/
theorem ReadsAsWritten.isSelfContained (h : ReadsAsWritten call (selectResponse text))
    (hrender : call.render = .ok text)
    (hkeys : ∀ s ∈ call.present, ∀ key ∈ s.key, ∀ c ∈ key, isNamePart c = true)
    (hs : s ∈ call.present) (he : s.argument = .expression e)
    (hclosed : ∃ u, e = u ++ [.char ')']) : IsSelfContained e := by
  obtain ⟨earlier, later, hpresent⟩ := List.append_of_mem hs
  have hrendered : s.argument.render = .ok e := by rw [he]; rfl
  obtain ⟨parts, -, -, hparts, -, -, place, level, -⟩ := h.argument earlier s later hpresent
  obtain ⟨q, hq, outside, closed⟩ := h.exists_quiet hrender hkeys hpresent hparts hrendered
  obtain ⟨parts', e', others, hparts', he', -, rfl⟩ := Call.exists_of_present hrender hpresent
  obtain rfl := Except.ok.inj (hparts.symm.trans hparts')
  obtain rfl := Except.ok.inj (hrendered.symm.trans he')
  obtain ⟨inside, hinside, -, -, within, -⟩ := h.closing
  obtain rfl := Call.inside_injective hinside
  rw [Place.after_append, place, Place.after_append, Place.isOutside_after_quiet hq] at outside
  rw [Place.level_append, place, level, Place.level_append, Place.level_quiet hq] at closed
  refine Reading.across_eq_some_iff.mpr ⟨?_, ?_, fun u v heq => ?_, fun u v heq => ?_⟩
  · obtain ⟨u, rfl⟩ := hclosed
    rw [Place.after_append] at outside ⊢
    exact (Place.next_close_eq_code outside).symm
  · dsimp only
    push_cast
    omega
  -- what closes the call in front of its end would close it within the expression
  · have open' := within (parts.flatMap (· ++ ", ".toText) ++ (s.lead ++ u))
      (v ++ others.flatMap (", ".toText ++ ·)) (by rw [heq]; simp)
    rw [← Call.before_append, Place.level_append, place, level] at open'
    dsimp only
    push_cast
    omega
  · have hidden := h.semicolon (call.before parts s ++ u)
      (v ++ (others.flatMap (", ".toText ++ ·) ++ ") as response".toText)) (by
        rw [Call.selectResponse_eq, heq]
        simp)
    rwa [Place.after_append, place] at hidden

end Reads

end Sql

/-! ## The expressions of a payload -/

namespace Payload

variable {p : Payload} {c : Callee} {f : Field} {t e : Text} {s : Sql.Slot}

/-- **The expressions by which files are given.** -/
def expressions (p : Payload) : List Text :=
  Field.all.filterMap fun f =>
    match p.get? f with
    | some (.file (.expression t)) => some t
    | _ => none

theorem mem_expressions_iff :
    t ∈ p.expressions ↔ ∃ f, p.get? f = some (.file (.expression t)) := by
  unfold expressions
  rw [List.mem_filterMap]
  constructor
  · rintro ⟨f, -, h⟩
    split at h
    · next hv =>
      obtain rfl := Option.some.inj h
      exact ⟨f, hv⟩
    · cases h
  · rintro ⟨f, hv⟩
    have listed : f ∈ Field.all := by cases f <;> decide
    exact ⟨f, listed, by rw [hv]⟩

/-- A file on a stage is crossed, whatever its stage and its path are. -/
theorem isSelfContained_location (stage path : Text) :
    Sql.IsSelfContained (FileRef.location stage path).expressionText := by
  have name : Sql.IsSelfContained "TO_FILE".toText := .of_keyword (by decide)
  have comma : Sql.IsSelfContained ", ".toText := .of_quiet (by decide)
  have inside := (Sql.IsSelfContained.of_quote stage).append (comma.append (.of_quote path))
  have crossed := name.append inside.in_parens
  rw [FileRef.expressionText]
  simpa [String.toText] using crossed

/-- **What is copied into a call** is one of the expressions, or a file on a stage. -/
theorem isSelfContained_of_slot (h : ∀ t ∈ p.expressions, Sql.IsSelfContained t)
    (hs : s ∈ (p.callFor c).slots) (he : s.argument = .expression e) :
    Sql.IsSelfContained e := by
  have field : ∀ f, p.argument f = .expression e → Sql.IsSelfContained e := by
    intro f hf
    unfold argument at hf
    cases hv : p.get? f with
    | none => rw [hv] at hf; cases hf
    | some v =>
      rw [hv] at hf
      cases v with
      | file r =>
        obtain rfl := Sql.Argument.expression.inj hf
        cases r with
        | expression t => exact h t (mem_expressions_iff.mpr ⟨f, hv⟩)
        | location stage path => exact isSelfContained_location stage path
      | _ => cases hf
  unfold callFor at hs
  split at hs
  · obtain ⟨a, ha, rfl⟩ := List.mem_map.mp hs
    simp only [List.mem_cons, List.not_mem_nil, or_false] at ha
    obtain rfl | rfl | rfl := ha
    · exact field .model he
    · exact field .prompt he
    · cases he
  · obtain ⟨g, -, rfl⟩ := List.mem_map.mp hs
    exact field g.field he

/-- Each of the expressions is copied into the call. -/
theorem Valid.exists_slot (h : p.Valid) (hf : p.function = c.function)
    (ht : t ∈ p.expressions) : ∃ s ∈ (p.callFor c).present, s.argument = .expression t := by
  obtain ⟨f, hv⟩ := mem_expressions_iff.mp ht
  obtain ⟨q, hq, rfl, admits⟩ := h.conforms.exists_parameter hv
  have hkind : q.kind = .file := by
    cases hk : q.kind with
    | file => rfl
    | _ => rw [hk] at admits; exact admits.elim
  obtain ⟨g, hg, hfield⟩ := p.function.exists_passing q hq
  rw [callFor_of_ne (hf ▸ p.function.ne_complete_of_file q hq hkind)]
  have argument : p.argument g.field = .expression t := by
    rw [hfield, Payload.argument, hv]
    rfl
  refine ⟨⟨g.key, p.argument g.field⟩, List.mem_filter.mpr
    ⟨List.mem_map_of_mem hg, ?_⟩, argument⟩
  rw [argument]
  rfl

/-- An expression is a single call. -/
theorem Valid.isSingleCall (h : p.Valid) (ht : t ∈ p.expressions) : Sql.isSingleCall t = true := by
  obtain ⟨f, hv⟩ := mem_expressions_iff.mp ht
  obtain ⟨k, admits⟩ := h.exists_admits hv
  exact admits.of_file.2

/-- An expression ends with the parenthesis that closes it. -/
theorem Valid.exists_close (h : p.Valid) (ht : t ∈ p.expressions) :
    ∃ u, t = u ++ [.char ')'] := by
  obtain ⟨n, w, b, rfl, -⟩ := Sql.exists_of_isSingleCall (h.isSingleCall ht)
  exact ⟨n ++ (w ++ .char '(' :: b), by simp⟩

/-- The keys of the slots that are filled are keywords. -/
theorem Valid.isNamePart_keys (h : p.Valid) (c : Callee) : ∀ s ∈ (p.callFor c).present,
    ∀ key ∈ s.key, ∀ d ∈ key, Sql.isNamePart d = true :=
  fun s hs => (h.isSound_slots c s (List.mem_of_mem_filter hs)).1

/-- **A statement is read as it is written** if its expressions are self-contained. -/
theorem Valid.readsAsWritten (h : p.Valid) (hc : c.sqlName ∈ Callee.sqlNames) {sql : Text}
    (hsql : p.statement c = .ok sql) (crossed : ∀ t ∈ p.expressions, Sql.IsSelfContained t) :
    Sql.ReadsAsWritten (p.callFor c) sql := by
  obtain ⟨-, text, hrender, rfl⟩ := statement_eq_ok_iff.mp hsql
  have name := (Callee.isName_of_mem_sqlNames _ hc).isNamePart
  refine Sql.Call.readsAsWritten (by rwa [name_callFor]) (h.isNamePart_keys c)
    (fun s hs e he => ?_) hrender
  exact isSelfContained_of_slot crossed (List.mem_of_mem_filter hs) he

end Payload

/-- **Where no comment begins in an expression**, the statement is read as it is written:
the scan that accepted the expressions has missed nothing. -/
theorem dispatch_readsAsWritten_of_uncommented {function args : Option Text} {level : LogLevel}
    {r : Dispatched} (h : dispatch function args level = .ok r) :
    ∃ p, accept function args = .ok (r.callee, p)
      ∧ ((∀ t ∈ p.expressions, ∀ u v, t = u ++ v → (Sql.Place.code.after u).isComment = false) →
        Sql.ReadsAsWritten (p.callFor r.callee) r.query) := by
  obtain ⟨hc, p, hp, hquery, -, -⟩ := exists_of_dispatch h
  obtain ⟨valid, -⟩ := Payload.valid_of_ofText hp
  refine ⟨p, accept_eq_ok_iff.mpr ⟨hc, hp⟩, fun uncommented => ?_⟩
  exact valid.readsAsWritten (Callee.sqlName_mem_of_resolve hc) hquery fun t ht =>
    .of_isSingleCall (valid.isSingleCall ht) (uncommented t ht)

/-- **A statement is read as it is written** exactly if each file expression in it is
self-contained, by a reader that knows comments. -/
theorem dispatch_readsAsWritten_iff {function args : Option Text} {level : LogLevel}
    {r : Dispatched} (h : dispatch function args level = .ok r) :
    ∃ p, accept function args = .ok (r.callee, p)
      ∧ (Sql.ReadsAsWritten (p.callFor r.callee) r.query
        ↔ ∀ t ∈ p.expressions, Sql.IsSelfContained t) := by
  obtain ⟨hc, p, hp, hquery, -, -⟩ := exists_of_dispatch h
  obtain ⟨valid, -⟩ := Payload.valid_of_ofText hp
  refine ⟨p, accept_eq_ok_iff.mpr ⟨hc, hp⟩,
    fun reads t ht => ?_, valid.readsAsWritten (Callee.sqlName_mem_of_resolve hc) hquery⟩
  obtain ⟨hf, text, hrender, hsql⟩ := Payload.statement_eq_ok_iff.mp hquery
  obtain ⟨s, hs, he⟩ := valid.exists_slot hf ht
  rw [← hsql] at reads
  exact reads.isSelfContained hrender (valid.isNamePart_keys r.callee) hs he (valid.exists_close ht)

/-- Arguments of an extraction with an expression that has a comment, and with texts
that look like the ends of one. -/
def commentedFile : Text :=
  "\x7b\"file\": \"TO_FILE('@s/*', /* it is -- */ 'a;b')\", ".toText
    ++ "\"response_format\": \x7b\"*/\": \"--'\"\x7d\x7d".toText

/-- The comment ends inside of the expression, and literals hide the rest. -/
theorem dispatch_readsAsWritten_iff_extract :
    ∃ r p, dispatch (some "AI_EXTRACT".toText) (some commentedFile) .minimal = .ok r
      ∧ accept (some "AI_EXTRACT".toText) (some commentedFile) = .ok (r.callee, p)
      ∧ r.query = "select AI_EXTRACT(file => TO_FILE('@s/*', /* it is -- */ 'a;b'), ".toText
          ++ "responseFormat => PARSE_JSON('\x7b\"*/\":\"--''\"\x7d')) as response".toText
      ∧ p.expressions = ["TO_FILE('@s/*', /* it is -- */ 'a;b')".toText]
      ∧ Sql.ReadsAsWritten (p.callFor r.callee) r.query := by
  have query : (dispatch (some "AI_EXTRACT".toText) (some commentedFile) .minimal).toOption.map
        Dispatched.query
      = some ("select AI_EXTRACT(file => TO_FILE('@s/*', /* it is -- */ 'a;b'), ".toText
        ++ "responseFormat => PARSE_JSON('\x7b\"*/\":\"--''\"\x7d')) as response".toText) := by
    decide +kernel
  have expressions : (accept (some "AI_EXTRACT".toText) (some commentedFile)).toOption.map
        (fun a => a.2.expressions)
      = some ["TO_FILE('@s/*', /* it is -- */ 'a;b')".toText] := by
    decide +kernel
  obtain ⟨r, hr, hquery⟩ := Option.map_eq_some_iff.mp query
  obtain ⟨p, accepted, reads⟩ := dispatch_readsAsWritten_iff (toOption_eq_some_iff.mp hr)
  rw [accepted] at expressions
  have given : p.expressions = ["TO_FILE('@s/*', /* it is -- */ 'a;b')".toText] :=
    Option.some.inj expressions
  refine ⟨r, p, toOption_eq_some_iff.mp hr, accepted, hquery, given, reads.mpr fun t ht => ?_⟩
  rw [given, List.mem_singleton] at ht
  rw [ht]
  decide

/-- Arguments for a document with an expression that is one call to the scan, which sees
a literal where there are two comments. -/
def hiddenStatement : Text :=
  "\x7b\"file\":\"TO_FILE(/*'*/)) as x; drop table t; select f((/*'*/)\"\x7d".toText

/-- **Comments let an expression end the call**: what stands behind is another statement. -/
theorem not_readsAsWritten_hiddenStatement :
    ∃ r p, dispatch (some "AI_PARSE_DOCUMENT".toText) (some hiddenStatement) .minimal = .ok r
      ∧ accept (some "AI_PARSE_DOCUMENT".toText) (some hiddenStatement) = .ok (r.callee, p)
      ∧ r.query = "select AI_PARSE_DOCUMENT(file => TO_FILE(/*'*/)) as x".toText
          ++ .char ';' :: " drop table t; select f((/*'*/)) as response".toText
      ∧ (Sql.Place.code.after
          "select AI_PARSE_DOCUMENT(file => TO_FILE(/*'*/)) as x".toText).isOutside = true
      ∧ ¬ Sql.ReadsAsWritten (p.callFor r.callee) r.query := by
  have query : (dispatch (some "AI_PARSE_DOCUMENT".toText) (some hiddenStatement) .minimal
        ).toOption.map Dispatched.query
      = some ("select AI_PARSE_DOCUMENT(file => TO_FILE(/*'*/)) as x".toText
          ++ .char ';' :: " drop table t; select f((/*'*/)) as response".toText) := by
    decide +kernel
  have outside : (Sql.Place.code.after
      "select AI_PARSE_DOCUMENT(file => TO_FILE(/*'*/)) as x".toText).isOutside = true := by
    decide
  obtain ⟨r, hr, hquery⟩ := Option.map_eq_some_iff.mp query
  obtain ⟨hc, p, hp, -⟩ := exists_of_dispatch (toOption_eq_some_iff.mp hr)
  refine ⟨r, p, toOption_eq_some_iff.mp hr, accept_eq_ok_iff.mpr ⟨hc, hp⟩, hquery, outside,
    fun reads => ?_⟩
  have inside := reads.semicolon _ _ hquery
  rw [outside] at inside
  cases inside

end CortexCall
