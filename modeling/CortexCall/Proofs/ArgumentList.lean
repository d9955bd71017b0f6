import CortexCall.Proofs.Balanced
import CortexCall.Proofs.Outcome
import CortexCall.Sql.Call

/-!
# The arguments of a call, read off its text

A reader of SQL tells the arguments of a call apart by the commas between
them, and has to pass over the commas that belong to a literal or to a call
inside. `cut` is that reader: it carries whether it is inside a literal and
how many parentheses are open, and cuts where neither is the case.

It meets the renderer in the items of `CortexCall.Proofs.Balanced`. An item
is crossed without a cut, so items joined by commas are cut into exactly
these items – `splitArguments_join` – and everything the renderer puts
between the parentheses of a call is such a list, whatever the arguments
hold: `Argument.isItem_of_render`.
-/

namespace CortexCall.Sql

/-- The pieces of a text between its commas, where a comma inside a literal
or inside parentheses does not count. -/
def cut (inLiteral : Bool) (depth : Nat) : Text → List Text
  | [] => [[]]
  | c :: rest =>
    if c = mark then (cut (!inLiteral) depth rest).modifyHead (c :: ·)
    else if inLiteral then (cut true depth rest).modifyHead (c :: ·)
    else if c = '(' then (cut false (depth + 1) rest).modifyHead (c :: ·)
    else if c = ')' then (cut false (depth - 1) rest).modifyHead (c :: ·)
    else if c = ',' ∧ depth = 0 then [] :: cut false 0 rest
    else (cut false depth rest).modifyHead (c :: ·)

/-- A piece without the one blank that follows a comma. -/
def dropBlank : Text → Text
  | .char ' ' :: rest => rest
  | t => t

/-- **The arguments of a call**, from the text between its parentheses. -/
def splitArguments (t : Text) : List Text :=
  match cut false 0 t with
  | [] => []
  | first :: others => first :: others.map dropBlank

/-! ## Cutting crosses items -/

section Cut

variable {depth : Nat} {t rest : Text}

theorem modifyHead_nil_append (ps : List Text) : ps.modifyHead ([] ++ ·) = ps := by
  cases ps <;> rfl

theorem modifyHead_cons_append (c : CodePoint) (t : Text) (ps : List Text) :
    (ps.modifyHead (t ++ ·)).modifyHead (c :: ·) = ps.modifyHead (c :: t ++ ·) := by
  cases ps <;> rfl

theorem modifyHead_append_append (t u : Text) (ps : List Text) :
    (ps.modifyHead (u ++ ·)).modifyHead (t ++ ·) = ps.modifyHead (t ++ u ++ ·) := by
  cases ps with
  | nil => rfl
  | cons p rest => exact congrArg (· :: rest) (List.append_assoc t u p).symm

theorem cut_mark {inLiteral : Bool} :
    cut inLiteral depth (mark :: t) = (cut (!inLiteral) depth t).modifyHead (mark :: ·) := by
  rw [cut, if_pos rfl]

theorem cut_inside {c : CodePoint} (h : c ≠ mark) :
    cut true depth (c :: t) = (cut true depth t).modifyHead (c :: ·) := by
  rw [cut, if_neg h, if_pos rfl]

theorem cut_open :
    cut false depth (.char '(' :: t) = (cut false (depth + 1) t).modifyHead (.char '(' :: ·) := by
  rw [cut, if_neg (by decide), if_neg Bool.false_ne_true, if_pos rfl]

theorem cut_close :
    cut false (depth + 1) (.char ')' :: t)
      = (cut false depth t).modifyHead (.char ')' :: ·) := by
  rw [cut, if_neg (by decide), if_neg Bool.false_ne_true, if_neg (by decide), if_pos rfl,
    Nat.add_sub_cancel]

theorem cut_comma : cut false 0 (.char ',' :: t) = [] :: cut false 0 t := by
  rw [cut, if_neg (by decide), if_neg Bool.false_ne_true, if_neg (by decide),
    if_neg (by decide), if_pos ⟨rfl, rfl⟩]

theorem cut_plain {c : CodePoint} (plain : IsPlain c) (comma : c = ',' → depth ≠ 0) :
    cut false depth (c :: t) = (cut false depth t).modifyHead (c :: ·) := by
  obtain ⟨hm, -, ho, hc⟩ := plain
  rw [cut, if_neg hm, if_neg Bool.false_ne_true, if_neg ho, if_neg hc,
    if_neg fun h => comma h.1 h.2]

theorem cut_doubled (s : Text) :
    cut true depth (doubled s ++ rest) = (cut true depth rest).modifyHead (doubled s ++ ·) := by
  induction s with
  | nil => exact (modifyHead_nil_append _).symm
  | cons c more ih =>
    rw [doubled]
    split
    · next hc =>
      subst hc
      rw [List.cons_append, List.cons_append, cut_mark, cut_mark]
      show List.modifyHead _ (List.modifyHead _ (cut true depth _)) = _
      rw [ih, modifyHead_cons_append, modifyHead_cons_append]
    · next hc => rw [List.cons_append, cut_inside hc, ih, modifyHead_cons_append]

theorem cut_quote (s : Text) :
    cut false depth (quote s ++ rest) = (cut false depth rest).modifyHead (quote s ++ ·) := by
  rw [quote, List.cons_append, List.append_assoc, cut_mark, Bool.not_false, cut_doubled,
    List.singleton_append, cut_mark, Bool.not_true, modifyHead_cons_append]
  cases cut false depth rest with
  | nil => rfl
  | cons p others => simp

/-- **Balanced text is crossed without a cut**, inside parentheses always and
outside of them if it is an item. -/
theorem cut_append {commas : Bool} (h : Balanced commas t) (hd : commas = true → depth ≠ 0) :
    cut false depth (t ++ rest) = (cut false depth rest).modifyHead (t ++ ·) := by
  induction h generalizing depth rest with
  | nil => exact (modifyHead_nil_append _).symm
  | char plain comma _ ih =>
    rw [List.cons_append, cut_plain plain fun e => hd (comma e), ih hd, modifyHead_cons_append]
  | literal s _ ih =>
    rw [List.append_assoc, cut_quote, ih hd, modifyHead_append_append]
  | group inner _ ih₁ ih₂ =>
    -- one deeper no comma cuts, so the commas inside do not matter
    rw [List.cons_append, cut_open, List.append_assoc, ih₁ fun _ => Nat.succ_ne_zero depth,
      List.cons_append, cut_close, ih₂ hd, modifyHead_cons_append (.char ')'),
      modifyHead_append_append, modifyHead_cons_append]

end Cut

/-! ## Items joined by commas -/

theorem cut_join {t : Text} {ts : List Text} (h : ∀ u ∈ t :: ts, IsItem u) :
    cut false 0 (Text.join ", ".toText (t :: ts)) = t :: ts.map (.char ' ' :: ·) := by
  induction ts generalizing t with
  | nil =>
    rw [Text.join_singleton, ← List.append_nil t,
      cut_append (h t List.mem_cons_self) fun e => absurd e Bool.false_ne_true]
    simp [cut]
  | cons u us ih =>
    have blank : IsPlain (.char ' ') ∧ CodePoint.char ' ' ≠ .char ',' := by decide
    rw [Text.join_cons_cons, List.append_assoc,
      cut_append (h t List.mem_cons_self) fun e => absurd e Bool.false_ne_true]
    show (cut false 0 (.char ',' :: .char ' ' :: Text.join ", ".toText (u :: us))).modifyHead _ = _
    -- the blank behind the comma is cut off with the next item
    rw [cut_comma, cut_plain blank.1 fun e => absurd e blank.2,
      ih fun v hv => h v (List.mem_cons_of_mem t hv)]
    simp

/-- **Items joined by commas are the arguments of the text they make.** -/
theorem splitArguments_join {ts : List Text} (h : ∀ t ∈ ts, IsItem t) (hne : ts ≠ []) :
    splitArguments (Text.join ", ".toText ts) = ts := by
  obtain ⟨t, us, rfl⟩ := List.exists_cons_of_ne_nil hne
  rw [splitArguments, cut_join h]
  show t :: (us.map (.char ' ' :: ·)).map dropBlank = t :: us
  rw [List.map_map]
  exact congrArg (t :: ·) (List.map_id us)

/-! ## What the renderer puts between parentheses -/

/-- A keyword is an item. -/
theorem isItem_keyword {t : Text} (h : ∀ c ∈ t, isNamePart c = true) : IsItem t :=
  .of_forall_plain fun c hc => isPlain_of_isNamePart (h c hc)

/-- A call of a keyword on balanced text is an item. -/
theorem isItem_call {name t : Text} (hname : ∀ c ∈ name, isNamePart c = true)
    (ht : Balanced true t) : IsItem (name ++ .char '(' :: (t ++ [.char ')'])) :=
  .append (isItem_keyword hname) (.in_parens ht)

/-- A value that the database parses is an item. -/
theorem isItem_of_embed {v : Json} {t : Text} (h : embed v = .ok t) : IsItem t := by
  obtain ⟨u, -, h⟩ := Outcome.bind_eq_ok_iff.mp h
  obtain rfl := Except.ok.inj h
  have name : ∀ c ∈ "PARSE_JSON".toText, isNamePart c = true := by decide
  have item := isItem_call name (.of_quote u)
  exact (List.append_assoc ..).symm ▸ item

namespace Argument

/-- Whether an expression among the arguments is an item; values always
are. -/
def IsSound : Argument → Prop
  | .expression t => IsItem t
  | .value _ => True

/-- **A rendered argument is an item**, whatever texts are in it. -/
theorem isItem_of_render {a : Argument} {t : Text} (ha : a.IsSound) (h : a.render = .ok t) :
    IsItem t := by
  unfold render renderBy at h
  split at h
  · obtain rfl := Except.ok.inj h
    exact ha
  · obtain rfl := Except.ok.inj h
    exact isItem_keyword (by decide)
  · obtain rfl := Except.ok.inj h
    exact isItem_keyword (by decide)
  · obtain rfl := Except.ok.inj h
    exact .of_quote _
  · exact isItem_of_embed h
  · exact isItem_of_embed h
  all_goals exact absurd h (by simp)

end Argument

namespace Slot

/-- Whether a slot has a keyword for a key, if it has one, and a sound
argument. -/
def IsSound (s : Slot) : Prop :=
  (∀ key ∈ s.key, ∀ c ∈ key, isNamePart c = true) ∧ s.argument.IsSound

/-- **A rendered slot is an item.** -/
theorem isItem_of_render {s : Slot} {t : Text} (hs : s.IsSound) (h : s.render = .ok t) :
    IsItem t := by
  obtain ⟨key, argument⟩ := s
  obtain ⟨hkey, hargument⟩ := hs
  obtain ⟨u, hu, h⟩ := Outcome.bind_eq_ok_iff.mp h
  have item := Argument.isItem_of_render hargument hu
  cases key with
  | none =>
    obtain rfl := Except.ok.inj h
    exact item
  | some key =>
    obtain rfl := Except.ok.inj h
    have arrow : IsItem " => ".toText := .of_forall_plain (by decide)
    exact .append (.append (isItem_keyword (hkey key rfl)) arrow) item

end Slot

namespace Call

/-- **The text of a call**: its name, and between parentheses items that read
back as its present slots. -/
theorem render_eq_ok_iff {c : Call} {t : Text} :
    c.render = .ok t ↔ ∃ parts, c.present.mapM Slot.render = .ok parts
      ∧ t = c.name ++ "(".toText ++ Text.join ", ".toText parts ++ ")".toText := by
  unfold render renderBy
  rw [Outcome.bind_eq_ok_iff]
  refine exists_congr fun parts => and_congr_right fun _ => ?_
  show (.ok _ : Except RenderError Text) = .ok t ↔ _
  rw [Except.ok.injEq, eq_comm]

/-- Every part of a rendered call is an item. -/
theorem isItem_of_mem {c : Call} (hc : ∀ s ∈ c.present, s.IsSound) {parts : List Text}
    (h : c.present.mapM Slot.render = .ok parts) : ∀ t ∈ parts, IsItem t := by
  intro t ht
  obtain ⟨s, hs, hst⟩ := Outcome.exists_of_mem_mapM h ht
  exact Slot.isItem_of_render (hc s hs) hst

end Call

/-- Items joined by commas are balanced. -/
theorem balanced_join {ts : List Text} (h : ∀ t ∈ ts, IsItem t) :
    Balanced true (Text.join ", ".toText ts) := by
  induction ts with
  | nil => exact .nil
  | cons t rest ih =>
    have ht := (h t List.mem_cons_self).weaken
    cases rest with
    | nil => exact ht
    | cons u us =>
      have separator : Balanced true ", ".toText :=
        .char (by decide) (fun _ => rfl) (.char (by decide) (fun _ => rfl) .nil)
      exact .append (.append ht separator) (ih fun v hv => h v (List.mem_cons_of_mem t hv))

end CortexCall.Sql
