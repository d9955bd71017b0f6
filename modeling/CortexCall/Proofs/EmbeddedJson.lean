import CortexCall.Proofs.Balanced
import CortexCall.Proofs.InterruptedRequest
import CortexCall.Proofs.WriterDemands

/-!
# What an embedded object says

An object travels through SQL in two layers of escapes: it is printed as JSON,
and the JSON text is quoted. Each layer is undone by the reader that the
library itself has for it. The outer one is the rule by which a call is scanned
– a doubled apostrophe stays inside a literal, one on its own closes it – and
`closesAtEnd_mark_iff` says that the scan, which only counts apostrophes,
follows this rule. The inner one is the reader of argument texts.

So what is found between the apostrophes is read as the object that was
embedded, with its members in their order, its texts character by character,
and whole numbers still apart from doubles: `embed_reads_back`. The object must
be one that a text can spell, which every object that was read is, and it must
nest no deeper than its writer and its reader may be. One of them gives up where
it does, and that is all that can go wrong.
-/

namespace CortexCall.Sql

/-! ## The literal rule of the scan -/

/-- Inside a literal the scan goes on where the literal is read to end. -/
theorem closesAtEnd_inside_iff {depth : ℕ} {t : Text} : closesAtEnd true depth t = true ↔
    ∃ r, unquoteBody t = some r ∧ closesAtEnd false depth r.2 = true := by
  fun_induction unquoteBody t with
  | case1 => exact iff_of_false Bool.false_ne_true (by rintro ⟨_, ⟨⟩, _⟩)
  | case2 more ih =>
    -- a doubled apostrophe leaves the literal and enters it again
    rw [closesAtEnd_mark, Bool.not_true, closesAtEnd_mark, Bool.not_false, ih]
    simp only [Option.map_eq_some_iff, exists_exists_and_eq_and]
  | case3 rest _ =>
    rw [closesAtEnd_mark, Bool.not_true]
    simp
  | case4 c rest hc ih =>
    rw [closesAtEnd_inside hc, ih]
    simp only [Option.map_eq_some_iff, exists_exists_and_eq_and]

/-- **The scan reads literals by their rule**: it goes on where the literal at
the front is read to end, and fails if that is nowhere. -/
theorem closesAtEnd_mark_iff {depth : ℕ} {t : Text} : closesAtEnd false depth (mark :: t) = true ↔
    ∃ r, unquote (mark :: t) = some r ∧ closesAtEnd false depth r.2 = true := by
  rw [closesAtEnd_mark, Bool.not_false, closesAtEnd_inside_iff]
  rfl

/-! ## Both layers -/

/-- **What is embedded is read back.** A literal says what was quoted, wherever
it stands, by the rule that the scan of a call follows too. An object that a text
can spell, with finite numbers in it, is embedded as one literal whose content is
read as this very object, if it nests no deeper than the writer and the reader may
be. The writer of an object that nests deeper gives up, and so does its reader. -/
theorem embed_reads_back :
    (∀ s rest : Text, rest.head? ≠ some mark → unquote (quote s ++ rest) = some (s, rest))
    ∧ (∀ (depth : ℕ) (t : Text), closesAtEnd false depth (mark :: t) = true ↔
        ∃ r, unquote (mark :: t) = some r ∧ closesAtEnd false depth r.2 = true)
    ∧ ∀ (m : Members) (writing reading : ℕ), (Json.obj m).IsRegular →
      (Json.obj m).allFinite = true →
      ((Json.obj m).nesting ≤ writing →
        ∃ j, embedBy (jsonTextWithin writing) (.obj m)
            = .ok ("PARSE_JSON(".toText ++ quote j ++ ")".toText)
          ∧ (∀ rest, unquote (quote j ++ (")".toText ++ rest)) = some (j, ")".toText ++ rest))
          ∧ ∀ label, ((Json.obj m).nesting ≤ reading →
              Request.readObjectWithin reading label (some j) = .ok m)
            ∧ (reading < (Json.obj m).nesting →
              ∃ c, Request.readObjectWithin reading label (some j) = .error (.interrupted c)))
      ∧ (writing < (Json.obj m).nesting →
        embedBy (jsonTextWithin writing) (.obj m) = .error .tooDeep) := by
  refine ⟨fun s _ h => unquote_quote s h, fun _ _ => closesAtEnd_mark_iff,
    fun m writing reading regular finite => ⟨fun shallow => ?_, fun deep => ?_⟩⟩
  · have tooDeep : Request.IsTooDeep reading (some ((Json.obj m).print .compact))
        ↔ reading < (Json.obj m).nesting :=
      Request.isTooDeep_print_iff Json.Layout.isSound_compact regular finite
    refine ⟨(Json.obj m).print .compact, ?_, fun rest => ?_,
      fun label => ⟨fun h => ?_, fun h => ?_⟩⟩
    · exact embedBy_of_nesting_le finite shallow
    · refine unquote_quote _ ?_
      show some (CodePoint.char ')') ≠ some mark
      decide
    · rw [readObjectWithin_of_not_tooDeep (mt tooDeep.mp (Nat.not_lt_of_le h)),
        readObject_of_object? label (Request.object?_printed Json.Layout.isSound_compact regular
          finite)]
      rfl
    · exact readObjectWithin_of_tooDeep (tooDeep.mpr h) label
  · exact embedBy_of_lt_nesting finite deep

/-- An object that needs both layers of escapes: a name with an apostrophe, a
whole number beside the double of the same value, a negative zero, and a text
with a quotation mark, a backslash, a line break and a control character. -/
def bothLayers : Members :=
  [("it's".toText, .arr [.int 1, .double (.finite false (2 ^ 52) (-52)), .double (.zero true)]),
   ([], .obj [("é".toText, .str "\"\\\n\u0001".toText), ("b".toText, .null)])]

theorem isRegular_bothLayers : (Json.obj bothLayers).IsRegular := by
  have one : (Json.int 1).IsRegular := Nat.one_lt_pow (by decide) (by decide)
  have double : (Binary64.finite false (2 ^ 52) (-52)).IsCanonical :=
    ⟨by decide, by decide, by decide, .inl (Nat.le_refl _)⟩
  have zero : (Binary64.zero true).IsCanonical :=
    ⟨by decide, by decide, by decide, .inr rfl⟩
  exact ⟨by decide, ⟨one, double, zero, trivial⟩, ⟨by decide, trivial, trivial, trivial⟩, trivial⟩

theorem embed_reads_back_bothLayers :
    unquote (quote "it's".toText ++ ", x".toText) = some ("it's".toText, ", x".toText)
    ∧ closesAtEnd false 1 "'it''s')".toText = true
    ∧ (∃ r, unquote "'it''s')".toText = some r ∧ closesAtEnd false 1 r.2 = true)
    ∧ (Json.obj bothLayers).allFinite = true
    ∧ (Json.obj bothLayers).nesting = 2
    ∧ embedBy (jsonTextWithin 2) (.obj bothLayers)
        = .ok ("PARSE_JSON('\x7b\"it''s\":[1,1.0,-0.0],\"\":".toText
          ++ "\x7b\"é\":\"\\\"\\\\\\n\\u0001\",\"b\":null\x7d\x7d')".toText)
    ∧ (∃ j, embedBy (jsonTextWithin 2) (.obj bothLayers)
          = .ok ("PARSE_JSON(".toText ++ quote j ++ ")".toText)
        ∧ (∀ rest, unquote (quote j ++ (")".toText ++ rest)) = some (j, ")".toText ++ rest))
        ∧ ∀ label, Request.readObjectWithin 2 label (some j) = .ok bothLayers)
    ∧ (∃ j, embedBy (jsonTextWithin 2) (.obj bothLayers)
          = .ok ("PARSE_JSON(".toText ++ quote j ++ ")".toText)
        ∧ ∀ label, ∃ c, Request.readObjectWithin 1 label (some j) = .error (.interrupted c))
    ∧ embedBy (jsonTextWithin 1) (.obj bothLayers) = .error .tooDeep := by
  obtain ⟨reads, scans, embeds⟩ := embed_reads_back
  have closes : closesAtEnd false 1 "'it''s')".toText = true := by decide
  have nesting : (Json.obj bothLayers).nesting = 2 := rfl
  obtain ⟨j, embedded, found, read⟩ :=
    (embeds bothLayers 2 2 isRegular_bothLayers rfl).1 nesting.le
  obtain ⟨j', embedded', -, read'⟩ :=
    (embeds bothLayers 2 1 isRegular_bothLayers rfl).1 nesting.le
  exact ⟨reads _ _ (by decide), closes, (scans 1 _).mp closes, rfl, nesting, by decide +kernel,
    ⟨j, embedded, found, fun label => (read label).1 nesting.le⟩,
    ⟨j', embedded', fun label => (read' label).2 (Nat.lt_of_lt_of_eq (by decide) nesting.symm)⟩,
    (embeds bothLayers 1 1 isRegular_bothLayers rfl).2
      (Nat.lt_of_lt_of_eq (by decide) nesting.symm)⟩

/-- **No writer is deep enough for every object**: whatever a writer and a reader may
be inside, some object is not read back because it is not even embedded. -/
theorem not_embedded_nested :
    ¬ ∃ writing reading, ∀ m : Members, (Json.obj m).IsRegular → (Json.obj m).allFinite = true →
      ∃ j, embedBy (jsonTextWithin writing) (.obj m)
          = .ok ("PARSE_JSON(".toText ++ quote j ++ ")".toText)
        ∧ ∀ label, Request.readObjectWithin reading label (some j) = .ok m := by
  rintro ⟨writing, reading, embedded⟩
  have regular : (Json.obj [("a".toText, .nested writing)]).IsRegular :=
    ⟨List.nodup_singleton _, Json.isRegular_nested writing, trivial⟩
  have finite : (Json.obj [("a".toText, .nested writing)]).allFinite = true :=
    Json.membersFinite_iff.mpr (by simp)
  have deep : writing < (Json.obj [("a".toText, .nested writing)]).nesting := by
    simp [Json.nesting, Json.membersNesting]
  obtain ⟨j, hj, -⟩ := embedded _ regular finite
  cases hj.symm.trans (embedBy_of_lt_nesting finite deep)

end CortexCall.Sql
