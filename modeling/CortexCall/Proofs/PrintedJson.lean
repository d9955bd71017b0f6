import CortexCall.Json.Printer
import CortexCall.Proofs.NestedJson

/-!
# Printing reads back

What is printed in any layout is JSON, and it is read as the value that was
printed: `read_print`. Two things can be printed that no text spells, so the
value must be regular and its numbers finite; of the layout it matters only
that commas and colons are where they belong, with nothing but white space
around them.

The proof is one derivation in the grammar, built along the value. A
container is printed as its parts with separators between them, and each
part is derived in front of whatever comes behind it. The text nests as deep as
the value, so a reader with a bound reads it if the value is within the bound,
and is interrupted if it is not: `readWithin_print`. Since one text denotes
one value, a printed text tells which value it shows: `print_injective`.
-/

namespace CortexCall.Json

/-! ## Texts -/

section Text

variable {t rest : Text} {us : List Spelled}

theorem exists_control {c : CodePoint} (h : c.toNat < 0x20) :
    ∃ n : Fin 0x20, c = .char (Char.ofNat n) := by
  cases c with
  | char c => exact ⟨⟨c.toNat, h⟩, congrArg CodePoint.char (Char.ofNat_toNat c).symm⟩
  | half u =>
    have : CodePoint.firstHalf + u.val < 0x20 := h
    exact absurd this (by unfold CodePoint.firstHalf; omega)

/-- A control character is printed by its letter, or by its number. -/
theorem escapeChar_control : ∀ n : Fin 0x20,
    (∃ x ∈ "nrtbf".toText, escapeChar (.char (Char.ofNat n)) = [.char '\\', x]
      ∧ plainEscape x = some (.char (Char.ofNat n)))
    ∨ escapeChar (.char (Char.ofNat n)) = .char '\\' :: .char 'u' :: Text.hexDigits 4 n
      ∧ Spelled.ofNumber n = .point (.char (Char.ofNat n)) := by
  decide

/-- The number of a control character reads back. -/
theorem hexUnit_hexDigits (n : Fin 0x20) :
    ∃ a b c e, Text.hexDigits 4 n = [a, b, c, e] ∧ hexUnit a b c e = some n.val := by
  refine ⟨_, _, _, _, rfl, ?_⟩
  revert n
  decide

theorem escapeChar_verbatim {c : CodePoint} (hquote : c ≠ .char '"') (hbackslash : c ≠ .char '\\')
    (hcontrol : 0x20 ≤ c.toNat) : escapeChar c = [c] := by
  have ne : ∀ x : CodePoint, x.toNat < 0x20 → c ≠ x := by
    rintro x hx rfl
    omega
  unfold escapeChar
  rw [if_neg hquote, if_neg hbackslash, if_neg (ne _ (by decide)), if_neg (ne _ (by decide)),
    if_neg (ne _ (by decide)), if_neg (by omega), if_neg (by omega), if_neg (by omega)]

/-- **A printed character spells itself.** -/
theorem spells_escapeChar (c : CodePoint) (h : Spells t us rest) :
    Spells (escapeChar c ++ t) (.point c :: us) rest := by
  by_cases hcontrol : c.toNat < 0x20
  · obtain ⟨n, rfl⟩ := exists_control hcontrol
    obtain ⟨x, -, htext, hescape⟩ | ⟨htext, hpoint⟩ := escapeChar_control n
    · rw [htext]
      exact .escape hescape h
    · obtain ⟨a, b, c, e, hdigits, hunit⟩ := hexUnit_hexDigits n
      rw [htext, hdigits, ← hpoint]
      exact .number hunit h
  · by_cases hquote : c = .char '"'
    · subst hquote
      exact .escape (by decide) h
    · by_cases hbackslash : c = .char '\\'
      · subst hbackslash
        exact .escape (by decide) h
      · rw [escapeChar_verbatim hquote hbackslash (Nat.le_of_not_lt hcontrol)]
        exact .plain hquote hbackslash (Nat.le_of_not_lt hcontrol) h

/-- **A printed text spells what was printed**, and nothing in it needs
pairing. -/
theorem spells_printText (s rest : Text) :
    Spells (s.flatMap escapeChar ++ .char '"' :: rest) (s.map .point) rest := by
  induction s with
  | nil => exact .close
  | cons c more ih =>
    rw [List.flatMap_cons, List.append_assoc]
    exact spells_escapeChar c ih

end Text

/-! ## Layouts -/

/-- A text that is a mark with white space behind it. -/
def IsMark (c : CodePoint) (t : Text) : Prop := ∃ s, (∀ x ∈ s, isSpace x = true) ∧ t = c :: s

/-- **A layout of JSON**: its commas and colons are some. -/
structure Layout.IsSound (l : Layout) : Prop where
  comma : IsMark ',' l.comma
  colon : IsMark ':' l.colon

namespace Layout

theorem isSound_compact : compact.IsSound := ⟨⟨[], nofun, rfl⟩, ⟨[], nofun, rfl⟩⟩

theorem isSound_spaced : spaced.IsSound :=
  ⟨⟨[.char ' '], by decide, rfl⟩, ⟨[.char ' '], by decide, rfl⟩⟩

theorem isSound_indented : indented.IsSound := ⟨⟨[], nofun, rfl⟩, ⟨[.char ' '], by decide, rfl⟩⟩

/-- A line break is white space. -/
theorem space_lineBreak (l : Layout) (level : ℕ) (rest : Text) :
    Space (l.lineBreak level ++ rest) rest := by
  refine ⟨_, ?_, rfl⟩
  unfold lineBreak
  split
  · nofun
  · refine List.forall_mem_cons.mpr ⟨by decide, fun c hc => ?_⟩
    rw [List.eq_of_mem_replicate hc]
    rfl

theorem IsSound.between {l : Layout} (h : l.IsSound) (level : ℕ) :
    IsMark ',' (l.between level) := by
  obtain ⟨s, hs, hcomma⟩ := h.comma
  obtain ⟨b, hb, hbreak⟩ := l.space_lineBreak level []
  rw [List.append_nil, List.append_nil] at hbreak
  refine ⟨s ++ b, fun c hc => (List.mem_append.mp hc).elim (hs c) (hb c), ?_⟩
  rw [Layout.between, hcomma, hbreak]
  rfl

end Layout

/-! ## Values -/

section Value

variable {d : Dialect} {l : Layout} {level n : ℕ}

/-- The items of a container behind its bracket. -/
theorem derives_array {items : List Json} {parts : List Text} {rest : Text}
    (hparts : parts ≠ []) (h : ∀ u, Space u (.char ']' :: rest) →
      Derives d n (Text.join (l.between (level + 1)) parts ++ u) (.items items) rest) :
    Derives d (n + 1) (l.enclose '[' ']' level parts ++ rest) (.value (.arr items)) rest := by
  have text : l.enclose '[' ']' level parts ++ rest
      = .char '[' :: (l.lineBreak (level + 1) ++ (Text.join (l.between (level + 1)) parts
        ++ (l.lineBreak level ++ .char ']' :: rest))) := by
    rw [Layout.enclose]
    · simp
    · exact hparts
  rw [text]
  exact .array (l.space_lineBreak _ _) (h _ (l.space_lineBreak _ _))

/-- The members of a container behind its brace. -/
theorem derives_object {members : List (Text × Json)} {parts : List Text} {rest : Text}
    (nodup : (Members.names members).Nodup) (hparts : parts ≠ [])
    (h : ∀ u, Space u (.char '\x7d' :: rest) →
      Derives d n (Text.join (l.between (level + 1)) parts ++ u) (.members members) rest) :
    Derives d (n + 1) (l.enclose '\x7b' '\x7d' level parts ++ rest) (.value (.obj members))
      rest := by
  have text : l.enclose '\x7b' '\x7d' level parts ++ rest
      = .char '\x7b' :: (l.lineBreak (level + 1) ++ (Text.join (l.between (level + 1)) parts
        ++ (l.lineBreak level ++ .char '\x7d' :: rest))) := by
    rw [Layout.enclose]
    · simp
    · exact hparts
  have derives := Derives.object (l.space_lineBreak (level + 1) _) (h _ (l.space_lineBreak level _))
  rw [Members.ofPairs_eq_self nodup] at derives
  exact text ▸ derives

mutual

/-- **A printed value is derived as itself**, whatever comes behind it, and nests
no deeper than the value does. -/
theorem derives_printAt (hl : l.IsSound) (level : ℕ) : (v : Json) → v.IsRegular →
    v.allFinite = true → ∀ n, v.nesting ≤ n → ∀ rest,
      Derives d n (printAt l level v ++ rest) (.value v) rest
  | .null, _, _ => by
    unfold printAt
    exact fun _ _ rest => .word List.mem_cons_self
  | .bool true, _, _ => by
    unfold printAt
    exact fun _ _ rest => .word (List.mem_cons_of_mem _ List.mem_cons_self)
  | .bool false, _, _ => by
    unfold printAt
    exact fun _ _ rest =>
      .word (List.mem_cons_of_mem _ (List.mem_cons_of_mem _ List.mem_cons_self))
  | .int _, regular, _ => by
    unfold printAt
    obtain ⟨numeral, value, text⟩ := Text.exists_numeral_ofInt regular
    exact fun _ _ rest => .number (text rest) value
  | .double x, regular, finite => by
    unfold printAt
    obtain ⟨numeral, value, text⟩ := Binary64.exists_numeral_write regular finite
    exact fun _ _ rest => .number (text rest) value
  | .str t, _, _ => by
    unfold printAt
    intro n _ rest
    have spells := spells_printText t rest
    have derives : Derives d n _ _ rest := .text spells
    rw [Spelled.text_map_point] at derives
    rw [printText, List.cons_append, List.append_assoc]
    exact derives
  | .arr [], _, _ => by
    unfold printAt
    rintro (_ | n) hn rest
    · exact absurd hn (Nat.not_succ_le_zero _)
    · exact .emptyArray (.refl _)
  | .arr (v :: more), regular, finite => by
    unfold printAt
    rintro (_ | n) hn rest
    · exact absurd hn (Nat.not_succ_le_zero _)
    · exact derives_array (List.cons_ne_nil _ _)
        fun u hu => derives_printItems hl (level + 1) (v :: more) (List.cons_ne_nil _ _) regular
          finite n (Nat.le_of_succ_le_succ hn) u rest hu
  | .obj [], _, _ => by
    unfold printAt
    rintro (_ | n) hn rest
    · exact absurd hn (Nat.not_succ_le_zero _)
    · exact .emptyObject (.refl _)
  | .obj (p :: more), regular, finite => by
    unfold printAt
    rintro (_ | n) hn rest
    · exact absurd hn (Nat.not_succ_le_zero _)
    · exact derives_object regular.1 (List.cons_ne_nil _ _)
        fun u hu => derives_printMembers hl (level + 1) (p :: more) (List.cons_ne_nil _ _)
          regular.2 finite n (Nat.le_of_succ_le_succ hn) u rest hu

/-- Printed items are derived up to the closing bracket. -/
theorem derives_printItems (hl : l.IsSound) (level : ℕ) : (items : List Json) → items ≠ [] →
    ItemsRegular items → itemsFinite items = true → ∀ n, itemsNesting items ≤ n →
    ∀ u rest : Text, Space u (.char ']' :: rest) →
    Derives d n (Text.join (l.between level) (printItems l level items) ++ u) (.items items) rest
  | [], hne, _, _ => absurd rfl hne
  | v :: more, _, regular, finite => by
    intro n hn u rest hu
    rw [itemsFinite, Bool.and_eq_true] at finite
    rw [itemsNesting, Nat.max_le] at hn
    have value := derives_printAt hl level v regular.1 finite.1 n hn.1
    have others := derives_printItems hl level more
    cases more with
    | nil => exact .lastItem (value u) hu
    | cons w more =>
      obtain ⟨s, hs, hcomma⟩ := hl.between level
      have others := others (List.cons_ne_nil _ _) regular.2 finite.2 n hn.2 u rest hu
      have derives : Derives d n _ (.items (v :: w :: more)) rest :=
        .item (value _) (.refl _) ⟨s, hs, rfl⟩ others
      have text : Text.join (l.between level) (printItems l level (v :: w :: more))
          = printAt l level v ++ l.between level
            ++ Text.join (l.between level) (printItems l level (w :: more)) := by
        rw [printItems, printItems, Text.join_cons_cons]
      rw [text, List.append_assoc, List.append_assoc]
      nth_rewrite 1 [hcomma]
      exact derives

/-- Printed members are derived up to the closing brace. -/
theorem derives_printMembers (hl : l.IsSound) (level : ℕ) : (members : List (Text × Json)) →
    members ≠ [] → MembersRegular members → membersFinite members = true →
    ∀ n, membersNesting members ≤ n → ∀ u rest : Text, Space u (.char '\x7d' :: rest) →
    Derives d n (Text.join (l.between level) (printMembers l level members) ++ u)
      (.members members) rest
  | [], hne, _, _ => absurd rfl hne
  | (name, v) :: more, _, regular, finite => by
    intro n hn u rest hu
    rw [membersFinite, Bool.and_eq_true] at finite
    rw [membersNesting, Nat.max_le] at hn
    obtain ⟨s, hs, hcolon⟩ := hl.colon
    have value := derives_printAt hl level v regular.1 finite.1 n hn.1
    have others := derives_printMembers hl level more
    cases more with
    | nil =>
      have derives : Derives d n _ (.members [(Spelled.text (name.map .point), v)]) rest :=
        .lastMember (spells_printText name _) (.refl _) ⟨s, hs, rfl⟩ (value u) hu
      rw [Spelled.text_map_point] at derives
      unfold printMembers printMembers
      rw [Text.join_singleton, printText, hcolon]
      simpa using derives
    | cons q more =>
      obtain ⟨b, hb, hcomma⟩ := hl.between level
      have others := others (List.cons_ne_nil _ _) regular.2 finite.2 n hn.2 u rest hu
      have derives : Derives d n _
          (.members ((Spelled.text (name.map .point), v) :: q :: more)) rest :=
        .member (spells_printText name _) (.refl _) ⟨s, hs, rfl⟩ (value _) (.refl _) ⟨b, hb, rfl⟩
          others
      rw [Spelled.text_map_point] at derives
      have text : Text.join (l.between level) (printMembers l level ((name, v) :: q :: more))
          = printText name ++ l.colon ++ printAt l level v ++ l.between level
            ++ Text.join (l.between level) (printMembers l level (q :: more)) := by
        rw [printMembers, printMembers, Text.join_cons_cons]
      rw [text, printText, hcolon]
      nth_rewrite 1 [hcomma]
      simpa using derives

end

end Value

section Print

variable {l : Layout} {v : Json}

theorem denotesWithin_print (hl : l.IsSound) (d : Dialect) (regular : v.IsRegular)
    (finite : v.allFinite = true) : DenotesWithin v.nesting d (v.print l) v := by
  have derives : Derives d v.nesting _ (.value v) [] :=
    derives_printAt hl 0 v regular finite _ (Nat.le_refl _) []
  rw [List.append_nil] at derives
  exact ⟨_, [], .refl _, derives, .refl _⟩

/-- **What is printed is read as what was printed.** -/
theorem read_print (hl : l.IsSound) (d : Dialect) (regular : v.IsRegular)
    (finite : v.allFinite = true) : read d (v.print l) = .ok v :=
  read_eq_ok_iff.mpr ⟨_, denotesWithin_print hl d regular finite⟩

/-- **What is printed is read within a bound** if the value is within the bound;
if not, the reading is interrupted. -/
theorem readWithin_print (hl : l.IsSound) (d : Dialect) (regular : v.IsRegular)
    (finite : v.allFinite = true) (n : ℕ) :
    (v.nesting ≤ n → readWithin n d (v.print l) = .ok v)
      ∧ (n < v.nesting → ∃ c, IsInterrupted (readWithin n d (v.print l)) c) := by
  have denotes : Denotes d (v.print l) v := ⟨_, denotesWithin_print hl d regular finite⟩
  refine ⟨fun hn => ?_, fun hn => (denotes.read_or_interrupted n).resolve_left fun h => ?_⟩
  · have derives : Derives d n _ (.value v) [] := derives_printAt hl 0 v regular finite n hn []
    rw [List.append_nil] at derives
    exact readWithin_eq_ok_iff.mpr ⟨_, [], .refl _, derives, .refl _⟩
  · obtain ⟨u, w, -, derives, -⟩ := readWithin_eq_ok_iff.mp h
    exact absurd derives.nesting_le (Nat.not_le_of_lt hn)

/-- **A printed text shows one value only.** -/
theorem print_injective (hl : l.IsSound) {w : Json} (hv : v.IsRegular) (hw : w.IsRegular)
    (finite : v.allFinite = true) (finite' : w.allFinite = true)
    (h : v.print l = w.print l) : v = w := by
  have reads := read_print hl .strict hv finite
  rw [h, read_print hl .strict hw finite'] at reads
  exact (Except.ok.inj reads).symm

end Print

end CortexCall.Json
