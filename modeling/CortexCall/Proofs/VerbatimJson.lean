import CortexCall.Json.Printer

/-!
# JSON texts without backslashes

The only backslashes of a compact JSON text are those of its escapes, since
brackets, commas, words and numerals have none. So the text of a value is
free of backslashes exactly when every character of every text and name in
the value is **verbatim** – it is no double quote, no backslash and no
control character: `Json.backslash_not_mem_printAt_compact`.
-/

namespace CortexCall

/-- The backslash. -/
abbrev backslash : CodePoint := .char '\\'

theorem Text.mem_join {separator : Text} {c : CodePoint} (hc : c ∉ separator) (parts : List Text) :
    c ∈ Text.join separator parts ↔ ∃ t ∈ parts, c ∈ t := by
  induction parts with
  | nil => simp
  | cons t rest ih =>
    cases rest with
    | nil => simp
    | cons u more =>
      rw [Text.join_cons_cons, List.mem_append, List.mem_append, ih]
      simp [hc]

theorem Text.backslash_not_mem_ofNat (n : Nat) : backslash ∉ Text.ofNat n := by
  intro h
  obtain ⟨d, hd, hd'⟩ := List.mem_map.mp h
  have hdigit := Nat.isDigit_of_mem_toDigits (by decide) (by decide) hd
  injection hd' with hd'
  subst hd'
  exact absurd hdigit (by decide)

theorem Text.backslash_not_mem_ofInt (n : Int) : backslash ∉ Text.ofInt n := by
  cases n with
  | ofNat n => exact Text.backslash_not_mem_ofNat n
  | negSucc n =>
    rw [Text.ofInt, List.mem_cons, not_or]
    exact ⟨by decide, Text.backslash_not_mem_ofNat (n + 1)⟩

namespace Decimal

theorem backslash_not_mem_layout {digits : Text} (hdigits : backslash ∉ digits) (point : Int) :
    backslash ∉ layout digits point := by
  have htake : ∀ n, backslash ∉ digits.take n := fun n h => hdigits (List.mem_of_mem_take h)
  have hdrop : ∀ n, backslash ∉ digits.drop n := fun n h => hdigits (List.mem_of_mem_drop h)
  have hexp : backslash ∉ writeExponent point := by
    unfold writeExponent
    dsimp only
    have hnat := Text.backslash_not_mem_ofNat point.natAbs
    split <;> split <;> simp [hnat]
  unfold layout
  simp only
  split
  · split
    · simp [hdigits, String.toText, List.mem_replicate]
    · split <;> simp [htake, hdrop, String.toText, List.mem_replicate]
  · have hbehind := hdrop 1
    split <;> simp only [List.mem_append, List.mem_cons, htake, hbehind, hexp] <;> decide

theorem backslash_not_mem_write (d : Decimal) : backslash ∉ d.write := by
  unfold write
  split
  · decide
  · refine backslash_not_mem_layout (fun h => ?_) _
    unfold trimZeros at h
    rw [List.mem_reverse] at h
    have := (List.dropWhile_sublist _).subset h
    rw [List.mem_reverse] at this
    exact Text.backslash_not_mem_ofNat _ this

end Decimal

theorem Binary64.backslash_not_mem_write (d : Binary64) : backslash ∉ d.write := by
  cases d with
  | finite negative significand exponent =>
    rw [Binary64.write, List.mem_append, not_or]
    refine ⟨?_, Decimal.backslash_not_mem_write _⟩
    split <;> decide
  | infinite negative => cases negative <;> decide
  | nan => decide

namespace Json

mutual

/-- Whether every character of every text and every name in a value has a
property. -/
def everyChar (p : CodePoint → Bool) : Json → Bool
  | .null => true
  | .bool _ => true
  | .int _ => true
  | .double _ => true
  | .str t => t.all p
  | .arr items => itemsEveryChar p items
  | .obj members => membersEveryChar p members

/-- Whether every character in some values has a property. -/
def itemsEveryChar (p : CodePoint → Bool) : List Json → Bool
  | [] => true
  | v :: rest => v.everyChar p && itemsEveryChar p rest

/-- Whether every character in some members has a property. -/
def membersEveryChar (p : CodePoint → Bool) : List (Text × Json) → Bool
  | [] => true
  | (name, v) :: rest => name.all p && v.everyChar p && membersEveryChar p rest

end

/-- Whether JSON writes a character inside a text as it is. -/
def isVerbatim (c : CodePoint) : Bool :=
  c != .char '"' && c != backslash && decide (0x20 ≤ c.toNat)

theorem backslash_not_mem_escapeChar (c : CodePoint) :
    backslash ∉ escapeChar c ↔ isVerbatim c = true := by
  by_cases hb : c = backslash
  · subst hb
    decide
  unfold escapeChar
  repeat' split
  all_goals next h => first
    | (subst h; decide)
    | (simp [isVerbatim, h]; done)
    | simp [isVerbatim, *, Ne.symm hb, Nat.le_of_not_lt h]

theorem backslash_not_mem_printText (t : Text) :
    backslash ∉ printText t ↔ t.all isVerbatim = true := by
  rw [List.all_eq_true]
  simp only [printText, List.mem_cons, List.mem_append, List.mem_flatMap,
    ← backslash_not_mem_escapeChar]
  simp [backslash]

theorem backslash_not_mem_enclose {left right : CodePoint} (hleft : backslash ≠ left)
    (hright : backslash ≠ right) (level : Nat) (parts : List Text) :
    backslash ∉ Layout.compact.enclose left right level parts
      ↔ ∀ t ∈ parts, backslash ∉ t := by
  cases parts with
  | nil => simp [Layout.enclose, hleft, hright]
  | cons t rest =>
    have hcomma : backslash ∉ Layout.compact.between (level + 1) := by
      show backslash ∉ ",".toText ++ []
      decide
    have hline : ∀ n, Layout.compact.lineBreak n = [] := fun _ => rfl
    rw [Layout.enclose, hline, hline]
    · simp only [List.mem_cons, List.mem_append, Text.mem_join hcomma, hleft, hright,
        List.not_mem_nil, false_or, or_false, not_exists, not_and]
    · exact List.cons_ne_nil t rest

mutual

/-- **The text of a value has a backslash only where a text in the value needs
an escape.** -/
theorem backslash_not_mem_printAt_compact (level : Nat) :
    (v : Json) → (backslash ∉ printAt .compact level v ↔ v.everyChar isVerbatim = true)
  | .null => by unfold printAt everyChar; decide
  | .bool true => by unfold printAt everyChar; decide
  | .bool false => by unfold printAt everyChar; decide
  | .int n => by
    unfold printAt everyChar
    exact iff_of_true (Text.backslash_not_mem_ofInt n) rfl
  | .double d => by
    unfold printAt everyChar
    exact iff_of_true (Binary64.backslash_not_mem_write d) rfl
  | .str t => by
    unfold printAt everyChar
    exact backslash_not_mem_printText t
  | .arr items => by
    unfold printAt everyChar
    rw [backslash_not_mem_enclose (by decide) (by decide)]
    exact backslash_not_mem_printItems_compact (level + 1) items
  | .obj members => by
    unfold printAt everyChar
    rw [backslash_not_mem_enclose (by decide) (by decide)]
    exact backslash_not_mem_printMembers_compact (level + 1) members

theorem backslash_not_mem_printItems_compact (level : Nat) :
    (items : List Json) → ((∀ t ∈ printItems .compact level items, backslash ∉ t)
      ↔ itemsEveryChar isVerbatim items = true)
  | [] => by unfold printItems itemsEveryChar; simp
  | v :: rest => by
    unfold printItems itemsEveryChar
    rw [List.forall_mem_cons, backslash_not_mem_printAt_compact level v,
      backslash_not_mem_printItems_compact level rest, Bool.and_eq_true]

theorem backslash_not_mem_printMembers_compact (level : Nat) :
    (members : List (Text × Json)) → ((∀ t ∈ printMembers .compact level members, backslash ∉ t)
      ↔ membersEveryChar isVerbatim members = true)
  | [] => by unfold printMembers membersEveryChar; simp
  | (name, v) :: rest => by
    have hcolon : backslash ∉ Layout.compact.colon := by decide
    unfold printMembers membersEveryChar
    rw [List.forall_mem_cons, backslash_not_mem_printMembers_compact level rest,
      List.mem_append, List.mem_append, not_or, not_or, backslash_not_mem_printText,
      backslash_not_mem_printAt_compact level v, Bool.and_eq_true, Bool.and_eq_true]
    simp only [hcolon, not_false_eq_true, and_true]

end

end Json

end CortexCall
