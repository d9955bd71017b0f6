import CortexCall.Text.CaseTable
import CortexCall.Text.CaseContext

/-!
# Upper and lower case

Case conversion follows Unicode in full. A capital form may take several
characters (`ß` becomes `SS`), letters of different scripts may share one
(`ı` and `i` both become `I`), and two small forms need care: the dotted
capital `İ` keeps its dot as a separate mark, and a capital sigma at the end
of a word becomes the final sigma.

The last rule is the only one that looks around. `lower` therefore walks
the text with one bit of memory – whether the last character that counts is
cased – and looks ahead to the next one that counts.
-/

namespace CortexCall.Text

/-- The other case of a code point, by the first row that holds it. -/
def shiftBy (rows : List CaseRow) (c : CodePoint) : CodePoint :=
  match rows.find? fun r => r.contains c.toNat with
  | some r => .ofNat (r.shift c.toNat)
  | none => c

/-- The capital form of a character. -/
def upperChar (c : CodePoint) : Text :=
  if c.toNat < 0x80 then [c.toUpper]
  else match upperExpansions.lookup c.toNat with
    | some form => form.map CodePoint.ofNat
    | none => [shiftBy upperRows c]

/-- The text in capitals, character by character. -/
def upper (t : Text) : Text := t.flatMap upperChar

/-- **An ASCII character has one capital form**, the one core gives it. -/
theorem upperChar_of_ascii {c : CodePoint} (h : c.toNat < 0x80) : upperChar c = [c.toUpper] := by
  rw [upperChar, if_pos h]

/-- The capital sigma. -/
def capitalSigma : CodePoint := .ofNat 0x03A3

/-- The small form of a character that is no capital sigma. -/
def lowerChar (c : CodePoint) : Text :=
  if c.toNat < 0x80 then [c.toLower]
  else if c.toNat = 0x0130 then ['i', .ofNat 0x0307]
  else [shiftBy lowerRows c]

/-- Whether the next character that counts is cased. -/
def casedAhead (t : Text) : Bool :=
  match t.dropWhile isCaseIgnorable with
  | c :: _ => isCased c
  | [] => false

/-- The small form of a capital sigma: final when a cased character stands
before it in its word and none behind it. -/
def lowerSigma (afterCased beforeCased : Bool) : CodePoint :=
  if afterCased && !beforeCased then .ofNat 0x03C2 else .ofNat 0x03C3

/-- The text in small letters, where `afterCased` says whether the last
character that counts in front of it is cased. -/
def lowerAfter (afterCased : Bool) : Text → Text
  | [] => []
  | c :: rest =>
    (if c = capitalSigma then [lowerSigma afterCased (casedAhead rest)] else lowerChar c)
      ++ lowerAfter (if isCaseIgnorable c then afterCased else isCased c) rest

/-- The text in small letters. -/
def lower (t : Text) : Text := lowerAfter false t

end CortexCall.Text
