import CortexCall.Text.Basic

/-!
# Text in lines

A paragraph is set by putting its words into lines, one after another, each
into the line being filled if it fits there and into a new line if not. A word
longer than any line is the one difficulty: it is broken, and fills what is
left of the line and as many more lines as it needs. Parts that must stay
whole are **packed** instead, where such a part has a line of its own and
sticks out.

Lines are set without an indentation; `hanging` and `indented` add one
afterwards. No line but one that holds an unbroken part is longer than the
width.
-/

namespace CortexCall.Text

/-- The words of a text, as the spaces in it part them. -/
def words : Text → List Text
  | [] => [[]]
  | c :: rest =>
    if c = .char ' ' then [] :: words rest
    else match words rest with
      | w :: ws => (c :: w) :: ws
      | [] => [[c]]

/-- Lines being set: the finished ones, and the one that is being filled. -/
structure Lines where
  finished : List Text := []
  current : Text := []
deriving DecidableEq, Repr

namespace Lines

/-- The lines with a new one begun. -/
def startLine (l : Lines) (t : Text) : Lines := ⟨l.finished ++ [l.current], t⟩

/-- The lines with a part that stays whole: behind a space if there is room,
on a new line if not. -/
def addPart (width : Nat) (l : Lines) (part : Text) : Lines :=
  if l.current.isEmpty then { l with current := part }
  else if l.current.length + 1 + part.length ≤ width then
    { l with current := l.current ++ .char ' ' :: part }
  else l.startLine part

/-- The lines with one more character, on a new line if the current is
full. -/
def addChar (width : Nat) (l : Lines) (c : CodePoint) : Lines :=
  if l.current.length < width then { l with current := l.current ++ [c] } else l.startLine [c]

/-- The lines with a word that may be broken. A space goes before it unless
the current line is empty or full. -/
def addBroken (width : Nat) (l : Lines) (word : Text) : Lines :=
  let apart :=
    if l.current.isEmpty || width ≤ l.current.length then l else l.addChar width (.char ' ')
  word.foldl (addChar width) apart

/-- The lines with one more word, which is broken only if no line can hold
it. -/
def addWord (width : Nat) (l : Lines) (word : Text) : Lines :=
  if word.length ≤ width then l.addPart width word else l.addBroken width word

/-- The lines, the last one included unless it is empty. -/
def toList (l : Lines) : List Text :=
  if l.current.isEmpty then l.finished else l.finished ++ [l.current]

end Lines

/-- **The lines of a paragraph** of a width. -/
def wrap (width : Nat) (t : Text) : List Text :=
  ((words t).foldl (Lines.addWord width) {}).toList

/-- **The lines of parts that stay whole.** -/
def pack (width : Nat) (parts : List Text) : List Text :=
  (parts.foldl (Lines.addPart width) {}).toList

/-! ## Indentation -/

/-- A text behind spaces. -/
def indented (n : Nat) (t : Text) : Text := List.replicate n (.char ' ') ++ t

/-- A text with spaces up to a column. -/
def padded (n : Nat) (t : Text) : Text := t ++ List.replicate (n - t.length) (.char ' ')

/-- Lines behind a lead, the first beside it and the others below the
first. -/
def hanging (lead : Text) : List Text → List Text
  | [] => []
  | t :: rest => (lead ++ t) :: rest.map (indented lead.length)

end CortexCall.Text
