import CortexCall.Text.Basic
import CortexCall.Text.Quoted
import CortexCall.Decimal.Shortest
import CortexCall.Json.Value

/-!
# Printing JSON

One printer serves every form in which a value is shown; what differs
between them is a `Layout`: what stands between two members, what stands
between a name and its value, and whether members go on lines of their own.
`compact` goes into SQL, `spaced` into messages, `indented` to a terminal.

Texts are printed with the escapes JSON requires and no others, so a
character beyond ASCII is printed as itself. A whole number is printed in
full, a double by its shortest numeral. A value is printed however deep it
nests; a writer that has a bound is `Sql.jsonTextWithin`.
-/

namespace CortexCall.Json

/-- How a value is laid out. -/
structure Layout where
  /-- What stands between two members or items. -/
  comma : Text
  /-- What stands between a name and its value. -/
  colon : Text
  /-- The indentation of a level, if members go on lines of their own. -/
  indent : Option Nat
deriving DecidableEq, Repr

namespace Layout

/-- No space at all. -/
def compact : Layout := ⟨",".toText, ":".toText, none⟩

/-- A space behind each comma and colon. -/
def spaced : Layout := ⟨", ".toText, ": ".toText, none⟩

/-- A line for each member, two spaces for each level. -/
def indented : Layout := ⟨",".toText, ": ".toText, some 2⟩

/-- What separates the brackets of a container and its members at a level:
nothing, or a new line with its indentation. -/
def lineBreak (l : Layout) (level : Nat) : Text :=
  match l.indent with
  | none => []
  | some n => .char '\n' :: List.replicate (n * level) (.char ' ')

/-- What stands between two members of a container at a level. -/
def between (l : Layout) (level : Nat) : Text := l.comma ++ l.lineBreak level

/-- A container with its brackets; an empty one is two brackets. -/
def enclose (l : Layout) (left right : CodePoint) (level : Nat) : List Text → Text
  | [] => [left, right]
  | parts => left :: (l.lineBreak (level + 1) ++ Text.join (l.between (level + 1)) parts
      ++ l.lineBreak level ++ [right])

end Layout

/-- A character inside a printed text. -/
def escapeChar (c : CodePoint) : Text :=
  if c = .char '"' then ['\\', '"']
  else if c = .char '\\' then ['\\', '\\']
  else if c = .char '\n' then ['\\', 'n']
  else if c = .char '\r' then ['\\', 'r']
  else if c = .char '\t' then ['\\', 't']
  else if c.toNat = 0x08 then ['\\', 'b']
  else if c.toNat = 0x0C then ['\\', 'f']
  else if c.toNat < 0x20 then '\\' :: 'u' :: Text.hexDigits 4 c.toNat
  else [c]

/-- A text in double quotes. -/
def printText (t : Text) : Text := .char '"' :: (t.flatMap escapeChar ++ [.char '"'])

mutual

/-- A value at a level of nesting. -/
def printAt (l : Layout) (level : Nat) : Json → Text
  | .null => "null".toText
  | .bool true => "true".toText
  | .bool false => "false".toText
  | .int n => Text.ofInt n
  | .double d => d.write
  | .str t => printText t
  | .arr items => l.enclose '[' ']' level (printItems l (level + 1) items)
  | .obj members => l.enclose '\x7b' '\x7d' level (printMembers l (level + 1) members)

/-- The items of a container, each at the same level. -/
def printItems (l : Layout) (level : Nat) : List Json → List Text
  | [] => []
  | v :: rest => printAt l level v :: printItems l level rest

/-- The members of a container, each at the same level. -/
def printMembers (l : Layout) (level : Nat) : List (Text × Json) → List Text
  | [] => []
  | (name, v) :: rest =>
    (printText name ++ l.colon ++ printAt l level v) :: printMembers l level rest

end

/-- A value in a layout. -/
def print (l : Layout) (v : Json) : Text := printAt l 0 v

end CortexCall.Json
