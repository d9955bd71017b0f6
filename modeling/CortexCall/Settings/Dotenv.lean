import CortexCall.Text.Blank

/-!
# Files of variables

A file may set variables, one on a line: `NAME=value`, perhaps after
`export`, with blanks around the equals sign. A value stands bare, or between
apostrophes, or between double quotes; only quoted values may span lines, a
backslash in one takes the next character with it, and only between double
quotes do backslashes spell control characters. A `#` starts a comment, in
front of a name or, after a blank, behind a bare value. A name without an
equals sign sets nothing and takes back what an earlier line set. A byte
order mark at the front is skipped.

The reader goes from entry to entry over the rest of the text. What cannot be
read is skipped to the end of its line, from where the trouble started, and
the line on which the entry started is kept for whoever wants to complain.
`entries` needs no more steps than the text has characters, since every entry
takes at least one.

Values may refer to variables as `${NAME}`, or `${NAME:-text}` for a text
in case there is none. They see the environment and, before it, the bindings
in front of them.
-/

namespace CortexCall

/-- Variables and their values. -/
abbrev Variables := List (Text × Text)

namespace Dotenv

/-- A name, and the value it is given, if it is given one. -/
abbrev Binding := Text × Option Text

/-- Whether a character is white space within a line. -/
def isInlineBlank (c : CodePoint) : Bool := Text.isBlank c && c != '\n' && c != '\r'

/-- Whether a character belongs to a line. -/
def isInLine (c : CodePoint) : Bool := c != '\n' && c != '\r'

/-- The text without the white space it starts with, within the line. -/
def skipInline (t : Text) : Text := t.dropWhile isInlineBlank

/-- The text without a byte order mark at its front. -/
def skipByteOrderMark (t : Text) : Text :=
  if t.head? = some (.ofNat 0xFEFF) then t.drop 1 else t

/-- The text with line feeds for all kinds of line ends. -/
def unifyLines : Text → Text
  | [] => []
  | .char '\r' :: .char '\n' :: rest => '\n' :: unifyLines rest
  | .char '\r' :: rest => '\n' :: unifyLines rest
  | c :: rest => c :: unifyLines rest

/-! ## Names -/

/-- The text behind the word `export` and the blanks that follow it. -/
def skipExport (t : Text) : Text :=
  let word := "export".toText
  if word.isPrefixOf t then
    let behind := t.drop word.length
    if (behind.takeWhile isInlineBlank).isEmpty then t else skipInline behind
  else t

/-- Whether a character may stand in a bare name. -/
def isNameChar (c : CodePoint) : Bool := c != '=' && c != '#' && !Text.isBlank c

/-- A name, bare or between apostrophes, and the rest. -/
def readName (t : Text) : Option (Text × Text) :=
  match t with
  | .char '\'' :: rest =>
    match rest.dropWhile (· != .char '\'') with
    | _ :: behind =>
      let name := rest.takeWhile (· != .char '\'')
      if name.isEmpty then none else some (name, behind)
    | [] => none
  | _ =>
    let name := t.takeWhile isNameChar
    if name.isEmpty then none else some (name, t.dropWhile isNameChar)

/-! ## Values -/

/-- What stands up to the closing mark, and the rest. The character behind a
backslash closes nothing. -/
def readQuoted (mark : CodePoint) : Text → Option (Text × Text)
  | [] => none
  | [c] => if c = mark then some ([], []) else none
  | c :: d :: rest =>
    if c = mark then some ([], d :: rest)
    else if c = '\\' then (readQuoted mark rest).map fun r => (c :: d :: r.1, r.2)
    else (readQuoted mark (d :: rest)).map fun r => (c :: r.1, r.2)

/-- The escapes between apostrophes. -/
def singleEscape (c : CodePoint) : Option CodePoint :=
  if c = '\\' ∨ c = '\'' then some c else none

/-- The escapes between double quotes. -/
def doubleEscape (c : CodePoint) : Option CodePoint :=
  if c = '\\' ∨ c = '\'' ∨ c = '"' then some c
  else if c = 'a' then some (CodePoint.ofNat 0x07)
  else if c = 'b' then some (CodePoint.ofNat 0x08)
  else if c = 'f' then some (CodePoint.ofNat 0x0C)
  else if c = 'n' then some '\n'
  else if c = 'r' then some '\r'
  else if c = 't' then some '\t'
  else if c = 'v' then some (CodePoint.ofNat 0x0B)
  else none

/-- A text with its escapes resolved; a backslash that starts none stays. -/
def unescape (escape : CodePoint → Option CodePoint) : Text → Text
  | [] => []
  | [c] => [c]
  | c :: d :: rest =>
    if c = '\\' then
      match escape d with
      | some e => e :: unescape escape rest
      | none => c :: unescape escape (d :: rest)
    else c :: unescape escape (d :: rest)

/-- A bare value without the comment behind it: it ends before the first
run of blanks that a `#` follows. -/
def dropComment : Text → Text
  | [] => []
  | c :: rest =>
    if Text.isBlank c && ((c :: rest).dropWhile Text.isBlank).head? = some '#' then []
    else c :: dropComment rest

/-- A value and the rest, from behind the equals sign. The blanks in front
of a bare value count when its comment is looked for. -/
def readValue (t : Text) : Option (Text × Text) :=
  match skipInline t with
  | .char '\'' :: rest => (readQuoted '\'' rest).map fun r => (unescape singleEscape r.1, r.2)
  | .char '"' :: rest => (readQuoted '"' rest).map fun r => (unescape doubleEscape r.1, r.2)
  | _ => some (Text.strip (dropComment (t.takeWhile isInLine)), t.dropWhile isInLine)

/-! ## Entries -/

/-- What stands in a file between one line end and another. -/
inductive Entry where
  | binding (b : Binding)
  | comment
  | unreadable
deriving DecidableEq, Repr

/-- The text behind a comment, if one stands here. -/
def skipComment (t : Text) : Text :=
  match skipInline t with
  | .char '#' :: rest => rest.dropWhile isInLine
  | _ => t

/-- The text behind the end of the line, if nothing but blanks stands before
it. -/
def endOfLine (t : Text) : Option Text :=
  match skipInline t with
  | [] => some []
  | .char '\n' :: rest => some rest
  | .char '\r' :: rest => some rest
  | _ => none

/-- The text behind the line. -/
def skipLine (t : Text) : Text := (t.dropWhile isInLine).drop 1

/-- An entry up to the end of its line, where only a comment may follow. -/
def finish (entry : Entry) (t : Text) : Entry × Text :=
  match endOfLine (skipComment t) with
  | some rest => (entry, rest)
  | none => (.unreadable, skipLine (skipComment t))

/-- The binding of a name, from behind the name. -/
def readBinding (name : Text) (t : Text) : Entry × Text :=
  match skipInline t with
  | .char '=' :: behind =>
    match readValue behind with
    | some (value, rest) => finish (.binding (name, some value)) rest
    | none => (.unreadable, skipLine (skipInline behind))
  | rest => finish (.binding (name, none)) rest

/-- The entry at the front of a text that starts with no blank, and the
rest. -/
def readEntry (t : Text) : Entry × Text :=
  if (skipExport t).head? = some '#' then finish .comment (skipExport t)
  else match readName (skipExport t) with
    | some (name, rest) => readBinding name rest
    | none => (.unreadable, skipLine (skipExport t))

/-- The entries of a text, at most as many as the budget, each with the line
on which the one before it ended. -/
def readEntries : Nat → Nat → Text → List (Nat × Entry)
  | 0, _, _ => []
  | budget + 1, line, t =>
    let r := readEntry (t.dropWhile Text.isBlank)
    if (t.dropWhile Text.isBlank).isEmpty then []
    else (line, r.1)
      :: readEntries budget (line + (t.count (.char '\n') - r.2.count (.char '\n'))) r.2

/-- The entries of a file in order. Lines are counted from one. -/
def entries (t : Text) : List (Nat × Entry) :=
  readEntries t.length 1 (unifyLines (skipByteOrderMark t))

/-- **The bindings of a file**, in order. -/
def bindings (t : Text) : List Binding :=
  (entries t).filterMap fun e => match e.2 with
    | .binding b => some b
    | _ => none

/-- The lines of a file from which an entry starts that cannot be read. -/
def unreadableLines (t : Text) : List Nat :=
  ((entries t).filter fun e => e.2 == .unreadable).map Prod.fst

/-! ## References -/

/-- The name and the text in its place at the front of a reference, behind
its opening brace. -/
def readReference (t : Text) : Option (Text × Text × Text) :=
  let isNameChar : CodePoint → Bool := fun c => c != '\x7d' && c != ':'
  let name := t.takeWhile isNameChar
  match t.dropWhile isNameChar with
  | .char '\x7d' :: rest => some (name, [], rest)
  | .char ':' :: .char '-' :: rest =>
    match rest.dropWhile (· != .char '\x7d') with
    | _ :: behind => some (name, rest.takeWhile (· != .char '\x7d'), behind)
    | [] => none
  | _ => none

/-- What a value is made of. -/
inductive Piece where
  | char (c : CodePoint)
  | reference (name instead : Text)
deriving DecidableEq, Repr

namespace Piece

/-- The name that a piece refers to. -/
def name? : Piece → Option Text
  | .char _ => none
  | .reference name _ => some name

/-- What a piece stands for. -/
def value (lookup : Text → Option Text) : Piece → Text
  | .char c => [c]
  | .reference name instead => (lookup name).getD instead

end Piece

/-- The pieces of a text, at most as many as the budget. -/
def readPieces : Nat → Text → List Piece
  | 0, t => t.map .char
  | budget + 1, t =>
    match t with
    | [] => []
    | .char '$' :: .char '\x7b' :: rest =>
      match readReference rest with
      | some (name, instead, behind) => .reference name instead :: readPieces budget behind
      | none => .char '$' :: readPieces budget ('\x7b' :: rest)
    | c :: rest => .char c :: readPieces budget rest

/-- The pieces of a value; each takes at least one character. -/
def pieces (t : Text) : List Piece := readPieces t.length t

/-- A value with its references resolved. -/
def resolve (lookup : Text → Option Text) (t : Text) : Text :=
  (pieces t).flatMap (Piece.value lookup)

/-- The names that the values of a file refer to. -/
def referredNames (t : Text) : List Text :=
  (bindings t).flatMap fun b => (pieces (b.2.getD [])).filterMap Piece.name?

/-- Gives a name a value, or none: in its place if it is bound, at the end if
not. -/
def bind (b : List Binding) (name : Text) (value : Option Text) : List Binding :=
  match b with
  | [] => [(name, value)]
  | (n, v) :: rest => if n = name then (n, value) :: rest else (n, v) :: bind rest name value

/-- What a reference to a name stands for: the value of an earlier binding,
nothing if that binding has none, and else the environment's. -/
def lookupIn (env : Variables) (earlier : List Binding) (name : Text) : Option Text :=
  match earlier.lookup name with
  | some value => some (value.getD [])
  | none => env.lookup name

/-- The bindings with the last value of each name, references resolved. -/
def resolveAll (env : Variables) (earlier : List Binding) : List Binding → List Binding
  | [] => earlier
  | (name, value) :: rest =>
    let value := value.map (resolve (lookupIn env earlier))
    resolveAll env (bind earlier name value) rest

/-- **The values that a file gives its variables** in an environment, each name
once. -/
def values (env : Variables) (t : Text) : List Binding := resolveAll env [] (bindings t)

end Dotenv

end CortexCall
