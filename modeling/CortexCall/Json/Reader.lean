import CortexCall.Text.Basic
import CortexCall.Text.WholeNumber
import CortexCall.Json.Value

/-!
# Reading JSON

The reader works on the rest of the text. A scanner looks at its front,
takes what it recognises and hands on what is left, so a fault is located by
how much was left when it was found; `ReadError.at` turns that into a line
and a column at the very end.

Numbers and texts are scanned by recursion on the text itself. Values nest,
and a reader can be inside so many containers at once and no more:
`readWithin` is told how many, and gives up at the bracket that opens one
too many, whatever comes behind it. Every container costs at least one
character, so the length of the text is limit enough, and `read` is the
reader that never gives up. What a container holds is read with a budget of
members, for which the length of the text is enough too.

A text may spell a character as two escapes, a surrogate pair. Half a pair
spells half of a character, and such a half stays in the text.
-/

namespace CortexCall.Json

/-- The containers of JSON. -/
inductive Container where
  | array
  | object
deriving DecidableEq, Repr

/-- Why a text is not read as a JSON value. -/
inductive Cause where
  | byteOrderMark
  | value
  | name
  | colon
  | comma
  | unterminated
  | control
  | escape
  | unicodeEscape
  | extra
  | constant (word : Text)
  | tooManyDigits (count : Nat)
  /-- The reader is inside as many containers as it can be, and meets one more. -/
  | nesting (c : Container)
deriving DecidableEq, Repr

/-- A fault, and how many characters were left where it was found. -/
structure Fault where
  cause : Cause
  left : Nat
deriving DecidableEq, Repr

/-- A fault in a text, and the text in front of it. -/
structure ReadError where
  cause : Cause
  before : Text
deriving DecidableEq, Repr

/-- What is accepted beyond the standard. -/
structure Dialect where
  /-- Whether `NaN`, `Infinity` and `-Infinity` are numbers. -/
  infinities : Bool
deriving DecidableEq, Repr

namespace Dialect

/-- The standard's own dialect. -/
def strict : Dialect := ⟨false⟩

/-- The dialect in which infinities are numbers. -/
def lenient : Dialect := ⟨true⟩

end Dialect

/-- Fails at the front of a text. -/
def failAt {α : Type} (cause : Cause) (rest : Text) : Except Fault α := .error ⟨cause, rest.length⟩

/-- White space between tokens; JSON knows four characters of it. -/
def isSpace (c : CodePoint) : Bool :=
  c == .char ' ' || c == .char '\t' || c == .char '\n' || c == .char '\r'

/-- The text behind its leading white space. -/
def skipSpace (t : Text) : Text := t.dropWhile isSpace

/-! ## Texts -/

/-- The value of a hexadecimal digit of either case. -/
def hexValue : CodePoint → Option Nat
  | .char c =>
    if '0' ≤ c ∧ c ≤ '9' then some (c.toNat - 0x30)
    else if 'a' ≤ c ∧ c ≤ 'f' then some (c.toNat - 0x61 + 10)
    else if 'A' ≤ c ∧ c ≤ 'F' then some (c.toNat - 0x41 + 10)
    else none
  | .half _ => none

/-- The number that four hexadecimal digits spell. -/
def hexUnit (a b c d : CodePoint) : Option Nat := do
  let a ← hexValue a
  let b ← hexValue b
  let c ← hexValue c
  let d ← hexValue d
  return ((a * 16 + b) * 16 + c) * 16 + d

/-- The character behind a backslash that stands for one character. -/
def plainEscape (c : CodePoint) : Option CodePoint :=
  if c = .char '"' ∨ c = .char '\\' ∨ c = .char '/' then some c
  else if c = .char 'b' then some (.ofNat 0x08)
  else if c = .char 'f' then some (.ofNat 0x0C)
  else if c = .char 'n' then some '\n'
  else if c = .char 'r' then some '\r'
  else if c = .char 't' then some '\t'
  else none

/-- What one code point or one escape inside quotes spells: a code point, or
half of a surrogate pair whose other half may follow. -/
inductive Spelled where
  | point (c : CodePoint)
  | unit (u : Fin 0x800)
deriving DecidableEq, Repr

namespace Spelled

/-- What a numbered escape spells. -/
def ofNumber (n : Nat) : Spelled :=
  match CodePoint.ofNat n with
  | .char c => .point c
  | .half u => .unit u

/-- Whether half of a surrogate pair starts one. -/
def isHigh (u : Fin 0x800) : Bool := u.val < 0x400

/-- The text that is spelled, where `pending` is a first half still waiting
for its second. -/
def textAfter (pending : Option (Fin 0x800)) : List Spelled → Text
  | [] => (pending.map .half).toList
  | .point c :: rest => (pending.map .half).toList ++ c :: textAfter none rest
  | .unit u :: rest =>
    match pending with
    | some high =>
      if isHigh u then .half high :: textAfter (some u) rest
      else .pair high u :: textAfter none rest
    | none =>
      if isHigh u then textAfter (some u) rest else .half u :: textAfter none rest

/-- The text that is spelled. -/
def text (spelled : List Spelled) : Text := textAfter none spelled

/-- **Code points that need no pairing spell themselves.** -/
theorem text_map_point (t : Text) : text (t.map .point) = t := by
  unfold text
  induction t with
  | nil => rfl
  | cons c rest ih => simp [textAfter, ih]

end Spelled

/-- What stands inside quotes, up to the closing quote. `opening` is how much
was left at the opening one, where a text that never ends is reported. An
escape by number is only taken if something is left behind it. -/
def scanSpelled (opening : Nat) : Text → Except Fault (List Spelled × Text)
  | [] => .error ⟨.unterminated, opening⟩
  | .char '"' :: rest => .ok ([], rest)
  | [.char '\\'] => .error ⟨.unterminated, opening⟩
  | .char '\\' :: .char 'u' :: a :: b :: c :: e :: rest =>
    match hexUnit a b c e, rest.isEmpty with
    | some n, false => do
      let (spelled, rest) ← scanSpelled opening rest
      return (.ofNumber n :: spelled, rest)
    | _, _ => .error ⟨.unicodeEscape, rest.length + 5⟩
  | .char '\\' :: .char 'u' :: rest => .error ⟨.unicodeEscape, rest.length + 1⟩
  | .char '\\' :: c :: rest =>
    match plainEscape c with
    | some c' => do
      let (spelled, rest) ← scanSpelled opening rest
      return (.point c' :: spelled, rest)
    | none => .error ⟨.escape, rest.length + 2⟩
  | c :: rest =>
    if c.toNat < 0x20 then .error ⟨.control, rest.length + 1⟩
    else do
      let (spelled, rest) ← scanSpelled opening rest
      return (.point c :: spelled, rest)

/-- The text in front of its closing quote. -/
def scanText (opening : Nat) (t : Text) : Except Fault (Text × Text) := do
  let (spelled, rest) ← scanSpelled opening t
  return (Spelled.text spelled, rest)

/-! ## Numbers -/

/-- The parts of a numeral. -/
structure Numeral where
  negative : Bool
  whole : Text
  fraction : Text
  /-- The exponent's sign and digits, if there is one. -/
  exponent : Option (Bool × Text)
deriving DecidableEq, Repr

/-- The digits before the point: a zero, or digits that start with another. -/
def scanWhole : Text → Option (Text × Text)
  | [] => none
  | c :: rest =>
    if c = .char '0' then some ([c], rest)
    else if c.isDigit then
      some (c :: rest.takeWhile CodePoint.isDigit, rest.dropWhile CodePoint.isDigit)
    else none

/-- The digits behind the point; a point without digits is not taken. -/
def scanFraction (t : Text) : Text × Text :=
  match t with
  | .char '.' :: rest =>
    if (rest.takeWhile CodePoint.isDigit).isEmpty then ([], t)
    else (rest.takeWhile CodePoint.isDigit, rest.dropWhile CodePoint.isDigit)
  | _ => ([], t)

/-- The sign of an exponent, plus if it has none. -/
def scanSign : Text → Bool × Text
  | .char '-' :: rest => (true, rest)
  | .char '+' :: rest => (false, rest)
  | t => (false, t)

/-- The exponent; a mark without digits is not taken. -/
def scanExponent (t : Text) : Option (Bool × Text) × Text :=
  match t with
  | c :: rest =>
    if c = .char 'e' ∨ c = .char 'E' then
      let signed := scanSign rest
      if (signed.2.takeWhile CodePoint.isDigit).isEmpty then (none, t)
      else
        (some (signed.1, signed.2.takeWhile CodePoint.isDigit),
          signed.2.dropWhile CodePoint.isDigit)
    else (none, t)
  | [] => (none, t)

/-- The longest numeral at the front of a text. -/
def scanNumeral (t : Text) : Option (Numeral × Text) :=
  let signed : Bool × Text := match t with
    | .char '-' :: rest => (true, rest)
    | _ => (false, t)
  match scanWhole signed.2 with
  | none => none
  | some (whole, rest) =>
    let fraction := scanFraction rest
    let exponent := scanExponent fraction.2
    some (⟨signed.1, whole, fraction.1, exponent.1⟩, exponent.2)

namespace Numeral

/-- The number that digits spell. -/
def valueOf (digits : Text) : Nat := Nat.ofDigitChars 10 digits.chars 0

/-- Whether a numeral is a whole number: it has no point and no exponent. -/
def isWhole (n : Numeral) : Bool := n.fraction.isEmpty && n.exponent.isNone

/-- The exponent as a number. -/
def exponentValue (n : Numeral) : Int :=
  match n.exponent with
  | none => 0
  | some (true, digits) => -(valueOf digits : Int)
  | some (false, digits) => valueOf digits

/-- The value of a numeral, a whole number or the nearest double. -/
def value (n : Numeral) : Except Cause Json :=
  if n.isWhole then
    if Text.maxDigits < n.whole.length then .error (.tooManyDigits n.whole.length)
    else .ok (.int (if n.negative then -(valueOf n.whole : Int) else valueOf n.whole))
  else
    .ok (.double (.ofDecimal n.negative (valueOf (n.whole ++ n.fraction))
      (n.exponentValue - n.fraction.length)))

end Numeral

/-! ## Values -/

/-- The words that stand for a value, and the value. -/
def words : List (Text × Json) :=
  [("null".toText, .null), ("true".toText, .bool true), ("false".toText, .bool false)]

/-- The words that stand for a number that is not finite. -/
def infinityWords : List (Text × Json) :=
  [("NaN".toText, .double .nan), ("Infinity".toText, .double (.infinite false)),
   ("-Infinity".toText, .double (.infinite true))]

/-- The first word of a list that a text starts with, its value and the
rest. -/
def scanWord (t : Text) : List (Text × Json) → Option (Text × Json × Text)
  | [] => none
  | (w, v) :: more => if w.isPrefixOf t then some (w, v, t.drop w.length) else scanWord t more

/-- A word or a number. -/
def scanScalar (d : Dialect) (t : Text) : Except Fault (Json × Text) :=
  match scanWord t words with
  | some (_, v, rest) => .ok (v, rest)
  | none =>
    match scanWord t infinityWords with
    | some (w, v, rest) => if d.infinities then .ok (v, rest) else failAt (.constant w) t
    | none =>
      match scanNumeral t with
      | none => failAt .value t
      | some (n, rest) =>
        match n.value with
        | .ok v => .ok (v, rest)
        | .error cause => failAt cause t

/-- The items of an array up to its closing bracket, given a reader of
values. The text starts at an item. -/
def readItems (read : Text → Except Fault (Json × Text)) :
    Nat → Text → Except Fault (List Json × Text)
  | 0, t => failAt .value t
  | budget + 1, t => do
    let (v, t) ← read t
    match skipSpace t with
    | .char ']' :: rest => return ([v], rest)
    | .char ',' :: rest =>
      let (vs, rest) ← readItems read budget (skipSpace rest)
      return (v :: vs, rest)
    | rest => failAt .comma rest

/-- A name, its colon, and the text where its value starts. -/
def readName (t : Text) : Except Fault (Text × Text) :=
  match t with
  | .char '"' :: rest => do
    let (name, rest) ← scanText t.length rest
    match skipSpace rest with
    | .char ':' :: rest => return (name, skipSpace rest)
    | rest => failAt .colon rest
  | _ => failAt .name t

/-- The members of an object up to its closing brace, given a reader of
values. The text starts at a name. -/
def readMembers (read : Text → Except Fault (Json × Text)) :
    Nat → Text → Except Fault (List (Text × Json) × Text)
  | 0, t => failAt .name t
  | budget + 1, t => do
    let (name, t) ← readName t
    let (v, t) ← read t
    match skipSpace t with
    | .char '\x7d' :: rest => return ([(name, v)], rest)
    | .char ',' :: rest =>
      let (members, rest) ← readMembers read budget (skipSpace rest)
      return ((name, v) :: members, rest)
    | rest => failAt .comma rest

/-- The value at the front of a text, read by a reader that enters no more than
`levels` containers inside each other. -/
def readValue (d : Dialect) (levels : Nat) (t : Text) : Except Fault (Json × Text) :=
  match t with
  | .char '"' :: rest => do
    let (s, rest) ← scanText t.length rest
    return (.str s, rest)
  | .char '[' :: rest =>
    match levels with
    | 0 => failAt (.nesting .array) t
    | levels + 1 =>
      match skipSpace rest with
      | .char ']' :: rest => .ok (.arr [], rest)
      | rest => do
        let (items, rest) ← readItems (readValue d levels) (rest.length + 1) rest
        return (.arr items, rest)
  | .char '\x7b' :: rest =>
    match levels with
    | 0 => failAt (.nesting .object) t
    | levels + 1 =>
      match skipSpace rest with
      | .char '\x7d' :: rest => .ok (.obj [], rest)
      | rest => do
        let (members, rest) ← readMembers (readValue d levels) (rest.length + 1) rest
        return (.obj (Members.ofPairs members), rest)
  | _ => scanScalar d t

/-- The one value that a whole text spells. -/
def readAll (d : Dialect) (levels : Nat) (t : Text) : Except Fault Json :=
  if t.head? = some (.ofNat 0xFEFF) then failAt .byteOrderMark t
  else do
    let (v, rest) ← readValue d levels (skipSpace t)
    match skipSpace rest with
    | [] => return v
    | rest => failAt .extra rest

/-- **Reads a JSON text** with no more than `levels` containers inside each
other. -/
def readWithin (levels : Nat) (d : Dialect) (t : Text) : Except ReadError Json :=
  (readAll d levels t).mapError fun fault => ⟨fault.cause, t.take (t.length - fault.left)⟩

/-- **Reads a JSON text**, however deep it nests. -/
def read (d : Dialect) (t : Text) : Except ReadError Json := readWithin t.length d t

/-! ## Faults in words -/

namespace Cause

/-- What the reader missed or met. -/
def describe : Cause → Text
  | .byteOrderMark => "Unexpected UTF-8 BOM (decode using utf-8-sig)".toText
  | .value => "Expecting value".toText
  | .name => "Expecting property name enclosed in double quotes".toText
  | .colon => "Expecting ':' delimiter".toText
  | .comma => "Expecting ',' delimiter".toText
  | .unterminated => "Unterminated string starting at".toText
  | .control => "Invalid control character at".toText
  | .escape => "Invalid \\escape".toText
  | .unicodeEscape => "Invalid \\uXXXX escape".toText
  | .extra => "Extra data".toText
  | .constant word => word ++ " is not a valid JSON value".toText
  | .tooManyDigits count =>
    "Exceeds the limit (4300 digits) for integer string conversion: value has ".toText
      ++ Text.ofNat count
      ++ " digits; use sys.set_int_max_str_digits() to increase the limit".toText
  | .nesting .array =>
    "maximum recursion depth exceeded while decoding a JSON array from a unicode string".toText
  | .nesting .object =>
    "maximum recursion depth exceeded while decoding a JSON object from a unicode string".toText

/-- Whether a message says where the fault is. -/
def isPlaced : Cause → Bool
  | .constant _ => false
  | .tooManyDigits _ => false
  | .nesting _ => false
  | _ => true

end Cause

namespace ReadError

/-- The line of the fault, counted from one. -/
def line (e : ReadError) : Nat := e.before.count (.char '\n') + 1

/-- The column of the fault in its line, counted from one. -/
def column (e : ReadError) : Nat := (e.before.reverse.takeWhile (· != .char '\n')).length + 1

/-- The fault and where it is. -/
def message (e : ReadError) : Text :=
  if e.cause.isPlaced then
    e.cause.describe ++ ": line ".toText ++ Text.ofNat e.line ++ " column ".toText
      ++ Text.ofNat e.column ++ " (char ".toText ++ Text.ofNat e.before.length ++ ")".toText
  else e.cause.describe

end ReadError

end CortexCall.Json
