import CortexCall.Text.Basic
import CortexCall.Json.Printer
import CortexCall.Sql.Literal

/-!
# Function calls in SQL

A call is a name and its arguments before it is a text. An **argument** is a
JSON value, or an expression that is already SQL. Texts become literals,
truth values become keywords, and objects and arrays travel as a literal
that the database parses: `PARSE_JSON('…')`. A bare number or `null` has no
form in SQL here, and a value that holds an infinite number has no JSON text,
so rendering can fail, for either reason.

What writes the JSON text is a **writer**. `jsonText` writes a value however
deep it nests; `jsonTextWithin` can be inside so many containers at once and no
more, and gives up at the next. Everything that is made of JSON texts is made
by a given writer, and by `jsonText` where none is named.

An argument may carry a key, and then it is passed by name. Absent
arguments – the value `null` – are left out of a call altogether.
-/

namespace CortexCall.Sql

/-- Why a value has no SQL text. -/
inductive RenderError where
  /-- A number in it is not finite. -/
  | outOfRange
  /-- It has more containers inside each other than its writer may be inside. -/
  | tooDeep
  /-- It is a value of a sort that is never an argument. -/
  | unsupported (sort : Text)
deriving DecidableEq, Repr

namespace RenderError

/-- The failure in words. -/
def message : RenderError → Text
  | .outOfRange => "Out of range float values are not JSON compliant".toText
  | .tooDeep => "maximum recursion depth exceeded while encoding a JSON object".toText
  | .unsupported sort => "Unsupported SQL argument value: ".toText ++ sort

end RenderError

/-! ## JSON texts -/

/-- What makes compact JSON texts of values. -/
abbrev Writer := Json → Except RenderError Text

/-- The compact JSON text of a value whose numbers are all finite. -/
def jsonText : Writer := fun v =>
  if v.allFinite then .ok (v.print .compact) else .error .outOfRange

mutual

/-- Walks over a value in the order in which it is written, and fails where a
writer of so many levels does: at a number that is not finite, or at the first
container too many. -/
def walkWithin (levels : Nat) : Json → Except RenderError Unit
  | .double d => if d.isFinite then .ok () else .error .outOfRange
  | .arr items => if levels = 0 then .error .tooDeep else walkItemsWithin (levels - 1) items
  | .obj members => if levels = 0 then .error .tooDeep else walkMembersWithin (levels - 1) members
  | _ => .ok ()

/-- Walks over the items of an array. -/
def walkItemsWithin (levels : Nat) : List Json → Except RenderError Unit
  | [] => .ok ()
  | v :: rest => do
    walkWithin levels v
    walkItemsWithin levels rest

/-- Walks over the values of an object. -/
def walkMembersWithin (levels : Nat) : List (Text × Json) → Except RenderError Unit
  | [] => .ok ()
  | (_, v) :: rest => do
    walkWithin levels v
    walkMembersWithin levels rest

end

/-- The compact JSON text of a value with no more than `levels` containers inside
each other. -/
def jsonTextWithin (levels : Nat) : Writer := fun v => do
  walkWithin levels v
  return v.print .compact

/-- A value as a literal that the database parses, by a writer. -/
def embedBy (write : Writer) (v : Json) : Except RenderError Text := do
  let t ← write v
  return "PARSE_JSON(".toText ++ quote t ++ ")".toText

/-- A value as a literal that the database parses. -/
def embed (v : Json) : Except RenderError Text := embedBy jsonText v

/-! ## Arguments -/

/-- An argument of a call. -/
inductive Argument where
  /-- A value that has yet to be rendered. -/
  | value (v : Json)
  /-- A text that is SQL already. -/
  | expression (t : Text)
deriving BEq, Repr

namespace Argument

/-- An argument that is left out. -/
def absent : Argument := .value .null

/-- Whether an argument is left out. -/
def isAbsent : Argument → Bool
  | .value .null => true
  | _ => false

/-- The value of an argument; an expression counts as its text. -/
def toJson : Argument → Json
  | .value v => v
  | .expression t => .str t

/-- **An argument as SQL**, by a writer. -/
def renderBy (write : Writer) : Argument → Except RenderError Text
  | .expression t => .ok t
  | .value (.bool true) => .ok "TRUE".toText
  | .value (.bool false) => .ok "FALSE".toText
  | .value (.str t) => .ok (quote t)
  | .value (.arr items) => embedBy write (.arr items)
  | .value (.obj members) => embedBy write (.obj members)
  | .value (.int _) => .error (.unsupported "int".toText)
  | .value (.double _) => .error (.unsupported "float".toText)
  | .value .null => .error (.unsupported "NoneType".toText)

/-- An argument as SQL. -/
def render (a : Argument) : Except RenderError Text := a.renderBy jsonText

end Argument

/-- An argument in its place: with a key if it is passed by name. -/
structure Slot where
  key : Option Text
  argument : Argument
deriving BEq, Repr

namespace Slot

/-- A slot as SQL, `key => argument` or the argument alone, by a writer. -/
def renderBy (write : Writer) (s : Slot) : Except RenderError Text := do
  let t ← s.argument.renderBy write
  match s.key with
  | some key => return key ++ " => ".toText ++ t
  | none => return t

/-- A slot as SQL. -/
def render (s : Slot) : Except RenderError Text := s.renderBy jsonText

end Slot

/-- A call of a function. -/
structure Call where
  name : Text
  slots : List Slot
deriving BEq, Repr

namespace Call

/-- A call with its arguments in order. -/
def positional (name : Text) (arguments : List Argument) : Call :=
  ⟨name, arguments.map (⟨none, ·⟩)⟩

/-- A call with its arguments by name. -/
def named (name : Text) (arguments : List (Text × Argument)) : Call :=
  ⟨name, arguments.map fun a => ⟨some a.1, a.2⟩⟩

/-- The slots that are not left out. -/
def present (c : Call) : List Slot := c.slots.filter fun s => !s.argument.isAbsent

/-- **A call as SQL**, by a writer: the first argument that cannot be rendered is
the one that is reported. -/
def renderBy (write : Writer) (c : Call) : Except RenderError Text := do
  let parts ← c.present.mapM (Slot.renderBy write)
  return c.name ++ "(".toText ++ Text.join ", ".toText parts ++ ")".toText

/-- A call as SQL. -/
def render (c : Call) : Except RenderError Text := c.renderBy jsonText

end Call

/-- The statement that selects what a call returns. -/
def selectResponse (call : Text) : Text := "select ".toText ++ call ++ " as response".toText

end CortexCall.Sql
