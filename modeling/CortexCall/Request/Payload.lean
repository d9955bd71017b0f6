import CortexCall.Text.Blank
import CortexCall.Text.Whole
import CortexCall.Json.Reader
import CortexCall.Request.Value

/-!
# Checked requests

A **payload** is what is left of the arguments once they are checked: the
function and the values of the fields that were given, in the order of its
parameters. It is made in one pass. The parameters are checked in order and
the first issue ends the pass; then no member may be left that is not a
parameter; then the function's rule on several fields must hold.

`Payload.ofText` does this for the argument text of a callee, from the blank
text to the last rule, and `Payload.ofJson` for a value whose fields already
stand under their own names.
-/

namespace CortexCall

namespace Issue

/-- A field that must be given is not. -/
def missing (f : Field) : Issue := ⟨.missingField, [.name f.name], "Field required".toText⟩

/-- A member is no parameter. -/
def unexpected (name : Text) : Issue :=
  ⟨.unexpectedField, [.name name], "Extra inputs are not permitted".toText⟩

/-- The value is no object, where the record of a function is expected. -/
def notRecord (f : AiFunction) : Issue :=
  here .typeMismatch ("Input should be a valid dictionary or instance of ".toText ++ f.recordName)

/-- A member's name is not whole. -/
def unreadableName : Issue :=
  here .typeMismatch
    "Input should be a valid string, unable to parse raw data as a unicode string".toText

/-- Not exactly one of two fields is given. -/
def notExactlyOne (left right : Field) : Issue :=
  here .mutuallyExclusiveViolation
    ("provide exactly one of ".toText ++ left.name ++ " or ".toText ++ right.name)

/-- Not exactly one of two pairs of fields is given. -/
def notExactlyOnePair (left right : Field × Field) : Issue :=
  here .mutuallyExclusiveViolation
    ("provide exactly one of ".toText ++ left.1.name ++ "/".toText ++ left.2.name
      ++ " or ".toText ++ right.1.name ++ "/".toText ++ right.2.name)

/-- Only half of a pair of fields is given. -/
def halfPair (pair : Field × Field) : Issue :=
  here .mutuallyExclusiveViolation
    (pair.1.name ++ " and ".toText ++ pair.2.name ++ " must be provided together".toText)

end Issue

/-- Fields and their values, in order. -/
abbrev Entries := List (Field × Value)

namespace Entries

/-- The value of a field, if it is given. -/
def get? (field : Field) : Entries → Option Value
  | [] => none
  | (f, v) :: rest => if f = field then some v else get? field rest

/-- Whether a field is given. -/
def has (e : Entries) (field : Field) : Bool := (get? field e).isSome

end Entries

namespace Parameter

/-- The value of a parameter among the members, if it is given. For an
optional one `null` is the same as nothing. -/
def check (p : Parameter) (m : Members) : Except Issue (Option Value) :=
  match m.get? p.field.name with
  | none => if p.required then .error (.missing p.field) else .ok none
  | some v =>
    if !p.required && v.isNull then .ok none
    else ((p.kind.check v).map some).mapError (·.under (.name p.field.name))

/-- The values of some parameters among the members. -/
def checkAll (m : Members) : List Parameter → Except Issue Entries
  | [] => .ok []
  | p :: rest => do
    let value ← p.check m
    let entries ← checkAll m rest
    match value with
    | some v => return (p.field, v) :: entries
    | none => return entries

/-- The names of some parameters. -/
def names (ps : List Parameter) : List Text := ps.map fun p => p.field.name

/-- The first member that is none of some parameters. -/
def firstUnexpected (ps : List Parameter) (m : Members) : Option Text :=
  m.names.find? fun name => !(names ps).contains name

end Parameter

namespace Rule

/-- Whether the condition holds of the fields that are given. -/
def check (e : Entries) : Rule → Except Issue Unit
  | .free => .ok ()
  | .exactlyOne left right =>
    if e.has left = e.has right then .error (.notExactlyOne left right) else .ok ()
  | .exactlyOnePair left right =>
    let hasLeft := e.has left.1 || e.has left.2
    let hasRight := e.has right.1 || e.has right.2
    if hasLeft = hasRight then .error (.notExactlyOnePair left right)
    else
      let pair := if hasLeft then left else right
      if e.has pair.1 && e.has pair.2 then .ok () else .error (.halfPair pair)

end Rule

/-- The checked arguments of a function. -/
structure Payload where
  function : AiFunction
  entries : Entries
deriving BEq, Repr

namespace Payload

/-- The value of a field, if it is given. -/
def get? (p : Payload) (field : Field) : Option Value := p.entries.get? field

/-- Whether a field is given. -/
def has (p : Payload) (field : Field) : Bool := p.entries.has field

/-- The payload that an object's members fill. -/
def ofMembers (f : AiFunction) (m : Members) : Except Issue Payload := do
  let entries ← Parameter.checkAll m f.parameters
  match Parameter.firstUnexpected f.parameters m with
  | some name => throw (.unexpected name)
  | none =>
    f.rule.check entries
    return ⟨f, entries⟩

/-- Whether the names of an object are whole texts. -/
def hasReadableNames (m : Members) : Bool := m.names.all Text.isWhole

/-- The payload that a value fills. A name that is not whole spoils the
object, before anything in it is checked. -/
def ofJson (f : AiFunction) : Json → Except Issue Payload
  | .obj m => if hasReadableNames m then ofMembers f m else .error .unreadableName
  | _ => .error (.notRecord f)

end Payload

/-! ## From text -/

namespace Request

/-- The text without the blanks around it; it must not be blank. -/
def trimmed (label : Text) (raw : Option Text) : Except RequestError Text :=
  let t := Text.strip (raw.getD [])
  if t.isEmpty then .error (.emptyText label) else .ok t

/-- The object that was read, if it is one. -/
def objectOf (label : Text) : Except Json.ReadError Json → Except RequestError Members
  | .error e => .error (.invalidJson label e)
  | .ok (.obj m) => .ok m
  | .ok _ => .error (.notAnObject label)

/-- **The object that an argument text spells.** -/
def readObject (label : Text) (raw : Option Text) : Except RequestError Members := do
  let t ← trimmed label raw
  objectOf label (Json.read .strict t)

/-- The object that was read by a reader that may be interrupted. That is the one
fault of a text that is not answered with a rejection. -/
def objectUnlessInterrupted (label : Text) : Except Json.ReadError Json → Except Refusal Members
  | .error ⟨.nesting c, _⟩ => .error (.interrupted c)
  | reading => (objectOf label reading).mapError .rejected

/-- The object that an argument text spells with no more than `levels` containers
inside each other. -/
def readObjectWithin (levels : Nat) (label : Text) (raw : Option Text) :
    Except Refusal Members := do
  let t ← (trimmed label raw).mapError .rejected
  objectUnlessInterrupted label (Json.readWithin levels .strict t)

/-- What argument texts are called in messages. -/
def argsLabel : Text := "args".toText

end Request

namespace Payload

/-- The older calling form has no place for details, so asking for them is
refused there. -/
def checkDetails (c : Callee) (p : Payload) : Except RequestError Payload :=
  if c.isLegacy && p.has .showDetails then .error (.detailsUnsupported c.sqlName) else .ok p

/-- The payload for a callee that an object spells. -/
def ofObject (c : Callee) (given : Members) : Except RequestError Payload := do
  let members ← given.unify c.sqlName c.function.spellings
  match ofJson c.function (.obj members) with
  | .ok p => checkDetails c p
  | .error i => throw (.invalid c.sqlName (some i))

/-- **The payload for a callee that an argument text spells.** -/
def ofText (c : Callee) (raw : Option Text) : Except RequestError Payload := do
  let given ← Request.readObject Request.argsLabel raw
  ofObject c given

/-- The payload for a callee that an argument text spells with no more than
`levels` containers inside each other. -/
def ofTextWithin (levels : Nat) (c : Callee) (raw : Option Text) : Except Refusal Payload := do
  let given ← Request.readObjectWithin levels Request.argsLabel raw
  (ofObject c given).mapError .rejected

/-- The payload that a JSON text spells as it stands: no spelling is
unified and `null` members count. -/
def ofRecordText (f : AiFunction) (label : Text) (t : Text) : Except RequestError Payload :=
  match Json.read .lenient t with
  | .error e => .error (.invalidJson label e)
  | .ok v => (ofJson f v).mapError fun i => .invalid label (some i)

end Payload

end CortexCall
