import CortexCall.Text.Whole
import CortexCall.Request.Payload

/-!
# The echo of a request

A call is answered with an **echo**: the payload as a JSON object, each field
under its own name in the order of the parameters, absent ones left out.

A value of free form – an object or a list that is passed on as it was
given – is echoed under two conditions. It may nest at most `maxDepth`
levels, its own level included. And every name inside it must be a whole
text; only the names of the object itself need not be, since they are mended.
A call expression must be whole too. An infinite number has no place in JSON,
so the echo shows `null` for it.

The walk over a value reports what it meets first. Where a field allows
several forms, a value that cannot be shown in the form it has is walked
once more as a value of any form, where it has one level less and its own
names count, and what is met then is reported.
-/

namespace CortexCall

/-- How many levels a value of free form may have in the echo. -/
def maxDepth : Nat := 256

/-- Why a payload cannot be echoed. -/
inductive EchoError where
  /-- A value is nested too deep. -/
  | tooDeep
  /-- A text is not whole. -/
  | halves (e : Halves)
deriving DecidableEq, Repr

namespace EchoError

/-- The failure in words. -/
def message : EchoError → Text
  | .tooDeep => "Maximum serialization depth exceeded".toText
  | .halves e => e.message

end EchoError

namespace Json

mutual

/-- Fails for a value that has more levels than given, or a name that is not
whole. -/
def checkWithin (levels : Nat) : Json → Except EchoError Unit
  | .arr items => if levels = 0 then .error .tooDeep else checkItemsWithin (levels - 1) items
  | .obj members => if levels = 0 then .error .tooDeep else checkMembersWithin (levels - 1) members
  | _ => if levels = 0 then .error .tooDeep else .ok ()

/-- Fails for the first item that has more levels than given, or a name that
is not whole. -/
def checkItemsWithin (levels : Nat) : List Json → Except EchoError Unit
  | [] => .ok ()
  | v :: rest => do
    checkWithin levels v
    checkItemsWithin levels rest

/-- Fails for the first member whose name is not whole, or whose value has
more levels than given or a name that is not whole. -/
def checkMembersWithin (levels : Nat) : List (Text × Json) → Except EchoError Unit
  | [] => .ok ()
  | (name, v) :: rest => do
    name.requireWhole.mapError .halves
    checkWithin levels v
    checkMembersWithin levels rest

end

/-- The values that a value holds. -/
def parts : Json → List Json
  | .arr items => items
  | .obj members => members.map Prod.snd
  | _ => []

/-- Fails for a value of free form that cannot be shown. -/
def checkParts (v : Json) : Except EchoError Unit := checkItemsWithin (maxDepth - 1) v.parts

/-- An object with its names mended; of names that become equal, the last one
counts. -/
def mendNames : Json → Json
  | .obj members => .obj (Members.ofPairs (members.map fun p => (p.1.mended, p.2)))
  | v => v

end Json

namespace Kind

/-- Whether a field of a kind may hold values of several forms. -/
def hasForms : Kind → Bool
  | .objectOrList => true
  | .proseOrObject => true
  | .categories => true
  | .file => true
  | _ => false

end Kind

namespace AiFunction

/-- Whether a field of a function may hold values of several forms. -/
def allowsForms (f : AiFunction) (field : Field) : Bool :=
  f.parameters.any fun p => p.field = field && p.kind.hasForms

end AiFunction

namespace Value

/-- Fails for a value that cannot be shown; `forms` says whether its field
allows several forms. -/
def checkEcho (forms : Bool) : Value → Except EchoError Unit
  | .json v =>
    match v.checkParts with
    | .ok () => .ok ()
    | .error e => if forms then v.checkWithin (maxDepth - 1) else .error e
  | .file (.expression t) => t.requireWhole.mapError .halves
  | _ => .ok ()

/-- The value as the echo shows it. -/
def shown (v : Value) : Json :=
  match v with
  | .json v => v.mendNames.nullInfinite
  | .categories cs => .arr (cs.map Category.toJson)
  | v => v.toJson

/-- The value as the echo shows it, with every member that a record in it can
have. -/
def shownInFull (v : Value) : Json :=
  match v with
  | .categories cs => .arr (cs.map Category.record)
  | v => v.shown

end Value

namespace Payload

/-- Fails for the first value that cannot be shown. -/
def checkEcho (p : Payload) : Except EchoError Unit :=
  p.entries.forM fun e => e.2.checkEcho (p.function.allowsForms e.1)

/-- The members of the echo. -/
def echoMembers (p : Payload) : Members := p.entries.map fun e => (e.1.name, e.2.shown)

/-- **The echo of a payload.** -/
def echo (p : Payload) : Except EchoError Json := do
  p.checkEcho
  return .obj p.echoMembers

/-- The payload with every parameter of its function, `null` for those that
are not given. -/
def record (p : Payload) : Except EchoError Json := do
  p.checkEcho
  return .obj (p.function.parameters.map fun q =>
    (q.field.name, ((p.get? q.field).map Value.shownInFull).getD .null))

end Payload

end CortexCall
