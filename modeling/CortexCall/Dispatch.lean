import CortexCall.Statement
import CortexCall.Request.Echo
import CortexCall.Request.Summary
import CortexCall.Json.Printer

/-!
# Dispatch

A function name and an argument text go in; the statement, the echo and the
lines to be logged come out. Dispatch does nothing else: it resolves the
name, checks the arguments, builds the statement, and only then the echo, so
a request that cannot be put into SQL fails for that reason even if it could
not be echoed either.

No bound is set on how deep a request nests: it is read and written to its
end. What a reader with a bound accepts is `acceptWithin`, and what a writer
with one builds is `Payload.statementBy`.

How much is logged is the **log level**. At the minimal level it is the
summary, which shows no content; at the verbose level it is the statement and
the echo themselves.
-/

namespace CortexCall

/-- How much of a call is logged. -/
inductive LogLevel where
  | minimal
  | verbose
deriving DecidableEq, Inhabited, Repr

namespace LogLevel

/-- The name of a level. -/
def name : LogLevel → Text
  | .minimal => "MINIMAL".toText
  | .verbose => "VERBOSE".toText

/-- The level that a text asks for: the verbose one by its name in any case,
the minimal one by anything else. -/
def ofText (raw : Option Text) : LogLevel :=
  if Text.upper (Text.strip (raw.getD [])) = verbose.name then .verbose else .minimal

end LogLevel

/-- Why a call is not dispatched. -/
inductive DispatchError where
  | request (e : RequestError)
  | build (e : BuildError)
  | echo (e : EchoError)
deriving DecidableEq, Repr

namespace DispatchError

/-- The failure in words. -/
def message : DispatchError → Text
  | .request e => e.message
  | .build e => e.message
  | .echo e => e.message

end DispatchError

/-- A dispatched call. -/
structure Dispatched where
  callee : Callee
  /-- The statement that is sent. -/
  query : Text
  /-- The echo of the request. -/
  request : Json
  /-- The lines that are logged. -/
  lines : List Text
deriving BEq, Repr

/-- The lines that are logged of a call at a level. -/
def callLines (c : Callee) (p : Payload) (query : Text) (request : Json) : LogLevel → List Text
  | .minimal => Payload.line "Function".toText c.sqlName :: p.summary
  | .verbose =>
    [Payload.line "SQL".toText query, Payload.line "Args".toText (request.print .spaced)]

/-- The dispatch of a payload that is already checked. -/
def dispatchPayload (c : Callee) (p : Payload) (level : LogLevel) :
    Except DispatchError Dispatched := do
  let query ← (p.statement c).mapError .build
  let request ← p.echo.mapError .echo
  return ⟨c, query, request, callLines c p query request level⟩

/-- The callee of a name and the payload of a text for it. -/
def accept (function args : Option Text) : Except RequestError (Callee × Payload) := do
  let c ← (Callee.resolve function).mapError .callee
  let p ← Payload.ofText c args
  return (c, p)

/-- The callee of a name and the payload of a text for it, if the text has no more
than `levels` containers inside each other. -/
def acceptWithin (levels : Nat) (function args : Option Text) :
    Except Refusal (Callee × Payload) := do
  let c ← (Callee.resolve function).mapError fun e => .rejected (.callee e)
  let p ← Payload.ofTextWithin levels c args
  return (c, p)

/-- **The dispatch of a function name and an argument text.** -/
def dispatch (function args : Option Text) (level : LogLevel) :
    Except DispatchError Dispatched := do
  let (c, p) ← (accept function args).mapError .request
  dispatchPayload c p level

end CortexCall
