import CortexCall.Settings.Loader

/-!
# Running a call

A run dispatches the configured call, logs its lines, hands the statement to an
**executor** and reports what came back. The executor is whatever talks to the
database; here it is a function from a statement and a connection to a reply. A
reply is a result, a failure of execution, which is passed on as it is, or any
other failure, which is reported as a failure of the call.

What a run does to the world outside are **events**: a line is logged, a statement
is handed to the executor. A run is a program that lets them happen one after the
other and may fail in between, `conduct`, so that which events there are is not
said anywhere but follows from running it. The executor may remember what it was
sent and answer accordingly – then it is a **service**.
-/

namespace CortexCall

/-- What the database returns. -/
structure QueryResult where
  rows : List Members
  rowCount : Int
  queryId : Option Text
deriving BEq, Repr

/-- What an executor answers. -/
inductive Reply where
  | result (r : QueryResult)
  /-- The statement failed, and the executor says so itself. -/
  | executionFailed (message : Text)
  /-- Something else failed. -/
  | broke (message : Text)
deriving BEq, Repr

/-- An executor. -/
abbrev Executor := Text → Connection → Reply

/-- An executor that remembers: how it answers may depend on all that it was sent
before. -/
abbrev Service := List (Text × Connection) → Executor

/-- Something that a run does to the world outside. -/
inductive Event where
  /-- A line is logged. -/
  | logged (line : Text)
  /-- A statement is handed to the executor, with a connection. -/
  | executed (query : Text) (connection : Connection)
deriving DecidableEq, Repr

namespace Event

/-- The line that is logged, if it is one. -/
def line? : Event → Option Text
  | .logged line => some line
  | .executed .. => none

/-- What the executor is sent, if it is. -/
def sent? : Event → Option (Text × Connection)
  | .logged _ => none
  | .executed query connection => some (query, connection)

end Event

/-- **The first column of the first row**, `null` if there is none. -/
def firstValue : List Members → Json
  | ((_, v) :: _) :: _ => v
  | _ => .null

/-- Why a run has no result. -/
inductive RunError where
  | dispatch (e : DispatchError)
  | execution (message : Text)
deriving DecidableEq, Repr

namespace RunError

/-- The failure in words. -/
def message : RunError → Text
  | .dispatch e => e.message
  | .execution message => message

end RunError

/-- A call that was executed. -/
structure Executed where
  dispatched : Dispatched
  result : QueryResult
deriving BEq, Repr

namespace Executed

/-- The value of the call. -/
def value (e : Executed) : Json := firstValue e.result.rows

/-- What is reported of the call. -/
def output (e : Executed) : Json :=
  .obj [("function".toText, .str e.dispatched.callee.sqlName),
    ("request".toText, e.dispatched.request),
    ("result".toText, .obj [
      ("queryId".toText, (e.result.queryId.map Json.str).getD .null),
      ("rowCount".toText, .int e.result.rowCount),
      ("rows".toText, .arr (e.result.rows.map .obj)),
      ("value".toText, e.value)])]

/-- The value as a text: a text itself, nothing for `null`, JSON for the
rest. -/
def resultText (e : Executed) : Text :=
  match e.value with
  | .null => []
  | .str t => t
  | v => v.print .spaced

/-- The line that is logged of a success. -/
def successLine (e : Executed) : Text :=
  "Cortex AI SQL call succeeded query_id=".toText ++ e.result.queryId.getD "None".toText
    ++ " rows=".toText ++ Text.ofInt e.result.rowCount

end Executed

/-! ## Programs -/

/-- A program with a result: events happen behind those that have happened, and it
may fail. -/
abbrev Program := ExceptT RunError (StateM (List Event))

namespace Program

/-- Logs a line. -/
def log (line : Text) : Program Unit := modify (· ++ [.logged line])

/-- Hands a statement to a service, which answers knowing what it was sent. -/
def execute (service : Service) (query : Text) (connection : Connection) : Program Reply :=
  modifyGet fun events =>
    (service (events.filterMap Event.sent?) query connection,
      events ++ [.executed query connection])

end Program

/-- The result of a reply to a call, or how the call fails. -/
def Reply.settle (name : Text) : Reply → Except RunError QueryResult
  | .result r => .ok r
  | .executionFailed message => .error (.execution message)
  | .broke message => .error (.execution (name ++ " call failed: ".toText ++ message))

/-- The dispatch of the configured call. Blank arguments are rejected in
words of their own, since here they were configured. -/
def Settings.prepare (s : Settings) : Except DispatchError Dispatched :=
  if (Text.strip (s.args.getD [])).isEmpty then .error (.request .missingArgs)
  else CortexCall.dispatch (some s.function) s.args s.connection.logLevel

/-- **The configured call, conducted with a service.** -/
def conduct (service : Service) (s : Settings) : Program Executed := do
  let d ← MonadExcept.ofExcept (s.prepare.mapError RunError.dispatch)
  d.lines.forM Program.log
  let reply ← Program.execute service d.query s.connection
  let r ← MonadExcept.ofExcept (reply.settle d.callee.sqlName)
  let e : Executed := ⟨d, r⟩
  Program.log e.successLine
  return e

/-! ## Runs -/

/-- A run: its outcome, and the events in it. -/
structure Run where
  outcome : Except RunError Executed
  events : List Event

namespace Run

/-- What was executed in a run, in order. -/
def executed (r : Run) : List (Text × Connection) := r.events.filterMap Event.sent?

/-- The lines that were logged in a run, in order. -/
def log (r : Run) : List Text := r.events.filterMap Event.line?

/-- A run of the configured call with a service that was sent nothing before. -/
def through (service : Service) (s : Settings) : Run :=
  let (outcome, events) := (conduct service s).run.run []
  ⟨outcome, events⟩

/-- **One run of the configured call.** -/
def once (s : Settings) (executor : Executor) : Run := through (fun _ => executor) s

end Run

end CortexCall
