import CortexCall.Settings.Loader
import CortexCall.CommandLine.Options
import CortexCall.CommandLine.Help

/-!
# The command

The command renders a call without executing it. What is not given on the
command line comes from the settings. It prints the statement and the echo as
JSON, and logs the lines of the call to the error stream; a rejected request
is logged there as an error.

How much of the log is shown is a **threshold**, the variable `LOG_LEVEL`:
records below it are dropped. It has nothing to do with the log level of the
call, which says what is put into the records.
-/

namespace CortexCall.CommandLine

/-! ## The log -/

/-- How serious a record is. -/
inductive Severity where
  | info
  | warning
  | error
deriving DecidableEq, Repr

namespace Severity

/-- The name in a record. -/
def name : Severity → Text
  | .info => "INFO".toText
  | .warning => "WARNING".toText
  | .error => "ERROR".toText

/-- The rank of a severity. -/
def rank : Severity → Nat
  | .info => 20
  | .warning => 30
  | .error => 40

end Severity

/-- A line of the log: how serious it is, who writes it, and what it says. -/
structure Record where
  severity : Severity
  logger : Text
  message : Text
deriving DecidableEq, Repr

namespace Record

/-- A record of the command itself. -/
def ofCommand (severity : Severity) (message : Text) : Record :=
  ⟨severity, "src.cli.main".toText, message⟩

/-- A warning that an entry of the file of variables cannot be read. -/
def unreadableEntry (line : Nat) : Record :=
  ⟨.warning, "dotenv.main".toText,
    "python-dotenv could not parse statement starting at line ".toText ++ Text.ofNat line⟩

/-- A record as it is shown, behind the time. -/
def render (stamp : Text) (r : Record) : Text :=
  stamp ++ " ".toText ++ r.severity.name ++ " ".toText ++ r.logger ++ " ".toText ++ r.message
    ++ "\n".toText

end Record

/-- The names of thresholds and their ranks. -/
def thresholds : List (Text × Nat) :=
  [("CRITICAL".toText, 50), ("FATAL".toText, 50), ("ERROR".toText, 40), ("WARN".toText, 30),
   ("WARNING".toText, 30), ("INFO".toText, 20), ("DEBUG".toText, 10), ("NOTSET".toText, 0)]

/-- The variable that names the threshold. -/
def thresholdVariable : Text := "LOG_LEVEL".toText

/-- The threshold named in an environment, in capitals; an empty name counts
as none. -/
def thresholdName (env : Variables) : Text :=
  match env.lookup thresholdVariable with
  | none => "INFO".toText
  | some [] => "INFO".toText
  | some t => Text.upper t

/-! ## The command -/

/-- What the command did: the exit code, the text printed, and the log. -/
structure Outcome where
  exit : Nat
  printed : Text
  /-- What is written to the error stream before the log. -/
  complaint : Text
  log : List Record
deriving DecidableEq, Repr

namespace Outcome

/-- What the error stream shows, each record behind its time. -/
def errorText (stamp : Text) (o : Outcome) : Text :=
  o.complaint ++ o.log.flatMap (Record.render stamp)

end Outcome

/-- Why the command breaks off. -/
inductive Failure where
  /-- There is no threshold of this name. -/
  | unknownThreshold (name : Text)
  /-- The call is accepted but cannot be put into words. -/
  | dispatch (e : DispatchError)
deriving DecidableEq, Repr

namespace Failure

/-- The failure in words. -/
def message : Failure → Text
  | .unknownThreshold name => "Unknown level: ".toText ++ Text.quoted name
  | .dispatch e => e.message

end Failure

/-- What is printed of a dispatched call. -/
def report (d : Dispatched) : Json :=
  .obj [("function".toText, .str d.callee.sqlName), ("sql".toText, .str d.query),
    ("request".toText, d.request)]

/-- The outcome of a dispatched call. -/
def succeeded (d : Dispatched) : Outcome :=
  ⟨0, (report d).print .indented ++ "\n".toText, [], d.lines.map (.ofCommand .info)⟩

/-- The outcome of a rejected request. -/
def rejected (e : RequestError) : Outcome :=
  ⟨1, [], [], [.ofCommand .error ("AI SQL arguments rejected kind=".toText ++ e.kind.name
    ++ ": ".toText ++ e.message)]⟩

/-- The outcome of a request for help. -/
def helped (width : Nat) : Outcome := ⟨0, helpText width, [], []⟩

/-- The outcome of a refused command line. -/
def refused (width : Nat) (e : UsageError) : Outcome :=
  ⟨2, [], usage width ++ programName ++ ": error: ".toText ++ e.message ++ "\n".toText, []⟩

/-- The log level that is asked for: an empty one on the command line does
not count. -/
def levelFor (g : Given) (s : Settings) : LogLevel :=
  match g.logLevel with
  | none => s.connection.logLevel
  | some [] => s.connection.logLevel
  | some t => .ofText (some t)

/-- The call that is asked for. -/
def dispatchGiven (g : Given) (s : Settings) : Except DispatchError Dispatched :=
  dispatch (some (g.function.getD s.function)) (g.args <|> s.args) (levelFor g s)

/-- The outcome with the records that reach a threshold. -/
def Outcome.above (rank : Nat) (o : Outcome) : Outcome :=
  { o with log := o.log.filter fun r => rank ≤ r.severity.rank }

/-- The outcome with more records in front. -/
def Outcome.after (records : List Record) (o : Outcome) : Outcome :=
  { o with log := records ++ o.log }

/-- The warnings about a file of variables, in the order of its lines. -/
def fileWarnings (file : Option Text) : List Record :=
  ((file.map Dotenv.unreadableLines).getD []).map .unreadableEntry

/-- The outcome of a call with the settings at hand. -/
def render (g : Given) (s : Settings) : Except Failure Outcome :=
  match dispatchGiven g s with
  | .ok d => .ok (succeeded d)
  | .error (.request e) => .ok (rejected e)
  | .error e => .error (.dispatch e)

/-- **The command**, on a command line, in an environment, beside a file of
variables. -/
def run (argv : List Text) (env : Variables) (file : Option Text) : Except Failure Outcome :=
  match parse argv with
  | .error .help => .ok (helped (lineWidth env))
  | .error (.usage e) => .ok (refused (lineWidth env) e)
  | .ok g =>
    match thresholds.lookup (thresholdName env) with
    | none => .error (.unknownThreshold (thresholdName env))
    | some rank => (render g (.load env file)).map fun o => (o.after (fileWarnings file)).above rank

end CortexCall.CommandLine
