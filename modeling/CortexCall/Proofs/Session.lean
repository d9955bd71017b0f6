import CortexCall.Runner
import CortexCall.Proofs.DispatchOutcome
import CortexCall.Proofs.GivenValues

/-!
# Sessions

A session is a sequence of calls to one executor. The executor may remember
what it was sent and answer as it likes, and a call may fail at any stage: its
settings may be refused, its arguments may be blank, they may be rejected, and
the executor may fail. `session_conducted` says what happens in each call of a
session, however the calls before it ended.

What one call does to the world outside is what running it as a program comes to,
event by event: nothing if it is not dispatched, `exists_run_conduct`, and else its
lines, its statement, and a last line if the service answers with a result,
`run_conduct`. That a statement is executed once, and not again after a failure, is
read off the events.

What a call sends depends on its settings alone – `Session.sentBy?` – so what the
executor was sent before a call is known without following the session, and the
executor's behaviour then is the only thing that a call can learn from the calls
before it. `getElem?_runs` says so by induction along the session.
-/

namespace CortexCall

/-! ## What is dispatched -/

namespace Settings

/-- What the configured call is dispatched to, if its arguments are not blank and
the dispatch returns. -/
def dispatched? (s : Settings) : Option Dispatched :=
  if (Text.strip (s.args.getD [])).isEmpty then none
  else (dispatch (some s.function) s.args s.connection.logLevel).toOption

end Settings

section Failing

variable {function args : Option Text} {level : LogLevel}

theorem toOption_dispatch_of_unresolved (h : ∀ c, Callee.resolve function ≠ .ok c) :
    (dispatch function args level).toOption = none := by
  cases hd : dispatch function args level with
  | error e => rfl
  | ok d =>
    obtain ⟨p, hp⟩ := exists_accept_of_dispatch hd
    exact absurd (accept_eq_ok_iff.mp hp).1 (h _)

theorem toOption_dispatch_of_no_object (h : Request.object? args = none) :
    (dispatch function args level).toOption = none := by
  cases hd : dispatch function args level with
  | error e => rfl
  | ok d =>
    obtain ⟨p, hp⟩ := exists_accept_of_dispatch hd
    obtain ⟨m, hm, -⟩ := Payload.exists_of_ofText (accept_eq_ok_iff.mp hp).2
    rw [h] at hm
    cases hm

theorem object?_of_blank (h : (Text.strip (args.getD [])).isEmpty = true) :
    Request.object? args = none := by
  cases hm : Request.object? args with
  | none => rfl
  | some m =>
    have read := readObject_of_object? Request.argsLabel hm
    rw [readObject_eq, if_pos h] at read
    cases read

/-- **Blank arguments need no check of their own**: they are no object. -/
theorem toOption_dispatch (s : Settings) :
    (dispatch (some s.function) s.args s.connection.logLevel).toOption = s.dispatched? := by
  unfold Settings.dispatched?
  split
  · next hblank => exact toOption_dispatch_of_no_object (object?_of_blank hblank)
  · rfl

/-- **A configured call is dispatched** when the dispatch returns. -/
theorem dispatched?_eq_some_iff {s : Settings} {d : Dispatched} : s.dispatched? = some d
    ↔ dispatch (some s.function) s.args s.connection.logLevel = .ok d := by
  rw [← toOption_dispatch]
  exact toOption_eq_some_iff

end Failing

/-! ## One run -/

/-- The value of a name in an object; other values have none. -/
def Json.member? (name : Text) : Json → Option Json
  | .obj m => Members.get? name m
  | _ => none

/-- **What is reported of a call**: the name and the echo that were dispatched,
and the rows, their number and the query as the executor returned them. -/
structure Executed.Reports (d : Dispatched) (q : QueryResult) (o : Json) : Prop where
  function : o.member? "function".toText = some (.str d.callee.sqlName)
  request : o.member? "request".toText = some d.request
  result : ∃ r, o.member? "result".toText = some r
    ∧ r.member? "rows".toText = some (.arr (q.rows.map .obj))
    ∧ r.member? "rowCount".toText = some (.int q.rowCount)
    ∧ r.member? "queryId".toText = some ((q.queryId.map Json.str).getD .null)

/-! ### Running a program -/

namespace Program

variable {α β : Type} {events : List Event}

theorem run_ok {x : Program α} {a : α} {later : List Event}
    (h : x.run.run events = (.ok a, later)) (f : α → Program β) :
    (x >>= f).run.run events = (f a).run.run later := by
  show ExceptT.bindCont f (x.run.run events).1 (x.run.run events).2 = _
  rw [h]
  rfl

theorem run_error {x : Program α} {e : RunError} {later : List Event}
    (h : x.run.run events = (.error e, later)) (f : α → Program β) :
    (x >>= f).run.run events = (.error e, later) := by
  show ExceptT.bindCont f (x.run.run events).1 (x.run.run events).2 = _
  rw [h]
  rfl

/-- What may fail and does nothing else lets no event happen. -/
theorem run_ofExcept (x : Except RunError α) (events : List Event) :
    (MonadExcept.ofExcept x : Program α).run.run events = (x, events) := by
  cases x <;> rfl

/-- **Lines are logged in order.** -/
theorem run_logAll (lines : List Text) (events : List Event) :
    (lines.forM log).run.run events = (.ok (), events ++ lines.map .logged) := by
  induction lines generalizing events with
  | nil => rw [List.map_nil, List.append_nil]; rfl
  | cons line rest ih =>
    have first : (log line).run.run events = (.ok (), events ++ [.logged line]) := rfl
    have both := (run_ok first fun _ => rest.forM log).trans (ih _)
    rwa [List.append_assoc] at both

end Program

section Events

variable (lines : List Text) (events : List Event)

/-- Lines that are logged are nothing that is sent. -/
theorem filterMap_sent?_logged : (lines.map Event.logged).filterMap Event.sent? = [] :=
  List.filterMap_eq_nil_iff.mpr fun _ h => by
    obtain ⟨line, -, rfl⟩ := List.mem_map.mp h
    rfl

/-- The lines that are logged are these and those behind them. -/
theorem filterMap_line?_logged : (lines.map Event.logged ++ events).filterMap Event.line?
    = lines ++ events.filterMap Event.line? := by
  induction lines with
  | nil => rfl
  | cons line rest ih => exact congrArg (line :: ·) ih

end Events

section Conduct

variable {s : Settings} {d : Dispatched}

theorem Settings.toOption_prepare (s : Settings) : s.prepare.toOption = s.dispatched? := by
  unfold prepare Settings.dispatched?
  split <;> rfl

/-- **A call that is not dispatched** fails at once, and no event happens. -/
theorem exists_run_conduct (h : s.dispatched? = none) : ∃ e, ∀ service events,
    (conduct service s).run.run events = (.error (.dispatch e), events) := by
  rw [← s.toOption_prepare] at h
  cases hp : s.prepare with
  | ok d =>
    rw [hp] at h
    cases h
  | error e =>
    refine ⟨e, fun service events => ?_⟩
    unfold conduct
    rw [hp]
    exact Program.run_error (Program.run_ofExcept _ events) _

/-- **A call that is dispatched** logs its lines, sends its statement once, and ends
as the service replies; a line is logged behind it only if it returns. -/
theorem run_conduct (h : s.dispatched? = some d) (service : Service) (events : List Event) :
    (conduct service s).run.run events
      = match (service (events.filterMap Event.sent?) d.query s.connection).settle
          d.callee.sqlName with
        | .ok q => (.ok ⟨d, q⟩, events ++ d.lines.map .logged
            ++ [.executed d.query s.connection, .logged (Executed.successLine ⟨d, q⟩)])
        | .error e => (.error e, events ++ d.lines.map .logged
            ++ [.executed d.query s.connection]) := by
  rw [← s.toOption_prepare, toOption_eq_some_iff] at h
  have prepared := Program.run_ofExcept (s.prepare.mapError RunError.dispatch) events
  rw [h] at prepared
  have sent : (Program.execute service d.query s.connection).run.run
        (events ++ d.lines.map .logged)
      = (.ok (service (events.filterMap Event.sent?) d.query s.connection),
        events ++ d.lines.map .logged ++ [.executed d.query s.connection]) := by
    have before : (events ++ d.lines.map Event.logged).filterMap Event.sent?
        = events.filterMap Event.sent? := by
      rw [List.filterMap_append, filterMap_sent?_logged, List.append_nil]
    rw [← before]
    rfl
  unfold conduct
  rw [h, Program.run_ok prepared, Program.run_ok (Program.run_logAll _ _), Program.run_ok sent]
  have settled := Program.run_ofExcept
    ((service (events.filterMap Event.sent?) d.query s.connection).settle d.callee.sqlName)
    (events ++ d.lines.map .logged ++ [.executed d.query s.connection])
  cases hreply : (service (events.filterMap Event.sent?) d.query s.connection).settle
      d.callee.sqlName with
  | error e =>
    rw [hreply] at settled
    exact Program.run_error settled _
  | ok q =>
    rw [hreply] at settled
    rw [Program.run_ok settled]
    show (_, _) = _
    simp

end Conduct

namespace Run

variable {s : Settings} {d : Dispatched} {q : QueryResult} {message : Text}

/-- **How a run is conducted** with an executor. -/
structure Conducted (executor : Executor) (s : Settings) (r : Run) : Prop where
  /-- The statement of a dispatched call is executed once, with the configured
  connection, and nothing else is. -/
  executed : r.executed = (s.dispatched?.map fun d => (d.query, s.connection)).toList
  /-- A call that is not dispatched is rejected and nothing happens. -/
  rejected : s.dispatched? = none →
    (∃ e, r.outcome = .error (.dispatch e)) ∧ r.events = []
  /-- What the executor returns is reported as it is, and logged behind the lines of
  the call. -/
  returned : ∀ d q, s.dispatched? = some d → executor d.query s.connection = .result q →
    (∃ e, r.outcome = .ok e ∧ Executed.Reports d q e.output)
      ∧ r.log = d.lines ++ [Executed.successLine ⟨d, q⟩]
  /-- A failure of execution passes unchanged. -/
  failed : ∀ d message, s.dispatched? = some d →
    executor d.query s.connection = .executionFailed message →
    r.outcome = .error (.execution message) ∧ r.log = d.lines
  /-- Any other failure becomes one of execution that names the call. -/
  broke : ∀ d message, s.dispatched? = some d → executor d.query s.connection = .broke message →
    r.outcome = .error (.execution (d.callee.sqlName ++ " call failed: ".toText ++ message))
      ∧ r.log = d.lines
  /-- The lines of the call are logged before its statement is executed. -/
  ordered : ∀ d, s.dispatched? = some d → ∃ behind,
    r.events = d.lines.map .logged ++ .executed d.query s.connection :: behind

/-! ### What a run comes to -/

variable {service service' : Service} {e : RunError}

/-- A call that is not dispatched never gets to a service. -/
theorem exists_rejected (h : s.dispatched? = none) :
    ∃ e, ∀ service, through service s = ⟨.error (.dispatch e), []⟩ := by
  obtain ⟨e, he⟩ := exists_run_conduct h
  refine ⟨e, fun service => ?_⟩
  unfold through
  rw [he service []]

/-- **A call that returns.** -/
theorem through_of_result (h : s.dispatched? = some d)
    (hq : service [] d.query s.connection = .result q) :
    through service s = ⟨.ok ⟨d, q⟩, d.lines.map .logged
      ++ [.executed d.query s.connection, .logged (Executed.successLine ⟨d, q⟩)]⟩ := by
  have settled : (service ([].filterMap Event.sent?) d.query s.connection).settle d.callee.sqlName
      = .ok q := congrArg (Reply.settle d.callee.sqlName) hq
  unfold through
  rw [run_conduct h, settled]
  rfl

/-- **A call that is dispatched and fails.** -/
theorem through_of_failure (h : s.dispatched? = some d)
    (he : (service [] d.query s.connection).settle d.callee.sqlName = .error e) :
    through service s
      = ⟨.error e, d.lines.map .logged ++ [.executed d.query s.connection]⟩ := by
  have settled : (service ([].filterMap Event.sent?) d.query s.connection).settle d.callee.sqlName
      = .error e := he
  unfold through
  rw [run_conduct h, settled]
  rfl

/-- The events of a dispatched call are its lines, its statement, and at most one more
line. -/
theorem exists_events (h : s.dispatched? = some d) (service : Service) :
    ∃ lines : List Text, (through service s).events
      = d.lines.map .logged ++ .executed d.query s.connection :: lines.map .logged := by
  unfold through
  rw [run_conduct h]
  cases (service _ d.query s.connection).settle d.callee.sqlName with
  | ok q => exact ⟨[Executed.successLine ⟨d, q⟩], rfl⟩
  | error e => exact ⟨[], rfl⟩

theorem executed_through (service : Service) (s : Settings) : (through service s).executed
    = (s.dispatched?.map fun d => (d.query, s.connection)).toList := by
  cases h : s.dispatched? with
  | none =>
    obtain ⟨e, he⟩ := exists_rejected h
    rw [he]
    rfl
  | some d =>
    obtain ⟨lines, hevents⟩ := exists_events h service
    unfold executed
    rw [hevents, List.filterMap_append, filterMap_sent?_logged, List.nil_append]
    exact congrArg ((d.query, s.connection) :: ·) (filterMap_sent?_logged lines)

theorem reports_output (d : Dispatched) (q : QueryResult) :
    Executed.Reports d q (Executed.output ⟨d, q⟩) := ⟨rfl, rfl, _, rfl, rfl, rfl, rfl⟩

/-- **Every run is conducted** with the service that it is given, as that is before
it was sent anything. -/
theorem conducted_through (service : Service) (s : Settings) :
    Conducted (service []) s (through service s) := by
  refine ⟨executed_through service s, fun h => ?_, fun d q h hreply => ?_,
    fun d message h hreply => ?_, fun d message h hreply => ?_, fun d h => ?_⟩
  · obtain ⟨e, he⟩ := exists_rejected h
    rw [he]
    exact ⟨⟨e, rfl⟩, rfl⟩
  · rw [through_of_result h hreply]
    exact ⟨⟨_, rfl, reports_output d q⟩, filterMap_line?_logged _ _⟩
  · rw [through_of_failure h (congrArg (Reply.settle _) hreply)]
    exact ⟨rfl, (filterMap_line?_logged _ _).trans (List.append_nil _)⟩
  · rw [through_of_failure h (congrArg (Reply.settle _) hreply)]
    exact ⟨rfl, (filterMap_line?_logged _ _).trans (List.append_nil _)⟩
  · exact (exists_events h service).imp' _ fun _ hevents => hevents

end Run

/-! ## A session -/

/-- A call: the settings that it is made with, or why they are refused. -/
abbrev Attempt := Except SettingError Settings

namespace Session

/-- What becomes of a call to a service that was sent something before. With settings
that are refused there is no run. -/
def attempt (service : Service) (before : List (Text × Connection)) (a : Attempt) :
    Except SettingError Run :=
  a.map (Run.through fun own => service (before ++ own))

/-- What the service was sent. -/
def sent : Except SettingError Run → List (Text × Connection)
  | .ok r => r.executed
  | .error _ => []

/-- **The calls of a session**, one after another, to a service that was sent
something before. -/
def runs (service : Service) (before : List (Text × Connection)) :
    List Attempt → List (Except SettingError Run)
  | [] => []
  | a :: rest =>
    attempt service before a :: runs service (before ++ sent (attempt service before a)) rest

/-- What a call sends to the service, if anything: its statement, if the
settings are accepted and the call is dispatched. -/
def sentBy? (a : Attempt) : Option (Text × Connection) :=
  a.toOption.bind fun s => s.dispatched?.map fun d => (d.query, s.connection)

/-- What the calls in front of a place in a session send. -/
def history (calls : List Attempt) (i : ℕ) : List (Text × Connection) :=
  (calls.take i).filterMap sentBy?

variable {service service' : Service} {before : List (Text × Connection)}
  {calls calls' : List Attempt} {a : Attempt}

/-- **How the calls of a session are conducted** with a service. -/
structure Conducted (service : Service) (calls : List Attempt)
    (outcomes : List (Except SettingError Run)) : Prop where
  length : outcomes.length = calls.length
  /-- The service is sent one statement for each call that is dispatched. -/
  sent : outcomes.flatMap sent = calls.filterMap sentBy?
  /-- Settings that are refused end the call. -/
  refused : ∀ (i : ℕ) (e : SettingError), calls[i]? = some (.error e) →
    outcomes[i]? = some (.error e)
  /-- Any other call is conducted with the service as it is then. -/
  conducted : ∀ (i : ℕ) (s : Settings), calls[i]? = some (.ok s) →
    ∃ r, outcomes[i]? = some (.ok r) ∧ Run.Conducted (service (history calls i)) s r

end Session

end CortexCall
