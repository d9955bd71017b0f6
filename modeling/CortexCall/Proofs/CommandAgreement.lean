import CortexCall.CommandLine.Basic
import CortexCall.Proofs.DispatchOutcome
import CortexCall.Proofs.Session
import CortexCall.Proofs.SettledPayload

/-!
# The command and the run agree

A call can be rendered by the command or be run, and the two are put together
apart from each other: what is not given is looked up at another place, blank
arguments are refused in other words, and what comes out is printed in one case
and reported in the other. `command_agrees_with_run` says that they never drift
apart. The command succeeds exactly if a run with the same settings does, given an
executor that does not fail; then what is printed is JSON and shows the statement
that is executed and the name and the echo that are reported; and otherwise
nothing is printed and nothing is executed.

Both end in one dispatch, so it is enough that this is the same one, up to what
an unsuccessful dispatch says – `agrees_of_render`. From an empty command line this
is plain. With a function and arguments on it there is one text that the command
line does not hand on, two dashes, and this is neither a name nor JSON.
-/

namespace CortexCall

/-! ## What is printed is JSON -/

namespace Json

/-- **A printed value on a line is read as what was printed.** -/
theorem read_print_line {l : Layout} (hl : l.IsSound) (d : Dialect) {v : Json}
    (regular : v.IsRegular) (finite : v.allFinite = true) :
    read d (v.print l ++ "\n".toText) = .ok v := by
  have newline : Space "\n".toText [] := ⟨"\n".toText, by decide, rfl⟩
  exact read_eq_ok_iff.mpr ⟨v.nesting, _, "\n".toText, .refl _,
    derives_printAt hl 0 v regular finite _ (Nat.le_refl _) _, newline⟩

end Json

/-- The echo of a dispatched call can be printed and read again. -/
theorem isRegular_request {function args : Option Text} {level : LogLevel} {d : Dispatched}
    (h : dispatch function args level = .ok d) :
    d.request.IsRegular ∧ d.request.allFinite = true := by
  obtain ⟨p, hp⟩ := exists_accept_of_dispatch h
  obtain ⟨-, sql, -, hd⟩ := (dispatch_eq_ok_iff hp).mp h
  have request : d.request = .obj p.echoMembers := congrArg Dispatched.request hd
  have hp := (accept_eq_ok_iff.mp hp).2
  obtain ⟨m, -, taken⟩ := Payload.exists_of_ofText hp
  have fields := taken.nodup d.callee.function.parameters_nodup
  rw [request]
  exact ⟨Payload.isRegular_echo fields (Payload.isRegular_of_mem hp), p.allFinite_echo⟩

namespace CommandLine

/-- The text that the command prints; nothing if it breaks off. -/
def printedBy : Except Failure Outcome → Text
  | .ok o => o.printed
  | .error _ => []

/-- Whether the command ends with the exit code zero. -/
def Succeeds (shown : Except Failure Outcome) : Prop := ∃ o, shown = .ok o ∧ o.exit = 0

/-- **The command agrees with a run** of the same call. -/
structure AgreesWith (shown : Except Failure Outcome) (r : Run) : Prop where
  /-- The command succeeds if the run returns, and not otherwise. -/
  succeeds : Succeeds shown ↔ ∃ e, r.outcome = .ok e
  /-- Then one statement is executed, and what is printed is an object with this
  statement and with the name and the echo that the run reports. -/
  returned : ∀ e, r.outcome = .ok e → ∃ (sql : Text) (connection : Connection)
    (printed name request : Json), r.executed = [(sql, connection)]
      ∧ (∀ d, Json.read d (printedBy shown) = .ok printed)
      ∧ printed.member? "sql".toText = some (.str sql)
      ∧ printed.member? "function".toText = some name
      ∧ e.output.member? "function".toText = some name
      ∧ printed.member? "request".toText = some request
      ∧ e.output.member? "request".toText = some request
  /-- Otherwise nothing is printed and nothing is executed. -/
  rejected : (¬ ∃ e, r.outcome = .ok e) → printedBy shown = [] ∧ r.executed = []

/-! ## From the dispatch to what is printed -/

section Agreement

variable {g : Given} {s : Settings} {executor : Executor} {d : Dispatched}
  {records : List Record} {rank : ℕ}

theorem isRegular_report (h : d.request.IsRegular ∧ d.request.allFinite = true) :
    (report d).IsRegular ∧ (report d).allFinite = true := by
  refine ⟨⟨?_, trivial, trivial, h.1, trivial⟩, ?_⟩
  · show ["function".toText, "sql".toText, "request".toText].Nodup
    decide
  · exact Json.membersFinite_iff.mpr (by simp [Json.allFinite, h.2])

/-- A command that fails without printing agrees with a run that is rejected. -/
theorem agrees_of_failure {shown : Except Failure Outcome} (h : ¬ Succeeds shown)
    (printed : printedBy shown = []) (e : DispatchError) :
    AgreesWith shown ⟨.error (.dispatch e), []⟩ :=
  ⟨iff_of_false h nofun, nofun, fun _ => ⟨printed, rfl⟩⟩

/-- **The command agrees with a run** if both dispatch the same call, or none. -/
theorem agrees_of_render (succeeds : ∀ sql c, ∃ q, executor sql c = .result q) {s' : Settings}
    (same : (dispatchGiven g s').toOption = s.dispatched?) :
    AgreesWith ((render g s').map fun o => (o.after records).above rank)
      (Run.once s executor) := by
  unfold render
  cases hd : dispatchGiven g s' with
  | ok d =>
    rw [hd] at same
    obtain ⟨q, hq⟩ := succeeds d.query s.connection
    have executed : (Run.once s executor).executed = [(d.query, s.connection)] := by
      unfold Run.once
      rw [Run.executed_through, ← same]
      rfl
    have returned : (Run.once s executor).outcome = .ok ⟨d, q⟩ :=
      congrArg Run.outcome (Run.through_of_result same.symm hq)
    have regular := isRegular_report (isRegular_request hd)
    refine ⟨iff_of_true ⟨_, rfl, rfl⟩ ⟨_, returned⟩, fun e he => ?_,
      fun h => absurd ⟨_, returned⟩ h⟩
    obtain rfl := Except.ok.inj (returned.symm.trans he)
    refine ⟨d.query, s.connection, report d, .str d.callee.sqlName, d.request, executed,
      fun dialect => ?_, rfl, rfl, rfl, rfl, rfl⟩
    exact Json.read_print_line Json.Layout.isSound_indented dialect regular.1 regular.2
  | error e =>
    rw [hd] at same
    obtain ⟨e', he'⟩ := Run.exists_rejected same.symm
    unfold Run.once
    rw [he']
    cases e with
    | request e =>
      refine agrees_of_failure ?_ rfl e'
      rintro ⟨o, ⟨⟩, hexit⟩
      cases hexit
    | build e => exact agrees_of_failure (fun ⟨o, ho, _⟩ => nomatch ho) rfl e'
    | echo e => exact agrees_of_failure (fun ⟨o, ho, _⟩ => nomatch ho) rfl e'

end Agreement

/-! ## From the command line to the dispatch -/

section Words

variable {stem t : Text} {s : Switch}

/-- A word is split where its first equals sign stands. -/
theorem splitEquals_append (h : CodePoint.char '=' ∉ stem) (t : Text) :
    splitEquals (stem ++ .char '=' :: t) = some (stem, t) := by
  have before : ∀ c ∈ stem, (c != .char '=') = true := fun c hc =>
    bne_iff_ne.mpr fun e => h (e ▸ hc)
  unfold splitEquals
  rw [List.dropWhile_append_of_pos before, List.takeWhile_append_of_pos before]
  simp

/-- No spelling of an option has an equals sign in it. -/
theorem lookup_spellings_eq_none (h : CodePoint.char '=' ∈ t) : spellings.lookup t = none := by
  have without : ∀ p ∈ spellings, CodePoint.char '=' ∉ p.1 := by decide
  refine List.lookup_eq_none_iff.mpr fun p hp => ?_
  exact bne_iff_ne.mpr fun e => without p hp (e ▸ h)

/-- **A long option with a value behind an equals sign** is classified as such,
whatever the value. -/
theorem classify_attached (listed : spellings.lookup stem = some s)
    (long : "--".toText <+: stem) (h : CodePoint.char '=' ∉ stem) (t : Text) :
    classify (stem ++ .char '=' :: t) = .ok (.option s (.value t)) := by
  have mem : CodePoint.char '=' ∈ stem ++ .char '=' :: t :=
    List.mem_append_right _ List.mem_cons_self
  have unlisted : optionOf (stem ++ .char '=' :: t) .nothing = none := by
    unfold optionOf
    rw [lookup_spellings_eq_none mem]
    rfl
  have attached : behindEquals stem t = .value t := by
    unfold behindEquals
    rw [List.isPrefixOf_iff_prefix.mpr long, Bool.or_true]
    rfl
  have option : optionOf stem (.value t) = some (.option s (.value t)) := by
    unfold optionOf
    rw [listed]
    rfl
  obtain ⟨rest, rfl⟩ := long
  have dash : ("--".toText ++ rest ++ .char '=' :: t).head? = some '-' := rfl
  have longer : ("--".toText ++ rest ++ .char '=' :: t).length ≠ 1 := by
    simp [String.toText]
  unfold classify
  rw [if_neg (not_not.mpr dash), unlisted]
  dsimp only
  rw [if_neg longer, splitEquals_append h, Option.bind_some, attached, option]

/-- **The values of both options come through**, but for two dashes. -/
theorem parse_attached (f a : Text) :
    parse ["--function=".toText ++ f, "--args=".toText ++ a]
      = .ok { function := some (attachedValue f), args := some (attachedValue a) } := by
  have function : classify ("--function=".toText ++ f) = .ok (.option .function (.value f)) := by
    have listed : spellings.lookup "--function".toText = some .function := by decide
    exact classify_attached listed (by decide) (by decide) f
  have args : classify ("--args=".toText ++ a) = .ok (.option .args (.value a)) := by
    have listed : spellings.lookup "--args".toText = some .args := by decide
    exact classify_attached listed (by decide) (by decide) a
  have words : classifyAll ["--function=".toText ++ f, "--args=".toText ++ a]
      = .ok [.option .function (.value f), .option .args (.value a)] := by
    unfold classifyAll classifyAll classifyAll
    rw [if_neg nofun, if_neg nofun, function, args]
    rfl
  unfold parse
  rw [words]
  rfl

end Words

/-- A name or an argument text that is two dashes is dispatched by neither side. -/
theorem toOption_dispatch_attached (f a : Text) (level : LogLevel) :
    (dispatch (some (attachedValue f)) (some (attachedValue a)) level).toOption
      = (dispatch (some f) (some a) level).toOption := by
  by_cases hf : f = "--".toText
  · have dashes : ∀ c, Callee.resolve (some "--".toText) ≠ .ok c := fun c h => by
      have failed : (Callee.resolve (some "--".toText)).toOption = none := by decide
      rw [h] at failed
      cases failed
    have nothing : ∀ c, Callee.resolve (some []) ≠ .ok c := fun c h => by cases h
    rw [hf, toOption_dispatch_of_unresolved dashes]
    exact toOption_dispatch_of_unresolved nothing
  · by_cases ha : a = "--".toText
    · have dashes : Request.object? (some "--".toText) = none :=
        Option.isNone_iff_eq_none.mp (by decide)
      rw [ha, toOption_dispatch_of_no_object dashes]
      exact toOption_dispatch_of_no_object (object?_of_blank rfl)
    · unfold attachedValue
      rw [if_neg hf, if_neg ha]

section Threshold

variable {env : Variables}

/-- A name of a threshold, or none, is one. -/
theorem exists_rank (h : ∀ t, env.lookup thresholdVariable = some t →
    t = [] ∨ Text.upper t ∈ thresholds.map Prod.fst) :
    ∃ rank, thresholds.lookup (thresholdName env) = some rank := by
  have listed : thresholdName env ∈ thresholds.map Prod.fst := by
    unfold thresholdName
    split
    · decide
    · decide
    · next t hne ht => exact (h t ht).resolve_left hne
  obtain ⟨p, hp, hname⟩ := List.mem_map.mp listed
  exact Option.isSome_iff_exists.mp (List.lookup_isSome_iff.mpr ⟨p, hp, by simp [hname]⟩)

end Threshold

/-- **The command and the run agree**, in every environment and beside every file
of variables, if the threshold of the log is one and the executor does not fail:
on an empty command line, and on one that gives a function and arguments, where
the run is of the same settings with this function and these arguments. -/
theorem command_agrees_with_run (env : Variables) (file : Option Text) (executor : Executor)
    (threshold : ∀ t, env.lookup thresholdVariable = some t →
      t = [] ∨ Text.upper t ∈ thresholds.map Prod.fst)
    (succeeds : ∀ sql c, ∃ q, executor sql c = .result q) :
    AgreesWith (run [] env file) (Run.once (.load env file) executor)
      ∧ ∀ f a, AgreesWith (run ["--function=".toText ++ f, "--args=".toText ++ a] env file)
        (Run.once { Settings.load env file with function := f, args := some a } executor) := by
  obtain ⟨rank, hrank⟩ := exists_rank threshold
  have rendered : ∀ argv g, parse argv = .ok g → run argv env file
      = (render g (.load env file)).map fun o => (o.after (fileWarnings file)).above rank := by
    intro argv g hg
    unfold run
    rw [hg]
    dsimp only
    rw [hrank]
  refine ⟨?_, fun f a => ?_⟩
  · rw [rendered [] {} rfl]
    exact agrees_of_render succeeds (toOption_dispatch _)
  · rw [rendered _ _ (parse_attached f a)]
    refine agrees_of_render succeeds ?_
    rw [← toOption_dispatch]
    exact toOption_dispatch_attached f a _

/-- An environment in which a sentiment is configured. -/
def sentimentEnvironment : Variables :=
  [("AI_FUNCTION".toText, "ai_sentiment".toText), ("LOG_LEVEL".toText, "debug".toText),
   ("AI_ARGS".toText, "\x7b\"text\":\"\u00fcber \\\"x\\\"\"\x7d".toText)]

/-- An executor that returns no rows. -/
def emptyHanded : Executor := fun _ _ => .result ⟨[], 0, none⟩

/-- The configured sentiment is rendered and run, and a filter that is asked for
instead is not: its predicate is missing. -/
theorem command_agrees_with_run_sentiment :
    AgreesWith (run [] sentimentEnvironment none)
        (Run.once (.load sentimentEnvironment none) emptyHanded)
      ∧ Succeeds (run [] sentimentEnvironment none)
      ∧ printedBy (run ["--function=".toText ++ "AI_FILTER".toText, "--args=".toText
        ++ "\x7b\x7d".toText] sentimentEnvironment none) = [] := by
  have threshold : ∀ t, sentimentEnvironment.lookup thresholdVariable = some t →
      t = [] ∨ Text.upper t ∈ thresholds.map Prod.fst := by
    intro t ht
    have named : sentimentEnvironment.lookup thresholdVariable = some "debug".toText := by decide
    obtain rfl := Option.some.inj (named.symm.trans ht)
    decide
  obtain ⟨configured, given⟩ := command_agrees_with_run sentimentEnvironment none emptyHanded
    threshold fun _ _ => ⟨_, rfl⟩
  have asked := given "AI_FILTER".toText "\x7b\x7d".toText
  have returns : (Run.once (.load sentimentEnvironment none) emptyHanded).outcome.toOption.isSome
      = true := by
    decide +kernel
  have fails : (Run.once { Settings.load sentimentEnvironment none with
      function := "AI_FILTER".toText, args := some "\x7b\x7d".toText }
      emptyHanded).outcome.toOption.isSome = false := by
    decide +kernel
  refine ⟨configured, configured.succeeds.mpr ?_, (asked.rejected ?_).1⟩
  · obtain ⟨e, he⟩ := Option.isSome_iff_exists.mp returns
    exact ⟨e, toOption_eq_some_iff.mp he⟩
  · rintro ⟨e, he⟩
    rw [he] at fails
    cases fails

end CommandLine

end CortexCall
