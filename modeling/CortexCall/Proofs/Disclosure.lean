import CortexCall.Proofs.Session

/-!
# What the minimal log discloses

At the minimal level a call is logged by its summary, and a summary is meant to
say what sort of call it is and nothing of what the call is about. How much of
a field may be seen is a matter of the field: a model is named, a prompt is
measured, of options there are the names, and of a file only that there is one.
`Field.disclosure` is the table, and two payloads that look the same as far as
it goes have the same **outline**.

`minimal_log_of_outline` is that the log shows no more than the outline. Whatever
else is different between two calls – the texts, the files, the values of
options, the descriptions of labels, the whole of a response format – their
lines are the same, and what is logged of their runs differs in nothing but the
identifier of the query and the number of rows.

The summary asks for the fields through a few accessors, and each of them shows of a
value what one kind of disclosure allows. So there is one lemma for each accessor,
and the summaries are compared line by line.
-/

namespace CortexCall

/-! ## Outlines -/

/-- **How much of the value of a field may be seen.** -/
inductive Disclosure where
  /-- All of it. -/
  | content
  /-- Its labels in order. -/
  | labels
  /-- The names in it in order. -/
  | names
  /-- The number of its entries. -/
  | count
  /-- Whether it is a text, and how long a text. -/
  | length
  /-- Only that it is given. -/
  | presence
deriving DecidableEq, Repr

namespace Value

/-- Whether two values are the same text or the same flag. -/
def SameContent : Value → Value → Prop
  | .text t, .text t' => t = t'
  | .flag b, .flag b' => b = b'
  | _, _ => False

instance : (v v' : Value) → Decidable (SameContent v v')
  | .text t, .text t' => inferInstanceAs (Decidable (t = t'))
  | .flag b, .flag b' => inferInstanceAs (Decidable (b = b'))
  | .text _, .flag _ | .text _, .json _ | .text _, .labels _ | .text _, .categories _
  | .text _, .file _ | .flag _, .text _ | .flag _, .json _ | .flag _, .labels _
  | .flag _, .categories _ | .flag _, .file _ | .json _, _ | .labels _, _ | .categories _, _
  | .file _, _ => isFalse id

theorem SameContent.eq : {v v' : Value} → SameContent v v' → v = v'
  | .text _, .text _, h => congrArg Value.text h
  | .flag _, .flag _, h => congrArg Value.flag h

/-- The length of a text; other values have none. -/
def length? : Value → Option ℕ
  | .text t => some t.length
  | _ => none

end Value

namespace Disclosure

/-- Whether two values look the same, as far as they may be seen. -/
def Agree (v v' : Value) : Disclosure → Prop
  | .content => v.SameContent v'
  | .labels => v.labelTexts = v'.labelTexts
  | .names => v.memberNames = v'.memberNames
  | .count => v.entryCount = v'.entryCount
  | .length => v.length? = v'.length?
  | .presence => True

instance (v v' : Value) : (d : Disclosure) → Decidable (d.Agree v v')
  | .content => inferInstanceAs (Decidable (v.SameContent v'))
  | .labels => inferInstanceAs (Decidable (v.labelTexts = v'.labelTexts))
  | .names => inferInstanceAs (Decidable (v.memberNames = v'.memberNames))
  | .count => inferInstanceAs (Decidable (v.entryCount = v'.entryCount))
  | .length => inferInstanceAs (Decidable (v.length? = v'.length?))
  | .presence => isTrue trivial

/-- Whether a field looks the same: it is given on both sides and the values do,
or on neither. -/
def AgreeOn (d : Disclosure) : Option Value → Option Value → Prop
  | none, none => True
  | some v, some v' => d.Agree v v'
  | _, _ => False

instance (d : Disclosure) : (o o' : Option Value) → Decidable (d.AgreeOn o o')
  | none, none => isTrue trivial
  | some v, some v' => inferInstanceAs (Decidable (d.Agree v v'))
  | none, some _ | some _, none => isFalse id

end Disclosure

/-- **What may be seen of each field** of a function. -/
def Field.disclosure (f : AiFunction) : Field → Disclosure
  | .model | .functionName | .modelName | .showDetails => .content
  | .prompt | .text | .input | .inputText | .predicate => .length
  | .modelParameters | .options | .configObject => .names
  | .categories => if f = .countTokens then .count else .labels
  | .responseFormat => if f = .extract then .count else .presence
  | .file | .inputFile | .input1 | .input2 | .input1File | .input2File => .presence

theorem Field.mem_all (f : Field) : f ∈ all := by cases f <;> decide

namespace Payload

/-- **Payloads with the same outline**: the same function is called, and each
field looks the same. -/
structure SameOutline (p p' : Payload) : Prop where
  function : p.function = p'.function
  fields : ∀ f : Field, (f.disclosure p.function).AgreeOn (p.get? f) (p'.get? f)

instance (p p' : Payload) : Decidable (p.SameOutline p') :=
  decidable_of_iff (p.function = p'.function
      ∧ ∀ f ∈ Field.all, (f.disclosure p.function).AgreeOn (p.get? f) (p'.get? f))
    ⟨fun h => ⟨h.1, fun f => h.2 f f.mem_all⟩, fun h => ⟨h.1, fun f _ => h.2 f⟩⟩

namespace SameOutline

variable {p p' : Payload} {f : Field} {α : Type}

/-! ## What the summary asks for -/

/-- **What is said of a value** is the same if it may be seen. -/
theorem map_get?_eq (h : p.SameOutline p') {g : Value → α}
    (hg : ∀ v v', (f.disclosure p.function).Agree v v' → g v = g v') :
    (p.get? f).map g = (p'.get? f).map g := by
  have agree := h.fields f
  unfold Disclosure.AgreeOn at agree
  split at agree
  · next hv hv' => rw [hv, hv']
  · next v v' hv hv' =>
    rw [hv, hv']
    exact congrArg some (hg v v' agree)
  · exact agree.elim

theorem has_eq (h : p.SameOutline p') (f : Field) : p.has f = p'.has f := by
  have same := congrArg Option.isSome (h.map_get?_eq (f := f) (g := fun _ => ()) fun _ _ _ => rfl)
  rwa [Option.isSome_map, Option.isSome_map] at same

theorem get?_eq (h : p.SameOutline p') (hf : f.disclosure p.function = .content) :
    p.get? f = p'.get? f := by
  have same := h.map_get?_eq (f := f) (g := id) fun v v' agree => by
    rw [hf] at agree
    exact Value.SameContent.eq agree
  rwa [Option.map_id, id, id] at same

theorem textOf_eq (h : p.SameOutline p') (hf : f.disclosure p.function = .content) :
    p.textOf f = p'.textOf f := by
  unfold textOf
  rw [h.get?_eq hf]

theorem lengthOf_eq (h : p.SameOutline p') (hf : f.disclosure p.function = .length) :
    p.lengthOf f = p'.lengthOf f := by
  unfold lengthOf
  rw [h.map_get?_eq fun v v' agree => ?_]
  rw [hf] at agree
  have measured : ∀ w : Value, w.textLength = w.length?.getD 0 := fun w => by cases w <;> rfl
  have agree : v.length? = v'.length? := agree
  rw [measured, measured, agree]

theorem namesOf_eq (h : p.SameOutline p') (hf : f.disclosure p.function = .names) :
    p.namesOf f = p'.namesOf f := by
  unfold namesOf
  rw [h.map_get?_eq fun v v' agree => ?_]
  rw [hf] at agree
  exact agree

theorem labelsOf_eq (h : p.SameOutline p') (hf : f.disclosure p.function = .labels) :
    p.labelsOf f = p'.labelsOf f := by
  unfold labelsOf
  rw [h.map_get?_eq fun v v' agree => ?_]
  rw [hf] at agree
  exact agree

theorem countOf_eq (h : p.SameOutline p') (hf : f.disclosure p.function = .count) :
    p.countOf f = p'.countOf f := by
  unfold countOf
  rw [h.map_get?_eq fun v v' agree => ?_]
  rw [hf] at agree
  exact agree

theorem sourceLine_eq (h : p.SameOutline p') (prose document : Field)
    (hf : prose.disclosure p.function = .length) :
    p.sourceLine prose document = p'.sourceLine prose document := by
  unfold sourceLine
  rw [h.has_eq, h.lengthOf_eq hf]

/-- What is classified is measured if it is a text, and is an object otherwise. -/
theorem inputLine_eq {o o' : Option Value} : Disclosure.length.AgreeOn o o' →
    (match o with
      | some (.text t) => lengthLine "Input length".toText t.length
      | _ => "Input: object".toText)
      = match o' with
        | some (.text t) => lengthLine "Input length".toText t.length
        | _ => "Input: object".toText := by
  intro agree
  match o, o', agree with
  | none, none, _ => rfl
  | some v, some v', agree =>
    have lengths : v.length? = v'.length? := agree
    cases v with
    | text t =>
      cases v' with
      | text t' => exact congrArg (lengthLine "Input length".toText) (Option.some.inj lengths)
      | _ => cases lengths
    | _ =>
      cases v' with
      | text t' => cases lengths
      | _ => rfl

/-- **The summary shows no more than the outline.** -/
theorem summary_eq (h : p.SameOutline p') : p.summary = p'.summary := by
  have labels : p.function ≠ .countTokens → p.labelsOf .categories = p'.labelsOf .categories :=
    fun hne => h.labelsOf_eq (if_neg hne)
  unfold summary
  rw [← h.function]
  cases hp : p.function <;> dsimp only
  case complete =>
    rw [h.textOf_eq (f := .model) rfl, h.lengthOf_eq (f := .prompt) rfl,
      h.namesOf_eq (f := .modelParameters) rfl, h.has_eq, h.get?_eq (f := .showDetails) rfl]
  case extract =>
    have count : Field.responseFormat.disclosure p.function = .count := if_pos hp
    rw [h.sourceLine_eq .text .file rfl, h.countOf_eq count]
  case sentiment =>
    rw [h.lengthOf_eq (f := .text) rfl, labels (by rw [hp]; decide)]
  case classify =>
    rw [labels (by rw [hp]; decide), h.namesOf_eq (f := .configObject) rfl]
    exact congrArg (fun l => [l, _] ++ _) (inputLine_eq (h.fields .input))
  case countTokens =>
    have count : Field.categories.disclosure p.function = .count := if_pos hp
    rw [h.textOf_eq (f := .functionName) rfl, h.has_eq, h.textOf_eq (f := .modelName) rfl,
      h.countOf_eq count, h.lengthOf_eq (f := .inputText) rfl]
  case embed =>
    rw [h.textOf_eq (f := .model) rfl, h.sourceLine_eq .input .inputFile rfl]
  case similarity =>
    unfold usesFiles
    rw [h.has_eq, h.namesOf_eq (f := .configObject) rfl]
  case parseDocument => rw [h.namesOf_eq (f := .options) rfl]
  case filter => rw [h.lengthOf_eq (f := .predicate) rfl, h.has_eq]

end SameOutline

end Payload

/-! ## What is logged -/

/-- What a reply discloses: the query and the number of rows of a result. -/
def Reply.verdict : Reply → Option (Option Text × ℤ)
  | .result q => some (q.queryId, q.rowCount)
  | .executionFailed _ => none
  | .broke _ => none

/-- The line that is logged of a verdict. -/
def Executed.remark (verdict : Option Text × ℤ) : Text :=
  "Cortex AI SQL call succeeded query_id=".toText ++ verdict.1.getD "None".toText
    ++ " rows=".toText ++ Text.ofInt verdict.2

/-- The settings ask for a call at the minimal level. -/
structure Settings.Asks (s : Settings) (function : Text) (args : Option Text) : Prop where
  function : s.function = function
  args : s.args = args
  level : s.connection.logLevel = .minimal

/-- **A run logs the lines of its call**, and of the reply only the verdict. -/
theorem Run.log_once {s : Settings} {d : Dispatched} (h : s.dispatched? = some d)
    (executor : Executor) : (once s executor).log
      = d.lines ++ ((executor d.query s.connection).verdict.map Executed.remark).toList := by
  have conducted : Conducted executor s (once s executor) :=
    conducted_through (fun _ => executor) s
  cases hreply : executor d.query s.connection with
  | result q => exact (conducted.returned d q h hreply).2
  | executionFailed message =>
    exact (conducted.failed d message h hreply).2.trans (List.append_nil _).symm
  | broke message =>
    exact (conducted.broke d message h hreply).2.trans (List.append_nil _).symm

section Log

variable {function function' : Text} {args args' : Option Text} {c : Callee} {p p' : Payload}

/-- The lines of a call at the minimal level. -/
theorem lines_of_accepted (hp : accept (some function) args = .ok (c, p)) {d : Dispatched}
    (hd : dispatch (some function) args .minimal = .ok d) :
    d.lines = Payload.line "Function".toText c.sqlName :: p.summary := by
  obtain ⟨-, sql, -, rfl⟩ := (dispatch_eq_ok_iff hp).mp hd
  rfl

/-- **Calls with the same outline have the same lines at the minimal level**, and
their runs log these lines and behind them, if the executor returns, a line with
the query and the number of rows. -/
theorem minimal_log_of_outline (hp : accept (some function) args = .ok (c, p))
    (hp' : accept (some function') args' = .ok (c, p')) (outline : p.SameOutline p') :
    ∃ lines : List Text,
      (∀ d, dispatch (some function) args .minimal = .ok d → d.lines = lines)
      ∧ (∀ d, dispatch (some function') args' .minimal = .ok d → d.lines = lines)
      ∧ ∀ s : Settings, s.Asks function args ∨ s.Asks function' args' →
        ∀ d, s.dispatched? = some d → ∀ executor, (Run.once s executor).log
          = lines ++ ((executor d.query s.connection).verdict.map Executed.remark).toList := by
  have first := fun d hd => lines_of_accepted (d := d) hp hd
  have second := fun d hd => lines_of_accepted (d := d) hp' hd
  rw [← outline.summary_eq] at second
  refine ⟨_, first, second, fun s asks d hd executor => ?_⟩
  rw [Run.log_once hd]
  have returned := dispatched?_eq_some_iff.mp hd
  obtain asks | asks := asks
  · rw [asks.function, asks.args, asks.level] at returned
    rw [first d returned]
  · rw [asks.function, asks.args, asks.level] at returned
    rw [second d returned]

end Log

/-- Arguments of a completion with a prompt, the value of an option and a format. -/
def completionWith (prompt temperature format : Text) : Text :=
  "\x7b\"model\":\"m\",\"prompt\":\"".toText ++ prompt
    ++ "\",\"options\":\x7b\"temperature\":".toText ++ temperature
    ++ "\x7d,\"response_format\":\x7b\"".toText ++ format ++ "\":[]\x7d\x7d".toText

/-- Two completions that share nothing but the length of the prompt and the name of
the option are logged alike. -/
theorem minimal_log_of_outline_complete : ∃ d d',
    dispatch (some "AI_COMPLETE".toText)
        (some (completionWith "yes".toText "0.5".toText "type".toText)) .minimal = .ok d
      ∧ dispatch (some "ai_complete".toText)
        (some (completionWith "no!".toText "1".toText "schema".toText)) .minimal = .ok d'
      ∧ d.query ≠ d'.query ∧ d.lines = d'.lines := by
  have accepted : ((accept (some "AI_COMPLETE".toText)
        (some (completionWith "yes".toText "0.5".toText "type".toText))).toOption.bind fun r =>
      (accept (some "ai_complete".toText)
        (some (completionWith "no!".toText "1".toText "schema".toText))).toOption.map fun r' =>
      decide (r.1 = r'.1 ∧ r.2.SameOutline r'.2)) = some true := by
    decide +kernel
  have queries : ((dispatch (some "AI_COMPLETE".toText)
        (some (completionWith "yes".toText "0.5".toText "type".toText)) .minimal).toOption.bind
      fun d => (dispatch (some "ai_complete".toText)
        (some (completionWith "no!".toText "1".toText "schema".toText)) .minimal).toOption.map
      fun d' => decide (d.query ≠ d'.query)) = some true := by
    decide +kernel
  obtain ⟨⟨c, p⟩, hp, accepted⟩ := Option.bind_eq_some_iff.mp accepted
  obtain ⟨⟨c', p'⟩, hp', accepted⟩ := Option.map_eq_some_iff.mp accepted
  obtain ⟨same, outline⟩ := of_decide_eq_true accepted
  obtain rfl : c = c' := same
  obtain ⟨d, hd, queries⟩ := Option.bind_eq_some_iff.mp queries
  obtain ⟨d', hd', queries⟩ := Option.map_eq_some_iff.mp queries
  rw [toOption_eq_some_iff] at hp hp' hd hd'
  obtain ⟨lines, first, second, -⟩ := minimal_log_of_outline hp hp' outline
  exact ⟨d, d', hd, hd', of_decide_eq_true queries, (first d hd).trans (second d' hd').symm⟩

end CortexCall
