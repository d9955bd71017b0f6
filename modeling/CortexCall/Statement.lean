import CortexCall.Sql.Call
import CortexCall.Request.Payload

/-!
# Statements

A payload becomes a statement by putting the values of its fields into the
slots of a call. Which slots a callee has is data again: a list of fields,
each with the key under which it is passed, if it is passed by name. A field
that is not given leaves its slot out.

Positional calls rely on this leaving no gap. It does not, because the
function's rule says that exactly one of two sources is given, and the slots
of the two stand next to each other.

The older form of `AI_COMPLETE` differs: it takes the model, the prompt, and
one object in which the model parameters and the response format are merged.
An empty object is left out.
-/

namespace CortexCall

/-- Why a payload has no statement. -/
inductive BuildError where
  /-- There is no function of this name. -/
  | unknownFunction (name : Text)
  /-- The payload belongs to another function. -/
  | wrongRecord (expected got : AiFunction)
  /-- An argument has no SQL text. -/
  | render (e : Sql.RenderError)
deriving DecidableEq, Repr

namespace BuildError

/-- The failure in words. -/
def message : BuildError → Text
  | .unknownFunction name => "Unsupported function: ".toText ++ name
  | .wrongRecord expected got =>
    "Expected ".toText ++ expected.recordName ++ ", got ".toText ++ got.recordName
  | .render e => e.message

end BuildError

namespace FileRef

/-- The call that yields a file. -/
def expressionText : FileRef → Text
  | .expression t => t
  | .location stage path =>
    "TO_FILE(".toText ++ Sql.quote stage ++ ", ".toText ++ Sql.quote path ++ ")".toText

end FileRef

namespace Value

/-- The value as an argument. Files are expressions, all else is a value. -/
def toArgument : Value → Sql.Argument
  | .file f => .expression f.expressionText
  | v => .value v.toJson

end Value

/-- How a field is passed: by position, by its own name, or by another key. -/
structure Passing where
  key : Option Text
  field : Field
deriving DecidableEq, Repr

namespace Passing

/-- By position. -/
def bare (f : Field) : Passing := ⟨none, f⟩

/-- By its own name. -/
def byName (f : Field) : Passing := ⟨some f.name, f⟩

/-- By a key. -/
def byKey (key : Text) (f : Field) : Passing := ⟨some key, f⟩

end Passing

namespace AiFunction

/-- The slots of a function's call, in order. -/
def passings : AiFunction → List Passing
  | .complete =>
    [.byName .model, .byName .prompt, .byName .modelParameters, .byName .responseFormat,
     .byName .showDetails]
  | .extract => [.byName .text, .byName .file, .byKey "responseFormat".toText .responseFormat]
  | .sentiment => [.bare .text, .bare .categories]
  | .classify =>
    [.byName .input, .byKey "list_of_categories".toText .categories, .byName .configObject]
  | .countTokens => [.bare .functionName, .bare .modelName, .bare .inputText, .bare .categories]
  | .embed => [.bare .model, .bare .input, .bare .inputFile]
  | .similarity =>
    [.bare .input1, .bare .input2, .bare .input1File, .bare .input2File, .bare .configObject]
  | .parseDocument => [.byName .file, .byName .options]
  | .filter => [.bare .predicate, .bare .file]

end AiFunction

namespace Payload

/-- The argument of a field, absent if the field is not given. -/
def argument (p : Payload) (f : Field) : Sql.Argument :=
  ((p.get? f).map Value.toArgument).getD .absent

/-- The members of the object of a field. -/
def membersOf (p : Payload) (f : Field) : Members :=
  match p.get? f with
  | some (.json (.obj m)) => m
  | _ => []

/-- The model parameters with the response format among them, for the older
form; a response format replaces a parameter of that name. -/
def mergedOptions (p : Payload) : Members :=
  match p.get? .responseFormat with
  | some v => (p.membersOf .modelParameters).insert Field.responseFormat.name v.toJson
  | none => p.membersOf .modelParameters

/-- The options object of the older form, if it is not empty. -/
def legacyOptions (p : Payload) : Option Json :=
  if p.mergedOptions.isEmpty then none else some (.obj p.mergedOptions)

/-- The call of the older form. -/
def legacyCall (name : Text) (p : Payload) : Sql.Call :=
  .positional name
    [p.argument .model, p.argument .prompt, .value (p.legacyOptions.getD .null)]

/-- The call of a payload under a name. -/
def call (name : Text) (p : Payload) : Sql.Call :=
  ⟨name, p.function.passings.map fun s => ⟨s.key, p.argument s.field⟩⟩

/-- The call of a payload for a callee. -/
def callFor (c : Callee) (p : Payload) : Sql.Call :=
  if c.isLegacy && c.function = .complete then p.legacyCall c.sqlName else p.call c.sqlName

/-- The statement of a payload for a callee, by a writer of JSON texts. -/
def statementBy (write : Sql.Writer) (c : Callee) (p : Payload) : Except BuildError Text :=
  if p.function = c.function then
    (((p.callFor c).renderBy write).map Sql.selectResponse).mapError .render
  else .error (.wrongRecord c.function p.function)

/-- **The statement of a payload for a callee.** -/
def statement (c : Callee) (p : Payload) : Except BuildError Text :=
  p.statementBy Sql.jsonText c

/-- The statement of a payload for a function given by name, by a writer of JSON
texts. -/
def statementNamedBy (write : Sql.Writer) (name sqlName : Text) (p : Payload) :
    Except BuildError Text :=
  match AiFunction.ofName? name with
  | some f => p.statementBy write ⟨f, sqlName⟩
  | none => .error (.unknownFunction name)

end Payload

end CortexCall
