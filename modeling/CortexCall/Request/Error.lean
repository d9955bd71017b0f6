import CortexCall.Text.Whole
import CortexCall.Callee
import CortexCall.Json.Reader

/-!
# Rejected requests

A request is rejected with one cause, the first that was met. Most causes
are **issues**: something is wrong at a place inside the arguments. An issue
has a kind, a path – the field, and perhaps an index – and a text for
whoever wrote the arguments. The other causes come before any field is
looked at: there are no arguments, they are no JSON, they are no object, two
spellings of one field are given.

From its cause a rejection has a `kind` for programs, a `message` for people
and the `field` it is about, if there is one.
-/

namespace CortexCall

/-- The kinds of rejection. -/
inductive ErrorKind where
  | missingInput
  | invalidJson
  | wrongShape
  | missingField
  | blankField
  | typeMismatch
  | aliasConflict
  | mutuallyExclusiveViolation
  | boundsViolation
  | unexpectedField
  | unsupportedArgument
  | unsupportedFunction
  | missingFunctionName
deriving DecidableEq, Repr

namespace ErrorKind

/-- The name that programs see. -/
def name : ErrorKind → Text
  | .missingInput => "MissingInput".toText
  | .invalidJson => "InvalidJson".toText
  | .wrongShape => "WrongShape".toText
  | .missingField => "MissingField".toText
  | .blankField => "BlankField".toText
  | .typeMismatch => "TypeMismatch".toText
  | .aliasConflict => "AliasConflict".toText
  | .mutuallyExclusiveViolation => "MutuallyExclusiveViolation".toText
  | .boundsViolation => "BoundsViolation".toText
  | .unexpectedField => "UnexpectedField".toText
  | .unsupportedArgument => "UnsupportedArgument".toText
  | .unsupportedFunction => "UnsupportedFunction".toText
  | .missingFunctionName => "MissingFunctionName".toText

/-- The codes under which validators report issues of a kind of their own. -/
def codes : List (Text × ErrorKind) :=
  [("blank_field".toText, .blankField),
   ("bounds_violation".toText, .boundsViolation),
   ("mutually_exclusive_violation".toText, .mutuallyExclusiveViolation),
   ("unsupported_argument".toText, .unsupportedArgument),
   ("file_reference".toText, .typeMismatch),
   ("missing".toText, .missingField),
   ("extra_forbidden".toText, .unexpectedField)]

/-- The kind of an issue by its code. Any other code says that a value is
not of the type that was asked for. -/
def ofCode (code : Text) : ErrorKind := (codes.lookup code).getD .typeMismatch

end ErrorKind

/-- A step from a value into it. -/
inductive Step where
  | name (t : Text)
  | index (i : Int)
deriving DecidableEq, Repr

/-- The step that a whole number stands for: an index if it fits into
sixty-four bits, and a name in digits if it does not. -/
def Step.ofInt (i : Int) : Step :=
  if -0x8000000000000000 ≤ i && i < 0x8000000000000000 then .index i else .name (Text.ofInt i)

/-- The step to a member, by its name. -/
def Step.ofName (t : Text) : Step := .name t.mended

/-- Something wrong at a place in the arguments. -/
structure Issue where
  kind : ErrorKind
  path : List Step
  text : Text
deriving DecidableEq, Repr

namespace Issue

/-- The issue that a validator reports by a code. The code and the text must
be whole. -/
def ofReport (code : Text) (path : List Step) (text : Text) : Except Halves Issue := do
  code.requireWhole
  text.requireWhole
  return ⟨.ofCode code, path, text⟩

/-- A step on its own. -/
def showStep : Step → Text
  | .name t => t
  | .index i => Text.ofInt i

/-- An index in brackets, if the path goes on with one. -/
def showIndex : List Step → Text
  | .index i :: _ => "[".toText ++ Text.ofInt i ++ "]".toText
  | _ => []

/-- The place as a user reads it, `field` or `field[index]`. Deeper steps
tell alternatives apart and are not shown. -/
def place : List Step → Text
  | [] => []
  | step :: rest => showStep step ++ showIndex rest

/-- The field an issue is about. A place without a name is none. -/
def field (i : Issue) : Option Text :=
  if (place i.path).isEmpty then none else some (place i.path)

/-- The issue one step further out. -/
def under (i : Issue) (step : Step) : Issue := { i with path := step :: i.path }

/-- What a message calls the field. -/
def fieldText (i : Issue) : Text := i.field.getD "None".toText

/-- **The issue in words**, for the function named. -/
def message (function : Text) (i : Issue) : Text :=
  match i.kind with
  | .missingField => function ++ ": missing ".toText ++ i.fieldText ++ ".".toText
  | .unexpectedField => function ++ ": unexpected field ".toText ++ i.fieldText ++ ".".toText
  | _ =>
    match i.field with
    | some f => function ++ ": ".toText ++ f ++ " - ".toText ++ i.text
    | none => function ++ ": ".toText ++ i.text

end Issue

/-- Why a request is rejected. -/
inductive RequestError where
  /-- The name means no callee. -/
  | callee (e : ResolveError)
  /-- There is no argument text where one is needed. -/
  | missingArgs
  /-- The argument text is blank. -/
  | emptyText (label : Text)
  /-- The argument text is no JSON. -/
  | invalidJson (label : Text) (e : Json.ReadError)
  /-- The argument text is JSON, but no object. -/
  | notAnObject (label : Text)
  /-- A field is given under two spellings. -/
  | conflict (function field : Text) (supplied : List Text)
  /-- Something is wrong inside the object; the first issue, if one is
  known. -/
  | invalid (function : Text) (issue : Option Issue)
  /-- The older calling form cannot show details. -/
  | detailsUnsupported (function : Text)
deriving DecidableEq, Repr

namespace RequestError

/-- The rejection for a list of issues: the first counts. -/
def ofIssues (function : Text) (issues : List Issue) : RequestError :=
  .invalid function issues.head?

/-- The kind of a rejection. -/
def kind : RequestError → ErrorKind
  | .callee .missing => .missingFunctionName
  | .callee (.unsupported _) => .unsupportedFunction
  | .missingArgs => .missingInput
  | .emptyText _ => .missingInput
  | .invalidJson .. => .invalidJson
  | .notAnObject _ => .wrongShape
  | .conflict .. => .aliasConflict
  | .invalid _ none => .wrongShape
  | .invalid _ (some i) => i.kind
  | .detailsUnsupported _ => .unsupportedArgument

/-- The field a rejection is about. -/
def field : RequestError → Option Text
  | .conflict _ field _ => some field
  | .invalid _ (some i) => i.field
  | .detailsUnsupported _ => some "show_details".toText
  | _ => none

/-- **The rejection in words.** -/
def message : RequestError → Text
  | .callee e => e.message
  | .missingArgs => "Missing args input - provide 'args' or set AI_ARGS.".toText
  | .emptyText label => label ++ " cannot be empty.".toText
  | .invalidJson label e => "Invalid ".toText ++ label ++ " JSON: ".toText ++ e.message
  | .notAnObject label => label ++ " must be a JSON object.".toText
  | .conflict function _ supplied =>
    function ++ ": provide only one of ".toText ++ Text.join ", ".toText supplied ++ ".".toText
  | .invalid function none => function ++ " arguments are invalid.".toText
  | .invalid function (some i) => i.message function
  | .detailsUnsupported function =>
    function ++ ": show_details is only supported by AI_COMPLETE.".toText

end RequestError

/-- Why there is no answer to a request from a reader that can be inside so many
containers at once. -/
inductive Refusal where
  /-- The request is rejected. -/
  | rejected (e : RequestError)
  /-- The reader met a container too many. That is no rejection. -/
  | interrupted (c : Json.Container)
deriving DecidableEq, Repr

end CortexCall
