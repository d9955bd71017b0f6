import CortexCall.Request.Payload

/-!
# Summaries

What is logged of a call must not show what it is about. A summary therefore
says which model and which function, which labels and which settings are
named, and how long the texts are – but never a text, a file, or the value
of a setting.
-/

namespace CortexCall.Payload

/-- A line of a summary: a heading and what it heads. -/
def line (heading : Text) (t : Text) : Text := heading ++ ": ".toText ++ t

/-- A line with names in a row. -/
def listing (heading : Text) (names : List Text) : Text :=
  line heading (Text.join ", ".toText names)

/-- A line with the length of a text. -/
def lengthLine (heading : Text) (n : Nat) : Text :=
  line heading (Text.ofNat n ++ " chars".toText)

/-- The text of a field, nothing if it has none. -/
def textOf (p : Payload) (f : Field) : Text :=
  match p.get? f with
  | some (.text t) => t
  | _ => []

/-- How long the text of a field is. -/
def lengthOf (p : Payload) (f : Field) : Nat := ((p.get? f).map Value.textLength).getD 0

/-- The names in the object of a field. -/
def namesOf (p : Payload) (f : Field) : List Text := ((p.get? f).map Value.memberNames).getD []

/-- The labels of a field. -/
def labelsOf (p : Payload) (f : Field) : List Text := ((p.get? f).map Value.labelTexts).getD []

/-- How many entries the value of a field has. -/
def countOf (p : Payload) (f : Field) : Nat := ((p.get? f).map Value.entryCount).getD 0

/-- A line that is there only if there is a name to list. -/
def listingIfAny (heading : Text) (names : List Text) : List Text :=
  if names.isEmpty then [] else [listing heading names]

/-- What a call is applied to: a file, or a text of some length. -/
def sourceLine (p : Payload) (prose document : Field) : Text :=
  if p.has document then "Input: file".toText
  else lengthLine "Input length".toText (p.lengthOf prose)

/-- Whether a comparison is between files. -/
def usesFiles (p : Payload) : Bool := p.has .input1File

/-- What a flag says. -/
def flagText : Value → Text
  | .flag true => "true".toText
  | _ => "false".toText

/-- **The summary of a payload**, one line for each thing it says. -/
def summary (p : Payload) : List Text :=
  match p.function with
  | .complete =>
    [line "Model".toText (p.textOf .model),
     lengthLine "Prompt length".toText (p.lengthOf .prompt)]
      ++ listingIfAny "Model parameters keys".toText (p.namesOf .modelParameters)
      ++ (if p.has .responseFormat then ["Response format: provided".toText] else [])
      ++ ((p.get? .showDetails).map fun v => line "Show details".toText (flagText v)).toList
  | .extract =>
    [p.sourceLine .text .file,
     line "Response format entries".toText (Text.ofNat (p.countOf .responseFormat))]
  | .sentiment =>
    lengthLine "Text length".toText (p.lengthOf .text)
      :: listingIfAny "Categories".toText (p.labelsOf .categories)
  | .classify =>
    [match p.get? .input with
     | some (.text t) => lengthLine "Input length".toText t.length
     | _ => "Input: object".toText,
     listing "Categories".toText (p.labelsOf .categories)]
      ++ listingIfAny "Config keys".toText (p.namesOf .configObject)
  | .countTokens =>
    [line "Counted function".toText (p.textOf .functionName),
     if p.has .modelName then line "Model".toText (p.textOf .modelName)
     else line "Categories".toText (Text.ofNat (p.countOf .categories)),
     lengthLine "Input length".toText (p.lengthOf .inputText)]
  | .embed =>
    [line "Model".toText (p.textOf .model), p.sourceLine .input .inputFile]
  | .similarity =>
    (if p.usesFiles then "Inputs: files".toText else "Inputs: text".toText)
      :: listingIfAny "Config keys".toText (p.namesOf .configObject)
  | .parseDocument =>
    "Input: file".toText :: listingIfAny "Options keys".toText (p.namesOf .options)
  | .filter =>
    lengthLine "Predicate length".toText (p.lengthOf .predicate)
      :: (if p.has .file then ["Input: file".toText] else [])

end CortexCall.Payload
