import CortexCall.Callee
import CortexCall.Request.Spelling

/-!
# The fields of each function

What a function takes is data: a list of **parameters**, in the order in
which they are checked and echoed. A parameter says which field it is, what
the field holds, whether it must be given, and under which other names it
may be given. Beyond the fields one by one, some functions ask for exactly
one of two sources; that is their **rule**.

The same field may hold different things for different functions – a
response format is an object for one and an object or a list for another –
so what it holds belongs to the parameter and not to the field.
-/

namespace CortexCall

/-- The fields of all functions. -/
inductive Field where
  | model
  | prompt
  | modelParameters
  | responseFormat
  | showDetails
  | text
  | file
  | categories
  | input
  | configObject
  | functionName
  | inputText
  | modelName
  | inputFile
  | input1
  | input2
  | input1File
  | input2File
  | options
  | predicate
deriving DecidableEq, Inhabited, Repr

namespace Field

/-- The name of a field in the arguments and in the echo. -/
def name : Field → Text
  | .model => "model".toText
  | .prompt => "prompt".toText
  | .modelParameters => "model_parameters".toText
  | .responseFormat => "response_format".toText
  | .showDetails => "show_details".toText
  | .text => "text".toText
  | .file => "file".toText
  | .categories => "categories".toText
  | .input => "input".toText
  | .configObject => "config_object".toText
  | .functionName => "function_name".toText
  | .inputText => "input_text".toText
  | .modelName => "model_name".toText
  | .inputFile => "input_file".toText
  | .input1 => "input1".toText
  | .input2 => "input2".toText
  | .input1File => "input1_file".toText
  | .input2File => "input2_file".toText
  | .options => "options".toText
  | .predicate => "predicate".toText

/-- Every field. -/
def all : List Field :=
  [.model, .prompt, .modelParameters, .responseFormat, .showDetails, .text, .file, .categories,
   .input, .configObject, .functionName, .inputText, .modelName, .inputFile, .input1, .input2,
   .input1File, .input2File, .options, .predicate]

/-- The field of a name, if it is the name of one. -/
def ofName? (t : Text) : Option Field := all.find? fun f => f.name == t

/-- A name leads back to its field. -/
theorem ofName?_name (f : Field) : ofName? f.name = some f := by cases f <;> decide

/-- **Fields have distinct names.** -/
theorem name_injective {f g : Field} (h : f.name = g.name) : f = g := by
  have hf := ofName?_name f
  rw [h, ofName?_name g] at hf
  exact (Option.some.inj hf).symm

end Field

/-- How long a list of labels may be, and a label in it. -/
structure LabelBounds where
  most : Nat
  longest : Nat
deriving DecidableEq, Repr

/-- What a field holds. -/
inductive Kind where
  /-- A text that is not blank, kept as it is given. -/
  | prose
  /-- A text that is not blank, without the blanks around it. -/
  | term
  /-- The name of an AI function, in small letters. -/
  | functionName
  /-- A truth value. -/
  | flag
  /-- Any object. -/
  | object
  /-- Any object or list. -/
  | objectOrList
  /-- A text that is not blank, or any object. -/
  | proseOrObject
  /-- A list of distinct terms, one at least. -/
  | labels (bounds : Option LabelBounds)
  /-- A list of distinct categories, two at least. -/
  | categories
  /-- A file, by an expression or by its place on a stage. -/
  | file
deriving DecidableEq, Repr

/-- A parameter of a function. -/
structure Parameter where
  field : Field
  kind : Kind
  required : Bool
  alternates : List Text
deriving DecidableEq, Repr

namespace Parameter

/-- A field that must be given. -/
def mandatory (field : Field) (kind : Kind) (alternates : List Text) : Parameter :=
  ⟨field, kind, true, alternates⟩

/-- A field that may be left out. -/
def optional (field : Field) (kind : Kind) (alternates : List Text) : Parameter :=
  ⟨field, kind, false, alternates⟩

end Parameter

/-- A condition on several fields at once. -/
inductive Rule where
  /-- No condition. -/
  | free
  /-- Exactly one of two fields is given. -/
  | exactlyOne (left right : Field)
  /-- Exactly one of two pairs of fields is given, and the whole of it. -/
  | exactlyOnePair (left right : Field × Field)
deriving DecidableEq, Repr

namespace AiFunction

/-- The bounds on the aspects of a sentiment. -/
def aspectBounds : LabelBounds := ⟨10, 30⟩

/-- The parameters of a function, in order. -/
def parameters : AiFunction → List Parameter
  | .complete =>
    [.mandatory .model .term [],
     .mandatory .prompt .prose [],
     .optional .modelParameters .object ["options".toText],
     .optional .responseFormat .object [],
     .optional .showDetails .flag []]
  | .extract =>
    [.mandatory .responseFormat .objectOrList [],
     .optional .text .prose [],
     .optional .file .file []]
  | .sentiment =>
    [.mandatory .text .prose [],
     .optional .categories (.labels (some aspectBounds)) []]
  | .classify =>
    [.mandatory .input .proseOrObject [],
     .mandatory .categories .categories ["list_of_categories".toText],
     .optional .configObject .object ["config".toText]]
  | .countTokens =>
    [.mandatory .functionName .functionName ["function".toText],
     .mandatory .inputText .prose ["text".toText],
     .optional .modelName .term ["modelName".toText],
     .optional .categories (.labels none) []]
  | .embed =>
    [.mandatory .model .term [],
     .optional .input .prose [],
     .optional .inputFile .file []]
  | .similarity =>
    [.optional .input1 .prose [],
     .optional .input2 .prose [],
     .optional .input1File .file [],
     .optional .input2File .file [],
     .optional .configObject .object ["config".toText]]
  | .parseDocument =>
    [.mandatory .file .file ["file_object".toText],
     .optional .options .object []]
  | .filter =>
    [.mandatory .predicate .prose ["prompt".toText],
     .optional .file .file []]

/-- The condition on the fields of a function together. -/
def rule : AiFunction → Rule
  | .extract => .exactlyOne .text .file
  | .countTokens => .exactlyOne .modelName .categories
  | .embed => .exactlyOne .input .inputFile
  | .similarity => .exactlyOnePair (.input1, .input2) (.input1File, .input2File)
  | _ => .free

/-- The table of alternate spellings of a function. -/
def spellings (f : AiFunction) : SpellingTable :=
  (f.parameters.filter fun p => !p.alternates.isEmpty).map fun p => (p.field.name, p.alternates)

/-- The name of the record that a function's arguments fill. -/
def recordName : AiFunction → Text
  | .complete => "CompleteArgs".toText
  | .extract => "ExtractArgs".toText
  | .sentiment => "SentimentArgs".toText
  | .classify => "ClassifyArgs".toText
  | .countTokens => "CountTokensArgs".toText
  | .embed => "EmbedArgs".toText
  | .similarity => "SimilarityArgs".toText
  | .parseDocument => "ParseDocumentArgs".toText
  | .filter => "FilterArgs".toText

/-- **No function has two parameters for one field.** -/
theorem parameters_nodup (f : AiFunction) : (f.parameters.map Parameter.field).Nodup := by
  cases f <;> decide

end AiFunction

end CortexCall
