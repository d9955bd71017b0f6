import CortexCall.Text.Blank
import CortexCall.Text.Case
import CortexCall.Text.Whole
import CortexCall.Json.Value
import CortexCall.Sql.Expression
import CortexCall.Request.Field

/-!
# Checking one field

A field's JSON value is checked against what the field holds and becomes a
`Value`, the form in which the rest of the library knows it. Checking is
also cleaning: terms lose the blanks around them, a function name becomes
small letters, and a list of labels keeps the first of equal ones. What is
kept as it was given – prose, objects – is not touched at all.

Where a field allows two forms and a value has neither, the issue that is
reported is the one the first form has with it.
-/

namespace CortexCall

/-- A file: a call expression that yields it, or its place on a stage. -/
inductive FileRef where
  | expression (t : Text)
  | location (stage path : Text)
deriving DecidableEq, Repr

/-- A category to classify into. -/
inductive Category where
  /-- A label on its own. -/
  | label (t : Text)
  /-- A label in an object that may describe it. -/
  | entry (label : Text) (description : Option Text)
deriving DecidableEq, Repr

/-- The checked value of a field. -/
inductive Value where
  | text (t : Text)
  | flag (b : Bool)
  | json (v : Json)
  | labels (ls : List Text)
  | categories (cs : List Category)
  | file (f : FileRef)
deriving BEq, Inhabited, Repr

/-! ## Issues that checking reports -/

namespace Issue

/-- An issue with the value itself. -/
def here (kind : ErrorKind) (text : Text) : Issue := ⟨kind, [], text⟩

/-- The value is no text. -/
def notText : Issue := here .typeMismatch "Input should be a valid string".toText

/-- The value is no truth value. -/
def notFlag : Issue := here .typeMismatch "Input should be a valid boolean".toText

/-- The value is no object. -/
def notObject : Issue := here .typeMismatch "Input should be a valid dictionary".toText

/-- The value is no list. -/
def notList : Issue := here .typeMismatch "Input should be a valid list".toText

/-- The text has nothing in it but blanks. -/
def blank : Issue := here .blankField "cannot be blank".toText

/-- The text is no call that could yield a file. -/
def notFile : Issue :=
  here .typeMismatch
    "expected a file reference expression such as TO_FILE('@stage', 'path')".toText

/-- The text names no AI function. -/
def notFunction : Issue :=
  here .boundsViolation "must name an AI function (prefix 'ai')".toText

/-- A list of labels has no label, or too many. -/
def labelCount (bounds : Option LabelBounds) (n : Nat) : Issue :=
  here .boundsViolation (match bounds with
    | some b =>
      "expected 1 to ".toText ++ Text.ofNat b.most ++ " categories, got ".toText ++ Text.ofNat n
    | none => "expected at least 1 category".toText)

/-- A label is too long. A label that is not whole cannot be named, and then
that is the issue. -/
def labelLength (label : Text) (longest : Nat) : Issue :=
  let text := "category '".toText ++ label ++ "' exceeds ".toText ++ Text.ofNat longest
    ++ " characters".toText
  match Halves.find? text with
  | none => here .boundsViolation text
  | some e => here .typeMismatch ("Value error, ".toText ++ e.message)

/-- How many categories there must be. -/
def fewestCategories : Nat := 2

/-- There are too few categories to tell apart. -/
def categoryCount (n : Nat) : Issue :=
  here .boundsViolation ("expected at least ".toText ++ Text.ofNat fewestCategories
    ++ " unique categories, got ".toText ++ Text.ofNat n)

end Issue

/-! ## Texts -/

/-- A text that is not blank, as it is. -/
def checkProse : Json → Except Issue Text
  | .str t => if (Text.strip t).isEmpty then .error .blank else .ok t
  | _ => .error .notText

/-- A text that is not blank, without the blanks around it. -/
def checkTerm : Json → Except Issue Text
  | .str t => if (Text.strip t).isEmpty then .error .blank else .ok (Text.strip t)
  | _ => .error .notText

/-- How the name of an AI function starts, in small letters. -/
def functionStem : Text := "ai".toText

/-- The name of an AI function in small letters. -/
def checkFunctionName (v : Json) : Except Issue Text := do
  let t ← checkTerm v
  if functionStem.isPrefixOf (Text.lower t) then .ok (Text.lower t) else .error .notFunction

/-! ## Lists of labels -/

/-- The items whose key is not among `seen` and not the key of an earlier
item. -/
def distinctFrom {α : Type} (key : α → Text) (seen : List Text) : List α → List α
  | [] => []
  | x :: rest =>
    if seen.contains (key x) then distinctFrom key seen rest
    else x :: distinctFrom key (key x :: seen) rest

/-- The items without those whose key an earlier item has. -/
def distinctBy {α : Type} (key : α → Text) (items : List α) : List α := distinctFrom key [] items

/-- Each item checked; the issue of the first bad one tells its index. -/
def checkItems {α : Type} (check : Json → Except Issue α) (index : Nat) :
    List Json → Except Issue (List α)
  | [] => .ok []
  | v :: rest => do
    let x ← (check v).mapError (·.under (.index index))
    let xs ← checkItems check (index + 1) rest
    return x :: xs

/-- The items of a list. -/
def checkList : Json → Except Issue (List Json)
  | .arr items => .ok items
  | _ => .error .notList

/-- Whether a number of labels is within bounds. -/
def LabelBounds.admits (bounds : Option LabelBounds) (n : Nat) : Bool :=
  0 < n && (match bounds with
    | some b => n ≤ b.most
    | none => true)

/-- The first label that is too long. -/
def LabelBounds.overlong (bounds : Option LabelBounds) (labels : List Text) :
    Option (Text × Nat) :=
  match bounds with
  | some b => (labels.find? fun t => b.longest < t.length).map (·, b.longest)
  | none => none

/-- The distinct terms of a list, if their number and lengths are within
bounds. -/
def checkLabels (bounds : Option LabelBounds) (v : Json) : Except Issue (List Text) := do
  let items ← checkList v
  let labels := distinctBy id (← checkItems checkTerm 0 items)
  if LabelBounds.admits bounds labels.length then
    match LabelBounds.overlong bounds labels with
    | some (t, n) => .error (.labelLength t n)
    | none => .ok labels
  else .error (.labelCount bounds labels.length)

/-! ## Categories -/

namespace Category

/-- What categories are told apart by. -/
def key : Category → Text
  | .label t => t
  | .entry t _ => t

/-- The category as JSON. -/
def toJson : Category → Json
  | .label t => .str t
  | .entry t none => .obj [("label".toText, .str t)]
  | .entry t (some d) => .obj [("label".toText, .str t), ("description".toText, .str d)]

/-- The category with every member an entry can have. -/
def record : Category → Json
  | .label t => .str t
  | .entry t d =>
    .obj [("label".toText, .str t), ("description".toText, (d.map Json.str).getD .null)]

end Category

/-- Whether an object has no members but the named ones. -/
def hasOnly (names : List Text) (m : Members) : Bool := m.names.all names.contains

/-- A category in an object: a label and perhaps a description. -/
def entryOf? (m : Members) : Option Category := do
  guard (hasOnly ["label".toText, "description".toText] m)
  let label ← (checkTerm (← m.get? "label".toText)).toOption
  match m.get? "description".toText with
  | none => return .entry label none
  | some .null => return .entry label none
  | some v => return .entry label (some (← (checkProse v).toOption))

/-- A category, by its label or in an object. -/
def checkCategory : Json → Except Issue Category
  | .obj m =>
    match entryOf? m with
    | some c => .ok c
    | none => .error .notText
  | v => (checkTerm v).map .label

/-- The distinct categories of a list, if there are enough of them. -/
def checkCategories (v : Json) : Except Issue (List Category) := do
  let items ← checkList v
  let categories := distinctBy Category.key (← checkItems checkCategory 0 items)
  if Issue.fewestCategories ≤ categories.length then .ok categories
  else .error (.categoryCount categories.length)

/-! ## Files -/

/-- A file in an object: its stage and its path. -/
def locationOf? (m : Members) : Option FileRef := do
  guard (hasOnly ["stage".toText, "path".toText] m)
  let stage ← (checkTerm (← m.get? "stage".toText)).toOption
  let path ← (checkTerm (← m.get? "path".toText)).toOption
  return .location stage path

/-- A file, by an expression or in an object. -/
def checkFile : Json → Except Issue FileRef
  | .obj m =>
    match locationOf? m with
    | some f => .ok f
    | none => .error .notText
  | v => do
    let t ← checkTerm v
    if Sql.isSingleCall t then .ok (.expression t) else .error .notFile

/-! ## Values -/

/-- **A field's value, checked and cleaned.** -/
def Kind.check : Kind → Json → Except Issue Value
  | .prose, v => (checkProse v).map .text
  | .term, v => (checkTerm v).map .text
  | .functionName, v => (checkFunctionName v).map .text
  | .flag, .bool b => .ok (.flag b)
  | .flag, _ => .error .notFlag
  | .object, .obj m => .ok (.json (.obj m))
  | .object, _ => .error .notObject
  | .objectOrList, .obj m => .ok (.json (.obj m))
  | .objectOrList, .arr items => .ok (.json (.arr items))
  | .objectOrList, _ => .error .notObject
  | .proseOrObject, .obj m => .ok (.json (.obj m))
  | .proseOrObject, v => (checkProse v).map .text
  | .labels bounds, v => (checkLabels bounds v).map .labels
  | .categories, v => (checkCategories v).map .categories
  | .file, v => (checkFile v).map .file

namespace FileRef

/-- The file as JSON. -/
def toJson : FileRef → Json
  | .expression t => .str t
  | .location stage path => .obj [("stage".toText, .str stage), ("path".toText, .str path)]

end FileRef

namespace Value

/-- The value as JSON. -/
def toJson : Value → Json
  | .text t => .str t
  | .flag b => .bool b
  | .json v => v
  | .labels ls => .arr (ls.map .str)
  | .categories cs => .arr (cs.map Category.toJson)
  | .file f => f.toJson

/-- How many characters a text has; other values count as none. -/
def textLength : Value → Nat
  | .text t => t.length
  | _ => 0

/-- The names in an object; other values have none. -/
def memberNames : Value → List Text
  | .json (.obj m) => Members.names m
  | _ => []

/-- How many members an object has, or items a list. -/
def entryCount : Value → Nat
  | .json (.obj m) => m.length
  | .json (.arr items) => items.length
  | .labels ls => ls.length
  | .categories cs => cs.length
  | _ => 0

/-- The labels of a list of labels or categories. -/
def labelTexts : Value → List Text
  | .labels ls => ls
  | .categories cs => cs.map Category.key
  | _ => []

end Value

end CortexCall
