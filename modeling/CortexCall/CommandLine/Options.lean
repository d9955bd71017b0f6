import CortexCall.Text.Basic
import CortexCall.Text.DecimalDigit
import CortexCall.Text.Quoted

/-!
# Options of the command line

The command takes three options with a value each, and one for help. A long
option may be shortened as far as it stays unambiguous, and its value may
follow it as the next word or behind an equals sign.

The words of a command line are first **classified**, one by one: is this an
option, an option nobody knows, or a value? A word is a value if it does not
start with a dash, is a dash alone, looks like a negative number, or holds a
space. From two dashes on, everything is a value. Then the options are
**consumed** from left to right, each with the value it needs, and what is
left over is refused.
-/

namespace CortexCall.CommandLine

/-- What an option is for. -/
inductive Switch where
  | help
  | function
  | args
  | logLevel
deriving DecidableEq, Repr

namespace Switch

/-- Every option, in the order in which they are explained. -/
def all : List Switch := [.help, .function, .args, .logLevel]

/-- The spellings of an option. -/
def spellings : Switch → List Text
  | .help => ["-h".toText, "--help".toText]
  | .function => ["--function".toText]
  | .args => ["--args".toText]
  | .logLevel => ["--log-level".toText]

/-- What stands for the value of an option, if it takes one. -/
def placeholder : Switch → Option Text
  | .help => none
  | .function => some "FUNCTION".toText
  | .args => some "ARGS".toText
  | .logLevel => some "LOG_LEVEL".toText

/-- What an option means. -/
def explanation : Switch → Text
  | .help => "show this help message and exit".toText
  | .function => "Function name, e.g. AI_COMPLETE (default: AI_FUNCTION).".toText
  | .args => "JSON object with the function arguments (default: AI_ARGS).".toText
  | .logLevel => "MINIMAL or VERBOSE (default: SNOWFLAKE_LOG_LEVEL).".toText

/-- The option as an error message names it. -/
def title (s : Switch) : Text := Text.join "/".toText s.spellings

end Switch

/-- The spellings of the options, and what they are for. -/
def spellings : List (Text × Switch) :=
  Switch.all.flatMap fun s => s.spellings.map (·, s)

/-- What stands in the same word as an option. -/
inductive Attached where
  /-- Nothing. -/
  | nothing
  /-- A value behind an equals sign. -/
  | value (t : Text)
  /-- More letters behind the letter of a single dash. -/
  | letters (t : Text)
deriving DecidableEq, Repr

/-- What a word is. -/
inductive Word where
  /-- A value, or a word that nobody asked for. -/
  | plain (t : Text)
  /-- Two dashes. -/
  | dashes
  /-- An option that nobody knows. -/
  | unknown (t : Text)
  /-- An option, and what else stands in the word. -/
  | option (s : Switch) (attached : Attached)
deriving DecidableEq, Repr

/-- Why a command line is refused. -/
inductive UsageError where
  | ambiguous (word : Text) (candidates : List Text)
  | missingValue (s : Switch)
  | surplusValue (s : Switch) (value : Text)
  | unrecognized (words : List Text)
deriving DecidableEq, Repr

namespace UsageError

/-- The failure in words. -/
def message : UsageError → Text
  | .ambiguous word candidates =>
    "ambiguous option: ".toText ++ word ++ " could match ".toText
      ++ Text.join ", ".toText candidates
  | .missingValue s => "argument ".toText ++ s.title ++ ": expected one argument".toText
  | .surplusValue s value =>
    "argument ".toText ++ s.title ++ ": ignored explicit argument ".toText ++ Text.quoted value
  | .unrecognized words => "unrecognized arguments: ".toText ++ Text.join " ".toText words

end UsageError

/-! ## Classification -/

/-- A word split at its first equals sign, if it has one. -/
def splitEquals (t : Text) : Option (Text × Text) :=
  match t.dropWhile (· != .char '=') with
  | _ :: value => some (t.takeWhile (· != .char '='), value)
  | [] => none

/-- The options a word that is no spelling may mean: with two dashes those
it is the beginning of, with one the option of its first letter. -/
def candidates (t : Text) : List (Text × Word) :=
  if "--".toText.isPrefixOf t then
    let (stem, attached) : Text × Attached := match splitEquals t with
      | some (stem, value) => (stem, .value value)
      | none => (t, .nothing)
    (spellings.filter fun s => stem.isPrefixOf s.1).map fun s => (s.1, .option s.2 attached)
  else
    spellings.filterMap fun s =>
      if s.1 = t.take 2 then some (s.1, .option s.2 (.letters (t.drop 2)))
      else if t.isPrefixOf s.1 then some (s.1, .option s.2 .nothing)
      else none

/-- The text without one line feed at its end. -/
def dropFinalNewline (t : Text) : Text :=
  if t.getLast? = some '\n' then t.dropLast else t

/-- Whether a word looks like a negative number. -/
def isNegativeNumber (t : Text) : Bool :=
  match dropFinalNewline t with
  | .char '-' :: rest =>
    let behind := rest.dropWhile Text.isDecimalDigit
    match behind with
    | [] => !rest.isEmpty
    | .char '.' :: fraction => !fraction.isEmpty && fraction.all Text.isDecimalDigit
    | _ => false
  | _ => false

/-- What a word is that starts with a dash and goes on, but is no
spelling. -/
def classifyDashed (t : Text) : Except UsageError Word :=
  match candidates t with
  | [c] => .ok c.2
  | [] =>
    if isNegativeNumber t || t.contains (.char ' ') then .ok (.plain t) else .ok (.unknown t)
  | cs => .error (.ambiguous t (cs.map Prod.fst))

/-- What an equals sign attaches to a spelling: a value. Behind a single dash
and its letter the sign means nothing, and more letters follow. -/
def behindEquals (spelling t : Text) : Attached :=
  if t.isEmpty || "--".toText.isPrefixOf spelling then .value t else .letters t

/-- What a spelling means, with something else in the same word. -/
def optionOf (t : Text) (attached : Attached) : Option Word :=
  (spellings.lookup t).map fun s => .option s attached

/-- What a word is. -/
def classify (t : Text) : Except UsageError Word :=
  if t.head? ≠ some '-' then .ok (.plain t)
  else match optionOf t .nothing with
    | some w => .ok w
    | none =>
      if t.length = 1 then .ok (.plain t)
      else match (splitEquals t).bind fun s => optionOf s.1 (behindEquals s.1 s.2) with
        | some w => .ok w
        | none => classifyDashed t

/-- What each word is. -/
def classifyAll : List Text → Except UsageError (List Word)
  | [] => .ok []
  | t :: rest =>
    if t = "--".toText then .ok (.dashes :: rest.map .plain)
    else do
      let w ← classify t
      let ws ← classifyAll rest
      return w :: ws

/-! ## Consumption -/

/-- The values given on a command line, and the words left over. -/
structure Given where
  function : Option Text := none
  args : Option Text := none
  logLevel : Option Text := none
  surplus : List Text := []
deriving DecidableEq, Repr

/-- Why a command line does not lead to a call. -/
inductive Stop where
  /-- Help was asked for. -/
  | help
  /-- The command line is refused. -/
  | usage (e : UsageError)
deriving DecidableEq, Repr

namespace Given

/-- The values with one more; help has none. -/
def set (g : Given) (s : Switch) (value : Text) : Given :=
  match s with
  | .help => g
  | .function => { g with function := some value }
  | .args => { g with args := some value }
  | .logLevel => { g with logLevel := some value }

/-- The values with one more word left over. -/
def leave (g : Given) (t : Text) : Given := { g with surplus := g.surplus ++ [t] }

end Given

/-- What help is answered with when letters follow its own. They have to be
letters of help in turn; the first that is not is refused with all behind
it. -/
def helpLetters : Text → Stop
  | [] => .help
  | .char 'h' :: rest => helpLetters rest
  | t => .usage (.surplusValue .help t)

/-- What help is answered with. It takes no value. -/
def helpStop : Attached → Stop
  | .nothing => .help
  | .value t => .usage (.surplusValue .help t)
  | .letters t => helpLetters t

/-- A value that is attached to its option. Two dashes only say that values
follow, and nothing is left of them. -/
def attachedValue (t : Text) : Text := if t = "--".toText then [] else t

/-- Options and their values, from left to right. -/
def consume (g : Given) : List Word → Except Stop Given
  | [] => .ok g
  | .plain t :: rest => consume (g.leave t) rest
  | .dashes :: rest => consume (g.leave "--".toText) rest
  | .unknown t :: rest => consume (g.leave t) rest
  | .option .help attached :: _ => .error (helpStop attached)
  | .option s (.value t) :: rest => consume (g.set s (attachedValue t)) rest
  | .option s (.letters t) :: rest => consume (g.set s (attachedValue t)) rest
  | .option s .nothing :: .plain t :: rest => consume (g.set s t) rest
  | .option s .nothing :: _ => .error (.usage (.missingValue s))

/-- **The values that a command line gives.** -/
def parse (argv : List Text) : Except Stop Given := do
  let words ← (classifyAll argv).mapError .usage
  let g ← consume {} words
  if g.surplus.isEmpty then return g else throw (.usage (.unrecognized g.surplus))

end CortexCall.CommandLine
