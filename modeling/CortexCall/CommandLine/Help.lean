import CortexCall.Text.Wrap
import CortexCall.Text.WholeNumber
import CortexCall.Settings.Dotenv
import CortexCall.CommandLine.Options

/-!
# Usage and help

The usage lists the options in brackets; help adds what the command is for and
what each option means. Both are set for the width of the terminal, which the
variable `COLUMNS` tells, with a margin of `margin` columns. Nothing here
decides about a call.

The explanations of the options stand in a column of their own, as far right
as `explanationColumn` says. An option that reaches into that column has a line
for itself, and its explanation starts below it.
-/

namespace CortexCall.CommandLine

/-- The name of the command. -/
def programName : Text := "cortex-aisql".toText

/-- What the command is for. -/
def purpose : Text := "Render a Snowflake Cortex AI SQL call.".toText

/-! ## The width -/

/-- The variable that tells how wide the terminal is. -/
def widthVariable : Text := "COLUMNS".toText

/-- How wide the terminal is where nothing tells. -/
def standardColumns : Nat := 80

/-- How wide the terminal is; a variable that does not hold a positive number
does not count. -/
def columns (env : Variables) : Nat :=
  match (env.lookup widthVariable).bind Text.readWhole with
  | some (.ofNat (n + 1)) => n + 1
  | _ => standardColumns

/-- How many columns stay free at the right. -/
def margin : Nat := 2

/-- How wide lines may be. -/
def lineWidth (env : Variables) : Nat := columns env - margin

/-- The least width of a paragraph, however narrow the terminal. -/
def leastWidth : Nat := 11

/-! ## The usage -/

namespace Switch

/-- An option in the usage. -/
def synopsis (s : Switch) : Text :=
  let value : Text := match s.placeholder with
    | some t => .char ' ' :: t
    | none => []
  "[".toText ++ s.spellings.headD [] ++ value ++ "]".toText

/-- An option in front of its explanation. -/
def invocation (s : Switch) : Text :=
  let value : Text := match s.placeholder with
    | some t => .char ' ' :: t
    | none => []
  Text.join ", ".toText (s.spellings.map (· ++ value))

end Switch

/-- The lines of the usage. The options follow the name of the command if it
leaves them a quarter of the width, and stand below it if not. -/
def usageLines (width : Nat) : List Text :=
  let word := "usage: ".toText
  let lead := word ++ programName
  let parts := Switch.all.map Switch.synopsis
  if 4 * lead.length ≤ 3 * width then
    Text.hanging (lead ++ " ".toText) (Text.pack (width - (lead.length + 1)) parts)
  else lead :: (Text.pack (width - word.length) parts).map (Text.indented word.length)

/-- Lines as one text. -/
def unlines (lines : List Text) : Text := lines.flatMap (· ++ "\n".toText)

/-- How the command is used. -/
def usage (width : Nat) : Text := unlines (usageLines width)

/-! ## Help -/

/-- How far an option is indented. -/
def optionIndent : Nat := 2

/-- Where the explanations start. -/
def explanationColumn (width : Nat) : Nat := min 24 (max (width - 20) 4)

/-- The lines of an option and its explanation. -/
def explanationLines (width : Nat) (s : Switch) : List Text :=
  let column := explanationColumn width
  let lines := Text.wrap (max (width - column) leastWidth) s.explanation
  let lead := Text.indented optionIndent s.invocation
  if lead.length + 2 ≤ column then Text.hanging (Text.padded column lead) lines
  else lead :: lines.map (Text.indented column)

/-- **Help**: the usage, what the command is for, and its options. -/
def helpText (width : Nat) : Text :=
  unlines (usageLines width ++ [] :: Text.wrap (max width leastWidth) purpose
    ++ [] :: "options:".toText :: Switch.all.flatMap (explanationLines width))

end CortexCall.CommandLine
