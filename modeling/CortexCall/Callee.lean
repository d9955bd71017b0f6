import CortexCall.Text.Blank
import CortexCall.Text.Case

/-!
# The functions that can be called

There are nine AI functions, and ten names under which SQL calls them:
`SNOWFLAKE.CORTEX.COMPLETE` is an older name of `AI_COMPLETE` with a calling
form of its own. A **callee** is a function together with the name that SQL
gets to see, and `Callee.spellings` lists what may be written to mean one:
each name, plain or qualified by its schema, and the older name.

Resolution is exact up to letter case and surrounding white space. A
spelling is looked up in capitals, so whatever has the same capital form as a
listed spelling means the same callee.
-/

namespace CortexCall

/-- The functions, by what they do. -/
inductive AiFunction where
  | complete
  | extract
  | sentiment
  | classify
  | countTokens
  | embed
  | similarity
  | parseDocument
  | filter
deriving DecidableEq, Inhabited, Repr

namespace AiFunction

/-- Every function, in the order in which they are listed to a user. -/
def all : List AiFunction :=
  [.complete, .extract, .sentiment, .classify, .countTokens, .embed, .similarity,
   .parseDocument, .filter]

/-- The name of a function. -/
def name : AiFunction → Text
  | .complete => "AI_COMPLETE".toText
  | .extract => "AI_EXTRACT".toText
  | .sentiment => "AI_SENTIMENT".toText
  | .classify => "AI_CLASSIFY".toText
  | .countTokens => "AI_COUNT_TOKENS".toText
  | .embed => "AI_EMBED".toText
  | .similarity => "AI_SIMILARITY".toText
  | .parseDocument => "AI_PARSE_DOCUMENT".toText
  | .filter => "AI_FILTER".toText

/-- The function of a name, if it is one of the nine. -/
def ofName? (t : Text) : Option AiFunction := all.find? fun f => f.name == t

/-- **Names are distinct**: each leads back to its function. -/
theorem ofName?_name (f : AiFunction) : ofName? f.name = some f := by cases f <;> decide

end AiFunction

/-- A function and the name by which SQL calls it. -/
structure Callee where
  function : AiFunction
  sqlName : Text
deriving DecidableEq, Repr

/-- Why a name means no callee. -/
inductive ResolveError where
  | missing
  /-- No spelling has this capital form. -/
  | unsupported (capitals : Text)
deriving DecidableEq, Repr

namespace Callee

/-- What qualifies a function's name with its schema. -/
def schemaPrefix : Text := "SNOWFLAKE.CORTEX.".toText

/-- The older name of `AI_COMPLETE`. -/
def legacyName : Text := "SNOWFLAKE.CORTEX.COMPLETE".toText

/-- Whether a callee is called under the older name, in the older form. -/
def isLegacy (c : Callee) : Bool := c.sqlName == legacyName

/-- A function under its own name. -/
def ofFunction (f : AiFunction) : Callee := ⟨f, f.name⟩

/-- Every spelling in capitals, and what it means. -/
def spellings : List (Text × Callee) :=
  (AiFunction.all.flatMap fun f =>
    [(f.name, ofFunction f), (schemaPrefix ++ f.name, ofFunction f)])
    ++ [(legacyName, ⟨.complete, legacyName⟩)]

/-- **The callee that a name means.** No name at all is a blank one. -/
def resolve (raw : Option Text) : Except ResolveError Callee :=
  let trimmed := Text.strip (raw.getD [])
  if trimmed.isEmpty then .error .missing
  else match spellings.lookup (Text.upper trimmed) with
    | some c => .ok c
    | none => .error (.unsupported (Text.upper trimmed))

end Callee

namespace ResolveError

/-- The failure in words; an unknown name is answered with all that are
known. -/
def message : ResolveError → Text
  | .missing => "Missing function name - provide \x60function\x60 input or set AI_FUNCTION.".toText
  | .unsupported capitals =>
    "Unsupported function '".toText ++ capitals ++ "'. Supported: ".toText
      ++ Text.join ", ".toText (Callee.spellings.map Prod.fst) ++ ".".toText

end ResolveError

end CortexCall
