import CortexCall.Text.Blank
import CortexCall.Sql.Literal

/-!
# Single call expressions

A file may be named by an expression that is put into the statement as it
stands, and so it must be one call and nothing else: a name, an opening
parenthesis, and the text up to the parenthesis that closes it, which is the
last character. Inside literals nothing counts; outside them parentheses
must balance and no semicolon may stand.

`closesAtEnd` is the scan behind the opening parenthesis. It carries how
many parentheses are open and whether it is inside a literal. Every
apostrophe changes the latter: a doubled one leaves the literal and enters it
again, which comes to the same as staying inside.
-/

namespace CortexCall.Sql

/-- Whether a character may start the name of a function. -/
def isNameStart (c : CodePoint) : Bool := c.isAlpha || c == '_'

/-- Whether a character may stand in the name of a function. -/
def isNamePart (c : CodePoint) : Bool := c.isAlphanum || c == '_' || c == '$' || c == '.'

/-- Whether the parentheses that are open close on the last character, with
no semicolon outside literals. -/
def closesAtEnd (inLiteral : Bool) (depth : Nat) : Text → Bool
  | [] => false
  | c :: rest =>
    if c = mark then closesAtEnd (!inLiteral) depth rest
    else if inLiteral then closesAtEnd true depth rest
    else if c = ';' then false
    else if c = '(' then closesAtEnd false (depth + 1) rest
    else if c = ')' then if depth = 1 then rest.isEmpty else closesAtEnd false (depth - 1) rest
    else closesAtEnd false depth rest

/-- The text behind the name of a function and the blanks that follow it. -/
def afterName : Text → Option Text
  | c :: rest =>
    if isNameStart c then some ((rest.dropWhile isNamePart).dropWhile Text.isBlank) else none
  | [] => none

/-- **Whether a text is exactly one call.** -/
def isSingleCall (t : Text) : Bool :=
  match afterName t with
  | some (.char '(' :: body) => closesAtEnd false 1 body
  | _ => false

end CortexCall.Sql
