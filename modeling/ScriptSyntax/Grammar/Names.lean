/-
  ScriptSyntax/Grammar/Names.lean
  ===============================
  Identifiers, dotted names and the names of properties.
-/
import ScriptSyntax.Grammar.Starts

namespace ScriptSyntax

def Kind.keyword? : Kind → Option Keyword
  | .keyword k => some k
  | _ => none

namespace Parser

/-! ## 1. Identifiers -/

/-- The token as an identifier, where it may be one; else an empty identifier and a report. A
keyword that serves as an identifier is remembered. -/
def identifierIf (allowed : Bool) (m : Message) : Parser NodeId := do
  countIdentifier
  if allowed then
    let t ← token
    let name ← intern t.value
    nextToken
    finishNode .identifier t.fullStart (.identifier name t.kind.keyword?)
  else missingHere .identifier m []

/-- An identifier; the given message is reported where there is none. -/
def identifierOr (m : Message) : Parser NodeId := do identifierIf (← isIdentifier) m

def identifier : Parser NodeId := identifierOr .identifierExpected

/-- An identifier or a keyword; the given message is reported where there is neither. -/
def nameOr (m : Message) : Parser NodeId := do identifierIf (← isName) m

def name : Parser NodeId := nameOr .identifierExpected

def optionalIdentifier : Parser (Option NodeId) := do
  if ← isIdentifier then return some (← identifier) else return none

/-! ## 2. Dotted names -/

/-- The name after a dot. A name on the next line that another name follows starts something
else, so the name after the dot is then missing. -/
def nameAfterDot (keywords : Bool) : Parser NodeId := do
  if ← (afterLineBreak <&&> isName <&&> peek isNameOnSameLine) then
    missingBefore .identifier .identifierExpected []
  else if keywords then name
  else identifier
where
  /-- Is the token a name, on the line of the token before it? -/
  isNameOnSameLine : Parser Bool := onSameLine isName

/-- Dots and the names after them, the name before the first dot being given. -/
def qualifiedRest (pos : Nat) (keywords : Bool) (first : NodeId) : Parser NodeId :=
  repeating first fun left => do
    if ← acceptPunct .dot then
      let right ← nameAfterDot keywords
      return .again (← finishProduction .qualifiedName pos (.qualifiedName left right))
    else return .done left

/-- A name, possibly dotted; the given message is reported where it is missing. Keywords may be
part of it where told so. -/
def entityName (keywords : Bool) (m : Message) : Parser NodeId := do
  let pos ← nodePos
  let first ← if keywords then nameOr m else identifierOr m
  qualifiedRest pos keywords first

/-! ## 3. Names of properties -/

def computedName : Parser NodeId := do
  let pos ← nodePos
  let _ ← expectPunct .openBracket
  let inner ← allowIn (parse .expression)
  let _ ← expectPunct .closeBracket
  finishProduction .computedPropertyName pos (.expression inner)

/-- The name of a property: a string, a number, a computed name or any word. -/
def propertyName : Parser NodeId := do
  match ← kind with
  | .literal .string | .literal .numeric => literalNode
  | .punct .openBracket => computedName
  | _ => name

end Parser

end ScriptSyntax
