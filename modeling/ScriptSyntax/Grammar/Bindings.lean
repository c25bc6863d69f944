/-
  ScriptSyntax/Grammar/Bindings.lean
  ==================================
  What variables are bound to, and lists of declared variables.
-/
import ScriptSyntax.Grammar.Signatures

namespace ScriptSyntax

namespace Parser

/-! ## 1. Patterns -/

/-- An element of an array pattern; between two commas it is left out. -/
def arrayBindingElement : Parser NodeId := do
  let pos ← nodePos
  if ← isAtPunct .comma then finishProduction .omittedExpression pos .token
  else
    let dots ← acceptToken (.punct .dotDotDot)
    let name ← parse .bindingName
    let initializer ← initializer
    finishProduction .bindingElement pos (.variableLike { dots, name, initializer })

def arrayBindingPattern : Parser NodeId := do
  let pos ← nodePos
  let _ ← expectPunct .openBracket
  let list ← separated .arrayBindingElements arrayBindingElement
  let _ ← expectPunct .closeBracket
  finishProduction .arrayBindingPattern pos (.elements list false)

/-- An element of an object pattern: a name that is property and variable at once, or a property
and what it is bound to. -/
def objectBindingElement : Parser NodeId := do
  let pos ← nodePos
  let dots ← acceptToken (.punct .dotDotDot)
  let canBeVariable ← isIdentifier
  let first ← propertyName
  let (propertyName, name) ←
    if canBeVariable && !(← isAtPunct .colon) then pure (none, first)
    else do
      let _ ← expectPunct .colon
      pure (some first, ← parse .bindingName)
  let initializer ← initializer
  finishProduction .bindingElement pos (.variableLike { propertyName, dots, name, initializer })

def objectBindingPattern : Parser NodeId := do
  let pos ← nodePos
  let _ ← expectPunct .openBrace
  let list ← separated .objectBindingElements objectBindingElement
  let _ ← expectPunct .closeBrace
  finishProduction .objectBindingPattern pos (.elements list false)

/-- What a variable is bound to: an identifier or a pattern. -/
def bindingName : Parser NodeId := do
  match ← kind with
  | .punct .openBracket => arrayBindingPattern
  | .punct .openBrace => objectBindingPattern
  | _ => identifier

/-! ## 2. Declared variables -/

def variableDeclaration : Parser NodeId := do
  let pos ← nodePos
  let name ← parse .bindingName
  let type ← typeAnnotation
  let initializer ← do
    if (← kind).isInOrOf then pure none else initializer
  finishProduction .variableDeclaration pos (.variableLike { name, type, initializer })

/-- Reads on from `of`, and says whether a name and a closing parenthesis follow. -/
def loopEndAhead : Parser Bool := do
  if ← afterNext isIdentifier then return (← nextKind) == .punct .closeParen
  else return false

/-- Does `of`, the current token, follow a list of no variables? -/
def ofFollowsNothing : Parser Bool := do
  if ← isAtKeyword .ofKw then lookAhead loopEndAhead else return false

/-- The flags that the keyword of a list of variables stands for. -/
def declarationFlags : Kind → NodeFlags
  | .keyword .letKw => { letDeclaration := true }
  | .keyword .constKw => { constDeclaration := true }
  | _ => {}

/-- A keyword and the variables that it declares. In the head of a loop `in` is no operator. -/
def variableDeclarationList (inLoopHead : Bool) : Parser NodeId := do
  let t ← token
  nextToken
  let declarations ←
    if ← ofFollowsNothing then missingList
    else
      withContext (fun c => { c with disallowIn := inLoopHead })
        (separated .variableDeclarations variableDeclaration)
  finishFlagged .variableDeclarationList t.fullStart (declarationFlags t.kind)
    (.declarationList declarations)

def variableStatement (start : DeclarationStart) : Parser NodeId := do
  let declarations ← variableDeclarationList false
  semicolon
  finishDeclaration .variableStatement start (.variableStatement declarations)

end Parser

end ScriptSyntax
