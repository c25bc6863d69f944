/-
  ScriptSyntax/Grammar/Arrows.lean
  ================================
  Arrow functions.

  An opening parenthesis may start the parameters of an arrow function or an
  expression.  A few tokens often decide which; where they do not, the head of
  the function is parsed on trial.
-/
import ScriptSyntax.Grammar.Functions

namespace ScriptSyntax

/-- Whether an arrow function starts at a token, as far as the next tokens tell. -/
inductive ArrowAnswer where
  | no | yes | unclear
  deriving DecidableEq, Repr

def ArrowAnswer.certain (b : Bool) : ArrowAnswer := if b then .yes else .no

/-- What comes before the arrow of an arrow function. -/
structure ArrowHead where
  start : DeclarationStart
  shape : SignatureShape

namespace Parser

/-! ## 1. Looking ahead -/

/-- After an identifier that follows an opening parenthesis. -/
def arrowAfterName : Parser ArrowAnswer := do
  match ← nextKind with
  | .punct .colon => return .yes
  | .punct .question =>
    match ← nextKind with
    | .punct .colon | .punct .comma | .punct .equals | .punct .closeParen => return .yes
    | _ => return .no
  | .punct .comma | .punct .equals | .punct .closeParen => return .unclear
  | _ => return .no

/-- Is the word after an opening parenthesis a modifier, with the name of a parameter after it? -/
def isModifiedParameter (word : Kind) : Parser Bool := do
  if word.isModifier && word != .keyword .asyncKw then peek isIdentifier else return false

def arrowAfterParen : Parser ArrowAnswer := do
  match ← nextKind with
  | .punct .closeParen =>
    match ← nextKind with
    | .punct .equalsGreaterThan | .punct .colon | .punct .openBrace => return .yes
    | _ => return .no
  | .punct .openBracket | .punct .openBrace => return .unclear
  | .punct .dotDotDot => return .yes
  | second =>
    if ← isModifiedParameter second then return .yes
    if ← (isIdentifier <||> isAtKeyword .thisKw) then arrowAfterName else return .no

/-- Reads on from the identifier after an opening angle bracket, and says whether it is a type
parameter and not a tag. -/
def typeParameterAhead : Parser Bool := do
  match ← nextKind with
  | .keyword .extendsKw =>
    match ← nextKind with
    | .punct .equals | .punct .greaterThan => return false
    | _ => return true
  | .punct .comma => return true
  | _ => return false

/-- Does a type parameter, and not a tag, start with the identifier after an opening bracket? -/
def typeParameterFollows : Parser Bool := lookAhead typeParameterAhead

/-- After an opening angle bracket. -/
def arrowAfterLessThan : Parser ArrowAnswer := do
  nextToken
  if ← isIdentifier then
    if ← isJsxFile then return ArrowAnswer.certain (← typeParameterFollows)
    else return .unclear
  else return .no

/-- At an opening parenthesis or angle bracket. -/
def arrowAtOpening : Parser ArrowAnswer := do
  match ← kind with
  | .punct .openParen => arrowAfterParen
  | .punct .lessThan => arrowAfterLessThan
  | _ => return .no

def arrowAfterAsync : Parser ArrowAnswer := do
  nextToken
  if ← afterLineBreak then return .no else arrowAtOpening

/-- Does the token start an arrow function that has its parameters in parentheses? -/
def startsArrow : Parser ArrowAnswer := do
  match ← kind with
  | .punct .openParen | .punct .lessThan => lookAhead arrowAtOpening
  | .keyword .asyncKw => lookAhead arrowAfterAsync
  | .punct .equalsGreaterThan => return .yes
  | _ => return .no

/-- Does `async`, the current token, stand before a single parameter and an arrow? -/
def startsAsyncSimpleArrow : Parser Bool := do
  if ← isAtKeyword .asyncKw then
    peek (onSameLine (isIdentifier <&&> afterNext (onSameLine (isAtPunct .equalsGreaterThan))))
  else return false

/-! ## 2. Bodies -/

/-- Does a statement start here where a body was meant, without a brace before it? -/
def startsBareStatement : Parser Bool := do
  match ← kind with
  | .punct .semicolon | .keyword .functionKw | .keyword .classKw => return false
  | _ =>
    if ← startsStatement then return !(← startsExpressionStatement) else return false

/-- The body of an arrow function: a block, statements whose opening brace is missing, or an
expression. -/
def arrowBody (isAsync : Bool) : Parser NodeId := do
  if ← isAtPunct .openBrace then functionBody { isAsync }
  else if ← startsBareStatement then functionBodyWith { isAsync } true none
  else withContext (fun c => { c with awaitContext := isAsync }) (parse .assignment)

/-! ## 3. Heads -/

/-- The head of an arrow function. If it is in doubt whether there is one, the head must be
complete and an arrow or a brace must follow. -/
def arrowHead (certain : Bool) : Parser (Option ArrowHead) := do
  let pos ← nodePos
  let modifiers ← arrowModifiers
  let mode : SignatureMode := { isAsync := modifiers.isSome, strictParens := !certain }
  match ← signatureIf (fun m => typeAfterColon m.inType) mode with
  | none => return none
  | some shape =>
    let head : ArrowHead := ⟨{ pos, modifiers }, shape⟩
    if certain then return some head
    match ← kind with
    | .punct .equalsGreaterThan | .punct .openBrace => return some head
    | _ => return none

def arrowHeadHere : Parser (Option ArrowHead) := do
  match ← startsArrow with
  | .no => return none
  | .yes => arrowHead true
  | .unclear => attempt (arrowHead false)

/-! ## 4. Arrow functions -/

/-- The arrow and the body after a head. Where neither an arrow nor a brace follows, the body is
missing. -/
def arrowAfterHead (head : ArrowHead) : Parser NodeId := do
  let isAsync := head.start.modifiers.isSome
  let bodyFollows ← kindIs fun k => k == .punct .equalsGreaterThan || k == .punct .openBrace
  let arrow ← expectToken (.punct .equalsGreaterThan)
  let body ← if bodyFollows then arrowBody isAsync else identifier
  finishDeclaration .arrowFunction head.start (.functionLike {
    typeParameters := head.shape.typeParameters, parameters := head.shape.parameters
    type := head.shape.type, arrow := some arrow, body := some body })

/-- The arrow and the body after a single parameter without parentheses. -/
def simpleArrow (start : DeclarationStart) (name : NodeId) : Parser NodeId := do
  let pos := (← node name).pos
  let parameter ← finishProduction .parameter pos (.variableLike { name })
  let stop := (← node parameter).stop
  let arrow ← expectToken (.punct .equalsGreaterThan)
  let body ← arrowBody start.modifiers.isSome
  finishDeclaration .arrowFunction start (.functionLike {
    parameters := { pos, stop, nodes := [parameter] }, arrow := some arrow, body := some body })

/-- An asynchronous arrow function with a single parameter, at `async`. -/
def asyncSimpleArrow : Parser NodeId := do
  let pos ← nodePos
  let modifiers ← arrowModifiers
  let name ← identifier
  simpleArrow { pos, modifiers } name

end Parser

end ScriptSyntax
