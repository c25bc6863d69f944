/-
  ScriptSyntax/Grammar/Signatures.lean
  ====================================
  What comes before the body of a declaration: decorators, modifiers, type
  parameters, parameters and return types.
-/
import ScriptSyntax.Grammar.Lists
import ScriptSyntax.Grammar.Names

namespace ScriptSyntax

/-- How the parameters and the body of a signature are read. -/
structure SignatureMode where
  isGenerator : Bool := false
  isAsync : Bool := false
  /-- The signature is part of a type. -/
  inType : Bool := false
  /-- Give up where a parenthesis is missing. -/
  strictParens : Bool := false

/-- A signature without parameters, which stands for one that was given up. -/
def SignatureShape.empty : SignatureShape := { parameters := .empty 0 }

namespace Parser

/-! ## 1. Decorators and modifiers -/

/-- The nodes as a list that ends before the token, or nothing if there are none. -/
def nonEmptyArray (pos : Nat) (nodes : List NodeId) : Parser (Option NodeArray) := do
  if nodes.isEmpty then return none
  return some { pos, stop := ← nodePos, nodes := nodes.reverse }

def decorators : Parser (Option NodeArray) := do
  let pos ← nodePos
  let nodes ← repeating [] fun read => do
    let start ← nodePos
    if ← acceptPunct .atSign then
      let inner ← inDecorator (parse .leftHandSide)
      return .again ((← finishProduction .decorator start (.expression inner)) :: read)
    else return .done read
  nonEmptyArray pos nodes

/-- Reads over a modifier: a word that can be one, if the token after it may follow a modifier. -/
def acceptModifier : Parser Bool := do
  if (← kind).isModifier then attemptIf tokenIsModifier else return false

/-- Reads over the given word, if the token after it may follow a modifier. -/
def acceptContextualWord (k : Keyword) : Parser Bool := do
  if ← isAtKeyword k then attemptIf tokenIsModifier else return false

/-- Modifiers, if there are any. In a class `const` counts as one, where told so. -/
def modifiers (constAllowed : Bool) : Parser (Option NodeArray) := do
  let pos ← nodePos
  let nodes ← repeating [] fun read => do
    let t ← token
    let found ←
      if constAllowed && t.kind == .keyword .constKw then attemptIf nextFollowsModifier
      else acceptModifier
    if found then return .again ((← finishNode t.kind t.fullStart .token) :: read)
    else return .done read
  nonEmptyArray pos nodes

/-- The one modifier of an arrow function, `async`, if it is there. -/
def arrowModifiers : Parser (Option NodeArray) := do
  if ← isAtKeyword .asyncKw then
    let pos ← nodePos
    let word ← tokenNode
    return some { pos, stop := ← nodePos, nodes := [word] }
  else return none

/-- Does a list of modifiers hold the given word? -/
def hasModifier (list : Option NodeArray) (k : Keyword) : Parser Bool := do
  match list with
  | none => return false
  | some modifiers => modifiers.nodes.anyM fun id => return (← kindOf id) == .keyword k

/-- How the signature of a function with the given asterisk and modifiers is read. -/
def functionMode (asterisk : Option NodeId) (list : Option NodeArray) : Parser SignatureMode := do
  return { isGenerator := asterisk.isSome, isAsync := ← hasModifier list .asyncKw }

/-! ## 2. Annotations and initializers -/

/-- A colon and a type, if the colon is there. -/
def typeAnnotation : Parser (Option NodeId) := do
  if ← acceptPunct .colon then return some (← parse .type) else return none

/-- Is there an initializer? An expression on the same line is one even without the equals sign,
but not a brace after a parameter. -/
def hasInitializer (inParameter : Bool) : Parser Bool := do
  match ← kind with
  | .punct .equals => return true
  | k =>
    if ← afterLineBreak then return false
    if inParameter && k == .punct .openBrace then return false
    startsExpression

def initializerIn (inParameter : Bool) : Parser (Option NodeId) := do
  if ← hasInitializer inParameter then
    let _ ← expectPunct .equals
    return some (← parse .assignment)
  else return none

/-- An initializer outside parameters, if there is one. -/
def initializer : Parser (Option NodeId) := initializerIn false

/-! ## 3. Parameters -/

/-- The parameter `this`, after the given decorators. -/
def thisParameter (start : DeclarationStart) : Parser NodeId := do
  let name ← identifierIf true .identifierExpected
  let type ← typeAnnotation
  finishDeclaration .parameter start (.variableLike { name, type })

/-- Skips a word that was taken for a modifier and left no name. -/
def skipStrayModifier (name : NodeId) (list : Option NodeArray) : Parser Unit := do
  if list.isNone then
    if ← isMissing name then
      if (← kind).isModifier then nextToken

def parameter : Parser NodeId := do
  let pos ← nodePos
  let decorators ← decorators
  if ← isAtKeyword .thisKw then thisParameter { pos, decorators }
  else
    let modifiers ← modifiers false
    let dots ← acceptToken (.punct .dotDotDot)
    let name ← parse .bindingName
    skipStrayModifier name modifiers
    let questionMark ← acceptToken (.punct .question)
    let type ← typeAnnotation
    let initializer ← initializerIn true
    finishDeclaration .parameter { pos, decorators, modifiers }
      (.variableLike { dots, name, questionMark, type, initializer })

/-- A list of parameters, or nothing where it is to be given up. -/
def parameterList (mode : SignatureMode) : Parser (Option NodeArray) := do
  if ← expectPunct .openParen then
    let list ← inFunction mode.isGenerator mode.isAsync (separated .parameters parameter)
    let closed ← expectPunct .closeParen
    if mode.strictParens && !closed then return none else return some list
  else if mode.strictParens then return none
  else return some (← missingList)

def typeParameter : Parser NodeId := do
  let pos ← nodePos
  let name ← identifier
  let constraint ← do
    if ← acceptKeyword .extendsKw then pure (some (← parse .type)) else pure none
  let default ← do
    if ← acceptPunct .equals then pure (some (← parse .type)) else pure none
  finishProduction .typeParameter pos (.typeParameter name constraint default)

def typeParameters : Parser (Option NodeArray) := do
  if ← isAtPunct .lessThan then
    return some (← bracketed .typeParameters typeParameter .lessThan .greaterThan)
  else return none

/-! ## 4. Signatures -/

/-- The name of a parameter and `is`, as a return type may start. -/
def predicateStart : Parser (Option NodeId) := do
  let name ← identifier
  if ← isAtKeyword .isKw then
    if ← afterLineBreak then return none
    nextToken
    return some name
  else return none

/-- A return type, which may say what a parameter is. -/
def returnType : Parser NodeId := do
  let pos ← nodePos
  let name ← do
    if ← isIdentifier then attempt predicateStart else pure none
  let type ← parse .type
  match name with
  | some name => finishProduction .typePredicate pos (.typePredicate name type)
  | none => return type

/-- The return type of a signature, after an arrow. -/
def typeAfterArrow : Parser (Option NodeId) := do
  let _ ← expectPunct .equalsGreaterThan
  return some (← returnType)

/-- The return type of a signature, after a colon, if there is one. In a type an arrow in place of
the colon is reported and taken for it. -/
def typeAfterColon (inType : Bool) : Parser (Option NodeId) := do
  if ← acceptPunct .colon then return some (← returnType)
  if inType then
    if ← isAtPunct .equalsGreaterThan then
      expectedHere (.punct .colon)
      nextToken
      return some (← returnType)
  return none

/-- Type parameters, parameters and return type, or nothing where it is to be given up. -/
def signatureIf (returns : SignatureMode → Parser (Option NodeId)) (mode : SignatureMode) :
    Parser (Option SignatureShape) := do
  let typeParameters ← typeParameters
  match ← parameterList mode with
  | none => return none
  | some parameters => return some { typeParameters, parameters, type := ← returns mode }

/-- A signature that has its return type after a colon. -/
def signature (mode : SignatureMode) : Parser SignatureShape := do
  return (← signatureIf (fun m => typeAfterColon m.inType) mode).getD .empty

/-- A signature that has its return type after an arrow. -/
def arrowSignature (mode : SignatureMode) : Parser SignatureShape := do
  return (← signatureIf (fun _ => typeAfterArrow) mode).getD .empty

end Parser

end ScriptSyntax
