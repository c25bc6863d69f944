/-
  ScriptSyntax/Grammar/Operands.lean
  ==================================
  Operands: literals, object and array literals, templates, and the chains of
  members and calls that start with one.
-/
import ScriptSyntax.Grammar.Classes
import ScriptSyntax.Grammar.Jsx

namespace ScriptSyntax

namespace Parser

/-! ## 1. Arguments and array elements -/

/-- An element of an array literal, or an argument: an expression, the elements of another one, or
nothing between two commas. -/
def arrayElement : Parser NodeId := do
  match ← kind with
  | .punct .dotDotDot =>
    let pos ← nodePos
    nextToken
    let inner ← parse .assignment
    finishProduction .spreadElement pos (.expression inner)
  | .punct .comma => finishProduction .omittedExpression (← nodePos) .token
  | _ => parse .assignment

def argument : Parser NodeId := allowIn (outsideDecorator arrayElement)

def arguments : Parser NodeArray := do
  let _ ← expectPunct .openParen
  let list ← separated .argumentExpressions argument
  let _ ← expectPunct .closeParen
  return list

/-- Type arguments, which an opening parenthesis must follow. -/
def typeArgumentsBeforeParen : Parser (Option NodeArray) := do
  advance .rescanLess
  if ← isAtPunct .lessThan then
    nextToken
    let list ← separated .typeArguments (parse .type)
    if ← expectPunct .greaterThan then
      if ← isAtPunct .openParen then return some list else return none
    else return none
  else return none

/-- Type arguments of a call, which its arguments must follow. -/
def callTypeArguments : Parser (Option NodeArray) := attempt typeArgumentsBeforeParen

def arrayLiteral : Parser NodeId := do
  let pos ← nodePos
  let openPos ← tokenPos
  let opened ← expectPunct .openBracket
  let multiLine ← afterLineBreak
  let list ← separated .arrayLiteralMembers arrayElement
  expectClosing .openBracket .closeBracket (if opened then some openPos else none)
  finishProduction .arrayLiteralExpression pos (.elements list multiLine)

/-! ## 2. Object literals -/

/-- Reads over `get` or `set` where a name follows on the same line. -/
def acceptAccessorWord (k : Keyword) : Parser Bool := do
  if ← isAtKeyword k then
    attemptIf (afterNext (onSameLine (isAtPunct .openBracket <||> isPropertyName)))
  else return false

/-- A property that is named like the variable it is set to, with a default where the literal is a
pattern. -/
def shorthandProperty (start : DeclarationStart) (name : NodeId) (questionMark : Option NodeId) :
    Parser NodeId := do
  let equalsSign ← acceptToken (.punct .equals)
  let initializer ←
    if equalsSign.isSome then do pure (some (← allowIn (parse .assignment))) else pure none
  finishDeclaration .shorthandPropertyAssignment start
    (.variableLike { name, questionMark, equalsSign, initializer })

def propertyAssignment (start : DeclarationStart) (name : NodeId) (questionMark : Option NodeId) :
    Parser NodeId := do
  let _ ← expectPunct .colon
  let initializer ← allowIn (parse .assignment)
  finishDeclaration .propertyAssignment start
    (.variableLike { name, questionMark, initializer := some initializer })

def objectProperty (start : DeclarationStart) : Parser NodeId := do
  let asterisk ← acceptToken (.punct .asterisk)
  let canBeVariable ← isIdentifier
  let name ← propertyName
  let questionMark ← acceptToken (.punct .question)
  if ← (pure asterisk.isSome <||> isParenOrLessThan) then
    methodAfterName start asterisk name questionMark none
  else if canBeVariable && !(← isAtPunct .colon) then shorthandProperty start name questionMark
  else propertyAssignment start name questionMark

def objectMember : Parser NodeId := do
  let pos ← nodePos
  if ← acceptPunct .dotDotDot then
    let inner ← parse .assignment
    finishProduction .spreadAssignment pos (.expression inner)
  else
    let decorators ← decorators
    let modifiers ← modifiers false
    let start : DeclarationStart := { pos, decorators, modifiers }
    if ← acceptAccessorWord .getKw then accessor .getAccessor start
    else if ← acceptAccessorWord .setKw then accessor .setAccessor start
    else objectProperty start

def objectLiteral : Parser NodeId := do
  let pos ← nodePos
  let openPos ← tokenPos
  let opened ← expectPunct .openBrace
  let multiLine ← afterLineBreak
  let list ← separatedWith .objectLiteralMembers objectMember true
  expectClosing .openBrace .closeBrace (if opened then some openPos else none)
  finishProduction .objectLiteralExpression pos (.objectLiteral list multiLine)

/-! ## 3. Templates -/

/-- An expression in a template and the piece of text after it, and whether another one follows. -/
def templateSpan : Parser (NodeId × Bool) := do
  let pos ← nodePos
  let inner ← allowIn (parse .expression)
  let text ←
    if ← isAtPunct .closeBrace then do
      advance .rescanTemplate
      literalNode
    else missingHere (.template .tail) .tokenExpected [Punctuator.closeBrace.text]
  let goesOn := (← kindOf text) == .template .middle
  return (← finishProduction .templateSpan pos (.templateSpan inner text), goesOn)

def template : Parser NodeId := do
  let pos ← nodePos
  let head ← literalNode
  let spansPos ← nodePos
  let spans ← repeating [] fun read => do
    let (span, goesOn) ← templateSpan
    return if goesOn then .again (span :: read) else .done (span :: read)
  let stop ← nodePos
  finishProduction .templateExpression pos
    (.template head { pos := spansPos, stop, nodes := spans.reverse })

/-! ## 4. Chains -/

/-- The flags of a link of a chain: a chain that is optional stays so. -/
def linkFlags (object : NodeId) (questionDot : Option NodeId) : Parser NodeFlags := do
  if questionDot.isSome then return { optionalChain := true }
  return { optionalChain := (← node object).flags.optionalChain }

/-- Does an optional link start here that is no call? -/
def startsOptionalMember : Parser Bool :=
  isAtPunct .questionDot <&&> peek (kindIs fun k =>
    k.isName || k == .punct .openBracket || k == .literal .noSubstitutionTemplate
      || k == .template .head)

/-- An access by a name, after the dot. -/
def memberByName (pos : Nat) (object : NodeId) (questionDot : Option NodeId) : Parser NodeId := do
  let flags ← linkFlags object questionDot
  let name ← nameAfterDot true
  finishFlagged .propertyAccessExpression pos flags (.propertyAccess object questionDot name)

/-- An access by an expression, after the opening bracket. -/
def memberByIndex (pos : Nat) (object : NodeId) (questionDot : Option NodeId) : Parser NodeId := do
  let flags ← linkFlags object questionDot
  let index ←
    if ← isAtPunct .closeBracket then missingBefore .identifier .expressionExpected []
    else allowIn (parse .expression)
  let _ ← expectPunct .closeBracket
  finishFlagged .elementAccessExpression pos flags (.elementAccess object questionDot index)

/-- A template that the given function is applied to. -/
def taggedTemplate (pos : Nat) (tag : NodeId) : Parser NodeId := do
  let text ←
    if ← isAt (.literal .noSubstitutionTemplate) then literalNode else template
  finishProduction .taggedTemplateExpression pos (.taggedTemplate tag text)

/-- One link after the dot, if there was one, and after the question mark and dot, if they were
there. Brackets do not continue the expression of a decorator: they may name the next member. -/
def memberLink (pos : Nat) (object : NodeId) (questionDot : Option NodeId) :
    Parser (Turn NodeId) := do
  if ← (pure questionDot.isNone <&&> isAtPunct .exclamation) then
    if !(← afterLineBreak) then
      nextToken
      return .again (← finishProduction .nonNullExpression pos (.expression object))
  if questionDot.isSome || !(← context).decoratorContext then
    if ← acceptPunct .openBracket then
      return .again (← memberByIndex pos object questionDot)
  match ← kind with
  | .literal .noSubstitutionTemplate | .template .head =>
    return .again (← taggedTemplate pos object)
  | _ => return .done object

def memberTurn (pos : Nat) (optionalAllowed : Bool) (object : NodeId) : Parser (Turn NodeId) := do
  if ← (pure optionalAllowed <&&> startsOptionalMember) then
    let questionDot ← expectToken (.punct .questionDot)
    if ← isName then return .again (← memberByName pos object (some questionDot))
    memberLink pos object (some questionDot)
  else if ← acceptPunct .dot then return .again (← memberByName pos object none)
  else memberLink pos object none

def memberRest (pos : Nat) (first : NodeId) (optionalAllowed : Bool) : Parser NodeId :=
  repeating first (memberTurn pos optionalAllowed)

/-- One turn of a chain of calls: the members after an expression, and a call of the last one. -/
def callTurn (pos : Nat) (first : NodeId) : Parser (Turn NodeId) := do
  let callee ← memberRest pos first true
  let questionDot ← acceptToken (.punct .questionDot)
  let typeArguments ←
    match ← kind with
    | .punct .lessThan | .punct .lessThanLessThan => callTypeArguments
    | _ => pure none
  if ← (pure typeArguments.isSome <||> isAtPunct .openParen) then
    let flags ← linkFlags callee questionDot
    let list ← arguments
    return .again (← finishFlagged .callExpression pos flags
      (.call callee questionDot typeArguments (some list)))
  match questionDot with
  | none => return .done callee
  | some _ =>
    let name ← missingHere .identifier .identifierExpected []
    return .done (← finishFlagged .propertyAccessExpression pos { optionalChain := true }
      (.propertyAccess callee questionDot name))

/-- The members and calls after an expression. -/
def callRest (pos : Nat) (first : NodeId) : Parser NodeId := repeating first (callTurn pos)

/-! ## 5. Operands -/

def parenthesized : Parser NodeId := do
  let pos ← nodePos
  let _ ← expectPunct .openParen
  let inner ← allowIn (parse .expression)
  let _ ← expectPunct .closeParen
  finishProduction .parenthesizedExpression pos (.expression inner)

/-- A new object, or `new.target`. -/
def newExpression : Parser NodeId := do
  let pos ← nodePos
  let _ ← expectKeyword .newKw
  if ← acceptPunct .dot then
    let name ← name
    finishProduction .metaProperty pos (.metaProperty (.keyword .newKw) name)
  else
    let calleePos ← nodePos
    let first ← parse .primary
    let callee ← memberRest calleePos first false
    let typeArguments ← do
      if ← isAtPunct .lessThan then callTypeArguments else pure none
    let list ← do
      if ← isAtPunct .openParen then pure (some (← arguments)) else pure none
    finishProduction .newExpression pos (.call callee none typeArguments list)

/-- A regular expression, where the slash can be read as the start of one. -/
def regularExpression : Parser NodeId := do
  advance .rescanSlash
  if ← isAt (.literal .regularExpression) then literalNode
  else identifierOr .expressionExpected

/-- An operand without the members and calls after it. -/
def primary : Parser NodeId := do
  match ← kind with
  | .literal .numeric | .literal .bigInt | .literal .string
  | .literal .noSubstitutionTemplate => literalNode
  | .keyword .thisKw | .keyword .superKw | .keyword .nullKw | .keyword .trueKw
  | .keyword .falseKw => tokenNode
  | .punct .openParen => parenthesized
  | .punct .openBracket => arrayLiteral
  | .punct .openBrace => objectLiteral
  | .keyword .asyncKw =>
    if ← peek (onSameLine (isAtKeyword .functionKw)) then functionExpression
    else identifierOr .expressionExpected
  | .keyword .classKw => classLike .classExpression { pos := ← nodePos }
  | .keyword .functionKw => functionExpression
  | .keyword .newKw => newExpression
  | .punct .slash | .punct .slashEquals => regularExpression
  | .template .head => template
  | _ => identifierOr .expressionExpected

/-- An operand and the members after it. -/
def memberExpression : Parser NodeId := do
  let pos ← nodePos
  let first ← primary
  memberRest pos first true

/-- `super`, which must not stand alone. -/
def superExpression : Parser NodeId := do
  let pos ← nodePos
  let word ← tokenNode
  match ← kind with
  | .punct .openParen | .punct .dot | .punct .openBracket => return word
  | _ =>
    let _ ← require (.punct .dot) (some .superWithoutAccess)
    let name ← nameAfterDot true
    finishProduction .propertyAccessExpression pos (.propertyAccess word none name)

/-- `import`, where it is called or has a member. -/
def importExpression (pos : Nat) : Parser NodeId := do
  if ← peek isParenOrLessThan then tokenNode
  else if ← peek (isAtPunct .dot) then
    nextToken
    nextToken
    let name ← name
    finishProduction .metaProperty pos (.metaProperty (.keyword .importKw) name)
  else memberExpression

/-- An operand with the members and calls after it. -/
def leftHandSide : Parser NodeId := do
  let pos ← nodePos
  let first ←
    match ← kind with
    | .keyword .importKw => importExpression pos
    | .keyword .superKw => superExpression
    | _ => memberExpression
  callRest pos first

end Parser

end ScriptSyntax
