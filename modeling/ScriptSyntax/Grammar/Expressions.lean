/-
  ScriptSyntax/Grammar/Expressions.lean
  =====================================
  Expressions: operators in front of, behind and between operands.
-/
import ScriptSyntax.Grammar.Arrows
import ScriptSyntax.Grammar.Operands

namespace ScriptSyntax

namespace Parser

/-! ## 1. One operand -/

/-- Does the token start an operand that may carry `++` or `--`, and no other operator in front?
An angle bracket does where it opens a tag. -/
def startsUpdate : Parser Bool := do
  match ← kind with
  | .punct .plus | .punct .minus | .punct .tilde | .punct .exclamation | .keyword .deleteKw
  | .keyword .typeOfKw | .keyword .voidKw | .keyword .awaitKw => return false
  | .punct .lessThan => isJsxFile
  | _ => return true

def isIncrement : Parser Bool := kindIs fun k => k == .punct .plusPlus || k == .punct .minusMinus

/-- Does a tag open here? -/
def startsJsx : Parser Bool :=
  isJsxFile <&&> isAtPunct .lessThan
    <&&> peek (kindIs fun k => k.isName || k == .punct .greaterThan)

/-- An operand with `++` or `--` before or after it, or a JSX element. -/
def updateExpression : Parser NodeId := do
  let t ← token
  if ← isIncrement then
    nextToken
    let operand ← parse .leftHandSide
    finishProduction .prefixUnaryExpression t.fullStart (.unary t.kind operand)
  else if ← startsJsx then parse (.jsxElement true)
  else
    let operand ← parse .leftHandSide
    let operator ← kind
    if ← (isIncrement <&&> (return !(← afterLineBreak))) then
      nextToken
      finishProduction .postfixUnaryExpression t.fullStart (.unary operator operand)
    else return operand

/-- Is `await`, the current token, an operator? Outside asynchronous functions it is one only where
what follows makes no sense otherwise. -/
def isAwaitExpression : Parser Bool := do
  if (← context).awaitContext then return true else peek isNameOrLiteralOnSameLine

def wordOperator (kind : NodeKind) : Parser NodeId := do
  let pos ← nodePos
  nextToken
  let operand ← parse .simpleUnary
  finishProduction kind pos (.expression operand)

/-- An operand whose type is asserted in front of it. -/
def typeAssertion : Parser NodeId := do
  let pos ← nodePos
  let _ ← expectPunct .lessThan
  let type ← parse .type
  let _ ← expectPunct .greaterThan
  let inner ← parse .simpleUnary
  finishProduction .typeAssertionExpression pos (.typeAssertion type inner)

def prefixOperator : Parser NodeId := do
  let t ← token
  nextToken
  let operand ← parse .simpleUnary
  finishProduction .prefixUnaryExpression t.fullStart (.unary t.kind operand)

/-- An operand with the operators in front of it. -/
def simpleUnary : Parser NodeId := do
  match ← kind with
  | .punct .plus | .punct .minus | .punct .tilde | .punct .exclamation => prefixOperator
  | .keyword .deleteKw => wordOperator .deleteExpression
  | .keyword .typeOfKw => wordOperator .typeOfExpression
  | .keyword .voidKw => wordOperator .voidExpression
  | .punct .lessThan => typeAssertion
  | .keyword .awaitKw =>
    if ← isAwaitExpression then wordOperator .awaitExpression else updateExpression
  | _ => updateExpression

/-! ## 2. Operators between operands -/

/-- Two operands and the operator between them. -/
def binaryExpression (left operator right : NodeId) (pos : Nat) : Parser NodeId :=
  finishProduction .binaryExpression pos (.binary left operator right)

/-- The operator that is the token, if it may follow a left operand that is read at the given
level. Where `in` is no operator it may not. -/
def nextOperator (level : Precedence) : Parser (Option Precedence) := do
  advance .rescanGreater
  let k ← kind
  match Precedence.ofKind? k with
  | none => return none
  | some next =>
    if !level.binds next then return none
    if k == .keyword .inKw && (← context).disallowIn then return none
    return some next

/-- One turn of a chain of operators. `as` is followed by a type and stands on the line of its left
operand. -/
def binaryTurn (level : Precedence) (pos : Nat) (left : NodeId) : Parser (Turn NodeId) := do
  match ← nextOperator level with
  | none => return .done left
  | some next =>
    if ← isAtKeyword .asKw then
      if ← afterLineBreak then return .done left
      nextToken
      let type ← parse .type
      return .again (← finishProduction .asExpression pos (.asExpression left type))
    else
      let operator ← tokenNode
      let right ← parse (.binary next)
      return .again (← binaryExpression left operator right pos)

/-- The operators that bind tighter than the given level, and their right operands. -/
def binaryRest (level : Precedence) (left : NodeId) (pos : Nat) : Parser NodeId :=
  repeating left (binaryTurn level pos)

/-- Reports an operator in front of the base of a power. -/
def reportPowerBase (operator : Kind) (base : NodeId) : Parser Unit := do
  let n ← node base
  let start ← tokenStart base
  if n.kind == .node .typeAssertionExpression then
    errorAtRange start n.stop .assertionBaseOfPower []
  else errorAtRange start n.stop .unaryBaseOfPower [operator.text]

/-- An operand with the operators in front of it and the powers after it. -/
def unary : Parser NodeId := do
  let pos ← nodePos
  let first ← kind
  if ← startsUpdate then
    let operand ← updateExpression
    if ← isAtPunct .asteriskAsterisk then binaryRest .exponentiation operand pos
    else return operand
  else
    let operand ← simpleUnary
    if ← isAtPunct .asteriskAsterisk then reportPowerBase first operand
    return operand

/-- An expression of operators that bind tighter than the given level. -/
def binary (level : Precedence) : Parser NodeId := do
  let pos ← nodePos
  let left ← unary
  binaryRest level left pos

/-! ## 3. Assignments -/

/-- Is `yield`, the current token, an operator? Outside generators it is one only where what
follows makes no sense otherwise. -/
def startsYield : Parser Bool := do
  if ← isAtKeyword .yieldKw then
    if (← context).yieldContext then return true else peek isNameOrLiteralOnSameLine
  else return false

/-- Does an operand of `yield` follow on the same line? -/
def yieldHasOperand : Parser Bool := onSameLine (isAtPunct .asterisk <||> startsExpression)

def yieldExpression : Parser NodeId := do
  let pos ← nodePos
  nextToken
  if ← yieldHasOperand then
    let asterisk ← acceptToken (.punct .asterisk)
    let inner ← parse .assignment
    finishProduction .yieldExpression pos (.yieldExpression asterisk (some inner))
  else finishProduction .yieldExpression pos (.yieldExpression none none)

/-- The rest of a conditional expression, if the question mark is there. -/
def conditionalAfter (condition : NodeId) (pos : Nat) : Parser NodeId := do
  match ← acceptToken (.punct .question) with
  | none => return condition
  | some questionMark =>
    let whenTrue ← allowIn (parse .assignment)
    let colon ← expectToken (.punct .colon)
    let whenFalse ←
      if ← isMissing colon then missingHere .identifier .tokenExpected [Punctuator.colon.text]
      else parse .assignment
    finishProduction .conditionalExpression pos
      (.conditional condition questionMark whenTrue colon whenFalse)

/-- What may follow an expression of operators: an arrow after an identifier, an assignment to a
left-hand side, or the rest of a conditional. -/
def afterOperators (pos : Nat) (first : NodeId) : Parser NodeId := do
  let k ← kindOf first
  if ← (pure (k == .identifier) <&&> isAtPunct .equalsGreaterThan) then
    simpleArrow { pos } first
  else
    if k.isLeftHandSide then
      advance .rescanGreater
      if (← kind).isAssignmentOperator then
        let operator ← tokenNode
        let right ← parse .assignment
        return ← binaryExpression first operator right pos
    conditionalAfter first pos

/-- An expression without commas, the depth of nesting being checked. -/
def assignmentBody : Parser NodeId := do
  if ← startsYield then yieldExpression
  else
    match ← arrowHeadHere with
    | some head => arrowAfterHead head
    | none =>
      if ← startsAsyncSimpleArrow then asyncSimpleArrow
      else
        let pos ← nodePos
        let first ← binary .comma
        afterOperators pos first

/-- An expression without commas. -/
def assignment : Parser NodeId := do return (← nested .expressionExpected assignmentBody).1

/-! ## 4. Expressions -/

/-- An expression. That it is part of a decorator's expression does not matter inside it. -/
def expression : Parser NodeId :=
  outsideDecorator do
    let pos ← nodePos
    let first ← parse .assignment
    repeating first fun left => do
      match ← acceptToken (.punct .comma) with
      | some operator =>
        let right ← parse .assignment
        return .again (← binaryExpression left operator right pos)
      | none => return .done left

end Parser

end ScriptSyntax
