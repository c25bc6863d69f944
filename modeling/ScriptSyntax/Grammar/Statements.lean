/-
  ScriptSyntax/Grammar/Statements.lean
  ====================================
  Statements other than declarations.
-/
import ScriptSyntax.Grammar.Expressions

namespace ScriptSyntax

namespace Parser

/-! ## 1. Conditions and loops -/

/-- An expression in parentheses, as in the head of a statement. -/
def headExpression : Parser NodeId := do
  let openPos ← tokenPos
  let opened ← expectPunct .openParen
  let inner ← allowIn (parse .expression)
  expectClosing .openParen .closeParen (if opened then some openPos else none)
  return inner

def ifStatement : Parser NodeId := do
  let pos ← nodePos
  let _ ← expectKeyword .ifKw
  let condition ← headExpression
  let whenTrue ← parse .statement
  let whenFalse ← do
    if ← acceptKeyword .elseKw then pure (some (← parse .statement)) else pure none
  finishProduction .ifStatement pos (.ifStatement condition whenTrue whenFalse)

/-- A `do` statement. A semicolon after it belongs to it, but need not be there. -/
def doStatement : Parser NodeId := do
  let pos ← nodePos
  let _ ← expectKeyword .doKw
  let body ← parse .statement
  let _ ← expectKeyword .whileKw
  let condition ← headExpression
  let _ ← acceptPunct .semicolon
  finishProduction .doStatement pos (.doStatement body condition)

/-- A statement that is a keyword, an expression in parentheses and a statement. -/
def headedStatement (keyword : Keyword) (kind : NodeKind) : Parser NodeId := do
  let pos ← nodePos
  let _ ← expectKeyword keyword
  let condition ← headExpression
  let body ← parse .statement
  finishProduction kind pos (.whileStatement condition body)

/-- An expression, unless the token is one that may stand in its place in the head of a loop. -/
def loopExpression (absent : Kind → Bool) : Parser (Option NodeId) := do
  if absent (← kind) then return none else return some (← allowIn (parse .expression))

/-- What a loop starts with, if anything. -/
def loopInitializer : Parser (Option NodeId) := do
  match ← kind with
  | .punct .semicolon => return none
  | .keyword .varKw | .keyword .letKw | .keyword .constKw =>
    return some (← variableDeclarationList true)
  | _ => return some (← disallowIn (parse .expression))

/-- The rest of a loop over the keys of an object or the elements of a sequence, at `in` or `of`. -/
def forInOfRest (pos : Nat) (awaitWord initializer : Option NodeId) (overKeys : Bool) :
    Parser NodeId := do
  let _ ← expectKeyword (if overKeys then .inKw else .ofKw)
  let initializer ← match initializer with
    | some id => pure id
    | none => missingBefore .identifier .variableDeclarationExpected []
  let source ← allowIn (parse (if overKeys then .expression else .assignment))
  let _ ← expectPunct .closeParen
  let body ← parse .statement
  finishProduction (if overKeys then .forInStatement else .forOfStatement) pos
    (.forInOf awaitWord initializer source body)

/-- The rest of a loop with a condition and an increment. -/
def forRest (pos : Nat) (initializer : Option NodeId) : Parser NodeId := do
  let _ ← expectPunct .semicolon
  let condition ← loopExpression fun k => k == .punct .semicolon || k == .punct .closeParen
  let _ ← expectPunct .semicolon
  let increment ← loopExpression fun k => k == .punct .closeParen
  let _ ← expectPunct .closeParen
  let body ← parse .statement
  finishProduction .forStatement pos (.forStatement initializer condition increment body)

/-- A `for` statement of any form. After `for await` only `of` may follow. -/
def forStatement : Parser NodeId := do
  let pos ← nodePos
  let _ ← expectKeyword .forKw
  let awaitWord ← acceptToken (.keyword .awaitKw)
  let _ ← expectPunct .openParen
  let initializer ← loopInitializer
  if awaitWord.isSome then forInOfRest pos awaitWord initializer false
  else
    match ← kind with
    | .keyword .inKw => forInOfRest pos none initializer true
    | .keyword .ofKw => forInOfRest pos none initializer false
    | _ => forRest pos initializer

/-! ## 2. Jumps -/

def jumpStatement (kind : NodeKind) : Parser NodeId := do
  let pos ← nodePos
  nextToken
  let label ← do
    if ← canEndStatement then pure none else pure (some (← identifier))
  semicolon
  finishProduction kind pos (.jump label)

def returnStatement : Parser NodeId := do
  let pos ← nodePos
  let _ ← expectKeyword .returnKw
  let value ← do
    if ← canEndStatement then pure none else pure (some (← allowIn (parse .expression)))
  semicolon
  finishProduction .returnStatement pos (.returnStatement value)

/-- A `throw` statement, whose operand must be on the same line. -/
def throwStatement : Parser NodeId := do
  let pos ← nodePos
  let _ ← expectKeyword .throwKw
  let value ←
    if ← afterLineBreak then missingHere .identifier .lineBreakNotPermitted []
    else allowIn (parse .expression)
  semicolon
  finishProduction .throwStatement pos (.expression value)

/-! ## 3. Branches -/

def switchClause : Parser NodeId := do
  let pos ← nodePos
  let guard ← do
    if ← acceptKeyword .caseKw then pure (some (← allowIn (parse .expression)))
    else do
      let _ ← expectKeyword .defaultKw
      pure none
  let _ ← expectPunct .colon
  let statements ← elements .switchClauseStatements (parse .statement)
  finishProduction (if guard.isSome then .caseClause else .defaultClause) pos
    (.caseClause guard statements)

def switchStatement : Parser NodeId := do
  let pos ← nodePos
  let _ ← expectKeyword .switchKw
  let subject ← headExpression
  let blockPos ← nodePos
  let _ ← expectPunct .openBrace
  let clauses ← elements .switchClauses switchClause
  let _ ← expectPunct .closeBrace
  let cases ← finishProduction .caseBlock blockPos (.caseBlock clauses)
  finishProduction .switchStatement pos (.switchStatement subject cases)

def catchClause : Parser NodeId := do
  let pos ← nodePos
  let _ ← expectKeyword .catchKw
  let binding ← do
    if ← acceptPunct .openParen then
      let declared ← variableDeclaration
      let _ ← expectPunct .closeParen
      pure (some declared)
    else pure none
  let body ← block
  finishProduction .catchClause pos (.catchClause binding body)

/-- A `try` statement. It needs one of the two parts after its block. -/
def tryStatement : Parser NodeId := do
  let pos ← nodePos
  let _ ← expectKeyword .tryKw
  let body ← block
  let handler ← do
    if ← isAtKeyword .catchKw then pure (some (← catchClause)) else pure none
  let finalizer ← do
    if ← (pure handler.isNone <||> isAtKeyword .finallyKw) then
      let _ ← expectKeyword .finallyKw
      pure (some (← block))
    else pure none
  finishProduction .tryStatement pos (.tryStatement body handler finalizer)

/-! ## 4. Simple statements -/

/-- A semicolon by itself. -/
def emptyStatement : Parser NodeId := do
  let pos ← nodePos
  nextToken
  finishProduction .emptyStatement pos .token

def debuggerStatement : Parser NodeId := do
  let pos ← nodePos
  nextToken
  semicolon
  finishProduction .debuggerStatement pos .token

/-- An expression, or a label and the statement after it. -/
def expressionOrLabeled : Parser NodeId := do
  let pos ← nodePos
  let inner ← allowIn (parse .expression)
  let isLabel := (← kindOf inner) == .identifier
  if ← (pure isLabel <&&> acceptPunct .colon) then
    let statement ← parse .statement
    finishProduction .labeledStatement pos (.labeled inner statement)
  else
    semicolon
    finishProduction .expressionStatement pos (.expression inner)

end Parser

end ScriptSyntax
