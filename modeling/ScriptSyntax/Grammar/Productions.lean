/-
  ScriptSyntax/Grammar/Productions.lean
  =====================================
  The choice among statements, and the productions that occur inside
  themselves.

  Each production was given the others as something to call; here they get each
  other.  A count of calls that enclose each other makes that a recursion on a
  number, and the count is larger than any text needs.
-/
import ScriptSyntax.Grammar.Declarations
import ScriptSyntax.Grammar.Jsx
import ScriptSyntax.Grammar.Statements

namespace ScriptSyntax

namespace Parser

/-! ## 1. Statements -/

/-- A declaration, where one starts; else an expression or a labeled statement. -/
def declarationOrExpression : Parser NodeId := do
  if ← startsDeclaration then declaration else expressionOrLabeled

/-- A statement, the depth of nesting being checked. A stray part of a `try` statement is one
whose block is missing. -/
def statementBody : Parser NodeId := do
  let pos ← nodePos
  match ← kind with
  | .punct .semicolon => emptyStatement
  | .punct .openBrace => block
  | .keyword .varKw => variableStatement { pos }
  | .keyword .letKw => if ← letDeclares then variableStatement { pos } else expressionOrLabeled
  | .keyword .functionKw => functionDeclaration { pos }
  | .keyword .classKw => classLike .classDeclaration { pos }
  | .keyword .ifKw => ifStatement
  | .keyword .doKw => doStatement
  | .keyword .whileKw => headedStatement .whileKw .whileStatement
  | .keyword .forKw => forStatement
  | .keyword .continueKw => jumpStatement .continueStatement
  | .keyword .breakKw => jumpStatement .breakStatement
  | .keyword .returnKw => returnStatement
  | .keyword .withKw => headedStatement .withKw .withStatement
  | .keyword .switchKw => switchStatement
  | .keyword .throwKw => throwStatement
  | .keyword .tryKw | .keyword .catchKw | .keyword .finallyKw => tryStatement
  | .keyword .debuggerKw => debuggerStatement
  | .punct .atSign => declaration
  | .keyword .asyncKw | .keyword .interfaceKw | .keyword .typeKw | .keyword .moduleKw
  | .keyword .namespaceKw | .keyword .declareKw | .keyword .constKw | .keyword .enumKw
  | .keyword .exportKw | .keyword .importKw | .keyword .privateKw | .keyword .protectedKw
  | .keyword .publicKw | .keyword .abstractKw | .keyword .staticKw | .keyword .readonlyKw
  | .keyword .globalKw => declarationOrExpression
  | _ => expressionOrLabeled

def statement : Parser NodeId := do
  let pos ← nodePos
  let (id, parsed) ← nested .statementExpected statementBody
  if parsed then return id else finishProduction .expressionStatement pos (.expression id)

end Parser

/-! ## 2. The productions -/

/-- How a production is parsed. -/
def Production.body : Production → Parser NodeId
  | statement => Parser.statement
  | expression => Parser.expression
  | assignment => Parser.assignment
  | binary level => Parser.binary level
  | simpleUnary => Parser.simpleUnary
  | leftHandSide => Parser.leftHandSide
  | primary => Parser.primary
  | type => Parser.type
  | typeOperator => Parser.typeOperator
  | bindingName => Parser.bindingName
  | jsxElement inExpression => Parser.jsxElement inExpression
  | namespaceDeclaration start flags => Parser.namespaceDeclaration start flags

/-- Parses a production, where at most the given number of calls may enclose each other. -/
def Production.run (file : SourceFacts) : Nat → Production → ParserState → NodeId × ParserState
  | 0, _, s => (⟨0⟩, { s with fault := s.fault <|> some .outOfSteps })
  | count + 1, p, s => p.body { file, call := run file count } s

/-- The number of calls that may enclose each other. Between two tokens a chain of calls goes once
through the kinds of production, and at the end of the text the nesting that is left closes. -/
def SourceFacts.callLimit (file : SourceFacts) : Nat := 16 * (file.text.size + 128)

/-- What the productions of a file read. -/
def SourceFacts.surroundings (file : SourceFacts) : Surroundings :=
  { file, call := Production.run file file.callLimit }

/-- The state before the first token. -/
def ParserState.initial (context : ContextFlags) : ParserState where
  token := .before 0
  arena := .empty
  names := .empty
  log := .empty
  errorPending := false
  identifierCount := 0
  fault := none
  scope := { context, openLists := [], depth := 0 }

/-- Runs a parser on a whole file, from the state before the first token. -/
def Parser.runOn {α : Type} (p : Parser α) (file : SourceFacts) (context : ContextFlags) :
    α × ParserState :=
  p file.surroundings (.initial context)

end ScriptSyntax
