/-
  ScriptSyntax/Grammar/Parser.lean
  ================================
  Parsers: what a production may read, what it changes, and the steps that all
  productions are made of.

  A production reads its file and changes one state.  What surrounds it (the
  context flags, the lists that are open, the nesting depth) stands in the state
  too: whoever changes it for a part puts it back after that part.  A trial run
  that is not kept is rewound: the tree and the log are cut back to the size that
  they had, and of the surroundings the context is put back.  Names stay in their
  table.
-/
import ScriptSyntax.Diagnostic.Log
import ScriptSyntax.Grammar.ListContext
import ScriptSyntax.Grammar.Precedence
import ScriptSyntax.Kind.Spelling
import ScriptSyntax.Path
import ScriptSyntax.Token.Scanner
import ScriptSyntax.Tree.Arena
import ScriptSyntax.Trivia.Skip

namespace ScriptSyntax

/-! ## 1. State -/

/-- A failure of the parser itself. No text causes one. -/
inductive Fault where
  /-- The statements of the file ended before the file. -/
  | statementsEndedEarly (kind : Kind)
  /-- A node would end before it starts. -/
  | backwardsNode (kind : Kind) (stop pos : Nat)
  /-- A token that no scan between tags gives. -/
  | unexpectedJsxChild (kind : Kind)
  /-- A number that no finished node has. -/
  | noSuchNode (id : NodeId)
  /-- The bound on the number of steps was met. -/
  | outOfSteps
  deriving DecidableEq, Repr

def Fault.describe : Fault → String
  | .statementsEndedEarly kind =>
    "statement list stopped at " ++ kind.name ++ " before the end of the file"
  | .backwardsNode kind stop pos =>
    kind.name ++ " would end at " ++ toString stop ++ " before its start " ++ toString pos
  | .unexpectedJsxChild kind => "unexpected JSX child token " ++ kind.name
  | .noSuchNode id => "no node " ++ id.describe
  | .outOfSteps => "out of steps"

/-- What surrounds a production. -/
structure Scope where
  context : ContextFlags
  /-- The lists that are being read. -/
  openLists : List ListContext
  /-- The number of statements, expressions and types that enclose the production. -/
  depth : Nat

/-- What productions change. -/
structure ParserState where
  /-- The token to be read next. -/
  token : Token
  arena : Arena
  names : NameTable
  log : DiagnosticLog
  /-- An error was reported, and no node has been finished since. -/
  errorPending : Bool
  /-- The number of identifiers read, missing ones included. -/
  identifierCount : Nat
  /-- The first fault, if there was one. -/
  fault : Option Fault
  scope : Scope

namespace ParserState

/-- The state with the given context flags. -/
def inContext (s : ParserState) (context : ContextFlags) : ParserState :=
  { s with scope := { s.scope with context } }

/-- The state with the given lists open. -/
def withLists (s : ParserState) (openLists : List ListContext) : ParserState :=
  { s with scope := { s.scope with openLists } }

/-- The state at the given depth of nesting. -/
def atDepth (s : ParserState) (depth : Nat) : ParserState :=
  { s with scope := { s.scope with depth } }

end ParserState

/-- What a trial run has to remember. -/
structure Snapshot where
  token : Token
  /-- The number of nodes. -/
  made : Nat
  /-- The number of diagnostics. -/
  logged : Nat
  errorPending : Bool
  identifierCount : Nat
  context : ContextFlags

/-- What is remembered of a state. -/
def ParserState.snapshot (s : ParserState) : Snapshot where
  token := s.token
  made := s.arena.size
  logged := s.log.size
  errorPending := s.errorPending
  identifierCount := s.identifierCount
  context := s.scope.context

/-- Goes back to a state that was remembered. Younger nodes and diagnostics are cut off; names met
since then stay in the table, and a fault stays known. -/
def ParserState.rewind (s : ParserState) (before : Snapshot) : ParserState :=
  { s.inContext before.context with
    token := before.token
    arena := s.arena.truncate before.made
    log := s.log.truncate before.logged
    errorPending := before.errorPending
    identifierCount := before.identifierCount }

/-! ## 2. Surroundings -/

/-- The file that is parsed. -/
structure SourceFacts where
  name : String
  text : Array Char
  variant : LanguageVariant

/-- A declaration whose keyword has not been read yet: where it starts, and what came before. -/
structure DeclarationStart where
  pos : Nat
  decorators : Option NodeArray := none
  modifiers : Option NodeArray := none

/-- The productions that occur inside themselves. -/
inductive Production where
  | statement
  | expression
  | assignment
  | binary (level : Precedence)
  | simpleUnary
  | leftHandSide
  | primary
  | type
  | typeOperator
  | bindingName
  | jsxElement (inExpression : Bool)
  | namespaceDeclaration (start : DeclarationStart) (flags : NodeFlags)

/-- Everything that a production reads: the file, and how to parse the productions inside it. -/
structure Surroundings where
  file : SourceFacts
  call : Production → ParserState → NodeId × ParserState

/-- A parser reads its surroundings and changes the state. -/
abbrev Parser (α : Type) := ReaderT Surroundings (StateM ParserState) α

namespace Parser

/-! ## 3. Looking around -/

def token : Parser Token := do return (← get).token

/-- The kind of the token to be read next. -/
def kind : Parser Kind := do return (← token).kind

/-- Is the token of the given kind? -/
def isAt (k : Kind) : Parser Bool := do return (← kind) == k

/-- Is the token the given punctuator? -/
def isAtPunct (p : Punctuator) : Parser Bool := isAt (.punct p)

def isAtKeyword (k : Keyword) : Parser Bool := isAt (.keyword k)

/-- Where a node that starts with the token starts: at the trivia before it. -/
def nodePos : Parser Nat := do return (← token).fullStart

def tokenPos : Parser Nat := do return (← token).start

/-- Does a line break stand before the token? -/
def afterLineBreak : Parser Bool := do return (← token).flags.precedingLineBreak

/-- The context flags of the production. -/
def context : Parser ContextFlags := do return (← get).scope.context

/-- Are tags part of the syntax? -/
def isJsxFile : Parser Bool := do return (← read).file.variant == .jsx

/-! ## 4. Failures, finished nodes and errors -/

/-- Notes a failure of the parser itself. The first one counts. -/
def fail (f : Fault) : Parser Unit :=
  modify fun s => { s with fault := s.fault <|> some f }

/-- A finished node. A number without a node is a failure, and an empty token at the start is
given in its place. -/
def node (id : NodeId) : Parser Node := do
  match (← get).arena.get? id with
  | some n => return n
  | none =>
    fail (.noSuchNode id)
    return { kind := .unknown, pos := 0, stop := 0, payload := .token }

def kindOf (id : NodeId) : Parser Kind := do return (← node id).kind

/-- Does the node stand for something that the source lacks? -/
def isMissing (id : NodeId) : Parser Bool := do return (← node id).isMissing

/-- Reports an error, unless the error reported last starts at the same position. The next node
to be finished is marked in either case. -/
def errorAt (start length : Nat) (m : Message) (args : List String) : Parser Unit := do
  let name := (← read).file.name
  modify fun s =>
    { s with log := s.log.report (.ofMessageAt name ⟨start, length⟩ m args), errorPending := true }

/-- Reports an error about a stretch of text. -/
def errorAtRange (pos stop : Nat) (m : Message) (args : List String) : Parser Unit :=
  errorAt pos (stop - pos) m args

/-- Reports an error about the token. -/
def errorHere (m : Message) (args : List String) : Parser Unit := do
  let t ← token
  errorAt t.start (t.stop - t.start) m args

/-- Reports that a token of the given kind is expected. -/
def expectedHere (k : Kind) : Parser Unit := errorHere .tokenExpected [k.text]

/-! ## 5. Reading tokens -/

/-- Reads the next token, or the current one again, and reports the errors met on the way. -/
def advance (mode : ReadingMode) : Parser Unit := do
  let text := (← read).file.text
  let (token, errors) := mode.read text (← get).token
  modify fun s => { s with token }
  errors.forM fun e => errorAt e.start e.length e.message []

def nextToken : Parser Unit := advance .scan

/-- Reads the next token and gives its kind. -/
def nextKind : Parser Kind := do
  nextToken
  kind

/-- Reads over a token of the given kind, if it is there. -/
def accept (k : Kind) : Parser Bool := do
  if (← kind) == k then
    nextToken
    return true
  else return false

/-- Reads over the given punctuator, if it is there. -/
def acceptPunct (p : Punctuator) : Parser Bool := accept (.punct p)

/-- Reads over the given keyword, if it is there. -/
def acceptKeyword (k : Keyword) : Parser Bool := accept (.keyword k)

/-- Is a token of the given kind there? If it is not, that is reported, by the given message if
there is one. -/
def require (k : Kind) (m : Option Message) : Parser Bool := do
  if (← kind) == k then return true
  match m with
  | some m => errorHere m []
  | none => expectedHere k
  return false

/-- Reads over a token of the given kind, or reports that it is missing. -/
def expectWith (k : Kind) (m : Option Message) : Parser Bool := do
  if ← require k m then
    nextToken
    return true
  else return false

/-- Reads over a token of the given kind, or reports that it is missing. -/
def expect (k : Kind) : Parser Bool := expectWith k none

/-- Reads over the given punctuator, or reports that it is missing. -/
def expectPunct (p : Punctuator) : Parser Bool := expect (.punct p)

/-- Reads over the given keyword, or reports that it is missing. -/
def expectKeyword (k : Keyword) : Parser Bool := expect (.keyword k)

/-- Reads over a closing bracket. Where it is missing and that is news, the report points back to
the opening bracket, if that was found. -/
def expectClosing (opening closing : Punctuator) (opened : Option Nat) : Parser Unit := do
  if ← acceptPunct closing then return
  let count := (← get).log.size
  expectedHere (.punct closing)
  match opened with
  | none => return
  | some pos =>
    if count < (← get).log.size then
      let name := (← read).file.name
      let note := Note.ofMessageAt name ⟨pos, 1⟩ .matchingTokenExpected [closing.text, opening.text]
      modify fun s => { s with log := s.log.relateToLast note }

/-- May a statement end here without a semicolon? -/
def canEndStatement : Parser Bool := do
  match ← kind with
  | .punct .semicolon | .punct .closeBrace | .endOfFile => return true
  | _ => afterLineBreak

/-- The end of a statement: a semicolon, which may be left out before a closing brace, at the end
of the file and after a line break. -/
def semicolon : Parser Unit := do
  if ← canEndStatement then
    let _ ← acceptPunct .semicolon
  else
    let _ ← expectPunct .semicolon

/-! ## 6. Finishing nodes -/

/-- Puts a node into the arena. It carries the context it was parsed in, and the mark of an error
if one was reported since the node before it. -/
def finishAt (n : Node) : Parser NodeId := do
  let context ← context
  modifyGet fun s =>
    let flags := { n.flags with
      context := n.flags.context.join context
      hasError := n.flags.hasError || s.errorPending }
    let (id, arena) := s.arena.alloc { n with flags }
    (id, { s with arena, errorPending := false })

/-- Puts a node into the arena that ends where the token before the current one does. -/
def finish (n : Node) : Parser NodeId := do
  let stop ← nodePos
  if stop < n.pos then fail (.backwardsNode n.kind stop n.pos)
  finishAt { n with stop := max stop n.pos }

def finishNode (kind : Kind) (pos : Nat) (payload : Payload) : Parser NodeId :=
  finish { kind, pos, stop := pos, payload }

def finishProduction (kind : NodeKind) (pos : Nat) (payload : Payload) : Parser NodeId :=
  finishNode (.node kind) pos payload

/-- Finishes a production that has flags of its own. -/
def finishFlagged (kind : NodeKind) (pos : Nat) (flags : NodeFlags) (payload : Payload) :
    Parser NodeId :=
  finish { kind := .node kind, pos, stop := pos, flags, payload }

def finishDeclaration (kind : NodeKind) (start : DeclarationStart) (payload : Payload) :
    Parser NodeId :=
  finish {
    kind := .node kind, pos := start.pos, stop := start.pos, decorators := start.decorators
    modifiers := start.modifiers, payload }

def finishFlaggedDeclaration (kind : NodeKind) (start : DeclarationStart) (flags : NodeFlags)
    (payload : Payload) : Parser NodeId :=
  finish {
    kind := .node kind, pos := start.pos, stop := start.pos, flags
    decorators := start.decorators, modifiers := start.modifiers, payload }

/-- Enters a name into the table. -/
def intern (name : String) : Parser NameId :=
  modifyGet fun s =>
    let (id, names) := s.names.intern name
    (id, { s with names })

def countIdentifier : Parser Unit :=
  modify fun s => { s with identifierCount := s.identifierCount + 1 }

/-- The payload of a node of the given kind that stands for something missing. -/
def missingPayload (k : Kind) : Parser Payload := do
  match k with
  | .identifier => return .identifier (← intern "") none
  | .literal _ | .template _ => return .literal "" {}
  | _ => return .token

/-- An empty node for something that is missing; nothing is reported. -/
def missingNode (k : Kind) : Parser NodeId := do
  let pos ← nodePos
  let payload ← missingPayload k
  finishAt { kind := k, pos, stop := pos, payload }

/-- An empty node for something that is missing. The report is about the token. -/
def missingHere (k : Kind) (m : Message) (args : List String) : Parser NodeId := do
  errorHere m args
  missingNode k

/-- An empty node for something that is missing. The report is about the place after the token
before, and has no length. -/
def missingBefore (k : Kind) (m : Message) (args : List String) : Parser NodeId := do
  errorAt (← nodePos) 0 m args
  missingNode k

/-- An empty list for one that is missing. -/
def missingList : Parser NodeArray := do return .empty (← nodePos)

def tokenNode : Parser NodeId := do
  let t ← token
  nextToken
  finishNode t.kind t.fullStart .token

/-- The token as a node, if it is of the given kind. -/
def acceptToken (k : Kind) : Parser (Option NodeId) := do
  if (← kind) == k then return some (← tokenNode) else return none

/-- The token as a node, or an empty node where it is missing. -/
def expectToken (k : Kind) : Parser NodeId := do
  match ← acceptToken k with
  | some id => return id
  | none => missingHere k .tokenExpected [k.text]

def literalNode : Parser NodeId := do
  let t ← token
  nextToken
  finishNode t.kind t.fullStart (.literal t.value t.flags)

/-! ## 7. Surroundings of a part -/

/-- Parses in another context, which ends with the part. -/
def withContext {α : Type} (f : ContextFlags → ContextFlags) (p : Parser α) : Parser α := do
  let saved ← context
  modify fun s => s.inContext (f saved)
  let result ← p
  modify fun s => s.inContext saved
  return result

/-- Parses where `in` is an operator. -/
def allowIn {α : Type} (p : Parser α) : Parser α :=
  withContext (fun c => { c with disallowIn := false }) p

/-- Parses where `in` is no operator. -/
def disallowIn {α : Type} (p : Parser α) : Parser α :=
  withContext (fun c => { c with disallowIn := true }) p

def inDecorator {α : Type} (p : Parser α) : Parser α :=
  withContext (fun c => { c with decoratorContext := true }) p

/-- Parses what is not itself the expression of a decorator. -/
def outsideDecorator {α : Type} (p : Parser α) : Parser α :=
  withContext (fun c => { c with decoratorContext := false }) p

/-- Parses where a conditional type may stand. -/
def allowConditionalTypes {α : Type} (p : Parser α) : Parser α :=
  withContext (fun c => { c with disallowConditionalTypes := false }) p

/-- Parses where a conditional type may not stand. -/
def disallowConditionalTypes {α : Type} (p : Parser α) : Parser α :=
  withContext (fun c => { c with disallowConditionalTypes := true }) p

/-- Parses inside a function: whether it is a generator and whether it is asynchronous decides
what `yield` and `await` are. -/
def inFunction {α : Type} (isGenerator isAsync : Bool) (p : Parser α) : Parser α :=
  withContext (fun c => { c with yieldContext := isGenerator, awaitContext := isAsync }) p

/-- Parses with one more list open. -/
def inList {α : Type} (list : ListContext) (p : Parser α) : Parser α := do
  let saved := (← get).scope.openLists
  modify fun s => s.withLists (list :: saved)
  let result ← p
  modify fun s => s.withLists saved
  return result

/-- Parses a production that may occur inside itself. -/
def parse (p : Production) : Parser NodeId := fun env s => env.call p s

/-! ## 8. Trial runs -/

/-- Runs a parser, and rewinds unless `keep` holds of its result. -/
def speculate {α : Type} (keep : α → Bool) (p : Parser α) : Parser α := do
  let before := (← get).snapshot
  let result ← p
  if !keep result then modify fun s => s.rewind before
  return result

/-- Runs a parser and rewinds. -/
def lookAhead {α : Type} (p : Parser α) : Parser α := speculate (fun _ => false) p

/-- Runs a parser, and rewinds if it gives nothing. -/
def attempt {α : Type} (p : Parser (Option α)) : Parser (Option α) := speculate Option.isSome p

/-- Runs a parser, and rewinds if the answer is no. -/
def attemptIf (p : Parser Bool) : Parser Bool := speculate id p

/-! ## 9. Repetition -/

/-- What a turn of a loop gives: on to another turn, or the result. -/
inductive Turn (σ : Type) where
  | again (s : σ)
  | done (s : σ)

/-- Takes turns until one gives a result, the given number of turns at most. -/
def repeatUpTo {σ : Type} (turn : σ → Parser (Turn σ)) : Nat → σ → Parser σ
  | 0, s => do
    fail .outOfSteps
    return s
  | count + 1, s => do
    match ← turn s with
    | .again next => repeatUpTo turn count next
    | .done result => return result

/-- Takes turns until one gives a result. Every turn but the last reads over at least one token,
so there are no more turns than characters. -/
def repeating {σ : Type} (start : σ) (turn : σ → Parser (Turn σ)) : Parser σ := do
  repeatUpTo turn ((← read).file.text.size + 2) start

/-! ## 10. Nesting -/

/-- How many statements, expressions and types may be nested. -/
def maxDepth : Nat := 100

/-- Takes the place of a production that is nested too deeply: its first token is read over. -/
def tooDeep (m : Message) : Parser NodeId := do
  errorHere m []
  let t ← token
  if t.kind != .endOfFile then nextToken
  countIdentifier
  finishNode .identifier t.fullStart (.identifier (← intern "") none)

/-- Parses one level deeper. At the limit the production is replaced, which is told by the second
component. -/
def nested (m : Message) (p : Parser NodeId) : Parser (NodeId × Bool) := do
  if maxDepth ≤ (← get).scope.depth then return (← tooDeep m, false)
  modify fun s => s.atDepth (s.scope.depth + 1)
  let id ← p
  modify fun s => s.atDepth (s.scope.depth - 1)
  return (id, true)

end Parser

end ScriptSyntax
