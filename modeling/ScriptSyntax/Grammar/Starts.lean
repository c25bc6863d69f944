/-
  ScriptSyntax/Grammar/Starts.lean
  ================================
  What a token may start: questions that are answered from the token itself and
  a few tokens after it, without parsing anything.
-/
import ScriptSyntax.Grammar.Parser

namespace ScriptSyntax

/-! ## 1. Classes of tokens -/

namespace Kind

/-- Tokens that always start an operand. -/
def startsOperand : Kind → Bool
  | .keyword .thisKw | .keyword .superKw | .keyword .nullKw | .keyword .trueKw
  | .keyword .falseKw | .keyword .functionKw | .keyword .classKw | .keyword .newKw => true
  | .literal .numeric | .literal .bigInt | .literal .string | .literal .noSubstitutionTemplate
  | .template .head | .identifier => true
  | .punct .openParen | .punct .openBracket | .punct .openBrace | .punct .slash
  | .punct .slashEquals => true
  | _ => false

/-- Tokens that start an expression with an operator before its operand. -/
def startsUnary : Kind → Bool
  | .punct .plus | .punct .minus | .punct .tilde | .punct .exclamation | .punct .plusPlus
  | .punct .minusMinus | .keyword .deleteKw | .keyword .typeOfKw | .keyword .voidKw => true
  | _ => false

/-- Tokens that always start a statement. -/
def startsStatement : Kind → Bool
  | .punct .atSign | .punct .semicolon | .punct .openBrace => true
  | .keyword .varKw | .keyword .letKw | .keyword .functionKw | .keyword .classKw
  | .keyword .enumKw | .keyword .ifKw | .keyword .doKw | .keyword .whileKw | .keyword .forKw
  | .keyword .continueKw | .keyword .breakKw | .keyword .returnKw | .keyword .withKw
  | .keyword .switchKw | .keyword .throwKw | .keyword .tryKw | .keyword .debuggerKw
  | .keyword .catchKw | .keyword .finallyKw => true
  | _ => false

/-- Tokens that start a type, those apart that ask for a look at the next token. -/
def startsType : Kind → Bool
  | .keyword .anyKw | .keyword .unknownKw | .keyword .stringKw | .keyword .numberKw
  | .keyword .bigIntKw | .keyword .booleanKw | .keyword .readonlyKw | .keyword .symbolKw
  | .keyword .uniqueKw | .keyword .voidKw | .keyword .undefinedKw | .keyword .nullKw
  | .keyword .thisKw | .keyword .typeOfKw | .keyword .neverKw | .keyword .newKw
  | .keyword .trueKw | .keyword .falseKw | .keyword .objectKw | .keyword .inferKw
  | .keyword .keyOfKw => true
  | .punct .openBrace | .punct .openBracket | .punct .lessThan | .punct .bar
  | .punct .ampersand => true
  | .literal .string | .literal .numeric => true
  | _ => false

/-- Modifiers that stand in front of class members only. -/
def isMemberModifier : Kind → Bool
  | .keyword .publicKw | .keyword .privateKw | .keyword .protectedKw | .keyword .staticKw
  | .keyword .readonlyKw => true
  | _ => false

/-- `in` and `of`, which follow the variable in the head of a loop. -/
def isInOrOf : Kind → Bool
  | .keyword .inKw | .keyword .ofKw => true
  | _ => false

def isHeritageWord : Kind → Bool
  | .keyword .extendsKw | .keyword .implementsKw => true
  | _ => false

/-- Literals that name a property. -/
def isPropertyLiteral : Kind → Bool
  | .literal .string | .literal .numeric => true
  | _ => false

end Kind

namespace Parser

/-! ## 2. The next token -/

/-- Does the kind of the token satisfy `p`? -/
def kindIs (p : Kind → Bool) : Parser Bool := do return p (← kind)

/-- Answers a question about the token after the current one. -/
def afterNext {α : Type} (p : Parser α) : Parser α := do
  nextToken
  p

/-- Is the token on the line of the token before it, and does `p` hold of it? -/
def onSameLine (p : Parser Bool) : Parser Bool := do
  if ← afterLineBreak then return false else p

/-- Answers a question about the token after the current one, which stays current. -/
def peek {α : Type} (p : Parser α) : Parser α := lookAhead (afterNext p)

/-! ## 3. Names -/

/-- May the token be an identifier here? Inside generators `yield` may not, and inside
asynchronous functions `await` may not. -/
def isIdentifier : Parser Bool := do
  match ← kind with
  | .identifier => return true
  | .keyword .yieldKw => return !(← context).yieldContext
  | .keyword .awaitKw => return !(← context).awaitContext
  | .keyword k => return !k.isReserved
  | _ => return false

/-- Is the token an identifier or a keyword? -/
def isName : Parser Bool := kindIs Kind.isName

/-- May the token name a property, brackets apart? -/
def isPropertyName : Parser Bool := kindIs fun k => k.isName || k.isPropertyLiteral

/-- May the token start what a variable is bound to? -/
def startsBinding : Parser Bool := do
  match ← kind with
  | .punct .openBrace | .punct .openBracket => return true
  | _ => isIdentifier

/-- Is the token a name or a literal, on the line of the token before it? -/
def isNameOrLiteralOnSameLine : Parser Bool :=
  onSameLine (kindIs fun k =>
    k.isName || k == .literal .numeric || k == .literal .bigInt || k == .literal .string)

/-! ## 4. Expressions -/

/-- Does the token open a list of arguments or of type arguments? -/
def isParenOrLessThan : Parser Bool := kindIs fun k => k == .punct .openParen || k == .punct .lessThan

/-- May the token start a left-hand side? `import` may where it is called or has a member. -/
def startsLeftHandSide : Parser Bool := do
  let k ← kind
  if k.startsOperand then return true
  match k with
  | .keyword .importKw => peek (isParenOrLessThan <||> isAtPunct .dot)
  | _ => isIdentifier

def isBinaryOperator : Parser Bool := do
  let k ← kind
  if k == .keyword .inKw && (← context).disallowIn then return false
  return (Precedence.ofKind? k).isSome

/-- May the token start an expression? A binary operator may: its left operand is then reported
missing. -/
def startsExpression : Parser Bool := do
  if ← startsLeftHandSide then return true
  match ← kind with
  | .punct .lessThan | .keyword .awaitKw | .keyword .yieldKw => return true
  | k => if k.startsUnary then return true else isBinaryOperator <||> isIdentifier

def startsExpressionStatement : Parser Bool := do
  match ← kind with
  | .punct .openBrace | .keyword .functionKw | .keyword .classKw | .punct .atSign => return false
  | _ => startsExpression

/-! ## 5. Modifiers -/

def canFollowModifier : Parser Bool := do
  match ← kind with
  | .punct .openBracket | .punct .openBrace | .punct .asterisk | .punct .dotDotDot => return true
  | _ => isPropertyName

/-- Is `default`, the current token, a modifier? The next token is read. -/
def defaultIsModifier : Parser Bool := do
  match ← nextKind with
  | .keyword .classKw | .keyword .functionKw | .keyword .interfaceKw => return true
  | .keyword .abstractKw => peek (onSameLine (isAtKeyword .classKw))
  | .keyword .asyncKw => peek (onSameLine (isAtKeyword .functionKw))
  | _ => return false

/-- Is the next token, which is read, on the same line and one that may follow a modifier? -/
def nextFollowsModifier : Parser Bool := afterNext (onSameLine canFollowModifier)

/-- Is the current token, which can be a modifier, one here? The next token is read. -/
def tokenIsModifier : Parser Bool := do
  match ← kind with
  | .keyword .constKw => return (← nextKind) == .keyword .enumKw
  | .keyword .exportKw =>
    match ← nextKind with
    | .keyword .defaultKw => lookAhead defaultIsModifier
    | .punct .asterisk | .keyword .asKw | .punct .openBrace => return false
    | _ => canFollowModifier
  | .keyword .defaultKw => defaultIsModifier
  | .keyword .staticKw => afterNext canFollowModifier
  | _ => nextFollowsModifier

/-! ## 6. Declarations and statements -/

/-- One token of the way from modifiers to the keyword of a declaration. -/
def declarationTurn : Parser (Turn Bool) := do
  match ← kind with
  | .keyword .varKw | .keyword .letKw | .keyword .constKw | .keyword .functionKw
  | .keyword .classKw | .keyword .enumKw => return .done true
  | .keyword .interfaceKw | .keyword .typeKw =>
    return .done (← afterNext (onSameLine isIdentifier))
  | .keyword .moduleKw | .keyword .namespaceKw =>
    return .done (← afterNext (onSameLine (isIdentifier <||> isAt (.literal .string))))
  | .keyword .abstractKw | .keyword .asyncKw | .keyword .declareKw | .keyword .privateKw
  | .keyword .protectedKw | .keyword .publicKw | .keyword .readonlyKw =>
    nextToken
    if ← afterLineBreak then return .done false else return .again false
  | .keyword .globalKw =>
    match ← nextKind with
    | .punct .openBrace | .identifier | .keyword .exportKw => return .done true
    | _ => return .done false
  | .keyword .importKw =>
    match ← nextKind with
    | .literal .string | .punct .asterisk | .punct .openBrace => return .done true
    | _ => return .done (← isName)
  | .keyword .exportKw =>
    match ← nextKind with
    | .punct .equals | .punct .asterisk | .punct .openBrace | .keyword .defaultKw
    | .keyword .asKw => return .done true
    | _ => return .again false
  | .keyword .staticKw =>
    nextToken
    return .again false
  | _ => return .done false

def startsDeclaration : Parser Bool := lookAhead (repeating false fun _ => declarationTurn)

def startsStatement : Parser Bool := do
  let k ← kind
  if k.startsStatement then return true
  match k with
  | .keyword .importKw =>
    startsDeclaration <||> peek (isParenOrLessThan <||> isAtPunct .dot)
  | .keyword .constKw | .keyword .exportKw => startsDeclaration
  | .keyword .asyncKw | .keyword .declareKw | .keyword .interfaceKw | .keyword .moduleKw
  | .keyword .namespaceKw | .keyword .typeKw | .keyword .globalKw => return true
  | _ =>
    if k.isMemberModifier then
      if ← startsDeclaration then return true
      return !(← peek (onSameLine isName))
    else startsExpression

/-- Does `let`, the current token, declare something? -/
def letDeclares : Parser Bool := peek startsBinding

/-! ## 7. Types -/

def startsParameter : Parser Bool := do
  match ← kind with
  | .punct .dotDotDot | .punct .atSign | .keyword .thisKw => return true
  | k => if k.isModifier then return true else startsBinding

def isNumber : Parser Bool := kindIs fun k => k == .literal .numeric || k == .literal .bigInt

/-- May the token start a type, where at most the given number of parentheses open first? -/
def startsTypeUpTo : Nat → Parser Bool
  | 0 => do
    fail .outOfSteps
    return false
  | count + 1 => do
    match ← kind with
    | .punct .minus => peek isNumber
    | .punct .openParen =>
      peek (isAtPunct .closeParen <||> startsParameter <||> startsTypeUpTo count)
    | k => if k.startsType then return true else isIdentifier

def startsType : Parser Bool := do startsTypeUpTo ((← read).file.text.size + 2)

/-- Reads on from an opening brace, and says whether it starts a mapped type. -/
def mappedTypeAhead : Parser Bool := do
  let first ← nextKind
  if first == .punct .plus || first == .punct .minus then
    return (← nextKind) == .keyword .readonlyKw
  if first == .keyword .readonlyKw then nextToken
  if !(← isAtPunct .openBracket) then return false
  if !(← afterNext isIdentifier) then return false
  return (← nextKind) == .keyword .inKw

/-- Does the opening brace start a mapped type? -/
def startsMappedType : Parser Bool := lookAhead mappedTypeAhead

/-! ## 8. Members -/

/-- May a statement end with the token, or does it go on with a member of a type? -/
def endsMemberName : Parser Bool := do
  match ← kind with
  | .punct .openParen | .punct .lessThan | .punct .question | .punct .colon
  | .punct .comma => return true
  | _ => canEndStatement

/-- Reads over modifiers, and says whether there were any. -/
def skipModifiers : Parser Bool :=
  repeating false fun found => do
    if (← kind).isModifier then
      nextToken
      return .again true
    else return .done found

/-- Reads over modifiers and a name, and says whether a member of a type starts with them. -/
def typeMemberAhead : Parser Bool := do
  if ← isParenOrLessThan then return true
  let modified ← skipModifiers
  if ← isAtPunct .openBracket then return true
  if ← isPropertyName then
    nextToken
    endsMemberName
  else if modified then endsMemberName
  else return false

def startsTypeMember : Parser Bool := lookAhead typeMemberAhead

/-- Reads over modifiers up to one that only class members have. The last modifier read, and
whether one of those was met. -/
def skipMemberModifiers : Parser (Option Kind × Bool) :=
  repeating (none, false) fun state => do
    let k ← kind
    if !k.isModifier then return .done state
    if k.isMemberModifier then return .done (some k, true)
    nextToken
    return .again (some k, false)

/-- May a class member with the given name go on with the token? Names that are no keywords, and
`get` and `set`, start a member whatever follows. -/
def classMemberGoesOn (name : Kind) : Parser Bool := do
  if !name.isKeyword || name == .keyword .getKw || name == .keyword .setKw then return true
  match ← kind with
  | .punct .openParen | .punct .lessThan | .punct .colon | .punct .equals
  | .punct .question => return true
  | _ => canEndStatement

/-- Reads over modifiers and a name, and says whether a member of a class starts with them. -/
def classMemberAhead : Parser Bool := do
  if ← isAtPunct .atSign then return true
  let (modifier, decided) ← skipMemberModifiers
  if decided then return true
  if ← isAtPunct .asterisk then return true
  let name ←
    if ← isPropertyName then do
      let k ← kind
      nextToken
      pure (some k)
    else pure modifier
  if ← isAtPunct .openBracket then return true
  match name with
  | none => return false
  | some k => classMemberGoesOn k

def startsClassMember : Parser Bool := lookAhead classMemberAhead

/-- Reads on from an opening bracket, and says whether it starts an index signature. -/
def indexSignatureAhead : Parser Bool := do
  let first ← nextKind
  if first == .punct .dotDotDot || first == .punct .closeBracket then return true
  if first.isModifier then
    nextToken
    if ← isIdentifier then return true
  else if ← isIdentifier then nextToken
  else return false
  match ← kind with
  | .punct .colon | .punct .comma => return true
  | .punct .question =>
    match ← nextKind with
    | .punct .colon | .punct .comma | .punct .closeBracket => return true
    | _ => return false
  | _ => return false

/-- Does the opening bracket start an index signature, rather than a computed name? -/
def startsIndexSignature : Parser Bool := do
  if !(← isAtPunct .openBracket) then return false
  lookAhead indexSignatureAhead

/-! ## 9. Heritage -/

def startsHeritageClause : Parser Bool := kindIs Kind.isHeritageWord

/-- Is the token the keyword of another heritage clause, with something to inherit after it? -/
def startsNextHeritage : Parser Bool := do
  if ← startsHeritageClause then peek startsExpression else return false

/-- Reads on from an opening brace, and says whether it starts a base expression. -/
def heritageAhead : Parser Bool := do
  if (← nextKind) == .punct .closeBrace then
    match ← nextKind with
    | .punct .comma | .punct .openBrace | .keyword .extendsKw
    | .keyword .implementsKw => return true
    | _ => return false
  else return true

/-- Is the opening brace a base expression, rather than the start of the class body? -/
def braceIsHeritage : Parser Bool := lookAhead heritageAhead

end Parser

end ScriptSyntax
