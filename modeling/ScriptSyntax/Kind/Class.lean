/-
  ScriptSyntax/Kind/Class.lean
  ============================
  Classes of kinds.

  Where a class is a constructor of `Kind`, the test is a match on it; where it
  cuts through one, the members are listed.
-/
import ScriptSyntax.Kind.Basic

namespace ScriptSyntax

/-! ## 1. Keywords -/

/-- Words that can never be used as identifiers. -/
def Keyword.isReserved : Keyword → Bool
  | .breakKw | .caseKw | .catchKw | .classKw | .constKw | .continueKw | .debuggerKw
  | .defaultKw | .deleteKw | .doKw | .elseKw | .enumKw | .exportKw | .extendsKw | .falseKw
  | .finallyKw | .forKw | .functionKw | .ifKw | .importKw | .inKw | .instanceOfKw | .newKw
  | .nullKw | .returnKw | .superKw | .switchKw | .thisKw | .throwKw | .trueKw | .tryKw
  | .typeOfKw | .varKw | .voidKw | .whileKw | .withKw => true
  | _ => false

/-- Words that are reserved in strict mode only. -/
def Keyword.isStrictReserved : Keyword → Bool
  | .implementsKw | .interfaceKw | .letKw | .packageKw | .privateKw | .protectedKw | .publicKw
  | .staticKw | .yieldKw => true
  | _ => false

/-- Words that are keywords only where the grammar asks for them. -/
def Keyword.isContextual (k : Keyword) : Bool := !k.isReserved && !k.isStrictReserved

/-- Keywords that may stand in the modifier list of a declaration. -/
def Keyword.isModifier : Keyword → Bool
  | .abstractKw | .asyncKw | .constKw | .declareKw | .defaultKw | .exportKw | .publicKw
  | .privateKw | .protectedKw | .readonlyKw | .staticKw => true
  | _ => false

/-- Keywords that stand for a predefined type where a type is written. -/
def Keyword.isType : Keyword → Bool
  | .anyKw | .unknownKw | .numberKw | .bigIntKw | .objectKw | .booleanKw | .stringKw
  | .symbolKw | .voidKw | .undefinedKw | .nullKw | .neverKw => true
  | _ => false

/-! ## 2. Punctuation -/

/-- Plain and compound assignment operators. -/
def Punctuator.isAssignment : Punctuator → Bool
  | .equals | .plusEquals | .minusEquals | .asteriskEquals | .asteriskAsteriskEquals
  | .slashEquals | .percentEquals | .lessThanLessThanEquals | .greaterThanGreaterThanEquals
  | .greaterThanGreaterThanGreaterThanEquals | .ampersandEquals | .barEquals | .caretEquals
  | .barBarEquals | .ampersandAmpersandEquals | .questionQuestionEquals => true
  | _ => false

/-- Assignment operators that also compute: all but `=`. -/
def Punctuator.isCompoundAssignment (p : Punctuator) : Bool := p.isAssignment && p != .equals

/-! ## 3. Productions -/

def NodeKind.isType : NodeKind → Bool
  | .typePredicate | .typeReference | .functionType | .constructorType | .typeQuery
  | .typeLiteral | .arrayType | .tupleType | .unionType | .intersectionType
  | .conditionalType | .inferType | .parenthesizedType | .thisType | .typeOperator
  | .indexedAccessType | .mappedType | .literalType | .expressionWithTypeArguments => true
  | _ => false

/-- Statements, with the declarations that stand where a statement may. -/
def NodeKind.isStatement : NodeKind → Bool
  | .variableStatement | .expressionStatement | .ifStatement | .doStatement
  | .whileStatement | .forStatement | .forInStatement | .forOfStatement
  | .continueStatement | .breakStatement | .returnStatement | .withStatement
  | .switchStatement | .labeledStatement | .throwStatement | .tryStatement
  | .debuggerStatement | .block | .emptyStatement | .functionDeclaration
  | .classDeclaration | .interfaceDeclaration | .typeAliasDeclaration | .enumDeclaration
  | .moduleDeclaration | .importDeclaration | .importEqualsDeclaration | .exportDeclaration
  | .exportAssignment | .namespaceExportDeclaration | .missingDeclaration => true
  | _ => false

/-- Productions that introduce a name. -/
def NodeKind.isDeclaration : NodeKind → Bool
  | .arrowFunction | .bindingElement | .classDeclaration | .classExpression
  | .constructorDecl | .enumDeclaration | .enumMember | .exportSpecifier
  | .functionDeclaration | .functionExpression | .getAccessor | .importClause
  | .importEqualsDeclaration | .importSpecifier | .interfaceDeclaration | .jsxAttribute
  | .methodDeclaration | .methodSignature | .moduleDeclaration
  | .namespaceExportDeclaration | .namespaceImport | .parameter | .propertyAssignment
  | .propertyDeclaration | .propertySignature | .setAccessor | .shorthandPropertyAssignment
  | .typeAliasDeclaration | .typeParameter | .variableDeclaration => true
  | _ => false

/-- Expressions that may stand to the left of `=` or be called. -/
def NodeKind.isLeftHandSide : NodeKind → Bool
  | .propertyAccessExpression | .elementAccessExpression | .newExpression | .callExpression
  | .jsxElement | .jsxSelfClosingElement | .jsxFragment | .taggedTemplateExpression
  | .arrayLiteralExpression | .parenthesizedExpression | .objectLiteralExpression
  | .classExpression | .functionExpression | .templateExpression | .nonNullExpression
  | .metaProperty => true
  | _ => false

/-- Expressions beyond the left-hand sides: unary, binary and the like. -/
def NodeKind.isCompoundExpression : NodeKind → Bool
  | .conditionalExpression | .yieldExpression | .arrowFunction | .binaryExpression
  | .spreadElement | .asExpression | .omittedExpression | .prefixUnaryExpression
  | .postfixUnaryExpression | .deleteExpression | .typeOfExpression | .voidExpression
  | .awaitExpression | .typeAssertionExpression => true
  | _ => false

/-! ## 4. Kinds -/

namespace Kind

def isKeyword : Kind → Bool
  | .keyword _ => true
  | _ => false

/-- Keywords that are never identifiers. -/
def isReservedWord : Kind → Bool
  | .keyword k => k.isReserved
  | _ => false

/-- Keywords reserved in strict mode only. -/
def isStrictReservedWord : Kind → Bool
  | .keyword k => k.isStrictReserved
  | _ => false

def isContextualKeyword : Kind → Bool
  | .keyword k => k.isContextual
  | _ => false

/-- An identifier or any keyword: whatever may name a property. -/
def isName : Kind → Bool
  | .identifier | .keyword _ => true
  | _ => false

/-- Punctuation, assignment operators included. -/
def isPunctuation : Kind → Bool
  | .punct _ => true
  | _ => false

def isLiteral : Kind → Bool
  | .literal _ => true
  | _ => false

/-- Template literals without substitutions, and the pieces of those with. -/
def isTemplateLiteral : Kind → Bool
  | .literal .noSubstitutionTemplate | .template _ => true
  | _ => false

def isTrivia : Kind → Bool
  | .trivia _ => true
  | _ => false

def isNode : Kind → Bool
  | .node _ => true
  | _ => false

/-- Everything that a scan may yield. -/
def isToken : Kind → Bool
  | .node _ | .sentinel => false
  | _ => true

def isAssignmentOperator : Kind → Bool
  | .punct p => p.isAssignment
  | _ => false

def isCompoundAssignment : Kind → Bool
  | .punct p => p.isCompoundAssignment
  | _ => false

def isModifier : Kind → Bool
  | .keyword k => k.isModifier
  | _ => false

def isKeywordType : Kind → Bool
  | .keyword k => k.isType
  | _ => false

/-- Types: the type productions and the keywords for predefined types. -/
def isTypeNode : Kind → Bool
  | .keyword k => k.isType
  | .node n => n.isType
  | _ => false

def isStatement : Kind → Bool
  | .node n => n.isStatement
  | _ => false

def isDeclaration : Kind → Bool
  | .node n => n.isDeclaration
  | _ => false

/-- Left-hand-side expressions: names, literals, the keywords that are operands, and the
productions that bind as tightly. -/
def isLeftHandSide : Kind → Bool
  | .identifier => true
  | .literal .numeric | .literal .bigInt | .literal .string | .literal .regularExpression
  | .literal .noSubstitutionTemplate => true
  | .keyword .falseKw | .keyword .nullKw | .keyword .thisKw | .keyword .trueKw
  | .keyword .superKw | .keyword .importKw => true
  | .node n => n.isLeftHandSide
  | _ => false

def isExpression : Kind → Bool
  | .node n => n.isLeftHandSide || n.isCompoundExpression
  | k => k.isLeftHandSide

end Kind

end ScriptSyntax
