/-
  ScriptSyntax/Kind/Basic.lean
  ============================
  The kinds of tokens and nodes of a script.

  A kind is classified first and named second: a punctuator, a keyword, a
  literal, a piece of a template, a kind of trivia, or a production of the
  grammar.  Questions such as "is this a keyword?" are then answered by the
  constructor, and the order of `Kind.all` is the order in which the kinds are
  numbered.
-/

namespace ScriptSyntax

/-! ## 1. Tokens -/

/-- Text between tokens that carries no meaning of its own. -/
inductive TriviaKind where
  | singleLineComment | multiLineComment | newLine | whitespace | shebang | conflictMarker
  deriving DecidableEq, Repr

/-- Tokens that stand for a value, and runs of text between JSX tags. -/
inductive LiteralKind where
  | numeric | bigInt | string | jsxText | jsxTextAllWhiteSpaces | regularExpression
  | noSubstitutionTemplate
  deriving DecidableEq, Repr

/-- The pieces into which substitutions cut a template literal. -/
inductive TemplatePart where
  | head | middle | tail
  deriving DecidableEq, Repr

/-- Punctuation, the assignment operators last. -/
inductive Punctuator where
  | openBrace | closeBrace | openParen | closeParen | openBracket | closeBracket | dot
  | dotDotDot | semicolon | comma | questionDot | lessThan | lessThanSlash | greaterThan
  | lessThanEquals | greaterThanEquals | equalsEquals | exclamationEquals | equalsEqualsEquals
  | exclamationEqualsEquals | equalsGreaterThan | plus | minus | asterisk | asteriskAsterisk
  | slash | percent | plusPlus | minusMinus | lessThanLessThan | greaterThanGreaterThan
  | greaterThanGreaterThanGreaterThan | ampersand | bar | caret | exclamation | tilde
  | ampersandAmpersand | barBar | question | colon | atSign | questionQuestion
  -- assignment operators
  | equals | plusEquals | minusEquals | asteriskEquals | asteriskAsteriskEquals | slashEquals
  | percentEquals | lessThanLessThanEquals | greaterThanGreaterThanEquals
  | greaterThanGreaterThanGreaterThanEquals | ampersandEquals | barEquals | caretEquals
  | barBarEquals | ampersandAmpersandEquals | questionQuestionEquals
  deriving DecidableEq, Repr

/-- Keywords: reserved words, words reserved in strict mode, contextual keywords. -/
inductive Keyword where
  -- reserved words
  | breakKw | caseKw | catchKw | classKw | constKw | continueKw | debuggerKw | defaultKw
  | deleteKw | doKw | elseKw | enumKw | exportKw | extendsKw | falseKw | finallyKw | forKw
  | functionKw | ifKw | importKw | inKw | instanceOfKw | newKw | nullKw | returnKw | superKw
  | switchKw | thisKw | throwKw | trueKw | tryKw | typeOfKw | varKw | voidKw | whileKw | withKw
  -- reserved in strict mode
  | implementsKw | interfaceKw | letKw | packageKw | privateKw | protectedKw | publicKw
  | staticKw | yieldKw
  -- contextual keywords
  | abstractKw | asKw | anyKw | asyncKw | awaitKw | bigIntKw | booleanKw | constructorKw
  | declareKw | getKw | inferKw | isKw | keyOfKw | moduleKw | namespaceKw | neverKw
  | readonlyKw | requireKw | numberKw | objectKw | setKw | stringKw | symbolKw | typeKw
  | undefinedKw | uniqueKw | unknownKw | fromKw | globalKw | ofKw
  deriving DecidableEq, Repr

/-! ## 2. Productions -/

/-- The productions of the grammar. -/
inductive NodeKind where
  -- names
  | qualifiedName | computedPropertyName
  -- signature elements
  | typeParameter | parameter | decorator
  -- type members
  | propertySignature | propertyDeclaration | methodSignature | methodDeclaration
  | constructorDecl | getAccessor | setAccessor | callSignature | constructSignature
  | indexSignature
  -- types
  | typePredicate | typeReference | functionType | constructorType | typeQuery | typeLiteral
  | arrayType | tupleType | unionType | intersectionType | conditionalType | inferType
  | parenthesizedType | thisType | typeOperator | indexedAccessType | mappedType | literalType
  -- binding patterns
  | objectBindingPattern | arrayBindingPattern | bindingElement
  -- expressions
  | arrayLiteralExpression | objectLiteralExpression | propertyAccessExpression
  | elementAccessExpression | callExpression | newExpression | taggedTemplateExpression
  | typeAssertionExpression | parenthesizedExpression | functionExpression | arrowFunction
  | deleteExpression | typeOfExpression | voidExpression | awaitExpression
  | prefixUnaryExpression | postfixUnaryExpression | binaryExpression | conditionalExpression
  | templateExpression | yieldExpression | spreadElement | classExpression | omittedExpression
  | expressionWithTypeArguments | asExpression | nonNullExpression | metaProperty
  -- elements
  | templateSpan | semicolonClassElement
  -- statements
  | block | emptyStatement | variableStatement | expressionStatement | ifStatement
  | doStatement | whileStatement | forStatement | forInStatement | forOfStatement
  | continueStatement | breakStatement | returnStatement | withStatement | switchStatement
  | labeledStatement | throwStatement | tryStatement | debuggerStatement | variableDeclaration
  | variableDeclarationList | functionDeclaration | classDeclaration | interfaceDeclaration
  | typeAliasDeclaration | enumDeclaration | moduleDeclaration | moduleBlock | caseBlock
  | namespaceExportDeclaration | importEqualsDeclaration | importDeclaration | importClause
  | namespaceImport | namedImports | importSpecifier | exportAssignment | exportDeclaration
  | namedExports | exportSpecifier | missingDeclaration
  -- module references
  | externalModuleReference
  -- JSX
  | jsxElement | jsxSelfClosingElement | jsxOpeningElement | jsxClosingElement | jsxFragment
  | jsxOpeningFragment | jsxClosingFragment | jsxAttribute | jsxAttributes | jsxSpreadAttribute
  | jsxExpression
  -- clauses
  | caseClause | defaultClause | heritageClause | catchClause
  -- property assignments
  | propertyAssignment | shorthandPropertyAssignment | spreadAssignment
  -- enum
  | enumMember
  -- top-level
  | sourceFile
  deriving DecidableEq, Repr

/-! ## 3. Kinds -/

/-- The kind of a token or of a node of the tree. `sentinel` comes after every real kind and
is the kind of nothing. -/
inductive Kind where
  | unknown
  | endOfFile
  | trivia (t : TriviaKind)
  | literal (l : LiteralKind)
  | template (p : TemplatePart)
  | punct (p : Punctuator)
  | identifier
  | keyword (k : Keyword)
  | node (n : NodeKind)
  | sentinel
  deriving DecidableEq, Repr

instance : Inhabited Kind := ⟨.unknown⟩

/-! ## 4. Enumeration -/

/-- Every kind of trivia, in order. -/
def TriviaKind.all : List TriviaKind :=
  [.singleLineComment, .multiLineComment, .newLine, .whitespace, .shebang, .conflictMarker]

/-- Every kind of literal, in order. -/
def LiteralKind.all : List LiteralKind :=
  [.numeric, .bigInt, .string, .jsxText, .jsxTextAllWhiteSpaces, .regularExpression,
   .noSubstitutionTemplate]

/-- Every piece of a template, in order. -/
def TemplatePart.all : List TemplatePart :=
  [.head, .middle, .tail]

/-- Every punctuator, in order. -/
def Punctuator.all : List Punctuator :=
  [.openBrace, .closeBrace, .openParen, .closeParen, .openBracket, .closeBracket, .dot,
   .dotDotDot, .semicolon, .comma, .questionDot, .lessThan, .lessThanSlash, .greaterThan,
   .lessThanEquals, .greaterThanEquals, .equalsEquals, .exclamationEquals, .equalsEqualsEquals,
   .exclamationEqualsEquals, .equalsGreaterThan, .plus, .minus, .asterisk, .asteriskAsterisk,
   .slash, .percent, .plusPlus, .minusMinus, .lessThanLessThan, .greaterThanGreaterThan,
   .greaterThanGreaterThanGreaterThan, .ampersand, .bar, .caret, .exclamation, .tilde,
   .ampersandAmpersand, .barBar, .question, .colon, .atSign, .questionQuestion, .equals,
   .plusEquals, .minusEquals, .asteriskEquals, .asteriskAsteriskEquals, .slashEquals,
   .percentEquals, .lessThanLessThanEquals, .greaterThanGreaterThanEquals,
   .greaterThanGreaterThanGreaterThanEquals, .ampersandEquals, .barEquals, .caretEquals,
   .barBarEquals, .ampersandAmpersandEquals, .questionQuestionEquals]

/-- Every keyword, in order. -/
def Keyword.all : List Keyword :=
  [.breakKw, .caseKw, .catchKw, .classKw, .constKw, .continueKw, .debuggerKw, .defaultKw,
   .deleteKw, .doKw, .elseKw, .enumKw, .exportKw, .extendsKw, .falseKw, .finallyKw, .forKw,
   .functionKw, .ifKw, .importKw, .inKw, .instanceOfKw, .newKw, .nullKw, .returnKw, .superKw,
   .switchKw, .thisKw, .throwKw, .trueKw, .tryKw, .typeOfKw, .varKw, .voidKw, .whileKw,
   .withKw, .implementsKw, .interfaceKw, .letKw, .packageKw, .privateKw, .protectedKw,
   .publicKw, .staticKw, .yieldKw, .abstractKw, .asKw, .anyKw, .asyncKw, .awaitKw, .bigIntKw,
   .booleanKw, .constructorKw, .declareKw, .getKw, .inferKw, .isKw, .keyOfKw, .moduleKw,
   .namespaceKw, .neverKw, .readonlyKw, .requireKw, .numberKw, .objectKw, .setKw, .stringKw,
   .symbolKw, .typeKw, .undefinedKw, .uniqueKw, .unknownKw, .fromKw, .globalKw, .ofKw]

/-- Every production, in order. -/
def NodeKind.all : List NodeKind :=
  [.qualifiedName, .computedPropertyName, .typeParameter, .parameter, .decorator,
   .propertySignature, .propertyDeclaration, .methodSignature, .methodDeclaration,
   .constructorDecl, .getAccessor, .setAccessor, .callSignature, .constructSignature,
   .indexSignature, .typePredicate, .typeReference, .functionType, .constructorType,
   .typeQuery, .typeLiteral, .arrayType, .tupleType, .unionType, .intersectionType,
   .conditionalType, .inferType, .parenthesizedType, .thisType, .typeOperator,
   .indexedAccessType, .mappedType, .literalType, .objectBindingPattern, .arrayBindingPattern,
   .bindingElement, .arrayLiteralExpression, .objectLiteralExpression,
   .propertyAccessExpression, .elementAccessExpression, .callExpression, .newExpression,
   .taggedTemplateExpression, .typeAssertionExpression, .parenthesizedExpression,
   .functionExpression, .arrowFunction, .deleteExpression, .typeOfExpression, .voidExpression,
   .awaitExpression, .prefixUnaryExpression, .postfixUnaryExpression, .binaryExpression,
   .conditionalExpression, .templateExpression, .yieldExpression, .spreadElement,
   .classExpression, .omittedExpression, .expressionWithTypeArguments, .asExpression,
   .nonNullExpression, .metaProperty, .templateSpan, .semicolonClassElement, .block,
   .emptyStatement, .variableStatement, .expressionStatement, .ifStatement, .doStatement,
   .whileStatement, .forStatement, .forInStatement, .forOfStatement, .continueStatement,
   .breakStatement, .returnStatement, .withStatement, .switchStatement, .labeledStatement,
   .throwStatement, .tryStatement, .debuggerStatement, .variableDeclaration,
   .variableDeclarationList, .functionDeclaration, .classDeclaration, .interfaceDeclaration,
   .typeAliasDeclaration, .enumDeclaration, .moduleDeclaration, .moduleBlock, .caseBlock,
   .namespaceExportDeclaration, .importEqualsDeclaration, .importDeclaration, .importClause,
   .namespaceImport, .namedImports, .importSpecifier, .exportAssignment, .exportDeclaration,
   .namedExports, .exportSpecifier, .missingDeclaration, .externalModuleReference, .jsxElement,
   .jsxSelfClosingElement, .jsxOpeningElement, .jsxClosingElement, .jsxFragment,
   .jsxOpeningFragment, .jsxClosingFragment, .jsxAttribute, .jsxAttributes,
   .jsxSpreadAttribute, .jsxExpression, .caseClause, .defaultClause, .heritageClause,
   .catchClause, .propertyAssignment, .shorthandPropertyAssignment, .spreadAssignment,
   .enumMember, .sourceFile]

/-- Every kind, in the order in which the kinds are numbered. -/
def Kind.all : List Kind :=
  [.unknown, .endOfFile]
    ++ TriviaKind.all.map .trivia
    ++ LiteralKind.all.map .literal
    ++ TemplatePart.all.map .template
    ++ Punctuator.all.map .punct
    ++ [.identifier]
    ++ Keyword.all.map .keyword
    ++ NodeKind.all.map .node
    ++ [.sentinel]

def Kind.ofNumber? (n : Nat) : Option Kind := Kind.all[n]?

end ScriptSyntax
