/-
  ScriptSyntax/Kind/Spelling.lean
  ===============================
  How kinds are written: the source text of punctuation and keywords, the
  keyword that a word stands for, and the name under which a kind is shown.
-/
import ScriptSyntax.Kind.Basic

namespace ScriptSyntax

/-! ## 1. Source text -/

def Punctuator.text : Punctuator → String
  | .openBrace => "\x7b"
  | .closeBrace => "\x7d"
  | .openParen => "("
  | .closeParen => ")"
  | .openBracket => "["
  | .closeBracket => "]"
  | .dot => "."
  | .dotDotDot => "..."
  | .semicolon => ";"
  | .comma => ","
  | .questionDot => "?."
  | .lessThan => "<"
  | .lessThanSlash => "</"
  | .greaterThan => ">"
  | .lessThanEquals => "<="
  | .greaterThanEquals => ">="
  | .equalsEquals => "=="
  | .exclamationEquals => "!="
  | .equalsEqualsEquals => "==="
  | .exclamationEqualsEquals => "!=="
  | .equalsGreaterThan => "=>"
  | .plus => "+"
  | .minus => "-"
  | .asterisk => "*"
  | .asteriskAsterisk => "**"
  | .slash => "/"
  | .percent => "%"
  | .plusPlus => "++"
  | .minusMinus => "--"
  | .lessThanLessThan => "<<"
  | .greaterThanGreaterThan => ">>"
  | .greaterThanGreaterThanGreaterThan => ">>>"
  | .ampersand => "&"
  | .bar => "|"
  | .caret => "^"
  | .exclamation => "!"
  | .tilde => "~"
  | .ampersandAmpersand => "&&"
  | .barBar => "||"
  | .question => "?"
  | .colon => ":"
  | .atSign => "@"
  | .questionQuestion => "??"
  | .equals => "="
  | .plusEquals => "+="
  | .minusEquals => "-="
  | .asteriskEquals => "*="
  | .asteriskAsteriskEquals => "**="
  | .slashEquals => "/="
  | .percentEquals => "%="
  | .lessThanLessThanEquals => "<<="
  | .greaterThanGreaterThanEquals => ">>="
  | .greaterThanGreaterThanGreaterThanEquals => ">>>="
  | .ampersandEquals => "&="
  | .barEquals => "|="
  | .caretEquals => "^="
  | .barBarEquals => "||="
  | .ampersandAmpersandEquals => "&&="
  | .questionQuestionEquals => "??="

def Keyword.text : Keyword → String
  | .breakKw => "break"
  | .caseKw => "case"
  | .catchKw => "catch"
  | .classKw => "class"
  | .constKw => "const"
  | .continueKw => "continue"
  | .debuggerKw => "debugger"
  | .defaultKw => "default"
  | .deleteKw => "delete"
  | .doKw => "do"
  | .elseKw => "else"
  | .enumKw => "enum"
  | .exportKw => "export"
  | .extendsKw => "extends"
  | .falseKw => "false"
  | .finallyKw => "finally"
  | .forKw => "for"
  | .functionKw => "function"
  | .ifKw => "if"
  | .importKw => "import"
  | .inKw => "in"
  | .instanceOfKw => "instanceof"
  | .newKw => "new"
  | .nullKw => "null"
  | .returnKw => "return"
  | .superKw => "super"
  | .switchKw => "switch"
  | .thisKw => "this"
  | .throwKw => "throw"
  | .trueKw => "true"
  | .tryKw => "try"
  | .typeOfKw => "typeof"
  | .varKw => "var"
  | .voidKw => "void"
  | .whileKw => "while"
  | .withKw => "with"
  | .implementsKw => "implements"
  | .interfaceKw => "interface"
  | .letKw => "let"
  | .packageKw => "package"
  | .privateKw => "private"
  | .protectedKw => "protected"
  | .publicKw => "public"
  | .staticKw => "static"
  | .yieldKw => "yield"
  | .abstractKw => "abstract"
  | .asKw => "as"
  | .anyKw => "any"
  | .asyncKw => "async"
  | .awaitKw => "await"
  | .bigIntKw => "bigint"
  | .booleanKw => "boolean"
  | .constructorKw => "constructor"
  | .declareKw => "declare"
  | .getKw => "get"
  | .inferKw => "infer"
  | .isKw => "is"
  | .keyOfKw => "keyof"
  | .moduleKw => "module"
  | .namespaceKw => "namespace"
  | .neverKw => "never"
  | .readonlyKw => "readonly"
  | .requireKw => "require"
  | .numberKw => "number"
  | .objectKw => "object"
  | .setKw => "set"
  | .stringKw => "string"
  | .symbolKw => "symbol"
  | .typeKw => "type"
  | .undefinedKw => "undefined"
  | .uniqueKw => "unique"
  | .unknownKw => "unknown"
  | .fromKw => "from"
  | .globalKw => "global"
  | .ofKw => "of"

def Keyword.ofText? (word : String) : Option Keyword :=
  Keyword.all.find? fun k => k.text == word

/-- The fixed source text of a kind: only punctuation and keywords have one. -/
def Kind.text? : Kind → Option String
  | .punct p => some p.text
  | .keyword k => some k.text
  | _ => none

/-- The fixed source text of a kind, empty where it has none: what an "expected" message quotes. -/
def Kind.text (k : Kind) : String := k.text?.getD ""

/-! ## 2. Names -/

def TriviaKind.name : TriviaKind → String
  | .singleLineComment => "SingleLineCommentTrivia"
  | .multiLineComment => "MultiLineCommentTrivia"
  | .newLine => "NewLineTrivia"
  | .whitespace => "WhitespaceTrivia"
  | .shebang => "ShebangTrivia"
  | .conflictMarker => "ConflictMarkerTrivia"

def LiteralKind.name : LiteralKind → String
  | .numeric => "NumericLiteral"
  | .bigInt => "BigIntLiteral"
  | .string => "StringLiteral"
  | .jsxText => "JsxText"
  | .jsxTextAllWhiteSpaces => "JsxTextAllWhiteSpaces"
  | .regularExpression => "RegularExpressionLiteral"
  | .noSubstitutionTemplate => "NoSubstitutionTemplateLiteral"

def TemplatePart.name : TemplatePart → String
  | .head => "TemplateHead"
  | .middle => "TemplateMiddle"
  | .tail => "TemplateTail"

def Punctuator.name : Punctuator → String
  | .openBrace => "OpenBraceToken"
  | .closeBrace => "CloseBraceToken"
  | .openParen => "OpenParenToken"
  | .closeParen => "CloseParenToken"
  | .openBracket => "OpenBracketToken"
  | .closeBracket => "CloseBracketToken"
  | .dot => "DotToken"
  | .dotDotDot => "DotDotDotToken"
  | .semicolon => "SemicolonToken"
  | .comma => "CommaToken"
  | .questionDot => "QuestionDotToken"
  | .lessThan => "LessThanToken"
  | .lessThanSlash => "LessThanSlashToken"
  | .greaterThan => "GreaterThanToken"
  | .lessThanEquals => "LessThanEqualsToken"
  | .greaterThanEquals => "GreaterThanEqualsToken"
  | .equalsEquals => "EqualsEqualsToken"
  | .exclamationEquals => "ExclamationEqualsToken"
  | .equalsEqualsEquals => "EqualsEqualsEqualsToken"
  | .exclamationEqualsEquals => "ExclamationEqualsEqualsToken"
  | .equalsGreaterThan => "EqualsGreaterThanToken"
  | .plus => "PlusToken"
  | .minus => "MinusToken"
  | .asterisk => "AsteriskToken"
  | .asteriskAsterisk => "AsteriskAsteriskToken"
  | .slash => "SlashToken"
  | .percent => "PercentToken"
  | .plusPlus => "PlusPlusToken"
  | .minusMinus => "MinusMinusToken"
  | .lessThanLessThan => "LessThanLessThanToken"
  | .greaterThanGreaterThan => "GreaterThanGreaterThanToken"
  | .greaterThanGreaterThanGreaterThan => "GreaterThanGreaterThanGreaterThanToken"
  | .ampersand => "AmpersandToken"
  | .bar => "BarToken"
  | .caret => "CaretToken"
  | .exclamation => "ExclamationToken"
  | .tilde => "TildeToken"
  | .ampersandAmpersand => "AmpersandAmpersandToken"
  | .barBar => "BarBarToken"
  | .question => "QuestionToken"
  | .colon => "ColonToken"
  | .atSign => "AtToken"
  | .questionQuestion => "QuestionQuestionToken"
  | .equals => "EqualsToken"
  | .plusEquals => "PlusEqualsToken"
  | .minusEquals => "MinusEqualsToken"
  | .asteriskEquals => "AsteriskEqualsToken"
  | .asteriskAsteriskEquals => "AsteriskAsteriskEqualsToken"
  | .slashEquals => "SlashEqualsToken"
  | .percentEquals => "PercentEqualsToken"
  | .lessThanLessThanEquals => "LessThanLessThanEqualsToken"
  | .greaterThanGreaterThanEquals => "GreaterThanGreaterThanEqualsToken"
  | .greaterThanGreaterThanGreaterThanEquals => "GreaterThanGreaterThanGreaterThanEqualsToken"
  | .ampersandEquals => "AmpersandEqualsToken"
  | .barEquals => "BarEqualsToken"
  | .caretEquals => "CaretEqualsToken"
  | .barBarEquals => "BarBarEqualsToken"
  | .ampersandAmpersandEquals => "AmpersandAmpersandEqualsToken"
  | .questionQuestionEquals => "QuestionQuestionEqualsToken"

def Keyword.name : Keyword → String
  | .breakKw => "BreakKeyword"
  | .caseKw => "CaseKeyword"
  | .catchKw => "CatchKeyword"
  | .classKw => "ClassKeyword"
  | .constKw => "ConstKeyword"
  | .continueKw => "ContinueKeyword"
  | .debuggerKw => "DebuggerKeyword"
  | .defaultKw => "DefaultKeyword"
  | .deleteKw => "DeleteKeyword"
  | .doKw => "DoKeyword"
  | .elseKw => "ElseKeyword"
  | .enumKw => "EnumKeyword"
  | .exportKw => "ExportKeyword"
  | .extendsKw => "ExtendsKeyword"
  | .falseKw => "FalseKeyword"
  | .finallyKw => "FinallyKeyword"
  | .forKw => "ForKeyword"
  | .functionKw => "FunctionKeyword"
  | .ifKw => "IfKeyword"
  | .importKw => "ImportKeyword"
  | .inKw => "InKeyword"
  | .instanceOfKw => "InstanceOfKeyword"
  | .newKw => "NewKeyword"
  | .nullKw => "NullKeyword"
  | .returnKw => "ReturnKeyword"
  | .superKw => "SuperKeyword"
  | .switchKw => "SwitchKeyword"
  | .thisKw => "ThisKeyword"
  | .throwKw => "ThrowKeyword"
  | .trueKw => "TrueKeyword"
  | .tryKw => "TryKeyword"
  | .typeOfKw => "TypeOfKeyword"
  | .varKw => "VarKeyword"
  | .voidKw => "VoidKeyword"
  | .whileKw => "WhileKeyword"
  | .withKw => "WithKeyword"
  | .implementsKw => "ImplementsKeyword"
  | .interfaceKw => "InterfaceKeyword"
  | .letKw => "LetKeyword"
  | .packageKw => "PackageKeyword"
  | .privateKw => "PrivateKeyword"
  | .protectedKw => "ProtectedKeyword"
  | .publicKw => "PublicKeyword"
  | .staticKw => "StaticKeyword"
  | .yieldKw => "YieldKeyword"
  | .abstractKw => "AbstractKeyword"
  | .asKw => "AsKeyword"
  | .anyKw => "AnyKeyword"
  | .asyncKw => "AsyncKeyword"
  | .awaitKw => "AwaitKeyword"
  | .bigIntKw => "BigIntKeyword"
  | .booleanKw => "BooleanKeyword"
  | .constructorKw => "ConstructorKeyword"
  | .declareKw => "DeclareKeyword"
  | .getKw => "GetKeyword"
  | .inferKw => "InferKeyword"
  | .isKw => "IsKeyword"
  | .keyOfKw => "KeyOfKeyword"
  | .moduleKw => "ModuleKeyword"
  | .namespaceKw => "NamespaceKeyword"
  | .neverKw => "NeverKeyword"
  | .readonlyKw => "ReadonlyKeyword"
  | .requireKw => "RequireKeyword"
  | .numberKw => "NumberKeyword"
  | .objectKw => "ObjectKeyword"
  | .setKw => "SetKeyword"
  | .stringKw => "StringKeyword"
  | .symbolKw => "SymbolKeyword"
  | .typeKw => "TypeKeyword"
  | .undefinedKw => "UndefinedKeyword"
  | .uniqueKw => "UniqueKeyword"
  | .unknownKw => "UnknownKeyword"
  | .fromKw => "FromKeyword"
  | .globalKw => "GlobalKeyword"
  | .ofKw => "OfKeyword"

def NodeKind.name : NodeKind → String
  | .qualifiedName => "QualifiedName"
  | .computedPropertyName => "ComputedPropertyName"
  | .typeParameter => "TypeParameter"
  | .parameter => "Parameter"
  | .decorator => "Decorator"
  | .propertySignature => "PropertySignature"
  | .propertyDeclaration => "PropertyDeclaration"
  | .methodSignature => "MethodSignature"
  | .methodDeclaration => "MethodDeclaration"
  | .constructorDecl => "Constructor"
  | .getAccessor => "GetAccessor"
  | .setAccessor => "SetAccessor"
  | .callSignature => "CallSignature"
  | .constructSignature => "ConstructSignature"
  | .indexSignature => "IndexSignature"
  | .typePredicate => "TypePredicate"
  | .typeReference => "TypeReference"
  | .functionType => "FunctionType"
  | .constructorType => "ConstructorType"
  | .typeQuery => "TypeQuery"
  | .typeLiteral => "TypeLiteral"
  | .arrayType => "ArrayType"
  | .tupleType => "TupleType"
  | .unionType => "UnionType"
  | .intersectionType => "IntersectionType"
  | .conditionalType => "ConditionalType"
  | .inferType => "InferType"
  | .parenthesizedType => "ParenthesizedType"
  | .thisType => "ThisType"
  | .typeOperator => "TypeOperator"
  | .indexedAccessType => "IndexedAccessType"
  | .mappedType => "MappedType"
  | .literalType => "LiteralType"
  | .objectBindingPattern => "ObjectBindingPattern"
  | .arrayBindingPattern => "ArrayBindingPattern"
  | .bindingElement => "BindingElement"
  | .arrayLiteralExpression => "ArrayLiteralExpression"
  | .objectLiteralExpression => "ObjectLiteralExpression"
  | .propertyAccessExpression => "PropertyAccessExpression"
  | .elementAccessExpression => "ElementAccessExpression"
  | .callExpression => "CallExpression"
  | .newExpression => "NewExpression"
  | .taggedTemplateExpression => "TaggedTemplateExpression"
  | .typeAssertionExpression => "TypeAssertionExpression"
  | .parenthesizedExpression => "ParenthesizedExpression"
  | .functionExpression => "FunctionExpression"
  | .arrowFunction => "ArrowFunction"
  | .deleteExpression => "DeleteExpression"
  | .typeOfExpression => "TypeOfExpression"
  | .voidExpression => "VoidExpression"
  | .awaitExpression => "AwaitExpression"
  | .prefixUnaryExpression => "PrefixUnaryExpression"
  | .postfixUnaryExpression => "PostfixUnaryExpression"
  | .binaryExpression => "BinaryExpression"
  | .conditionalExpression => "ConditionalExpression"
  | .templateExpression => "TemplateExpression"
  | .yieldExpression => "YieldExpression"
  | .spreadElement => "SpreadElement"
  | .classExpression => "ClassExpression"
  | .omittedExpression => "OmittedExpression"
  | .expressionWithTypeArguments => "ExpressionWithTypeArguments"
  | .asExpression => "AsExpression"
  | .nonNullExpression => "NonNullExpression"
  | .metaProperty => "MetaProperty"
  | .templateSpan => "TemplateSpan"
  | .semicolonClassElement => "SemicolonClassElement"
  | .block => "Block"
  | .emptyStatement => "EmptyStatement"
  | .variableStatement => "VariableStatement"
  | .expressionStatement => "ExpressionStatement"
  | .ifStatement => "IfStatement"
  | .doStatement => "DoStatement"
  | .whileStatement => "WhileStatement"
  | .forStatement => "ForStatement"
  | .forInStatement => "ForInStatement"
  | .forOfStatement => "ForOfStatement"
  | .continueStatement => "ContinueStatement"
  | .breakStatement => "BreakStatement"
  | .returnStatement => "ReturnStatement"
  | .withStatement => "WithStatement"
  | .switchStatement => "SwitchStatement"
  | .labeledStatement => "LabeledStatement"
  | .throwStatement => "ThrowStatement"
  | .tryStatement => "TryStatement"
  | .debuggerStatement => "DebuggerStatement"
  | .variableDeclaration => "VariableDeclaration"
  | .variableDeclarationList => "VariableDeclarationList"
  | .functionDeclaration => "FunctionDeclaration"
  | .classDeclaration => "ClassDeclaration"
  | .interfaceDeclaration => "InterfaceDeclaration"
  | .typeAliasDeclaration => "TypeAliasDeclaration"
  | .enumDeclaration => "EnumDeclaration"
  | .moduleDeclaration => "ModuleDeclaration"
  | .moduleBlock => "ModuleBlock"
  | .caseBlock => "CaseBlock"
  | .namespaceExportDeclaration => "NamespaceExportDeclaration"
  | .importEqualsDeclaration => "ImportEqualsDeclaration"
  | .importDeclaration => "ImportDeclaration"
  | .importClause => "ImportClause"
  | .namespaceImport => "NamespaceImport"
  | .namedImports => "NamedImports"
  | .importSpecifier => "ImportSpecifier"
  | .exportAssignment => "ExportAssignment"
  | .exportDeclaration => "ExportDeclaration"
  | .namedExports => "NamedExports"
  | .exportSpecifier => "ExportSpecifier"
  | .missingDeclaration => "MissingDeclaration"
  | .externalModuleReference => "ExternalModuleReference"
  | .jsxElement => "JsxElement"
  | .jsxSelfClosingElement => "JsxSelfClosingElement"
  | .jsxOpeningElement => "JsxOpeningElement"
  | .jsxClosingElement => "JsxClosingElement"
  | .jsxFragment => "JsxFragment"
  | .jsxOpeningFragment => "JsxOpeningFragment"
  | .jsxClosingFragment => "JsxClosingFragment"
  | .jsxAttribute => "JsxAttribute"
  | .jsxAttributes => "JsxAttributes"
  | .jsxSpreadAttribute => "JsxSpreadAttribute"
  | .jsxExpression => "JsxExpression"
  | .caseClause => "CaseClause"
  | .defaultClause => "DefaultClause"
  | .heritageClause => "HeritageClause"
  | .catchClause => "CatchClause"
  | .propertyAssignment => "PropertyAssignment"
  | .shorthandPropertyAssignment => "ShorthandPropertyAssignment"
  | .spreadAssignment => "SpreadAssignment"
  | .enumMember => "EnumMember"
  | .sourceFile => "SourceFile"

def Kind.name : Kind → String
  | .unknown => "Unknown"
  | .endOfFile => "EndOfFileToken"
  | .trivia t => t.name
  | .literal l => l.name
  | .template p => p.name
  | .punct p => p.name
  | .identifier => "Identifier"
  | .keyword k => k.name
  | .node n => n.name
  | .sentinel => "Count"

def Kind.ofName? (name : String) : Option Kind := Kind.all.find? fun k => k.name == name

end ScriptSyntax
