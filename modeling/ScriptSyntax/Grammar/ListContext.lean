/-
  ScriptSyntax/Grammar/ListContext.lean
  =====================================
  The kinds of list that the grammar repeats its productions in.
-/
import ScriptSyntax.Diagnostic.Message

namespace ScriptSyntax

/-- What a list is a list of. It decides which tokens start an element and which end the list. -/
inductive ListContext where
  | sourceElements | blockStatements | switchClauses | switchClauseStatements | typeMembers
  | classMembers | enumMembers | heritageClauseElement | variableDeclarations
  | objectBindingElements | arrayBindingElements | argumentExpressions | objectLiteralMembers
  | jsxAttributes | jsxChildren | arrayLiteralMembers | parameters | typeParameters
  | typeArguments | tupleElementTypes | heritageClauses | importOrExportSpecifiers
  deriving DecidableEq, Repr

namespace ListContext

/-- Every kind of list, in the order in which enclosing lists are asked about a token. -/
def all : List ListContext :=
  [.sourceElements, .blockStatements, .switchClauses, .switchClauseStatements, .typeMembers,
   .classMembers, .enumMembers, .heritageClauseElement, .variableDeclarations,
   .objectBindingElements, .arrayBindingElements, .argumentExpressions, .objectLiteralMembers,
   .jsxAttributes, .jsxChildren, .arrayLiteralMembers, .parameters, .typeParameters,
   .typeArguments, .tupleElementTypes, .heritageClauses, .importOrExportSpecifiers]

/-- What is reported of a token that neither starts an element nor ends the list. -/
def unexpected : ListContext → Message
  | .sourceElements | .blockStatements => .declarationOrStatementExpected
  | .switchClauses => .caseOrDefaultExpected
  | .switchClauseStatements => .statementExpected
  | .typeMembers => .propertyOrSignatureExpected
  | .classMembers => .classMemberExpected
  | .enumMembers => .enumMemberExpected
  | .heritageClauseElement => .expressionExpected
  | .variableDeclarations => .variableDeclarationExpected
  | .objectBindingElements => .propertyPatternExpected
  | .arrayBindingElements => .arrayPatternExpected
  | .argumentExpressions => .argumentExpressionExpected
  | .objectLiteralMembers => .propertyAssignmentExpected
  | .arrayLiteralMembers => .expressionOrCommaExpected
  | .parameters => .parameterDeclarationExpected
  | .typeParameters => .typeParameterDeclarationExpected
  | .typeArguments => .typeArgumentExpected
  | .tupleElementTypes => .typeExpected
  | .heritageClauses => .unexpectedToken
  | .importOrExportSpecifiers | .jsxAttributes | .jsxChildren => .identifierExpected

end ListContext

end ScriptSyntax
