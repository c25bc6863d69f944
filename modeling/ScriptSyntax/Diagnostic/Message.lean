/-
  ScriptSyntax/Diagnostic/Message.lean
  ====================================
  The catalogue of messages.

  A message is a cause; its code and its text are functions of it.  A text may
  hold numbered places, `{0}`, `{1}` and so on, which arguments fill.
-/
import ScriptSyntax.Text.Replace

namespace ScriptSyntax

/-! ## 1. Causes -/

/-- How much a message matters. -/
inductive Category where
  | warning | error | suggestion | message
  deriving DecidableEq, Repr

def Category.name : Category → String
  | .warning => "warning"
  | .error => "error"
  | .suggestion => "suggestion"
  | .message => "message"

/-- What a diagnostic may be about. -/
inductive Message where
  -- tokens
  | unterminatedString | commentEndExpected | digitExpected | hexDigitExpected
  | unexpectedEndOfText | invalidCharacter | unterminatedTemplate
  | unterminatedRegularExpression | binaryDigitExpected | octalDigitExpected
  | mergeConflictMarker | codePointOutOfRange | unterminatedUnicodeEscape
  | identifierAfterNumber
  -- grammar
  | identifierExpected | tokenExpected | matchingTokenExpected | trailingCommaNotAllowed
  | unexpectedToken | superWithoutAccess | classMemberExpected | invalidReferenceDirective
  | emptyTypeArgumentList | expressionExpected | typeExpected | declarationOrStatementExpected
  | statementExpected | caseOrDefaultExpected | propertyOrSignatureExpected
  | enumMemberExpected | variableDeclarationExpected | argumentExpressionExpected
  | propertyAssignmentExpected | expressionOrCommaExpected | parameterDeclarationExpected
  | typeParameterDeclarationExpected | typeArgumentExpected | lineBreakNotPermitted
  | bodyOrSemicolonExpected | declarationExpected | propertyPatternExpected
  | arrayPatternExpected | tagAlreadySpecified | amdModuleNamedTwice
  -- JSX and operands of powers
  | jsxSiblingsWithoutParent | jsxClosingTagMismatch | unaryBaseOfPower | assertionBaseOfPower
  | jsxElementUnclosed | jsxFragmentUnclosed | jsxFragmentClosingTagMismatch
  deriving DecidableEq, Repr

namespace Message

/-- Every message, in catalogue order. -/
def all : List Message :=
  [.unterminatedString, .commentEndExpected, .digitExpected, .hexDigitExpected,
   .unexpectedEndOfText, .invalidCharacter, .unterminatedTemplate,
   .unterminatedRegularExpression, .binaryDigitExpected, .octalDigitExpected,
   .mergeConflictMarker, .codePointOutOfRange, .unterminatedUnicodeEscape,
   .identifierAfterNumber, .identifierExpected, .tokenExpected, .matchingTokenExpected,
   .trailingCommaNotAllowed, .unexpectedToken, .superWithoutAccess, .classMemberExpected,
   .invalidReferenceDirective, .emptyTypeArgumentList, .expressionExpected, .typeExpected,
   .declarationOrStatementExpected, .statementExpected, .caseOrDefaultExpected,
   .propertyOrSignatureExpected, .enumMemberExpected, .variableDeclarationExpected,
   .argumentExpressionExpected, .propertyAssignmentExpected, .expressionOrCommaExpected,
   .parameterDeclarationExpected, .typeParameterDeclarationExpected, .typeArgumentExpected,
   .lineBreakNotPermitted, .bodyOrSemicolonExpected, .declarationExpected,
   .propertyPatternExpected, .arrayPatternExpected, .tagAlreadySpecified, .amdModuleNamedTwice,
   .jsxSiblingsWithoutParent, .jsxClosingTagMismatch, .unaryBaseOfPower, .assertionBaseOfPower,
   .jsxElementUnclosed, .jsxFragmentUnclosed, .jsxFragmentClosingTagMismatch]

/-- The number under which a message is known. -/
def code : Message → Nat
  | .unterminatedString => 1002
  | .commentEndExpected => 1010
  | .digitExpected => 1124
  | .hexDigitExpected => 1125
  | .unexpectedEndOfText => 1126
  | .invalidCharacter => 1127
  | .unterminatedTemplate => 1160
  | .unterminatedRegularExpression => 1161
  | .binaryDigitExpected => 1177
  | .octalDigitExpected => 1178
  | .mergeConflictMarker => 1185
  | .codePointOutOfRange => 1198
  | .unterminatedUnicodeEscape => 1199
  | .identifierAfterNumber => 1351
  | .identifierExpected => 1003
  | .tokenExpected => 1005
  | .matchingTokenExpected => 1007
  | .trailingCommaNotAllowed => 1009
  | .unexpectedToken => 1012
  | .superWithoutAccess => 1034
  | .classMemberExpected => 1068
  | .invalidReferenceDirective => 1084
  | .emptyTypeArgumentList => 1099
  | .expressionExpected => 1109
  | .typeExpected => 1110
  | .declarationOrStatementExpected => 1128
  | .statementExpected => 1129
  | .caseOrDefaultExpected => 1130
  | .propertyOrSignatureExpected => 1131
  | .enumMemberExpected => 1132
  | .variableDeclarationExpected => 1134
  | .argumentExpressionExpected => 1135
  | .propertyAssignmentExpected => 1136
  | .expressionOrCommaExpected => 1137
  | .parameterDeclarationExpected => 1138
  | .typeParameterDeclarationExpected => 1139
  | .typeArgumentExpected => 1140
  | .lineBreakNotPermitted => 1142
  | .bodyOrSemicolonExpected => 1144
  | .declarationExpected => 1146
  | .propertyPatternExpected => 1180
  | .arrayPatternExpected => 1181
  | .tagAlreadySpecified => 1223
  | .amdModuleNamedTwice => 2458
  | .jsxSiblingsWithoutParent => 2657
  | .jsxClosingTagMismatch => 17002
  | .unaryBaseOfPower => 17006
  | .assertionBaseOfPower => 17007
  | .jsxElementUnclosed => 17008
  | .jsxFragmentUnclosed => 17014
  | .jsxFragmentClosingTagMismatch => 17015

/-- How much the message matters: every message of the catalogue is an error. -/
def category (_ : Message) : Category := .error

/-- The text of a message, with places for arguments. -/
def template : Message → String
  | .unterminatedString => "Unterminated string literal."
  | .commentEndExpected => "'*/' expected."
  | .digitExpected => "Digit expected."
  | .hexDigitExpected => "Hexadecimal digit expected."
  | .unexpectedEndOfText => "Unexpected end of text."
  | .invalidCharacter => "Invalid character."
  | .unterminatedTemplate => "Unterminated template literal."
  | .unterminatedRegularExpression => "Unterminated regular expression literal."
  | .binaryDigitExpected => "Binary digit expected."
  | .octalDigitExpected => "Octal digit expected."
  | .mergeConflictMarker => "Merge conflict marker encountered."
  | .codePointOutOfRange =>
    "An extended Unicode escape value must be between 0x0 and 0x10FFFF inclusive."
  | .unterminatedUnicodeEscape => "Unterminated Unicode escape sequence."
  | .identifierAfterNumber =>
    "An identifier or keyword cannot immediately follow a numeric literal."
  | .identifierExpected => "Identifier expected."
  | .tokenExpected => "'\x7b0\x7d' expected."
  | .matchingTokenExpected =>
    "The parser expected to find a '\x7b0\x7d' to match the '\x7b1\x7d' token here."
  | .trailingCommaNotAllowed => "Trailing comma not allowed."
  | .unexpectedToken => "Unexpected token."
  | .superWithoutAccess => "'super' must be followed by an argument list or member access."
  | .classMemberExpected =>
    "Unexpected token. A constructor, method, accessor, or property was expected."
  | .invalidReferenceDirective => "Invalid 'reference' directive syntax."
  | .emptyTypeArgumentList => "Type argument list cannot be empty."
  | .expressionExpected => "Expression expected."
  | .typeExpected => "Type expected."
  | .declarationOrStatementExpected => "Declaration or statement expected."
  | .statementExpected => "Statement expected."
  | .caseOrDefaultExpected => "'case' or 'default' expected."
  | .propertyOrSignatureExpected => "Property or signature expected."
  | .enumMemberExpected => "Enum member expected."
  | .variableDeclarationExpected => "Variable declaration expected."
  | .argumentExpressionExpected => "Argument expression expected."
  | .propertyAssignmentExpected => "Property assignment expected."
  | .expressionOrCommaExpected => "Expression or comma expected."
  | .parameterDeclarationExpected => "Parameter declaration expected."
  | .typeParameterDeclarationExpected => "Type parameter declaration expected."
  | .typeArgumentExpected => "Type argument expected."
  | .lineBreakNotPermitted => "Line break not permitted here."
  | .bodyOrSemicolonExpected => "'\x7b' or ';' expected."
  | .declarationExpected => "Declaration expected."
  | .propertyPatternExpected => "Property destructuring pattern expected."
  | .arrayPatternExpected => "Array element destructuring pattern expected."
  | .tagAlreadySpecified => "'\x7b0\x7d' tag already specified."
  | .amdModuleNamedTwice => "An AMD module cannot have multiple name assignments."
  | .jsxSiblingsWithoutParent => "JSX expressions must have one parent element."
  | .jsxClosingTagMismatch => "Expected corresponding JSX closing tag for '\x7b0\x7d'."
  | .unaryBaseOfPower =>
    "An unary expression with the '\x7b0\x7d' operator is not allowed in the "
    ++ "left-hand side of an exponentiation expression. Consider enclosing the "
    ++ "expression in parentheses."
  | .assertionBaseOfPower =>
    "A type assertion expression is not allowed in the left-hand side of an "
    ++ "exponentiation expression. Consider enclosing the expression in parentheses."
  | .jsxElementUnclosed => "JSX element '\x7b0\x7d' has no corresponding closing tag."
  | .jsxFragmentUnclosed => "JSX fragment has no corresponding closing tag."
  | .jsxFragmentClosingTagMismatch => "Expected corresponding closing tag for JSX fragment."

def ofCode? (code : Nat) : Option Message := all.find? fun m => m.code == code

end Message

/-! ## 2. Filling in arguments -/

/-- The place that the `i`-th argument fills. -/
def placeholder (i : Nat) : String := "\x7b" ++ toString i ++ "\x7d"

/-- Fills a template: each argument in turn takes the place of its number, wherever that stands
in the text made so far. -/
def fillTemplate (template : String) (args : List String) : String :=
  args.zipIdx.foldl (fun text arg => replaceAll (placeholder arg.2) arg.1 text) template

def Message.text (m : Message) (args : List String) : String := fillTemplate m.template args

end ScriptSyntax
