/-
  ScriptSyntax/Grammar/Types.lean
  ===============================
  Types, and the members of object types.
-/
import ScriptSyntax.Grammar.Bindings

namespace ScriptSyntax

namespace Parser

/-! ## 1. Function types -/

/-- Reads over what a parameter starts with, and says whether there was such a thing. A pattern
counts only if it is free of errors. -/
def skipParameterStart : Parser Bool := do
  if (← kind).isModifier then
    let _ ← modifiers false
  if ← (isIdentifier <||> isAtKeyword .thisKw) then
    nextToken
    return true
  match ← kind with
  | .punct .openBracket | .punct .openBrace =>
    let errors := (← get).log.size
    let _ ← parse .bindingName
    return errors == (← get).log.size
  | _ => return false

/-- Reads on from an opening parenthesis, and says whether it starts a list of parameters beyond
doubt. -/
def parametersAhead : Parser Bool := do
  match ← nextKind with
  | .punct .closeParen | .punct .dotDotDot => return true
  | _ =>
    if ← skipParameterStart then
      match ← kind with
      | .punct .colon | .punct .comma | .punct .question | .punct .equals => return true
      | .punct .closeParen => return (← nextKind) == .punct .equalsGreaterThan
      | _ => return false
    else return false

/-- Does the opening parenthesis start a list of parameters, beyond doubt? -/
def parenStartsParameters : Parser Bool := lookAhead parametersAhead

def startsFunctionType : Parser Bool := do
  match ← kind with
  | .punct .lessThan => return true
  | .punct .openParen => parenStartsParameters
  | _ => return false

def functionType : Parser NodeId := do
  let pos ← nodePos
  let shape ← arrowSignature { inType := true }
  finishProduction .functionType pos (.signature shape)

def constructorType : Parser NodeId := do
  let pos ← nodePos
  let _ ← expectKeyword .newKw
  let shape ← arrowSignature { inType := true }
  finishProduction .constructorType pos (.signature shape)

/-! ## 2. Lists of types -/

def typeArguments : Parser NodeArray :=
  allowConditionalTypes (bracketed .typeArguments (parse .type) .lessThan .greaterThan)

def tupleType : Parser NodeId := do
  let pos ← nodePos
  let types ←
    allowConditionalTypes (bracketed .tupleElementTypes (parse .type) .openBracket .closeBracket)
  finishProduction .tupleType pos (.typeList types)

/-! ## 3. References -/

/-- Type arguments, if they follow on the same line. Of two angle brackets the first is taken. -/
def referenceArguments : Parser (Option NodeArray) := do
  if ← afterLineBreak then return none
  advance .rescanLess
  if ← isAtPunct .lessThan then return some (← typeArguments) else return none

/-- A type by its name. It is marked where the name is missing. -/
def typeReference : Parser NodeId := do
  let pos ← nodePos
  let name ← entityName true .typeExpected
  let arguments ← referenceArguments
  let hasError ← isMissing name
  finishFlagged .typeReference pos { hasError } (.typeReference name arguments)

/-- The type of a value by its name. -/
def typeQuery : Parser NodeId := do
  let pos ← nodePos
  let _ ← expectKeyword .typeOfKw
  let name ← entityName true .identifierExpected
  finishProduction .typeQuery pos (.typeQuery name)

/-- A word that is a type, unless a dot makes it part of a name. -/
def keywordType : Parser (Option NodeId) := do
  let word ← tokenNode
  if ← isAtPunct .dot then return none else return some word

/-- A type that is a word, or starts with one. -/
def wordType : Parser NodeId := do
  match ← attempt keywordType with
  | some word => return word
  | none => typeReference

/-- A type that consists of one value. -/
def literalType : Parser NodeId := do
  let pos ← nodePos
  let literal ← do
    match ← kind with
    | .keyword .trueKw | .keyword .falseKw => tokenNode
    | _ => literalNode
  finishProduction .literalType pos (.literalType literal)

/-- A type that consists of one negative number. -/
def negativeLiteralType : Parser NodeId := do
  let pos ← nodePos
  nextToken
  let operand ← literalNode
  let literal ← finishProduction .prefixUnaryExpression pos (.unary (.punct .minus) operand)
  finishProduction .literalType pos (.literalType literal)

/-- The type `this`, or what it is said to be. -/
def thisType : Parser NodeId := do
  let pos ← nodePos
  nextToken
  let this ← finishProduction .thisType pos .token
  if ← isAtKeyword .isKw then
    if ← afterLineBreak then return this
    nextToken
    let type ← parse .type
    finishProduction .typePredicate pos (.typePredicate this type)
  else return this

def parenthesizedType : Parser NodeId := do
  let pos ← nodePos
  let _ ← expectPunct .openParen
  let type ← allowConditionalTypes (parse .type)
  let _ ← expectPunct .closeParen
  finishProduction .parenthesizedType pos (.parenthesizedType type)

/-! ## 4. Mapped types -/

/-- A word that may have a sign before it; the sign is then the node. -/
def signedToken (signed : Kind) : Parser (Option NodeId) := do
  match ← kind with
  | .punct .plus | .punct .minus =>
    let sign ← tokenNode
    let _ ← expect signed
    return some sign
  | k => if k == signed then return some (← tokenNode) else return none

def mappedTypeParameter : Parser NodeId := do
  let pos ← nodePos
  let name ← identifier
  let _ ← expectKeyword .inKw
  let constraint ← parse .type
  finishProduction .typeParameter pos (.typeParameter name (some constraint) none)

def mappedType : Parser NodeId := do
  let pos ← nodePos
  let _ ← expectPunct .openBrace
  let readonlyWord ← signedToken (.keyword .readonlyKw)
  let _ ← expectPunct .openBracket
  let parameter ← mappedTypeParameter
  let _ ← expectPunct .closeBracket
  let questionMark ← signedToken (.punct .question)
  let type ← allowConditionalTypes typeAnnotation
  semicolon
  let _ ← expectPunct .closeBrace
  finishProduction .mappedType pos (.mappedType readonlyWord parameter questionMark type)

/-! ## 5. Members -/

/-- The end of a member of a type: a comma, or the end of a statement. -/
def memberEnd : Parser Unit := do
  if ← acceptPunct .comma then return
  semicolon

def indexSignature (start : DeclarationStart) : Parser NodeId := do
  let parameters ← bracketed .parameters parameter .openBracket .closeBracket
  let type ← typeAnnotation
  memberEnd
  finishDeclaration .indexSignature start (.signature { parameters, type })

def callSignature : Parser NodeId := do
  let pos ← nodePos
  let shape ← signature { inType := true }
  memberEnd
  finishProduction .callSignature pos (.signature shape)

def constructSignature : Parser NodeId := do
  let pos ← nodePos
  let _ ← expectKeyword .newKw
  let shape ← signature { inType := true }
  memberEnd
  finishProduction .constructSignature pos (.signature shape)

def methodSignature (start : DeclarationStart) (name : NodeId) (questionMark : Option NodeId) :
    Parser NodeId := do
  let shape ← signature { inType := true }
  memberEnd
  finishDeclaration .methodSignature start (.functionLike {
    name := some name, questionMark, typeParameters := shape.typeParameters
    parameters := shape.parameters, type := shape.type })

/-- A property signature, after its name. An initializer is read, though none is valid. -/
def propertySignature (start : DeclarationStart) (name : NodeId) (questionMark : Option NodeId) :
    Parser NodeId := do
  let type ← typeAnnotation
  let initializer ← do
    if ← isAtPunct .equals then initializer else pure none
  memberEnd
  finishDeclaration .propertySignature start (.variableLike { name, questionMark, type, initializer })

def namedMember (start : DeclarationStart) : Parser NodeId := do
  let name ← propertyName
  let questionMark ← acceptToken (.punct .question)
  if ← isParenOrLessThan then methodSignature start name questionMark
  else propertySignature start name questionMark

def typeMember : Parser NodeId := do
  if ← isParenOrLessThan then callSignature
  else if ← (isAtKeyword .newKw <&&> peek isParenOrLessThan) then constructSignature
  else
    let pos ← nodePos
    let modifiers ← modifiers false
    if ← startsIndexSignature then indexSignature { pos, modifiers }
    else namedMember { pos, modifiers }

def typeMembers : Parser NodeArray := do
  if ← expectPunct .openBrace then
    let list ← elements .typeMembers typeMember
    let _ ← expectPunct .closeBrace
    return list
  else missingList

def typeLiteral : Parser NodeId := do
  let pos ← nodePos
  let list ← allowConditionalTypes typeMembers
  finishProduction .typeLiteral pos (.members list)

/-! ## 6. Operators -/

/-- A type that no operator is part of. -/
def primaryType : Parser NodeId := do
  match ← kind with
  | .keyword .anyKw | .keyword .unknownKw | .keyword .stringKw | .keyword .numberKw
  | .keyword .bigIntKw | .keyword .symbolKw | .keyword .booleanKw | .keyword .undefinedKw
  | .keyword .neverKw | .keyword .objectKw => wordType
  | .literal .string | .literal .numeric | .keyword .trueKw | .keyword .falseKw => literalType
  | .punct .minus => if ← peek isNumber then negativeLiteralType else typeReference
  | .keyword .voidKw | .keyword .nullKw => tokenNode
  | .keyword .thisKw => thisType
  | .keyword .typeOfKw => typeQuery
  | .punct .openBrace => if ← startsMappedType then mappedType else typeLiteral
  | .punct .openBracket => tupleType
  | .punct .openParen => parenthesizedType
  | _ => typeReference

/-- What follows in brackets after a type: nothing makes an array of it, a type selects. -/
def bracketsAfterType (pos : Nat) (type : NodeId) : Parser NodeId := do
  if ← startsType then
    let index ← parse .type
    let _ ← expectPunct .closeBracket
    finishProduction .indexedAccessType pos (.indexedAccessType type index)
  else
    let _ ← expectPunct .closeBracket
    finishProduction .arrayType pos (.arrayType type)

/-- A type and the brackets after it. A line break ends the type. -/
def postfixType : Parser NodeId := do
  let pos ← nodePos
  let first ← primaryType
  repeating first fun type => do
    if ← afterLineBreak then return .done type
    if ← acceptPunct .openBracket then return .again (← bracketsAfterType pos type)
    else return .done type

/-- A type to be inferred, under a name. -/
def inferType : Parser NodeId := do
  let pos ← nodePos
  let _ ← expectKeyword .inferKw
  let parameterPos ← nodePos
  let name ← identifier
  let parameter ← finishProduction .typeParameter parameterPos (.typeParameter name none none)
  finishProduction .inferType pos (.inferType parameter)

/-- A type with the words that stand before it. -/
def typeOperator : Parser NodeId := do
  match ← kind with
  | .keyword .keyOfKw | .keyword .uniqueKw | .keyword .readonlyKw =>
    let t ← token
    nextToken
    let type ← parse .typeOperator
    finishProduction .typeOperator t.fullStart (.typeOperator t.kind type)
  | .keyword .inferKw => inferType
  | _ => postfixType

/-- Types with an operator between them. The operator may also stand before the first one. -/
def typeChain (node : NodeKind) (operator : Punctuator) (part : Parser NodeId) :
    Parser NodeId := do
  let pos ← nodePos
  let led ← acceptPunct operator
  let first ← part
  if !led && !(← isAtPunct operator) then return first
  let listPos := (← Parser.node first).pos
  let types ← repeating [first] fun read => do
    if ← acceptPunct operator then return .again ((← part) :: read) else return .done read
  let stop ← nodePos
  finishProduction node pos (.typeList { pos := listPos, stop, nodes := types.reverse })

/-- A union, or what may be part of one. -/
def unionType : Parser NodeId :=
  typeChain .unionType .bar (typeChain .intersectionType .ampersand typeOperator)

/-! ## 7. Types -/

/-- The rest of a conditional type, after `extends`. -/
def conditionalRest (pos : Nat) (check : NodeId) : Parser NodeId := do
  let bound ← disallowConditionalTypes (parse .type)
  let _ ← expectPunct .question
  let whenTrue ← allowConditionalTypes (parse .type)
  let _ ← expectPunct .colon
  let whenFalse ← allowConditionalTypes (parse .type)
  finishProduction .conditionalType pos (.conditionalType check bound whenTrue whenFalse)

/-- A type, the depth of nesting being checked. -/
def typeBody : Parser NodeId := do
  if ← startsFunctionType then functionType
  else if ← isAtKeyword .newKw then constructorType
  else
    let pos ← nodePos
    let check ← unionType
    if (← context).disallowConditionalTypes then return check
    if ← afterLineBreak then return check
    if ← acceptKeyword .extendsKw then conditionalRest pos check else return check

/-- A type. What surrounds it does not make `yield` or `await` a keyword in it. -/
def type : Parser NodeId :=
  inFunction false false do
    let (id, parsed) ← nested .typeExpected typeBody
    if parsed then return id
    let pos := (← node id).pos
    finishProduction .typeReference pos (.typeReference id none)

end Parser

end ScriptSyntax
