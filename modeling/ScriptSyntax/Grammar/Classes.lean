/-
  ScriptSyntax/Grammar/Classes.lean
  =================================
  Classes and interfaces: what they inherit, and the members of classes.
-/
import ScriptSyntax.Grammar.Functions

namespace ScriptSyntax

namespace Parser

/-! ## 1. Heritage -/

/-- Something that is inherited, with its type arguments. -/
def heritageElement : Parser NodeId := do
  let pos ← nodePos
  let inner ← parse .leftHandSide
  let arguments ← do
    if ← isAtPunct .lessThan then pure (some (← typeArguments)) else pure none
  finishProduction .expressionWithTypeArguments pos (.withTypeArguments inner arguments)

def heritageClause : Parser NodeId := do
  let t ← token
  nextToken
  let types ← separated .heritageClauseElement heritageElement
  finishProduction .heritageClause t.fullStart (.heritageClause t.kind types)

def heritageClauses : Parser (Option NodeArray) := do
  if ← startsHeritageClause then return some (← elements .heritageClauses heritageClause)
  else return none

/-! ## 2. Members -/

def propertyAfterName (start : DeclarationStart) (name : NodeId) (questionMark : Option NodeId) :
    Parser NodeId := do
  let type ← typeAnnotation
  let initializer ←
    if ← hasModifier start.modifiers .staticKw then allowIn initializer
    else withContext (fun c => { c with yieldContext := false, disallowIn := false }) initializer
  semicolon
  finishDeclaration .propertyDeclaration start (.variableLike { name, questionMark, type, initializer })

def propertyOrMethod (start : DeclarationStart) : Parser NodeId := do
  let asterisk ← acceptToken (.punct .asterisk)
  let name ← propertyName
  let questionMark ← acceptToken (.punct .question)
  if ← (pure asterisk.isSome <||> isParenOrLessThan) then
    methodAfterName start asterisk name questionMark (some .bodyOrSemicolonExpected)
  else propertyAfterName start name questionMark

/-- May the token start the name of a member, or the asterisk before it? -/
def startsMemberName : Parser Bool :=
  kindIs fun k =>
    k.isName || k.isPropertyLiteral || k == .punct .asterisk || k == .punct .openBracket

/-- A member after its decorators and modifiers. Where nothing else follows, it is a property
without a name. -/
def memberAfterModifiers (start : DeclarationStart) : Parser NodeId := do
  if ← acceptContextualWord .getKw then accessor .getAccessor start
  else if ← acceptContextualWord .setKw then accessor .setAccessor start
  else if ← isAtKeyword .constructorKw then constructorMember start
  else if ← startsIndexSignature then indexSignature start
  else if ← startsMemberName then propertyOrMethod start
  else
    let name ← missingBefore .identifier .declarationExpected []
    propertyAfterName start name none

def classMember : Parser NodeId := do
  let pos ← nodePos
  if ← acceptPunct .semicolon then finishProduction .semicolonClassElement pos .token
  else
    let decorators ← decorators
    let modifiers ← modifiers true
    memberAfterModifiers { pos, decorators, modifiers }

/-! ## 3. Classes -/

/-- The name of a class, if it has one; `implements` may start a clause instead. -/
def className : Parser (Option NodeId) := do
  if ← isIdentifier then
    if ← (isAtKeyword .implementsKw <&&> peek isName) then return none
    return some (← identifier)
  else return none

def classMembers : Parser NodeArray := do
  if ← expectPunct .openBrace then
    let list ← elements .classMembers classMember
    let _ ← expectPunct .closeBrace
    return list
  else missingList

/-- A class, as a declaration or as an expression. -/
def classLike (kind : NodeKind) (start : DeclarationStart) : Parser NodeId := do
  let _ ← expectKeyword .classKw
  let name ← className
  let typeParameters ← typeParameters
  let heritage ← heritageClauses
  let members ← classMembers
  finishDeclaration kind start (.classLike { name, typeParameters, heritage, members })

def interfaceDeclaration (start : DeclarationStart) : Parser NodeId := do
  let _ ← expectKeyword .interfaceKw
  let name ← identifier
  let typeParameters ← typeParameters
  let heritage ← heritageClauses
  let members ← typeMembers
  finishDeclaration .interfaceDeclaration start
    (.classLike { name := some name, typeParameters, heritage, members })

end Parser

end ScriptSyntax
