/-
  ScriptSyntax/Grammar/Functions.lean
  ===================================
  Blocks, and the functions, methods and accessors that have one for a body.
-/
import ScriptSyntax.Grammar.Types

namespace ScriptSyntax

namespace Parser

/-! ## 1. Blocks -/

/-- A block. The given message is reported where its opening brace is missing; the statements are
read all the same where told so. -/
def blockWith (braceOptional : Bool) (m : Option Message) : Parser NodeId := do
  let pos ← nodePos
  let openPos ← tokenPos
  let opened ← expectWith (.punct .openBrace) m
  if opened || braceOptional then
    let multiLine ← afterLineBreak
    let statements ← elements .blockStatements (parse .statement)
    expectClosing .openBrace .closeBrace (if opened then some openPos else none)
    finishProduction .block pos (.block statements multiLine)
  else
    finishProduction .block pos (.block (← missingList) false)

def block : Parser NodeId := blockWith false none

def functionBodyWith (mode : SignatureMode) (braceOptional : Bool) (m : Option Message) :
    Parser NodeId :=
  inFunction mode.isGenerator mode.isAsync (outsideDecorator (blockWith braceOptional m))

def functionBody (mode : SignatureMode) : Parser NodeId := functionBodyWith mode false none

/-- The body of a function, or the end of a statement in place of one. -/
def optionalFunctionBody (mode : SignatureMode) (m : Option Message) : Parser (Option NodeId) := do
  if !(← isAtPunct .openBrace) && (← canEndStatement) then
    semicolon
    return none
  else return some (← functionBodyWith mode false m)

/-! ## 2. Functions -/

/-- A signature and the body after it, for a function with the given name. -/
def functionParts (mode : SignatureMode) (asterisk name questionMark : Option NodeId)
    (m : Option Message) : Parser FunctionShape := do
  let shape ← signature mode
  let body ← optionalFunctionBody mode m
  return { asterisk, name, questionMark, typeParameters := shape.typeParameters
           parameters := shape.parameters, type := shape.type, body }

/-- A declared function. Only one that is exported as default may lack a name. -/
def functionDeclaration (start : DeclarationStart) : Parser NodeId := do
  let _ ← expectKeyword .functionKw
  let asterisk ← acceptToken (.punct .asterisk)
  let name ←
    if ← hasModifier start.modifiers .defaultKw then optionalIdentifier
    else do pure (some (← identifier))
  let mode ← functionMode asterisk start.modifiers
  let shape ← functionParts mode asterisk name none (some .bodyOrSemicolonExpected)
  finishDeclaration .functionDeclaration start (.functionLike shape)

/-- A function that is an expression. What it makes of `yield` and `await` holds for its name. -/
def functionExpression : Parser NodeId :=
  outsideDecorator do
    let pos ← nodePos
    let modifiers ← modifiers false
    let _ ← expectKeyword .functionKw
    let asterisk ← acceptToken (.punct .asterisk)
    let mode ← functionMode asterisk modifiers
    let name ← inFunction mode.isGenerator mode.isAsync optionalIdentifier
    let shape ← signature mode
    let body ← functionBody mode
    finishDeclaration .functionExpression { pos, modifiers } (.functionLike {
      asterisk, name, typeParameters := shape.typeParameters, parameters := shape.parameters
      type := shape.type, body := some body })

/-! ## 3. Methods and accessors -/

/-- An accessor, after the word that makes it one. -/
def accessor (kind : NodeKind) (start : DeclarationStart) : Parser NodeId := do
  let name ← propertyName
  let shape ← functionParts {} none (some name) none none
  finishDeclaration kind start (.functionLike shape)

def constructorMember (start : DeclarationStart) : Parser NodeId := do
  let _ ← expectKeyword .constructorKw
  let shape ← functionParts {} none none none (some .bodyOrSemicolonExpected)
  finishDeclaration .constructorDecl start (.functionLike shape)

def methodAfterName (start : DeclarationStart) (asterisk : Option NodeId) (name : NodeId)
    (questionMark : Option NodeId) (m : Option Message) : Parser NodeId := do
  let mode ← functionMode asterisk start.modifiers
  let shape ← functionParts mode asterisk (some name) questionMark m
  finishDeclaration .methodDeclaration start (.functionLike shape)

end Parser

end ScriptSyntax
