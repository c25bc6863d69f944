/-
  ScriptSyntax/Grammar/Declarations.lean
  ======================================
  Type aliases and enumerations, and the choice among declarations.
-/
import ScriptSyntax.Grammar.Bindings
import ScriptSyntax.Grammar.Classes
import ScriptSyntax.Grammar.Modules

namespace ScriptSyntax

namespace Parser

/-! ## 1. Type aliases and enumerations -/

def typeAliasDeclaration (start : DeclarationStart) : Parser NodeId := do
  let _ ← expectKeyword .typeKw
  let name ← identifier
  let typeParameters ← typeParameters
  let _ ← expectPunct .equals
  let type ← parse .type
  semicolon
  finishDeclaration .typeAliasDeclaration start (.typeAlias name typeParameters type)

def enumMember : Parser NodeId := do
  let pos ← nodePos
  let name ← propertyName
  let initializer ← allowIn initializer
  finishProduction .enumMember pos (.variableLike { name, initializer })

def enumDeclaration (start : DeclarationStart) : Parser NodeId := do
  let _ ← expectKeyword .enumKw
  let name ← identifier
  let members ← bracketed .enumMembers enumMember .openBrace .closeBrace
  finishDeclaration .enumDeclaration start (.enumeration name members)

/-! ## 2. The choice -/

/-- A declaration after its decorators and modifiers. If none follows, that is reported. -/
def declarationAfterModifiers (start : DeclarationStart) : Parser NodeId := do
  match ← kind with
  | .keyword .varKw | .keyword .letKw | .keyword .constKw => variableStatement start
  | .keyword .functionKw => functionDeclaration start
  | .keyword .classKw => classLike .classDeclaration start
  | .keyword .interfaceKw => interfaceDeclaration start
  | .keyword .typeKw => typeAliasDeclaration start
  | .keyword .enumKw => enumDeclaration start
  | .keyword .globalKw | .keyword .moduleKw | .keyword .namespaceKw => moduleDeclaration start
  | .keyword .importKw => importDeclaration start
  | .keyword .exportKw =>
    nextToken
    exportDeclaration start
  | _ =>
    errorHere .declarationExpected []
    finishDeclaration .missingDeclaration start .token

def declaration : Parser NodeId := do
  let pos ← nodePos
  let decorators ← decorators
  let modifiers ← modifiers false
  declarationAfterModifiers { pos, decorators, modifiers }

end Parser

end ScriptSyntax
