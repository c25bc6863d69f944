/-
  ScriptSyntax/Grammar/Modules.lean
  =================================
  Namespaces, imports and exports.
-/
import ScriptSyntax.Grammar.Expressions

namespace ScriptSyntax

namespace Parser

/-! ## 1. Namespaces -/

/-- The statements of a namespace, in braces. -/
def moduleBlock : Parser NodeId := do
  let pos ← nodePos
  let statements ←
    if ← expectPunct .openBrace then do
      let list ← elements .blockStatements (parse .statement)
      let _ ← expectPunct .closeBrace
      pure list
    else missingList
  finishProduction .moduleBlock pos (.block statements true)

/-- A namespace, at its name. Each part of a dotted name is a namespace in the one before it. -/
def namespaceDeclaration (start : DeclarationStart) (flags : NodeFlags) : Parser NodeId := do
  let name ← identifier
  let body ←
    if ← acceptPunct .dot then do
      let inner : NodeFlags :=
        { nestedNamespace := true, namespaceDeclaration := flags.namespaceDeclaration }
      parse (.namespaceDeclaration { pos := ← nodePos } inner)
    else moduleBlock
  finishFlaggedDeclaration .moduleDeclaration start flags (.moduleDeclaration name (some body))

/-- The body of a declared module, or the end of a statement in place of one. -/
def optionalModuleBlock : Parser (Option NodeId) := do
  if ← isAtPunct .openBrace then return some (← moduleBlock)
  semicolon
  return none

/-- A declaration of what is global. -/
def globalDeclaration (start : DeclarationStart) : Parser NodeId := do
  let name ← identifier
  let body ← optionalModuleBlock
  finishFlaggedDeclaration .moduleDeclaration start { globalAugmentation := true }
    (.moduleDeclaration name body)

def quotedModuleDeclaration (start : DeclarationStart) : Parser NodeId := do
  let name ← literalNode
  let body ← optionalModuleBlock
  finishDeclaration .moduleDeclaration start (.moduleDeclaration name body)

def moduleDeclaration (start : DeclarationStart) : Parser NodeId := do
  if ← isAtKeyword .globalKw then globalDeclaration start
  else if ← acceptKeyword .namespaceKw then
    namespaceDeclaration start { namespaceDeclaration := true }
  else
    let _ ← expectKeyword .moduleKw
    if ← isAt (.literal .string) then quotedModuleDeclaration start
    else namespaceDeclaration start {}

/-! ## 2. Specifiers -/

/-- The name of a module. Only a string is valid, but any expression is read. -/
def moduleSpecifier : Parser NodeId := do
  if ← isAt (.literal .string) then literalNode else parse .expression

/-- A token that is a word which cannot be an identifier here, if it is one. -/
def reservedWordHere : Parser (Option Token) := do
  let t ← token
  if t.kind.isKeyword && !(← isIdentifier) then return some t else return none

/-- A name that is imported or exported, possibly under another name. The local name of an import
must be an identifier. -/
def specifier (kind : NodeKind) : Parser NodeId := do
  let pos ← nodePos
  let firstReserved ← reservedWordHere
  let first ← name
  let (propertyName, localName, reserved) ←
    if ← acceptKeyword .asKw then do
      let reserved ← reservedWordHere
      pure (some first, ← name, reserved)
    else pure (none, first, firstReserved)
  if kind == .importSpecifier then
    if let some t := reserved then errorAtRange t.start t.stop .identifierExpected []
  finishProduction kind pos (.specifier propertyName localName)

/-- Names in braces that are imported or exported. -/
def specifiers (kind element : NodeKind) : Parser NodeId := do
  let pos ← nodePos
  let list ← bracketed .importOrExportSpecifiers (specifier element) .openBrace .closeBrace
  finishProduction kind pos (.namedBindings list)

def namedImports : Parser NodeId := specifiers .namedImports .importSpecifier

def namedExports : Parser NodeId := specifiers .namedExports .exportSpecifier

/-! ## 3. Imports -/

/-- All that a module exports, under one name. -/
def namespaceImport : Parser NodeId := do
  let pos ← nodePos
  let _ ← expectPunct .asterisk
  let _ ← expectKeyword .asKw
  let name ← identifier
  finishProduction .namespaceImport pos (.namespaceImport name)

/-- What is imported, the default under the given name. -/
def importClause (name : Option NodeId) (pos : Nat) : Parser NodeId := do
  let bindings ← do
    if ← (pure name.isNone <||> acceptPunct .comma) then
      if ← isAtPunct .asterisk then pure (some (← namespaceImport))
      else pure (some (← namedImports))
    else pure none
  finishProduction .importClause pos (.importClause name bindings)

def externalModuleReference : Parser NodeId := do
  let pos ← nodePos
  let _ ← expectKeyword .requireKw
  let _ ← expectPunct .openParen
  let inner ← moduleSpecifier
  let _ ← expectPunct .closeParen
  finishProduction .externalModuleReference pos (.expression inner)

/-- An import that gives a name to a module or to a dotted name, after that name. -/
def importEquals (start : DeclarationStart) (name : NodeId) : Parser NodeId := do
  let _ ← expectPunct .equals
  let reference ←
    if ← (isAtKeyword .requireKw <&&> peek (isAtPunct .openParen)) then externalModuleReference
    else entityName false .identifierExpected
  semicolon
  finishDeclaration .importEqualsDeclaration start (.importEquals name reference)

/-- The rest of an import from a module, where the default may have been given a name. -/
def importFrom (start : DeclarationStart) (clausePos : Nat) (name : Option NodeId) :
    Parser NodeId := do
  let clauseFollows ←
    pure name.isSome <||> isAtPunct .asterisk <||> isAtPunct .openBrace
  let clause ← do
    if clauseFollows then
      let clause ← importClause name clausePos
      let _ ← expectKeyword .fromKw
      pure (some clause)
    else pure none
  let source ← moduleSpecifier
  semicolon
  finishDeclaration .importDeclaration start (.importDeclaration clause source)

def importDeclaration (start : DeclarationStart) : Parser NodeId := do
  let _ ← expectKeyword .importKw
  let clausePos ← nodePos
  if ← isIdentifier then
    let name ← identifier
    match ← kind with
    | .punct .comma | .keyword .fromKw => importFrom start clausePos (some name)
    | _ => importEquals start name
  else importFrom start clausePos none

/-! ## 4. Exports -/

/-- An export of one value, at `=` or `default`. -/
def exportAssignment (start : DeclarationStart) : Parser NodeId := do
  let isEquals ← acceptPunct .equals
  if !isEquals then
    let _ ← expectKeyword .defaultKw
  let inner ← parse .assignment
  semicolon
  finishDeclaration .exportAssignment start (.exportAssignment isEquals inner)

/-- An export of a whole module as a global namespace. -/
def namespaceExport (start : DeclarationStart) : Parser NodeId := do
  let _ ← expectKeyword .asKw
  let _ ← expectKeyword .namespaceKw
  let name ← identifier
  semicolon
  finishDeclaration .namespaceExportDeclaration start (.namespaceExport name)

/-- Does the name of a module follow the names that are exported? The word before it may be
missing. -/
def startsExportSource : Parser Bool :=
  isAtKeyword .fromKw <||> onSameLine (isAt (.literal .string))

/-- An export of names, possibly from another module. -/
def exportNames (start : DeclarationStart) : Parser NodeId := do
  let (clause, source) ←
    if ← acceptPunct .asterisk then do
      let _ ← expectKeyword .fromKw
      pure (none, some (← moduleSpecifier))
    else do
      let clause ← namedExports
      let source ← do
        if ← startsExportSource then
          let _ ← expectKeyword .fromKw
          pure (some (← moduleSpecifier))
        else pure none
      pure (some clause, source)
  semicolon
  finishDeclaration .exportDeclaration start (.exportDeclaration clause source)

/-- What follows `export`, which has been read. -/
def exportDeclaration (start : DeclarationStart) : Parser NodeId := do
  match ← kind with
  | .keyword .defaultKw | .punct .equals => exportAssignment start
  | .keyword .asKw => namespaceExport start
  | _ => exportNames start

end Parser

end ScriptSyntax
