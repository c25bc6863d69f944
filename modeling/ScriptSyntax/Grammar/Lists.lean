/-
  ScriptSyntax/Grammar/Lists.lean
  ===============================
  Lists of productions.

  The context of a list says which tokens start an element and which end the
  list.  A token that does neither is reported; then it is skipped or, where a
  list around this one can use it, left for that list, and this one ends.
-/
import ScriptSyntax.Grammar.Starts

namespace ScriptSyntax

namespace Parser

/-! ## 1. What a token is to a list -/

/-- May the token start an element of the list? After an error some lists are stricter, so that a
stray token does not draw the list into an element that is none. -/
def startsElement (list : ListContext) (afterError : Bool) : Parser Bool := do
  match list with
  | .sourceElements | .blockStatements | .switchClauseStatements =>
    if afterError && (← isAtPunct .semicolon) then return false else startsStatement
  | .switchClauses => isAtKeyword .caseKw <||> isAtKeyword .defaultKw
  | .typeMembers => startsTypeMember
  | .classMembers =>
    if ← startsClassMember then return true
    if afterError then return false else isAtPunct .semicolon
  | .enumMembers => isAtPunct .openBracket <||> isPropertyName
  | .objectLiteralMembers =>
    match ← kind with
    | .punct .openBracket | .punct .asterisk | .punct .dotDotDot | .punct .dot => return true
    | _ => isPropertyName
  | .objectBindingElements =>
    match ← kind with
    | .punct .openBracket | .punct .dotDotDot => return true
    | _ => isPropertyName
  | .heritageClauseElement =>
    if ← isAtPunct .openBrace then braceIsHeritage
    else if ← (if afterError then isIdentifier else startsLeftHandSide) then
      return !(← startsNextHeritage)
    else return false
  | .variableDeclarations => startsBinding
  | .arrayBindingElements =>
    match ← kind with
    | .punct .comma | .punct .dotDotDot => return true
    | _ => startsBinding
  | .typeParameters => isIdentifier
  | .arrayLiteralMembers =>
    match ← kind with
    | .punct .comma | .punct .dot | .punct .dotDotDot => return true
    | _ => startsExpression
  | .argumentExpressions => isAtPunct .dotDotDot <||> startsExpression
  | .parameters => startsParameter
  | .typeArguments | .tupleElementTypes => isAtPunct .comma <||> startsType
  | .heritageClauses => startsHeritageClause
  | .importOrExportSpecifiers => isName
  | .jsxAttributes => isName <||> isAtPunct .openBrace
  | .jsxChildren => return true

/-- Does the token end a list of declared variables? -/
def endsDeclarations : Parser Bool := do
  if ← canEndStatement then return true
  kindIs fun k => k.isInOrOf || k == .punct .equalsGreaterThan

/-- Does the token end the list? The end of the file ends every list. -/
def endsList (list : ListContext) : Parser Bool := do
  let k ← kind
  if k == .endOfFile then return true
  match list with
  | .blockStatements | .switchClauses | .typeMembers | .classMembers | .enumMembers
  | .objectLiteralMembers | .objectBindingElements | .importOrExportSpecifiers =>
    return k == .punct .closeBrace
  | .switchClauseStatements =>
    return k == .punct .closeBrace || k == .keyword .caseKw || k == .keyword .defaultKw
  | .heritageClauseElement => return k == .punct .openBrace || k.isHeritageWord
  | .variableDeclarations => endsDeclarations
  | .typeParameters =>
    return k == .punct .greaterThan || k == .punct .openParen || k == .punct .openBrace
      || k.isHeritageWord
  | .argumentExpressions => return k == .punct .closeParen || k == .punct .semicolon
  | .arrayLiteralMembers | .tupleElementTypes | .arrayBindingElements =>
    return k == .punct .closeBracket
  | .parameters => return k == .punct .closeParen || k == .punct .closeBracket
  | .typeArguments => return k != .punct .comma
  | .heritageClauses => return k == .punct .openBrace || k == .punct .closeBrace
  | .jsxAttributes => return k == .punct .greaterThan || k == .punct .slash
  | .jsxChildren => return k == .punct .lessThanSlash
  | .sourceElements => return false

def openListTakes : Parser Bool := do
  let opened := (← get).scope.openLists
  ListContext.all.anyM fun list => do
    if opened.contains list then startsElement list true <||> endsList list else return false

/-- Reports a token that the list has no use for. Is the list to end? If not, the token has been
skipped. -/
def giveUp (list : ListContext) : Parser Bool := do
  errorHere list.unexpected []
  if ← openListTakes then return true
  nextToken
  return false

/-! ## 2. Lists -/

/-- One turn of a list without separators, the elements read so far given last one first. -/
def listTurn (list : ListContext) (element : Parser NodeId) (read : List NodeId) :
    Parser (Turn (List NodeId)) := do
  if ← endsList list then return .done read
  if ← startsElement list false then return .again ((← element) :: read)
  if ← giveUp list then return .done read else return .again read

/-- Elements without separators between them. -/
def elements (list : ListContext) (element : Parser NodeId) : Parser NodeArray :=
  inList list do
    let pos ← nodePos
    let nodes ← repeating [] (listTurn list element)
    return { pos, stop := ← nodePos, nodes := nodes.reverse }

/-- What has been read of a list with commas: the elements, the last one first, and whether a
comma came after them. -/
structure Separated where
  read : List NodeId := []
  afterComma : Bool := false

/-- Goes on after an element that no comma follows. Where the element took no token, one is
skipped. -/
def missingComma (start : Nat) (semicolonSeparates : Bool) : Parser Unit := do
  let _ ← expectPunct .comma
  if semicolonSeparates then
    if ← isAtPunct .semicolon then
      if !(← afterLineBreak) then nextToken
  if (← nodePos) == start then nextToken

def separatedTurn (list : ListContext) (element : Parser NodeId) (semicolonSeparates : Bool)
    (sofar : Separated) : Parser (Turn Separated) := do
  if ← startsElement list false then
    let start ← nodePos
    let read := (← element) :: sofar.read
    if ← acceptPunct .comma then return .again ⟨read, true⟩
    if ← endsList list then return .done ⟨read, false⟩
    missingComma start semicolonSeparates
    return .again ⟨read, false⟩
  if ← endsList list then return .done sofar
  if ← giveUp list then return .done sofar else return .again sofar

/-- Elements with commas between them. A missing comma is reported and the list goes on; where
told so, a semicolon may stand in its place. -/
def separatedWith (list : ListContext) (element : Parser NodeId) (semicolonSeparates : Bool) :
    Parser NodeArray :=
  inList list do
    let pos ← nodePos
    let result ← repeating {} (separatedTurn list element semicolonSeparates)
    return { pos, stop := ← nodePos, hasTrailingComma := result.afterComma
             nodes := result.read.reverse }

/-- Elements with commas between them. -/
def separated (list : ListContext) (element : Parser NodeId) : Parser NodeArray :=
  separatedWith list element false

/-- Elements with commas between them, in brackets. -/
def bracketed (list : ListContext) (element : Parser NodeId) (opening closing : Punctuator) :
    Parser NodeArray := do
  if ← expectPunct opening then
    let nodes ← separated list element
    let _ ← expectPunct closing
    return nodes
  else missingList

end Parser

end ScriptSyntax
