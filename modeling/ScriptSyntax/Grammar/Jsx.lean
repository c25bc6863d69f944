/-
  ScriptSyntax/Grammar/Jsx.lean
  =============================
  JSX: elements, fragments, attributes and what stands between tags.

  Between tags white space is text, so after a tag that opens an element, and
  after each child, the next token is read as one between tags.  After a tag
  that ends a whole expression it is read as any other.
-/
import ScriptSyntax.Grammar.Names
import ScriptSyntax.Grammar.Lists

namespace ScriptSyntax

/-! ## 1. Names of tags -/

/-- Are two names of tags the same: the same identifier, the same members of the same name, or
`this` twice? Nothing where a number has no node, or an object or a member is no older than what
it is part of. -/
def Arena.sameTagName? (a : Arena) (left right : NodeId) : Option Bool :=
  match a.get? left, a.get? right with
  | some l, some r =>
    if l.kind != r.kind then some false
    else
      match l.payload, r.payload with
      | .identifier x _, .identifier y _ => some (x == y)
      | .propertyAccess leftObject _ leftName, .propertyAccess rightObject _ rightName =>
        if leftName.index < left.index ∧ leftObject.index < left.index then
          match a.sameTagName? leftName rightName with
          | some true => a.sameTagName? leftObject rightObject
          | answer => answer
        else none
      | _, _ => some (l.kind == .keyword .thisKw)
  | _, _ => none
termination_by left.index

namespace Parser

/-- The name of a tag; what is no tag is its own name. -/
def tagName (tag : NodeId) : Parser NodeId := do
  match (← node tag).payload with
  | .jsxTag name _ => return name
  | _ => return tag

def tokenStart (id : NodeId) : Parser Nat := do
  return tokenStartAt (← read).file.text (← node id).pos

/-- The source of a node without the trivia before it. -/
def sourceOf (id : NodeId) : Parser String := do
  return sliceOf (← read).file.text (← tokenStart id) (← node id).stop

/-- One more member of a name that is read so far, if a dot follows. -/
def jsxMember (pos : Nat) (object : NodeId) : Parser (Turn NodeId) := do
  if ← acceptPunct .dot then
    let member ← nameAfterDot true
    return .again
      (← finishProduction .propertyAccessExpression pos (.propertyAccess object none member))
  else return .done object

/-- The name of a tag: a name that may have hyphens, or `this`, and the names of members. -/
def jsxName : Parser NodeId := do
  let pos ← nodePos
  advance .extendJsxName
  let first ← do
    if ← isAtKeyword .thisKw then tokenNode else name
  repeating first (jsxMember pos)

/-! ## 2. Expressions in braces -/

/-- An expression in braces, which may be left out; nothing where the opening brace is missing. -/
def jsxExpression (inTag : Bool) : Parser (Option NodeId) := do
  let pos ← nodePos
  if ← expectPunct .openBrace then
    let (dots, inner) ←
      if ← isAtPunct .closeBrace then pure (none, none)
      else do
        let dots ← acceptToken (.punct .dotDotDot)
        pure (dots, some (← parse .expression))
    if inTag then
      let _ ← expectPunct .closeBrace
    else if ← require (.punct .closeBrace) none then advance .scanJsx
    return some (← finishProduction .jsxExpression pos (.jsxExpression dots inner))
  else return none

/-! ## 3. Attributes -/

/-- Attributes taken from an object. -/
def jsxSpreadAttribute : Parser NodeId := do
  let pos ← nodePos
  let _ ← expectPunct .openBrace
  let _ ← expectPunct .dotDotDot
  let inner ← parse .expression
  let _ ← expectPunct .closeBrace
  finishProduction .jsxSpreadAttribute pos (.expression inner)

/-- The value of an attribute, after the equals sign: a string or an expression in braces. -/
def jsxAttributeValue : Parser (Option NodeId) := do
  advance .scanJsxAttributeValue
  match ← kind with
  | .literal .string => return some (← literalNode)
  | _ => jsxExpression true

def jsxAttribute : Parser NodeId := do
  if ← isAtPunct .openBrace then jsxSpreadAttribute
  else
    let pos ← nodePos
    advance .extendJsxName
    let name ← name
    let initializer ← do
      if ← isAtPunct .equals then jsxAttributeValue else pure none
    finishProduction .jsxAttribute pos (.jsxAttribute name initializer)

def jsxAttributes : Parser NodeId := do
  let pos ← nodePos
  let properties ← elements .jsxAttributes jsxAttribute
  finishProduction .jsxAttributes pos (.jsxAttributes properties)

/-! ## 4. Tags -/

def jsxTagEnd (inExpression : Bool) : Parser Unit := do
  if inExpression then
    let _ ← expectPunct .greaterThan
  else
    let _ ← require (.punct .greaterThan) none
    advance .scanJsx

/-- A tag that opens an element or a fragment, or one that is an element by itself. -/
def jsxOpening (inExpression : Bool) : Parser NodeId := do
  let pos ← nodePos
  let _ ← expectPunct .lessThan
  if ← isAtPunct .greaterThan then
    advance .scanJsx
    finishProduction .jsxOpeningFragment pos .token
  else
    let name ← jsxName
    let attributes ← jsxAttributes
    if ← isAtPunct .greaterThan then
      advance .scanJsx
      finishProduction .jsxOpeningElement pos (.jsxTag name (some attributes))
    else
      let _ ← expectPunct .slash
      jsxTagEnd inExpression
      finishProduction .jsxSelfClosingElement pos (.jsxTag name (some attributes))

def jsxClosing (inExpression : Bool) : Parser NodeId := do
  let pos ← nodePos
  let _ ← expectPunct .lessThanSlash
  let name ← jsxName
  jsxTagEnd inExpression
  finishProduction .jsxClosingElement pos (.jsxTag name none)

/-- The tag that closes a fragment. A name in it is reported. -/
def jsxClosingFragment (inExpression : Bool) : Parser NodeId := do
  let pos ← nodePos
  let _ ← expectPunct .lessThanSlash
  if ← isName then
    let name ← node (← jsxName)
    errorAtRange name.pos name.stop .jsxFragmentClosingTagMismatch []
  jsxTagEnd inExpression
  finishProduction .jsxClosingFragment pos .token

/-! ## 5. Children -/

def jsxText : Parser NodeId := do
  let t ← token
  advance .scanJsx
  finishNode t.kind t.fullStart (.literal t.value t.flags)

/-- Reports that the file ends before the element or fragment does. -/
def unclosedJsx (opening : NodeId) : Parser Unit := do
  if (← kindOf opening) == .node .jsxOpeningFragment then
    let tag ← node opening
    errorAtRange tag.pos tag.stop .jsxFragmentUnclosed []
  else
    let name ← tagName opening
    errorAtRange (← tokenStart name) (← node name).stop .jsxElementUnclosed [← sourceOf name]

/-- A child, or nothing where the children end. -/
def jsxChild (opening : NodeId) : Parser (Option NodeId) := do
  advance .rescanJsx
  match ← kind with
  | .endOfFile =>
    unclosedJsx opening
    return none
  | .punct .lessThanSlash | .trivia .conflictMarker => return none
  | .literal .jsxText | .literal .jsxTextAllWhiteSpaces => return some (← jsxText)
  | .punct .openBrace => jsxExpression false
  | .punct .lessThan =>
    return some (← nested .expressionExpected (parse (.jsxElement false))).1
  | k =>
    fail (.unexpectedJsxChild k)
    return none

def jsxChildren (opening : NodeId) : Parser NodeArray :=
  inList .jsxChildren do
    let pos ← nodePos
    let nodes ← repeating [] fun read => do
      match ← jsxChild opening with
      | some child => return .again (child :: read)
      | none => return .done read
    return { pos, stop := ← nodePos, nodes := nodes.reverse }

/-! ## 6. Elements -/

/-- Reports a closing tag whose name is not that of the opening tag. -/
def checkTagNames (opening closing : NodeId) : Parser Unit := do
  let openingName ← tagName opening
  let closingName ← tagName closing
  match (← get).arena.sameTagName? openingName closingName with
  | none => fail (.noSuchNode openingName)
  | some true => return
  | some false =>
    let tag ← node closing
    errorAtRange tag.pos tag.stop .jsxClosingTagMismatch [← sourceOf openingName]

/-- An element, after its opening tag. -/
def jsxElementRest (pos : Nat) (opening : NodeId) (inExpression : Bool) : Parser NodeId := do
  let children ← jsxChildren opening
  let closing ← jsxClosing inExpression
  checkTagNames opening closing
  finishProduction .jsxElement pos (.jsxElement opening children closing)

/-- A fragment, after its opening tag. -/
def jsxFragmentRest (pos : Nat) (opening : NodeId) (inExpression : Bool) : Parser NodeId := do
  let children ← jsxChildren opening
  let closing ← jsxClosingFragment inExpression
  finishProduction .jsxFragment pos (.jsxFragment opening children closing)

/-- Joins an element and one right after it, which needs a parent: both become operands of a comma
that is missing. -/
def joinJsxSiblings (first second : NodeId) : Parser NodeId := do
  errorHere .jsxSiblingsWithoutParent []
  let left ← node first
  let right ← node second
  let comma ← finishAt {
    kind := .punct .comma, pos := right.pos, stop := right.pos, payload := .token }
  finishAt {
    kind := .node .binaryExpression, pos := left.pos, stop := right.stop
    payload := .binary first comma second }

/-- An element one level deeper, unless that is too deep. -/
def nestedJsxElement : Parser (Option NodeId) := do
  let (id, parsed) ← nested .expressionExpected (parse (.jsxElement true))
  return if parsed then some id else none

/-- An element that follows another in an expression, if there is one. -/
def jsxSibling : Parser (Option NodeId) := attempt nestedJsxElement

/-- An element or a fragment, with what follows it where it is an expression by itself. -/
def jsxElement (inExpression : Bool) : Parser NodeId := do
  let pos ← nodePos
  let opening ← jsxOpening inExpression
  let result ←
    match ← kindOf opening with
    | .node .jsxOpeningElement => jsxElementRest pos opening inExpression
    | .node .jsxOpeningFragment => jsxFragmentRest pos opening inExpression
    | _ => pure opening
  if inExpression then
    if ← isAtPunct .lessThan then
      match ← jsxSibling with
      | some sibling => return ← joinJsxSiblings result sibling
      | none => return result
  return result

end Parser

end ScriptSyntax
