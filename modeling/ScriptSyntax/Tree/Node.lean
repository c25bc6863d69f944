/-
  ScriptSyntax/Tree/Node.lean
  ===========================
  Nodes of the syntax tree.

  A node says what it is by its kind and keeps what it is made of in its
  payload.  Kinds that are made of the same things share a payload.  Nodes refer
  to each other by number; the numbers are places in an arena.
-/
import ScriptSyntax.Flags
import ScriptSyntax.Kind.Class
import ScriptSyntax.Text.NameTable
import ScriptSyntax.Text.Span

namespace ScriptSyntax

/-! ## 1. References -/

/-- The number of a node in its arena. -/
structure NodeId where
  index : Nat
  deriving DecidableEq, Repr, Inhabited

def NodeId.describe (id : NodeId) : String := "#" ++ toString id.index

/-- A list of nodes with a range of its own, delimiters excluded. -/
structure NodeArray where
  pos : Nat
  stop : Nat
  hasTrailingComma : Bool := false
  nodes : List NodeId
  deriving DecidableEq, Repr, Inhabited

namespace NodeArray

/-- The list without nodes at a position. -/
def empty (pos : Nat) : NodeArray := { pos, stop := pos, nodes := [] }

def length (a : NodeArray) : Nat := a.nodes.length

def isEmpty (a : NodeArray) : Bool := a.nodes.isEmpty

end NodeArray

/-! ## 2. Shared shapes -/

/-- What functions, arrows, methods, constructors and accessors are made of. -/
structure FunctionShape where
  asterisk : Option NodeId := none
  name : Option NodeId := none
  questionMark : Option NodeId := none
  typeParameters : Option NodeArray := none
  parameters : NodeArray
  type : Option NodeId := none
  arrow : Option NodeId := none
  body : Option NodeId := none
  deriving DecidableEq, Repr

/-- What signatures and the types of functions are made of. -/
structure SignatureShape where
  typeParameters : Option NodeArray := none
  parameters : NodeArray
  type : Option NodeId := none
  deriving DecidableEq, Repr

/-- What parameters, variables, properties, bound elements and enum members are made of. -/
structure VariableShape where
  propertyName : Option NodeId := none
  dots : Option NodeId := none
  name : NodeId
  questionMark : Option NodeId := none
  equalsSign : Option NodeId := none
  type : Option NodeId := none
  initializer : Option NodeId := none
  deriving DecidableEq, Repr

/-- What classes and interfaces are made of. -/
structure ClassShape where
  name : Option NodeId := none
  typeParameters : Option NodeArray := none
  heritage : Option NodeArray := none
  members : NodeArray
  deriving DecidableEq, Repr

/-! ## 3. Payloads -/

/-- What a node is made of, in the order of the source. -/
inductive Payload where
  /-- Nothing but the kind: keywords, punctuation, `this`, an empty statement. -/
  | token
  /-- A name, and the keyword that is spelled the same. -/
  | identifier (name : NameId) (keyword : Option Keyword)
  /-- A literal with its escapes resolved, a piece of a template, or JSX text. -/
  | literal (text : String) (flags : TokenFlags)
  | qualifiedName (left right : NodeId)
  | typeParameter (name : NodeId) (constraint default : Option NodeId)
  | functionLike (shape : FunctionShape)
  | signature (shape : SignatureShape)
  | variableLike (shape : VariableShape)
  | classLike (shape : ClassShape)
  /-- A single expression. -/
  | expression (inner : NodeId)
  | typePredicate (parameter type : NodeId)
  | typeReference (name : NodeId) (arguments : Option NodeArray)
  | typeQuery (name : NodeId)
  | members (members : NodeArray)
  | arrayType (element : NodeId)
  | typeList (types : NodeArray)
  | conditionalType (check bound whenTrue whenFalse : NodeId)
  | inferType (parameter : NodeId)
  | parenthesizedType (type : NodeId)
  | typeOperator (operator : Kind) (type : NodeId)
  | indexedAccessType (object index : NodeId)
  | mappedType (readonlyWord : Option NodeId) (parameter : NodeId)
      (questionMark type : Option NodeId)
  | literalType (literal : NodeId)
  | elements (elements : NodeArray) (multiLine : Bool)
  | objectLiteral (properties : NodeArray) (multiLine : Bool)
  | propertyAccess (object : NodeId) (questionDot : Option NodeId) (name : NodeId)
  | elementAccess (object : NodeId) (questionDot : Option NodeId) (index : NodeId)
  | call (callee : NodeId) (questionDot : Option NodeId)
      (typeArguments arguments : Option NodeArray)
  | taggedTemplate (tag template : NodeId)
  | typeAssertion (type inner : NodeId)
  | unary (operator : Kind) (operand : NodeId)
  | binary (left operator right : NodeId)
  | conditional (condition questionMark whenTrue colon whenFalse : NodeId)
  | template (head : NodeId) (spans : NodeArray)
  | templateSpan (inner literal : NodeId)
  | yieldExpression (asterisk inner : Option NodeId)
  | withTypeArguments (inner : NodeId) (typeArguments : Option NodeArray)
  | asExpression (inner type : NodeId)
  | metaProperty (keyword : Kind) (name : NodeId)
  | block (statements : NodeArray) (multiLine : Bool)
  | variableStatement (declarations : NodeId)
  | ifStatement (condition whenTrue : NodeId) (whenFalse : Option NodeId)
  | doStatement (body condition : NodeId)
  | whileStatement (condition body : NodeId)
  | forStatement (initializer condition increment : Option NodeId) (body : NodeId)
  | forInOf (awaitWord : Option NodeId) (initializer source body : NodeId)
  | jump (label : Option NodeId)
  | returnStatement (value : Option NodeId)
  | switchStatement (subject cases : NodeId)
  | labeled (label statement : NodeId)
  | tryStatement (block : NodeId) (handler finalizer : Option NodeId)
  | declarationList (declarations : NodeArray)
  | typeAlias (name : NodeId) (typeParameters : Option NodeArray) (type : NodeId)
  | enumeration (name : NodeId) (members : NodeArray)
  | moduleDeclaration (name : NodeId) (body : Option NodeId)
  | caseBlock (clauses : NodeArray)
  | namespaceExport (name : NodeId)
  | importEquals (name reference : NodeId)
  | importDeclaration (clause : Option NodeId) (source : NodeId)
  | importClause (name bindings : Option NodeId)
  | namespaceImport (name : NodeId)
  | namedBindings (elements : NodeArray)
  | specifier (propertyName : Option NodeId) (name : NodeId)
  | exportAssignment (isEquals : Bool) (inner : NodeId)
  | exportDeclaration (clause source : Option NodeId)
  | jsxElement (opening : NodeId) (children : NodeArray) (closing : NodeId)
  | jsxTag (name : NodeId) (attributes : Option NodeId)
  | jsxFragment (opening : NodeId) (children : NodeArray) (closing : NodeId)
  | jsxAttribute (name : NodeId) (initializer : Option NodeId)
  | jsxAttributes (properties : NodeArray)
  | jsxExpression (dots inner : Option NodeId)
  | caseClause (guard : Option NodeId) (statements : NodeArray)
  | heritageClause (keyword : Kind) (types : NodeArray)
  | catchClause (binding : Option NodeId) (block : NodeId)
  | sourceFile (statements : NodeArray) (endOfFile : NodeId)
  deriving DecidableEq, Repr

/-! ## 4. Nodes -/

/-- A node. `pos` is the end of the token before it, so the trivia before a node belongs to it. -/
structure Node where
  kind : Kind
  pos : Nat
  stop : Nat
  flags : NodeFlags := {}
  parent : Option NodeId := none
  decorators : Option NodeArray := none
  modifiers : Option NodeArray := none
  payload : Payload
  deriving DecidableEq, Repr

namespace Node

/-- The range of the node, the trivia before it included. -/
def range (n : Node) : Range := ⟨n.pos, n.stop⟩

/-- Does the node stand for something that the source lacks? Only the end of the file is empty by
right. -/
def isMissing (n : Node) : Bool := n.pos == n.stop && n.kind != .endOfFile

/-- The name that the node declares or selects, if it has one. -/
def name? (n : Node) : Option NodeId :=
  match n.payload with
  | .functionLike f => f.name
  | .variableLike v => some v.name
  | .classLike c => c.name
  | .importClause name _ => name
  | .typeParameter name _ _ | .typeAlias name _ _ | .enumeration name _ | .moduleDeclaration name _
  | .importEquals name _ | .namespaceImport name | .namespaceExport name | .specifier _ name
  | .jsxAttribute name _ | .propertyAccess _ _ name => some name
  | _ => none

def identifier? (n : Node) : Option NameId :=
  match n.payload with
  | .identifier name _ => some name
  | _ => none

def literal? (n : Node) : Option String :=
  match n.payload with
  | .literal text _ => some text
  | _ => none

end Node

end ScriptSyntax
