/-
  ScriptSyntax/Documentation/Collect.lean
  =======================================
  The documentation of the nodes of a file: the documentation comments in the
  trivia before them.
-/
import ScriptSyntax.Documentation.Comment
import ScriptSyntax.Tree.Arena
import ScriptSyntax.Trivia.Comment

namespace ScriptSyntax

/-! ## 1. What is documented, and by what -/

namespace Kind

def isDocumented : Kind → Bool
  | .node .parameter | .node .typeParameter | .node .functionDeclaration
  | .node .functionExpression | .node .arrowFunction | .node .classDeclaration
  | .node .classExpression | .node .interfaceDeclaration | .node .typeAliasDeclaration
  | .node .enumDeclaration | .node .enumMember | .node .moduleDeclaration
  | .node .variableStatement | .node .expressionStatement | .node .labeledStatement
  | .node .propertyDeclaration | .node .propertySignature | .node .propertyAssignment
  | .node .shorthandPropertyAssignment | .node .methodDeclaration | .node .methodSignature
  | .node .constructorDecl | .node .getAccessor | .node .setAccessor | .node .callSignature
  | .node .constructSignature | .node .indexSignature | .node .importEqualsDeclaration
  | .node .exportAssignment | .node .exportDeclaration => true
  | _ => false

/-- Kinds of node whose documentation may also stand on the line of the token before. -/
def isDocumentedInline : Kind → Bool
  | .node .parameter | .node .typeParameter | .node .functionExpression
  | .node .arrowFunction => true
  | _ => false

end Kind

/-- Does the comment document something? It opens with two asterisks, and is not the empty comment
whose one asterisk serves twice. -/
def Comment.isDocumentation (c : Comment) (text : Array Char) : Bool :=
  c.kind == .multiLineComment && text[c.pos + 2]? == some '*' && text[c.pos + 3]? != some '/'

/-! ## 2. Collecting -/

/-- The comments that may document a node: those in the trivia before it. -/
def Node.docCandidates (n : Node) (text : Array Char) : List Comment :=
  (if n.kind.isDocumentedInline then Comment.trailing text n.pos else [])
    ++ Comment.leading text n.pos

/-- The documentation of a node. A comment that reaches beyond the node is none. -/
def Node.docs (n : Node) (text : Array Char) : List DocComment :=
  if n.kind.isDocumented && n.pos != n.stop then
    ((n.docCandidates text).filter fun c => c.stop ≤ n.stop && c.isDocumentation text).map fun c =>
      DocComment.parse (c.source text) c.pos c.stop
  else []

/-- The documentation of all nodes that have any, in the order of their numbers. -/
def Arena.docs (a : Arena) (text : Array Char) : List (NodeId × List DocComment) :=
  a.ids.filterMap fun id => do
    let docs := (← a.get? id).docs text
    if docs.isEmpty then none else some (id, docs)

end ScriptSyntax
