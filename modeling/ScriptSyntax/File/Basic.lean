/-
  ScriptSyntax/File/Basic.lean
  ============================
  A parsed file: its tree, and everything that was learned about it on the way.
-/
import ScriptSyntax.Diagnostic.Report
import ScriptSyntax.Directive.Basic
import ScriptSyntax.Documentation.Collect
import ScriptSyntax.Path
import ScriptSyntax.Tree.Shape
import ScriptSyntax.Trivia.Skip

namespace ScriptSyntax

/-! ## 1. Files -/

/-- A parsed file. -/
structure SourceFile where
  /-- The name of the file in normal form. -/
  name : String
  text : SourceText
  scriptKind : ScriptKind
  arena : Arena
  root : NodeId
  names : NameTable
  /-- The number of identifiers read, missing ones included. -/
  identifierCount : Nat
  diagnostics : List Diagnostic
  directives : Directives
  /-- The documentation of the nodes that have any. -/
  docs : List (NodeId × List DocComment)

namespace SourceFile

/-! ## 2. The file -/

/-- Whether tags are part of the syntax. -/
def variant (f : SourceFile) : LanguageVariant := f.scriptKind.variant

def isDeclarationFile (f : SourceFile) : Bool := isDeclarationFileName f.name

def nodeCount (f : SourceFile) : Nat := f.arena.size

def statements (f : SourceFile) : List NodeId :=
  match (f.arena.get? f.root).map Node.payload with
  | some (.sourceFile statements _) => statements.nodes
  | _ => []

def endOfFile? (f : SourceFile) : Option NodeId :=
  match (f.arena.get? f.root).map Node.payload with
  | some (.sourceFile _ endOfFile) => some endOfFile
  | _ => none

def hasErrors (f : SourceFile) : Bool := f.diagnostics.any fun d => d.isError

/-- The distinct names of the file, in the order in which they were first met. -/
def identifiers (f : SourceFile) : List String := f.names.toList.filter fun name => name != ""

def locate (f : SourceFile) (pos : Nat) : LineAndColumn := f.text.lineMap.locate pos

/-- The diagnostics with their places in bytes. -/
def reports (f : SourceFile) : List Report := f.diagnostics.map fun d => d.report f.text

/-- The first thing that is wrong with the shape of the tree. -/
def shapeFault? (f : SourceFile) : Option ShapeFault := f.arena.shapeFault? f.root f.text.length

/-! ## 3. Modules -/

/-- Does a statement make the file a module? All that is exported does, and imports do, unless
they only give a name to something in scope. -/
def makesModule (f : SourceFile) (id : NodeId) : Bool :=
  match f.arena.get? id with
  | none => false
  | some n =>
    (f.arena.modifiersOf n).contains .exported ||
      match n.kind, n.payload with
      | .node .importDeclaration, _ | .node .exportAssignment, _
      | .node .exportDeclaration, _ => true
      | .node .importEqualsDeclaration, .importEquals _ reference =>
        f.arena.kindOf reference == .node .externalModuleReference
      | _, _ => false

/-- The first statement that makes the file a module. -/
def moduleStatement? (f : SourceFile) : Option NodeId := f.statements.find? f.makesModule

def isModule (f : SourceFile) : Bool := f.moduleStatement?.isSome

/-! ## 4. Nodes -/

/-- Where the first token of a node starts; the end of a node without tokens. -/
def tokenStart (f : SourceFile) (n : Node) : Nat := min (tokenStartAt f.text.chars n.pos) n.stop

/-- The source of a node, the trivia before it included. -/
def fullSource (f : SourceFile) (n : Node) : String := f.text.slice n.pos n.stop

/-- The source of a node from its first token on. -/
def source (f : SourceFile) (n : Node) : String :=
  if n.isMissing then "" else f.text.slice (f.tokenStart n) n.stop

def identifierText? (f : SourceFile) (n : Node) : Option String := n.identifier?.map f.names.resolve

/-- The name of a declaration: that of an identifier, the contents of a literal, the source of
anything else. -/
def declarationName? (f : SourceFile) (n : Node) : Option String := do
  let name ← f.arena.get? (← n.name?)
  match name.payload with
  | .identifier _ _ => f.identifierText? name
  | .literal text _ => some text
  | _ => some (f.source name)

def leadingComments (f : SourceFile) (n : Node) : List Comment := Comment.leading f.text.chars n.pos

/-- The documentation of a node, the nearest last. -/
def docsOf (f : SourceFile) (id : NodeId) : List DocComment :=
  ((f.docs.find? fun d => d.1 == id).map Prod.snd).getD []

end SourceFile

end ScriptSyntax
