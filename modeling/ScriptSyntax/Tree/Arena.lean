/-
  ScriptSyntax/Tree/Arena.lean
  ============================
  The nodes of one file, in the order in which they were made.

  A node is made after its children, so in an arena that a parse has filled the
  number of a child is smaller than that of its parent.
-/
import ScriptSyntax.Tree.Fields

namespace ScriptSyntax

/-- The nodes of one file, each at the place of its number. -/
structure Arena where
  nodes : Array Node
  deriving DecidableEq, Repr

namespace Arena

def empty : Arena := ⟨#[]⟩

instance : Inhabited Arena := ⟨empty⟩

def size (a : Arena) : Nat := a.nodes.size

/-- Adds a node at the end. -/
def alloc (a : Arena) (n : Node) : NodeId × Arena := (⟨a.nodes.size⟩, ⟨a.nodes.push n⟩)

def get? (a : Arena) (id : NodeId) : Option Node := a.nodes[id.index]?

/-- Changes the node of a number. -/
def modify (a : Arena) (id : NodeId) (f : Node → Node) : Arena := ⟨a.nodes.modify id.index f⟩

/-- Keeps the first `count` nodes. -/
def truncate (a : Arena) (count : Nat) : Arena := ⟨a.nodes.shrink count⟩

/-- Every number of the arena, in order. -/
def ids (a : Arena) : List NodeId := (List.range a.size).map NodeId.mk

/-- The kind of a node; a number without a node has no known kind. -/
def kindOf (a : Arena) (id : NodeId) : Kind := ((a.get? id).map Node.kind).getD .unknown

/-- The children of a node in the order of the source. -/
def children (a : Arena) (id : NodeId) : List NodeId := ((a.get? id).map Node.children).getD []

/-- The parent of a node, where it has been recorded. -/
def parent? (a : Arena) (id : NodeId) : Option NodeId := a.get? id >>= Node.parent

/-- The modifiers of a node, in the order of the source. -/
def modifiersOf (a : Arena) (n : Node) : List Modifier :=
  match n.modifiers with
  | none => []
  | some list => list.nodes.filterMap fun id => Modifier.ofKind? (a.kindOf id)

end Arena

end ScriptSyntax
