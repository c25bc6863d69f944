/-
  ScriptSyntax/Tree/Shape.lean
  ============================
  The shape that the tree of a text has: the root covers the text, children lie
  inside their parent, one after the other, were made before it and know it.
-/
import ScriptSyntax.Kind.Spelling
import ScriptSyntax.Tree.Walk

namespace ScriptSyntax

/-! ## 1. Faults -/

/-- A node as a fault names it. -/
structure NodeLabel where
  kind : Kind
  id : NodeId
  deriving DecidableEq, Repr

def NodeLabel.describe (l : NodeLabel) : String := l.kind.name ++ " " ++ l.id.describe

/-- What can be wrong with the shape of a tree. -/
inductive ShapeFault where
  | rootSpan (range : Range) (length : Nat)
  | backwards (node : NodeLabel) (range : Range)
  | youngChild (child : NodeLabel) (parent : NodeId)
  | misplaced (child : NodeLabel) (childRange : Range) (parent : NodeLabel) (range : Range)
  | wrongParent (child : NodeLabel) (found : Option NodeId) (expected : NodeId)
  deriving DecidableEq, Repr

namespace ShapeFault

/-- A parent that was found, in full. -/
def describeParent : Option NodeId → String
  | none => "None"
  | some p => "Some(NodeId(" ++ toString p.index ++ "))"

def describe : ShapeFault → String
  | rootSpan range length =>
    "root spans " ++ range.describe ++ ", text is " ++ toString length ++ " long"
  | backwards node range =>
    node.describe ++ " has pos " ++ toString range.pos ++ " > end " ++ toString range.stop
  | youngChild child parent =>
    child.describe ++ " was allocated after its parent " ++ parent.describe
  | misplaced child childRange parent range =>
    child.describe ++ " at " ++ childRange.describe ++ " is outside or before its sibling in "
      ++ parent.describe ++ " at " ++ range.describe
  | wrongParent child found expected =>
    child.describe ++ " has parent " ++ describeParent found ++ ", expected "
      ++ expected.describe

end ShapeFault

/-! ## 2. Finding them -/

namespace Arena

/-- The first fault among children of a node, where the one before them ends at `previous`. -/
def childFault? (a : Arena) (id : NodeId) (n : Node) : Nat → List NodeId → Option ShapeFault
  | _, [] => none
  | previous, c :: rest =>
    match a.get? c with
    | none => some (.youngChild ⟨.unknown, c⟩ id)
    | some child =>
      let label : NodeLabel := ⟨child.kind, c⟩
      if id.index ≤ c.index then some (.youngChild label id)
      else if child.pos < previous || n.stop < child.stop then
        some (.misplaced label child.range ⟨n.kind, id⟩ n.range)
      else if child.parent != some id then some (.wrongParent label child.parent id)
      else childFault? a id n child.stop rest

/-- The first fault of a node: its own range, then its children in order. -/
def nodeFault? (a : Arena) (id : NodeId) : Option ShapeFault := do
  let n ← a.get? id
  if n.stop < n.pos then some (.backwards ⟨n.kind, id⟩ n.range)
  else a.childFault? id n n.pos n.children

/-- The first fault of the tree below a root that is to cover a text of the given length. -/
def shapeFault? (a : Arena) (root : NodeId) (length : Nat) : Option ShapeFault := do
  let n ← a.get? root
  if n.pos ≠ 0 ∨ n.stop ≠ length then some (.rootSpan n.range length)
  else (root :: a.descendants root).findSome? a.nodeFault?

end Arena

end ScriptSyntax
