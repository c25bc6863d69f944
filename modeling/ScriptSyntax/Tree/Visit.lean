/-
  ScriptSyntax/Tree/Visit.lean
  ============================
  Walks through a tree that call something for what they meet.

  What is called may keep a state and may give an answer, and the first answer
  ends the walk.  A visitor says of each node that it sees whether to go on below.
-/
import ScriptSyntax.Tree.Walk

namespace ScriptSyntax

/-- Notes what is to be kept, and has no answer. -/
def noteIf {α β : Type} (keep : α → Bool) (x : α) : StateM (List α) (Option β) := do
  if keep x then modify (· ++ [x])
  return none

namespace Arena

variable {m : Type → Type} [Monad m] {α : Type}

/-! ## 1. The children of a node -/

/-- The parts of a node in the order of the source. -/
def parts (a : Arena) (id : NodeId) : List Part := ((a.get? id).map Node.parts).getD []

/-- Hands out the parts of a node in order, lists of children as a whole, up to the first answer. -/
def forEachPart (a : Arena) (id : NodeId) (onNode : NodeId → m (Option α))
    (onArray : NodeArray → m (Option α)) : m (Option α) :=
  (a.parts id).findSomeM? fun
    | .node c => onNode c
    | .array list => onArray list

/-- Hands out the children of a node in order, up to the first answer. -/
def forEachChild (a : Arena) (id : NodeId) (f : NodeId → m (Option α)) : m (Option α) :=
  a.forEachPart id f fun list => list.nodes.findSomeM? f

/-! ## 2. All nodes below a node -/

/-- Hands out the first node of the list, puts its children in its place, and goes on up to the first
answer, or until no node is left. -/
def visitPending (a : Arena) (f : NodeId → m (Option α)) (pending : List NodeId) : m (Option α) :=
  match pending with
  | [] => return none
  | id :: rest => do
    match ← f id with
    | some answer => return some answer
    | none => visitPending a f (a.olderChildren id ++ rest)
termination_by total (pending.map a.visits)
decreasing_by
  rw [List.map_append, total_append, List.map_cons, total, visits_eq a id]
  omega

/-- Hands out the nodes below a node, in the order of the source, up to the first answer. -/
def visitDescendants (a : Arena) (id : NodeId) (f : NodeId → m (Option α)) : m (Option α) :=
  a.visitPending f (a.olderChildren id)

/-- The first node below a node of which the predicate holds. -/
def searchDescendants (a : Arena) (id : NodeId) (p : NodeId → m Bool) : m (Option NodeId) :=
  a.visitDescendants id fun d => do
    if ← p d then return some d else return none

/-- Shows a node to a visitor, and then, if the visitor says so, its children in the same way. -/
def tour (a : Arena) (see : NodeId → m Bool) (id : NodeId) : m Unit := do
  if ← see id then
    let _ ← a.forEachChild id fun c => do
      if _ : c.index < id.index then tour a see c
      return (none : Option Unit)
termination_by id.index

end Arena

end ScriptSyntax
