/-
  ScriptSyntax/Tree/Walk.lean
  ===========================
  Walks through a tree: down from a node, in the order of the source, and up
  from a node to the root.

  A walk down goes from a node to older nodes only, and a walk up to younger
  ones.  In the arena of a parse that is no restriction, and it is why a walk
  comes to an end in any arena.
-/
import ScriptSyntax.Tree.Arena

namespace ScriptSyntax

namespace Arena

/-! ## 1. Down, one call per node -/

/-- The children of a node that are older than it. -/
def olderChildren (a : Arena) (id : NodeId) : List NodeId :=
  (a.children id).filter fun c => c.index < id.index

theorem index_lt_of_mem_olderChildren {a : Arena} {id c : NodeId} (h : c ∈ a.olderChildren id) :
    c.index < id.index := by
  simpa using (List.mem_filter.mp h).2

/-- Visits a node and then, where `enter` allows it, the nodes below it. -/
def visit (a : Arena) (enter : NodeId → Bool) (id : NodeId) : List NodeId :=
  id ::
    if enter id then (a.olderChildren id).attach.flatMap fun c => visit a enter c.1 else []
termination_by id.index
decreasing_by exact index_lt_of_mem_olderChildren c.2

/-- All numbers of a list together. -/
def total : List Nat → Nat
  | [] => 0
  | n :: ns => n + total ns

/-- The numbers of two lists come together to what each comes to. -/
theorem total_append (ms ns : List Nat) : total (ms ++ ns) = total ms + total ns := by
  induction ms with
  | nil => simp [total]
  | cons m ms ih => simp [total, ih, Nat.add_assoc]

/-- The number of visits that a full walk from a node makes. -/
def visits (a : Arena) (id : NodeId) : Nat :=
  1 + total ((a.olderChildren id).attach.map fun c => visits a c.1)
termination_by id.index
decreasing_by exact index_lt_of_mem_olderChildren c.2

/-- A walk visits the node and all that is below its children. -/
theorem visits_eq (a : Arena) (id : NodeId) :
    a.visits id = 1 + total ((a.olderChildren id).map a.visits) := by
  have h : (a.olderChildren id).attach.map (a.visits ∘ Subtype.val)
      = (a.olderChildren id).map a.visits := by
    rw [← List.map_map, List.attach_map_subtype_val]
  rw [visits]
  exact congrArg (fun l => 1 + total l) h

/-! ## 2. Down, by a list of nodes still to visit -/

/-- Visits the first node of the list, puts its children in its place, and goes on until `stop`
holds of a visited node or no node is left. The nodes visited are given in order. -/
def walkUntil (a : Arena) (stop : NodeId → Bool) (pending : List NodeId) : List NodeId :=
  match pending with
  | [] => []
  | id :: rest => if stop id then [id] else id :: walkUntil a stop (a.olderChildren id ++ rest)
termination_by total (pending.map a.visits)
decreasing_by
  rw [List.map_append, total_append, List.map_cons, total, visits_eq a id]
  omega

/-- The nodes below a node, in the order of the source. -/
def descendants (a : Arena) (id : NodeId) : List NodeId :=
  a.walkUntil (fun _ => false) (a.olderChildren id)

/-- The nodes of a kind below a node. -/
def descendantsOfKind (a : Arena) (id : NodeId) (kind : Kind) : List NodeId :=
  (a.descendants id).filter fun d => a.kindOf d == kind

/-- The first node below a node that satisfies `p`. -/
def findDescendant? (a : Arena) (id : NodeId) (p : NodeId → Bool) : Option NodeId :=
  (a.walkUntil p (a.olderChildren id)).getLast?.filter p

/-- Does the node itself carry the mark of an error? -/
def hasError (a : Arena) (id : NodeId) : Bool := (a.get? id).any fun n => n.flags.hasError

/-- Does the node, or a node below it, carry the mark of an error? -/
def containsError (a : Arena) (id : NodeId) : Bool :=
  a.hasError id || (a.findDescendant? id a.hasError).isSome

/-! ## 3. Up -/

/-- The parent of a node, its parent, and so on. -/
def ancestors (a : Arena) (id : NodeId) : List NodeId :=
  match a.parent? id with
  | none => []
  | some p => if id.index < p.index ∧ p.index < a.size then p :: ancestors a p else [p]
termination_by a.size - id.index

/-- The nearest of the nodes above a node that satisfies `p`. -/
def findAncestor? (a : Arena) (id : NodeId) (p : NodeId → Bool) : Option NodeId :=
  (a.ancestors id).find? p

/-! ## 4. Parents -/

def setParent (a : Arena) (parent : Option NodeId) (id : NodeId) : Arena :=
  a.modify id fun n => { n with parent }

/-- Records a node as the parent of its children. -/
def adoptChildren (a : Arena) (id : NodeId) : Arena :=
  (a.children id).foldl (fun a c => a.setParent (some id) c) a

theorem get?_setParent (a : Arena) (parent : Option NodeId) (id d : NodeId) :
    (a.setParent parent id).get? d
      = (a.get? d).map fun n => if id.index = d.index then { n with parent } else n := by
  show (a.nodes.modify id.index _)[d.index]? = (a.nodes[d.index]?).map _
  rw [Array.getElem?_modify]
  split
  · rfl
  · simp

theorem olderChildren_setParent (a : Arena) (parent : Option NodeId) (d id : NodeId) :
    (a.setParent parent d).olderChildren id = a.olderChildren id := by
  unfold olderChildren children
  rw [get?_setParent, Option.map_map]
  refine congrArg (fun g => (((a.get? id).map g).getD []).filter _) (funext fun n => ?_)
  by_cases h : d.index = id.index
  · rw [Function.comp, if_pos h]
    rfl
  · rw [Function.comp, if_neg h]

theorem olderChildren_adoptChildren (a : Arena) (p id : NodeId) :
    (a.adoptChildren p).olderChildren id = a.olderChildren id := by
  unfold adoptChildren
  generalize a.children p = cs
  induction cs generalizing a with
  | nil => rfl
  | cons c cs ih => rw [List.foldl_cons, ih, olderChildren_setParent]

/-- How long a walk is, the children alone decide. -/
theorem visits_congr {a b : Arena} (h : ∀ id, b.olderChildren id = a.olderChildren id)
    (id : NodeId) : b.visits id = a.visits id := by
  induction hindex : id.index using Nat.strongRecOn generalizing id with
  | ind index ih =>
    subst hindex
    have hchildren : (a.olderChildren id).map b.visits = (a.olderChildren id).map a.visits :=
      List.map_congr_left fun c hc => ih c.index (index_lt_of_mem_olderChildren hc) c rfl
    rw [visits_eq, visits_eq, h, hchildren]

/-- Records the first node of the list as the parent of its children, puts these in its place, and goes
on until no node is left. -/
def linkPending (a : Arena) (pending : List NodeId) : Arena :=
  match pending with
  | [] => a
  | id :: rest => linkPending (a.adoptChildren id) (a.olderChildren id ++ rest)
termination_by total (pending.map a.visits)
decreasing_by
  rw [List.map_congr_left fun d _ => visits_congr (olderChildren_adoptChildren a id) d,
    List.map_append, total_append, List.map_cons, total, visits_eq a id]
  omega

/-- Records the parent of every node below a node, which itself becomes a root. -/
def linkParents (a : Arena) (id : NodeId) : Arena := (a.setParent none id).linkPending [id]

end Arena

end ScriptSyntax
