/-
  ScriptSyntax/Proofs/Tree/Falls.lean
  ===================================
  How often a path down a tree falls.

  A step from a node to a child falls where the child starts after the node.  A
  chain that is built by a loop has its left part where it starts itself, so the
  way along the chain does not fall, and only what is nested in it does.  Some
  steps are unguarded: there a production is read that may read itself again
  without the depth of nesting being checked.
-/
import Mathlib.Tactic.Choose
import ScriptSyntax.Proofs.Tree.Walk

namespace ScriptSyntax

/-- The number of falls that one level of nesting has room for. -/
@[reducible]
def fallsPerLevel : Nat := 30

/-- Whether the step to a child falls, as a number. -/
def Node.fallsTo (n m : Node) : Nat := if n.pos < m.pos then 1 else 0

theorem Node.fallsTo_le_one (n m : Node) : n.fallsTo m ≤ 1 := by
  unfold fallsTo
  split <;> omega

theorem Node.fallsTo_eq_zero {n m : Node} (h : m.pos ≤ n.pos) : n.fallsTo m = 0 :=
  if_neg (Nat.not_lt_of_le h)

namespace Arena

/-! ## 1. Paths -/

/-- The children that are read without the depth of nesting being checked, although they may be of the
same kind as the node: operands of the operators in front of them, the right operand of a power, the
callee after `new`, an inner pattern, the inner part of a dotted namespace, what is inherited, and the
expression of a decorator. -/
def unguarded (a : Arena) (n : Node) : List NodeId :=
  match n.kind, n.payload with
  | .node .prefixUnaryExpression, .unary _ operand => [operand]
  | .node .deleteExpression, .expression operand | .node .typeOfExpression, .expression operand
  | .node .voidExpression, .expression operand | .node .awaitExpression, .expression operand =>
    [operand]
  | .node .decorator, .expression inner => [inner]
  | .node .newExpression, .call callee _ _ _ => [callee]
  | .node .bindingElement, .variableLike v => [v.name]
  | _, .typeAssertion _ inner => [inner]
  | _, .binary _ operator right =>
    if a.kindOf operator == .punct .asteriskAsterisk then [right] else []
  | _, .typeOperator _ type => [type]
  | _, .moduleDeclaration _ (some body) => [body]
  | _, .withTypeArguments inner _ => [inner]
  | _, _ => []

/-- Whether the step to a child is unguarded, as a number. -/
def unguardedTo (a : Arena) (n : Node) (c : NodeId) : Nat := if c ∈ a.unguarded n then 1 else 0

/-- A path from the top down to a node, with the number of its falls and of its unguarded steps. -/
inductive Path (a : Arena) (top : NodeId) : NodeId → Nat → Nat → Prop where
  | here : Path a top top 0 0
  | child {p c : NodeId} {n m : Node} {falls steps : Nat} (h : Path a top p falls steps)
      (hp : a.get? p = some n) (hc : c ∈ n.children) (hm : a.get? c = some m) :
      Path a top c (falls + n.fallsTo m) (steps + a.unguardedTo n c)

/-! ## 2. Bounds -/

variable {a b : Arena} {id : NodeId} {n : Node} {h h' : Nat}

/-- Every path down from the node falls less often than the bound says, where an unguarded step has
room for a whole level of falls. -/
inductive Within (a : Arena) : Nat → NodeId → Prop where
  | intro {id : NodeId} {n : Node} {h : Nat} (bound : NodeId → Nat) (hn : a.get? id = some n)
      (hpos : 0 < h) (hchild : ∀ c ∈ n.children, Within a (bound c) c)
      (hcost : ∀ c ∈ n.children, ∀ m, a.get? c = some m →
        bound c + n.fallsTo m ≤ h + fallsPerLevel * a.unguardedTo n c) :
      Within a h id

theorem Within.pos (hwithin : a.Within h id) : 0 < h := by
  cases hwithin with
  | intro bound hn hpos hchild hcost => exact hpos

theorem Within.exists_get? (hwithin : a.Within h id) : ∃ n, a.get? id = some n := by
  cases hwithin with
  | intro bound hn hpos hchild hcost => exact ⟨_, hn⟩

theorem Within.mono (hwithin : a.Within h id) (hle : h ≤ h') : a.Within h' id := by
  cases hwithin with
  | intro bound hn hpos hchild hcost =>
    refine .intro bound hn (Nat.lt_of_lt_of_le hpos hle) hchild fun c hc m hm => ?_
    exact Nat.le_trans (hcost c hc m hm) (Nat.add_le_add_right hle _)

/-- Which steps are unguarded depends on the children alone. -/
theorem unguarded_grows (hgrows : a.Grows b) (hchildren : ∀ c ∈ n.children, ∃ m, a.get? c = some m) :
    b.unguarded n = a.unguarded n := by
  have hkind {operator : NodeId} (hc : operator ∈ n.children) : b.kindOf operator = a.kindOf operator := by
    obtain ⟨m, hm⟩ := hchildren operator hc
    simp [kindOf, hm, hgrows.get? hm]
  unfold unguarded
  split
  case h_10 kind left operator right hpayload =>
    rw [hkind]
    simp [Node.children, Node.parts, hpayload, Payload.fields, Field.part?, Part.children]
  all_goals rfl

/-- The child has a bound of its own, which leaves room for the step to it. -/
def HasRoom (a : Arena) (n : Node) (h : Nat) (c : NodeId) : Prop :=
  ∃ bound, a.Within bound c ∧ ∀ m, a.get? c = some m →
    bound + n.fallsTo m ≤ h + fallsPerLevel * a.unguardedTo n c

/-- No path leads on from a node without children. -/
theorem within_of_children_eq_nil (hn : a.get? id = some n) (hnone : n.children = []) (hpos : 0 < h) :
    a.Within h id :=
  .intro (fun _ => 0) hn hpos (fun _ hc => absurd (hnone ▸ hc) List.not_mem_nil) fun _ hc =>
    absurd (hnone ▸ hc) List.not_mem_nil

/-- There is room for a child whose bound is less. -/
theorem Within.hasRoom (hwithin : a.Within h id) : a.HasRoom n (h + 1) id := by
  refine ⟨h, hwithin, fun m _ => ?_⟩
  have := n.fallsTo_le_one m
  omega

/-- There is room for a child that does not start after the node. -/
theorem Within.hasRoom_of_pos_le (hwithin : a.Within h id) (hpos : ∀ m, a.get? id = some m → m.pos ≤ n.pos) :
    a.HasRoom n h id := by
  refine ⟨h, hwithin, fun m hm => ?_⟩
  rw [n.fallsTo_eq_zero (hpos m hm)]
  omega

/-- There is room for a child that is unguarded. -/
theorem Within.hasRoom_of_unguarded (hwithin : a.Within h id) (hmem : id ∈ a.unguarded n)
    (hlt : h < h' + fallsPerLevel) : a.HasRoom n h' id := by
  refine ⟨h, hwithin, fun m _ => ?_⟩
  have := n.fallsTo_le_one m
  rw [unguardedTo, if_pos hmem]
  omega

/-- Nodes that come later do not matter. -/
theorem Within.grows (hwithin : a.Within h id) (hgrows : a.Grows b) : b.Within h id := by
  induction hwithin with
  | intro bound hn hpos hchild hcost ih =>
    refine .intro bound (hgrows.get? hn) hpos ih fun c hc m hm => ?_
    obtain ⟨m', hm'⟩ := (hchild c hc).exists_get?
    cases hm.symm.trans (hgrows.get? hm')
    have hsame := unguarded_grows hgrows fun c hc => (hchild c hc).exists_get?
    rw [unguardedTo, hsame]
    exact hcost c hc _ hm'

/-- A node is added within a bound if there is room for its children. -/
theorem within_push (hpos : 0 < h) (hroom : ∀ c ∈ n.children, a.HasRoom n h c) :
    (a.push n).Within h ⟨a.size⟩ := by
  have hgrows : a.Grows (a.push n) := grows_push a n
  choose! bound hwithin hcost using hroom
  have hthere (c : NodeId) (hc : c ∈ n.children) : ∃ m, a.get? c = some m := (hwithin c hc).exists_get?
  refine .intro bound (get?_push_self a n) hpos (fun c hc => (hwithin c hc).grows hgrows) fun c hc m hm => ?_
  obtain ⟨m', hm'⟩ := hthere c hc
  cases hm.symm.trans (hgrows.get? hm')
  rw [unguardedTo, unguarded_grows hgrows hthere]
  exact hcost c hc m hm'

/-- A path from a node within a bound stays within it. -/
theorem Within.falls_lt {falls steps : Nat} {c : NodeId} (hwithin : a.Within h id)
    (hpath : a.Path id c falls steps) : falls < h + fallsPerLevel * steps := by
  have hrest : ∃ rest, a.Within rest c ∧ falls + rest ≤ h + fallsPerLevel * steps := by
    induction hpath with
    | here => exact ⟨h, hwithin, by omega⟩
    | child hpath hp hc hm ih =>
      obtain ⟨rest, hrest, hle⟩ := ih
      cases hrest with
      | intro bound hn hpos hchild hcost =>
        cases hn.symm.trans hp
        refine ⟨bound _, hchild _ hc, ?_⟩
        have := hcost _ hc _ hm
        rw [Nat.mul_add]
        omega
  obtain ⟨rest, hrest, hle⟩ := hrest
  have := hrest.pos
  omega

/-! ## 3. The same tree -/

theorem SameNodes.kindOf_eq (hsame : a.SameNodes b) : b.kindOf = a.kindOf := by
  funext id
  unfold kindOf
  cases hn : b.get? id with
  | some n =>
    obtain ⟨m, hm, parent, rfl⟩ := hsame.get? hn
    rw [hm]
    rfl
  | none =>
    cases hm : a.get? id with
    | none => rfl
    | some m =>
      obtain ⟨n, hn', -⟩ := hsame.keeps id m hm
      cases hn.symm.trans hn'

theorem SameNodes.unguarded_eq (hsame : a.SameNodes b) {parent : Option NodeId} :
    a.unguarded { n with parent } = b.unguarded n := by
  simp only [unguarded, hsame.kindOf_eq]

/-- Paths do not depend on the parents that are recorded. -/
theorem SameNodes.path (hsame : a.SameNodes b) {top c : NodeId} {falls steps : Nat}
    (hpath : b.Path top c falls steps) : a.Path top c falls steps := by
  induction hpath with
  | here => exact .here
  | @child p c n m falls steps hpath hp hc hm ih =>
    obtain ⟨_, hp', parent, rfl⟩ := hsame.kept p n hp
    obtain ⟨_, hm', parent', rfl⟩ := hsame.kept c m hm
    have hsteps : a.unguardedTo { n with parent } c = b.unguardedTo n c := by
      unfold unguardedTo
      rw [hsame.unguarded_eq]
    have hstep := Path.child ih hp' hc hm'
    rw [hsteps] at hstep
    exact hstep

end Arena

end ScriptSyntax
