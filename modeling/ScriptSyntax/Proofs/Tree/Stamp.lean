/-
  ScriptSyntax/Proofs/Tree/Stamp.lean
  ===================================
  The stamp of a node: whether it is part of a script without types.

  The stamp stands among the context flags, but it only comes along.  Stamping
  all nodes of an arena changes no answer about the arena that does not show the
  flags themselves, and it commutes with whatever is done to the arena.
-/
import ScriptSyntax.Documentation.Collect
import ScriptSyntax.Grammar.Jsx
import ScriptSyntax.Proofs.Tree.Sound

namespace ScriptSyntax

/-! ## 1. Flags and nodes -/

/-- The context flags with the given stamp. -/
def ContextFlags.stamped (c : ContextFlags) (b : Bool) : ContextFlags := { c with javaScriptFile := b }

/-- The node with the given stamp. -/
def Node.stamped (n : Node) (b : Bool) : Node :=
  { n with flags := { n.flags with context := n.flags.context.stamped b } }

/-! ## 2. Arenas -/

namespace Arena

/-- The arena in which all nodes have the given stamp. -/
def stamped (a : Arena) (b : Bool) : Arena := ⟨a.nodes.map fun n => n.stamped b⟩

variable (a : Arena) (b : Bool)

@[simp] theorem size_stamped : (a.stamped b).size = a.size := Array.size_map

@[simp] theorem get?_stamped (id : NodeId) :
    (a.stamped b).get? id = (a.get? id).map fun n => n.stamped b :=
  Array.getElem?_map

@[simp] theorem push_stamped (n : Node) :
    (a.stamped b).push (n.stamped b) = (a.push n).stamped b := by
  simp [push, stamped]

@[simp] theorem truncate_stamped (count : Nat) :
    (a.stamped b).truncate count = (a.truncate count).stamped b := by
  simp [truncate, stamped]

/-- Names of tags are compared by their payloads alone. -/
theorem sameTagName?_stamped (left right : NodeId) :
    (a.stamped b).sameTagName? left right = a.sameTagName? left right := by
  fun_induction sameTagName? a left right
  case case7 left right hnone =>
    rw [sameTagName?, get?_stamped, get?_stamped]
    cases hl : a.get? left with
    | none => rfl
    | some l =>
      cases hr : a.get? right with
      | none => rfl
      | some r => exact (hnone l r hl hr).elim
  all_goals
    rw [sameTagName?]
    simp [Node.stamped, *]

/-! ### Children -/

/-- An arena is stamped as it is exactly if every node of it has that stamp. -/
theorem stamped_eq_self_iff :
    a.stamped b = a ↔ ∀ id n, a.get? id = some n → n.flags.context.javaScriptFile = b := by
  constructor
  · intro h id n hn
    have hstamped : (a.stamped b).get? id = some (n.stamped b) := by rw [get?_stamped, hn]; rfl
    rw [h, hn] at hstamped
    rw [Option.some.inj hstamped]
    rfl
  · intro h
    refine congrArg Arena.mk (Array.ext_getElem? fun i => ?_)
    rw [Array.getElem?_map]
    cases hn : a.nodes[i]? with
    | none => rfl
    | some n =>
      obtain rfl := h ⟨i⟩ n hn
      rfl

end Arena

end ScriptSyntax
