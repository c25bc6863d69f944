/-
  ScriptSyntax/Proofs/Grammar/Endings.lean
  ========================================
  How productions end.

  A node is finished last of all, where the parser stands then, and in the
  surroundings that it was started in.  So it covers what was read for it and
  carries the context that holds around it.  What comes before the last step does
  not matter, so this holds from every state.
-/
import ScriptSyntax.Proofs.Grammar.Finishing

namespace ScriptSyntax

/-- There is a node that starts at the position and reaches to where the parser stands. It carries the
context that the parser is in. -/
def Covered (pos : Nat) (id : NodeId) (t : ParserState) : Prop :=
  ∃ n, t.arena.get? id = some n ∧ n.pos = pos ∧ t.pos ≤ n.stop ∧ n.flags.context = t.scope.context

namespace Parser

/-- The node that the parser gives starts at the position and reaches to where the parser ends. -/
def Covers (p : Parser NodeId) (pos : Nat) : Prop := ∀ env s, p.Ends env s (Covered pos)

/-- The node that the parser gives covers all that the parser reads. -/
def CoversAll (p : Parser NodeId) : Prop := ∀ env s, p.Ends env s (Covered s.pos)

section

variable {α : Type} {p q : Parser NodeId} {r : Parser α} {f : α → Parser NodeId} {pos : Nat}

/-- What comes before the last step does not matter. -/
theorem Covers.bind (h : ∀ a, (f a).Covers pos) : (r >>= f).Covers pos := fun _ _ => h _ _ _

theorem Covers.ite {c : Bool} (hp : p.Covers pos) (hq : q.Covers pos) :
    (if c = true then p else q).Covers pos := by
  cases c with
  | true => exact hp
  | false => exact hq

theorem CoversAll.nodePos {f : Nat → Parser NodeId} (h : ∀ pos, (f pos).Covers pos) :
    (Parser.nodePos >>= f).CoversAll :=
  fun env s => h s.pos env s

theorem finish_covers {n : Node} (h : n.flags.context = {}) : (finish n).Covers n.pos := by
  intro env s
  have hcontext : (flagsAt s n.flags).context = s.scope.context := by
    simp [flagsAt, h, ContextFlags.join]
  show (do
    if s.pos < n.pos then fail (.backwardsNode n.kind s.pos n.pos)
    finishAt { n with stop := max s.pos n.pos } : Parser NodeId).Ends env s _
  split
  all_goals exact ⟨_, Arena.get?_push_self _ _, rfl, Nat.le_max_left _ _, hcontext⟩

theorem finishProduction_covers (kind : NodeKind) (pos : Nat) (payload : Payload) :
    (finishProduction kind pos payload).Covers pos :=
  finish_covers rfl

theorem finishDeclaration_covers (kind : NodeKind) (start : DeclarationStart) (payload : Payload) :
    (finishDeclaration kind start payload).Covers start.pos :=
  finish_covers rfl

theorem tokenNode_covers : tokenNode.CoversAll :=
  fun env s => Covers.bind (r := nextToken) (fun _ => finish_covers rfl) env s

end

end Parser

end ScriptSyntax
