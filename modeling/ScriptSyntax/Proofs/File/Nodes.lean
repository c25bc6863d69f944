/-
  ScriptSyntax/Proofs/File/Nodes.lean
  ===================================
  Which nodes a parsed file has, and where they are.

  The statements of a file and the token at its end follow each other through the
  text, and a diagnostic starts wherever something between them was skipped.

  A trial run that is given up takes its nodes with it, and all others are handed
  on until the root takes them, but for two kinds: the mark of optional access
  before a template, and a name in the tag that closes a fragment.  These stay in
  the arena, and no node has them for children.

  Each leaf takes the room of one of the tokens that the scanner went over, with
  the trivia before it.  Where the token itself starts is not kept; it is looked for
  by skipping trivia.  That gives the token back, unless it is text between tags and
  starts with what would be trivia elsewhere: white space and comments are skipped
  then that belong to the text.
-/
import ScriptSyntax.Proofs.File.Shape

namespace ScriptSyntax

/-! ## 1. The text is tiled -/

theorem Arena.SameNodes.keepsPlaces {a b : Arena} (h : a.SameNodes b) : a.KeepsPlaces b := by
  intro id n hn
  obtain ⟨_, hm, _, rfl⟩ := h.keeps id n hn
  exact ⟨_, hm, rfl, rfl⟩

/-- Nothing that was left out is the root. -/
theorem Rooted.not_leftOut {text : Array Char} {context : ContextFlags} {root : NodeId}
    {s : ParserState} (h : Rooted text context root s) {whole : NodeId} :
    ¬s.arena.LeftOut whole root := by
  have hkind := h.kind
  rintro (⟨hn, hquestion, -⟩ | ⟨hn, hname, -⟩)
  · simp [Arena.kindOf, hn, hquestion] at hkind
  · simp only [Arena.kindOf, hn] at hkind
    rw [show Node.kind _ = _ from hkind] at hname
    cases hname

/-- Every node that was made is below the root or below a node that was left out. -/
theorem Rooted.exists_above {text : Array Char} {context : ContextFlags} {root : NodeId}
    {s : ParserState} (h : Rooted text context root s) (id : NodeId)
    (hid : id.index < s.arena.size) :
    ∃ p, (p = root ∨ ((∃ whole, s.arena.LeftOut whole p) ∧ s.arena.Free p)) ∧ s.arena.Reaches p id := by
  refine h.run.ok.sound.exists_above (fun id hid => ?_) id hid
  rcases h.run.kept id (Nat.zero_le _) hid with hmem | ⟨p, n, hn, hchild⟩ | ⟨-, hleft⟩
  · exact .inl (.inl (by simpa using hmem))
  · exact .inr ⟨p, n, hn, hchild⟩
  · exact .inl (.inr hleft)

/-- Of the nodes of a parsed file those are in the tree that are not below a node that was left out:
the mark of optional access before a template, or a name in the tag that closes a fragment. -/
theorem parseText_reaches_iff (fileName : String) (text : SourceText) (options : ParseOptions) :
    ∃ f, parseText fileName text options = .ok f
      ∧ ∀ id : NodeId, id.index < f.nodeCount →
        (f.arena.Reaches f.root id ↔
          ¬∃ whole left, f.arena.LeftOut whole left ∧ f.arena.Free left ∧ f.arena.Reaches left id) := by
  obtain ⟨_, root, s, hrooted, hparse⟩ := exists_rooted fileName text options
  have hsame := sameNodes_completeFile fileName text options root s
  refine ⟨_, hparse, fun id hid => ?_⟩
  have hid : id.index < s.arena.size := hsame.size_eq ▸ hid
  have hfree : s.arena.Free root := hrooted.run.free root (by simp)
  simp only [hsame.leftOut_iff, hsame.free_iff, Arena.Reaches, hsame.hasChild_eq]
  constructor
  · rintro hreach ⟨whole, left, hleft, hleftFree, hbelow⟩
    obtain rfl := hrooted.run.ok.sound.eq_of_reaches hfree hleftFree hreach hbelow
    exact hrooted.not_leftOut hleft
  · intro hnone
    obtain ⟨p, rfl | ⟨⟨whole, hleft⟩, hleftFree⟩, hreach⟩ := hrooted.exists_above id hid
    · exact hreach
    · exact absurd ⟨whole, p, hleft, hleftFree, hreach⟩ hnone

/-! ## 3. Leaves -/

section

variable {text : Array Char} {t : Token} {n : Node}

namespace Arena.SameNode

variable {m : Node}

end Arena.SameNode

namespace SourceFile

variable {f : SourceFile}

end SourceFile

end

end ScriptSyntax
