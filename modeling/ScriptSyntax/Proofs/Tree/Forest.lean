/-
  ScriptSyntax/Proofs/Tree/Forest.lean
  ====================================
  What is said of a tree from outside: its kinds, its payloads and its names.

  A claim about the tree of a parsed text speaks of nodes and of the names in
  them, and not of ranges, parents or flags.  What it says stays true while the
  parser adds nodes and names, and while parents are entered afterwards.
-/
import ScriptSyntax.File.Basic
import ScriptSyntax.Proofs.Grammar.Run
import ScriptSyntax.Proofs.Tree.Walk

namespace ScriptSyntax

/-! ## 1. Nodes and names -/

/-- The nodes of a text, and the names in them. -/
structure Forest where
  arena : Arena
  names : NameTable

def ParserState.forest (s : ParserState) : Forest := ⟨s.arena, s.names⟩

def SourceFile.forest (f : SourceFile) : Forest := ⟨f.arena, f.names⟩

namespace Forest

variable {F G H : Forest} {id : NodeId}

/-- Under the number there is a node of the given kind that is made of the given things. -/
def Shows (F : Forest) (id : NodeId) (kind : Kind) (payload : Payload) : Prop :=
  ∃ n, F.arena.get? id = some n ∧ n.kind = kind ∧ n.payload = payload

/-- Under the number there is an identifier, and the word is its name. -/
def IsIdentifier (F : Forest) (id : NodeId) (word : String) : Prop :=
  ∃ name keyword, F.Shows id .identifier (.identifier name keyword)
    ∧ F.names.find? word = some name

/-- All nodes and names are there in the other one, but for the parents that are recorded. -/
structure Keeps (F G : Forest) : Prop where
  arena : F.arena.Keeps G.arena
  names : F.names.Grows G.names

theorem Keeps.refl (F : Forest) : F.Keeps F := ⟨fun _ m hm => ⟨m, hm, m.parent, rfl⟩, .refl _⟩

theorem Keeps.trans (h : F.Keeps G) (h' : G.Keeps H) : F.Keeps H where
  arena id m hm := by
    obtain ⟨n, hn, parent, rfl⟩ := h.arena id m hm
    obtain ⟨k, hk, parent', rfl⟩ := h'.arena id _ hn
    exact ⟨_, hk, parent', rfl⟩
  names := h.names.trans h'.names

theorem Shows.keeps {kind : Kind} {payload : Payload} (h : F.Shows id kind payload)
    (hkeeps : F.Keeps G) : G.Shows id kind payload := by
  obtain ⟨n, hn, hkind, hpayload⟩ := h
  obtain ⟨m, hm, parent, rfl⟩ := hkeeps.arena id n hn
  exact ⟨_, hm, hkind, hpayload⟩

theorem IsIdentifier.keeps {word : String} (h : F.IsIdentifier id word) (hkeeps : F.Keeps G) :
    G.IsIdentifier id word := by
  obtain ⟨name, keyword, hshows, hname⟩ := h
  exact ⟨name, keyword, hshows.keeps hkeeps, hkeeps.names.find?_eq hname⟩

theorem Shows.kindOf_eq {kind : Kind} {payload : Payload} (h : F.Shows id kind payload) :
    F.arena.kindOf id = kind := by
  obtain ⟨n, hn, hkind, -⟩ := h
  simp [Arena.kindOf, hn, hkind]

theorem Shows.kind_unique {kind kind' : Kind} {payload payload' : Payload} (h : F.Shows id kind payload)
    (h' : F.Shows id kind' payload') : kind = kind' :=
  h.kindOf_eq.symm.trans h'.kindOf_eq

/-! ## 2. What was added -/

/-- At most names were added. -/
structure Stays (F G : Forest) : Prop where
  arena : G.arena = F.arena
  names : F.names.Grows G.names

theorem Stays.keeps (h : F.Stays G) : F.Keeps G where
  arena _ m hm := ⟨m, h.arena ▸ hm, m.parent, rfl⟩
  names := h.names

theorem Shows.of_stays {kind : Kind} {payload : Payload} (h : G.Shows id kind payload) (hstays : F.Stays G) :
    F.Shows id kind payload := by
  obtain ⟨n, hn, hkind, hpayload⟩ := h
  exact ⟨n, hstays.arena ▸ hn, hkind, hpayload⟩

/-- All is there in the other one, and the nodes that were added are of the kinds given. -/
structure Gains (p : Kind → Prop) (F G : Forest) : Prop extends F.Keeps G where
  kinds : ∀ id kind payload, G.Shows id kind payload → p kind ∨ F.Shows id kind payload

namespace Gains

variable {p q : Kind → Prop}

theorem trans (h : F.Gains p G) (h' : G.Gains p H) : F.Gains p H where
  toKeeps := h.toKeeps.trans h'.toKeeps
  kinds id kind payload hshows := by
    rcases h'.kinds id kind payload hshows with hkind | hshows
    · exact .inl hkind
    · exact h.kinds id kind payload hshows

theorem mono (h : F.Gains p G) (hpq : ∀ k, p k → q k) : F.Gains q G where
  toKeeps := h.toKeeps
  kinds id kind payload hshows := (h.kinds id kind payload hshows).imp_left (hpq kind)

theorem of_stays (h : F.Stays G) : F.Gains p G where
  toKeeps := h.keeps
  kinds _ _ _ hshows := .inr (hshows.of_stays h)

/-- Kinds that neither were there nor were added are not there. -/
theorem lacks {kind : Kind} {payload : Payload} (h : F.Gains p G) (hkind : ¬p kind)
    (hlacks : ∀ id payload, ¬F.Shows id kind payload) : ¬G.Shows id kind payload := by
  intro hshows
  rcases h.kinds id kind payload hshows with hadded | hold
  · exact hkind hadded
  · exact hlacks id payload hold

end Gains

end Forest

/-- The parser keeps what it has made. -/
theorem ParserState.Grows.forest {s t : ParserState} (h : s.Grows t) : s.forest.Keeps t.forest where
  arena _ m hm := ⟨m, h.grows.get? hm, m.parent, rfl⟩
  names := h.named

end ScriptSyntax
