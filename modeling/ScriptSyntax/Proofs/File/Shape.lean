/-
  ScriptSyntax/Proofs/File/Shape.lean
  ===================================
  The shape of the tree of a parsed file.

  The root covers the text, children lie inside their parents and are older, the
  nodes of a list lie one after the other, and no node has two parents.  Siblings
  are in the order of the source, but for the elements of an object pattern that
  have dots before a property name.
-/
import ScriptSyntax.Proofs.File.Parse
import ScriptSyntax.Proofs.Tree.Forest

namespace ScriptSyntax

/-! ## 1. The tree of a file -/

/-- The tree of a parsed file is the one that the parser made, but for the parents. -/
theorem sameNodes_completeFile (fileName : String) (text : SourceText) (options : ParseOptions)
    (root : NodeId) (s : ParserState) :
    s.arena.SameNodes (completeFile fileName text options root s).arena := by
  show s.arena.SameNodes (if options.linkParents then s.arena.linkParents root else s.arena)
  split
  · exact Arena.sameNodes_linkParents s.arena root
  · exact .refl s.arena

/-- What the parser made is in the parsed file. -/
theorem keeps_completeFile (fileName : String) (text : SourceText) (options : ParseOptions)
    (root : NodeId) (s : ParserState) :
    s.forest.Keeps (completeFile fileName text options root s).forest where
  arena := (sameNodes_completeFile fileName text options root s).keeps
  names := .refl s.names

/-- No other nodes are in the parsed file. -/
theorem gains_completeFile {p : Kind → Prop} (fileName : String) (text : SourceText)
    (options : ParseOptions) (root : NodeId) (s : ParserState) :
    s.forest.Gains p (completeFile fileName text options root s).forest where
  toKeeps := keeps_completeFile fileName text options root s
  kinds id kind payload := by
    rintro ⟨n, hn, hkind, hpayload⟩
    obtain ⟨m, hm, parent, rfl⟩ := (sameNodes_completeFile fileName text options root s).kept id n hn
    exact .inr ⟨_, hm, hkind, hpayload⟩

/-- The nodes of a parsed file fit together. -/
theorem Rooted.sound_completeFile {text : SourceText} {context : ContextFlags} {root : NodeId}
    {s : ParserState} (h : Rooted text.chars context root s) (fileName : String) (options : ParseOptions) :
    (completeFile fileName text options root s).arena.Sound :=
  (sameNodes_completeFile fileName text options root s).sound h.run.ok.sound

/-- The root of a parsed file covers all of its text. -/
theorem Rooted.get?_completeFile {text : SourceText} {context : ContextFlags} {root : NodeId}
    {s : ParserState} (h : Rooted text.chars context root s) (fileName : String) (options : ParseOptions) :
    ∃ n statements endOfFile, (completeFile fileName text options root s).arena.get? root = some n
      ∧ n.pos = 0 ∧ n.stop = text.length ∧ n.payload = .sourceFile statements endOfFile := by
  obtain ⟨n, statements, endOfFile, hn, hpos, hstop, hpayload, -⟩ := h.root
  obtain ⟨_, hn', _, rfl⟩ := (sameNodes_completeFile fileName text options root s).keeps root n hn
  exact ⟨_, statements, endOfFile, hn', hpos, hstop, hpayload⟩

/-! ## 2. Nodes in their places -/

namespace Arena

variable {a : Arena} {id c : NodeId} {n : Node}

/-- The node does not end before it starts, its children are older and inside it, its lists are
inside it and hold nodes that lie one after the other, and it has no child twice. -/
structure Placed (a : Arena) (id : NodeId) (n : Node) : Prop where
  pos_le_stop : n.pos ≤ n.stop
  child : ∀ c ∈ n.children, c.index < id.index
    ∧ ∃ m, a.get? c = some m ∧ n.pos ≤ m.pos ∧ m.stop ≤ n.stop
  list : ∀ list, Part.array list ∈ n.parts →
    n.pos ≤ list.pos ∧ a.Spans list.pos list.nodes list.stop ∧ list.stop ≤ n.stop
  distinct : n.children.Nodup

theorem Fits.placed (h : a.Fits id n) : a.Placed id n where
  pos_le_stop := h.pos_le_stop
  child c hc := by
    obtain ⟨m, hm, hpos, -, hstop⟩ := h.get?_child hc
    exact ⟨h.older c hc, m, hm, hpos, hstop⟩
  list list hlist := h.inside _ hlist
  distinct := h.distinct

/-- Whatever is reached from a node is a node. -/
theorem Sound.get?_of_reaches (h : a.Sound) (hid : a.get? id = some n) (hreach : a.Reaches id c) :
    ∃ m, a.get? c = some m := by
  rcases Relation.ReflTransGen.cases_tail hreach with rfl | ⟨p, -, np, hp, hc⟩
  · exact ⟨n, hid⟩
  · obtain ⟨m, hm, -⟩ := (h.fits p np hp).get?_child hc
    exact ⟨m, hm⟩

end Arena

/-- In the tree of every parsed file the root covers the text, every node is in its place, and no
node is a child of two. -/
theorem parseText_placed (fileName : String) (text : SourceText) (options : ParseOptions) :
    ∃ f, parseText fileName text options = .ok f
      ∧ (∃ n, f.arena.get? f.root = some n ∧ n.pos = 0 ∧ n.stop = text.length)
      ∧ (∀ id, f.arena.Reaches f.root id → ∃ n, f.arena.get? id = some n ∧ f.arena.Placed id n)
      ∧ ∀ p q c, f.arena.HasChild p c → f.arena.HasChild q c → p = q := by
  obtain ⟨_, root, s, hrooted, hparse⟩ := exists_rooted fileName text options
  have hsound := hrooted.sound_completeFile fileName options
  obtain ⟨n, -, -, hn, hpos, hstop, -⟩ := hrooted.get?_completeFile fileName options
  refine ⟨_, hparse, ⟨n, hn, hpos, hstop⟩, fun id hreach => ?_, ?_⟩
  · obtain ⟨m, hm⟩ := hsound.get?_of_reaches hn hreach
    exact ⟨m, hm, (hsound.fits id m hm).placed⟩
  · rintro p q c ⟨np, hp, hcp⟩ ⟨nq, hq, hcq⟩
    exact hsound.single p q np nq c hp hq hcp hcq

/-! ## 3. The order of siblings -/

/-- In the tree of every parsed file the children of a node are in the order of the source, unless the
node is an element of an object pattern that has both dots and a property name; then they are not. -/
theorem parseText_inOrder_iff (fileName : String) (text : SourceText) (options : ParseOptions) :
    ∃ f, parseText fileName text options = .ok f
      ∧ ∀ id n, f.arena.get? id = some n →
        (f.arena.InOrder n.children ↔ n.payload.spreadsProperty = false) := by
  obtain ⟨_, root, s, hrooted, hparse⟩ := exists_rooted fileName text options
  have hsound := hrooted.sound_completeFile fileName options
  exact ⟨_, hparse, fun id n hn => (hsound.fits id n hn).inOrder_iff⟩

end ScriptSyntax
