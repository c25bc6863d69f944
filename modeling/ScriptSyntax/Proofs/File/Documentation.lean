/-
  ScriptSyntax/Proofs/File/Documentation.lean
  ===========================================
  Where the documentation of a node stands.

  The comments that may document a node come from two walks over the trivia before
  it.  Behind a token the walks share out the comments.  At the start of a text one
  of them already meets all, so whatever the other one meets comes twice.
-/
import ScriptSyntax.Proofs.File.Parse
import ScriptSyntax.Proofs.Trivia.Comments

namespace ScriptSyntax

open Comment TriviaPiece

variable {text : Array Char} {pos : Nat} {c : Comment} {n : Node} {d : DocComment}

/-! ## 1. The comments before a position -/

/-- Comments taken from pieces of a gap are in order. -/
theorem pairwise_of_map_toPiece {cs : List Comment} {pieces : List TriviaPiece} {stop : Nat}
    (h : Gap text pos pieces stop) (hcs : (cs.map toPiece).Sublist pieces) :
    cs.Pairwise (fun c d => c.stop ≤ d.pos) :=
  List.pairwise_map.mp (h.pairwise.sublist hcs)

theorem pairwise_leading (text : Array Char) (pos : Nat) :
    (leading text pos).Pairwise (fun c d => c.stop ≤ d.pos) := by
  obtain ⟨pieces, stop, hgap⟩ := exists_gap text pos
  refine pairwise_of_map_toPiece hgap ?_
  rw [leading_of_gap hgap, map_toPiece_comments]
  refine List.filter_sublist.trans ?_
  split
  · exact List.Sublist.refl pieces
  · exact List.dropWhile_sublist _

theorem pairwise_trailing_append_leading (hpos : pos ≠ 0) :
    (trailing text pos ++ leading text pos).Pairwise (fun c d => c.stop ≤ d.pos) := by
  obtain ⟨pieces, stop, hgap⟩ := exists_gap text pos
  refine pairwise_of_map_toPiece hgap ?_
  rw [List.map_append, trailing_of_gap hgap, leading_of_gap hgap, if_neg hpos, map_toPiece_comments,
    ← List.filter_append, beforeBreak, fromBreak, List.takeWhile_append_dropWhile]
  exact List.filter_sublist

/-- The comments before a position stand in the text, and before the next token. -/
theorem stands_of_mem_comments (hc : c ∈ trailing text pos ++ leading text pos) :
    c.toPiece.Stands text ∧ pos ≤ c.pos ∧ c.stop ≤ tokenStartAt text pos := by
  obtain ⟨pieces, stop, hgap⟩ := exists_gap text pos
  have hmem : c.toPiece ∈ pieces := by
    rcases List.mem_append.mp hc with hc | hc
    · have hc := List.mem_map_of_mem (f := toPiece) hc
      rw [trailing_of_gap hgap] at hc
      exact (List.takeWhile_sublist _).subset (List.mem_filter.mp hc).1
    · have hc := List.mem_map_of_mem (f := toPiece) hc
      rw [leading_of_gap hgap, map_toPiece_comments] at hc
      have hc := (List.mem_filter.mp hc).1
      split at hc
      · exact hc
      · exact (List.dropWhile_sublist _).subset hc
  obtain ⟨hstands, hle, hstop⟩ := hgap.of_mem hmem
  exact ⟨hstands, hle, Nat.le_trans hstop hgap.stop_le_skipTrivia⟩

/-- At the start of a text a trailing comment is a leading one too. -/
theorem exists_mem_leading (hc : c ∈ trailing text 0) : ∃ d ∈ leading text 0, d.toPiece = c.toPiece := by
  obtain ⟨pieces, stop, hgap⟩ := exists_gap text 0
  have hc := List.mem_map_of_mem (f := toPiece) hc
  rw [trailing_of_gap hgap] at hc
  obtain ⟨hc, hcomment⟩ := List.mem_filter.mp hc
  have hlead : c.toPiece ∈ (leading text 0).map toPiece := by
    rw [leading_of_gap hgap, if_pos rfl, map_toPiece_comments]
    exact List.mem_filter.mpr ⟨(List.takeWhile_sublist _).subset hc, hcomment⟩
  exact List.mem_map.mp hlead

/-! ## 2. The documentation of a node -/

/-- The range is that of a comment in the text that opens with two asterisks. -/
def DocComment.Stands (d : DocComment) (text : Array Char) : Prop :=
  (⟨.multiLineComment, d.pos, d.stop⟩ : TriviaPiece).Stands text
    ∧ text[d.pos + 2]? = some '*' ∧ text[d.pos + 3]? ≠ some '/'

/-- Can the comment document the node? -/
def Node.admits (n : Node) (text : Array Char) (c : Comment) : Bool :=
  c.stop ≤ n.stop && c.isDocumentation text

/-- What two walks meet for a node: it may be documented on the line of the token before, and there is no
such token. -/
def Node.MeetsTwice (n : Node) (text : Array Char) : Prop :=
  n.pos = 0 ∧ n.kind.isDocumentedInline = true ∧ ∃ c ∈ trailing text 0, n.admits text c = true

theorem DocComment.place_parse (comment : String) (pos stop : Nat) :
    (DocComment.parse comment pos stop).pos = pos ∧ (DocComment.parse comment pos stop).stop = stop :=
  ⟨rfl, rfl⟩

theorem Kind.isDocumented_of_inline {k : Kind} (h : k.isDocumentedInline = true) :
    k.isDocumented = true := by
  unfold Kind.isDocumentedInline at h
  split at h
  · rfl
  · rfl
  · rfl
  · rfl
  · exact absurd h Bool.false_ne_true

theorem Node.mem_of_mem_docCandidates (hc : c ∈ n.docCandidates text) :
    c ∈ trailing text n.pos ++ leading text n.pos := by
  unfold Node.docCandidates at hc
  split at hc
  · exact hc
  · exact List.mem_append_right _ hc

theorem Node.stands_of_mem_docs (hd : d ∈ n.docs text) :
    d.Stands text ∧ n.pos ≤ d.pos ∧ d.pos < d.stop
      ∧ d.stop ≤ min (tokenStartAt text n.pos) n.stop := by
  unfold Node.docs at hd
  split at hd
  · obtain ⟨c, hc, rfl⟩ := List.mem_map.mp hd
    obtain ⟨hc, hadmits⟩ := List.mem_filter.mp hc
    obtain ⟨hstands, hle, hstart⟩ := stands_of_mem_comments (mem_of_mem_docCandidates hc)
    obtain ⟨hstop, hdoc⟩ := Bool.and_eq_true_iff.mp hadmits
    simp only [isDocumentation, Bool.and_eq_true, beq_iff_eq, bne_iff_ne, ne_eq] at hdoc
    obtain ⟨⟨hkind, hstar⟩, hslash⟩ := hdoc
    have hpiece : c.toPiece = ⟨.multiLineComment, c.pos, c.stop⟩ := by rw [toPiece, hkind]
    rw [hpiece] at hstands
    obtain ⟨hpos, hend⟩ := DocComment.place_parse (c.source text) c.pos c.stop
    rw [DocComment.Stands, hpos, hend]
    exact ⟨⟨hstands, hstar, hslash⟩, hle, hstands.bounds.1,
      Nat.le_min.mpr ⟨hstart, of_decide_eq_true hstop⟩⟩
  · cases hd

/-- The documentation is in order, each comment behind the one before, if the comments are that can
document the node. -/
theorem Node.pairwise_docs_iff (hdoc : n.kind.isDocumented = true) (hroom : n.pos ≠ n.stop) :
    (n.docs text).Pairwise (fun c d => c.stop ≤ d.pos)
      ↔ ((n.docCandidates text).filter (n.admits text)).Pairwise (fun c d => c.stop ≤ d.pos) := by
  have hdocs : (n.kind.isDocumented && n.pos != n.stop) = true := by simp [hdoc, hroom]
  rw [Node.docs, if_pos hdocs, List.pairwise_map]
  simp only [DocComment.place_parse]
  rfl

theorem Node.pairwise_docs (h : ¬n.MeetsTwice text) :
    (n.docs text).Pairwise (fun c d => c.stop ≤ d.pos) := by
  by_cases hdoc : n.kind.isDocumented = true ∧ n.pos ≠ n.stop
  · rw [pairwise_docs_iff hdoc.1 hdoc.2, Node.docCandidates, List.filter_append]
    have hleading := (pairwise_leading text n.pos).filter (n.admits text)
    by_cases hinline : n.kind.isDocumentedInline = true
    · rw [if_pos hinline]
      by_cases hpos : n.pos = 0
      · have hnone : (trailing text n.pos).filter (n.admits text) = [] := by
          refine List.filter_eq_nil_iff.mpr fun c hc hadmits => ?_
          exact h ⟨hpos, hinline, c, hpos ▸ hc, hadmits⟩
        rwa [hnone, List.nil_append]
      · rw [← List.filter_append]
        exact (pairwise_trailing_append_leading hpos).filter _
    · rwa [if_neg hinline, List.filter_nil, List.nil_append]
  · have hnone : n.docs text = [] := by
      refine if_neg fun hdocs => hdoc ?_
      simpa using hdocs
    rw [hnone]
    exact .nil

theorem Node.not_pairwise_docs (h : n.MeetsTwice text) :
    ¬(n.docs text).Pairwise (fun c d => c.stop ≤ d.pos) := by
  obtain ⟨hpos, hinline, c, hc, hadmits⟩ := h
  obtain ⟨d, hd, hpiece⟩ := exists_mem_leading hc
  obtain ⟨hkind, hsame, hstop⟩ : d.kind = c.kind ∧ d.pos = c.pos ∧ d.stop = c.stop := by
    simpa [toPiece] using hpiece
  have hlt : c.pos < c.stop := (stands_of_mem_comments (List.mem_append_left _ hc)).1.bounds.1
  have hroom : n.pos ≠ n.stop := by
    have hle := of_decide_eq_true (Bool.and_eq_true_iff.mp hadmits).1
    omega
  have hadmits' : n.admits text d = true := by
    rw [Node.admits, isDocumentation, hkind, hsame, hstop]
    exact hadmits
  rw [pairwise_docs_iff (Kind.isDocumented_of_inline hinline) hroom, Node.docCandidates, if_pos hinline,
    hpos, List.filter_append, List.pairwise_append]
  rintro ⟨-, -, hacross⟩
  have hle := hacross c (List.mem_filter.mpr ⟨hc, hadmits⟩) d (List.mem_filter.mpr ⟨hd, hadmits'⟩)
  omega

/-! ## 3. The documentation of a file -/

theorem Arena.get?_of_mem_docs {a : Arena} {entry : NodeId × List DocComment} (h : entry ∈ a.docs text) :
    ∃ n, a.get? entry.1 = some n ∧ entry.2 = n.docs text := by
  obtain ⟨id, -, hid⟩ := List.mem_filterMap.mp h
  cases hn : a.get? id with
  | none => simp [hn] at hid
  | some n =>
    rw [hn] at hid
    obtain ⟨-, heq⟩ := Option.ite_none_left_eq_some.mp hid
    obtain rfl := Option.some.inj heq
    exact ⟨n, hn, rfl⟩

theorem Arena.docs_eq_nil {a : Arena} {id : NodeId} (hn : a.get? id = some n)
    (hnone : ∀ entry ∈ a.docs text, entry.1 ≠ id) : n.docs text = [] := by
  by_contra hdocs
  refine hnone (id, n.docs text) (List.mem_filterMap.mpr ⟨id, mem_ids_of_get? hn, ?_⟩) rfl
  rw [hn]
  exact if_neg (mt List.isEmpty_iff.mp hdocs)

/-- The entry that is found for a node is its documentation, and without an entry it has none. -/
theorem Arena.find?_docs {a : Arena} {id : NodeId} (hn : a.get? id = some n) :
    (((a.docs text).find? fun entry => entry.1 == id).map Prod.snd).getD [] = n.docs text := by
  cases hfind : (a.docs text).find? fun entry => entry.1 == id with
  | none =>
    refine (docs_eq_nil hn fun entry hentry heq => ?_).symm
    exact List.find?_eq_none.mp hfind entry hentry (beq_iff_eq.mpr heq)
  | some entry =>
    obtain ⟨m, hm, hdocs⟩ := get?_of_mem_docs (List.mem_of_find?_eq_some hfind)
    have heq : entry.1 = id := by simpa using List.find?_some hfind
    obtain rfl : n = m := Option.some.inj (hn.symm.trans (heq ▸ hm))
    exact hdocs

theorem docsOf_completeFile (fileName : String) (text : SourceText) (options : ParseOptions)
    (root : NodeId) (s : ParserState) {id : NodeId} {n : Node} :
    let f := completeFile fileName text options root s
    f.arena.get? id = some n → f.docsOf id = if options.collectDocs then n.docs text.chars else [] := by
  intro f hn
  show (((if options.collectDocs then f.arena.docs text.chars else []).find? _).map _).getD [] = _
  split
  · exact Arena.find?_docs hn
  · rfl

/-- The documentation of a node of a parsed file consists of comments that stand between the start of the
node and its first token. They are in order and do not overlap, unless the node starts with the text, may
be documented on the line of the token before, and a comment that documents it stands on the first line:
such a comment is there twice. -/
theorem parseText_docsOf_pairwise_iff (fileName : String) (text : SourceText) (options : ParseOptions) :
    ∃ f, parseText fileName text options = .ok f ∧ ∀ id n, f.arena.get? id = some n →
      (∀ d ∈ f.docsOf id, d.Stands text.chars ∧ n.pos ≤ d.pos ∧ d.pos < d.stop ∧ d.stop ≤ f.tokenStart n)
      ∧ ((f.docsOf id).Pairwise (fun c d => c.stop ≤ d.pos)
          ↔ ¬(options.collectDocs = true ∧ n.MeetsTwice text.chars)) := by
  refine ⟨_, parseText_eq_completeFile fileName text options, fun id n hn => ?_⟩
  rw [docsOf_completeFile fileName text options _ _ hn]
  by_cases hcollect : options.collectDocs = true
  · rw [if_pos hcollect]
    refine ⟨fun d hd => Node.stands_of_mem_docs hd, ?_⟩
    simp only [hcollect, true_and]
    exact ⟨fun hpair htwice => Node.not_pairwise_docs htwice hpair, Node.pairwise_docs⟩
  · rw [if_neg hcollect]
    refine ⟨fun d hd => absurd hd List.not_mem_nil, iff_of_true .nil fun h => hcollect h.1⟩

end ScriptSyntax
