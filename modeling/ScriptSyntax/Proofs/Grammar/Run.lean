/-
  ScriptSyntax/Proofs/Grammar/Run.lean
  ====================================
  What a run of a parser does to the state.

  Whatever a parser does, it only adds to the tree, to the log and to the table
  of names, and it leaves its surroundings as they were: that is why a trial run
  can be rewound.  A run on a path that is kept hands over parts of a tree: the
  nodes that it made and that belong to no node yet.  `Run` says where these
  parts lie, that nothing else is shared with the outside, that no other node is
  lost, that no report of an error gets lost, and which of the tokens read over
  each new leaf was made from, and each new identifier named by.  Runs compose, the parts of one after those of the
  other, and a node is finished from the parts of a run.  All that is proved
  about productions is proved by composing runs, so what `Run` says is decided
  here and by the single steps alone.
-/
import ScriptSyntax.Grammar.Productions
import ScriptSyntax.Proofs.Diagnostic.Log
import ScriptSyntax.Proofs.Text.NameTable
import ScriptSyntax.Proofs.Token.Kinds
import ScriptSyntax.Proofs.Tree.Lawful

namespace ScriptSyntax

/-- Where the parser stands: at the trivia before the token to be read next. -/
abbrev ParserState.pos (s : ParserState) : Nat := s.token.fullStart

/-! ## 1. States -/

/-- What holds of the state of a parser between any two steps: no failure has occurred, the tree is
sound, the log is about the text, and where there is the mark of an error, or one is due, there is a
diagnostic. -/
structure ParserState.Ok (text : Array Char) (s : ParserState) : Prop where
  token : s.token.InText text
  faultless : s.fault = none
  sound : s.arena.Sound
  inside : s.log.InText text.size
  reported : (s.errorPending = true ∨ ∃ id, s.arena.hasError id = true) → 0 < s.log.size

theorem ParserState.Ok.inScope {text : Array Char} {s : ParserState} (h : s.Ok text) (scope : Scope) :
    ParserState.Ok text { s with scope } :=
  ⟨h.token, h.faultless, h.sound, h.inside, h.reported⟩

theorem ParserState.Ok.pos_le_size {text : Array Char} {s : ParserState} (h : s.Ok text) :
    s.pos ≤ text.size :=
  Nat.le_trans h.token.fullStart_le (Nat.le_trans h.token.start_le h.token.stop_le)

/-- The state after a node has been put into the arena. -/
def ParserState.adding (s : ParserState) (n : Node) : ParserState :=
  { s with arena := s.arena.push n, errorPending := false }

/-- A node may be put into the arena that fits, and whose mark of an error is accounted for. -/
theorem ParserState.Ok.adding {text : Array Char} {s : ParserState} (h : s.Ok text) {n : Node}
    (hfits : (s.arena.push n).Fits ⟨s.arena.size⟩ n) (hfree : ∀ c ∈ n.children, s.arena.Free c)
    (hreported : n.flags.hasError = true → 0 < s.log.size) : (s.adding n).Ok text where
  token := h.token
  faultless := h.faultless
  sound := h.sound.push hfits hfree
  inside := h.inside
  reported := by
    rintro (hpending | ⟨id, hid⟩)
    · cases hpending
    · obtain ⟨m, hm, hmark⟩ := Arena.get?_of_hasError hid
      rcases Arena.get?_push_cases hm with hold | ⟨-, rfl⟩
      · exact h.reported (.inr ⟨id, Arena.hasError_of_get? hold hmark⟩)
      · exact hreported hmark

/-- What a parser leaves as it was: the nodes, diagnostics and names that there were, and the
surroundings. No failure is noted. -/
structure ParserState.Grows (s t : ParserState) : Prop where
  grows : s.arena.Grows t.arena
  logged : s.log.Grows t.log
  named : s.names.Grows t.names
  scope_eq : t.scope = s.scope
  fault_eq : t.fault = s.fault

namespace ParserState

variable {s t u : ParserState}

theorem Grows.refl (s : ParserState) : s.Grows s :=
  ⟨.refl _, .refl _, .refl _, rfl, rfl⟩

theorem Grows.trans (h : s.Grows t) (h' : t.Grows u) : s.Grows u where
  grows := h.grows.trans h'.grows
  logged := h.logged.trans h'.logged
  named := h.named.trans h'.named
  scope_eq := h'.scope_eq.trans h.scope_eq
  fault_eq := h'.fault_eq.trans h.fault_eq

/-- Rewinding gives back what there was, but for names that are new. -/
theorem Grows.rewind_eq (h : s.Grows t) : t.rewind s.snapshot = { s with names := t.names } := by
  have hscope : { t.scope with context := s.scope.context } = s.scope := by rw [h.scope_eq]
  simp only [rewind, snapshot, inContext, h.grows.truncate_eq, h.logged.truncate_eq, hscope, h.fault_eq]

end ParserState

/-! ## 2. Leaves -/

/-- The node is of a kind that tokens have, and takes room. -/
def Node.IsLeaf (n : Node) : Prop := n.kind.isToken = true ∧ n.pos < n.stop

/-- The node is all that the token is made into: it takes its room with the trivia before it, and is of
its kind, unless any token does as an identifier. A literal has the value of the token. -/
structure Node.MadeFrom (n : Node) (t : Token) : Prop where
  pos_eq : n.pos = t.fullStart
  stop_eq : n.stop = t.stop
  kind_eq : n.kind = t.kind ∨ n.kind = .identifier
  literal_eq : ∀ value flags, n.payload = .literal value flags → value = t.value ∧ flags = t.flags

/-- An identifier has its name and its keyword from one of the tokens, or it has neither. -/
def Node.NamedBy (names : NameTable) (tokens : List Token) (n : Node) : Prop :=
  n.kind = .identifier → ∀ name keyword, n.payload = .identifier name keyword →
    (names.find? "" = some name ∧ keyword = none)
      ∨ ∃ t ∈ tokens, t.kind.isName = true ∧ names.find? t.value = some name ∧ keyword = t.kind.keyword?

theorem Node.NamedBy.mono {names names' : NameTable} {tokens tokens' : List Token} {n : Node}
    (h : n.NamedBy names tokens) (hnames : names.Grows names') (hsub : tokens ⊆ tokens') :
    n.NamedBy names' tokens' := by
  intro hkind name keyword hpayload
  rcases h hkind name keyword hpayload with ⟨hname, hkeyword⟩ | ⟨t, ht, hword, hname, hkeyword⟩
  · exact .inl ⟨hnames.find?_eq hname, hkeyword⟩
  · exact .inr ⟨t, hsub ht, hword, hnames.find?_eq hname, hkeyword⟩

theorem Node.namedBy_of_kind {names : NameTable} {tokens : List Token} {n : Node}
    (h : n.kind ≠ .identifier) : n.NamedBy names tokens :=
  fun hkind => absurd hkind h

/-- The scanner went from one token to the other over those that are listed. Of these each leaf was made
that is new, and each identifier was named by them. -/
structure ParserState.ReadsLeaves (text : Array Char) (s t : ParserState) (tokens : List Token) :
    Prop where
  reads : ReadsOver text s.token tokens t.token
  made : ∀ id n, s.arena.size ≤ id.index → t.arena.get? id = some n → n.IsLeaf →
    ∃ k ∈ tokens, n.MadeFrom k
  named : ∀ id n, s.arena.size ≤ id.index → t.arena.get? id = some n → n.NamedBy t.names tokens

theorem ParserState.ReadsLeaves.trans {text : Array Char} {s t u : ParserState}
    {tokens tokens' : List Token} (h : s.ReadsLeaves text t tokens)
    (h' : t.ReadsLeaves text u tokens') (hgrows : t.Grows u) :
    s.ReadsLeaves text u (tokens ++ tokens') where
  reads := h.reads.trans h'.reads
  made id n hid hn hleaf := by
    by_cases hold : id.index < t.arena.size
    · rw [hgrows.grows.get?_eq id hold] at hn
      obtain ⟨k, hk, hmade⟩ := h.made id n hid hn hleaf
      exact ⟨k, List.mem_append_left tokens' hk, hmade⟩
    · obtain ⟨k, hk, hmade⟩ := h'.made id n (Nat.le_of_not_lt hold) hn hleaf
      exact ⟨k, List.mem_append_right tokens hk, hmade⟩
  named id n hid hn := by
    by_cases hold : id.index < t.arena.size
    · rw [hgrows.grows.get?_eq id hold] at hn
      exact (h.named id n hid hn).mono hgrows.named (List.subset_append_left _ _)
    · exact (h'.named id n (Nat.le_of_not_lt hold) hn).mono (.refl _) (List.subset_append_right _ _)

/-- Where a node comes from: it has been made of what was read over between the two states, and no other
node was made there; or it is no leaf, and has no name. -/
inductive Node.Sourced (text : Array Char) (r s : ParserState) (n : Node) : Prop where
  | read {tokens : List Token} (harena : s.arena = r.arena) (hreads : ReadsOver text r.token tokens s.token)
      (hmade : n.IsLeaf → ∃ k ∈ tokens, n.MadeFrom k) (hnamed : n.NamedBy s.names tokens)
  | nameless (hleaf : ¬n.IsLeaf) (hnamed : n.NamedBy s.names [])

theorem Node.sourced_of_isToken {text : Array Char} {r s : ParserState} {n : Node}
    (h : n.kind.isToken = false) : n.Sourced text r s := by
  refine .nameless (fun hleaf => ?_) (namedBy_of_kind fun hkind => ?_)
  · exact Bool.false_ne_true (h.symm.trans hleaf.1)
  · rw [hkind] at h
    cases h

theorem Node.sourced_of_empty {text : Array Char} {r s : ParserState} {n : Node}
    (h : n.stop ≤ n.pos) (hnamed : n.NamedBy s.names []) : n.Sourced text r s :=
  .nameless (fun hleaf => absurd hleaf.2 (Nat.not_lt_of_le h)) hnamed

/-- The leaves are still tokens that were read over when a node is put into the arena that is one, or is
no leaf. -/
theorem Node.Sourced.readsLeaves {text : Array Char} {r s : ParserState} {n : Node}
    (h : n.Sourced text r s) (hleaves : ∃ tokens, r.ReadsLeaves text s tokens) :
    ∃ tokens, r.ReadsLeaves text (s.adding n) tokens := by
  cases h with
  | @read tokens harena hreads hmade hnamed =>
    have hnew {id : NodeId} {m : Node} (hid : r.arena.size ≤ id.index)
        (hm : (s.arena.push n).get? id = some m) : m = n := by
      rcases Arena.get?_push_cases hm with hold | ⟨-, rfl⟩
      · exact absurd (Arena.lt_size_of_get? (harena ▸ hold)) (Nat.not_lt_of_le hid)
      · rfl
    refine ⟨tokens, hreads, fun id m hid hm hleaf => ?_, fun id m hid hm => ?_⟩
    · cases hnew hid hm
      exact hmade hleaf
    · cases hnew hid hm
      exact hnamed
  | nameless hleaf hnamed =>
    obtain ⟨tokens, hleaves⟩ := hleaves
    refine ⟨tokens, hleaves.reads, fun id m hid hm hm' => ?_, fun id m hid hm => ?_⟩
    · rcases Arena.get?_push_cases hm with hold | ⟨-, rfl⟩
      · exact hleaves.made id m hid hold hm'
      · exact absurd hm' hleaf
    · rcases Arena.get?_push_cases hm with hold | ⟨-, rfl⟩
      · exact hleaves.named id m hid hold
      · exact hnamed.mono (.refl _) (List.nil_subset _)

/-! ## 3. Making nodes -/

/-- The parser went from one state to another and made nodes, of which those given belong to no
node yet. -/
structure Makes (text : Array Char) (s t : ParserState) (ids : List NodeId) : Prop extends
    ParserState.Grows s t where
  ok : t.Ok text
  forward : s.pos ≤ t.pos
  /-- New nodes have new children. -/
  fresh : ∀ id n, s.arena.size ≤ id.index → t.arena.get? id = some n →
    ∀ c ∈ n.children, s.arena.size ≤ c.index
  distinct : ids.Nodup
  young : ∀ c ∈ ids, s.arena.size ≤ c.index
  there : ∀ c ∈ ids, c.index < t.arena.size
  free : ∀ c ∈ ids, t.arena.Free c
  /-- New nodes are handed over, or belong to a node, or are left out for good. -/
  kept : ∀ id : NodeId, s.arena.size ≤ id.index → id.index < t.arena.size →
    id ∈ ids ∨ (∃ p n, t.arena.get? p = some n ∧ id ∈ n.children)
      ∨ (id ∉ ids ∧ (∃ whole, t.arena.LeftOut whole id) ∧ t.arena.Free id)
  /-- An error that was due, or was reported on the way, is due or is marked. -/
  told : s.errorPending = true ∨ s.log.size < t.log.size →
    t.errorPending = true ∨ (∃ c ∈ ids, t.arena.Marked c) ∨ t.arena.StrayMark
  /-- New leaves are tokens that were read over. -/
  leaves : ∃ tokens, s.ReadsLeaves text t tokens
  /-- New nodes break no rule, if no token is of a kind that there are rules for. -/
  lawful : s.token.kind.isNode = false → ∀ id n, s.arena.size ≤ id.index →
    t.arena.get? id = some n → n.Lawful t.arena

namespace Makes

variable {text : Array Char} {r s t u : ParserState} {ids ids' : List NodeId}

theorem log_le (h : Makes text s t ids) : s.log.size ≤ t.log.size := h.logged.size_le

theorem isNode_eq (h : Makes text s t ids) (hs : s.token.kind.isNode = false) :
    t.token.kind.isNode = false := by
  obtain ⟨tokens, hleaves⟩ := h.leaves
  exact hleaves.reads.isNode_eq hs

theorem children_lt (h : Makes text s t ids) {id : NodeId} {n : Node} (hn : t.arena.get? id = some n) :
    ∀ c ∈ n.children, c.index < t.arena.size := by
  intro c hc
  obtain ⟨child, hchild, -⟩ := (h.ok.sound.fits id n hn).get?_child hc
  exact Arena.lt_size_of_get? hchild

/-- No node is made while the arena stays as it is, and what is reported is due. -/
theorem of_arena_eq (h : s.Grows t) (hok : t.Ok text) (hpos : s.pos ≤ t.pos)
    (harena : t.arena = s.arena) (hreads : ∃ tokens, ReadsOver text s.token tokens t.token)
    (hpending : t.errorPending = true ∨ (t.errorPending = s.errorPending ∧ t.log = s.log)) :
    Makes text s t [] where
  toGrows := h
  ok := hok
  forward := hpos
  fresh id n hid hn c hc := absurd (Arena.lt_size_of_get? (harena ▸ hn)) (Nat.not_lt_of_le hid)
  distinct := .nil
  young := by simp
  there := by simp
  free := by simp
  kept id hid hlt := absurd (harena ▸ hlt) (Nat.not_lt_of_le hid)
  told hdue := by
    rcases hpending with hpending | ⟨hsame, hlog⟩
    · exact .inl hpending
    · refine .inl (hsame ▸ hdue.resolve_right ?_)
      simp [hlog]
  leaves := by
    obtain ⟨tokens, hreads⟩ := hreads
    have hnone (id : NodeId) (n : Node) (hid : s.arena.size ≤ id.index)
        (hn : t.arena.get? id = some n) : False :=
      Nat.not_lt_of_le hid (Arena.lt_size_of_get? (harena ▸ hn))
    exact ⟨tokens, hreads, fun id n hid hn => (hnone id n hid hn).elim,
      fun id n hid hn => (hnone id n hid hn).elim⟩
  lawful _ id n hid hn := absurd (Arena.lt_size_of_get? (harena ▸ hn)) (Nat.not_lt_of_le hid)

theorem refl (h : s.Ok text) : Makes text s s [] :=
  of_arena_eq (.refl s) h (Nat.le_refl _) rfl ⟨[], .here⟩ (.inr ⟨rfl, rfl⟩)

/-- A node that was made before is free after a run, if it was free before: new nodes have new
children. -/
theorem free_of_free (h : Makes text s t ids) {c : NodeId} (hc : s.arena.Free c)
    (hold : c.index < s.arena.size) : t.arena.Free c := by
  intro id n hn hmem
  by_cases hid : id.index < s.arena.size
  · rw [h.grows.get?_eq id hid] at hn
    exact hc id n hn hmem
  · exact absurd (h.fresh id n (Nat.le_of_not_lt hid) hn c hmem) (Nat.not_le_of_lt hold)

theorem trans (h : Makes text s t ids) (h' : Makes text t u ids') :
    Makes text s u (ids ++ ids') where
  toGrows := h.toGrows.trans h'.toGrows
  ok := h'.ok
  forward := Nat.le_trans h.forward h'.forward
  fresh id n hid hn c hc := by
    by_cases hold : id.index < t.arena.size
    · rw [h'.grows.get?_eq id hold] at hn
      exact h.fresh id n hid hn c hc
    · exact Nat.le_trans h.grows.size_le (h'.fresh id n (Nat.le_of_not_lt hold) hn c hc)
  distinct := by
    refine List.nodup_append.mpr ⟨h.distinct, h'.distinct, ?_⟩
    rintro c hc _ hc' rfl
    exact absurd (h'.young c hc') (Nat.not_le_of_lt (h.there c hc))
  young c hc := by
    rcases List.mem_append.mp hc with hc | hc
    · exact h.young c hc
    · exact Nat.le_trans h.grows.size_le (h'.young c hc)
  there c hc := by
    rcases List.mem_append.mp hc with hc | hc
    · exact Nat.lt_of_lt_of_le (h.there c hc) h'.grows.size_le
    · exact h'.there c hc
  free c hc := by
    rcases List.mem_append.mp hc with hc | hc
    · exact h'.free_of_free (h.free c hc) (h.there c hc)
    · exact h'.free c hc
  kept id hid hlt := by
    by_cases hold : id.index < t.arena.size
    · rcases h.kept id hid hold with hmem | ⟨p, n, hn, hchild⟩ | ⟨hout, ⟨whole, hleft⟩, hfree⟩
      · exact .inl (List.mem_append_left ids' hmem)
      · exact .inr (.inl ⟨p, n, h'.grows.get? hn, hchild⟩)
      · refine .inr (.inr ⟨fun hmem => ?_, ⟨whole, hleft.grows h'.grows⟩, h'.free_of_free hfree hold⟩)
        rcases List.mem_append.mp hmem with hmem | hmem
        · exact hout hmem
        · exact absurd (h'.young id hmem) (Nat.not_le_of_lt hold)
    · rcases h'.kept id (Nat.le_of_not_lt hold) hlt with hmem | hchild | ⟨hout, hleft⟩
      · exact .inl (List.mem_append_right ids hmem)
      · exact .inr (.inl hchild)
      · refine .inr (.inr ⟨fun hmem => ?_, hleft⟩)
        rcases List.mem_append.mp hmem with hmem | hmem
        · exact hold (h.there id hmem)
        · exact hout hmem
  told hdue := by
    by_cases hearly : s.errorPending = true ∨ s.log.size < t.log.size
    · rcases h.told hearly with hpending | ⟨c, hc, hmarked⟩ | hstray
      · rcases h'.told (.inl hpending) with hpending | ⟨c, hc, hmarked⟩ | hstray
        · exact .inl hpending
        · exact .inr (.inl ⟨c, List.mem_append_right ids hc, hmarked⟩)
        · exact .inr (.inr hstray)
      · exact .inr (.inl ⟨c, List.mem_append_left ids' hc, hmarked.grows h'.grows⟩)
      · exact .inr (.inr (hstray.grows h'.grows))
    · have hlate : t.log.size < u.log.size := by
        have := h.log_le
        rcases hdue with hpending | hlog
        · exact absurd (.inl hpending) hearly
        · omega
      rcases h'.told (.inr hlate) with hpending | ⟨c, hc, hmarked⟩ | hstray
      · exact .inl hpending
      · exact .inr (.inl ⟨c, List.mem_append_right ids hc, hmarked⟩)
      · exact .inr (.inr hstray)
  leaves := by
    obtain ⟨tokens, hleaves⟩ := h.leaves
    obtain ⟨tokens', hleaves'⟩ := h'.leaves
    exact ⟨tokens ++ tokens', hleaves.trans hleaves' h'.toGrows⟩
  lawful hs id n hid hn := by
    by_cases hold : id.index < t.arena.size
    · rw [h'.grows.get?_eq id hold] at hn
      exact (h.lawful hs id n hid hn).grows h'.grows (h.children_lt hn)
    · exact h'.lawful (h.isNode_eq hs) id n (Nat.le_of_not_lt hold) hn

/-- What a run in other surroundings makes, it makes here, where the surroundings are put back. -/
theorem inScope {scope : Scope} (h : Makes text { s with scope } t ids) :
    Makes text s { t with scope := s.scope } ids where
  grows := h.grows
  logged := h.logged
  named := h.named
  scope_eq := rfl
  fault_eq := h.fault_eq
  ok := ⟨h.ok.token, h.ok.faultless, h.ok.sound, h.ok.inside, h.ok.reported⟩
  forward := h.forward
  fresh := h.fresh
  distinct := h.distinct
  young := h.young
  there := h.there
  free := h.free
  kept := h.kept
  told := h.told
  leaves := by
    obtain ⟨tokens, hleaves⟩ := h.leaves
    exact ⟨tokens, hleaves.reads, hleaves.made, hleaves.named⟩
  lawful := h.lawful

/-- After a node has been put into the arena, every node made is that one, or belongs to a node, or is
left out. -/
theorem kept_adding (h : Makes text r s ids) {n : Node} (hchildren : ∀ c ∈ n.children, c ∈ ids)
    (hleft : ∀ c ∈ ids, c ∉ n.children → (s.arena.push n).LeftOut ⟨s.arena.size⟩ c) {id : NodeId}
    (hid : r.arena.size ≤ id.index) (hlt : id.index < s.arena.size + 1) :
    id ∈ [(⟨s.arena.size⟩ : NodeId)]
      ∨ (∃ p m, (s.arena.push n).get? p = some m ∧ id ∈ m.children)
      ∨ (id ∉ [(⟨s.arena.size⟩ : NodeId)] ∧ (∃ whole, (s.arena.push n).LeftOut whole id)
        ∧ (s.arena.push n).Free id) := by
  have hgrown := Arena.grows_push s.arena n
  rcases Nat.lt_succ_iff_lt_or_eq.mp hlt with hold | hnew
  · have hother : id ∉ [(⟨s.arena.size⟩ : NodeId)] := by
      rw [List.mem_singleton]
      rintro rfl
      exact absurd hold (Nat.lt_irrefl _)
    rcases h.kept id hid hold with hmem | ⟨p, m, hm, hchild⟩ | ⟨hout, ⟨whole, hleft'⟩, hfree⟩
    · by_cases hchild : id ∈ n.children
      · exact .inr (.inl ⟨_, n, Arena.get?_push_self s.arena n, hchild⟩)
      · exact .inr (.inr ⟨hother, ⟨_, hleft id hmem hchild⟩, (h.free id hmem).push hchild⟩)
    · exact .inr (.inl ⟨p, m, hgrown.get? hm, hchild⟩)
    · have hchild : id ∉ n.children := fun hchild => hout (hchildren id hchild)
      exact .inr (.inr ⟨hother, ⟨whole, hleft'.grows hgrown⟩, hfree.push hchild⟩)
  · exact .inl (List.mem_singleton.mpr (congrArg NodeId.mk hnew))

/-- An error is marked at a node that has been put into the arena, or below it, if it was due or was
marked at the nodes that it takes over. -/
theorem marked_adding (h : Makes text r s ids) {n : Node}
    (hleft : ∀ c ∈ ids, c ∉ n.children → (s.arena.push n).LeftOut ⟨s.arena.size⟩ c)
    (herror : s.errorPending = true → n.flags.hasError = true)
    (hdue : r.errorPending = true ∨ r.log.size < s.log.size) :
    (s.arena.push n).Marked ⟨s.arena.size⟩ ∨ (s.arena.push n).StrayMark := by
  have hgrown := Arena.grows_push s.arena n
  have hself := Arena.get?_push_self s.arena n
  rcases h.told hdue with hpending | ⟨c, hc, hmarked⟩ | hstray
  · exact .inl (.self (Arena.hasError_of_get? hself (herror hpending)))
  · by_cases hchild : c ∈ n.children
    · exact .inl (.child hself hchild (hmarked.grows hgrown))
    · exact ((hleft c hc hchild).hasError_or_strayMark (hmarked.grows hgrown)).imp_left .self
  · exact .inr (hstray.grows hgrown)

/-- Putting a node into the arena that takes over nodes made so far. Those that it does not take are
left out. -/
theorem alloc (h : Makes text r s ids) {n : Node}
    (hfits : (s.arena.push n).Fits ⟨s.arena.size⟩ n) (hchildren : ∀ c ∈ n.children, c ∈ ids)
    (hleft : ∀ c ∈ ids, c ∉ n.children → (s.arena.push n).LeftOut ⟨s.arena.size⟩ c)
    (herror : s.errorPending = true → n.flags.hasError = true)
    (hreported : n.flags.hasError = true → 0 < s.log.size) (hsourced : n.Sourced text r s)
    (hlawful : r.token.kind.isNode = false → n.Lawful s.arena) :
    Makes text r (s.adding n) [⟨s.arena.size⟩] where
  grows := h.grows.trans (Arena.grows_push _ _)
  logged := h.logged
  named := h.named
  scope_eq := h.scope_eq
  fault_eq := h.fault_eq
  ok := h.ok.adding hfits (fun c hc => h.free c (hchildren c hc)) hreported
  forward := h.forward
  fresh id m hid hm c hc := by
    rcases Arena.get?_push_cases hm with hold | ⟨-, rfl⟩
    · exact h.fresh id m hid hold c hc
    · exact h.young c (hchildren c hc)
  distinct := by simp
  young c hc := by
    rw [List.mem_singleton.mp hc]
    exact h.grows.size_le
  there c hc := by
    rw [List.mem_singleton.mp hc]
    simp [ParserState.adding]
  free c hc := by
    rw [List.mem_singleton.mp hc]
    exact h.ok.sound.free_push hfits
  kept id hid hlt := h.kept_adding hchildren hleft hid (by simpa [ParserState.adding] using hlt)
  told hdue :=
    .inr ((h.marked_adding hleft herror hdue).imp_left fun hmarked => ⟨_, List.mem_singleton_self _, hmarked⟩)
  leaves := hsourced.readsLeaves h.leaves
  lawful hr id m hid hm := by
    have hgrown := Arena.grows_push s.arena n
    rcases Arena.get?_push_cases hm with hold | ⟨-, rfl⟩
    · exact (h.lawful hr id m hid hold).grows hgrown (h.children_lt hold)
    · exact (hlawful hr).grows hgrown fun c hc => h.there c (hchildren c hc)

end Makes

/-! ## 4. Runs -/

/-- A run of the parser from one state to another, and the parts of a tree that it hands over: they
lie one after the other between the two places where the parser stood. -/
structure Run (text : Array Char) (s t : ParserState) (items : List Part) : Prop extends
    Makes text s t (childrenOf items) where
  placed : t.arena.SpansParts s.pos items t.pos

namespace Run

variable {text : Array Char} {r s t u : ParserState} {items items' : List Part}

theorem refl (h : s.Ok text) : Run text s s [] := ⟨.refl h, Nat.le_refl _⟩

theorem trans (h : Run text s t items) (h' : Run text t u items') :
    Run text s u (items ++ items') where
  toMakes := by simpa using h.toMakes.trans h'.toMakes
  placed := (h.placed.grows h'.grows).append h'.placed

/-- A run without parts before another one. -/
theorem after (h : Run text s t []) (h' : Run text t u items) : Run text s u items := h.trans h'

/-- A run without parts after another one. -/
theorem before (h : Run text s t items) (h' : Run text t u []) : Run text s u items := by
  simpa using h.trans h'

/-- A run that leaves the tree alone. It may read on and report errors. -/
theorem of_arena_eq (hs : s.Ok text) (h : s.Grows t) (harena : t.arena = s.arena)
    (hreads : ∃ tokens, ReadsOver text s.token tokens t.token) (htoken : t.token.InText text)
    (hpos : s.pos ≤ t.pos) (hinside : t.log.InText text.size)
    (hpending : t.errorPending = true ∨ (t.errorPending = s.errorPending ∧ t.log = s.log))
    (hreported : t.errorPending = true → 0 < t.log.size) : Run text s t [] where
  toMakes := by
    refine .of_arena_eq h ⟨htoken, ?_, ?_, hinside, ?_⟩ hpos harena hreads hpending
    · rw [h.fault_eq]
      exact hs.faultless
    · rw [harena]
      exact hs.sound
    · rintro (hdue | hmarked)
      · exact hreported hdue
      · rw [harena] at hmarked
        exact Nat.lt_of_lt_of_le (hs.reported (.inr hmarked)) h.logged.size_le
  placed := hpos

/-- A run in other surroundings, which are put back. -/
theorem inScope {scope : Scope} (h : Run text { s with scope } t items) :
    Run text s { t with scope := s.scope } items :=
  ⟨h.toMakes.inScope, h.placed⟩

/-- A run in another context. -/
theorem inContext {context : ContextFlags} (h : Run text (s.inContext context) t items) :
    Run text s (t.inContext s.scope.context) items := by
  have hback : t.inContext s.scope.context = { t with scope := s.scope } := by
    rw [ParserState.inContext, h.scope_eq]
    rfl
  rw [hback]
  exact h.inScope

/-- A run with other lists open. -/
theorem withLists {openLists : List ListContext} (h : Run text (s.withLists openLists) t items) :
    Run text s (t.withLists s.scope.openLists) items := by
  have hback : t.withLists s.scope.openLists = { t with scope := s.scope } := by
    rw [ParserState.withLists, h.scope_eq]
    rfl
  rw [hback]
  exact h.inScope

/-- A run one level deeper. -/
theorem deeper (h : Run text (s.atDepth (s.scope.depth + 1)) t items) :
    Run text s (t.atDepth (t.scope.depth - 1)) items := by
  have hback : t.atDepth (t.scope.depth - 1) = { t with scope := s.scope } := by
    rw [ParserState.atDepth, h.scope_eq]
    rfl
  rw [hback]
  exact h.inScope

/-- The parts of a run as one list. -/
theorem gather {list : NodeArray} (h : Run text s t (list.nodes.map Part.node))
    (hpos : s.pos ≤ list.pos) (hstop : list.stop ≤ t.pos)
    (hspan : t.arena.Spans list.pos list.nodes list.stop) : Run text s t [.array list] where
  toMakes := by simpa using h.toMakes
  placed := ⟨hpos, hspan, hstop⟩

/-- The parts of a run as a list that reaches from where the run started to where it ended. -/
theorem array {list : NodeArray} (h : Run text s t (list.nodes.map Part.node))
    (hpos : list.pos = s.pos) (hstop : list.stop = t.pos) : Run text s t [.array list] :=
  h.gather (Nat.le_of_eq hpos.symm) (Nat.le_of_eq hstop)
    (by simpa [hpos, hstop] using h.placed.children)

/-- An empty list where the parser stands. -/
theorem emptyList (h : s.Ok text) : Run text s s [.array (.empty s.pos)] :=
  (refl h).array rfl rfl

/-- Finishing a node that fits and takes over what a run has handed over, but for what is left
out. -/
theorem finishFits (h : Run text r s items) {n : Node}
    (hfits : (s.arena.push n).Fits ⟨s.arena.size⟩ n)
    (hchildren : ∀ c ∈ n.children, c ∈ childrenOf items)
    (hleft : ∀ c ∈ childrenOf items, c ∉ n.children → (s.arena.push n).LeftOut ⟨s.arena.size⟩ c)
    (hpos : r.pos ≤ n.pos) (hstop : n.stop ≤ s.pos)
    (herror : s.errorPending = true → n.flags.hasError = true)
    (hreported : n.flags.hasError = true → 0 < s.log.size) (hsourced : n.Sourced text r s)
    (hlawful : r.token.kind.isNode = false → n.Lawful s.arena) :
    Run text r (s.adding n) [.node ⟨s.arena.size⟩] where
  toMakes := h.toMakes.alloc hfits hchildren hleft herror hreported hsourced hlawful
  placed := ⟨n, Arena.get?_push_self _ _, hpos, hfits.pos_le_stop, hstop⟩

/-- Finishing a node of parts that a run has handed over, in their order. The others are left
out. -/
theorem finishLeaving (h : Run text r s items) {n : Node} (hparts : n.parts.Sublist items)
    (hleft : ∀ c ∈ childrenOf items, c ∉ n.children → (s.arena.push n).LeftOut ⟨s.arena.size⟩ c)
    (hpos : r.pos ≤ n.pos) (hspan : s.arena.SpansParts n.pos n.parts s.pos) (hstop : n.stop = s.pos)
    (hspreads : n.payload.spreadsProperty = false)
    (herror : s.errorPending = true → n.flags.hasError = true)
    (hreported : n.flags.hasError = true → 0 < s.log.size) (hsourced : n.Sourced text r s)
    (hlawful : r.token.kind.isNode = false → n.Lawful s.arena) :
    Run text r (s.adding n) [.node ⟨s.arena.size⟩] := by
  have hsub : n.children.Sublist (childrenOf items) := childrenOf_sublist hparts
  refine h.finishFits ?_ (fun c hc => hsub.subset hc) hleft hpos (Nat.le_of_eq hstop) herror
    hreported hsourced hlawful
  exact Arena.fits_of_spansParts rfl (hstop ▸ hspan) (h.distinct.sublist hsub) hspreads

/-- Finishing a node of all parts that a run has handed over, in their order. -/
theorem finish (h : Run text r s items) {n : Node} (hparts : n.parts = items)
    (hpos : r.pos ≤ n.pos) (hspan : s.arena.SpansParts n.pos items s.pos) (hstop : n.stop = s.pos)
    (hspreads : n.payload.spreadsProperty = false)
    (herror : s.errorPending = true → n.flags.hasError = true)
    (hreported : n.flags.hasError = true → 0 < s.log.size) (hsourced : n.Sourced text r s)
    (hlawful : r.token.kind.isNode = false → n.Lawful s.arena) :
    Run text r (s.adding n) [.node ⟨s.arena.size⟩] := by
  subst hparts
  refine h.finishLeaving (.refl _) (fun c hc hno => ?_) hpos hspan hstop hspreads herror hreported
    hsourced hlawful
  exact absurd hc hno

end Run

end ScriptSyntax
