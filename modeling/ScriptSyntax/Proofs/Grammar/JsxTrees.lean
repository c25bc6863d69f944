/-
  ScriptSyntax/Proofs/Grammar/JsxTrees.lean
  =========================================
  Trees of tags and texts are read as what they are.

  Within a tag tokens are read as anywhere, between tags as text.  A child is read
  again from its first character, which gives the token that was there.
-/
import Mathlib.Data.List.Forall2
import ScriptSyntax.Proofs.Grammar.TagNames
import ScriptSyntax.Proofs.Tree.JsxTree

namespace ScriptSyntax

open ScriptSyntax.Parser ScriptSyntax.JsxTree

variable {env : Surroundings} {rank : Nat} {r s : ParserState} {items : List Part}
variable {text : Array Char} {t next : Token} {name : PlainName} {rest cs : List Char} {c : Char}
variable {inExpression : Bool} {X : NodeId → Forest → Prop}

/-! ## 1. Names of tags -/

/-- Where the word is the token, the name of a tag is read up to a token of the kind, and is as said. -/
structure ReadsTagName (env : Surroundings) (word : Token) (k : Kind) (rest : List Char)
    (X : NodeId → Forest → Prop) : Prop where
  name : word.kind.isName = true
  keeps : ∀ id F G, X id F → F.Keeps G → X id G
  reads : ∀ rank s, env.Supplied rank s → s.token = word → jsxName.Ends env s
    (Yields env.file.text s fun id next F => next.IsBefore env.file.text k rest ∧ X id F)

theorem ReadsTagName.ne_greaterThan {word : Token} {k : Kind} {X : NodeId → Forest → Prop}
    (h : ReadsTagName env word k rest X) : word.kind ≠ .punct .greaterThan := by
  intro hkind
  have hname := h.name
  rw [hkind] at hname
  cases hname

/-- A plain name in a tag, where neither an extension nor a member of it follows. The identifier is all that is made
of it. -/
theorem Parser.jsxName_yields_plain (h : env.Supplied rank s) (hat : s.token.IsBefore env.file.text .identifier cs)
    (hend : EndsWord cs) (hhyphen : cs.head? ≠ some '-') (hread : s.token.next env.file.text = (next, []))
    (hdot : next.kind ≠ .punct .dot) : jsxName.Ends env s (Yields env.file.text s fun id u F =>
      u = next ∧ F.IsIdentifier id s.token.value ∧ s.forest.Gains (· = .identifier) F) := by
  have hextend : ReadingMode.extendJsxName.read env.file.text s.token = (s.token, []) :=
    hat.scanJsxName hend hhyphen
  refine .nodePos ((Way.start h).read (by decide) hextend fun t htoken hforest g => .isAt ?_)
  have hpos : t.pos = s.pos := congrArg Token.fullStart htoken
  rw [← htoken, ← hforest]
  rw [← htoken] at hat hread
  have hname : t.token.kind.isName = true := by
    rw [hat.kind_eq]
    rfl
  rw [hat.kind_eq]
  refine .no (((nameOr_yields _ g.ok hname hread).and (nameOr_gains _ hname)).bind fun id u hu => ?_)
  obtain ⟨hu, hgains⟩ := hu
  obtain ⟨hnext, hidentifier⟩ := hu.holds
  have g := g.goTook hu.quiet hu.took
  have hleave : u.token.kind ≠ .punct .dot := hnext ▸ hdot
  refine repeating_once (.leave hleave (.no (.pure ⟨id, rfl, g.quiet, ?_, hnext, hidentifier, hgains⟩)))
  exact hpos ▸ hu.took

/-- A plain name before the end of its tag. -/
theorem readsTagName_plain {word : Token} {k : Kind}
    (hat : word.IsBefore env.file.text .identifier (c :: cs)) (hvalue : word.value = name.text)
    (hc : c = '>' ∨ c = '/') (hread : word.next env.file.text = (next, []))
    (hnext : next.IsBefore env.file.text k rest) (hdot : k ≠ .punct .dot) :
    ReadsTagName env word k rest fun id F => F.IsIdentifier id name.text where
  name := by
    rw [hat.kind_eq]
    rfl
  keeps _ _ _ := Forest.IsIdentifier.keeps
  reads := by
    rintro rank s h rfl
    have hend : EndsWord (c :: cs) := by
      rintro _ ⟨⟩
      rcases hc with rfl | rfl <;> decide
    have hhyphen : (c :: cs).head? ≠ some '-' := by
      rcases hc with rfl | rfl <;> simp
    refine (jsxName_yields_plain h hat hend hhyphen hread (hnext.kind_eq ▸ hdot)).mono fun id t ht => ht.mono ?_
    rintro id u F ⟨rfl, hidentifier, -⟩
    exact ⟨hnext, hvalue ▸ hidentifier⟩

namespace Token.IsBefore

variable {k : Kind}

/-- A plain name before the bracket that ends the tag. -/
theorem readsPlain (hat : t.IsBefore env.file.text k (name.text.toList ++ '>' :: rest)) :
    ∃ word, t.next env.file.text = (word, [])
      ∧ ReadsTagName env word (.punct .greaterThan) rest fun id F => F.IsIdentifier id name.text := by
  obtain ⟨word, hword, hname, hvalue⟩ := hat.name (by rintro _ ⟨⟩; decide)
  obtain ⟨angle, hangle, hend⟩ := hname.greaterThan
  exact ⟨word, hword, readsTagName_plain hname hvalue (.inl rfl) hangle hend (by simp)⟩

/-- A plain name before the slash of a tag that is an element by itself. -/
theorem readsPlain_slash (hat : t.IsBefore env.file.text k (name.text.toList ++ '/' :: '>' :: rest)) :
    ∃ word, t.next env.file.text = (word, [])
      ∧ ReadsTagName env word (.punct .slash) ('>' :: rest) fun id F => F.IsIdentifier id name.text := by
  obtain ⟨word, hword, hname, hvalue⟩ := hat.name (by rintro _ ⟨⟩; decide)
  obtain ⟨slash, hslash, hend⟩ := hname.slash
  exact ⟨word, hword, readsTagName_plain hname hvalue (.inr rfl) hslash hend (by simp)⟩

end Token.IsBefore

namespace Parser

theorem tagName_reads {kind : NodeKind} {id tag : NodeId} {attributes : Option NodeId}
    (h : s.forest.Shows id (.node kind) (.jsxTag tag attributes)) :
    (tagName id).Ends env s fun found t => found = tag ∧ t = s := by
  obtain ⟨n, hn, -, hpayload⟩ := h
  refine .node hn ?_
  rw [hpayload]
  exact .pure ⟨rfl, rfl⟩

/-- Tags of one name are not reported. -/
theorem checkTagNames_leaves {kind kind' : NodeKind} {opening closing tag tag' : NodeId}
    {attributes attributes' : Option NodeId}
    (hopening : s.forest.Shows opening (.node kind) (.jsxTag tag attributes))
    (hclosing : s.forest.Shows closing (.node kind') (.jsxTag tag' attributes'))
    (hsame : s.arena.sameTagName? tag tag' = some true) :
    (checkTagNames opening closing).Ends env s fun _ t => t = s := by
  refine .leaves (tagName_reads hopening) (.leaves (tagName_reads hclosing) (.get ?_))
  rw [hsame]
  exact .pure rfl

/-! ## 2. Attributes -/

/-- Where the tag ends there are no attributes. -/
theorem jsxAttributes_reads (h : s.Ok env.file.text)
    (hkind : s.token.kind = .punct .greaterThan ∨ s.token.kind = .punct .slash) :
    jsxAttributes.Ends env s fun id t => Quiet env.file.text s t [.node id] ∧ t.token = s.token
      ∧ ∃ list, t.forest.Shows id (.node .jsxAttributes) (.jsxAttributes list) ∧ list.nodes = [] := by
  have hends (lists : List ListContext) : (endsList .jsxAttributes).answer env (s.withLists lists) = true := by
    unfold endsList
    rw [answer_kind]
    have hkind : (s.withLists lists).token.kind = .punct .greaterThan
      ∨ (s.withLists lists).token.kind = .punct .slash := hkind
    rcases hkind with hkind | hkind <;> rw [hkind] <;> rfl
  have hlist : (elements .jsxAttributes jsxAttribute).Ends env s fun list t =>
      t = s ∧ list.nodes = [] ∧ list.pos = s.pos ∧ list.stop = s.pos := by
    refine .inList (.nodePos (Ends.bind (repeating_once (P := fun read t => read = []
      ∧ t = s.withLists (.jsxAttributes :: s.scope.openLists)) ?_) ?_))
    · exact .asked (endsList_asks _ (h.inScope _)) (hends _) (.yes (.pure ⟨[], rfl, rfl, rfl⟩))
    · rintro _ _ ⟨rfl, rfl⟩
      exact .nodePos (.pure ⟨rfl, rfl, rfl, rfl⟩)
  have hquiet (list : NodeArray) (hnodes : list.nodes = []) (hpos : list.pos = s.pos)
      (hstop : list.stop = s.pos) : Quiet env.file.text s s [.array list] := by
    refine ⟨Run.array ?_ hpos hstop, rfl⟩
    rw [hnodes]
    exact .refl h
  refine .nodePos (hlist.bind ?_)
  rintro list _ ⟨rfl, hnodes, hpos, hstop⟩
  have hquiet := hquiet list hnodes hpos hstop
  refine (finishProduction_quiet hquiet rfl rfl rfl).mono fun id t ht => ?_
  exact ⟨ht.quiet, ht.token, list, ht.shows, hnodes⟩

/-! ## 3. Tags -/

/-- Between tags the parser goes on to a child or to the tag that closes. -/
theorem scanJsx_reads (h : s.Ok env.file.text) (hkind : s.token.kind ≠ .endOfFile)
    (hat : TextAt env.file.text s.token.stop cs) (hcs : StartsChild cs) :
    (advance .scanJsx).Ends env s fun _ t => Quiet env.file.text s t [] ∧ s.pos < t.pos
      ∧ t.forest = s.forest ∧ t.token.IsAtChild env.file.text cs := by
  obtain ⟨next, hread, hnext⟩ := Token.exists_isAtChild hat hcs
  have hread : ReadingMode.scanJsx.read env.file.text s.token = (next, []) := hread
  have hquiet : (advance .scanJsx).Ends env s _ :=
    advance_quiet h (ReadingMode.fitsAt_of_movesOn rfl) hread
  have htook : (advance .scanJsx).Gives env true s s := advance_takes h rfl hkind
  refine (hquiet.and htook).mono fun _ t ht => ?_
  exact ⟨ht.1.1, ht.2.ahead rfl, ht.1.2.2, ht.1.2.1 ▸ hnext⟩

end Parser

/-- What may stand after a tree: the semicolon that ends the text, or else what stands between tags. -/
def MayFollow : Bool → List Char → Prop
  | true, cs => cs = [';']
  | false, cs => StartsChild cs

/-- The token after a tree, where the text goes on as given. -/
def Follows (text : Array Char) : Bool → List Char → Token → Prop
  | true, _, t => LastSemicolon text t
  | false, cs, t => t.IsAtChild text cs

namespace Parser

/-- After the bracket that ends a tag the next token is read as one after an expression, or as one
between tags. -/
theorem jsxTagEnd_reads (h : env.Supplied rank s)
    (hat : s.token.IsBefore env.file.text (.punct .greaterThan) rest) (hrest : MayFollow inExpression rest) :
    (jsxTagEnd inExpression).Ends env s fun _ t => Quiet env.file.text s t [] ∧ s.pos < t.pos
      ∧ t.forest = s.forest ∧ Follows env.file.text inExpression rest t.token := by
  have hkind := hat.kind_eq
  cases inExpression with
  | true =>
    cases hrest
    obtain ⟨next, hnext, hlast⟩ := hat.lastSemicolon
    refine .yes ((Way.start h).takeExpected hkind nofun hnext fun t htoken hforest htook g => .pure ?_)
    exact ⟨g.quiet, htook, hforest, htoken ▸ hlast⟩
  | false =>
    have hrequire : (require (.punct .greaterThan) none).Ends env s fun b t => b = true ∧ t = s := by
      refine .kind (.ite (fun _ => ⟨rfl, rfl⟩) fun hno => ?_)
      simp [hkind] at hno
    exact .no (.leaves hrequire (scanJsx_reads h.ok (by simp [hkind]) hat.textAt hrest))

/-- The name in a tag and the place of its attributes, which are none. -/
theorem tagHead_reads {β : Type} {f : NodeId → NodeId → Parser β} {Q : β → ParserState → Prop} {k : Kind}
    (g : Way env rank r s []) (hname : ReadsTagName env s.token k rest X)
    (hk : k = .punct .greaterThan ∨ k = .punct .slash)
    (hf : ∀ tag attributes t list, t.token.IsBefore env.file.text k rest → s.pos < t.pos → X tag t.forest →
      t.forest.Shows attributes (.node .jsxAttributes) (.jsxAttributes list) → list.nodes = [] →
      Way env Production.topRank r t [.node tag, .node attributes] → (f tag attributes).Ends env t Q) :
    (jsxName >>= fun tag => jsxAttributes >>= f tag).Ends env s Q := by
  refine g.step (hname.reads _ _ g.supplied rfl) fun tag t ht _ htook g => ?_
  obtain ⟨hbefore, htag⟩ := ht
  refine (jsxAttributes_reads g.ok (hbefore.kind_eq ▸ hk)).bind fun attributes u hu => ?_
  obtain ⟨hquiet, hsame, list, hshows, hlist⟩ := hu
  have hpos : u.pos = t.pos := congrArg Token.fullStart hsame
  exact hf tag attributes u list (hsame ▸ hbefore) (hpos ▸ htook) (hname.keeps _ _ _ htag hquiet.keeps) hshows
    hlist (g.go hquiet)

theorem jsxOpening_yields_element {word : Token} (h : env.Supplied rank s)
    (hkind : s.token.kind = .punct .lessThan) (hword : s.token.next env.file.text = (word, []))
    (hname : ReadsTagName env word (.punct .greaterThan) cs X) (hcs : StartsChild cs) :
    (jsxOpening inExpression).Ends env s (Yields env.file.text s fun id next F =>
      next.IsAtChild env.file.text cs ∧ F.IsTagWith .jsxOpeningElement X id) := by
  refine .nodePos ((Way.start h).takeExpected hkind nofun hword fun t htoken _ htook g => ?_)
  rw [← htoken] at hname
  refine .isAt ?_
  rw [beq_eq_false_iff_ne.mpr hname.ne_greaterThan]
  refine .no (tagHead_reads g hname (.inl rfl) ?_)
  intro tag attributes u list hend htook' htag hshows hlist g
  refine .isAt ?_
  rw [hend.kind_eq]
  refine .yes ((scanJsx_reads g.ok (by simp [hend.kind_eq]) hend.textAt hcs).bind fun _ v hv => ?_)
  obtain ⟨hquiet, htook'', hforest, hchild⟩ := hv
  refine ((g.goTook hquiet htook'').parts (List.append_nil _)).finish rfl (by omega) rfl rfl ?_
  intro id F hkeeps hshows'
  rw [hforest] at hkeeps
  exact ⟨hchild, tag, attributes, list, hshows', hname.keeps _ _ _ htag hkeeps, hshows.keeps hkeeps, hlist⟩

theorem jsxOpening_yields_selfClosing {word : Token} (h : env.Supplied rank s)
    (hkind : s.token.kind = .punct .lessThan) (hword : s.token.next env.file.text = (word, []))
    (hname : ReadsTagName env word (.punct .slash) ('>' :: rest) X) (hrest : MayFollow inExpression rest) :
    (jsxOpening inExpression).Ends env s (Yields env.file.text s fun id next F =>
      Follows env.file.text inExpression rest next ∧ F.IsTagWith .jsxSelfClosingElement X id) := by
  refine .nodePos ((Way.start h).takeExpected hkind nofun hword fun t htoken _ htook g => ?_)
  rw [← htoken] at hname
  refine .isAt ?_
  rw [beq_eq_false_iff_ne.mpr hname.ne_greaterThan]
  refine .no (tagHead_reads g hname (.inr rfl) ?_)
  intro tag attributes u list hend htook' htag hshows hlist g
  obtain ⟨angle, hangle, hclose⟩ := hend.greaterThan
  refine .isAt ?_
  rw [hend.kind_eq]
  refine .no (g.takeExpected hend.kind_eq nofun hangle fun v htoken' hforest htook'' g => ?_)
  rw [← htoken'] at hclose
  refine (jsxTagEnd_reads g.supplied hclose hrest).bind fun _ w hw => ?_
  obtain ⟨hquiet, htook''', hforest', hfollows⟩ := hw
  refine ((g.goTook hquiet htook''').parts (List.append_nil _)).finish rfl (by omega) rfl rfl ?_
  intro id F hkeeps hshows'
  rw [hforest', hforest] at hkeeps
  exact ⟨hfollows, tag, attributes, list, hshows', hname.keeps _ _ _ htag hkeeps, hshows.keeps hkeeps, hlist⟩

theorem jsxOpening_yields_fragment (h : env.Supplied rank s)
    (hat : s.token.IsBefore env.file.text (.punct .lessThan) ('>' :: cs)) (hcs : StartsChild cs) :
    (jsxOpening inExpression).Ends env s (Yields env.file.text s fun id next F =>
      next.IsAtChild env.file.text cs ∧ F.Shows id (.node .jsxOpeningFragment) .token) := by
  obtain ⟨angle, hangle, hend⟩ := hat.greaterThan
  refine .nodePos ((Way.start h).takeExpected hat.kind_eq nofun hangle fun t htoken _ htook g => ?_)
  rw [← htoken] at hend
  refine .isAt ?_
  rw [hend.kind_eq]
  refine .yes ((scanJsx_reads g.ok (by simp [hend.kind_eq]) hend.textAt hcs).bind fun _ u hu => ?_)
  obtain ⟨hquiet, htook', -, hchild⟩ := hu
  exact (g.goTook hquiet htook').finish rfl (by omega) rfl rfl fun id F _ hshows => ⟨hchild, hshows⟩

theorem jsxClosing_yields {word : Token} (h : env.Supplied rank s)
    (hkind : s.token.kind = .punct .lessThanSlash) (hword : s.token.next env.file.text = (word, []))
    (hname : ReadsTagName env word (.punct .greaterThan) rest X) (hrest : MayFollow inExpression rest) :
    (jsxClosing inExpression).Ends env s (Yields env.file.text s fun id next F =>
      Follows env.file.text inExpression rest next ∧ F.IsClosingTagWith X id) := by
  refine .nodePos ((Way.start h).takeExpected hkind nofun hword fun t htoken _ htook g => ?_)
  refine g.step (hname.reads _ _ g.supplied htoken) fun tag u hu _ htook' g => ?_
  obtain ⟨hend, htag⟩ := hu
  refine (jsxTagEnd_reads g.supplied hend hrest).bind fun _ v hv => ?_
  obtain ⟨hquiet, htook'', hforest, hfollows⟩ := hv
  refine ((g.goTook hquiet htook'').parts (List.append_nil _)).finish rfl (by omega) rfl rfl ?_
  intro id F hkeeps hshows
  rw [hforest] at hkeeps
  exact ⟨hfollows, tag, hshows, hname.keeps _ _ _ htag hkeeps⟩

theorem jsxClosingFragment_yields (h : env.Supplied rank s)
    (hat : s.token.IsBefore env.file.text (.punct .lessThanSlash) ('>' :: rest))
    (hrest : MayFollow inExpression rest) :
    (jsxClosingFragment inExpression).Ends env s (Yields env.file.text s fun id next F =>
      Follows env.file.text inExpression rest next ∧ F.Shows id (.node .jsxClosingFragment) .token) := by
  obtain ⟨angle, hangle, hend⟩ := hat.greaterThan
  refine .nodePos ((Way.start h).takeExpected hat.kind_eq nofun hangle fun t htoken _ htook g => ?_)
  rw [← htoken] at hend
  refine .kindIs ?_
  rw [hend.kind_eq]
  refine .no ((jsxTagEnd_reads g.supplied hend hrest).bind fun _ u hu => ?_)
  obtain ⟨hquiet, htook', -, hfollows⟩ := hu
  exact (g.goTook hquiet htook').finish rfl (by omega) rfl rfl fun id F _ hshows => ⟨hfollows, hshows⟩

/-! ## 4. Children -/

/-- A child is read again as the token that is there. -/
theorem rescanJsx_reads (h : s.Ok env.file.text) (hpos : 0 < s.pos)
    (hat : s.token.IsAtChild env.file.text cs) :
    (advance .rescanJsx).Ends env s fun _ t =>
      Quiet env.file.text s t [] ∧ t.token = s.token ∧ t.forest = s.forest :=
  advance_quiet h ⟨nofun, fun _ => hpos⟩ hat.scan_eq

/-- A text becomes a literal of its characters. -/
theorem jsxText_yields {run : JsxRun} (h : s.Ok env.file.text)
    (hat : s.token.IsAtChild env.file.text (run.chars ++ rest)) (htag : StartsTag rest) :
    jsxText.Ends env s (Yields env.file.text s fun id next F =>
      next.IsAtChild env.file.text rest ∧ F.IsJsx id (.text run)) := by
  obtain ⟨hkind, hvalue, htext⟩ := hat.run htag
  have hend : s.token.kind ≠ .endOfFile := by
    intro heq
    rw [heq] at hkind
    cases hkind
  let node : Node := {
    kind := s.token.kind, pos := s.pos, stop := s.pos
    payload := .literal s.token.value s.token.flags }
  have hsourced : (advance .scanJsx).Ends env s fun _ t => node.SourcedAt env.file.text s t := by
    have hglance : Glance env.file.text s (advance .scanJsx env s).2 :=
      advance_ends .scanJsx h (.of_ne (by decide) (by decide))
    refine Node.sourcedAt_of_read rfl hglance.arena (token_advance .scanJsx env s) rfl (.inl rfl) ?_
      fun _ _ _ heq => by cases heq
    intro value flags hliteral
    cases hliteral
    exact ⟨rfl, rfl⟩
  have hread := (scanJsx_reads h hend htext (.inl htag)).and hsourced
  refine .token (hread.bind fun _ t ht => ?_)
  obtain ⟨⟨hquiet, htook, -, hchild⟩, hsourced⟩ := ht
  refine (finish_quiet hquiet rfl rfl rfl rfl hsourced fun hs => Node.lawful_of_isNode hs).mono
    fun id u hu => ?_
  have hpos : u.pos = t.pos := congrArg Token.fullStart hu.token
  have hshows : u.forest.Shows id s.token.kind (.literal s.token.value s.token.flags) := hu.shows
  rw [hvalue] at hshows
  exact ⟨hu.quiet, hpos ▸ htook, hu.token ▸ hchild, .text hkind hshows⟩

end Parser

/-- Called as an element the tree is read, where it is not nested too deeply. -/
def JsxTree.IsRead (tree : JsxTree) : Prop :=
  ∀ (env : Surroundings) (rank : Nat) (s : ParserState) (inExpression : Bool) (rest : List Char),
    env.Supplied rank s → s.scope.depth + tree.depth ≤ maxDepth →
    s.token.IsBefore env.file.text (.punct .lessThan) (tree.before rest).tail →
    MayFollow inExpression rest → (jsxElement inExpression).Ends env s (Yields env.file.text s
      fun id next F => Follows env.file.text inExpression rest next ∧ F.IsJsx id tree)

/-- The children can be read one after the other. -/
structure JsxTree.AreRead (children : List JsxTree) : Prop where
  apart : JsxTree.Apart children
  read : ∀ t ∈ children, t.isText = false → t.IsRead

/-- Of the children some have been read, and the others are ahead. -/
def ReadingChildren (env : Surroundings) (r : ParserState) (children : List JsxTree) (rest : List Char)
    (read : List NodeId) (t : ParserState) : Prop :=
  Way env Production.topRank r t (readParts read) ∧ ∃ done left, done ++ left = children
    ∧ JsxTree.Apart left ∧ List.Forall₂ t.forest.IsJsx read.reverse done
    ∧ t.token.IsAtChild env.file.text (beforeAll left ('<' :: '/' :: rest))

/-- All children have been read. -/
def ReadChildren (env : Surroundings) (r : ParserState) (children : List JsxTree) (rest : List Char)
    (read : List NodeId) (t : ParserState) : Prop :=
  Way env Production.topRank r t (readParts read) ∧ List.Forall₂ t.forest.IsJsx read.reverse children
    ∧ t.token.IsBefore env.file.text (.punct .lessThanSlash) rest

namespace Parser

variable {opening : NodeId} {tree : JsxTree} {children : List JsxTree}

theorem jsxChild_leaves (h : s.Ok env.file.text) (hpos : 0 < s.pos)
    (hat : s.token.IsAtChild env.file.text ('<' :: '/' :: rest)) :
    (jsxChild opening).Ends env s fun found t => found = none ∧ Quiet env.file.text s t []
      ∧ t.token = s.token ∧ t.forest = s.forest := by
  refine (rescanJsx_reads h hpos hat).bind fun _ t ht => .kind ?_
  rw [ht.2.1, hat.closing.kind_eq]
  exact .pure ⟨rfl, ht⟩

/-- An element among the children is read one level deeper. -/
theorem nestedElement_yields (hread : tree.IsRead) (h : env.Supplied Production.topRank s)
    (hdepth : s.scope.depth + tree.depth < maxDepth)
    (hat : s.token.IsBefore env.file.text (.punct .lessThan) (tree.before rest).tail)
    (hrest : StartsChild rest) : (nested .expressionExpected (parse (.jsxElement false))).Ends env s
      fun found t => Yields env.file.text s (fun id next F =>
        next.IsAtChild env.file.text rest ∧ F.IsJsx id tree) found.1 t := by
  have hbelow : s.scope.depth < maxDepth := Nat.lt_of_le_of_lt (Nat.le_add_right _ _) hdepth
  have hdeeper : s.scope.depth + 1 + tree.depth ≤ maxDepth := by omega
  have hsupplied := h.inScope { s.scope with depth := s.scope.depth + 1 }
  refine (nested_yields .expressionExpected hbelow ?_).mono fun _ t ht => ht.2
  refine parse_of_body hsupplied (Production.rank_lt_topRank _) fun inner hfile hinner => ?_
  rw [← hfile] at hat ⊢
  exact hread inner _ _ false rest hinner hdeeper hat hrest

/-- A child that is a text, or an element one level deeper. -/
theorem jsxChild_yields (hread : tree.isText = false → tree.IsRead) (h : env.Supplied Production.topRank s)
    (hpos : 0 < s.pos) (hdepth : tree.isText = false → s.scope.depth + tree.depth < maxDepth)
    (hat : s.token.IsAtChild env.file.text (tree.before rest)) (hrest : StartsChild rest)
    (htag : tree.isText = true → StartsTag rest) :
    (jsxChild opening).Ends env s fun found t => ∃ id, found = some id
      ∧ Yields env.file.text s (fun id next F => next.IsAtChild env.file.text rest ∧ F.IsJsx id tree)
        id t := by
  refine (rescanJsx_reads h.ok hpos hat).bind fun _ t ht => .kind ?_
  obtain ⟨hquiet, htoken, -⟩ := ht
  have hsame : t.pos = s.pos := congrArg Token.fullStart htoken
  -- Reading the child again took nothing, so what is read from there is read from the start.
  have hdone {X : NodeId → Token → Forest → Prop} {id : NodeId} {u : ParserState}
      (hu : Yields env.file.text t X id u) : Yields env.file.text s X id u :=
    ⟨hquiet.after hu.quiet, hsame ▸ hu.took, hu.holds⟩
  rw [← htoken] at hat
  cases hkind : tree.isText with
  | false =>
    obtain ⟨c, more, hcs, -, hslash, -⟩ := exists_before hkind rest
    have hangle : t.token.IsBefore env.file.text (.punct .lessThan) (tree.before rest).tail := by
      rw [hcs] at hat ⊢
      exact hat.opening hslash
    have hdepth := hdepth hkind
    rw [← hquiet.scope_eq] at hdepth
    have hsupplied := h.later hquiet.ok hquiet.forward
    have helement := nestedElement_yields (hread hkind) hsupplied hdepth hangle hrest
    rw [hangle.kind_eq]
    exact helement.bind fun found u hu => .pure ⟨found.1, rfl, hdone hu⟩
  | true =>
    cases tree with
    | text run =>
      have htext := jsxText_yields hquiet.ok hat (htag rfl)
      rcases Kind.eq_of_isJsxText (hat.run (htag rfl)).1 with hkind | hkind
      all_goals
        rw [hkind]
        exact htext.bind fun id u hu => .pure ⟨id, rfl, hdone hu⟩
    | _ => cases hkind

/-- One more child is read, or none is left and the closing tag is ahead. -/
theorem jsxChild_leads {read : List NodeId} (hchildren : AreRead children) (hpos : 0 < r.pos)
    (hdepth : r.scope.depth + depthOfChildren children ≤ maxDepth)
    (h : ReadingChildren env r children rest read s) :
    (jsxChild opening).Ends env s fun found t =>
      Turn.Leads (ReadingChildren env r children rest) (ReadChildren env r children rest) s
        (found.elim (.done read) fun child => .again (child :: read)) t := by
  obtain ⟨g, done, left, hall, hleft, hdone, hat⟩ := h
  have hpos : 0 < s.pos := Nat.lt_of_lt_of_le hpos g.quiet.forward
  cases left with
  | nil =>
    refine (jsxChild_leaves g.ok hpos hat).mono ?_
    rintro _ t ⟨rfl, hquiet, htoken, hforest⟩
    rw [List.append_nil] at hall
    refine ⟨⟨(g.go hquiet).parts (List.append_nil _), ?_, htoken ▸ hat.closing⟩, hquiet.forward⟩
    rw [hforest, ← hall]
    exact hdone
  | cons child left =>
    have hmem : child ∈ children := by simp [← hall]
    have hbelow (htag : child.isText = false) : s.scope.depth + child.depth < maxDepth := by
      have hlt := depth_lt_of_mem hmem htag
      exact g.quiet.depth_lt (by omega)
    have htext (htext : child.isText = true) : StartsTag (beforeAll left ('<' :: '/' :: rest)) := by
      cases child with
      | text run => exact hleft.startsTag (startsTag_closing rest)
      | _ => cases htext
    have hrest := hleft.tail.startsChild (startsTag_closing rest)
    refine (jsxChild_yields (hchildren.read child hmem) g.supplied hpos hbelow hat hrest htext).mono ?_
    rintro _ t ⟨id, rfl, ht⟩
    have g := (g.goTook ht.quiet ht.took).parts (readParts_cons id read).symm
    refine ⟨⟨g, done ++ [child], left, by simpa using hall, hleft.tail, ?_, ht.holds.1⟩, ht.took⟩
    rw [List.reverse_cons]
    exact List.rel_append (Forest.allJsxKeep ht.quiet.keeps hdone) (.cons ht.holds.2 .nil)

/-- The children of an element or a fragment are read up to its closing tag. -/
theorem jsxChildren_reads (hchildren : AreRead children) (h : env.Supplied Production.topRank s)
    (hpos : 0 < s.pos) (hdepth : s.scope.depth + depthOfChildren children ≤ maxDepth)
    (hat : s.token.IsAtChild env.file.text (beforeAll children ('<' :: '/' :: rest))) :
    (jsxChildren opening).Ends env s fun list t => Quiet env.file.text s t [.array list]
      ∧ t.token.IsBefore env.file.text (.punct .lessThanSlash) rest
      ∧ List.Forall₂ t.forest.IsJsx list.nodes children := by
  let inner := s.withLists (.jsxChildren :: s.scope.openLists)
  have hstart : ReadingChildren env inner children rest [] inner :=
    ⟨.start (h.inScope _), [], children, rfl, hchildren.apart, .nil, hat⟩
  refine .inList (.nodePos ((repeating_ends (Q := ReadChildren env inner children rest) hstart
    (fun _ _ ht => ht.1.ok.pos_le_size) fun read t ht => ?_).bind fun read t ht => .nodePos (.pure ?_)))
  · refine (jsxChild_leads (r := inner) hchildren hpos hdepth ht).bind ?_
    rintro (_ | child) u hu <;> exact .pure hu
  · obtain ⟨⟨g, hall, hat⟩, -⟩ := ht
    exact ⟨⟨(g.quiet.toRun.array rfl rfl).withLists, g.quiet.log_eq⟩, hat, hall⟩

/-! ## 5. Elements -/

/-- After an opening tag the children are read, and the closing tag is ahead. -/
theorem jsxChildren_step {β : Type} {f : NodeArray → Parser β} {Q : β → ParserState → Prop}
    (hchildren : AreRead children) (g : Way env Production.topRank r s [.node opening])
    (htook : r.pos < s.pos) (hdepth : s.scope.depth + depthOfChildren children ≤ maxDepth)
    (hat : s.token.IsAtChild env.file.text (beforeAll children ('<' :: '/' :: rest)))
    (hf : ∀ list t, t.token.IsBefore env.file.text (.punct .lessThanSlash) rest →
      List.Forall₂ t.forest.IsJsx list.nodes children → s.forest.Keeps t.forest → r.pos < t.pos →
      Way env Production.topRank r t [.node opening, .array list] → (f list).Ends env t Q) :
    (jsxChildren opening >>= f).Ends env s Q := by
  have hpos : 0 < s.pos := Nat.zero_lt_of_lt htook
  refine (jsxChildren_reads hchildren g.supplied hpos hdepth hat).bind fun list t ht => ?_
  obtain ⟨hquiet, hat, hall⟩ := ht
  exact hf list t hat hall hquiet.keeps (Nat.lt_of_lt_of_le htook hquiet.forward) (g.go hquiet)

/-- The children of an element and its closing tag, before the names of the tags are compared. -/
theorem jsxElementRest_ends {Y : NodeId → Token → Forest → Prop} {Q : NodeId → ParserState → Prop}
    (hchildren : AreRead children) (g : Way env Production.topRank r s [.node opening]) (htook : r.pos < s.pos)
    (hdepth : s.scope.depth + depthOfChildren children ≤ maxDepth)
    (hat : s.token.IsAtChild env.file.text (beforeAll children ('<' :: '/' :: rest)))
    (hclosing : ∀ t, env.Supplied Production.topRank t →
      t.token.IsBefore env.file.text (.punct .lessThanSlash) rest →
      (jsxClosing inExpression).Ends env t (Yields env.file.text t Y))
    (hrest : ∀ list closing t, Y closing t.token t.forest → List.Forall₂ t.forest.IsJsx list.nodes children →
      s.forest.Keeps t.forest → r.pos < t.pos →
      Way env Production.topRank r t [.node opening, .array list, .node closing] →
      (checkTagNames opening closing >>= fun _ =>
        finishProduction .jsxElement r.pos (.jsxElement opening list closing)).Ends env t Q) :
    (jsxElementRest r.pos opening inExpression).Ends env s Q := by
  refine jsxChildren_step hchildren g htook hdepth hat fun list t hat hall hkeeps htook g => ?_
  refine g.step (hclosing t g.supplied hat) fun closing u hu hkeeps' htook' g => ?_
  exact hrest list closing u hu (Forest.allJsxKeep hkeeps' hall) (hkeeps.trans hkeeps') (Nat.lt_trans htook htook') g

theorem jsxElementRest_yields (hchildren : AreRead children)
    (g : Way env Production.topRank r s [.node opening]) (htook : r.pos < s.pos)
    (hdepth : s.scope.depth + depthOfChildren children ≤ maxDepth)
    (hopening : s.forest.IsTag .jsxOpeningElement name opening)
    (hat : s.token.IsAtChild env.file.text
      (beforeAll children ('<' :: '/' :: (name.text.toList ++ '>' :: rest))))
    (hrest : MayFollow inExpression rest) :
    (jsxElementRest r.pos opening inExpression).Ends env s (Yields env.file.text r fun id next F =>
      Follows env.file.text inExpression rest next ∧ F.IsJsx id (.element name children)) := by
  refine jsxElementRest_ends hchildren g htook hdepth hat (Y := fun id next F =>
    Follows env.file.text inExpression rest next ∧ F.IsClosingTag name id) (fun t h hat => ?_) ?_
  · obtain ⟨word, hword, hname⟩ := hat.readsPlain
    exact jsxClosing_yields h hat.kind_eq hword hname hrest
  · intro list closing t ht hall hkeeps htook g
    obtain ⟨hfollows, tag', hshows', hname'⟩ := ht
    obtain ⟨tag, attributes, properties, hshows, hname, hproperties⟩ := hopening.keeps hkeeps
    have hsame : t.arena.sameTagName? tag tag' = some true := by
      rw [show t.arena = t.forest.arena from rfl, hname.sameTagName? hname', decide_eq_true rfl]
    refine (checkTagNames_leaves hshows hshows' hsame).bind ?_
    rintro _ _ rfl
    refine g.finish rfl htook rfl rfl fun id F hkept hshows'' => ⟨hfollows, ?_⟩
    refine .element hshows'' ?_ (Forest.allJsxKeep hkept hall) ?_
    · exact (hopening.keeps hkeeps).keeps hkept
    · exact ⟨tag', hshows'.keeps hkept, hname'.keeps hkept⟩

theorem jsxFragmentRest_yields (hchildren : AreRead children)
    (g : Way env Production.topRank r s [.node opening]) (htook : r.pos < s.pos)
    (hdepth : s.scope.depth + depthOfChildren children ≤ maxDepth)
    (hopening : s.forest.Shows opening (.node .jsxOpeningFragment) .token)
    (hat : s.token.IsAtChild env.file.text (beforeAll children ('<' :: '/' :: '>' :: rest)))
    (hrest : MayFollow inExpression rest) :
    (jsxFragmentRest r.pos opening inExpression).Ends env s (Yields env.file.text r fun id next F =>
      Follows env.file.text inExpression rest next ∧ F.IsJsx id (.fragment children)) := by
  refine jsxChildren_step hchildren g htook hdepth hat fun list t hat hall hkeeps htook g => ?_
  refine g.step (jsxClosingFragment_yields g.supplied hat hrest) fun closing u hu hkeeps' htook' g => ?_
  obtain ⟨hfollows, hclosing⟩ := hu
  refine g.finish rfl (Nat.lt_trans htook htook') rfl rfl fun id F hkept hshows => ⟨hfollows, ?_⟩
  have hopening := hopening.keeps (hkeeps.trans (hkeeps'.trans hkept))
  have hall := Forest.allJsxKeep (hkeeps'.trans hkept) hall
  exact .fragment hshows hopening hall (hclosing.keeps hkept)

/-- An opening tag leads to the element or the fragment that it opens, or it is one by itself. -/
inductive LeadsTo (env : Surroundings) (inExpression : Bool) (P : NodeId → ParserState → Prop)
    (pos : Nat) (opening : NodeId) (t : ParserState) : Prop where
  | element (payload : Payload) : t.forest.Shows opening (.node .jsxOpeningElement) payload →
    (jsxElementRest pos opening inExpression).Ends env t P → LeadsTo env inExpression P pos opening t
  | fragment (payload : Payload) : t.forest.Shows opening (.node .jsxOpeningFragment) payload →
    (jsxFragmentRest pos opening inExpression).Ends env t P → LeadsTo env inExpression P pos opening t
  | done (payload : Payload) : t.forest.Shows opening (.node .jsxSelfClosingElement) payload →
    P opening t → LeadsTo env inExpression P pos opening t

/-- An element is what its opening tag leads to, if no other one stands right behind it. -/
theorem jsxElement_ends {P : NodeId → ParserState → Prop} {Y : NodeId → Token → Forest → Prop}
    (hopening : (jsxOpening inExpression).Ends env s (Yields env.file.text s Y))
    (hleads : ∀ opening t, Yields env.file.text s Y opening t → LeadsTo env inExpression P s.pos opening t)
    (hend : inExpression = true → ∀ id t, P id t → t.token.kind ≠ .punct .lessThan) :
    (jsxElement inExpression).Ends env s P := by
  refine .nodePos (hopening.bind fun opening t ht => ?_)
  have hleads := hleads opening t ht
  obtain ⟨kind, payload, hshows⟩ : ∃ kind payload, t.forest.Shows opening kind payload := by
    cases hleads with
    | element _ hshows | fragment _ hshows | done _ hshows => exact ⟨_, _, hshows⟩
  refine .kindShown hshows ?_
  extract_lets rest
  have hrest (result : NodeId) (u : ParserState) (hu : P result u) : (rest result).Ends env u P := by
    refine .ite (fun hwhole => .isAt ?_) fun _ => .pure hu
    rw [beq_eq_false_iff_ne.mpr (hend hwhole _ _ hu)]
    exact .no (.pure hu)
  cases hleads with
  | element _ hshows' hends =>
    rw [hshows.kind_unique hshows']
    exact hends.bind hrest
  | fragment _ hshows' hends =>
    rw [hshows.kind_unique hshows']
    exact hends.bind hrest
  | done _ hshows' hresult =>
    rw [hshows.kind_unique hshows']
    exact hrest opening t hresult

end Parser

/-- After a whole expression no tag follows. -/
theorem Follows.ne_lessThan (h : Follows text inExpression rest next) (hwhole : inExpression = true) :
    next.kind ≠ .punct .lessThan := by
  subst hwhole
  have hlast : LastSemicolon text next := h
  rw [hlast.1]
  decide

namespace JsxTree

variable {children : List JsxTree}

theorem isRead_element (hchildren : AreRead children) : (element name children).IsRead := by
  intro env rank s inExpression rest h hdepth hat hrest
  have hstarts : StartsChild (beforeAll children ('<' :: '/' :: (name.text.toList ++ '>' :: rest))) :=
    hchildren.apart.startsChild (startsTag_closing _)
  obtain ⟨word, hword, hname⟩ := Token.IsBefore.readsPlain hat
  refine jsxElement_ends (jsxOpening_yields_element h hat.kind_eq hword hname hstarts) (fun opening t ht => ?_)
    fun hwhole _ _ ht => ht.holds.1.ne_lessThan hwhole
  obtain ⟨hat, hopening⟩ := ht.holds
  have g := (Way.start h).goTook ht.quiet ht.took
  have hdepth := g.quiet.depth_le hdepth
  have hrest := jsxElementRest_yields hchildren g ht.took hdepth hopening hat hrest
  obtain ⟨tag, attributes, list, hshows, -⟩ := hopening
  exact .element _ hshows hrest

theorem isRead_selfClosing : (selfClosing name).IsRead := by
  intro env rank s inExpression rest h hdepth hat hrest
  obtain ⟨word, hword, hname⟩ := Token.IsBefore.readsPlain_slash hat
  refine jsxElement_ends (jsxOpening_yields_selfClosing h hat.kind_eq hword hname hrest) (fun opening t ht => ?_)
    fun hwhole _ _ ht => ht.holds.1.ne_lessThan hwhole
  obtain ⟨tag, attributes, list, hshows, -⟩ := ht.holds.2
  exact .done _ hshows (ht.mono fun _ _ _ h => ⟨h.1, .selfClosing h.2⟩)

theorem isRead_fragment (hchildren : AreRead children) : (fragment children).IsRead := by
  intro env rank s inExpression rest h hdepth hat hrest
  have hstarts : StartsChild (beforeAll children ('<' :: '/' :: '>' :: rest)) :=
    hchildren.apart.startsChild (startsTag_closing _)
  refine jsxElement_ends (jsxOpening_yields_fragment h hat hstarts) (fun opening t ht => ?_)
    fun hwhole _ _ ht => ht.holds.1.ne_lessThan hwhole
  obtain ⟨hat, hopening⟩ := ht.holds
  have g := (Way.start h).goTook ht.quiet ht.took
  have hdepth := g.quiet.depth_le hdepth
  exact .fragment _ hopening (jsxFragmentRest_yields hchildren g ht.took hdepth hopening hat hrest)

/-- Every tree of tags is read as what it is. -/
theorem WellFormed.isRead {tree : JsxTree} (h : tree.WellFormed) (htag : tree.isText = false) :
    tree.IsRead := by
  induction h with
  | element hapart _ ih => exact isRead_element ⟨hapart, ih⟩
  | selfClosing => exact isRead_selfClosing
  | fragment hapart _ ih => exact isRead_fragment ⟨hapart, ih⟩
  | text => cases htag

end JsxTree

end ScriptSyntax
