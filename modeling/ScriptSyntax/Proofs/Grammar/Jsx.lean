/-
  ScriptSyntax/Proofs/Grammar/Jsx.lean
  ====================================
  JSX: elements, attributes and what stands between tags.

  An element takes its opening bracket and a child takes a token, so children come
  to an end.  Two nodes here are not finished from all parts handed over: the
  closing tag of a fragment leaves out a name, with a report that is due; and
  elements without a parent are joined by a comma that stands in no place of the
  text.
-/
import ScriptSyntax.Proofs.Grammar.Classes
import ScriptSyntax.Grammar.Jsx

namespace ScriptSyntax

/-! ## 1. Names of tags -/

namespace Arena

variable {a : Arena} {left right : NodeId} {l : Node}

/-- Names of tags can be compared: what they are made of is there, and older. -/
theorem Sound.exists_sameTagName? (h : a.Sound) {l r : Node} (hl : a.get? left = some l)
    (hr : a.get? right = some r) : ∃ same, a.sameTagName? left right = some same := by
  induction hindex : left.index using Nat.strongRecOn generalizing left right l r with
  | ind index ih =>
    subst hindex
    have hthere {id c : NodeId} {n : Node} (hn : a.get? id = some n) (hc : c ∈ n.children) :
        c.index < id.index ∧ ∃ child, a.get? c = some child := by
      obtain ⟨child, hchild, -⟩ := (h.fits id n hn).get?_child hc
      exact ⟨(h.fits id n hn).older c hc, child, hchild⟩
    unfold sameTagName?
    simp only [hl, hr]
    split
    · exact ⟨false, rfl⟩
    split
    · exact ⟨_, rfl⟩
    · rename_i leftObject _ leftName rightObject _ rightName hleft hright
      have hmembers (n : Node) (object : NodeId) (questionDot : Option NodeId) (name : NodeId)
          (hn : n.payload = .propertyAccess object questionDot name) :
          object ∈ n.children ∧ name ∈ n.children := by
        simp [Node.children_eq, Node.parts_eq, hn, Payload.fields]
      obtain ⟨hobject, hname⟩ := hmembers l _ _ _ hleft
      obtain ⟨hobject', hname'⟩ := hmembers r _ _ _ hright
      obtain ⟨hlt, ln, hln⟩ := hthere hl hname
      obtain ⟨hlt', lo, hlo⟩ := hthere hl hobject
      obtain ⟨-, rn, hrn⟩ := hthere hr hname'
      obtain ⟨-, ro, hro⟩ := hthere hr hobject'
      rw [if_pos ⟨hlt, hlt'⟩]
      obtain ⟨same, hsame⟩ := ih _ hlt hln hrn rfl
      rw [hsame]
      cases same with
      | true => exact ih _ hlt' hlo hro rfl
      | false => exact ⟨false, rfl⟩
    · exact ⟨_, rfl⟩

end Arena

namespace Token

/-- The kinds of tokens between tags. -/
def betweenTags : List Kind :=
  [.endOfFile, .punct .lessThanSlash, .punct .lessThan, .punct .openBrace, .literal .jsxText,
    .literal .jsxTextAllWhiteSpaces]

theorem mem_betweenTags_of_isJsxText {kind : Kind} (h : kind.isJsxText = true) :
    kind ∈ betweenTags := by
  rcases Kind.eq_of_isJsxText h with rfl | rfl <;> simp [betweenTags]

/-- Between tags there are no other tokens. -/
theorem kind_scanJsxAt (text : Array Char) (pos : Nat) :
    (scanJsxAt text pos).1.kind ∈ betweenTags := by
  unfold scanJsxAt
  split
  · rename_i c hc
    show (jsxLexemeAt text pos c).kind ∈ betweenTags
    unfold jsxLexemeAt
    split
    · split <;> simp [betweenTags, Punctuator.lexeme]
    · split
      · simp [betweenTags, Punctuator.lexeme]
      · exact mem_betweenTags_of_isJsxText (isJsxText_jsxTextFrom false false [])
  · simp [betweenTags]

end Token

/-- Two nodes are joined by one between them that has no room of its own and is marked. -/
theorem Run.join {text : Array Char} {r s : ParserState} {first second : NodeId} {left right comma n : Node}
    (h : Run text r s [.node first, .node second]) (hleft : s.arena.get? first = some left)
    (hright : s.arena.get? second = some right) (hcomma : comma.parts = [])
    (hplace : comma.pos = right.pos ∧ comma.stop = right.pos)
    (hmarked : comma.flags.hasError = true) (hlog : 0 < s.log.size)
    (hparts : n.parts = [.node first, .node ⟨s.arena.size⟩, .node second])
    (hspan : n.pos = left.pos ∧ n.stop = right.stop)
    (hplain : comma.kind.isSpecial comma.payload = false ∧ n.kind.isSpecial n.payload = false)
    (hkind : comma.kind ≠ .identifier ∧ n.kind.isToken = false) :
    Run text r ((s.adding comma).adding n) [.node ⟨(s.adding comma).arena.size⟩] := by
  obtain ⟨_, hleft', hle, hroom, _, hright', hle', hroom', hend⟩ := h.placed
  cases hleft.symm.trans hleft'
  cases hright.symm.trans hright'
  have hend : right.stop ≤ s.pos := hend
  -- The comma is made after both operands, so the three are handed over in that order first.
  have hmakes : Makes text s (s.adding comma) [⟨s.arena.size⟩] := by
    refine (Makes.refl h.ok).alloc ?_ ?_ nofun (fun _ => hmarked) (fun _ => hlog)
      (Node.sourced_of_empty (Nat.le_of_eq (hplace.2.trans hplace.1.symm)) (Node.namedBy_of_kind hkind.1))
      fun _ => Node.lawful_of_isRuled (Kind.not_isRuled hplain.1)
    · exact Arena.fits_of_spansParts hcomma (by rw [hplace.1, hplace.2]; exact Nat.le_refl _) .nil
        (Kind.not_spreadsProperty hplain.1)
    · simp [Node.children_eq, hcomma]
  have hall := h.toMakes.trans hmakes
  have hrow : (s.adding comma).arena.SpansParts n.pos
      [.node first, .node ⟨s.arena.size⟩, .node second] n.stop := by
    have hgrown := Arena.grows_push s.arena comma
    refine ⟨left, hgrown.get? hleft, Nat.le_of_eq hspan.1, hroom, comma, Arena.get?_push_self _ _, ?_,
      ?_, right, hgrown.get? hright, ?_, hroom', Nat.le_of_eq hspan.2.symm⟩
    all_goals omega
  have hperm : (childrenOf [.node first, .node ⟨s.arena.size⟩, .node second]).Nodup :=
    (List.Perm.cons first (List.Perm.swap _ _ [])).nodup_iff.mpr hall.distinct
  have hchildren (c : NodeId) : c ∈ n.children ↔
      c ∈ childrenOf [.node first, .node second] ++ [⟨s.arena.size⟩] := by
    simp [Node.children_eq, hparts, or_comm]
  refine ⟨hall.alloc (Arena.fits_of_spansParts hparts hrow hperm (Kind.not_spreadsProperty hplain.2))
    (fun c => (hchildren c).mp) (fun c hc hno => ?_) nofun (fun _ => hlog)
    (Node.sourced_of_isToken hkind.2) fun _ => Node.lawful_of_isRuled (Kind.not_isRuled hplain.2), ?_⟩
  · exact absurd ((hchildren c).mpr hc) hno
  · refine ⟨n, Arena.get?_push_self _ _, ?_, ?_, ?_⟩
    · omega
    · exact hrow.le
    · show n.stop ≤ s.pos
      omega

namespace Parser

variable {env : Surroundings} {rank : Nat} {took : Bool} {r m s t : ParserState}
variable {items : List Part}

/-- The name of a tag is a node, in the text if the tag is. -/
theorem tagName_ends {tag : NodeId} {n : Node} (h : s.Ok env.file.text)
    (hn : s.arena.get? tag = some n) (hin : n.InText env.file.text.size) :
    (tagName tag).Ends env s fun name t =>
      t = s ∧ ∃ m, s.arena.get? name = some m ∧ m.InText env.file.text.size := by
  refine .node hn ?_
  split
  · rename_i name attributes hpayload
    refine .pure ⟨rfl, ?_⟩
    have hchild : name ∈ n.children := by
      simp [Node.children_eq, Node.parts_eq, hpayload, Payload.fields]
    exact (h.sound.fits tag n hn).exists_child hin hchild
  · exact .pure ⟨rfl, n, hn, hin⟩

theorem tokenStart_asks {id : NodeId} {n : Node} (hn : s.arena.get? id = some n) :
    (tokenStart id).Asks env s :=
  .read (.bind (congrArg Prod.snd (node_eq hn)) fun _ => rfl)

theorem tokenStart_le_size {id : NodeId} {n : Node} (hn : s.arena.get? id = some n)
    (hin : n.InText env.file.text.size) : (tokenStart id).answer env s ≤ env.file.text.size := by
  have hstart : (tokenStart id).Ends env s fun start _ => start ≤ env.file.text.size :=
    .read (.node hn (.pure (tokenStartAt_le_size hin.pos_le)))
  exact hstart

theorem sourceOf_asks {id : NodeId} {n : Node} (hn : s.arena.get? id = some n) :
    (sourceOf id).Asks env s :=
  .read (.bind (tokenStart_asks hn) fun _ => .bind (congrArg Prod.snd (node_eq hn)) fun _ => rfl)

/-- Extending a name does not change what kind of token it is. -/
theorem extendJsxName_ends (h : s.Ok env.file.text) :
    (advance .extendJsxName).Ends env s fun _ t =>
      Run env.file.text s t [] ∧ t.pos = s.pos ∧ t.token.kind = s.token.kind := by
  refine ⟨(advance_ends .extendJsxName h (.of_ne (by decide) (by decide))).toRun, ?_, ?_⟩
  · show Token.fullStart _ = _
    rw [token_advance, ReadingMode.fullStart_read]
    rfl
  · show Token.kind _ = _
    rw [token_advance]
    simp only [ReadingMode.read, Token.scanJsxName]
    split <;> rfl

/-- A name of a tag so far. -/
structure NamesTag (env : Surroundings) (rank : Nat) (s : ParserState) (id : NodeId)
    (t : ParserState) : Prop where
  sofar : Sofar env rank false s s t [.node id]
  kind : (t.arena.kindOf id).isTagName = true

theorem jsxName_ends (h : env.Ready rank s) :
    jsxName.Ends env s fun id t => NamesTag env rank s id t := by
  refine .nodePos ?_
  have hfits : ReadingMode.extendJsxName.FitsAt s.token := .of_ne (by decide) (by decide)
  refine (Sofar.start h).step (advance_gives .extendJsxName h.ok hfits) fun _ t g => ?_
  extract_lets rest
  refine .via (P := NamesTag env rank s) rest (fun first t ht => ?_)
    fun hrest => .isAt (.ite (fun hthis => ?_) fun _ => ?_)
  · refine (repeating_ends (P := NamesTag env rank s) (Q := NamesTag env rank s) ht
      (fun _ _ h => h.sofar.ready.ok.pos_le_size) fun object u hu => ?_).mono fun _ _ h => h.1
    refine hu.sofar.mark.acceptPunct (fun v _ g => ?_) fun _ => .pure ⟨hu, Nat.le_refl _⟩
    refine g.step (nameAfterDot_gives true g.ready.ok) fun member w g => ?_
    refine (finishProduction_ends g.run rfl (by simp [Payload.fields]) rfl).bind fun id x hx => ?_
    have hdone := g.finished hx
    exact .pure ⟨⟨hu.sofar.resume hdone, by rw [hx.node.kindOf]; rfl⟩, hdone.ahead rfl⟩
  · refine (tokenNode_ends g.ready.ok).bind fun id u hu => hrest id u ⟨g.go hu.run, ?_⟩
    rw [hu.node.kindOf, beq_iff_eq.mp hthis]
    rfl
  · refine (nameOr_ends _ g.ready.ok).bind fun id u hu => hrest id u ⟨g.go hu.1.run, ?_⟩
    rw [hu.1.node.kindOf]
    rfl

theorem jsxName_gives (h : env.Ready rank s) : jsxName.Gives env false s s :=
  (jsxName_ends h).mono fun _ _ ht => ht.sofar.toHanded

/-! ## 2. Expressions in braces -/

/-- An expression in braces is there if its opening brace is, and takes that then. -/
theorem jsxExpression_ends (inTag : Bool) (h : env.Ready rank s) :
    (jsxExpression inTag).Ends env s fun found t =>
      Handed env.file.text (s.token.kind == .punct .openBrace) s s t (held found)
        ∧ (s.token.kind = .punct .openBrace → found.isSome = true) := by
  refine .nodePos ((Sofar.start h).expectPunct (fun t hkind g => ?_) fun t hkind _ g => ?_)
  · extract_lets rest
    refine g.fork rest (fun parts t g => ?_) fun hrest => .isAt (.ite (fun _ => ?_) fun _ => ?_)
    · obtain ⟨dots, inner⟩ := parts
      unfold rest
      dsimp -zeta only
      extract_lets rest
      refine g.fork rest (fun _ t g => ?_) fun hrest => .ite (fun _ => ?_) fun _ => ?_
      · refine (g.finishProduction rfl (by simp [Payload.fields]) rfl).bind fun id v hv => ?_
        exact .pure ⟨⟨hv.run, hv.forward, fun _ => hv.ahead rfl⟩, fun _ => rfl⟩
      · exact g.step (expectPunct_gives _ g.ready.ok) fun _ t g => hrest () t g
      · refine (require_ends none g.ready.ok).bind fun found u hu => ?_
        rcases hu with ⟨rfl, -, rfl⟩ | ⟨rfl, -, hu⟩
        · exact g.step (advance_gives .scanJsx g.ready.ok (.of_ne (by decide) (by decide))) hrest
        · exact hrest () u ((g.goOn hu.toRun).parts (by simp))
    · exact hrest (none, none) t (g.parts (by simp))
    · refine g.step (acceptToken_gives _ g.ready.ok) fun dots t g => ?_
      refine g.step (parse_gives .expression g.ready (by decide) trivial) fun inner t g => ?_
      exact hrest (dots, some inner) t (g.parts (by simp))
  · exact .pure ⟨⟨g.run, g.forward, fun hopen => absurd (beq_iff_eq.mp hopen) hkind⟩,
      fun hopen => absurd hopen hkind⟩

/-! ## 3. Attributes -/

theorem jsxSpreadAttribute_takes (h : env.Ready rank s)
    (hkind : s.token.kind = .punct .openBrace) : jsxSpreadAttribute.Gives env true s s := by
  refine .nodePos ((Sofar.start h).stepTook (expectPunct_takes h.ok hkind) fun _ t g => ?_)
  refine g.step (expectPunct_gives _ g.ready.ok) fun _ t g => ?_
  refine g.step (parse_gives .expression g.ready (by decide) trivial) fun inner t g => ?_
  refine g.step (expectPunct_gives _ g.ready.ok) fun _ t g => ?_
  exact g.finishProduction rfl (by simp [Payload.fields]) rfl

theorem jsxAttributeValue_gives (h : env.Ready rank s) :
    jsxAttributeValue.Gives env false s s := by
  have hfits : ReadingMode.scanJsxAttributeValue.FitsAt s.token := .of_ne (by decide) (by decide)
  refine (Sofar.start h).step (advance_gives .scanJsxAttributeValue h.ok hfits) fun _ t g => .kind ?_
  split
  · exact g.step (literalNode_gives g.ready.ok) fun text t g => g.done rfl
  · exact g.only ((jsxExpression_ends true g.ready).mono fun _ _ ht => ht.1)

/-- An attribute takes a token: the brace or the name that it starts with. -/
theorem jsxAttribute_takes (h : env.Ready rank s)
    (hkind : s.token.kind.isName = true ∨ s.token.kind = .punct .openBrace) :
    jsxAttribute.Gives env true s s := by
  refine .isAt (.ite (fun hbrace => ?_) fun hno => .nodePos ?_)
  · exact jsxSpreadAttribute_takes h (beq_iff_eq.mp hbrace)
  have hname := hkind.resolve_right (by simpa using hno)
  refine (extendJsxName_ends h.ok).bind fun _ t ⟨hrun, hpos, hsame⟩ => ?_
  have g := (Sofar.start h).goOn hrun
  refine g.stepTook (name_takes g.ready.ok (hsame ▸ hname)) fun name t g => ?_
  extract_lets rest
  refine g.fork rest (fun initializer t g => ?_) fun hrest => .isAt (.ite (fun _ => ?_) fun _ => ?_)
  · exact g.finishProduction rfl (by simp [Payload.fields]) rfl
  · exact g.step (jsxAttributeValue_gives g.ready) hrest
  · exact hrest none t (g.parts (by simp))

theorem jsxAttribute_reads : Reads env rank true .jsxAttributes jsxAttribute := by
  intro s hs hstarts
  exact jsxAttribute_takes hs ((answer_or hstarts rfl).imp_right beq_iff_eq.mp)

theorem jsxAttributes_gives (h : env.Ready rank s) : jsxAttributes.Gives env false s s := by
  refine .nodePos ((Sofar.start h).step (elements_gives h jsxAttribute_reads) fun list t g => ?_)
  exact g.finishProduction rfl (by simp [Payload.fields]) rfl

/-! ## 4. Tags -/

theorem jsxTagEnd_ends (inExpression : Bool) (h : s.Ok env.file.text) :
    (jsxTagEnd inExpression).Ends env s fun _ t => Glance env.file.text s t := by
  refine .ite (fun _ => ?_) fun _ => ?_
  · refine (expectWith_ends (k := .punct .greaterThan) none h nofun).bind fun _ t ht => .pure ?_
    rcases ht with ⟨-, -, ht⟩ | ⟨-, -, ht⟩
    · exact ht.toGlance
    · exact ht.toGlance
  · refine (require_ends none h).bind fun found t ht => ?_
    rcases ht with ⟨-, -, rfl⟩ | ⟨-, -, ht⟩
    · exact advance_ends .scanJsx h (.of_ne (by decide) (by decide))
    · exact (advance_ends .scanJsx ht.ok (.of_ne (by decide) (by decide))).mono fun _ u hu => ht.toGlance.trans hu

theorem jsxTagEnd_gives (inExpression : Bool) (h : s.Ok env.file.text) :
    (jsxTagEnd inExpression).Gives env false s s :=
  (jsxTagEnd_ends inExpression h).mono fun _ _ ht => ht.toRun.handed

/-- A tag takes its opening bracket. -/
theorem jsxOpening_takes (inExpression : Bool) (h : env.Ready rank s)
    (hkind : s.token.kind = .punct .lessThan) : (jsxOpening inExpression).Gives env true s s := by
  refine .nodePos ((Sofar.start h).stepTook (expectPunct_takes h.ok hkind) fun _ t g => ?_)
  refine .isAt (.ite (fun _ => ?_) fun _ => ?_)
  · refine g.step (advance_gives .scanJsx g.ready.ok (.of_ne (by decide) (by decide))) fun _ t g => ?_
    exact g.finishProduction rfl (by simp [Payload.fields]) rfl
  refine g.step (jsxName_gives g.ready) fun name t g => ?_
  refine g.step (jsxAttributes_gives g.ready) fun attributes t g => .isAt (.ite (fun _ => ?_) fun _ => ?_)
  · refine g.step (advance_gives .scanJsx g.ready.ok (.of_ne (by decide) (by decide))) fun _ t g => ?_
    exact g.finishProduction rfl (by simp [Payload.fields]) rfl
  · refine g.step (expectPunct_gives _ g.ready.ok) fun _ t g => ?_
    refine g.step (jsxTagEnd_gives inExpression g.ready.ok) fun _ t g => ?_
    exact g.finishProduction rfl (by simp [Payload.fields]) rfl

theorem jsxClosing_gives (inExpression : Bool) (h : env.Ready rank s) :
    (jsxClosing inExpression).Gives env false s s := by
  refine .nodePos ((Sofar.start h).step (expectPunct_gives _ h.ok) fun _ t g => ?_)
  refine g.step (jsxName_gives g.ready) fun name t g => ?_
  refine g.step (jsxTagEnd_gives inExpression g.ready.ok) fun _ t g => ?_
  exact g.finishProduction rfl (by simp [Payload.fields]) rfl

/-- A name in the tag that closes a fragment is left out of the tree, and the tag is marked. -/
theorem jsxClosingFragment_gives (inExpression : Bool) (h : env.Ready rank s) :
    (jsxClosingFragment inExpression).Gives env false s s := by
  refine .nodePos ((Sofar.start h).step (expectPunct_gives _ h.ok) fun _ t g => .kindIs ?_)
  extract_lets rest
  refine .via (P := fun _ t => ∃ items, Sofar env rank false s s t items
      ∧ (items = [] ∨ (t.errorPending = true
        ∧ ∃ name, items = [.node name] ∧ (t.arena.kindOf name).isTagName = true)))
    rest (fun _ t ⟨items, g, hdue⟩ => ?_) fun hrest => ?_
  · refine (jsxTagEnd_ends inExpression g.ready.ok).bind fun _ u hu => ?_
    have g := g.goOn hu.toRun
    let tag : Node := { kind := .node .jsxClosingFragment, pos := s.pos, stop := s.pos, payload := .token }
    have hparts : tag.parts.Sublist items := List.nil_sublist items
    refine Ends.mono (finishLeaving_ends g.run rfl hparts rfl rfl (Node.sourcedAt_of_isToken rfl) ?_)
      fun _ _ h => g.finished h
    intro c hc _ a m hgrown hm hkind hpos hstop herror
    obtain ⟨n, hn, hle, -, hle'⟩ := g.run.placed.children.get?_of_mem hc
    rcases hdue with rfl | ⟨hpending, name, rfl, hname⟩
    · cases hc
    obtain rfl : c = name := by simpa using hc
    have hname : n.kind.isTagName = true := by
      rw [hu.arena] at hn
      simpa [Arena.kindOf, hn] using hname
    exact .closingName (hgrown.get? hn) hname hm hkind (herror.trans (hu.due hpending))
      (hpos ▸ hle) (hstop ▸ hle')
  · refine .ite (fun _ => ?_) fun _ => hrest () t ⟨[], g, .inl rfl⟩
    refine (jsxName_ends g.ready).bind fun name u hu => ?_
    have g := g.go hu.sofar.run
    refine g.node (by simp) fun n hn => ?_
    have hin := g.inText (by simp) hn
    refine (errorAtRange_ends g.ready.ok hin.pos_le hin.stop_le _ _).bind fun _ v hv => ?_
    refine hrest () v ⟨_, g.goOn hv.toRun, .inr ⟨hv.pending, name, by simp, ?_⟩⟩
    rw [hv.arena]
    exact hu.kind

/-! ## 5. Children -/

theorem jsxText_takes (h : s.Ok env.file.text) (hkind : s.token.kind ≠ .endOfFile) :
    jsxText.Gives env true s s := by
  let text : Node := {
    kind := s.token.kind, pos := s.pos, stop := s.pos
    payload := .literal s.token.value s.token.flags }
  have hread : (advance .scanJsx).Ends env s fun _ t =>
      Handed env.file.text true s s t [] ∧ text.SourcedAt env.file.text s t := by
    refine ⟨advance_takes h rfl hkind, ?_⟩
    have hglance : Glance env.file.text s (advance .scanJsx env s).2 :=
      advance_ends .scanJsx h (.of_ne (by decide) (by decide))
    refine Node.sourcedAt_of_read rfl hglance.arena (token_advance .scanJsx env s) rfl (.inl rfl) ?_
      fun _ _ _ heq => by cases heq
    intro value flags hliteral
    cases hliteral
    exact ⟨rfl, rfl⟩
  refine .token (hread.bind fun _ t ⟨ht, hsourced⟩ => ?_)
  refine (finish_ends ht.run rfl rfl rfl (by nofun) hsourced fun hs => Node.lawful_of_isNode hs).mono
    fun id u hu => hu.run.handedTook ?_
  exact Nat.lt_of_lt_of_eq (ht.ahead rfl) (congrArg Token.fullStart hu.token.symm)

theorem unclosedJsx_gives {opening : NodeId} {n : Node} (h : s.Ok env.file.text)
    (hn : s.arena.get? opening = some n) (hin : n.InText env.file.text.size) :
    (unclosedJsx opening).Gives env false s s := by
  refine .kindOf hn (.ite (fun _ => .node hn ?_) fun _ => ?_)
  · exact errorAtRange_gives h hin.pos_le hin.stop_le _ _
  refine (tagName_ends h hn hin).bind fun name t ht => ?_
  obtain ⟨rfl, m, hm, hin⟩ := ht
  refine .ask (tokenStart_asks hm) (.node hm (.ask (sourceOf_asks hm) ?_))
  exact errorAtRange_gives h (tokenStart_le_size hm hin) hin.stop_le _ _

/-- The children have ended, or one more has been read. -/
theorem jsxChild_ends {opening : NodeId} {n : Node} (h : env.Ready Production.topRank s)
    (hn : s.arena.get? opening = some n) (hin : n.InText env.file.text.size) (hpos : 0 < s.pos) :
    (jsxChild opening).Ends env s fun found t => (found = none ∧ Run env.file.text s t [])
      ∨ ∃ id, found = some id ∧ Handed env.file.text true s s t [.node id] := by
  have hkinds : (advance .rescanJsx).Ends env s fun _ t => t.token.kind ∈ Token.betweenTags := by
    show Token.kind _ ∈ _
    rw [token_advance]
    exact Token.kind_scanJsxAt _ _
  refine Ends.bind (P := fun _ t => Run env.file.text s t [] ∧ t.token.kind ∈ Token.betweenTags)
    ⟨(advance_gives .rescanJsx h.ok ⟨nofun, fun _ => hpos⟩).run, hkinds⟩
    fun _ t ⟨hrun, hkinds⟩ => .kind ?_
  have g := (Sofar.start h).goOn hrun
  split
  · refine (unclosedJsx_gives hrun.ok (hrun.grows.get? hn) hin).bind fun _ u hu => ?_
    exact .pure (.inl ⟨rfl, hrun.trans hu.run⟩)
  · exact .pure (.inl ⟨rfl, hrun⟩)
  · exact .pure (.inl ⟨rfl, hrun⟩)
  · refine (g.onlyTook (jsxText_takes hrun.ok ?_)).bind fun id u hu => .pure (.inr ⟨id, rfl, hu⟩)
    simp [*]
  · refine (g.onlyTook (jsxText_takes hrun.ok ?_)).bind fun id u hu => .pure (.inr ⟨id, rfl, hu⟩)
    simp [*]
  · rename_i hbrace
    refine (jsxExpression_ends false g.ready).mono fun found u ⟨hu, hsome⟩ => .inr ?_
    obtain ⟨id, rfl⟩ := Option.isSome_iff_exists.mp (hsome hbrace)
    rw [hbrace] at hu
    exact ⟨id, rfl, (g.goTook hu.run (hu.ahead rfl)).toHanded⟩
  · rename_i hangle
    have hkind : t.token.kind ≠ .endOfFile := by simp [hangle]
    refine (nested_gives _ hrun.ok (fun _ => hkind)
      (parse_takes (.jsxElement false) (g.ready.atDepth _) (by decide) hangle rfl)).bind fun (id, _) u hu => ?_
    exact .pure (.inr ⟨id, rfl, (g.goTook hu.run (hu.ahead rfl)).toHanded⟩)
  · simp_all [Token.betweenTags]

theorem jsxChildren_gives {opening : NodeId} {n : Node} (h : env.Ready Production.topRank s)
    (hn : s.arena.get? opening = some n) (hin : n.InText env.file.text.size) (hpos : 0 < s.pos) :
    (jsxChildren opening).Gives env false s s := by
  have hready : env.Ready Production.topRank (s.withLists (.jsxChildren :: s.scope.openLists)) :=
    h.withLists _
  refine .inList (.nodePos (((Sofar.start hready).loop (k := readParts) fun read t g => ?_).bind
    fun read t g => ?_))
  · have hpos : 0 < t.pos := Nat.lt_of_lt_of_le hpos g.run.forward
    refine (jsxChild_ends g.ready (g.run.grows.get? hn) hin hpos).bind fun found u hu => ?_
    rcases hu with ⟨rfl, hu⟩ | ⟨id, rfl, hu⟩
    · exact .pure ⟨g.goOn hu, hu.forward⟩
    · exact .pure ⟨by simpa using g.go hu.run, hu.ahead rfl⟩
  · exact .nodePos (.pure (g.run.array rfl rfl).withLists.handed)

/-! ## 6. Elements -/

theorem checkTagNames_gives {opening closing : NodeId} {n m : Node} (h : s.Ok env.file.text)
    (hopening : s.arena.get? opening = some n) (hclosing : s.arena.get? closing = some m)
    (hin : n.InText env.file.text.size) (hin' : m.InText env.file.text.size) :
    (checkTagNames opening closing).Gives env false s s := by
  refine (tagName_ends h hopening hin).bind ?_
  rintro openingName _ ⟨rfl, l, hl, -⟩
  refine (tagName_ends h hclosing hin').bind ?_
  rintro closingName _ ⟨rfl, l', hl', -⟩
  refine .get ?_
  obtain ⟨same, hsame⟩ := h.sound.exists_sameTagName? hl hl'
  rw [hsame]
  cases same with
  | true => exact (Run.refl h).handed
  | false =>
    refine .node hclosing (.ask (sourceOf_asks hl) ?_)
    exact errorAtRange_gives h hin'.pos_le hin'.stop_le _ _

theorem jsxElementRest_gives {opening : NodeId} (inExpression : Bool)
    (g : Sofar env Production.topRank took r m s [.node opening]) (hpos : 0 < s.pos) :
    (jsxElementRest r.pos opening inExpression).Ends env s
      fun id t => Handed env.file.text took r m t (held id) := by
  obtain ⟨n, hn⟩ := g.there (List.mem_singleton_self _)
  have hin := g.inText (List.mem_singleton_self _) hn
  refine g.step (jsxChildren_gives g.ready hn hin hpos) fun children t g => ?_
  refine g.step (jsxClosing_gives inExpression g.ready) fun closing t g => ?_
  obtain ⟨n, hn⟩ : ∃ n, t.arena.get? opening = some n := g.there (by simp)
  obtain ⟨m, hm⟩ : ∃ m, t.arena.get? closing = some m := g.there (by simp)
  have hin := g.inText (by simp) hn
  have hin' := g.inText (by simp) hm
  refine g.step (checkTagNames_gives g.ready.ok hn hm hin hin') fun _ t g => ?_
  exact g.finishProduction rfl (by simp [Payload.fields]) rfl

theorem jsxFragmentRest_gives {opening : NodeId} (inExpression : Bool)
    (g : Sofar env Production.topRank took r m s [.node opening]) (hpos : 0 < s.pos) :
    (jsxFragmentRest r.pos opening inExpression).Ends env s
      fun id t => Handed env.file.text took r m t (held id) := by
  obtain ⟨n, hn⟩ := g.there (List.mem_singleton_self _)
  have hin := g.inText (List.mem_singleton_self _) hn
  refine g.step (jsxChildren_gives g.ready hn hin hpos) fun children t g => ?_
  refine g.step (jsxClosingFragment_gives inExpression g.ready) fun closing t g => ?_
  exact g.finishProduction rfl (by simp [Payload.fields]) rfl

/-- Elements without a parent become the operands of a comma, which has no room of its own. -/
theorem joinJsxSiblings_gives {first second : NodeId}
    (g : Sofar env rank took r m s [.node first, .node second]) :
    (joinJsxSiblings first second).Ends env s
      fun id t => Handed env.file.text took r m t (held id) := by
  refine (errorHere_ends g.ready.ok _ _).bind fun _ t ht => ?_
  have g := g.goOn ht.toRun
  refine g.node (by simp) fun left hleft => g.node (by simp) fun right hright => ?_
  have hmarked : (flagsAt t {}).hasError = true := ht.pending
  have hlog := ht.ok.reported (.inl ht.pending)
  exact ⟨g.run.join hleft hright rfl ⟨rfl, rfl⟩ hmarked hlog rfl ⟨rfl, rfl⟩ ⟨rfl, rfl⟩ ⟨nofun, rfl⟩,
    g.forward, g.ahead⟩

theorem nestedJsxElement_ends (h : env.Ready Production.topRank s)
    (hkind : s.token.kind = .punct .lessThan) :
    nestedJsxElement.Ends env s fun found t =>
      s.Grows t ∧ ∀ id, found = some id → Run env.file.text s t [.node id] := by
  have hsibling : (nested .expressionExpected (parse (.jsxElement true))).Ends env s
      fun found t => Handed env.file.text true s s t [.node found.1] :=
    nested_gives _ h.ok (fun _ => by simp [hkind])
      (parse_takes (.jsxElement true) (h.atDepth _) (by decide) hkind rfl)
  refine hsibling.bind ?_
  rintro ⟨id, parsed⟩ t ht
  refine .pure ⟨ht.run.toGrows, fun x hx => ?_⟩
  cases parsed with
  | true =>
    cases hx
    exact ht.run
  | false => cases hx

theorem jsxSibling_ends (h : env.Ready Production.topRank s)
    (hkind : s.token.kind = .punct .lessThan) :
    jsxSibling.Ends env s fun found t => Run env.file.text s t (held found) := by
  refine (attempt_ends h.ok (nestedJsxElement_ends h hkind)).mono fun found t ht => ?_
  rcases ht with ⟨id, rfl, ht⟩ | ⟨rfl, ht⟩
  · exact ht
  · exact ht.toRun

/-- An element takes its opening bracket. -/
theorem jsxElement_takes (inExpression : Bool) (h : env.Ready rank s)
    (hkind : s.token.kind = .punct .lessThan) : (jsxElement inExpression).Gives env true s s := by
  refine .nodePos ((Sofar.start h).stepTook (jsxOpening_takes inExpression h hkind) fun opening t g => ?_)
  have hpos : 0 < t.pos := Nat.zero_lt_of_lt (g.ahead rfl)
  refine g.kindOf (by simp) fun n hn => ?_
  extract_lets rest
  refine .via (P := fun result t => Sofar env Production.topRank true s s t [.node result]) rest
    (fun result t g => ?_) fun hrest => ?_
  · refine .ite (fun _ => .isAt (.ite (fun hangle => ?_) fun _ => g.done rfl)) fun _ => g.done rfl
    refine (jsxSibling_ends g.ready (beq_iff_eq.mp hangle)).bind fun found u hu => ?_
    cases found with
    | some sibling => exact joinJsxSiblings_gives (g.go hu)
    | none => exact (g.goOn hu).done rfl
  · split
    · exact g.fold (jsxElementRest_gives inExpression g.mark hpos) hrest
    · exact g.fold (jsxFragmentRest_gives inExpression g.mark hpos) hrest
    · exact hrest opening t g

end Parser

end ScriptSyntax
