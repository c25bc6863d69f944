/-
  ScriptSyntax/Proofs/Grammar/Operands.lean
  =========================================
  Operands, and the chains of members and calls that start with one.

  An operand takes a token wherever one starts; elsewhere it is a missing name.
  One node is read and belongs to no other: the mark of optional access before a
  template.
-/
import ScriptSyntax.Proofs.Grammar.Jsx
import ScriptSyntax.Grammar.Operands

namespace ScriptSyntax

namespace Parser

variable {env : Surroundings} {rank : Nat} {took : Bool} {r m s t : ParserState}
variable {items : List Part} {start : DeclarationStart}

/-! ## 1. Arguments and array elements -/

theorem arrayElement_gives (h : env.Ready Production.topRank s) :
    arrayElement.Gives env false s s := by
  refine .kind ?_
  split
  · refine .nodePos ((Sofar.start h).step (nextToken_gives h.ok) fun _ t g => ?_)
    refine g.step (parse_gives .assignment g.ready (by decide) trivial) fun inner t g => ?_
    exact g.finishProduction rfl (by simp [Payload.fields]) rfl
  · exact .nodePos ((Sofar.start h).finishProduction rfl rfl rfl)
  · exact parse_gives .assignment h (by decide) trivial

theorem argument_gives (h : env.Ready Production.topRank s) : argument.Gives env false s s := by
  unfold argument
  exact .withContext (.withContext (arrayElement_gives ((h.inContext _).inContext _)))

theorem arguments_takes (h : env.Ready rank s) (hkind : s.token.kind = .punct .openParen) :
    arguments.Gives env true s s := by
  refine (Sofar.start h).stepTook (expectPunct_takes h.ok hkind) fun _ t g => ?_
  have helement : Reads env Production.topRank false .argumentExpressions argument :=
    fun _ hs _ => argument_gives hs
  refine g.step (separated_gives g.ready helement) fun list t g => ?_
  refine g.step (expectPunct_gives _ g.ready.ok) fun _ t g => ?_
  exact g.done (by simp)

/-- Type arguments of a call end at its opening parenthesis, or nothing has been changed. -/
theorem typeArgumentsBeforeParen_ends (h : env.Ready rank s) :
    typeArgumentsBeforeParen.Ends env s fun found t => s.Grows t ∧ ∀ list, found = some list →
      Run env.file.text s t [.array list] ∧ t.token.kind = .punct .openParen := by
  refine (advance_gives .rescanLess h.ok (.of_ne (by decide) (by decide))).bind fun _ t ht => .isAt ?_
  have g := (Sofar.start h).go ht.run
  refine .ite (fun hangle => ?_) fun _ => .pure ⟨ht.run.toGrows, nofun⟩
  have hkind : t.token.kind ≠ .endOfFile := by simp [beq_iff_eq.mp hangle]
  refine g.stepTook (nextToken_takes g.ready.ok hkind) fun _ t g => ?_
  have helement : Reads env Production.topRank false .typeArguments (parse .type) :=
    fun _ hs _ => parse_gives .type hs (by decide) trivial
  refine g.step (separated_gives g.ready helement) fun list t g => ?_
  refine g.step (expectPunct_gives _ g.ready.ok) fun closed t g => .ite (fun _ => .isAt ?_) fun _ => ?_
  · refine .ite (fun hparen => .pure ⟨g.run.toGrows, ?_⟩) fun _ => .pure ⟨g.run.toGrows, nofun⟩
    rintro _ ⟨⟩
    exact ⟨(g.parts (by simp)).run, beq_iff_eq.mp hparen⟩
  · exact .pure ⟨g.run.toGrows, nofun⟩

theorem callTypeArguments_ends (h : env.Ready rank s) :
    callTypeArguments.Ends env s fun found t =>
      (∃ list, found = some list ∧ Run env.file.text s t [.array list] ∧ t.token.kind = .punct .openParen)
        ∨ (found = none ∧ Still env.file.text s t) :=
  attempt_ends h.ok (typeArgumentsBeforeParen_ends h)

theorem callTypeArguments_gives (h : env.Ready rank s) :
    callTypeArguments.Gives env false s s := by
  refine (callTypeArguments_ends h).mono fun found t ht => ?_
  rcases ht with ⟨list, rfl, ht, -⟩ | ⟨rfl, ht⟩
  · exact ht.handed
  · exact ht.toRun.handed

theorem arrayLiteral_takes (h : env.Ready rank s) (hkind : s.token.kind = .punct .openBracket) :
    arrayLiteral.Gives env true s s := by
  refine .nodePos (.tokenPos ((Sofar.start h).stepTook (expectPunct_takes h.ok hkind) fun opened t g => ?_))
  have helement : Reads env Production.topRank false .arrayLiteralMembers arrayElement :=
    fun _ hs _ => arrayElement_gives hs
  refine .afterLineBreak (g.step (separated_gives g.ready helement) fun list t g => ?_)
  have hbracket (_ : opened = true) : s.token.start < env.file.text.size :=
    h.ok.token.start_lt_size (by simp [hkind])
  refine g.step (expectClosing_gives _ _ g.ready.ok hbracket) fun _ t g => ?_
  exact g.finishProduction rfl (by simp [Payload.fields]) rfl

/-! ## 2. Object literals -/

theorem acceptAccessorWord_ends (k : Keyword) (h : s.Ok env.file.text) :
    (acceptAccessorWord k).Ends env s fun found t =>
      (found = true ∧ Skipped env.file.text s t) ∨ (found = false ∧ Still env.file.text s t) := by
  refine .isAt (.ite (fun hword => ?_) fun _ => .inr ⟨rfl, .refl h⟩)
  have hkind : s.token.kind ≠ .endOfFile := by simp [beq_iff_eq.mp hword]
  exact attemptIf_afterNext_ends
    (Inquires.onSameLine (.or (.isAtPunct .openBracket) isPropertyName_inquires)) h hkind

section

variable {name : NodeId} {questionMark : Option NodeId}

theorem shorthandProperty_gives
    (g : Sofar env Production.topRank took r m s (held start ++ (.node name :: held questionMark)))
    (hpos : start.pos = r.pos) : (shorthandProperty start name questionMark).Ends env s
      fun id t => Handed env.file.text took r m t (held id) := by
  refine g.step (acceptToken_gives _ g.ready.ok) fun equalsSign t g => ?_
  extract_lets rest
  refine g.fork rest (fun initializer t g => ?_) fun hrest => .ite (fun _ => ?_) fun _ => ?_
  · exact g.finishDeclaration hpos (by simp) rfl
  · exact g.step (parseIn_gives .assignment g.ready (by decide) trivial) fun value t g =>
      hrest (some value) t g
  · exact hrest none t (g.parts (by simp))

theorem propertyAssignment_gives
    (g : Sofar env Production.topRank took r m s (held start ++ (.node name :: held questionMark)))
    (hpos : start.pos = r.pos) : (propertyAssignment start name questionMark).Ends env s
      fun id t => Handed env.file.text took r m t (held id) := by
  refine g.step (expectPunct_gives _ g.ready.ok) fun _ t g => ?_
  refine g.step (parseIn_gives .assignment g.ready (by decide) trivial) fun value t g => ?_
  exact g.finishDeclaration hpos (by simp) rfl

theorem objectProperty_gives (g : Sofar env Production.topRank took r m s (held start))
    (hpos : start.pos = r.pos) : (objectProperty start).Ends env s
      fun id t => Handed env.file.text took r m t (held id) := by
  refine g.acceptToken nofun (fun asterisk t _ g => ?_) fun _ => ?_
  · refine .ask (isIdentifier_inquires (o := true).asks g.ready.ok) ?_
    refine g.step (propertyName_gives g.ready) fun name t g => ?_
    refine g.step (acceptToken_gives _ g.ready.ok) fun questionMark t g => ?_
    refine .ask rfl (.ite (fun _ => ?_) nofun)
    exact methodAfterName_gives _ (g.loosen.parts (by simp)) hpos
  · refine .ask (isIdentifier_inquires (o := true).asks g.ready.ok) ?_
    refine g.step (propertyName_gives g.ready) fun name t g => ?_
    refine g.step (acceptToken_gives _ g.ready.ok) fun questionMark t g => ?_
    refine .ask rfl (.ite (fun _ => ?_) fun _ => .isAt (.ite (fun _ => ?_) fun _ => ?_))
    · exact methodAfterName_gives _ (g.parts (by simp)) hpos
    · exact shorthandProperty_gives (g.parts (by simp)) hpos
    · exact propertyAssignment_gives (g.parts (by simp)) hpos

end

theorem objectMember_gives (h : env.Ready Production.topRank s) :
    objectMember.Gives env false s s := by
  refine .nodePos ((Sofar.start h).acceptPunct (fun t _ g => ?_) fun _ => ?_)
  · refine g.step (parse_gives .assignment g.ready (by decide) trivial) fun inner t g => ?_
    exact g.loosen.finishProduction rfl (by simp [Payload.fields]) rfl
  refine (Sofar.start h).step (decorators_gives h) fun decorators t g => ?_
  refine g.step (modifiers_gives false g.ready) fun modifiers t g => ?_
  extract_lets start
  have g : Sofar env Production.topRank false s s t (held start) := g
  refine (acceptAccessorWord_ends .getKw g.ready.ok).bind fun found u hu => ?_
  rcases hu with ⟨rfl, hu⟩ | ⟨rfl, hu⟩
  · exact accessor_gives rfl (g.goOn hu.toRun) rfl
  refine .ite (fun hyes => absurd hyes Bool.false_ne_true) fun _ => ?_
  refine (acceptAccessorWord_ends .setKw hu.ok).bind fun found v hv => ?_
  rcases hv with ⟨rfl, hv⟩ | ⟨rfl, hv⟩
  · exact accessor_gives rfl ((g.goOn hu.toRun).goOn hv.toRun) rfl
  · exact objectProperty_gives ((g.goOn hu.toRun).goOn hv.toRun) rfl

theorem objectLiteral_takes (h : env.Ready rank s) (hkind : s.token.kind = .punct .openBrace) :
    objectLiteral.Gives env true s s := by
  refine .nodePos (.tokenPos ((Sofar.start h).stepTook (expectPunct_takes h.ok hkind) fun opened t g => ?_))
  have helement : Reads env Production.topRank false .objectLiteralMembers objectMember :=
    fun _ hs _ => objectMember_gives hs
  refine .afterLineBreak (g.step (separatedWith_gives true g.ready helement) fun list t g => ?_)
  have hbrace (_ : opened = true) : s.token.start < env.file.text.size :=
    h.ok.token.start_lt_size (by simp [hkind])
  refine g.step (expectClosing_gives _ _ g.ready.ok hbrace) fun _ t g => ?_
  exact g.finishProduction rfl (by simp [Payload.fields]) rfl

/-! ## 3. Templates -/

/-- Another span follows only a piece of text, and that takes a token. -/
theorem templateSpan_ends (h : env.Ready Production.topRank s) :
    templateSpan.Ends env s fun (id, goesOn) t =>
      Run env.file.text s t [.node id] ∧ (goesOn = true → s.pos < t.pos) := by
  refine .nodePos ((Sofar.start h).step (parseIn_gives .expression h (by decide) trivial) fun inner t g => ?_)
  extract_lets rest
  refine .via (P := fun text u => Sofar env Production.topRank false s s u [.node inner, .node text]
    ∧ ∃ n, u.arena.get? text = some n ∧ (n.kind = .template .middle → s.pos < u.pos)) rest
    (fun text u ⟨g, n, hn, htook⟩ => ?_) fun hrest => ?_
  · refine .kindOf hn ((g.mark.finishProduction rfl (by simp [Payload.fields]) rfl).bind
      fun id v hv => .pure ⟨hv.run, fun hmiddle => ?_⟩)
    exact Nat.lt_of_lt_of_le (htook (beq_iff_eq.mp hmiddle)) hv.forward
  · refine .isAt (.ite (fun hbrace => ?_) fun _ => ?_)
    · have hbrace := beq_iff_eq.mp hbrace
      have hfits : ReadingMode.rescanTemplate.FitsAt t.token := .of_closeBrace hbrace
      refine g.step (advance_gives .rescanTemplate g.ready.ok hfits) fun _ u g => ?_
      refine (literalNode_ends g.ready.ok).bind fun text v hv => hrest text v ⟨g.go hv.run, ?_⟩
      obtain ⟨n, hn, hkind, -⟩ := hv.node
      refine ⟨n, hn, fun hmiddle => Nat.lt_of_le_of_lt g.forward (hv.pos_lt g.ready.ok ?_)⟩
      rw [← hkind, hmiddle]
      decide
    · refine (missingHere_ends rfl _ _ g.ready.ok).bind fun text u hu => hrest text u ⟨g.go hu.1.run, ?_⟩
      obtain ⟨n, hn, hkind, -⟩ := hu.1.node
      exact ⟨n, hn, by simp [hkind]⟩

theorem template_takes (h : env.Ready rank s) (hkind : s.token.kind ≠ .endOfFile) :
    template.Gives env true s s := by
  refine .nodePos ((Sofar.start h).stepTook (literalNode_takes h.ok hkind) fun head t g => .nodePos ?_)
  have hstart : Sofar env Production.topRank false t t t (readParts []) := .start g.ready
  refine (hstart.loop fun read u g' => ?_).bind fun read u g' => .nodePos ?_
  · refine (templateSpan_ends g'.ready).bind fun (span, goesOn) v ⟨hrun, htook⟩ => .pure ?_
    have g' := g'.go hrun
    cases goesOn with
    | true => exact ⟨g'.parts (by simp), htook rfl⟩
    | false => exact ⟨g'.parts (by simp), hrun.forward⟩
  · have hspans : Run env.file.text t u
        [.array { pos := t.pos, stop := u.pos, nodes := read.reverse }] := g'.run.array rfl rfl
    exact (g.go hspans).finishProduction rfl (by simp [Payload.fields]) rfl

/-! ## 4. Chains -/

theorem linkFlags_ends {object : NodeId} (questionDot : Option NodeId)
    (g : Sofar env rank took r m s items) (hobject : .node object ∈ items) :
    (linkFlags object questionDot).Ends env s fun flags t => t = s ∧ flags.hasError = false := by
  refine .ite (fun _ => .pure ⟨rfl, rfl⟩) fun _ => g.node hobject fun n hn => .pure ⟨rfl, rfl⟩

section

variable {object : NodeId} {questionDot : Option NodeId}

theorem memberByName_gives (g : Sofar env rank took r m s (.node object :: held questionDot)) :
    (memberByName r.pos object questionDot).Ends env s
      fun id t => Handed env.file.text took r m t (held id) := by
  refine (linkFlags_ends questionDot g (by simp)).bind ?_
  rintro flags _ ⟨rfl, herror⟩
  refine g.step (nameAfterDot_gives true g.ready.ok) fun name t g => ?_
  exact g.finishFlagged rfl (by simp [Payload.fields]) rfl herror

theorem memberByIndex_gives
    (g : Sofar env Production.topRank took r m s (.node object :: held questionDot)) :
    (memberByIndex r.pos object questionDot).Ends env s
      fun id t => Handed env.file.text took r m t (held id) := by
  refine (linkFlags_ends questionDot g (by simp)).bind ?_
  rintro flags _ ⟨rfl, herror⟩
  extract_lets rest
  refine g.fork rest (fun index t g => ?_) fun hrest => .isAt (.ite (fun _ => ?_) fun _ => ?_)
  · refine g.step (expectPunct_gives _ g.ready.ok) fun _ t g => ?_
    exact g.finishFlagged rfl (by simp [Payload.fields]) rfl herror
  · exact g.step (missingBefore_gives rfl _ _ g.ready.ok) hrest
  · exact g.step (parseIn_gives .expression g.ready (by decide) trivial) hrest

/-- What was accepted as the mark of optional access is one. -/
def MarksAccess (a : Arena) (questionDot : Option NodeId) : Prop :=
  ∀ dot, questionDot = some dot →
    ∃ n, a.get? dot = some n ∧ n.kind = .punct .questionDot ∧ n.parts = []

/-- A mark of optional access before the template is left out of the tree. -/
theorem taggedTemplate_takes (g : Sofar env rank took r s s (.node object :: held questionDot))
    (hmark : MarksAccess s.arena questionDot)
    (hkind : s.token.kind ≠ .endOfFile) : (taggedTemplate r.pos object).Gives env true r s := by
  unfold taggedTemplate
  extract_lets rest
  have hrest (text : NodeId) (t : ParserState) (hgrown : s.arena.Grows t.arena)
      (g : Sofar env Production.topRank true r s t (.node object :: held questionDot ++ held text)) :
      (rest text).Ends env t fun id u => Handed env.file.text true r s u (held id) := by
    let whole : Node := {
      kind := .node .taggedTemplateExpression, pos := r.pos, stop := r.pos
      payload := .taggedTemplate object text }
    have hparts : whole.parts.Sublist (.node object :: held questionDot ++ held text) :=
      .cons_cons _ (List.sublist_append_right _ _)
    refine Ends.mono (finishLeaving_ends g.run rfl hparts rfl rfl (Node.sourcedAt_of_isToken rfl) ?_)
      fun _ _ h => g.finished h
    intro c hc hno a m hgrown' hm hwhole hpos hstop _
    have hdot : questionDot = some c := by
      cases questionDot <;> simp_all [whole, Node.children_eq, Node.parts_eq, Payload.fields]
    obtain ⟨n, hn, hle, -, hle'⟩ := g.run.placed.children.get?_of_mem hc
    obtain ⟨n', hn', hquestion, hempty⟩ := hmark c hdot
    cases hn.symm.trans (hgrown.get? hn')
    exact .accessMark (hgrown'.get? hn) hquestion hempty hm hwhole (hpos ▸ hle) (hstop ▸ hle')
  refine .isAt (.ite (fun _ => ?_) fun _ => ?_)
  · refine (literalNode_takes g.ready.ok hkind).bind fun text t ht => ?_
    exact hrest text t ht.run.grows (g.goTook ht.run (ht.ahead rfl))
  · refine (template_takes g.ready hkind).bind fun text t ht => ?_
    exact hrest text t ht.run.grows (g.goTook ht.run (ht.ahead rfl))

/-- No token has been read over, and the nodes are as they were. -/
structure Stayed (s t : ParserState) : Prop where
  token : t.token = s.token
  grows : s.arena.Grows t.arena

theorem Stayed.refl (s : ParserState) : Stayed s s := ⟨rfl, .refl _⟩

theorem Stayed.trans {u : ParserState} (h : Stayed s t) (h' : Stayed t u) : Stayed s u :=
  ⟨h'.token.trans h.token, h.grows.trans h'.grows⟩

/-- What one turn of a chain comes to: a longer chain and a token read over, or the end of the
chain, where the node is still the same unless a token has been read over. -/
abbrev Links (env : Surroundings) (rank : Nat) (took : Bool) (r m : ParserState)
    (Rests : ParserState → ParserState → Prop) (object : NodeId) (s : ParserState) :
    Turn NodeId → ParserState → Prop :=
  Turn.Leads (fun id t => Sofar env rank took r m t [.node id])
    (fun id t => Sofar env rank took r m t [.node id]
      ∧ (s.pos < t.pos ∨ (Rests s t ∧ id = object))) s

/-- What follows a mark of optional access that is no name: an index or a template. -/
def startsLink (k : Kind) : Bool :=
  k == .punct .openBracket || k == .literal .noSubstitutionTemplate || k == .template .head

/-- A link after the dot, if there was one, and after a mark of optional access, which something
follows that continues the chain. -/
theorem memberLink_ends {o : ParserState}
    (g : Sofar env rank took r m s (.node object :: held questionDot)) (hle : o.pos ≤ s.pos)
    (hmark : MarksAccess s.arena questionDot)
    (hlink : questionDot.isSome = true → startsLink s.token.kind = true)
    (hstayed : questionDot = none → Stayed o s) :
    (memberLink r.pos object questionDot).Ends env s (Links env rank took r m Stayed object o) := by
  have hagain {p : Parser NodeId} (t : ParserState)
      (hp : p.Ends env t fun id u => Handed env.file.text true r s u (held id)) :
      (p >>= fun id => pure (Turn.again id)).Ends env t (Links env rank took r m Stayed object o) :=
    hp.bind fun id u hu => .pure ⟨g.resume hu, Nat.lt_of_le_of_lt hle (hu.ahead rfl)⟩
  have hasks : (pure questionDot.isNone <&&> isAtPunct .exclamation).Asks env s := by
    cases questionDot <;> rfl
  unfold memberLink
  refine .ask hasks ?_
  extract_lets atTemplate atBracket
  have htemplate (hno : questionDot.isSome = true → s.token.kind ≠ .punct .openBracket) :
      (atTemplate ()).Ends env s (Links env rank took r m Stayed object o) := by
    refine .kind ?_
    split
    · exact hagain s (taggedTemplate_takes g.mark hmark (by simp [*]))
    · exact hagain s (taggedTemplate_takes g.mark hmark (by simp [*]))
    · cases questionDot with
      | none => exact .pure ⟨⟨g, .inr ⟨hstayed rfl, rfl⟩⟩, hle⟩
      | some dot =>
        have hlink := hlink rfl
        simp_all [startsLink]
  have hbracket : (atBracket ()).Ends env s (Links env rank took r m Stayed object o) := by
    refine .context (.ite (fun _ => ?_) fun hdecorator => htemplate fun hsome => ?_)
    · exact g.mark.acceptPunct (fun t _ g' => hagain t (memberByIndex_gives g')) fun hno =>
        htemplate fun _ => hno
    · simp [hsome] at hdecorator
  refine .ite (fun hyes => .afterLineBreak (.ite (fun _ => ?_) fun _ => hbracket)) fun _ => hbracket
  cases questionDot with
  | some dot => cases (answer_and hyes rfl).1
  | none =>
    have hkind : s.token.kind = .punct .exclamation := beq_iff_eq.mp (answer_and hyes rfl).2
    refine g.mark.stepTook (nextToken_takes g.ready.ok (by simp [hkind])) fun _ t g' => ?_
    exact hagain t (g'.finishProduction rfl (by simp [Payload.fields]) rfl)

/-- What is found out about the next token holds of it. -/
theorem answer_peek_kindIs (c : Kind → Bool) (env : Surroundings) (s : ParserState) :
    (peek (kindIs c)).answer env s = c (ReadingMode.scan.read env.file.text s.token).1.kind := by
  show c (nextToken env s).2.token.kind = _
  rw [nextToken, token_advance]

theorem memberTurn_ends (optionalAllowed : Bool) (g : Sofar env rank took r m s [.node object]) :
    (memberTurn r.pos optionalAllowed object).Ends env s (Links env rank took r m Stayed object s) := by
  have hagain {p : Parser NodeId} (t : ParserState)
      (hp : p.Ends env t fun id u => Handed env.file.text true r s u (held id)) :
      (p >>= fun id => pure (Turn.again id)).Ends env t (Links env rank took r m Stayed object s) :=
    hp.bind fun id u hu => .pure ⟨g.resume hu, hu.ahead rfl⟩
  have hmember : startsOptionalMember.Asks env s :=
    (Inquires.and (o := true) (.isAtPunct _) (.peek (Inquires.kindIs _).toScouts)).asks g.ready.ok
  have hasks : (pure optionalAllowed <&&> startsOptionalMember).Asks env s := by
    cases optionalAllowed with
    | true => exact hmember
    | false => rfl
  refine .ask hasks (.ite (fun hyes => ?_) fun _ => ?_)
  · obtain ⟨hquestion, hnext⟩ := answer_and (answer_and hyes rfl).2 rfl
    have hkind : s.token.kind = .punct .questionDot := beq_iff_eq.mp hquestion
    rw [answer_peek_kindIs] at hnext
    refine (expectToken_ends g.ready.ok hkind).bind fun dot t ht => ?_
    rw [← ht.token] at hnext
    have htook := ht.pos_lt g.ready.ok (by simp [hkind])
    refine .kindIs (.ite (fun _ => ?_) fun hname => ?_)
    · exact hagain t (memberByName_gives (g.mark.goTook ht.run htook))
    · obtain ⟨n, hn, hdot, -, -, hempty⟩ := ht.node
      refine memberLink_ends (g.go ht.run) ht.run.forward ?_ (fun _ => ?_) nofun
      · rintro _ ⟨⟩
        exact ⟨n, hn, hdot, hempty⟩
      · simpa [hname, startsLink] using hnext
  · refine g.mark.acceptPunct (fun t _ g' => hagain t (memberByName_gives g')) fun _ => ?_
    exact memberLink_ends g (Nat.le_refl _) nofun nofun fun _ => .refl s

end

/-- After a chain a token has been read over, or the node is still the one it started with. -/
structure Chained (env : Surroundings) (rank : Nat) (took : Bool) (r m : ParserState)
    (Rests : ParserState → ParserState → Prop) (s : ParserState) (first id : NodeId)
    (t : ParserState) : Prop where
  sofar : Sofar env rank took r m t [.node id]
  outcome : s.pos < t.pos ∨ (Rests s t ∧ id = first)
  forward : s.pos ≤ t.pos

/-- Links make a chain. -/
theorem chain_ends {Rests : ParserState → ParserState → Prop} {first : NodeId}
    {turn : NodeId → Parser (Turn NodeId)} (g : Sofar env rank took r m s [.node first])
    (hturn : ∀ id t, Sofar env rank took r m t [.node id] →
      (turn id).Ends env t (Links env rank took r m Rests id t)) :
    (repeating first turn).Ends env s fun id t => Chained env rank took r m Rests s first id t := by
  refine (repeating_ends (P := Chained env rank took r m Eq s first)
    (Q := Chained env rank took r m Rests s first) ⟨g, .inr ⟨rfl, rfl⟩, Nat.le_refl _⟩
    (fun _ _ h => h.sofar.ready.ok.pos_le_size) fun id t h => ?_).mono fun _ _ h => h.1
  refine (hturn id t h.sofar).mono fun o u hu => ?_
  cases o with
  | again id' =>
    obtain ⟨g, hread⟩ := hu
    exact ⟨⟨g, .inl (Nat.lt_of_le_of_lt h.forward hread), Nat.le_trans h.forward (Nat.le_of_lt hread)⟩, hread⟩
  | done id' =>
    obtain ⟨⟨g, hmoved⟩, hle⟩ := hu
    refine ⟨⟨g, ?_, Nat.le_trans h.forward hle⟩, hle⟩
    rcases h.outcome with hread | ⟨rfl, rfl⟩
    · exact .inl (Nat.lt_of_lt_of_le hread hle)
    · exact hmoved

theorem memberRest_ends {first : NodeId} (optionalAllowed : Bool)
    (g : Sofar env rank took r m s [.node first]) :
    (memberRest r.pos first optionalAllowed).Ends env s (Chained env rank took r m Stayed s first) :=
  chain_ends g fun _ _ g => memberTurn_ends optionalAllowed g

theorem callTurn_ends {first : NodeId} (g : Sofar env rank took r m s [.node first]) :
    (callTurn r.pos first).Ends env s (Links env rank took r m Stayed first s) := by
  refine (memberRest_ends true g).bind fun callee t ht => ?_
  refine (acceptToken_ends ht.sofar.ready.ok).bind fun questionDot u hu => ?_
  have hmoved : Sofar env rank took r m u (.node callee :: held questionDot) ∧ s.pos ≤ u.pos
      ∧ (s.pos < u.pos ∨ (Stayed s u ∧ callee = first ∧ questionDot = none)) := by
    rcases hu with ⟨id, rfl, hkind, hu⟩ | ⟨rfl, -, rfl⟩
    · have hread := Nat.lt_of_le_of_lt ht.forward (hu.pos_lt ht.sofar.ready.ok (by simp [hkind]))
      exact ⟨ht.sofar.go hu.run, Nat.le_of_lt hread, .inl hread⟩
    · exact ⟨ht.sofar, ht.forward, ht.outcome.imp_right fun h => ⟨h.1, h.2, rfl⟩⟩
  obtain ⟨g, hle, hmoved⟩ := hmoved
  refine .kind ?_
  extract_lets rest
  refine .via (P := fun typeArguments v =>
      Sofar env rank took r m v (.node callee :: held questionDot ++ held typeArguments)
        ∧ s.pos ≤ v.pos ∧ (typeArguments.isSome = true → v.token.kind = .punct .openParen)
        ∧ (typeArguments = none →
          s.pos < v.pos ∨ (Stayed s v ∧ callee = first ∧ questionDot = none)))
    rest (fun typeArguments v ⟨g, hle, hparen, hmoved⟩ => ?_) fun hrest => ?_
  · have hasks : (pure typeArguments.isSome <||> isAtPunct .openParen).Asks env v := by
      cases typeArguments <;> rfl
    refine .ask hasks (.ite (fun hcall => ?_) fun hno => ?_)
    · have hkind : v.token.kind = .punct .openParen :=
        (answer_or hcall rfl).elim hparen beq_iff_eq.mp
      refine (linkFlags_ends questionDot g (by simp)).bind ?_
      rintro flags v ⟨rfl, herror⟩
      refine g.mark.stepTook (arguments_takes g.ready hkind) fun list w g' => ?_
      refine (g'.finishFlagged rfl (by simp [Payload.fields]) rfl herror).bind fun id x hx => ?_
      exact .pure ⟨g.resume hx, Nat.lt_of_le_of_lt hle (hx.ahead rfl)⟩
    · cases typeArguments with
      | some list => cases hno
      | none =>
        cases questionDot with
        | none => exact .pure ⟨⟨g.parts (by simp), (hmoved rfl).imp_right fun h => ⟨h.1, h.2.1⟩⟩, hle⟩
        | some questionDot =>
          have hread := (hmoved rfl).resolve_right fun h => by cases h.2.2
          refine g.mark.step (missingHere_gives rfl _ _ g.ready.ok) fun name w g' => ?_
          refine (g'.finishFlagged rfl (by simp [Payload.fields]) rfl rfl).bind fun id x hx => ?_
          have hread' := Nat.lt_of_lt_of_le hread hx.forward
          exact .pure ⟨⟨g.resume hx, .inl hread'⟩, Nat.le_of_lt hread'⟩
  · have hcall : (callTypeArguments >>= rest).Ends env u (Links env rank took r m Stayed first s) := by
      refine (callTypeArguments_ends g.ready).bind fun typeArguments v hv => hrest typeArguments v ?_
      rcases hv with ⟨list, rfl, hrun, hkind⟩ | ⟨rfl, hv⟩
      · refine ⟨g.go hrun, Nat.le_trans hle hrun.forward, fun _ => hkind, fun hnone => ?_⟩
        cases hnone
      · refine ⟨(g.goOn hv.toRun).parts (by simp), Nat.le_trans hle hv.forward, fun hsome => ?_,
          fun _ => ?_⟩
        · cases hsome
        rcases hmoved with hread | ⟨hstayed, hrest⟩
        · exact .inl (Nat.lt_of_lt_of_le hread hv.forward)
        · exact .inr ⟨hstayed.trans ⟨hv.token, hv.grows⟩, hrest⟩
    split
    · exact hcall
    · exact hcall
    · refine hrest none u ⟨g.parts (by simp), hle, fun hsome => ?_, fun _ => hmoved⟩
      cases hsome

/-- The calls and members after an expression are handed over with it. -/
theorem callRest_ends {first : NodeId} (g : Sofar env rank took r m s [.node first]) :
    (callRest r.pos first).Ends env s (Chained env rank took r m Stayed s first) :=
  chain_ends g fun _ _ g => callTurn_ends g

/-! ## 5. Operands -/

theorem parenthesized_takes (h : env.Ready rank s) (hkind : s.token.kind = .punct .openParen) :
    parenthesized.Gives env true s s := by
  refine .nodePos ((Sofar.start h).stepTook (expectPunct_takes h.ok hkind) fun _ t g => ?_)
  refine g.step (parseIn_gives .expression g.ready (by decide) trivial) fun inner t g => ?_
  refine g.step (expectPunct_gives _ g.ready.ok) fun _ t g => ?_
  exact g.finishProduction rfl (by simp [Payload.fields]) rfl

theorem newExpression_takes (h : env.Ready rank s) (hkind : s.token.kind = .keyword .newKw) :
    newExpression.Gives env true s s := by
  refine .nodePos ((Sofar.start h).stepTook (expectKeyword_takes h.ok hkind) fun _ t g => ?_)
  refine g.acceptPunct (fun u _ g => ?_) fun _ => .nodePos ?_
  · refine g.step (name_gives g.ready.ok) fun name t g => ?_
    exact g.finishProduction rfl (by simp [Payload.fields]) rfl
  -- The callee is a chain of its own, which starts behind the keyword.
  have gcallee := Sofar.start g.ready
  refine gcallee.step (parse_gives .primary g.ready (by decide) trivial) fun first u gcallee => ?_
  refine (memberRest_ends false gcallee).bind fun callee v hv => ?_
  have g := g.go hv.sofar.run
  refine .isAt ?_
  extract_lets rest
  refine g.fork rest (fun typeArguments w g => .isAt ?_) fun hrest => .ite (fun _ => ?_) fun _ => ?_
  · extract_lets rest
    refine g.fork rest (fun list x g => ?_) fun hrest => .ite (fun hparen => ?_) fun _ => ?_
    · exact g.finishProduction rfl (by simp [Payload.fields]) rfl
    · exact g.step (arguments_takes g.ready (beq_iff_eq.mp hparen)).weaken fun list x g =>
        hrest (some list) x g
    · exact hrest none w (g.parts (by simp))
  · exact g.step (callTypeArguments_gives g.ready) hrest
  · exact hrest none v (g.parts (by simp))

theorem kind_rescanSlash {t : Token} (text : Array Char)
    (hkind : t.kind = .punct .slash ∨ t.kind = .punct .slashEquals) :
    (t.rescanSlash text).1.kind = .literal .regularExpression := by
  unfold Token.rescanSlash
  rcases hkind with hkind | hkind
  · rw [hkind]
    rfl
  · rw [hkind]
    rfl

theorem regularExpression_takes (h : s.Ok env.file.text)
    (hkind : s.token.kind = .punct .slash ∨ s.token.kind = .punct .slashEquals) :
    regularExpression.Gives env true s s := by
  have hscanned : (advance .rescanSlash).Ends env s fun _ t =>
      t.token.kind = .literal .regularExpression := by
    show Token.kind _ = _
    rw [token_advance]
    exact kind_rescanSlash env.file.text hkind
  have hread := (advance_ends .rescanSlash h (.of_ne (by decide) (by decide))).toRun
  refine Ends.bind (P := fun _ t => Run env.file.text s t [] ∧ t.token.kind = .literal .regularExpression)
    ⟨hread, hscanned⟩ fun _ t ⟨hrun, hregular⟩ => .isAt (.ite (fun _ => ?_) fun hno => ?_)
  · refine (literalNode_takes hrun.ok (by simp [hregular])).mono fun id u hu => ?_
    exact ⟨hrun.after hu.run, Nat.le_trans hrun.forward hu.forward,
      fun _ => Nat.lt_of_le_of_lt hrun.forward (hu.ahead rfl)⟩
  · exact absurd hregular (by simpa using hno)

/-- An operand took a token; or, where it was not told that one starts, it is a missing name. -/
structure Operand (env : Surroundings) (starts : Bool) (s : ParserState) (id : NodeId)
    (t : ParserState) : Prop where
  run : Run env.file.text s t [.node id]
  outcome : s.pos < t.pos
    ∨ (t.token = s.token ∧ t.arena.kindOf id = .identifier ∧ starts = false)

theorem operand_of_handed {starts : Bool} {id : NodeId}
    (h : Handed env.file.text true s s t [.node id]) : Operand env starts s id t :=
  ⟨h.run, .inl (h.ahead rfl)⟩

theorem Gives.operand {p : Parser NodeId} {starts : Bool} (h : p.Gives env true s s) :
    p.Ends env s (Operand env starts s) :=
  h.mono fun _ _ => operand_of_handed

theorem Operand.mono {starts starts' : Bool} {id : NodeId} (h : Operand env starts s id t)
    (himp : starts' = true → starts = true) : Operand env starts' s id t := by
  refine ⟨h.run, h.outcome.imp_right fun ⟨htoken, hkind, hno⟩ => ⟨htoken, hkind, ?_⟩⟩
  cases starts' with
  | true => exact (himp rfl).symm.trans hno
  | false => rfl

/-- An operand with the members and calls after it. -/
theorem Chained.operand {starts : Bool} {first id : NodeId} {u : ParserState}
    (h : Operand env starts s first t) (hchain : Chained env rank false s s Stayed t first id u) :
    Operand env starts s id u := by
  refine ⟨hchain.sofar.run, ?_⟩
  rcases hchain.outcome with hread | ⟨hstayed, rfl⟩
  · exact .inl (Nat.lt_of_le_of_lt h.run.forward hread)
  · refine h.outcome.imp (fun hread => Nat.lt_of_lt_of_le hread hchain.forward) fun hmissing => ?_
    have hthere : id.index < t.arena.size := h.run.there id (by simp)
    have hsame : u.arena.kindOf id = t.arena.kindOf id := by
      rw [Arena.kindOf, Arena.kindOf, hstayed.grows.get?_eq id hthere]
    exact ⟨hstayed.token.trans hmissing.1, hsame.trans hmissing.2.1, hmissing.2.2⟩

/-- Whether an operand starts that needs no look at the next token. -/
def startsPrimary (env : Surroundings) (s : ParserState) : Bool :=
  s.token.kind.startsOperand || isIdentifier.answer env s

theorem identifierOr_operand (message : Message) (h : s.Ok env.file.text)
    (hstarts : s.token.kind.startsOperand = true → isIdentifier.answer env s = true) :
    (identifierOr message).Ends env s (Operand env (startsPrimary env s) s) := by
  refine (identifierOr_ends message h).mono fun id t ⟨ht, htakes⟩ => ⟨ht.run, ?_⟩
  cases hidentifier : isIdentifier.answer env s with
  | true => exact .inl (htakes hidentifier)
  | false =>
    refine ht.outcome.imp_right fun hstayed => ⟨hstayed.1, ?_, ?_⟩
    · obtain ⟨n, hn, hkind, -⟩ := ht.node
      simp [Arena.kindOf, hn, hkind]
    · grind [startsPrimary]

theorem primary_ends (h : env.Ready rank s) :
    primary.Ends env s (Operand env (startsPrimary env s) s) := by
  refine .kind ?_
  split
  any_goals with_reducible exact (literalNode_takes h.ok (by simp [*])).operand
  any_goals with_reducible exact (tokenNode_takes h.ok (by simp [*])).operand
  · exact (parenthesized_takes h ‹_›).operand
  · exact (arrayLiteral_takes h ‹_›).operand
  · exact (objectLiteral_takes h ‹_›).operand
  · rename_i hkind
    have hasks : (peek (onSameLine (isAtKeyword .functionKw))).Asks env s :=
      (Inquires.peek (o := true) (Inquires.onSameLine (.isAtKeyword _)).toScouts).asks h.ok
    refine .ask hasks (.ite (fun hfunction => ?_) fun _ => ?_)
    · exact (functionExpression_takes h fun scope =>
        .inr (acceptModifier_of_function hkind hfunction scope)).operand
    · exact identifierOr_operand _ h.ok (by simp [hkind, Kind.startsOperand])
  · rename_i hkind
    refine .nodePos ?_
    exact (classLike_takes rfl (.start h) rfl hkind).operand
  · exact (functionExpression_takes h fun _ => .inl ‹_›).operand
  · exact (newExpression_takes h ‹_›).operand
  · exact (regularExpression_takes h.ok (.inl ‹_›)).operand
  · exact (regularExpression_takes h.ok (.inr ‹_›)).operand
  · exact (template_takes h (by simp [*])).operand
  · refine identifierOr_operand _ h.ok fun hoperand => ?_
    have hkind : s.token.kind = .identifier := by
      unfold Kind.startsOperand at hoperand
      split at hoperand <;> first | assumption | contradiction
    rw [isIdentifier, answer_kind, hkind]
    rfl

theorem memberExpression_ends (h : env.Ready rank s) :
    memberExpression.Ends env s (Operand env (startsPrimary env s) s) := by
  refine .nodePos ((primary_ends h).bind fun first t ht => ?_)
  have g : Sofar env rank false s s t [.node first] := (Sofar.start h).go ht.run
  exact (memberRest_ends true g).mono fun id u hu => hu.operand ht

theorem superExpression_takes (h : env.Ready rank s) (hkind : s.token.kind = .keyword .superKw) :
    superExpression.Gives env true s s := by
  refine .nodePos ((Sofar.start h).stepTook (tokenNode_takes h.ok (by simp [hkind])) fun word t g => .kind ?_)
  split
  any_goals with_reducible exact g.done rfl
  refine (require_ends _ g.ready.ok).bind fun found u hu => ?_
  have hreported : Run env.file.text t u [] := by
    rcases hu with ⟨-, -, rfl⟩ | ⟨-, -, hu⟩
    · exact .refl g.ready.ok
    · exact hu.toRun
  have g := g.goOn hreported
  refine g.step (nameAfterDot_gives true g.ready.ok) fun name u g => ?_
  exact g.finishProduction rfl (by simp [Payload.fields]) rfl

theorem startsLeftHandSide_answer (hkind : s.token.kind ≠ .keyword .importKw) :
    startsLeftHandSide.answer env s = startsPrimary env s := by
  rw [startsLeftHandSide, answer_kind]
  unfold startsPrimary
  cases s.token.kind.startsOperand with
  | true => rfl
  | false =>
    simp only [Bool.false_eq_true, if_false, Bool.false_or]

/-- `import` takes a token where it is called or has a member. -/
theorem importExpression_ends (h : env.Ready rank s) (hkind : s.token.kind = .keyword .importKw) :
    (importExpression s.pos).Ends env s (Operand env (startsLeftHandSide.answer env s) s) := by
  have hend : s.token.kind ≠ .endOfFile := by simp [hkind]
  have hcalled : (peek isParenOrLessThan).Asks env s :=
    (Inquires.peek (o := true) isParenOrLessThan_inquires.toScouts).asks h.ok
  have hdot : (peek (isAtPunct .dot)).Asks env s :=
    (Inquires.peek (o := true) (Inquires.isAtPunct _).toScouts).asks h.ok
  refine .ask hcalled (.ite (fun _ => (tokenNode_takes h.ok hend).operand) fun hnocall => ?_)
  refine .ask hdot (.ite (fun hdot => ?_) fun hnodot => ?_)
  · have g := Sofar.start h
    refine Gives.operand (g.stepTook (nextToken_takes h.ok hend) fun _ t g => ?_)
    refine g.step (nextToken_gives g.ready.ok) fun _ t g => ?_
    refine g.step (name_gives g.ready.ok) fun name t g => ?_
    exact g.finishProduction rfl (by simp [Payload.fields]) rfl
  · refine (memberExpression_ends h).mono fun id t ht => ht.mono fun hstarts => ?_
    rw [startsLeftHandSide, answer_kind, hkind] at hstarts
    have hfollows : (isParenOrLessThan <||> isAtPunct .dot).answer env (nextToken env s).2 = true :=
      hstarts
    rcases answer_or hfollows rfl with hyes | hyes
    · exact absurd (hnocall.symm.trans hyes) Bool.false_ne_true
    · exact absurd (hnodot.symm.trans hyes) Bool.false_ne_true

/-- A left-hand side takes a token where one starts. -/
theorem leftHandSide_ends (h : env.Ready rank s) :
    leftHandSide.Ends env s (Production.leftHandSide.Meets env s) := by
  refine .nodePos (.kind ?_)
  have hrest (first : NodeId) (t : ParserState)
      (ht : Operand env (startsLeftHandSide.answer env s) s first t) :
      (callRest s.pos first).Ends env t (Production.leftHandSide.Meets env s) := by
    have g : Sofar env rank false s s t [.node first] := (Sofar.start h).go ht.run
    refine (callRest_ends g).mono fun id u hu => ?_
    have hdone := hu.operand ht
    refine ⟨hdone.run, fun hstarts => ?_, fun _ => hdone.outcome.imp_right fun ⟨htoken, hkind, _⟩ => ⟨htoken, hkind⟩⟩
    exact hdone.outcome.resolve_right fun ⟨_, _, hno⟩ => absurd (hstarts.symm.trans hno) nofun
  split
  · exact (importExpression_ends h ‹_›).bind hrest
  · exact (superExpression_takes h ‹_›).operand.bind hrest
  · rename_i hkind _
    have hsame : startsLeftHandSide.answer env s = _ := startsLeftHandSide_answer hkind
    exact (memberExpression_ends h).bind fun first t ht => hrest first t (hsame ▸ ht)

end Parser

end ScriptSyntax
