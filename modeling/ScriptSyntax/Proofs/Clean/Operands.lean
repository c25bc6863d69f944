/-
  ScriptSyntax/Proofs/Clean/Operands.lean
  =======================================
  Operands and chains of members and calls on clean runs.

  A link of a chain is made around all of the chain before it, which starts where
  the link does.  So a chain of any length is made within the bound of one link.
-/
import ScriptSyntax.Proofs.Clean.Functions

namespace ScriptSyntax

theorem Kind.isSolid_of_isPlainLiteral {k : Kind} (h : k.isPlainLiteral = true) : k.isSolid = true := by
  cases k <;> first | rfl | cases h

namespace Parser

variable {env : Surroundings} {took : Bool} {k : Nat} {r s t : ParserState} {items : List Part}
variable {start : DeclarationStart}

/-! ## 1. Arguments and array elements -/

theorem arrayElement_goes (h : env.Apt s) : arrayElement.Goes env false 1 s := by
  refine .kind ?_
  split
  · refine .nodePos (Ends.mono (P := Made env.file.text 1 s) ?_ fun _ _ ht => ht.went.weaken)
    refine (Going.start 0 h).stepTook (nextToken_passes h (by simp [*])) fun _ t g => ?_
    exact g.step (parse_goes .assignment g.apt trivial) fun inner t g =>
      g.finish rfl (by simp [Node.parts_eq, Payload.fields]) rfl
  · exact .nodePos (omitted_goes h)
  · exact (parse_goes .assignment h trivial).weaken.upTo

theorem argument_goes (h : env.Apt s) : argument.Goes env false 1 s :=
  .withContext h fun _ h => .withContext h fun _ h => arrayElement_goes h

theorem arguments_goes (h : env.Apt s) : arguments.Goes env true 1 s := by
  refine (Going.start 1 h).stepTook (expectPunct_goes _ h) fun _ t g => ?_
  refine g.step (separated_goes g.apt fun _ h => argument_goes h) fun list t g => ?_
  exact g.step (expectPunct_goes _ g.apt) fun _ t g => g.done (by simp)

theorem typeArgumentsBeforeParen_goes (h : env.Apt s) : typeArgumentsBeforeParen.Goes env false 0 s := by
  refine (Going.start 0 h).step (advance_goes .rescanLess h nofun) fun _ t g => .isAt ?_
  refine .ite (fun _ => ?_) fun _ => .pure g.went
  refine g.step (nextToken_goes g.apt) fun _ t g => ?_
  refine g.step (separated_goes g.apt fun _ h => parse_goes .type h trivial) fun list t g => ?_
  refine g.step (expectPunct_goes _ g.apt) fun _ t g => ?_
  refine .ite (fun _ => .isAt (.ite (fun _ => ?_) fun _ => .pure g.went.past)) fun _ => .pure g.went.past
  exact g.done (by simp)

theorem callTypeArguments_goes (h : env.Apt s) : callTypeArguments.Goes env false 0 s := by
  refine (speculate_goes h typeArgumentsBeforeParen_orderly ((typeArgumentsBeforeParen_goes h).mono
    fun _ _ ht _ => ht)).mono fun found t ht => ?_
  rcases ht with ⟨-, ht⟩ | ⟨hnone, ht, -⟩
  · exact ht
  · cases found with
    | none => exact ht
    | some _ => cases hnone

theorem arrayLiteral_produces (h : env.Apt s) : arrayLiteral.Produces env 2 s s := by
  refine .nodePos (.tokenPos ((Going.start 1 h).stepTook (expectPunct_goes _ h) fun opened t g => ?_))
  refine .afterLineBreak (g.step (separated_goes g.apt fun _ h => arrayElement_goes h) fun list t g => ?_)
  exact g.step (expectClosing_goes _ _ _ g.apt) fun _ t g =>
    g.finish rfl (by simp [Node.parts_eq, Payload.fields]) rfl

/-! ## 2. Object literals -/

theorem acceptAccessorWord_goes (keyword : Keyword) (h : env.Apt s) :
    (acceptAccessorWord keyword).Goes env false 0 s := by
  refine .isAt (.ite (fun hkind => ?_) fun _ => .pure (.refl h.fine))
  have hname (moves : Bool) : Orderly moves (onSameLine (isAtPunct .openBracket <||> isPropertyName)) :=
    onSameLine_orderly (.or (.isAtPunct _) isPropertyName_orderly)
  have hgoes := afterNext_goes (hname false) h (by rw [beq_iff_eq.mp hkind]; nofun)
  refine (attemptIf_went h (afterNext_orderly (hname true)) hgoes).mono fun _ _ ht => ?_
  rcases ht with ⟨-, ht⟩ | ⟨-, ht, -⟩
  · exact ht.weaken
  · exact ht

theorem shorthandProperty_produces {name : NodeId} {questionMark : Option NodeId}
    (g : Going env true 6 r s (held start ++ (.node name :: held questionMark))) (hstart : start.pos = r.pos) :
    (shorthandProperty start name questionMark).Produces env 7 r s := by
  refine g.step (acceptToken_goes g.apt rfl) fun equalsSign t g => ?_
  extract_lets rest
  refine g.fork rest (fun initializer t g =>
    g.finish hstart (by simp [Node.parts_eq, Payload.fields, Payload.variableFields]) rfl) fun hrest => .ite (fun _ => ?_) fun _ => ?_
  · exact g.step (parseIn_goes .assignment g.apt (fun _ => trivial)) fun value t g => hrest (some value) t g
  · exact hrest none t (g.parts (by simp))

theorem propertyAssignment_produces {name : NodeId} {questionMark : Option NodeId}
    (g : Going env true 6 r s (held start ++ (.node name :: held questionMark))) (hstart : start.pos = r.pos) :
    (propertyAssignment start name questionMark).Produces env 7 r s := by
  refine g.step (expectPunct_goes _ g.apt) fun _ t g => ?_
  exact g.step (parseIn_goes .assignment g.apt (fun _ => trivial)) fun initializer t g =>
    g.finish hstart (by simp [Node.parts_eq, Payload.fields, Payload.variableFields]) rfl

theorem objectProperty_produces (g : Going env false 6 r s (held start)) (hstart : start.pos = r.pos) :
    (objectProperty start).Produces env 7 r s := by
  refine g.step (acceptToken_goes g.apt rfl) fun asterisk t g => ?_
  refine g.ask isIdentifier_orderly fun canBeVariable t g => ?_
  refine g.stepTook (propertyName_produces g.apt).goes fun name t g => ?_
  refine g.step (acceptToken_goes g.apt rfl) fun questionMark t g => ?_
  refine g.ask (.or (.pure _) isParenOrLessThan_orderly) fun _ t g => .ite (fun _ => ?_) fun _ => ?_
  · exact methodAfterName_produces _ (g.parts (by simp)) hstart
  · have g : Going env true 6 r t (held start ++ (.node name :: held questionMark)) := g.among fun c => by
      simp only [childrenOf_append, childrenOf_node, List.mem_append, List.mem_cons, held_node]
      tauto
    exact .isAt (.ite (fun _ => shorthandProperty_produces g hstart) fun _ => propertyAssignment_produces g hstart)

theorem objectMember_produces (h : env.Apt s) : objectMember.Produces env 7 s s := by
  refine .nodePos ((Going.start 6 h).acceptPunct (fun t g => ?_) ?_)
  · exact g.step (parse_goes .assignment g.apt trivial) fun inner t g =>
      g.finish rfl (by simp [Node.parts_eq, Payload.fields]) rfl
  refine (Going.start 6 h).step (decorators_goes h) fun decorators t g => ?_
  refine g.step (modifiers_goes false g.apt) fun modifiers t g => ?_
  refine g.step (acceptAccessorWord_goes .getKw g.apt) fun _ t g => .ite (fun _ => ?_) fun _ => ?_
  · exact accessor_produces (g.parts (by simp)) rfl rfl
  refine g.step (acceptAccessorWord_goes .setKw g.apt) fun _ t g => .ite (fun _ => ?_) fun _ => ?_
  · exact accessor_produces (g.parts (by simp)) rfl rfl
  · exact objectProperty_produces (g.parts (by simp)) rfl

theorem objectLiteral_produces (h : env.Apt s) : objectLiteral.Produces env 8 s s := by
  refine .nodePos (.tokenPos ((Going.start 7 h).stepTook (expectPunct_goes _ h) fun opened t g => ?_))
  refine .afterLineBreak ?_
  refine g.step (separatedWith_goes true g.apt fun _ h => (objectMember_produces h).goes) fun list t g => ?_
  exact g.step (expectClosing_goes _ _ _ g.apt) fun _ t g =>
    g.finish rfl (by simp [Node.parts_eq, Payload.fields]) rfl

/-! ## 3. Templates -/

theorem templateSpan_went (h : env.Apt s) :
    templateSpan.Ends env s fun result t => Made env.file.text 3 s result.1 t := by
  refine .nodePos ((Going.start 2 h).stepTook (parseIn_goes .expression h (fun _ => trivial)) fun inner t g => .isAt ?_)
  extract_lets rest
  have hrest (text : NodeId) (u : ParserState) (g : Going env true 2 s u [.node inner, .node text]) :
      (rest text).Ends env u fun result v => Made env.file.text 3 s result.1 v :=
    g.ask (.kindOf text) fun _ u g =>
      (g.finish rfl (by simp [Node.parts_eq, Payload.fields]) rfl).bind fun _ _ hu => .pure hu
  refine .ite (fun hbrace => ?_) fun _ => ?_
  · have hfits : ReadingMode.rescanTemplate.FitsToken t.token := fun _ => beq_iff_eq.mp hbrace
    have hread : (advance .rescanTemplate).Ends env t fun _ u =>
        u.token = (ReadingMode.rescanTemplate.read env.file.text t.token).1 := token_advance _ env t
    refine (Ends.and (advance_goes .rescanTemplate g.apt hfits) hread).bind fun _ u hu => ?_
    have hkind : u.token.kind.isSolid = true := by
      rw [hu.2]
      exact Kind.isSolid_of_isPlainLiteral (isPlainLiteral_readTemplate _ _)
    have g := g.goOn hu.1
    exact g.step (literalNode_produces g.apt hkind).goes hrest
  · exact g.step (missingHere_produces (k := 0) (r := t) _ _ _ g.apt).goes hrest

theorem template_produces (h : env.Apt s) (hkind : s.token.kind.isSolid = true) : template.Produces env 4 s s := by
  refine .nodePos ((Going.start 3 h).stepTook (literalNode_produces h hkind).goes fun head t g => .nodePos ?_)
  refine Ends.bind ((Going.start 3 g.apt).loop readParts fun read u g => ?_) fun spans u g' => .nodePos ?_
  · refine (templateSpan_went g.apt).bind fun (span, goesOn) v hv => .pure ?_
    have g : Going env false 3 t v (readParts (span :: read)) := (g.go hv.went (Nat.le_refl 3)).parts (by simp)
    cases goesOn with
    | true => exact g
    | false => exact g
  · have hspans : Going env true 3 s u
        ([Part.node head] ++ [Part.array { pos := t.pos, stop := u.pos, nodes := spans.reverse }]) :=
      g.go (g'.went.array rfl) (Nat.le_refl 3)
    exact hspans.finish rfl (by simp [Node.parts_eq, Payload.fields]) rfl

/-! ## 4. Chains -/

variable {object : NodeId} {questionDot : Option NodeId}

theorem memberByName_produces (h : Made env.file.text 8 r object s)
    (g : Going env took 7 s t (held questionDot)) : (memberByName r.pos object questionDot).Produces env 8 r t := by
  refine g.ask (linkFlags_orderly _ _) fun flags t g => ?_
  exact g.step (nameAfterDot_produces true g.apt).goes fun name t g =>
    h.finish g rfl (by simp [Node.parts_eq, Payload.fields]) rfl

theorem memberByIndex_produces (h : Made env.file.text 8 r object s)
    (g : Going env took 7 s t (held questionDot)) : (memberByIndex r.pos object questionDot).Produces env 8 r t := by
  refine g.ask (linkFlags_orderly _ _) fun flags t g => .isAt ?_
  extract_lets rest
  refine g.fork rest (fun index t g => ?_) fun hrest => .ite (fun _ => ?_) fun _ => ?_
  · exact g.step (expectPunct_goes _ g.apt) fun _ t g =>
      h.finish g rfl (by simp [Node.parts_eq, Payload.fields]) rfl
  · exact g.step (missingBefore_produces (k := 0) (r := t) _ _ _ g.apt).goes hrest
  · exact g.step (parseIn_goes .expression g.apt (fun _ => trivial)) hrest

theorem taggedTemplate_produces (h : Made env.file.text 8 r object s) (g : Going env took 7 s t [])
    (hkind : t.token.kind.isSolid = true) : (taggedTemplate r.pos object).Produces env 8 r t := by
  refine .isAt ?_
  extract_lets rest
  refine g.fork rest (fun text t g =>
    h.finish g rfl (by simp [Node.parts_eq, Payload.fields]) rfl) fun hrest => .ite (fun _ => ?_) fun _ => ?_
  · exact g.step (literalNode_produces g.apt hkind).goes hrest
  · exact g.step (template_produces g.apt hkind).goes hrest

/-- What a turn makes of a chain: another link, or the end of it. -/
abbrev LinksTo (env : Surroundings) (r : ParserState) : Turn NodeId → ParserState → Prop :=
  Turn.Comes (Made env.file.text 8 r) (Made env.file.text 8 r)

theorem memberLink_links (h : Made env.file.text 8 r object s) (g : Going env took 7 s t (held questionDot)) :
    (memberLink r.pos object questionDot).Ends env t (LinksTo env r) := by
  have hlink {p : Parser NodeId} {t : ParserState} (hp : p.Produces env 8 r t) :
      (do return .again (← p) : Parser (Turn NodeId)).Ends env t (LinksTo env r) :=
    hp.bind fun _ _ hu => .pure hu
  refine g.ask (.and (.pure _) (.isAtPunct _)) fun _ t g => ?_
  extract_lets atTemplate atBracket
  have htemplate (t : ParserState) (g : Going env took 7 s t (held questionDot)) :
      (atTemplate ()).Ends env t (LinksTo env r) := by
    have g' : Going env took 7 s t [] := g.among (by simp)
    refine .kind ?_
    split
    · exact hlink (taggedTemplate_produces h g' (by simp [*, Kind.isSolid]))
    · exact hlink (taggedTemplate_produces h g' (by simp [*, Kind.isSolid]))
    · exact .pure (h.goOn g.went)
  have hbracket (t : ParserState) (g : Going env took 7 s t (held questionDot)) :
      (atBracket ()).Ends env t (LinksTo env r) := by
    refine .context (.ite (fun _ => ?_) fun _ => htemplate t g)
    exact g.acceptPunct (fun u g => hlink (memberByIndex_produces h g)) (htemplate t g)
  refine .ite (fun _ => .afterLineBreak (.ite (fun _ => ?_) fun _ => hbracket t g)) fun _ => hbracket t g
  have g : Going env took 7 s t [] := g.among (by simp)
  exact g.step (nextToken_goes g.apt) fun _ t g => hlink (h.finish g rfl (by simp [Node.parts_eq, Payload.fields]) rfl)

theorem memberTurn_links (optionalAllowed : Bool) (hserves : env.Serves) (h : Made env.file.text 8 r object s) :
    (memberTurn r.pos optionalAllowed object).Ends env s (LinksTo env r) := by
  have hlink {p : Parser NodeId} {t : ParserState} (hp : p.Produces env 8 r t) :
      (do return .again (← p) : Parser (Turn NodeId)).Ends env t (LinksTo env r) :=
    hp.bind fun _ _ hu => .pure hu
  have g := Going.start 7 (h.apt hserves)
  refine g.ask (.and (.pure _) startsOptionalMember_orderly) fun _ t g => .ite (fun _ => ?_) fun _ => ?_
  · refine g.step (expectToken_produces g.apt rfl).goes fun questionDot t g => ?_
    have g : Going env false 7 s t (held (some questionDot)) := g
    refine g.ask isName_orderly fun _ t g => .ite (fun _ => ?_) fun _ => memberLink_links h g
    exact hlink (memberByName_produces h g)
  · exact g.acceptPunct (fun u g => hlink (memberByName_produces h g)) (memberLink_links h g)

theorem memberRest_produces (optionalAllowed : Bool) (hserves : env.Serves)
    (h : Made env.file.text 8 r object s) : (memberRest r.pos object optionalAllowed).Produces env 8 r s :=
  repeating_produces h fun _ _ ht => memberTurn_links optionalAllowed hserves ht

theorem callTurn_links (hserves : env.Serves) (h : Made env.file.text 8 r object s) :
    (callTurn r.pos object).Ends env s (LinksTo env r) := by
  refine (memberRest_produces true hserves h).bind fun callee t hcallee => ?_
  refine (Going.start 7 (hcallee.apt hserves)).step (acceptToken_goes (hcallee.apt hserves) rfl) fun questionDot u g => ?_
  refine .kind ?_
  extract_lets rest
  have hrest (typeArguments : Option NodeArray) (u : ParserState)
      (g : Going env false 7 t u ([] ++ held questionDot ++ held typeArguments)) :
      (rest typeArguments).Ends env u (LinksTo env r) := by
    refine g.ask (.or (.pure _) (.isAtPunct _)) fun _ u g => .ite (fun _ => ?_) fun _ => ?_
    · refine g.ask (linkFlags_orderly _ _) fun flags u g => ?_
      refine g.step (arguments_goes g.apt) fun list u g => ?_
      exact (hcallee.finish g rfl (by simp [Node.parts_eq, Payload.fields]) rfl).bind fun _ _ hu => .pure hu
    · cases questionDot with
      | none => exact .pure (hcallee.goOn g.went)
      | some questionDot =>
        have g : Going env false 7 t u [.node questionDot] := g.among (by simp)
        refine g.step (missingHere_produces (k := 0) (r := u) _ _ _ g.apt).goes fun name u g => ?_
        exact (hcallee.finish g rfl (by simp [Node.parts_eq, Payload.fields]) rfl).bind fun _ _ hu => .pure hu
  split
  · exact g.step (callTypeArguments_goes g.apt) hrest
  · exact g.step (callTypeArguments_goes g.apt) hrest
  · exact hrest none u (g.parts (by simp))

theorem callRest_produces (hserves : env.Serves) (h : Made env.file.text 8 r object s) :
    (callRest r.pos object).Produces env 8 r s :=
  repeating_produces h fun _ _ ht => callTurn_links hserves ht

/-! ## 5. Operands -/

theorem parenthesized_produces (h : env.Apt s) : parenthesized.Produces env 3 s s := by
  refine .nodePos ((Going.start 2 h).stepTook (expectPunct_goes _ h) fun _ t g => ?_)
  refine g.step (parseIn_goes .expression g.apt (fun _ => trivial)) fun inner t g => ?_
  exact g.step (expectPunct_goes _ g.apt) fun _ t g =>
    g.finish rfl (by simp [Node.parts_eq, Payload.fields]) rfl

/-- The callee after `new` is read without the depth of nesting being checked. -/
theorem newExpression_produces (h : env.Apt s) : newExpression.Produces env 2 s s := by
  refine .nodePos ((Going.start 1 h).stepTook (expectKeyword_goes _ h) fun _ t g => ?_)
  refine g.acceptPunct (fun t g => ?_) (.nodePos ?_)
  · exact g.step (name_produces g.apt).goes fun name t g =>
      g.finish rfl (by simp [Node.parts_eq, Payload.fields]) rfl
  refine (parse_produces .primary g.apt trivial).bind fun first u hfirst => ?_
  refine (memberRest_produces false h.serves hfirst).bind fun callee v hcallee => .isAt ?_
  have g := g.goOnTook hcallee.went.past
  have g' := Going.start 1 g.apt
  extract_lets rest
  refine g'.fork rest (fun typeArguments w g' => .isAt ?_) fun hrest => .ite (fun _ => ?_) fun _ => ?_
  · extract_lets rest
    refine g'.fork rest (fun list w g' => ?_) fun hrest => .ite (fun _ => ?_) fun _ => ?_
    · exact g.finishUnguarded hcallee g' (List.mem_singleton_self _) rfl
        (by simp [Node.parts_eq, Payload.fields]) rfl (by decide)
    · exact g'.step (arguments_goes g'.apt) fun list w g' => hrest (some list) w g'
    · exact hrest none w (g'.parts (by simp))
  · exact g'.step (callTypeArguments_goes g'.apt) hrest
  · exact hrest none v (g'.parts (by simp))

theorem regularExpression_produces (h : env.Apt s) : regularExpression.Produces env 1 s s := by
  refine (advance_rescans .rescanSlash h rfl nofun).bind fun _ t ⟨ht, hpos⟩ => .isAt (.ite (fun hkind => ?_) fun _ => ?_)
  · have h := ((Going.start 0 h).goOn ht).apt
    exact (literalNode_produces h (by rw [beq_iff_eq.mp hkind]; rfl)).mono fun _ _ hu => ht.madeAt hpos hu
  · exact (identifierOr_produces _ ((Going.start 0 h).goOn ht).apt).mono fun _ _ hu => ht.madeAt hpos hu

theorem primary_produces (h : env.Apt s) : primary.Produces env 8 s s := by
  refine .kind ?_
  split
  case h_1 | h_2 | h_3 | h_4 => exact (literalNode_produces h (by simp [*, Kind.isSolid])).upTo
  case h_5 | h_6 | h_7 | h_8 | h_9 => exact (tokenNode_produces h (by simp [*, Kind.isSolid])).upTo
  case h_10 => exact (parenthesized_produces h).upTo
  case h_11 => exact (arrayLiteral_produces h).upTo
  case h_12 => exact objectLiteral_produces h
  case h_13 =>
    refine Produces.ask h (peek_orderly (onSameLine_orderly (.isAtKeyword _))) fun _ t _ h => ?_
    exact .ite (fun _ => (functionExpression_produces h).upTo) fun _ => (identifierOr_produces _ h).upTo
  case h_14 => exact .nodePos (classLike_produces ((Going.start 7 h).parts (by simp)) rfl rfl)
  case h_15 => exact (functionExpression_produces h).upTo
  case h_16 => exact (newExpression_produces h).upTo
  case h_17 | h_18 => exact (regularExpression_produces h).upTo
  case h_19 => exact (template_produces h (by simp [*, Kind.isSolid])).upTo
  case h_20 => exact (identifierOr_produces _ h).upTo

theorem memberExpression_produces (h : env.Apt s) : memberExpression.Produces env 8 s s :=
  .nodePos ((primary_produces h).bind fun _ _ ht => memberRest_produces true h.serves ht)

theorem superExpression_produces (h : env.Apt s) (hkind : s.token.kind.isSolid = true) :
    superExpression.Produces env 8 s s := by
  refine .nodePos ((tokenNode_produces h hkind).bind fun word t ht => .kind ?_)
  have hword : Made env.file.text 8 s word t := ht.mono (by decide)
  split
  case h_4 =>
    have g := Going.start 7 (hword.apt h.serves)
    refine g.step (require_goes _ _ g.apt) fun _ u g => ?_
    exact g.step (nameAfterDot_produces true g.apt).goes fun name u g =>
      hword.finish g rfl (by simp [Node.parts_eq, Payload.fields]) rfl
  all_goals exact .pure hword

theorem importExpression_produces (h : env.Apt s) (hkind : s.token.kind.isSolid = true) :
    (importExpression s.pos).Produces env 8 s s := by
  refine .ask h (peek_orderly isParenOrLessThan_orderly) fun _ t ht h => .ite (fun _ => ?_) fun _ => ?_
  · exact (tokenNode_produces h (ht ▸ hkind)).upTo
  refine Produces.ask h (peek_orderly (.isAtPunct _)) fun _ u hu h => .ite (fun _ => ?_) fun _ => memberExpression_produces h
  refine (Going.start 7 h).step (nextToken_goes h) fun _ v g => ?_
  refine g.step (nextToken_goes g.apt) fun _ v g => ?_
  have hpos : s.pos = u.pos := congrArg Token.fullStart (hu.trans ht).symm
  exact g.stepTook (name_produces g.apt).goes fun name v g =>
    g.finish hpos (by simp [Node.parts_eq, Payload.fields]) rfl

theorem leftHandSide_produces (h : env.Apt s) : leftHandSide.Produces env 8 s s := by
  refine .nodePos (.kind ?_)
  extract_lets rest
  have hrest (first : NodeId) (t : ParserState) (ht : Made env.file.text 8 s first t) : (rest first).Produces env 8 s t :=
    callRest_produces h.serves ht
  split
  · exact (importExpression_produces h (by simp [*, Kind.isSolid])).bind hrest
  · exact (superExpression_produces h (by simp [*, Kind.isSolid])).bind hrest
  · exact (memberExpression_produces h).bind hrest

end Parser

end ScriptSyntax
