/-
  ScriptSyntax/Proofs/Clean/Functions.lean
  ========================================
  Functions, classes and arrow functions on clean runs.
-/
import ScriptSyntax.Proofs.Clean.Types
import ScriptSyntax.Proofs.Grammar.Arrows
import ScriptSyntax.Proofs.Orderly.Expressions

namespace ScriptSyntax

namespace Parser

variable {env : Surroundings} {took : Bool} {k : Nat} {r s t : ParserState} {items : List Part}
variable {start : DeclarationStart}

/-! ## 1. Blocks -/

theorem parseStatement_produces (h : env.Apt s) (_ : s.token.kind ≠ .endOfFile) :
    (parse .statement).Produces env 0 s s :=
  parse_produces .statement h trivial

theorem blockWith_produces (braceOptional : Bool) (m : Option Message) (h : env.Apt s) :
    (blockWith braceOptional m).Produces env 1 s s := by
  refine .nodePos (.tokenPos ((Going.start 0 h).stepTook (expectWith_goes m h nofun) fun opened t g => ?_))
  refine .ite (fun _ => .afterLineBreak ?_) fun _ => ?_
  · refine g.step (elements_goes g.apt fun _ => parseStatement_produces) fun statements t g => ?_
    exact g.step (expectClosing_goes _ _ _ g.apt) fun _ t g =>
      g.finish rfl (by simp [Node.parts_eq, Payload.fields]) rfl
  · exact g.step (missingList_goes g.apt) fun statements t g =>
      g.finish rfl (by simp [Node.parts_eq, Payload.fields]) rfl

theorem functionBodyWith_produces (mode : SignatureMode) (braceOptional : Bool) (m : Option Message)
    (h : env.Apt s) : (functionBodyWith mode braceOptional m).Produces env 1 s s :=
  .withContext h fun _ h => .withContext h fun _ h => blockWith_produces _ _ h

theorem optionalFunctionBody_goes (mode : SignatureMode) (m : Option Message) (h : env.Apt s) :
    (optionalFunctionBody mode m).Goes env false 1 s := by
  refine .isAt (Goes.ask h .canEndStatement fun _ t _ h => .ite (fun _ => ?_) fun _ => ?_)
  · exact (semicolon_goes h).upTo.bind fun _ _ ht => ht
  · exact (functionBodyWith_produces mode false m h).bind fun _ _ ht => .pure ht.went.weaken

/-! ## 2. Functions -/

/-- What comes before the parameters of a function is handed on with the function. -/
theorem functionParts_going {mode : SignatureMode} {asterisk name questionMark : Option NodeId}
    (before : List Part) (m : Option Message)
    (g : Going env took 6 r s (before ++ (held asterisk ++ (held name ++ held questionMark)))) :
    (functionParts mode asterisk name questionMark m).Ends env s
      fun f t => Going env true 6 r t (before ++ held f) := by
  refine g.stepTook (signature_goes mode g.apt) fun shape t g => ?_
  exact g.step (optionalFunctionBody_goes mode m g.apt) fun body t g => .pure (g.parts (by simp))

theorem functionDeclaration_produces (g : Going env false 6 r s (held start)) (hstart : start.pos = r.pos) :
    (functionDeclaration start).Produces env 7 r s := by
  refine g.stepTook (expectKeyword_goes _ g.apt) fun _ t g => ?_
  refine g.step (acceptToken_goes g.apt rfl) fun asterisk t g => ?_
  refine g.ask (hasModifier_orderly _ _) fun _ t g => ?_
  extract_lets rest
  refine g.fork rest (fun name t g => ?_) fun hrest => .ite (fun _ => ?_) fun _ => ?_
  · refine g.ask (functionMode_orderly _ _) fun mode t g => ?_
    refine (functionParts_going (held start) _ (g.parts (by simp))).bind fun shape t g => ?_
    exact g.finish hstart (by simp [Node.parts_eq, Payload.fields, Payload.functionFields]) rfl
  · exact g.step (optionalIdentifier_goes g.apt) hrest
  · exact g.step (identifier_produces g.apt).goes fun name t g => hrest (some name) t g

theorem functionExpression_produces (h : env.Apt s) : functionExpression.Produces env 7 s s := by
  refine .withContext h fun s h => .nodePos ?_
  refine (Going.start 6 h).step (modifiers_goes false h) fun modifiers t g => ?_
  refine g.stepTook (expectKeyword_goes _ g.apt) fun _ t g => ?_
  refine g.step (acceptToken_goes g.apt rfl) fun asterisk t g => ?_
  refine g.ask (functionMode_orderly _ _) fun mode t g => ?_
  refine g.step (.withContext g.apt fun _ h => optionalIdentifier_goes h) fun name t g => ?_
  refine g.step (signature_goes mode g.apt) fun shape t g => ?_
  exact g.step (functionBodyWith_produces mode false none g.apt).goes fun body t g =>
    g.finish rfl (by simp [Node.parts_eq, Payload.fields, Payload.functionFields]) rfl

theorem accessor_produces {kind : NodeKind} (g : Going env took 6 r s (held start)) (hstart : start.pos = r.pos)
    (hkind : (Kind.node kind).isSolid = true) : (accessor kind start).Produces env 7 r s := by
  refine g.stepTook (propertyName_produces g.apt).goes fun name t g => ?_
  refine (functionParts_going (held start) none (g.parts (by simp))).bind fun shape t g => ?_
  exact g.finish hstart (by simp [Node.parts_eq, Payload.fields, Payload.functionFields]) hkind

theorem constructorMember_produces (g : Going env took 6 r s (held start)) (hstart : start.pos = r.pos) :
    (constructorMember start).Produces env 7 r s := by
  refine g.stepTook (expectKeyword_goes _ g.apt) fun _ t g => ?_
  refine (functionParts_going (held start) _ (g.parts (by simp))).bind fun shape t g => ?_
  exact g.finish hstart (by simp [Node.parts_eq, Payload.fields, Payload.functionFields]) rfl

theorem methodAfterName_produces {asterisk questionMark : Option NodeId} {name : NodeId} (m : Option Message)
    (g : Going env took 6 r s (held start ++ (held asterisk ++ (.node name :: held questionMark))))
    (hstart : start.pos = r.pos) : (methodAfterName start asterisk name questionMark m).Produces env 7 r s := by
  refine g.ask (functionMode_orderly _ _) fun mode t g => ?_
  refine (functionParts_going (held start) m (g.parts (by simp))).bind fun shape t g => ?_
  exact g.finish hstart (by simp [Node.parts_eq, Payload.fields, Payload.functionFields]) rfl

/-! ## 3. Heritage -/

/-- What is inherited is read without the depth of nesting being checked. -/
theorem heritageElement_produces (h : env.Apt s) : heritageElement.Produces env 1 s s := by
  refine .nodePos ((Going.start 0 h).past (parse_produces .leftHandSide h trivial) fun inner t hinner g => ?_)
  refine .isAt ?_
  extract_lets rest
  have g' := Going.start 0 g.apt
  refine g'.fork rest (fun arguments t g' => ?_) fun hrest => .ite (fun _ => ?_) fun _ => ?_
  · exact g.finishUnguarded hinner g' (List.mem_singleton_self _) rfl
      (by simp [Node.parts_eq, Payload.fields]) rfl (by decide)
  · exact g'.step (typeArguments_goes g'.apt) fun list t g => hrest (some list) t g
  · exact hrest none t (g'.parts (by simp))

theorem heritageClause_produces (h : env.Apt s) (hkind : s.token.kind ≠ .endOfFile) :
    heritageClause.Produces env 2 s s := by
  refine .token ((Going.start 1 h).stepTook (nextToken_passes h hkind) fun _ t g => ?_)
  exact g.step (separated_goes g.apt fun _ h => (heritageElement_produces h).goes) fun types t g =>
    g.finish rfl (by simp [Node.parts_eq, Payload.fields]) rfl

theorem heritageClauses_goes (h : env.Apt s) : heritageClauses.Goes env false 2 s := by
  refine .ask h startsHeritageClause_orderly fun _ t _ h => .ite (fun _ => ?_) fun _ => .pure (.refl h.fine)
  exact (elements_goes h fun _ => heritageClause_produces).bind fun _ _ ht => .pure ht

/-! ## 4. Members of classes -/

theorem propertyAfterName_produces {name : NodeId} {questionMark : Option NodeId}
    (g : Going env true 6 r s (held start ++ (.node name :: held questionMark))) (hstart : start.pos = r.pos) :
    (propertyAfterName start name questionMark).Produces env 7 r s := by
  refine g.step (typeAnnotation_goes g.apt) fun type t g => ?_
  refine g.ask (hasModifier_orderly _ _) fun _ t g => ?_
  extract_lets rest
  refine g.fork rest (fun initializer t g => ?_) fun hrest => .ite (fun _ => ?_) fun _ => ?_
  · exact g.step (semicolon_goes g.apt) fun _ t g =>
      g.finish hstart (by simp [Node.parts_eq, Payload.fields, Payload.variableFields]) rfl
  · exact g.step (.withContext g.apt fun _ h => initializer_goes h) hrest
  · exact g.step (.withContext g.apt fun _ h => initializer_goes h) hrest

theorem propertyOrMethod_produces (g : Going env took 6 r s (held start)) (hstart : start.pos = r.pos) :
    (propertyOrMethod start).Produces env 7 r s := by
  refine g.step (acceptToken_goes g.apt rfl) fun asterisk t g => ?_
  refine g.stepTook (propertyName_produces g.apt).goes fun name t g => ?_
  refine g.step (acceptToken_goes g.apt rfl) fun questionMark t g => ?_
  refine g.ask (.or (.pure _) isParenOrLessThan_orderly) fun _ t g => .ite (fun _ => ?_) fun _ => ?_
  · exact methodAfterName_produces _ (g.parts (by simp)) hstart
  · refine propertyAfterName_produces (g.among fun c => ?_) hstart
    simp only [childrenOf_append, childrenOf_node, List.mem_append, List.mem_cons, held_node]
    tauto

theorem memberAfterModifiers_produces (g : Going env took 6 r s (held start)) (hstart : start.pos = r.pos) :
    (memberAfterModifiers start).Produces env 7 r s := by
  refine g.step (acceptContextualWord_goes .getKw g.apt) fun _ t g => .ite (fun _ => ?_) fun _ => ?_
  · exact accessor_produces (g.parts (by simp)) hstart rfl
  refine g.step (acceptContextualWord_goes .setKw g.apt) fun _ t g => .ite (fun _ => ?_) fun _ => ?_
  · exact accessor_produces (g.parts (by simp)) hstart rfl
  have g : Going env took 6 r t (held start) := g.parts (by simp)
  refine .isAt (.ite (fun _ => constructorMember_produces g hstart) fun _ => ?_)
  refine g.ask startsIndexSignature_orderly fun _ t g => .ite (fun _ => indexSignature_produces g hstart) fun _ => ?_
  refine g.ask startsMemberName_orderly fun _ t g => .ite (fun _ => propertyOrMethod_produces g hstart) fun _ => ?_
  refine g.stepTook (missingBefore_produces (k := 0) _ _ _ g.apt).goes fun name t g => ?_
  exact propertyAfterName_produces (g.parts (by simp)) hstart

theorem classMember_produces (h : env.Apt s) : classMember.Produces env 7 s s := by
  refine .nodePos ((Going.start 6 h).acceptPunct (fun t g =>
    g.finish rfl (by simp [Node.parts_eq, Payload.fields]) rfl) ?_)
  refine (Going.start 6 h).step (decorators_goes h) fun decorators t g => ?_
  refine g.step (modifiers_goes true g.apt) fun modifiers t g => ?_
  exact memberAfterModifiers_produces (g.parts (by simp)) rfl

/-! ## 5. Classes -/

theorem className_goes (h : env.Apt s) : className.Goes env false 1 s := by
  refine .ask h isIdentifier_orderly fun _ t _ h => .ite (fun _ => ?_) fun _ => .pure (.refl h.fine)
  refine Goes.ask h ((Orderly.isAtKeyword _).and (peek_orderly isName_orderly)) fun _ t _ h => ?_
  refine .ite (fun _ => .pure (.refl h.fine)) fun _ => ?_
  exact (identifier_produces h).bind fun _ _ ht => .pure ht.went.weaken

theorem classMembers_goes (h : env.Apt s) : classMembers.Goes env true 7 s := by
  refine (Going.start 7 h).stepTook (expectPunct_goes .openBrace h) fun _ t g => .ite (fun _ => ?_) fun _ => ?_
  · refine g.step (elements_goes g.apt fun _ h _ => classMember_produces h) fun list t g => ?_
    exact g.step (expectPunct_goes _ g.apt) fun _ t g => g.done (by simp)
  · exact g.only (missingList_goes g.apt)

theorem classLike_produces {kind : NodeKind} (g : Going env false 7 r s (held start)) (hstart : start.pos = r.pos)
    (hkind : (Kind.node kind).isSolid = true) : (classLike kind start).Produces env 8 r s := by
  refine g.stepTook (expectKeyword_goes _ g.apt) fun _ t g => ?_
  refine g.step (className_goes g.apt) fun name t g => ?_
  refine g.step (typeParameters_goes g.apt) fun typeParameters t g => ?_
  refine g.step (heritageClauses_goes g.apt) fun heritage t g => ?_
  refine g.step (classMembers_goes g.apt) fun members t g => ?_
  exact g.finish hstart (by simp [Node.parts_eq, Payload.fields]) hkind

theorem interfaceDeclaration_produces (g : Going env false 7 r s (held start)) (hstart : start.pos = r.pos) :
    (interfaceDeclaration start).Produces env 8 r s := by
  refine g.stepTook (expectKeyword_goes _ g.apt) fun _ t g => ?_
  refine g.step (identifier_produces g.apt).goes fun name t g => ?_
  refine g.step (typeParameters_goes g.apt) fun typeParameters t g => ?_
  refine g.step (heritageClauses_goes g.apt) fun heritage t g => ?_
  exact g.step (typeMembers_goes g.apt) fun members t g =>
    g.finish hstart (by simp [Node.parts_eq, Payload.fields]) rfl

/-! ## 6. Arrow functions -/

theorem arrowBody_produces (isAsync : Bool) (h : env.Apt s) : (arrowBody isAsync).Produces env 1 s s := by
  refine .isAt (.ite (fun _ => functionBodyWith_produces _ _ _ h) fun _ => ?_)
  refine Produces.ask h startsBareStatement_orderly fun _ t _ h => .ite (fun _ => ?_) fun _ => ?_
  · exact functionBodyWith_produces _ _ _ h
  · exact (parseIn_produces .assignment h (fun _ => trivial)).upTo

/-- The head has been read from where it starts. -/
structure HeadRead (env : Surroundings) (s : ParserState) (head : ArrowHead) (t : ParserState) : Prop where
  start : head.start.pos = s.pos
  went : Went env.file.text true 6 s t (held head)

/-- A head that is certain is there. -/
theorem arrowHead_went (certain : Bool) (h : env.Apt s) :
    (arrowHead certain).Ends env s fun found t =>
      (∀ head, found = some head → HeadRead env s head t) ∧ (certain = true → found.isSome = true) := by
  refine .nodePos ((Going.start 6 h).step (arrowModifiers_goes h) fun modifiers t g => ?_)
  refine (signatureIf_went _ g.apt fun _ => typeAfterColon_goes _).bind fun found u hu => ?_
  cases found with
  | none =>
    refine .pure ⟨nofun, fun hcertain => absurd (hu.2 ?_) Bool.false_ne_true⟩
    simp [hcertain]
  | some shape =>
    have hread : HeadRead env s ⟨{ pos := s.pos, modifiers }, shape⟩ u :=
      ⟨rfl, (g.goTook hu.1 (Nat.le_refl 6)).went.parts (by simp)⟩
    have hhead : ∀ head, some (ArrowHead.mk { pos := s.pos, modifiers } shape) = some head →
        HeadRead env s head u := by
      rintro _ ⟨⟩
      exact hread
    refine .ite (fun _ => .pure ⟨hhead, fun _ => rfl⟩) fun hcertain => .kind ?_
    split
    · exact .pure ⟨hhead, fun _ => rfl⟩
    · exact .pure ⟨hhead, fun _ => rfl⟩
    · exact .pure ⟨nofun, fun hyes => absurd (hcertain.symm.trans hyes) Bool.false_ne_true⟩

/-- Either the head of an arrow function has been read, or the parser is where it was. -/
theorem arrowHeadHere_went (h : env.Apt s) :
    arrowHeadHere.Ends env s fun found t => (∃ head, found = some head ∧ HeadRead env s head t)
      ∨ (found = none ∧ Went env.file.text false 0 s t [] ∧ t.token = s.token) := by
  refine (startsArrow_orderly.went h).bind fun answer t ⟨hwent, htoken⟩ => ?_
  have h := ((Going.start 0 h).goOn hwent).apt
  have hread {head : ArrowHead} {u : ParserState} (hu : HeadRead env t head u) : HeadRead env s head u := by
    refine ⟨hu.start.trans ?_, hwent.on hu.went⟩
    rw [ParserState.pos, ParserState.pos, htoken]
  split
  · exact .pure (.inr ⟨rfl, hwent, htoken⟩)
  · refine (arrowHead_went true h).mono fun found u hu => .inl ?_
    obtain ⟨head, rfl⟩ := Option.isSome_iff_exists.mp (hu.2 rfl)
    exact ⟨head, rfl, hread (hu.1 head rfl)⟩
  · refine (speculate_goes h (arrowHead_orderly false) ((arrowHead_went false h).mono
      fun _ _ hu _ => hu.1)).mono fun found u hu => ?_
    rcases hu with ⟨hsome, hu⟩ | ⟨hnone, hu, hutoken⟩
    · obtain ⟨head, rfl⟩ := Option.isSome_iff_exists.mp hsome
      exact .inl ⟨head, rfl, hread (hu head rfl)⟩
    · exact .inr ⟨Option.isNone_iff_eq_none.mp (by simpa using hnone), hwent.on hu, hutoken.trans htoken⟩

theorem arrowAfterHead_produces {head : ArrowHead} (hserves : env.Serves) (h : HeadRead env r head s) :
    (arrowAfterHead head).Produces env 7 r s := by
  have g : Going env true 6 r s (held head) := ⟨hserves, h.went⟩
  unfold arrowAfterHead
  extract_lets isAsync
  refine .kindIs (g.step (expectToken_produces g.apt rfl).goes fun arrow t g => ?_)
  extract_lets rest
  refine g.fork rest (fun body t g =>
    g.finish h.start (by simp [Node.parts_eq, Payload.fields, Payload.functionFields]) rfl) fun hrest => .ite (fun _ => ?_) fun _ => ?_
  · exact g.step (arrowBody_produces isAsync g.apt).goes hrest
  · exact g.step (identifier_produces g.apt).goes hrest

/-- The single parameter is made around the name, which may have been read as an expression. -/
theorem simpleArrow_produces {name : NodeId} (g : Going env took 21 r s (held start))
    (hname : Made env.file.text 20 s name t) (hstart : start.pos = r.pos) :
    (simpleArrow start name).Produces env 22 r t := by
  have hway : Going env true 20 s t [.node name] := ⟨g.serves, hname.went⟩
  refine hway.node fun n t' hn hway => ?_
  have hbegins (hclean : t'.Clean) : n.pos ≤ s.pos := by
    obtain ⟨rfl, hn⟩ := hn hclean
    obtain ⟨n', hn', hbegins⟩ := hname.begins hclean
    cases hn.symm.trans hn'
    exact hbegins
  have hparameter : (finishProduction .parameter n.pos (.variableLike { name })).Produces env 21 s t' :=
    hway.finishBehind hbegins (by simp [Node.parts_eq, Payload.fields, Payload.variableFields]) rfl
  refine hparameter.bind fun parameter u hu => ?_
  refine (g.goTook hu.went (Nat.le_refl 21)).node fun p u _ g => ?_
  have g : Going env true 21 r u
      (held start ++ [Part.array { pos := n.pos, stop := p.stop, nodes := [parameter] }]) :=
    g.among (by simp)
  refine g.step (expectToken_produces g.apt rfl).goes fun arrow u g => ?_
  exact g.step (arrowBody_produces _ g.apt).goes fun body u g =>
    g.finish hstart (by simp [Node.parts_eq, Payload.fields, Payload.functionFields]) rfl

theorem asyncSimpleArrow_produces (h : env.Apt s) : asyncSimpleArrow.Produces env 22 s s := by
  refine .nodePos ((Going.start 21 h).step (arrowModifiers_goes h) fun modifiers t g => ?_)
  refine (identifier_produces g.apt).bind fun name u hu => ?_
  exact simpleArrow_produces (g.parts (by simp)) (hu.mono (by decide)) rfl

end Parser

end ScriptSyntax
