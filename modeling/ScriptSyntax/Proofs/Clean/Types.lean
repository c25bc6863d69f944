/-
  ScriptSyntax/Proofs/Clean/Types.lean
  ====================================
  Types on clean runs.
-/
import ScriptSyntax.Proofs.Clean.Signatures
import ScriptSyntax.Proofs.Grammar.Operands
import ScriptSyntax.Proofs.Orderly.Types

namespace ScriptSyntax

namespace Parser

variable {env : Surroundings} {took : Bool} {k : Nat} {r s t : ParserState} {items : List Part}

/-! ## 1. Function types and lists of types -/

theorem functionType_produces (h : env.Apt s) : functionType.Produces env 7 s s := by
  refine .nodePos ((Going.start 6 h).stepTook (arrowSignature_goes _ h) fun shape t g => ?_)
  exact g.finish rfl (by simp [Node.parts_eq, Payload.fields]) rfl

theorem constructorType_produces (h : env.Apt s) : constructorType.Produces env 7 s s := by
  refine .nodePos ((Going.start 6 h).stepTook (expectKeyword_goes _ h) fun _ t g => ?_)
  exact g.step (arrowSignature_goes _ g.apt) fun shape t g =>
    g.finish rfl (by simp [Node.parts_eq, Payload.fields]) rfl

theorem typeArguments_goes (h : env.Apt s) : typeArguments.Goes env true 0 s :=
  .withContext h fun _ h => bracketed_goes h fun _ h => parse_goes .type h trivial

theorem tupleType_produces (h : env.Apt s) : tupleType.Produces env 1 s s := by
  have hlist (s : ParserState) (h : env.Apt s) :
      (bracketed .tupleElementTypes (parse .type) .openBracket .closeBracket).Goes env true 0 s :=
    bracketed_goes h fun _ h => parse_goes .type h trivial
  exact .nodePos ((Going.start 0 h).stepTook (.withContext h hlist) fun types t g =>
    g.finish rfl (by simp [Node.parts_eq, Payload.fields]) rfl)

/-! ## 2. References -/

theorem referenceArguments_goes (h : env.Apt s) : referenceArguments.Goes env false 0 s := by
  refine .afterLineBreak (.ite (fun _ => .pure (.refl h.fine)) fun _ => ?_)
  refine (Going.start 0 h).step (advance_goes .rescanLess h nofun) fun _ t g => ?_
  refine .isAt (.ite (fun _ => ?_) fun _ => .pure g.went)
  exact g.step (typeArguments_goes g.apt) fun list t g => g.done rfl

theorem typeReference_produces (h : env.Apt s) : typeReference.Produces env 3 s s := by
  refine .nodePos ((Going.start 2 h).stepTook (entityName_produces _ _ h).goes fun name t g => ?_)
  refine g.step (referenceArguments_goes g.apt) fun arguments t g => ?_
  exact g.ask (.isMissing name) fun hasError t g => g.finish rfl (by simp [Node.parts_eq, Payload.fields]) rfl

theorem typeQuery_produces (h : env.Apt s) : typeQuery.Produces env 3 s s := by
  refine .nodePos ((Going.start 2 h).stepTook (expectKeyword_goes _ h) fun _ t g => ?_)
  exact g.step (entityName_produces _ _ g.apt).goes fun name t g =>
    g.finish rfl (by simp [Node.parts_eq, Payload.fields]) rfl

/-- A word is a type by itself, or it is read again as the start of a name. -/
theorem wordType_produces (h : env.Apt s) (hkind : s.token.kind.isSolid = true) :
    wordType.Produces env 3 s s := by
  have hword : keywordType.Ends env s fun found t => ∀ id, found = some id → Made env.file.text 1 s id t := by
    refine (tokenNode_produces h hkind).bind fun word t ht => .isAt (.ite (fun _ => nofun) fun _ => ?_)
    rintro _ ⟨⟩
    exact ht
  refine (speculate_goes h keywordType_orderly (hword.mono fun _ _ ht _ => ht)).bind fun found t ht => ?_
  cases found with
  | some word =>
    rcases ht with ⟨-, ht⟩ | ⟨hno, -⟩
    · exact .pure ((ht word rfl).mono (by decide))
    · cases hno
  | none =>
    rcases ht with ⟨hno, -⟩ | ⟨-, ht, htoken⟩
    · cases hno
    · exact (typeReference_produces ((Going.start 0 h).goOn ht).apt).mono fun _ _ hu => ht.made htoken hu

theorem literalType_produces (h : env.Apt s) (hkind : s.token.kind.isSolid = true) :
    literalType.Produces env 2 s s := by
  refine .nodePos (.kind ?_)
  extract_lets rest
  have hrest (literal : NodeId) (t : ParserState) (ht : Made env.file.text 1 s literal t) :
      (rest literal).Produces env 2 s t :=
    ((Going.start 1 h).goTook ht.went (by decide)).finish rfl (by simp [Node.parts_eq, Payload.fields]) rfl
  split
  · exact (tokenNode_produces h hkind).bind hrest
  · exact (tokenNode_produces h hkind).bind hrest
  · exact (literalNode_produces h hkind).bind hrest

theorem negativeLiteralType_produces (h : env.Apt s) (hkind : s.token.kind ≠ .endOfFile)
    (hnext : (ReadingMode.scan.read env.file.text s.token).1.kind.isSolid = true) :
    negativeLiteralType.Produces env 2 s s := by
  refine .nodePos ((Ends.and (nextToken_passes h hkind) (token_nextToken env s)).bind fun _ t ht => ?_)
  have g := (Going.start 1 h).goOnTook ht.1
  refine g.step (literalNode_produces g.apt (ht.2 ▸ hnext)).goes fun operand t g => ?_
  refine Ends.bind (P := Made env.file.text 2 s)
    (g.finish rfl (by simp [Node.parts_eq, Payload.fields]) rfl) fun literal u hu => ?_
  exact hu.finish (.start 1 (hu.apt h.serves)) rfl (by simp [Node.parts_eq, Payload.fields]) rfl

theorem thisType_produces (h : env.Apt s) (hkind : s.token.kind ≠ .endOfFile) : thisType.Produces env 1 s s := by
  refine .nodePos ((Going.start 0 h).stepTook (nextToken_passes h hkind) fun _ t g => ?_)
  refine Ends.bind (P := Made env.file.text 1 s)
    (g.finish rfl (by simp [Node.parts_eq, Payload.fields]) rfl) fun this u hu => ?_
  refine .isAt (.ite (fun _ => .afterLineBreak (.ite (fun _ => .pure hu) fun _ => ?_)) fun _ => .pure hu)
  refine (Going.start 0 (hu.apt h.serves)).step (nextToken_goes (hu.apt h.serves)) fun _ t g => ?_
  exact g.step (parse_goes .type g.apt trivial) fun type t g =>
    hu.finish g rfl (by simp [Node.parts_eq, Payload.fields]) rfl

theorem parenthesizedType_produces (h : env.Apt s) : parenthesizedType.Produces env 1 s s := by
  refine .nodePos ((Going.start 0 h).stepTook (expectPunct_goes _ h) fun _ t g => ?_)
  refine g.step (parseIn_goes .type g.apt (fun _ => trivial)) fun type t g => ?_
  exact g.step (expectPunct_goes _ g.apt) fun _ t g =>
    g.finish rfl (by simp [Node.parts_eq, Payload.fields]) rfl

/-! ## 3. Members -/

theorem signedToken_goes {signed : Kind} (h : env.Apt s) (hsigned : signed.isSolid = true) :
    (signedToken signed).Goes env false 1 s := by
  have hsign (hkind : s.token.kind.isSolid = true) : (do
      let sign ← tokenNode
      let _ ← expect signed
      return some sign : Parser (Option NodeId)).Goes env false 1 s := by
    refine (Going.start 1 h).step (tokenNode_produces h hkind).goes fun sign t g => ?_
    refine g.step (expectWith_goes none g.apt (Kind.ne_endOfFile_of_isSolid hsigned)) fun _ t g => ?_
    exact g.done (by simp)
  refine .kind ?_
  split
  · exact hsign (by simp [*, Kind.isSolid])
  · exact hsign (by simp [*, Kind.isSolid])
  · refine .ite (fun hk => ?_) fun _ => .pure (.refl h.fine)
    have hkind : s.token.kind.isSolid = true := beq_iff_eq.mp hk ▸ hsigned
    exact (tokenNode_produces h hkind).bind fun _ _ ht => .pure ht.went.weaken

theorem mappedTypeParameter_produces (h : env.Apt s) : mappedTypeParameter.Produces env 2 s s := by
  refine .nodePos ((Going.start 1 h).stepTook (identifier_produces h).goes fun name t g => ?_)
  refine g.step (expectKeyword_goes _ g.apt) fun _ t g => ?_
  exact g.step (parse_goes .type g.apt trivial) fun constraint t g =>
    g.finish rfl (by simp [Node.parts_eq, Payload.fields]) rfl

theorem mappedType_produces (h : env.Apt s) : mappedType.Produces env 3 s s := by
  refine .nodePos ((Going.start 2 h).stepTook (expectPunct_goes _ h) fun _ t g => ?_)
  refine g.step (signedToken_goes g.apt rfl) fun readonlyWord t g => ?_
  refine g.step (expectPunct_goes _ g.apt) fun _ t g => ?_
  refine g.step (mappedTypeParameter_produces g.apt).goes fun parameter t g => ?_
  refine g.step (expectPunct_goes _ g.apt) fun _ t g => ?_
  refine g.step (signedToken_goes g.apt rfl) fun questionMark t g => ?_
  refine g.step (.withContext g.apt fun _ h => typeAnnotation_goes h) fun type t g => ?_
  refine g.step (semicolon_goes g.apt) fun _ t g => ?_
  exact g.step (expectPunct_goes _ g.apt) fun _ t g =>
    g.finish rfl (by simp [Node.parts_eq, Payload.fields]) rfl

theorem memberEnd_goes (h : env.Apt s) : memberEnd.Goes env false 0 s :=
  (Going.start 0 h).acceptPunct (fun _ g => .pure g.loosen.went) (semicolon_goes h)

theorem indexSignature_produces {start : DeclarationStart} (g : Going env took 6 r s (held start))
    (hstart : start.pos = r.pos) : (indexSignature start).Produces env 7 r s := by
  refine g.stepTook (bracketed_goes g.apt fun _ h => (parameter_produces h).goes) fun parameters t g => ?_
  refine g.step (typeAnnotation_goes g.apt) fun type t g => ?_
  exact g.step (memberEnd_goes g.apt) fun _ t g =>
    g.finish hstart (by simp [Node.parts_eq, Payload.fields]) rfl

theorem callSignature_produces (h : env.Apt s) : callSignature.Produces env 7 s s := by
  refine .nodePos ((Going.start 6 h).stepTook (signature_goes _ h) fun shape t g => ?_)
  exact g.step (memberEnd_goes g.apt) fun _ t g => g.finish rfl (by simp [Node.parts_eq, Payload.fields]) rfl

theorem constructSignature_produces (h : env.Apt s) : constructSignature.Produces env 7 s s := by
  refine .nodePos ((Going.start 6 h).stepTook (expectKeyword_goes _ h) fun _ t g => ?_)
  refine g.step (signature_goes _ g.apt) fun shape t g => ?_
  exact g.step (memberEnd_goes g.apt) fun _ t g => g.finish rfl (by simp [Node.parts_eq, Payload.fields]) rfl

theorem namedMember_produces {start : DeclarationStart} (g : Going env took 6 r s (held start))
    (hstart : start.pos = r.pos) : (namedMember start).Produces env 7 r s := by
  refine g.stepTook (propertyName_produces g.apt).goes fun name t g => ?_
  refine g.step (acceptToken_goes g.apt rfl) fun questionMark t g => ?_
  refine g.ask isParenOrLessThan_orderly fun _ t g => .ite (fun _ => ?_) fun _ => ?_
  · refine g.step (signature_goes _ g.apt) fun shape t g => ?_
    exact g.step (memberEnd_goes g.apt) fun _ t g =>
      g.finish hstart (by simp [Node.parts_eq, Payload.fields, Payload.functionFields]) rfl
  · refine g.step (typeAnnotation_goes g.apt) fun type t g => .isAt ?_
    extract_lets rest
    refine g.fork rest (fun initializer t g => ?_) fun hrest => .ite (fun _ => ?_) fun _ => ?_
    · exact g.step (memberEnd_goes g.apt) fun _ t g =>
        g.finish hstart (by simp [Node.parts_eq, Payload.fields, Payload.variableFields]) rfl
    · exact g.step (initializer_goes g.apt) hrest
    · exact hrest none t (g.parts (by simp))

theorem typeMember_produces (h : env.Apt s) : typeMember.Produces env 7 s s := by
  refine .ask h isParenOrLessThan_orderly fun _ t _ h => .ite (fun _ => callSignature_produces h) fun _ => ?_
  refine Produces.ask h ?_ fun _ t _ h => .ite (fun _ => constructSignature_produces h) fun _ => .nodePos ?_
  · exact (Orderly.isAtKeyword _).and (peek_orderly isParenOrLessThan_orderly)
  refine (Going.start 6 h).step (modifiers_goes false h) fun modifiers t g => ?_
  refine g.ask startsIndexSignature_orderly fun _ t g => .ite (fun _ => ?_) fun _ => ?_
  · exact indexSignature_produces (g.parts (by simp)) rfl
  · exact namedMember_produces (g.parts (by simp)) rfl

theorem typeMembers_goes (h : env.Apt s) : typeMembers.Goes env true 7 s := by
  refine (Going.start 7 h).stepTook (expectPunct_goes .openBrace h) fun _ t g => .ite (fun _ => ?_) fun _ => ?_
  · refine g.step (elements_goes g.apt fun _ h _ => typeMember_produces h) fun list t g => ?_
    exact g.step (expectPunct_goes _ g.apt) fun _ t g => g.done (by simp)
  · exact g.only (missingList_goes g.apt)

theorem typeLiteral_produces (h : env.Apt s) : typeLiteral.Produces env 8 s s :=
  .nodePos ((Going.start 7 h).stepTook (.withContext h fun _ h => typeMembers_goes h) fun list t g =>
    g.finish rfl (by simp [Node.parts_eq, Payload.fields]) rfl)

/-! ## 4. Operators -/

theorem primaryType_produces (h : env.Apt s) : primaryType.Produces env 8 s s := by
  refine .kind ?_
  split
  any_goals with_reducible refine (wordType_produces h ?_).upTo
  any_goals with_reducible refine (literalType_produces h ?_).upTo
  any_goals with_reducible refine (tokenNode_produces h ?_).upTo
  any_goals with_reducible exact (typeReference_produces h).upTo
  any_goals exact (by simp [*, Kind.isSolid] : s.token.kind.isSolid = true)
  · refine Ends.bind (P := fun number t => (Went env.file.text false 0 s t [] ∧ t.token = s.token)
      ∧ number = _) ⟨(peek_orderly isNumber_orderly).went h, answer_peek_kindIs _ env s⟩ fun number t ht => ?_
    obtain ⟨⟨ht, htoken⟩, rfl⟩ := ht
    have h := ((Going.start 0 h).goOn ht).apt
    refine .ite (fun hnumber => ?_) fun _ => (typeReference_produces h).upTo.mono fun _ _ hu => ht.made htoken hu
    refine (negativeLiteralType_produces h ?_ ?_).upTo.mono fun _ _ hu => ht.made htoken hu
    · simp [*]
    · rw [htoken]
      simp only [Bool.or_eq_true, beq_iff_eq] at hnumber
      rcases hnumber with hkind | hkind <;> rw [hkind] <;> rfl
  · exact (thisType_produces h (by simp [*])).upTo
  · exact (typeQuery_produces h).upTo
  · refine Produces.ask h startsMappedType_orderly fun _ t _ h => .ite (fun _ => ?_) fun _ => ?_
    · exact (mappedType_produces h).upTo
    · exact typeLiteral_produces h
  · exact (tupleType_produces h).upTo
  · exact (parenthesizedType_produces h).upTo

/-- What follows in brackets makes a type of the one before. -/
theorem bracketsAfterType_produces {type : NodeId} (h : Made env.file.text 8 r type s)
    (g : Going env true 7 s t []) : (bracketsAfterType r.pos type).Produces env 8 r t := by
  refine g.ask startsType_orderly fun _ t g => .ite (fun _ => ?_) fun _ => ?_
  · refine g.step (parse_goes .type g.apt trivial) fun index t g => ?_
    exact g.step (expectPunct_goes _ g.apt) fun _ t g =>
      h.finish g rfl (by simp [Node.parts_eq, Payload.fields]) rfl
  · exact g.step (expectPunct_goes _ g.apt) fun _ t g =>
      h.finish g rfl (by simp [Node.parts_eq, Payload.fields]) rfl

theorem postfixType_produces (h : env.Apt s) : postfixType.Produces env 8 s s := by
  refine .nodePos ((primaryType_produces h).bind fun first t ht => repeating_produces ht fun type u hu => ?_)
  have g := Going.start 7 (hu.apt h.serves)
  refine .afterLineBreak (.ite (fun _ => .pure hu) fun _ => g.acceptPunct (fun v g => ?_) (Ends.pure hu))
  exact (bracketsAfterType_produces hu g).bind fun _ _ hw => .pure hw

theorem inferType_produces (h : env.Apt s) : inferType.Produces env 3 s s := by
  refine .nodePos ((Going.start 2 h).stepTook (expectKeyword_goes _ h) fun _ t g => .nodePos ?_)
  refine (Going.start 1 g.apt).stepTook (identifier_produces g.apt).goes fun name u g' => ?_
  refine Ends.bind (P := Made env.file.text 2 t)
    (g'.finish rfl (by simp [Node.parts_eq, Payload.fields]) rfl) fun parameter v hv => ?_
  exact (g.goTook hv.went (by decide)).finish rfl (by simp [Node.parts_eq, Payload.fields]) rfl

/-- What an operator stands before is read without the depth of nesting being checked. -/
theorem typeOperator_produces (h : env.Apt s) : typeOperator.Produces env 8 s s := by
  have hoperator (hkind : s.token.kind ≠ .endOfFile) : Produces (do
      let t ← token
      nextToken
      let type ← parse .typeOperator
      finishProduction .typeOperator t.fullStart (.typeOperator t.kind type)) env 8 s s := by
    refine .token ((Going.start 7 h).stepTook (nextToken_passes h hkind) fun _ t g => ?_)
    refine g.past (parse_produces .typeOperator g.apt trivial) fun type u htype g => ?_
    exact g.finishUnguarded htype (.start 7 g.apt) (List.mem_singleton_self _) rfl
      (by simp [Node.parts_eq, Payload.fields]) rfl (by decide)
  refine .kind ?_
  split
  · exact hoperator (by simp [*])
  · exact hoperator (by simp [*])
  · exact hoperator (by simp [*])
  · exact (inferType_produces h).upTo
  · exact postfixType_produces h

/-- Types with an operator between them. A type that stands alone is what it is. -/
theorem typeChain_produces {part : Parser NodeId} {node : NodeKind} (operator : Punctuator)
    (hpart : ∀ s, env.Apt s → part.Produces env k s s) (hnode : (Kind.node node).isSolid = true)
    (h : env.Apt s) : (typeChain node operator part).Produces env (k + 1) s s := by
  refine .nodePos ((Ends.and (accept_went _ h) (acceptPunct_goes operator h)).bind fun led t ht => ?_)
  obtain ⟨hled, ht⟩ := ht
  have g := (Going.start k h).goOn ht
  refine (hpart t g.apt).bind fun first u hu => .isAt (.ite (fun halone => ?_) fun _ => ?_)
  · rcases hled with ⟨rfl, -, -⟩ | ⟨-, rfl⟩
    · cases halone
    · exact .pure (hu.mono (Nat.le_succ k))
  have g : Going env true k s u (readParts [first]) := g.goTook hu.went (Nat.le_refl k)
  refine g.node fun n u _ g => Ends.bind (g.loop readParts fun read v g => ?_) fun read v g => .nodePos ?_
  · refine g.acceptPunct (fun w g => ?_) (Ends.pure g)
    exact (hpart w g.apt).bind fun id x hx => .pure ((g.goTook hx.went (Nat.le_refl k)).parts (by simp))
  · have g : Going env true k s v [.array { pos := n.pos, stop := v.pos, nodes := read.reverse }] :=
      ⟨g.serves, g.went.array rfl⟩
    exact g.finish rfl (by simp [Node.parts_eq, Payload.fields]) hnode

/-- A union, or what may be part of one. -/
theorem unionType_produces (h : env.Apt s) : unionType.Produces env 10 s s :=
  typeChain_produces .bar (fun _ h => typeChain_produces .ampersand (fun _ h => typeOperator_produces h) rfl h) rfl h

/-! ## 5. Types -/

theorem conditionalRest_produces {check : NodeId} (h : Made env.file.text 10 r check s)
    (g : Going env true 9 s t []) : (conditionalRest r.pos check).Produces env 10 r t := by
  refine g.step (parseIn_goes .type g.apt (fun _ => trivial)) fun bound t g => ?_
  refine g.step (expectPunct_goes _ g.apt) fun _ t g => ?_
  refine g.step (parseIn_goes .type g.apt (fun _ => trivial)) fun whenTrue t g => ?_
  refine g.step (expectPunct_goes _ g.apt) fun _ t g => ?_
  exact g.step (parseIn_goes .type g.apt (fun _ => trivial)) fun whenFalse t g =>
    h.finish g rfl (by simp [Node.parts_eq, Payload.fields]) rfl

theorem typeBody_produces (h : env.Apt s) : typeBody.Produces env 10 s s := by
  refine .ask h startsFunctionType_orderly fun _ t _ h => .ite (fun _ => (functionType_produces h).upTo) fun _ => ?_
  refine .isAt (.ite (fun _ => (constructorType_produces h).upTo) fun _ => .nodePos ?_)
  refine (unionType_produces h).bind fun check t ht => .context (.ite (fun _ => .pure ht) fun _ => ?_)
  refine .afterLineBreak (.ite (fun _ => .pure ht) fun _ => ?_)
  exact (Going.start 9 (ht.apt h.serves)).acceptKeyword (fun _ g => conditionalRest_produces ht g) (.pure ht)

/-- A type is read one level deeper. -/
theorem type_produces (h : env.Apt s) : type.Produces env 0 s s := by
  refine .withContext h fun s h => ?_
  refine (nested_went _ h fun _ h => (typeBody_produces h).upTo).bind fun (id, parsed) t ht => ?_
  refine .ite (fun _ => .pure ht.1) fun hno => ?_
  exact Produces.late (Orderly.node (fun _ _ => rfl) fun _ => .finishProduction _ _ _) h.serves.adds (ht.2 hno)

end Parser

end ScriptSyntax
