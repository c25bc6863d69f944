/-
  ScriptSyntax/Proofs/Grammar/Types.lean
  ======================================
  Types, and the members of object types.

  A type need not take a token: where none starts, it is a missing name.  What
  goes on after an operator or a bracket has read over that, and a member of an
  object type takes a token wherever its list lets one start.
-/
import ScriptSyntax.Proofs.Grammar.Bindings
import ScriptSyntax.Grammar.Types

namespace ScriptSyntax

namespace Parser

variable {env : Surroundings} {rank : Nat} {took : Bool} {r m s t : ParserState}
variable {items : List Part}

/-! ## 1. Function types -/

/-- A trial that is called back leaves the tree, the token and the reports alone. -/
theorem lookAhead_ends {α : Type} {p : Parser α} (h : s.Ok env.file.text)
    (hp : p.Ends env s fun _ t => s.Grows t) :
    (lookAhead p).Ends env s fun _ t => Still env.file.text s t :=
  rewind_still h hp

theorem skipParameterStart_ends (h : env.Ready Production.topRank s) :
    skipParameterStart.Ends env s fun _ t => t.Ok env.file.text ∧ s.Grows t := by
  refine .kind ?_
  extract_lets rest
  have hrest (t : ParserState) (ht : env.Ready Production.topRank t) :
      (rest ()).Ends env t fun _ u => u.Ok env.file.text ∧ t.Grows u := by
    have hasks := (Inquires.or (o := true) isIdentifier_inquires (.isAtKeyword .thisKw)).asks ht.ok
    refine .ask hasks (.ite (fun _ => ?_) fun _ => .kind ?_)
    · exact (nextToken_gives ht.ok).bind fun _ u hu => .pure ⟨hu.run.ok, hu.run.toGrows⟩
    · have hpattern := parse_gives .bindingName ht (by decide) trivial
      split
      · exact .get (hpattern.bind fun _ u hu => .get (.pure ⟨hu.run.ok, hu.run.toGrows⟩))
      · exact .get (hpattern.bind fun _ u hu => .get (.pure ⟨hu.run.ok, hu.run.toGrows⟩))
      · exact .pure ⟨ht.ok, .refl t⟩
  refine .ite (fun _ => ?_) fun _ => hrest s h
  refine (modifiers_gives false h).bind fun _ t ht => ?_
  exact (hrest t (h.run ht.run)).mono fun _ _ hu => ⟨hu.1, ht.run.toGrows.trans hu.2⟩

/-- Whatever is read to see whether parameters start, nothing that was there before is touched. -/
theorem parametersAhead_ends (h : env.Ready rank s) (hkind : s.token.kind = .punct .openParen) :
    parametersAhead.Ends env s fun _ t => s.Grows t := by
  have hkind : s.token.kind ≠ .endOfFile := by simp [hkind]
  refine (nextKind_ends h.ok hkind).bind fun k t ht => ?_
  have hnext : s.Grows t := ht.2.toGrows
  split
  · exact hnext
  · exact hnext
  refine (skipParameterStart_ends (h.ofTook ht.2.ok ht.2.took)).bind fun found u ⟨hok, hgrows⟩ => ?_
  have hstart : s.Grows u := hnext.trans hgrows
  refine .ite (fun _ => .kind ?_) fun _ => hstart
  split
  any_goals with_reducible exact Ends.pure hstart
  rename_i hclose
  exact (nextKind_ends hok (by simp [hclose])).bind fun k v hv => .pure (hstart.trans hv.2.toGrows)

/-- Looking for parameters changes nothing but the table of names. -/
theorem parenStartsParameters_ends (h : env.Ready rank s)
    (hkind : s.token.kind = .punct .openParen) :
    parenStartsParameters.Ends env s fun _ t => Still env.file.text s t :=
  lookAhead_ends h.ok (parametersAhead_ends h hkind)

theorem startsFunctionType_ends (h : env.Ready rank s) :
    startsFunctionType.Ends env s fun found t =>
      Still env.file.text s t ∧ (found = true → opensSignature s.token.kind = true) := by
  refine .kind ?_
  split
  · rename_i hkind
    exact .pure ⟨.refl h.ok, fun _ => by simp [opensSignature, hkind]⟩
  · rename_i hkind
    refine (parenStartsParameters_ends h hkind).mono fun found t ht => ⟨ht, fun _ => ?_⟩
    simp [opensSignature, hkind]
  · exact .pure ⟨.refl h.ok, fun hyes => absurd hyes Bool.false_ne_true⟩

theorem functionType_gives (h : env.Ready rank s) (hopens : opensSignature s.token.kind = true) :
    functionType.Gives env false s s := by
  refine .nodePos ((Sofar.start h).step (arrowSignature_gives h rfl (.inl hopens)).weaken
    fun shape t g => ?_)
  exact g.finishProduction rfl (by simp) rfl

theorem constructorType_gives (h : env.Ready rank s) (hkind : s.token.kind = .keyword .newKw) :
    constructorType.Gives env false s s := by
  refine .nodePos ((Sofar.start h).stepTook (expectKeyword_takes h.ok hkind) fun _ t g => ?_)
  refine g.step (arrowSignature_gives g.ready rfl (.inr (by decide))).weaken fun shape t g => ?_
  exact g.loosen.finishProduction rfl (by simp) rfl

/-! ## 2. Lists of types -/

theorem typeArguments_gives (h : env.Ready rank s) : typeArguments.Gives env false s s := by
  unfold typeArguments
  refine .withContext ?_
  exact bracketed_gives _ (h.inContext _) fun u hu _ => parse_gives .type hu (by decide) trivial

theorem tupleType_gives (h : env.Ready rank s) : tupleType.Gives env false s s := by
  refine .nodePos ((Sofar.start h).step (.withContext ?_) fun types t g => ?_)
  · exact bracketed_gives _ (h.inContext _) fun u hu _ => parse_gives .type hu (by decide) trivial
  · exact g.finishProduction rfl (by simp [Payload.fields]) rfl

/-! ## 3. References -/

theorem referenceArguments_gives (h : env.Ready rank s) :
    referenceArguments.Gives env false s s := by
  refine .afterLineBreak (.ite (fun _ => (Run.refl h.ok).handed) fun _ => ?_)
  have hfits : ReadingMode.rescanLess.FitsAt s.token := .of_ne (by decide) (by decide)
  refine (Sofar.start h).step (advance_gives .rescanLess h.ok hfits) fun _ t g => ?_
  refine .isAt (.ite (fun _ => ?_) fun _ => g.done rfl)
  exact g.step (typeArguments_gives g.ready) fun list t g => g.done rfl

/-- A type by its name is marked as an error only if its name is missing, and that was reported. -/
theorem typeReference_gives (h : env.Ready rank s) : typeReference.Gives env false s s := by
  refine .nodePos ((entityName_ends true _ h).bind fun name t ⟨hname, haccounted⟩ => ?_)
  have g := (Sofar.start h).resume hname
  obtain ⟨n, hn, hreported⟩ := haccounted
  refine (referenceArguments_gives g.ready).bind fun arguments u hu => ?_
  have g := g.go hu.run
  refine .isMissing (hu.run.grows.get? hn) ?_
  refine (finish_ends g.run rfl (by simp [Node.parts_eq, Payload.fields]) rfl ?_
    (Node.sourcedAt_of_isToken rfl) fun _ => Node.lawful_of_isRuled rfl).mono fun _ _ h => g.finished h
  exact fun hmissing => Nat.lt_of_lt_of_le (hreported hmissing) hu.run.log_le

theorem typeQuery_gives (h : env.Ready rank s) : typeQuery.Gives env false s s := by
  refine .nodePos ((Sofar.start h).step (expectKeyword_gives _ h.ok) fun _ t g => ?_)
  refine g.step (entityName_gives true _ g.ready) fun name t g => ?_
  exact g.finishProduction rfl (by simp [Payload.fields]) rfl

theorem keywordType_ends (h : s.Ok env.file.text) :
    keywordType.Ends env s fun found t =>
      s.Grows t ∧ ∀ id, found = some id → Run env.file.text s t [.node id] := by
  refine (tokenNode_ends h).bind fun id t ht => .isAt (.ite (fun _ => ?_) fun _ => ?_)
  · exact .pure ⟨ht.run.toGrows, nofun⟩
  · refine .pure ⟨ht.run.toGrows, ?_⟩
    rintro _ ⟨⟩
    exact ht.run

theorem wordType_gives (h : env.Ready rank s) : wordType.Gives env false s s := by
  refine (attempt_ends h.ok (keywordType_ends h.ok)).bind fun found t ht => ?_
  rcases ht with ⟨id, rfl, ht⟩ | ⟨rfl, ht⟩
  · exact .pure ht.handed
  · exact ((Sofar.start h).goOn ht.toRun).only (typeReference_gives (h.run ht.toRun))

theorem literalType_gives (h : env.Ready rank s) : literalType.Gives env false s s := by
  have g := Sofar.start h
  refine .nodePos ?_
  extract_lets rest
  refine g.fork rest (fun literal t g => ?_) fun hrest => .kind ?_
  · exact g.finishProduction rfl (by simp [Payload.fields]) rfl
  · split
    · exact g.step (tokenNode_gives h.ok) hrest
    · exact g.step (tokenNode_gives h.ok) hrest
    · exact g.step (literalNode_gives h.ok) hrest

theorem negativeLiteralType_gives (h : env.Ready rank s) :
    negativeLiteralType.Gives env false s s := by
  refine .nodePos ((Sofar.start h).step (nextToken_gives h.ok) fun _ t g => ?_)
  refine g.step (literalNode_gives g.ready.ok) fun operand t g => ?_
  refine g.fold (g.mark.finishProduction rfl (by simp [Payload.fields]) rfl) fun literal t g => ?_
  exact g.finishProduction rfl (by simp [Payload.fields]) rfl

theorem thisType_gives (h : env.Ready rank s) (hkind : s.token.kind ≠ .endOfFile) :
    thisType.Gives env false s s := by
  refine .nodePos ((Sofar.start h).stepTook (nextToken_takes h.ok hkind) fun _ t g => ?_)
  refine g.fold (g.mark.finishProduction rfl rfl rfl) fun this t g => ?_
  refine .isAt (.ite (fun _ => ?_) fun _ => ?_)
  · refine .afterLineBreak (.ite (fun _ => g.loosen.done rfl) fun _ => ?_)
    refine g.step (nextToken_gives g.ready.ok) fun _ t g => ?_
    refine g.step (parse_gives .type g.ready (by decide) trivial) fun type t g => ?_
    exact g.loosen.finishProduction rfl (by simp [Payload.fields]) rfl
  · exact g.loosen.done rfl

theorem parenthesizedType_gives (h : env.Ready rank s)
    (hkind : s.token.kind = .punct .openParen) : parenthesizedType.Gives env false s s := by
  refine .nodePos ((Sofar.start h).stepTook (expectPunct_takes h.ok hkind) fun _ t g => ?_)
  refine g.step (parseIn_gives .type g.ready (by decide) trivial) fun type t g => ?_
  refine g.step (expectPunct_gives _ g.ready.ok) fun _ t g => ?_
  exact g.loosen.finishProduction rfl (by simp [Payload.fields]) rfl

/-! ## 4. Mapped types -/

theorem signedToken_gives (signed : Kind) (hsigned : signed ≠ .endOfFile) (h : env.Ready rank s) :
    (signedToken signed).Gives env false s s := by
  have hsign : Ends (do
      let sign ← tokenNode
      let _ ← expect signed
      return some sign) env s fun a t => Handed env.file.text false s s t (held a) := by
    refine (Sofar.start h).step (tokenNode_gives h.ok) fun sign t g => ?_
    refine g.step (expectWith_gives none g.ready.ok hsigned) fun _ t g => ?_
    exact g.done (by simp)
  refine .kind ?_
  split
  · exact hsign
  · exact hsign
  · refine .ite (fun _ => ?_) fun _ => (Run.refl h.ok).handed
    exact (tokenNode_gives h.ok).bind fun _ _ ht => ht

theorem mappedTypeParameter_gives (h : env.Ready Production.topRank s) :
    mappedTypeParameter.Gives env false s s := by
  refine .nodePos ((Sofar.start h).step (identifier_gives h.ok) fun name t g => ?_)
  refine g.step (expectKeyword_gives _ g.ready.ok) fun _ t g => ?_
  refine g.step (parse_gives .type g.ready (by decide) trivial) fun constraint t g => ?_
  exact g.finishProduction rfl (by simp [Payload.fields]) rfl

theorem mappedType_gives (h : env.Ready rank s) (hkind : s.token.kind = .punct .openBrace) :
    mappedType.Gives env false s s := by
  refine .nodePos ((Sofar.start h).stepTook (expectPunct_takes h.ok hkind) fun _ t g => ?_)
  refine g.step (signedToken_gives _ nofun g.ready) fun readonlyWord t g => ?_
  refine g.step (expectPunct_gives _ g.ready.ok) fun _ t g => ?_
  refine g.step (mappedTypeParameter_gives g.ready) fun parameter t g => ?_
  refine g.step (expectPunct_gives _ g.ready.ok) fun _ t g => ?_
  refine g.step (signedToken_gives _ nofun g.ready) fun questionMark t g => ?_
  refine g.step (.withContext (typeAnnotation_gives (g.ready.inContext _))) fun type t g => ?_
  refine g.step (semicolon_gives g.ready.ok) fun _ t g => ?_
  refine g.step (expectPunct_gives _ g.ready.ok) fun _ t g => ?_
  exact g.loosen.finishProduction rfl (by simp [Payload.fields]) rfl

/-! ## 5. Members -/

theorem memberEnd_gives (h : s.Ok env.file.text) : memberEnd.Gives env false s s := by
  refine (acceptPunct_gives _ h).bind fun found t ht => .ite (fun _ => ht) fun _ => ?_
  exact (semicolon_gives ht.run.ok).mono fun _ u hu =>
    ⟨ht.run.trans hu.run, Nat.le_trans ht.forward hu.forward, nofun⟩

section

variable {start : DeclarationStart}

theorem indexSignature_takes (g : Sofar env rank took r s s (held start)) (hpos : start.pos = r.pos)
    (hkind : s.token.kind = .punct .openBracket) : (indexSignature start).Gives env true r s := by
  have hparameters : (bracketed .parameters parameter .openBracket .closeBracket).Gives env true s s :=
    bracketed_takes _ g.ready (fun u hu _ => parameter_gives hu) hkind
  refine g.stepTook hparameters fun parameters t g => ?_
  refine g.step (typeAnnotation_gives g.ready) fun type t g => ?_
  refine g.step (memberEnd_gives g.ready.ok) fun _ t g => ?_
  exact g.finishDeclaration hpos (by simp) rfl

theorem callSignature_takes (h : env.Ready rank s) (hopens : opensSignature s.token.kind = true) :
    callSignature.Gives env true s s := by
  have hsignature : (signature { inType := true }).Gives env true s s := hopens ▸ signature_gives h rfl
  refine .nodePos ((Sofar.start h).stepTook hsignature fun shape t g => ?_)
  refine g.step (memberEnd_gives g.ready.ok) fun _ t g => ?_
  exact g.finishProduction rfl (by simp) rfl

theorem constructSignature_takes (h : env.Ready rank s) (hkind : s.token.kind = .keyword .newKw) :
    constructSignature.Gives env true s s := by
  refine .nodePos ((Sofar.start h).stepTook (expectKeyword_takes h.ok hkind) fun _ t g => ?_)
  refine g.step (signature_gives g.ready rfl).weaken fun shape t g => ?_
  refine g.step (memberEnd_gives g.ready.ok) fun _ t g => ?_
  exact g.finishProduction rfl (by simp) rfl

theorem methodSignature_gives {name : NodeId} {questionMark : Option NodeId}
    (g : Sofar env rank took r m s (held start ++ (.node name :: held questionMark)))
    (hpos : start.pos = r.pos) : (methodSignature start name questionMark).Ends env s
      fun id t => Handed env.file.text took r m t [.node id] := by
  refine g.step (signature_gives g.ready rfl).weaken fun shape t g => ?_
  refine g.step (memberEnd_gives g.ready.ok) fun _ t g => ?_
  exact g.finishDeclaration hpos (by simp) rfl

theorem propertySignature_gives {name : NodeId} {questionMark : Option NodeId}
    (g : Sofar env Production.topRank took r m s (held start ++ (.node name :: held questionMark)))
    (hpos : start.pos = r.pos) : (propertySignature start name questionMark).Ends env s
      fun id t => Handed env.file.text took r m t [.node id] := by
  refine g.step (typeAnnotation_gives g.ready) fun type t g => ?_
  extract_lets rest
  refine g.fork rest (fun initializer t g => ?_) fun hrest => .isAt (.ite (fun _ => ?_) fun _ => ?_)
  · refine g.step (memberEnd_gives g.ready.ok) fun _ t g => ?_
    exact g.finishDeclaration hpos (by simp) rfl
  · exact g.step (initializer_gives g.ready) hrest
  · exact hrest none t (g.parts (by simp))

/-- A member with a name takes the name, where one starts. -/
theorem namedMember_gives (g : Sofar env Production.topRank took r s s (held start))
    (hpos : start.pos = r.pos) :
    (namedMember start).Gives env (startsPropertyName s.token.kind) r s := by
  refine g.stepFirst (propertyName_ends g.ready) fun name t g => ?_
  refine g.step (acceptToken_gives _ g.ready.ok) fun questionMark t g => ?_
  refine .kindIs (.ite (fun _ => ?_) fun _ => ?_)
  · exact methodSignature_gives (g.parts (by simp)) hpos
  · exact propertySignature_gives (g.parts (by simp)) hpos

end

/-- Only a bracket starts an index signature. -/
theorem startsIndexSignature_ends : startsIndexSignature.Ends env s fun found _ =>
    found = true → s.token.kind = .punct .openBracket :=
  .isAt (.ite (fun _ => .pure nofun) fun hkind _ => by simpa using hkind)

theorem skipModifiers_ends (h : s.token.kind.isModifier = false) :
    skipModifiers.Ends env s fun found t => found = false ∧ t = s := by
  refine Ends.read (Ends.bind (P := fun o t => o = .done false ∧ t = s) (.kind ?_) ?_)
  · exact .ite (fun hmodifier => absurd hmodifier (by simp [h])) fun _ => .pure ⟨rfl, rfl⟩
  · rintro _ _ ⟨rfl, rfl⟩
    exact .pure ⟨rfl, rfl⟩

/-- A member of a type starts with a bracket that opens a signature, or with a name. -/
theorem startsTypeMember_ends (hopens : opensSignature s.token.kind = false) :
    startsTypeMember.Ends env s fun starts _ =>
      starts = true → startsPropertyName s.token.kind = true := by
  refine .peeked (.kindIs (.ite (fun hyes => ?_) fun _ => ?_))
  · exact absurd (hopens.symm.trans hyes) Bool.false_ne_true
  cases hmodifier : s.token.kind.isModifier with
  | true =>
    refine .always fun _ _ _ => ?_
    simp [startsPropertyName, Kind.isName_of_isModifier hmodifier]
  | false =>
    refine (skipModifiers_ends hmodifier).bind ?_
    rintro _ _ ⟨rfl, rfl⟩
    refine .isAt (.ite (fun hbracket => .pure fun _ => ?_) fun _ => .kindIs (.ite (fun hname => ?_) ?_))
    · simp [startsPropertyName, beq_iff_eq.mp hbracket]
    · refine .always fun _ _ _ => ?_
      rw [startsPropertyName, hname]
      rfl
    · refine fun _ => .ite (fun hyes => absurd hyes Bool.false_ne_true) fun _ => .pure ?_
      exact fun hyes => absurd hyes Bool.false_ne_true

theorem typeMember_takes (h : env.Ready Production.topRank s)
    (hstarts : startsTypeMember.answer env s = true) : typeMember.Gives env true s s := by
  refine .kindIs (.ite (fun hopens => callSignature_takes h hopens) fun hopens => ?_)
  have hnew := (Inquires.and (o := true) (.isAtKeyword .newKw)
    (.peek isParenOrLessThan_inquires.toScouts)).asks h.ok
  refine .ask hnew (.ite (fun hnew => ?_) fun _ => .nodePos ?_)
  · exact constructSignature_takes h (beq_iff_eq.mp (answer_and hnew rfl).1)
  have hname : startsPropertyName s.token.kind = true := startsTypeMember_ends hopens hstarts
  refine (modifiers_ends false h).bind fun modifiers t ⟨hrun, hmodified, _⟩ => ?_
  have g := (Sofar.start h).go hrun
  have hstart : held { pos := s.pos, modifiers : DeclarationStart } = [] ++ held modifiers := rfl
  refine .ask (startsIndexSignature_inquires (o := true).asks g.ready.ok) (.ite (fun hindex => ?_) fun _ => ?_)
  · have hkind : t.token.kind = .punct .openBracket := startsIndexSignature_ends hindex
    exact g.lastTook (indexSignature_takes (g.mark.parts hstart.symm) rfl hkind)
  · refine (namedMember_gives (g.mark.parts hstart.symm) rfl).mono fun id u hu => ?_
    refine ⟨hu.run, hu.run.forward, fun _ => ?_⟩
    rcases hmodified with htook | ⟨htoken, -⟩
    · exact Nat.lt_of_lt_of_le htook hu.forward
    · exact Nat.lt_of_le_of_lt g.forward (hu.ahead (htoken ▸ hname))

theorem typeMembers_gives (h : env.Ready rank s) : typeMembers.Gives env false s s := by
  refine (Sofar.start h).expectPunct (fun t _ g => ?_) fun t _ _ g => ?_
  · have helement : Reads env Production.topRank true .typeMembers typeMember :=
      fun _ hs hstarts => typeMember_takes hs hstarts
    refine g.step (elements_gives g.ready helement) fun list t g => ?_
    refine g.step (expectPunct_gives _ g.ready.ok) fun _ t g => ?_
    exact g.loosen.done (by simp)
  · exact g.only (missingList_gives g.ready.ok)

theorem typeLiteral_gives (h : env.Ready rank s) : typeLiteral.Gives env false s s := by
  refine .nodePos ((Sofar.start h).step (.withContext (typeMembers_gives (h.inContext _))) fun list t g => ?_)
  exact g.finishProduction rfl (by simp [Payload.fields]) rfl

/-! ## 6. Operators -/

theorem primaryType_gives (h : env.Ready rank s) : primaryType.Gives env false s s := by
  refine .kind ?_
  split
  any_goals with_reducible exact wordType_gives h
  any_goals with_reducible exact literalType_gives h
  any_goals with_reducible exact typeReference_gives h
  any_goals with_reducible exact tokenNode_gives h.ok
  · refine .ask ((Inquires.peek (o := true) isNumber_inquires.toScouts).asks h.ok) (.ite ?_ ?_)
    · exact fun _ => negativeLiteralType_gives h
    · exact fun _ => typeReference_gives h
  · exact thisType_gives h (by simp [*])
  · exact typeQuery_gives h
  · refine .ask (startsMappedType_inquires (o := true).asks h.ok) (.ite (fun _ => ?_) fun _ => ?_)
    · exact mappedType_gives h ‹_›
    · exact typeLiteral_gives h
  · exact tupleType_gives h
  · exact parenthesizedType_gives h ‹_›

theorem bracketsAfterType_gives {type : NodeId} (g : Sofar env Production.topRank took r m s [.node type]) :
    (bracketsAfterType r.pos type).Ends env s
      fun id t => Handed env.file.text took r m t [.node id] := by
  refine .ask (startsType_asks g.ready.ok) (.ite (fun _ => ?_) fun _ => ?_)
  · refine g.step (parse_gives .type g.ready (by decide) trivial) fun index t g => ?_
    refine g.step (expectPunct_gives _ g.ready.ok) fun _ t g => ?_
    exact g.finishProduction rfl (by simp [Payload.fields]) rfl
  · refine g.step (expectPunct_gives _ g.ready.ok) fun _ t g => ?_
    exact g.finishProduction rfl (by simp [Payload.fields]) rfl

theorem postfixType_gives (h : env.Ready rank s) : postfixType.Gives env false s s := by
  refine .nodePos ((Sofar.start h).step (primaryType_gives h) fun first t g => ?_)
  have g : Sofar env rank false s s t (held first) := g
  refine (g.loop fun type u g => ?_).mono fun _ _ g => g.toHanded
  refine .afterLineBreak (.ite (fun _ => g.stop) fun _ => ?_)
  refine g.mark.acceptPunct (fun v _ g' => ?_) fun _ => g.stop
  exact g.again (bracketsAfterType_gives g')

theorem inferType_gives (h : env.Ready rank s) : inferType.Gives env false s s := by
  refine .nodePos ((Sofar.start h).step (expectKeyword_gives _ h.ok) fun _ t g => .nodePos ?_)
  have g' := g.here
  refine g'.step (identifier_gives g.ready.ok) fun name u g' => ?_
  refine (g'.finishProduction rfl (by simp [Payload.fields]) rfl).bind fun parameter v hv => ?_
  exact (g.go hv.run).finishProduction rfl (by simp [Payload.fields]) rfl

theorem typeOperator_gives (h : env.Ready rank s) : typeOperator.Gives env false s s := by
  have hprefixed (hkind : s.token.kind ≠ .endOfFile) : Ends (do
      let t ← token
      nextToken
      let type ← parse .typeOperator
      finishProduction .typeOperator t.fullStart (.typeOperator t.kind type)) env s
      fun id t => Handed env.file.text false s s t (held id) := by
    refine .token ((Sofar.start h).stepTook (nextToken_takes h.ok hkind) fun _ t g => ?_)
    refine g.step (parse_gives .typeOperator g.ready (by decide) trivial) fun type t g => ?_
    exact g.loosen.finishProduction rfl (by simp [Payload.fields]) rfl
  refine .kind ?_
  split
  · exact hprefixed (by simp [*])
  · exact hprefixed (by simp [*])
  · exact hprefixed (by simp [*])
  · exact inferType_gives h
  · exact postfixType_gives h

/-- The types of a chain lie one after the other from where the first of them starts. -/
theorem typeChain_gives {part : Parser NodeId} {node : NodeKind} (operator : Punctuator)
    (hnode : (Kind.node node).isRuled = false) (hpart : ∀ t, env.Ready rank t → part.Gives env false t t) (h : env.Ready rank s) :
    (typeChain node operator part).Gives env false s s := by
  refine .nodePos ((Sofar.start h).step (acceptPunct_gives _ h.ok) fun led t g => ?_)
  refine g.step (hpart t g.ready) fun first t g => .isAt (.ite (fun _ => g.done rfl) fun _ => ?_)
  refine g.node (by simp) fun n hn => ?_
  -- The types after the first one are collected apart, for the list starts where the first does.
  let inv (read : List NodeId) (u : ParserState) : Prop :=
    ∃ more, read = more ++ [first] ∧ Sofar env rank false t t u (readParts more)
  refine (repeating_ends (P := inv) (Q := inv) ⟨[], rfl, .start g.ready⟩
    (fun _ _ ⟨_, _, g⟩ => g.ready.ok.pos_le_size) fun read u ⟨more, hread, g'⟩ => ?_).bind
    fun read u ⟨⟨more, hread, g'⟩, _⟩ => .nodePos ?_
  · refine g'.mark.acceptPunct (fun v _ g'' => ?_) fun _ => ⟨⟨more, hread, g'⟩, Nat.le_refl _⟩
    refine (hpart v g''.ready.ofTop).bind fun id w hw => ?_
    have g'' := g''.go hw.run
    refine .pure ⟨⟨id :: more, by simp [hread], ?_⟩, g''.ahead rfl⟩
    simpa using g'.resume g''.toHanded
  · have hnodes : read.reverse = first :: more.reverse := by simp [hread]
    rw [hnodes]
    have hall : Run env.file.text s u ((first :: more.reverse).map Part.node) := by
      simpa [readParts] using g.run.trans g'.run
    have hspan := hall.placed.children
    rw [childrenOf_map_node] at hspan
    obtain ⟨n', hn', hle, hstop, hrest⟩ := hspan
    cases (g'.run.grows.get? hn).symm.trans hn'
    have hlist : Run env.file.text s u
        [.array { pos := n.pos, stop := u.pos, nodes := first :: more.reverse }] :=
      Run.gather hall hle (Nat.le_refl _) ⟨n, hn', Nat.le_refl _, hstop, hrest⟩
    exact ((Sofar.start h).go hlist).finishProduction rfl (by simp [Payload.fields])
      (Kind.isSpecial_eq_false hnode rfl)

/-- A union, or what may be part of one. -/
theorem unionType_gives (h : env.Ready rank s) : unionType.Gives env false s s :=
  typeChain_gives _ rfl (fun _ ht => typeChain_gives _ rfl (fun _ hu => typeOperator_gives hu) ht) h

/-! ## 7. Types -/

theorem conditionalRest_gives {check : NodeId}
    (g : Sofar env Production.topRank took r m s [.node check]) :
    (conditionalRest r.pos check).Ends env s
      fun id t => Handed env.file.text took r m t [.node id] := by
  refine g.step (parseIn_gives .type g.ready (by decide) trivial) fun bound t g => ?_
  refine g.step (expectPunct_gives _ g.ready.ok) fun _ t g => ?_
  refine g.step (parseIn_gives .type g.ready (by decide) trivial) fun whenTrue t g => ?_
  refine g.step (expectPunct_gives _ g.ready.ok) fun _ t g => ?_
  refine g.step (parseIn_gives .type g.ready (by decide) trivial) fun whenFalse t g => ?_
  exact g.finishProduction rfl (by simp [Payload.fields]) rfl

theorem typeBody_gives (h : env.Ready rank s) : typeBody.Gives env false s s := by
  refine (startsFunctionType_ends h).bind fun starts t ⟨hstill, hopens⟩ => ?_
  have g := (Sofar.start h).goOn hstill.toRun
  refine .ite (fun hstarts => ?_) fun _ => .isAt (.ite (fun hnew => ?_) fun _ => .nodePos ?_)
  · refine g.only (functionType_gives g.ready ?_)
    rw [hstill.token]
    exact hopens hstarts
  · exact g.only (constructorType_gives g.ready (beq_iff_eq.mp hnew))
  have hpos : t.pos = s.pos := congrArg Token.fullStart hstill.token
  refine g.step (unionType_gives g.ready) fun check t g => .context (.ite ?_ fun _ => ?_)
  · exact fun _ => g.done rfl
  refine .afterLineBreak (.ite (fun _ => g.done rfl) fun _ => ?_)
  refine g.acceptKeyword (fun u _ g' => ?_) fun _ => g.done rfl
  rw [hpos]
  exact conditionalRest_gives g'.weaken

/-- A type, wherever it stands and however deep. In place of one that is nested too deeply there is
a reference to an empty name. -/
theorem type_gives (h : env.Ready rank s) : type.Gives env false s s := by
  refine .inContext h fun context h => ?_
  refine (nested_gives _ h.ok (by nofun) (typeBody_gives (h.atDepth _))).bind fun (id, parsed) t ht => ?_
  have g := (Sofar.start h).resume ht
  refine .ite (fun _ => g.done rfl) fun _ => g.node (List.mem_singleton_self _) fun n hn => ?_
  exact (finishAround_ends g.run hn rfl rfl).mono fun _ _ h => g.finished h.2

end Parser

end ScriptSyntax
