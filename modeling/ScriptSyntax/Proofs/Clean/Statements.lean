/-
  ScriptSyntax/Proofs/Clean/Statements.lean
  =========================================
  Declarations and statements on clean runs, and from them all of the productions.

  The productions call each other, so what they come to is shown by induction on
  the number of calls that may enclose each other.
-/
import ScriptSyntax.Proofs.Clean.Modules

namespace ScriptSyntax

namespace Parser

variable {env : Surroundings} {took : Bool} {k : Nat} {r s t u : ParserState} {items : List Part}
variable {start : DeclarationStart}

/-! ## 1. Declarations -/

theorem typeAliasDeclaration_produces (g : Going env false 2 r s (held start)) (hstart : start.pos = r.pos) :
    (typeAliasDeclaration start).Produces env 3 r s := by
  refine g.stepTook (expectKeyword_goes _ g.apt) fun _ t g => ?_
  refine g.step (identifier_produces g.apt).goes fun name t g => ?_
  refine g.step (typeParameters_goes g.apt) fun typeParameters t g => ?_
  refine g.step (expectPunct_goes _ g.apt) fun _ t g => ?_
  refine g.step (parse_goes .type g.apt trivial) fun type t g => ?_
  exact g.step (semicolon_goes g.apt) fun _ t g =>
    g.finish hstart (by simp [Node.parts_eq, Payload.fields]) rfl

theorem enumMember_produces (h : env.Apt s) : enumMember.Produces env 4 s s := by
  refine .nodePos ((Going.start 3 h).stepTook (propertyName_produces h).goes fun name t g => ?_)
  exact g.step (.withContext g.apt fun _ h => initializer_goes h) fun initializer t g =>
    g.finish rfl (by simp [Node.parts_eq, Payload.fields, Payload.variableFields]) rfl

theorem enumDeclaration_produces (g : Going env false 4 r s (held start)) (hstart : start.pos = r.pos) :
    (enumDeclaration start).Produces env 5 r s := by
  refine g.stepTook (expectKeyword_goes _ g.apt) fun _ t g => ?_
  refine g.step (identifier_produces g.apt).goes fun name t g => ?_
  exact g.step (bracketed_goes g.apt fun _ h => (enumMember_produces h).goes) fun members t g =>
    g.finish hstart (by simp [Node.parts_eq, Payload.fields]) rfl

/-- Where no declaration follows its modifiers, that is reported. -/
theorem declarationAfterModifiers_produces (g : Going env false 1 r s (held start)) (hstart : start.pos = r.pos) :
    (declarationAfterModifiers start).Produces env 8 r s := by
  refine .kind ?_
  split
  case h_1 | h_2 | h_3 => exact variableStatement_produces g.upTo hstart (by simp [*])
  case h_4 => exact (functionDeclaration_produces g.upTo hstart).upTo
  case h_5 => exact classLike_produces g.upTo hstart rfl
  case h_6 => exact interfaceDeclaration_produces g.upTo hstart
  case h_7 => exact (typeAliasDeclaration_produces g.upTo hstart).upTo
  case h_8 => exact (enumDeclaration_produces g.upTo hstart).upTo
  case h_9 | h_10 | h_11 => exact (moduleDeclaration_produces g hstart).upTo
  case h_12 => exact (importDeclaration_produces g.upTo hstart).upTo
  case h_13 =>
    refine g.stepTook (nextToken_passes g.apt (by simp [*])) fun _ t g => ?_
    have g : Going env true 1 r t (held start) := g.parts (by simp)
    exact (exportDeclaration_produces g.upTo hstart).upTo
  case h_14 =>
    refine (errorHere_dirty _ _).bind fun _ t ht => Produces.upTo (k := 2) ?_
    have g : Going env true 1 r t (held start) := g.dirty ht
    exact g.finish hstart (by simp [Node.parts_eq, Payload.fields]) rfl

theorem declaration_produces (h : env.Apt s) : declaration.Produces env 8 s s := by
  refine .nodePos ((Going.start 1 h).step (decorators_goes h) fun decorators t g => ?_)
  refine g.step (modifiers_goes false g.apt) fun modifiers t g => ?_
  exact declarationAfterModifiers_produces (g.parts (by simp)) rfl

/-! ## 2. Conditions and loops -/

theorem headExpression_produces (h : env.Apt s) : headExpression.Goes env true 2 s := by
  refine .tokenPos ((Going.start 2 h).stepTook (expectPunct_goes _ h) fun opened t g => ?_)
  refine g.step (parseIn_goes .expression g.apt (fun _ => trivial)) fun inner t g => ?_
  exact g.step (expectClosing_goes _ _ _ g.apt) fun _ t g => g.done (by simp)

theorem ifStatement_produces (h : env.Apt s) : ifStatement.Produces env 3 s s := by
  refine .nodePos ((Going.start 2 h).stepTook (expectKeyword_goes _ h) fun _ t g => ?_)
  refine g.step (headExpression_produces g.apt) fun condition t g => ?_
  refine g.step (parse_goes .statement g.apt trivial) fun whenTrue t g => ?_
  extract_lets rest
  refine g.fork rest (fun whenFalse t g =>
    g.finish rfl (by simp [Node.parts_eq, Payload.fields]) rfl) fun hrest => g.acceptKeyword (fun u g => ?_) ?_
  · exact g.step (parse_goes .statement g.apt trivial) fun whenFalse u g => hrest (some whenFalse) u g
  · exact hrest none t (g.parts (by simp))

theorem doStatement_produces (h : env.Apt s) : doStatement.Produces env 3 s s := by
  refine .nodePos ((Going.start 2 h).stepTook (expectKeyword_goes _ h) fun _ t g => ?_)
  refine g.step (parse_goes .statement g.apt trivial) fun body t g => ?_
  refine g.step (expectKeyword_goes _ g.apt) fun _ t g => ?_
  refine g.step (headExpression_produces g.apt) fun condition t g => ?_
  exact g.step (acceptPunct_goes _ g.apt) fun _ t g =>
    g.finish rfl (by simp [Node.parts_eq, Payload.fields]) rfl

theorem headedStatement_produces (keyword : Keyword) {kind : NodeKind} (h : env.Apt s)
    (hkind : (Kind.node kind).isSolid = true) : (headedStatement keyword kind).Produces env 3 s s := by
  refine .nodePos ((Going.start 2 h).stepTook (expectKeyword_goes _ h) fun _ t g => ?_)
  refine g.step (headExpression_produces g.apt) fun condition t g => ?_
  refine g.step (parse_goes .statement g.apt trivial) fun body t g => ?_
  exact g.finish rfl (by simp [Node.parts_eq, Payload.fields]) hkind

theorem loopExpression_goes (absent : Kind → Bool) (h : env.Apt s) : (loopExpression absent).Goes env false 2 s := by
  refine .kind (.ite (fun _ => .pure (.refl h.fine)) fun _ => ?_)
  exact (parseIn_goes .expression h (fun _ => trivial)).bind fun _ _ ht => .pure ht.weaken

theorem loopInitializer_goes (h : env.Apt s) : loopInitializer.Goes env false 7 s := by
  refine .kind ?_
  split
  case h_1 => exact .pure (.refl h.fine)
  case h_5 => exact (parseIn_goes .expression h (fun _ => trivial)).upTo.bind fun _ _ ht => .pure ht.weaken
  all_goals
    exact (variableDeclarationList_produces true h (by simp [*])).bind fun _ _ ht => .pure ht.went.weaken

theorem forInOfRest_produces {awaitWord initializer : Option NodeId} (overKeys : Bool)
    (g : Going env true 7 r s (held awaitWord ++ held initializer)) :
    (forInOfRest r.pos awaitWord initializer overKeys).Produces env 8 r s := by
  refine g.step (expectWith_goes none g.apt ?_) fun _ t g => ?_
  · cases overKeys <;> nofun
  extract_lets rest
  have hrest (initializer : NodeId) (u : ParserState)
      (g : Going env true 7 r u (held awaitWord ++ [Part.node initializer])) :
      (rest initializer).Produces env 8 r u := by
    have hsource : (withContext (fun c => { c with disallowIn := false })
        (parse (if overKeys then .expression else .assignment))).Goes env true 2 u := by
      cases overKeys
      · exact (parseIn_goes .assignment g.apt (fun _ => trivial)).upTo
      · exact parseIn_goes .expression g.apt (fun _ => trivial)
    refine g.step hsource fun source t g => ?_
    refine g.step (expectPunct_goes _ g.apt) fun _ t g => ?_
    refine g.step (parse_goes .statement g.apt trivial) fun body t g => ?_
    exact g.finish rfl (by simp [Node.parts_eq, Payload.fields]) (by cases overKeys <;> rfl)
  cases initializer with
  | some id => exact hrest id t (g.parts (by simp))
  | none =>
    refine g.step (missingBefore_produces (k := 0) (r := t) _ _ _ g.apt).goes fun initializer u g => ?_
    exact hrest initializer u (g.parts (by simp))

theorem forRest_produces {initializer : Option NodeId} (g : Going env true 7 r s (held initializer)) :
    (forRest r.pos initializer).Produces env 8 r s := by
  refine g.step (expectPunct_goes _ g.apt) fun _ t g => ?_
  refine g.step (loopExpression_goes _ g.apt) fun condition t g => ?_
  refine g.step (expectPunct_goes _ g.apt) fun _ t g => ?_
  refine g.step (loopExpression_goes _ g.apt) fun increment t g => ?_
  refine g.step (expectPunct_goes _ g.apt) fun _ t g => ?_
  exact g.step (parse_goes .statement g.apt trivial) fun body t g =>
    g.finish rfl (by simp [Node.parts_eq, Payload.fields]) rfl

theorem forStatement_produces (h : env.Apt s) : forStatement.Produces env 8 s s := by
  refine .nodePos ((Going.start 7 h).stepTook (expectKeyword_goes _ h) fun _ t g => ?_)
  refine g.step (acceptToken_goes g.apt rfl) fun awaitWord t g => ?_
  refine g.step (expectPunct_goes _ g.apt) fun _ t g => ?_
  refine g.step (loopInitializer_goes g.apt) fun initializer t g => ?_
  have hforward : Going env true 7 s t (held initializer) := g.among (by simp)
  refine .ite (fun _ => forInOfRest_produces false (g.parts (by simp))) fun _ => .kind ?_
  split
  · exact forInOfRest_produces true (hforward.parts (by simp))
  · exact forInOfRest_produces false (hforward.parts (by simp))
  · exact forRest_produces hforward

/-! ## 3. Jumps -/

theorem jumpStatement_produces {kind : NodeKind} (h : env.Apt s) (hkind : (Kind.node kind).isSolid = true)
    (htoken : s.token.kind ≠ .endOfFile) : (jumpStatement kind).Produces env 2 s s := by
  refine .nodePos ((Going.start 1 h).stepTook (nextToken_passes h htoken) fun _ t g => ?_)
  refine g.ask .canEndStatement fun _ t g => ?_
  extract_lets rest
  refine g.fork rest (fun label t g => ?_) fun hrest => .ite (fun _ => ?_) fun _ => ?_
  · refine g.step (semicolon_goes g.apt) fun _ t g => ?_
    exact g.finish rfl (by simp [Node.parts_eq, Payload.fields]) hkind
  · exact hrest none t (g.parts (by simp))
  · exact g.step (identifier_produces g.apt).goes fun label u g => hrest (some label) u g

theorem returnStatement_produces (h : env.Apt s) : returnStatement.Produces env 3 s s := by
  refine .nodePos ((Going.start 2 h).stepTook (expectKeyword_goes _ h) fun _ t g => ?_)
  refine g.ask .canEndStatement fun _ t g => ?_
  extract_lets rest
  refine g.fork rest (fun value t g => ?_) fun hrest => .ite (fun _ => ?_) fun _ => ?_
  · exact g.step (semicolon_goes g.apt) fun _ t g =>
      g.finish rfl (by simp [Node.parts_eq, Payload.fields]) rfl
  · exact hrest none t (g.parts (by simp))
  · exact g.step (parseIn_goes .expression g.apt (fun _ => trivial)) fun value u g => hrest (some value) u g

theorem throwStatement_produces (h : env.Apt s) : throwStatement.Produces env 3 s s := by
  refine .nodePos ((Going.start 2 h).stepTook (expectKeyword_goes _ h) fun _ t g => .afterLineBreak ?_)
  extract_lets rest
  refine g.fork rest (fun value t g => ?_) fun hrest => .ite (fun _ => ?_) fun _ => ?_
  · exact g.step (semicolon_goes g.apt) fun _ t g =>
      g.finish rfl (by simp [Node.parts_eq, Payload.fields]) rfl
  · exact g.step (missingHere_produces (k := 0) (r := t) _ _ _ g.apt).goes hrest
  · exact g.step (parseIn_goes .expression g.apt (fun _ => trivial)) hrest

/-! ## 4. Branches -/

theorem switchClause_produces (h : env.Apt s) : switchClause.Produces env 3 s s := by
  refine .nodePos ?_
  have hrest (guard : Option NodeId) (t : ParserState) (g : Going env true 2 s t (held guard)) : (do
      let _ ← expectPunct .colon
      let statements ← elements .switchClauseStatements (parse .statement)
      finishProduction (if guard.isSome then .caseClause else .defaultClause) s.pos
        (.caseClause guard statements) : Parser NodeId).Produces env 3 s t := by
    refine g.step (expectPunct_goes _ g.apt) fun _ t g => ?_
    refine g.step (elements_goes g.apt fun _ => parseStatement_produces) fun statements t g => ?_
    exact g.finish rfl (by simp [Node.parts_eq, Payload.fields]) (by cases guard <;> rfl)
  refine (Going.start 2 h).acceptKeyword (fun t g => ?_) ?_
  · exact g.step (parseIn_goes .expression g.apt (fun _ => trivial)) fun guard u g => hrest (some guard) u g
  · refine (Going.start 2 h).stepTook (expectKeyword_goes _ h) fun _ t g => ?_
    exact hrest none t (g.parts (by simp))

theorem switchStatement_produces (h : env.Apt s) : switchStatement.Produces env 5 s s := by
  refine .nodePos ((Going.start 4 h).stepTook (expectKeyword_goes _ h) fun _ t g => ?_)
  refine g.step (headExpression_produces g.apt) fun subject t g => .nodePos ?_
  refine (Going.start 3 g.apt).stepTook (expectPunct_goes _ g.apt) fun _ u g' => ?_
  refine g'.step (elements_goes g'.apt fun _ h _ => switchClause_produces h) fun clauses u g' => ?_
  refine g'.step (expectPunct_goes _ g'.apt) fun _ u g' => ?_
  refine Ends.bind (P := Made env.file.text 4 t)
    (g'.finish rfl (by simp [Node.parts_eq, Payload.fields]) rfl) fun cases v hcases => ?_
  exact (g.goTook hcases.went (by decide)).finish rfl (by simp [Node.parts_eq, Payload.fields]) rfl

theorem catchClause_produces (h : env.Apt s) : catchClause.Produces env 7 s s := by
  refine .nodePos ((Going.start 6 h).stepTook (expectKeyword_goes _ h) fun _ t g => ?_)
  have hrest (binding : Option NodeId) (t : ParserState) (g : Going env true 6 s t (held binding)) : (do
      finishProduction .catchClause s.pos (.catchClause binding (← block)) : Parser NodeId).Produces env 7 s t :=
    g.step (blockWith_produces _ _ g.apt).goes fun body t g =>
      g.finish rfl (by simp [Node.parts_eq, Payload.fields]) rfl
  refine g.acceptPunct (fun u g => ?_) (hrest none t (g.parts (by simp)))
  refine g.step (variableDeclaration_produces g.apt).goes fun declared u g => ?_
  exact g.step (expectPunct_goes _ g.apt) fun _ u g => hrest (some declared) u (g.parts (by simp))

theorem tryStatement_produces (h : env.Apt s) : tryStatement.Produces env 8 s s := by
  refine .nodePos ((Going.start 7 h).stepTook (expectKeyword_goes _ h) fun _ t g => ?_)
  refine g.step (blockWith_produces _ _ g.apt).goes fun body t g => .isAt ?_
  extract_lets rest
  refine g.fork rest (fun handler t g => ?_) fun hrest => .ite (fun _ => ?_) fun _ => ?_
  · refine g.ask (.or (.pure _) (.isAtKeyword _)) fun _ t g => ?_
    extract_lets rest
    refine g.fork rest (fun finalizer t g =>
      g.finish rfl (by simp [Node.parts_eq, Payload.fields]) rfl) fun hrest => .ite (fun _ => ?_) fun _ => ?_
    · refine g.step (expectKeyword_goes _ g.apt) fun _ u g => ?_
      exact g.step (blockWith_produces _ _ g.apt).goes fun finalizer u g =>
        hrest (some finalizer) u (g.parts (by simp))
    · exact hrest none t (g.parts (by simp))
  · exact g.step (catchClause_produces g.apt).goes fun handler u g => hrest (some handler) u g
  · exact hrest none t (g.parts (by simp))

/-! ## 5. Simple statements -/

theorem emptyStatement_produces (h : env.Apt s) (hkind : s.token.kind ≠ .endOfFile) :
    emptyStatement.Produces env 1 s s :=
  .nodePos ((Going.start 0 h).stepTook (nextToken_passes h hkind) fun _ _ g =>
    g.finish rfl (by simp [Node.parts_eq, Payload.fields]) rfl)

theorem debuggerStatement_produces (h : env.Apt s) (hkind : s.token.kind ≠ .endOfFile) :
    debuggerStatement.Produces env 1 s s := by
  refine .nodePos ((Going.start 0 h).stepTook (nextToken_passes h hkind) fun _ t g => ?_)
  exact g.step (semicolon_goes g.apt) fun _ t g => g.finish rfl (by simp [Node.parts_eq, Payload.fields]) rfl

/-- A token is read over only where a condition holds. -/
theorem andAccept_goes (b : Bool) (p : Punctuator) (h : env.Apt s) :
    (pure b <&&> acceptPunct p).Goes env false 0 s := by
  cases b with
  | true => exact acceptPunct_goes p h
  | false => exact .pure (.refl h.fine)

theorem expressionOrLabeled_produces (h : env.Apt s) : expressionOrLabeled.Produces env 3 s s := by
  refine .nodePos ((Going.start 2 h).stepTook (parseIn_goes .expression h (fun _ => trivial)) fun inner t g => ?_)
  refine g.ask (.kindOf inner) fun isLabel t g => ?_
  refine g.step (andAccept_goes _ _ g.apt) fun _ t g => .ite (fun _ => ?_) fun _ => ?_
  · exact g.step (parse_goes .statement g.apt trivial) fun statement t g =>
      g.finish rfl (by simp [Node.parts_eq, Payload.fields]) rfl
  · exact g.step (semicolon_goes g.apt) fun _ t g =>
      g.finish rfl (by simp [Node.parts_eq, Payload.fields]) rfl

/-! ## 6. Statements -/

theorem declarationOrExpression_produces (h : env.Apt s) : declarationOrExpression.Produces env 8 s s :=
  .ask h startsDeclaration_orderly fun _ _ _ h =>
    .ite (fun _ => declaration_produces h) fun _ => (expressionOrLabeled_produces h).upTo

theorem statementBody_produces (h : env.Apt s) : statementBody.Produces env 8 s s := by
  refine .nodePos (.kind ?_)
  have hbare {k : Nat} {t : ParserState} (h : env.Apt t) : Going env false k t t (held { pos := t.pos : DeclarationStart }) :=
    (Going.start k h).parts (by simp)
  split
  case h_1 => exact (emptyStatement_produces h (by simp [*])).upTo
  case h_2 => exact (blockWith_produces _ _ h).upTo
  case h_3 => exact variableStatement_produces (hbare h) rfl (by simp [*])
  case h_4 hlet =>
    refine Produces.ask h letDeclares_orderly fun _ t ht h => .ite (fun _ => ?_) fun _ => (expressionOrLabeled_produces h).upTo
    rw [show s.pos = t.pos from congrArg Token.fullStart ht.symm]
    exact variableStatement_produces (hbare h) rfl (by rw [ht, hlet]; nofun)
  case h_5 => exact (functionDeclaration_produces (hbare h) rfl).upTo
  case h_6 => exact classLike_produces (hbare h) rfl rfl
  case h_7 => exact (ifStatement_produces h).upTo
  case h_8 => exact (doStatement_produces h).upTo
  case h_9 | h_14 => exact (headedStatement_produces _ h rfl).upTo
  case h_10 => exact forStatement_produces h
  case h_11 | h_12 => exact (jumpStatement_produces h rfl (by simp [*])).upTo
  case h_13 => exact (returnStatement_produces h).upTo
  case h_15 => exact (switchStatement_produces h).upTo
  case h_16 => exact (throwStatement_produces h).upTo
  case h_17 | h_18 | h_19 => exact tryStatement_produces h
  case h_20 => exact (debuggerStatement_produces h (by simp [*])).upTo
  case h_21 => exact declaration_produces h
  case h_39 => exact (expressionOrLabeled_produces h).upTo
  all_goals exact declarationOrExpression_produces h

/-- A statement is read one level deeper. -/
theorem statement_produces (h : env.Apt s) : statement.Produces env 0 s s := by
  refine .nodePos ((nested_went _ h fun _ h => (statementBody_produces h).upTo).bind fun (id, parsed) t ht => ?_)
  refine .ite (fun _ => .pure ht.1) fun hno => ?_
  exact Produces.late (.finishProduction _ _ _) h.serves.adds (ht.2 hno)

/-! ## 7. Productions -/

/-- What every production comes to on a clean run. -/
theorem body_produces {q : Production} (h : env.Apt s) (hfits : q.Fits s.token) : q.body.Produces env q.height s s := by
  cases q with
  | statement => exact statement_produces h
  | expression => exact expression_produces h
  | assignment => exact assignment_produces h
  | binary level => exact binary_produces level h
  | simpleUnary => exact simpleUnary_produces h
  | leftHandSide => exact leftHandSide_produces h
  | primary => exact primary_produces h
  | type => exact type_produces h
  | typeOperator => exact typeOperator_produces h
  | bindingName => exact bindingName_produces h
  | jsxElement inExpression => exact jsxElement_produces inExpression h
  | namespaceDeclaration start flags =>
    obtain ⟨rfl, -⟩ := hfits
    exact namespaceDeclaration_produces ((Going.start 1 h).parts (by simp)) rfl

end Parser

/-- However many calls may enclose each other, they come to what they should. -/
theorem Surroundings.serves_run (file : SourceFacts) (count : Nat) :
    Surroundings.Serves ⟨file, Production.run file count⟩ where
  adds := Surroundings.adds_run file count
  call q s hfits hfine := by
    induction count generalizing q s with
    | zero =>
      refine .dirty fun hclean => ?_
      have hnone : (s.fault <|> some Fault.outOfSteps) = none := hclean.faultless
      cases hfault : s.fault <;> simp [hfault] at hnone
    | succ count ih =>
      have hserves : Surroundings.Serves ⟨file, Production.run file count⟩ :=
        ⟨Surroundings.adds_run file count, ih⟩
      exact Parser.body_produces ⟨hserves, hfine⟩ hfits

end ScriptSyntax
