/-
  ScriptSyntax/Proofs/Grammar/Statements.lean
  ===========================================
  Statements other than declarations.

  Most statements start with their keyword and take it.  A stray part of a `try`
  statement has none: there the block is missing too, and the part is read where
  the statement starts.
-/
import ScriptSyntax.Proofs.Grammar.Expressions
import ScriptSyntax.Grammar.Statements

namespace ScriptSyntax

namespace Parser

variable {env : Surroundings} {rank : Nat} {took : Bool} {r m s t : ParserState}
variable {items : List Part}

/-! ## 1. Conditions and loops -/

theorem headExpression_gives (h : env.Ready Production.topRank s) :
    headExpression.Gives env false s s := by
  refine .tokenPos ((expectWith_ends (k := .punct .openParen) none h.ok nofun).bind
    fun opened t ht => ?_)
  obtain ⟨hrun, hparen⟩ : Run env.file.text s t [] ∧
      (opened = true → s.token.start < env.file.text.size) := by
    rcases ht with ⟨-, hkind, ht⟩ | ⟨rfl, -, ht⟩
    · exact ⟨ht.toRun, fun _ => h.ok.token.start_lt_size (by simp [hkind])⟩
    · exact ⟨ht.toRun, nofun⟩
  have g := (Sofar.start h).goOn hrun
  refine g.step (parseIn_gives .expression g.ready (by decide) trivial) fun inner t g => ?_
  refine g.step (expectClosing_gives _ _ g.ready.ok hparen) fun _ t g => ?_
  exact g.done (by simp)

theorem ifStatement_takes (h : env.Ready rank s) (hkind : s.token.kind = .keyword .ifKw) :
    ifStatement.Gives env true s s := by
  refine .nodePos ((Sofar.start h).stepTook (expectKeyword_takes h.ok hkind) fun _ t g => ?_)
  refine g.step (headExpression_gives g.ready) fun condition t g => ?_
  refine g.step (parse_gives .statement g.ready (by decide) trivial) fun whenTrue t g => ?_
  extract_lets rest
  refine g.fork rest (fun whenFalse t g => ?_) fun hrest => ?_
  · exact g.finishProduction rfl (by simp [Payload.fields]) rfl
  · refine g.acceptKeyword (fun t _ g => ?_) fun _ => hrest none t (g.parts (by simp))
    exact g.step (parse_gives .statement g.ready (by decide) trivial) fun other t g =>
      hrest (some other) t g

theorem doStatement_takes (h : env.Ready rank s) (hkind : s.token.kind = .keyword .doKw) :
    doStatement.Gives env true s s := by
  refine .nodePos ((Sofar.start h).stepTook (expectKeyword_takes h.ok hkind) fun _ t g => ?_)
  refine g.step (parse_gives .statement g.ready (by decide) trivial) fun body t g => ?_
  refine g.step (expectKeyword_gives _ g.ready.ok) fun _ t g => ?_
  refine g.step (headExpression_gives g.ready) fun condition t g => ?_
  refine g.step (acceptPunct_gives _ g.ready.ok) fun _ t g => ?_
  exact g.finishProduction rfl (by simp [Payload.fields]) rfl

theorem headedStatement_takes {keyword : Keyword} {kind : NodeKind}
    (hplain : (Kind.node kind).isRuled = false) (h : env.Ready rank s)
    (hkind : s.token.kind = .keyword keyword) :
    (headedStatement keyword kind).Gives env true s s := by
  refine .nodePos ((Sofar.start h).stepTook (expectKeyword_takes h.ok hkind) fun _ t g => ?_)
  refine g.step (headExpression_gives g.ready) fun condition t g => ?_
  refine g.step (parse_gives .statement g.ready (by decide) trivial) fun body t g => ?_
  exact g.finishProduction rfl (by simp [Payload.fields]) (Kind.isSpecial_eq_false hplain rfl)

theorem loopExpression_gives (absent : Kind → Bool) (h : env.Ready Production.topRank s) :
    (loopExpression absent).Gives env false s s := by
  refine .kind (.ite (fun _ => (Run.refl h.ok).handed) fun _ => ?_)
  exact (Sofar.start h).step (parseIn_gives .expression h (by decide) trivial) fun _ _ g => g.done rfl

theorem loopInitializer_gives (h : env.Ready Production.topRank s) :
    loopInitializer.Gives env false s s := by
  refine .kind ?_
  split
  · exact (Run.refl h.ok).handed
  · exact (variableDeclarationList_takes true h (by simp [*])).weaken.bind fun _ _ ht => ht
  · exact (variableDeclarationList_takes true h (by simp [*])).weaken.bind fun _ _ ht => ht
  · exact (variableDeclarationList_takes true h (by simp [*])).weaken.bind fun _ _ ht => ht
  · exact (Sofar.start h).step (parseIn_gives .expression h (by decide) trivial) fun _ _ g => g.done rfl

theorem forInOfRest_gives {awaitWord initializer : Option NodeId} (overKeys : Bool)
    (g : Sofar env Production.topRank took r m s (held awaitWord ++ held initializer)) :
    (forInOfRest r.pos awaitWord initializer overKeys).Ends env s
      fun id t => Handed env.file.text took r m t (held id) := by
  refine g.step (expectKeyword_gives _ g.ready.ok) fun _ t g => ?_
  extract_lets rest
  refine .via (P := fun id u => Sofar env Production.topRank took r m u (held awaitWord ++ [Part.node id]))
    rest (fun initializer t g => ?_) fun hrest => ?_
  · refine g.step (parseIn_gives _ g.ready (Production.rank_lt_topRank _) ?_) fun source t g => ?_
    · cases overKeys <;> trivial
    refine g.step (expectPunct_gives _ g.ready.ok) fun _ t g => ?_
    refine g.step (parse_gives .statement g.ready (by decide) trivial) fun body t g => ?_
    exact g.finishProduction rfl (by simp [Payload.fields]) (by cases overKeys <;> rfl)
  · cases initializer with
    | some id => exact hrest id t (g.parts (by simp))
    | none =>
      refine g.step (missingBefore_gives rfl _ _ g.ready.ok) fun id t g => ?_
      exact hrest id t (g.parts (by simp))

theorem forRest_gives {initializer : Option NodeId}
    (g : Sofar env Production.topRank took r m s (held initializer)) :
    (forRest r.pos initializer).Ends env s
      fun id t => Handed env.file.text took r m t (held id) := by
  refine g.step (expectPunct_gives _ g.ready.ok) fun _ t g => ?_
  refine g.step (loopExpression_gives _ g.ready) fun condition t g => ?_
  refine g.step (expectPunct_gives _ g.ready.ok) fun _ t g => ?_
  refine g.step (loopExpression_gives _ g.ready) fun increment t g => ?_
  refine g.step (expectPunct_gives _ g.ready.ok) fun _ t g => ?_
  refine g.step (parse_gives .statement g.ready (by decide) trivial) fun body t g => ?_
  exact g.finishProduction rfl (by simp [Payload.fields]) rfl

theorem forStatement_takes (h : env.Ready rank s) (hkind : s.token.kind = .keyword .forKw) :
    forStatement.Gives env true s s := by
  refine .nodePos ((Sofar.start h).stepTook (expectKeyword_takes h.ok hkind) fun _ t g => ?_)
  refine g.step (acceptToken_gives _ g.ready.ok) fun awaitWord t g => ?_
  refine g.step (expectPunct_gives _ g.ready.ok) fun _ t g => ?_
  refine g.step (loopInitializer_gives g.ready) fun initializer t g => ?_
  refine .ite (fun _ => ?_) fun hno => .kind ?_
  · exact forInOfRest_gives false (g.parts (by simp))
  have hno : awaitWord = none := by simpa using hno
  subst hno
  split
  · exact forInOfRest_gives true (g.parts (by simp))
  · exact forInOfRest_gives false (g.parts (by simp))
  · exact forRest_gives (g.parts (by simp))

/-! ## 2. Jumps -/

theorem jumpStatement_takes {kind : NodeKind} (hplain : (Kind.node kind).isRuled = false)
    (h : env.Ready rank s) (hkind : s.token.kind ≠ .endOfFile) : (jumpStatement kind).Gives env true s s := by
  refine .nodePos ((Sofar.start h).stepTook (nextToken_takes h.ok hkind) fun _ t g => ?_)
  refine .ask (canEndStatement_inquires (o := true).asks g.ready.ok) ?_
  extract_lets rest
  refine g.fork rest (fun label t g => ?_) fun hrest => .ite (fun _ => ?_) fun _ => ?_
  · refine g.step (semicolon_gives g.ready.ok) fun _ t g => ?_
    exact g.finishProduction rfl (by simp [Payload.fields]) (Kind.isSpecial_eq_false hplain rfl)
  · exact hrest none t (g.parts (by simp))
  · exact g.step (identifier_gives g.ready.ok) fun label t g => hrest (some label) t g

theorem returnStatement_takes (h : env.Ready rank s)
    (hkind : s.token.kind = .keyword .returnKw) : returnStatement.Gives env true s s := by
  refine .nodePos ((Sofar.start h).stepTook (expectKeyword_takes h.ok hkind) fun _ t g => ?_)
  refine .ask (canEndStatement_inquires (o := true).asks g.ready.ok) ?_
  extract_lets rest
  refine g.fork rest (fun value t g => ?_) fun hrest => .ite (fun _ => ?_) fun _ => ?_
  · refine g.step (semicolon_gives g.ready.ok) fun _ t g => ?_
    exact g.finishProduction rfl (by simp [Payload.fields]) rfl
  · exact hrest none t (g.parts (by simp))
  · exact g.step (parseIn_gives .expression g.ready (by decide) trivial) fun value t g =>
      hrest (some value) t g

theorem throwStatement_takes (h : env.Ready rank s) (hkind : s.token.kind = .keyword .throwKw) :
    throwStatement.Gives env true s s := by
  refine .nodePos ((Sofar.start h).stepTook (expectKeyword_takes h.ok hkind) fun _ t g => ?_)
  refine .afterLineBreak ?_
  extract_lets rest
  refine g.fork rest (fun value t g => ?_) fun hrest => .ite (fun _ => ?_) fun _ => ?_
  · refine g.step (semicolon_gives g.ready.ok) fun _ t g => ?_
    exact g.finishProduction rfl (by simp [Payload.fields]) rfl
  · exact g.step (missingHere_gives rfl _ _ g.ready.ok) hrest
  · exact g.step (parseIn_gives .expression g.ready (by decide) trivial) hrest

/-! ## 3. Branches -/

theorem startsElement_switchClauses (h : (startsElement .switchClauses false).answer env s = true) :
    s.token.kind = .keyword .caseKw ∨ s.token.kind = .keyword .defaultKw :=
  (answer_or h rfl).imp beq_iff_eq.mp beq_iff_eq.mp

/-- A clause takes its keyword. -/
theorem switchClause_takes (h : env.Ready rank s)
    (hkind : s.token.kind = .keyword .caseKw ∨ s.token.kind = .keyword .defaultKw) :
    switchClause.Gives env true s s := by
  unfold switchClause
  refine .nodePos ?_
  extract_lets rest
  have hrest (guard : Option NodeId) (t : ParserState)
      (g : Sofar env Production.topRank true s s t (held guard)) :
      (rest guard).Ends env t fun id u => Handed env.file.text true s s u (held id) := by
    refine g.step (expectPunct_gives _ g.ready.ok) fun _ t g => ?_
    refine g.step (elements_gives g.ready (statements_reads rfl (by decide))) fun statements t g => ?_
    exact g.finishProduction rfl (by simp [Payload.fields]) (by cases guard <;> rfl)
  refine (Sofar.start h).acceptKeyword (fun t _ g => ?_) fun hne => ?_
  · exact g.step (parseIn_gives .expression g.ready (by decide) trivial) fun guard t g =>
      hrest (some guard) t g
  · have hdefault := hkind.resolve_left hne
    exact (Sofar.start h).stepTook (expectKeyword_takes h.ok hdefault) fun _ t g => hrest none t g

theorem switchClause_reads (env : Surroundings) (rank : Nat) :
    Reads env rank true .switchClauses switchClause :=
  fun _ hs hstarts => switchClause_takes hs (startsElement_switchClauses hstarts)

theorem switchStatement_takes (h : env.Ready rank s)
    (hkind : s.token.kind = .keyword .switchKw) : switchStatement.Gives env true s s := by
  refine .nodePos ((Sofar.start h).stepTook (expectKeyword_takes h.ok hkind) fun _ t g => ?_)
  refine g.step (headExpression_gives g.ready) fun subject t g => .nodePos ?_
  -- The clauses and their braces are a node of their own.
  have gblock := g.here
  refine gblock.step (expectPunct_gives _ g.ready.ok) fun _ u gblock => ?_
  refine gblock.step (elements_gives gblock.ready (switchClause_reads _ _)) fun clauses u gblock => ?_
  refine gblock.step (expectPunct_gives _ gblock.ready.ok) fun _ u gblock => ?_
  refine (gblock.finishProduction rfl (by simp [Payload.fields]) rfl).bind fun cases v hv => ?_
  exact (g.go hv.run).finishProduction rfl (by simp [Payload.fields]) rfl

theorem catchClause_takes (h : env.Ready rank s) (hkind : s.token.kind = .keyword .catchKw) :
    catchClause.Gives env true s s := by
  refine .nodePos ((Sofar.start h).stepTook (expectKeyword_takes h.ok hkind) fun _ t g => ?_)
  extract_lets rest
  refine g.fork rest (fun binding t g => ?_) fun hrest => ?_
  · refine g.step (block_gives g.ready) fun body t g => ?_
    exact g.finishProduction rfl (by simp [Payload.fields]) rfl
  · refine g.acceptPunct (fun t _ g => ?_) fun _ => hrest none t (g.parts (by simp))
    refine g.step (variableDeclaration_gives g.ready) fun declared t g => ?_
    refine g.step (expectPunct_gives _ g.ready.ok) fun _ t g => ?_
    exact hrest (some declared) t (g.parts (by simp))

/-- What a `try` statement starts with: its keyword, or one of its later parts. -/
def startsTry (k : Kind) : Bool :=
  k == .keyword .tryKw || k == .keyword .catchKw || k == .keyword .finallyKw

/-- A `try` statement has taken a token after each of its parts, or the next part starts here. -/
theorem tryStatement_takes (h : env.Ready rank s) (hkind : startsTry s.token.kind = true) :
    tryStatement.Gives env true s s := by
  refine .nodePos ?_
  refine Ends.bind (P := fun _ t => ∃ took, Sofar env rank took s s t []
    ∧ (took = true ∨ t.token.kind = .keyword .catchKw ∨ t.token.kind = .keyword .finallyKw)) ?_
    fun _ t ⟨took, g, hmoved⟩ => ?_
  · refine (expectWith_ends (k := .keyword .tryKw) none h.ok nofun).mono fun found t ht => ?_
    rcases ht with ⟨-, -, ht⟩ | ⟨-, hne, ht⟩
    · exact ⟨true, ((Sofar.start h).goOnTook ht.toRun ht.took).weaken, .inl rfl⟩
    · refine ⟨false, (Sofar.start h).goOn ht.toRun, .inr ?_⟩
      grind [startsTry, ht.token]
  refine Ends.bind (P := fun body u => ∃ took, Sofar env rank took s s u [.node body]
    ∧ (took = true ∨ u.token.kind = .keyword .catchKw ∨ u.token.kind = .keyword .finallyKw)) ?_
    fun body u ⟨took, g, hmoved⟩ => ?_
  · rcases hmoved with rfl | hmoved
    · exact (block_gives g.ready).mono fun id u hu => ⟨true, g.go hu.run, .inl rfl⟩
    · refine (block_missing g.ready.ok (by rcases hmoved with h | h <;> simp [h])).mono fun id u hu => ?_
      exact ⟨took, g.go hu.1, .inr (hu.2 ▸ hmoved)⟩
  extract_lets afterHandler
  refine .via (P := fun handler u => ∃ took, Sofar env rank took s s u (.node body :: held handler)
    ∧ (took = true ∨ (handler = none ∧ u.token.kind = .keyword .finallyKw)))
    afterHandler (fun handler v ⟨took, g, hmoved⟩ => ?_) fun hrest => .isAt (.ite (fun hcatch => ?_) fun hno => ?_)
  · unfold afterHandler
    extract_lets afterFinalizer
    have hasks : (pure handler.isNone <||> isAtKeyword .finallyKw).Asks env v := by
      cases handler <;> rfl
    refine .via (P := fun finalizer w =>
      Sofar env rank true s s w (.node body :: held handler ++ held finalizer)) afterFinalizer
      (fun finalizer w g => ?_) fun hrest => .ask hasks (.ite (fun _ => ?_) fun hno => ?_)
    · exact g.finishProduction rfl (by simp [Payload.fields]) rfl
    · have htook : (expectKeyword .finallyKw).Ends env v fun _ w =>
          Sofar env rank true s s w (.node body :: held handler) := by
        rcases hmoved with rfl | ⟨-, hkind⟩
        · exact (expectKeyword_gives _ g.ready.ok).mono fun _ w hw => g.goOn hw.run
        · exact (expectKeyword_takes g.ready.ok hkind).mono fun _ w hw =>
            (g.goOnTook hw.run (hw.ahead rfl)).weaken
      refine htook.bind fun _ w g => g.step (block_gives g.ready) fun finalizer w g => ?_
      exact hrest (some finalizer) w g
    · rcases hmoved with rfl | ⟨rfl, hkind⟩
      · exact hrest none v (g.parts (by simp))
      · cases hno
  · refine g.stepTook (catchClause_takes g.ready (beq_iff_eq.mp hcatch)) fun handler v g => ?_
    exact hrest (some handler) v ⟨true, g.weaken, .inl rfl⟩
  · refine hrest none u ⟨took, g.parts (by simp), hmoved.imp_right fun hkind => ⟨rfl, ?_⟩⟩
    exact hkind.resolve_left (by simpa using hno)

/-! ## 4. Simple statements -/

theorem emptyStatement_takes (h : env.Ready rank s) (hkind : s.token.kind ≠ .endOfFile) :
    emptyStatement.Gives env true s s := by
  refine .nodePos ((Sofar.start h).stepTook (nextToken_takes h.ok hkind) fun _ t g => ?_)
  exact g.finishProduction rfl rfl rfl

theorem debuggerStatement_takes (h : env.Ready rank s) (hkind : s.token.kind ≠ .endOfFile) :
    debuggerStatement.Gives env true s s := by
  refine .nodePos ((Sofar.start h).stepTook (nextToken_takes h.ok hkind) fun _ t g => ?_)
  refine g.step (semicolon_gives g.ready.ok) fun _ t g => ?_
  exact g.finishProduction rfl rfl rfl

/-- An expression that is a statement takes a token wherever an expression starts. -/
theorem expressionOrLabeled_gives (h : env.Ready rank s)
    (hrank : Production.expression.rank < rank) :
    expressionOrLabeled.Gives env (startsExpression.answer env s) s s := by
  have hinner : (allowIn (parse .expression)).Gives env (startsExpression.answer env s) s s := by
    have hready := h.inContext { s.scope.context with disallowIn := false }
    refine .withContext ((parse_ends .expression hready hrank trivial).mono fun id t ht => ?_)
    refine ⟨ht.run, ht.run.forward, fun hstarts => ht.takes ?_⟩
    exact startsExpression_mono h.ok hready.ok ⟨rfl, rfl, rfl, rfl, nofun⟩ rfl hstarts
  refine .nodePos ((Sofar.start h).stepFirst hinner fun inner t g => ?_)
  refine g.kindOf (by simp) fun n hn => ?_
  extract_lets isLabel
  have hsemicolon {u : ParserState} (g : Sofar env rank (startsExpression.answer env s) s s u [.node inner]) :
      Ends (do
        semicolon
        finishProduction .expressionStatement s.pos (.expression inner)) env u
      fun id v => Handed env.file.text (startsExpression.answer env s) s s v (held id) := by
    refine g.step (semicolon_gives g.ready.ok) fun _ t g => ?_
    exact g.finishProduction rfl (by simp [Payload.fields]) rfl
  cases isLabel with
  | false => exact hsemicolon g
  | true =>
    refine g.acceptPunct (fun u _ g => ?_) fun _ => hsemicolon g
    refine g.step (parse_gives .statement g.ready (by decide) trivial) fun statement t g => ?_
    exact g.loosen.finishProduction rfl (by simp [Payload.fields]) rfl

end Parser

end ScriptSyntax
