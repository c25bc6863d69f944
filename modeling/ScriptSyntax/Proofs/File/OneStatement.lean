/-
  ScriptSyntax/Proofs/File/OneStatement.lean
  ==========================================
  Files of one statement.

  What a known text is parsed as is found out statement by statement.  Here the
  text has one, and what is around it is followed once for all: the file around a
  statement, and the statement around an expression.
-/
import ScriptSyntax.Proofs.File.Shape
import ScriptSyntax.Proofs.Grammar.LoneOperands
import ScriptSyntax.Proofs.Token.Spelling

namespace ScriptSyntax

open ScriptSyntax.Parser

variable {env : Surroundings} {r s t : ParserState} {first next : Token}
variable {X : NodeId → Forest → Prop} {L : DiagnosticLog → Prop} {fileName : String} {text : SourceText}
variable {options : ParseOptions} {context : ContextFlags}

/-! ## 1. A file around a statement -/

/-- The parser is at the first token, and has done nothing so far. -/
structure Fresh (context : ContextFlags) (first : Token) (s : ParserState) : Prop where
  token : s.token = first
  log : s.log.size = 0
  depth : s.scope.depth = 0
  context : s.scope.context = context
  bare : ∀ id kind payload, ¬s.forest.Shows id kind payload

/-- Kinds of the nodes that are made around the statement of a file. -/
def Kind.surroundsStatement (k : Kind) : Prop := k = .endOfFile ∨ k = .node .sourceFile

theorem scanAt_endOfFile {chars : Array Char} {pos : Nat} (h : chars.size ≤ pos) :
    ∃ t, scanAt chars pos = (t, []) := by
  have hat : TextAt chars pos [] := by simpa [TextAt] using h
  obtain ⟨t, ht, -⟩ := scanAt_end hat
  exact ⟨t, ht⟩

/-- The first token is read, and nothing is wrong with it. -/
theorem firstToken_fresh (hfirst : scanAt env.file.text 0 = (first, [])) :
    nextToken.Ends env (.initial context) fun _ t =>
      Glance env.file.text (.opened context env.file.text) t ∧ Fresh context first t := by
  have hread : ReadingMode.scan.read env.file.text (ParserState.initial context).token
      = (first, []) := hfirst
  have hglance : Glance env.file.text (.opened context env.file.text) (nextToken env (.initial context)).2 :=
    firstToken_ends
  refine ⟨hglance, ?_, ?_, ?_, ?_, ?_⟩
  · rw [nextToken, token_advance, hread]
  · rw [nextToken, log_advance, hread]
    rfl
  · rw [hglance.scope_eq]
    rfl
  · rw [hglance.scope_eq]
    rfl
  · intro id kind payload hshows
    rw [nextToken, forest_advance] at hshows
    obtain ⟨n, hn, -⟩ := hshows
    exact absurd (Arena.lt_size_of_get? hn) (Nat.not_lt_zero _)

/-- A file of one statement: it is read where it starts, and then the file is at its end. -/
theorem holdsOne_statement (hkind : r.token.kind ≠ .endOfFile) (hstarts : startsStatement.answer env r = true) :
    HoldsOne env .sourceElements (fun id next F => AtEnd next ∧ X id F) r where
  goesOn := by
    unfold endsList
    rw [answer_kind]
    simp only [beq_eq_false_iff_ne.mpr hkind]
    rfl
  starts := hstarts
  ends _ _ ht := endsList_of_endOfFile _ ht.1

/-- The root is made of the statements. -/
theorem root_shows {list : NodeArray} (h : s.Ok env.file.text) (hkind : s.token.kind = .endOfFile) :
    (root list).Ends env s fun id t => t.log = s.log ∧ s.forest.Gains Kind.surroundsStatement t.forest
      ∧ ∃ endOfFile, t.forest.Shows id (.node .sourceFile) (.sourceFile list endOfFile) := by
  obtain ⟨next, hnext⟩ : ∃ next, s.token.next env.file.text = (next, []) :=
    scanAt_endOfFile (Nat.le_of_eq (h.token.atEnd hkind).symm)
  have hend : tokenNode.Ends env s _ := .token (leaf_shows h hnext)
  refine hend.bind fun endOfFile t ht => .read ?_
  obtain ⟨-, hgains, hlog, -⟩ := ht
  refine (finishAt_shows _ env t).mono fun id u hu => ?_
  obtain ⟨hshows, hrootGains, hrootLog, -⟩ := hu
  refine ⟨hrootLog.trans hlog, (hgains.mono ?_).trans (hrootGains.mono ?_), endOfFile, hshows⟩
  · rintro _ rfl
    exact .inl hkind
  · rintro _ rfl
    exact .inr rfl

/-- A file of one statement, of which it is known what it is parsed as. -/
theorem sourceFile_one {file : SourceFacts} (hfirst : scanAt file.text 0 = (first, []))
    (hkind : first.kind ≠ .endOfFile)
    (hkeeps : ∀ id F G, X id F → F.Gains Kind.surroundsStatement G → X id G)
    (hstarts : ∀ s, s.token = first → startsStatement.answer file.surroundings s = true)
    (hstatement : ∀ env s, env.file = file → env.Supplied Production.statement.rank s →
      Fresh context first s → statement.Ends env s
        (Comes env.file.text s L fun id next F => AtEnd next ∧ X id F)) :
    sourceFile.Ends file.surroundings (.initial context) fun root t => L t.log
      ∧ ∃ list endOfFile id, t.forest.Shows root (.node .sourceFile) (.sourceFile list endOfFile)
        ∧ list.nodes = [id] ∧ X id t.forest := by
  have hrun : sourceFile.Ends file.surroundings (.initial context) fun root t =>
      Rooted file.text context root t := sourceFile_ends file context
  have hfresh : nextToken.Ends file.surroundings (.initial context) _ := firstToken_fresh hfirst
  refine hfresh.bind fun _ s hs => ?_
  obtain ⟨hglance, hfresh⟩ := hs
  have hsupplied : file.surroundings.Supplied Production.topRank s := hglance.ok.supplied
  have hlists : Fresh context first (s.withLists (.sourceElements :: s.scope.openLists)) :=
    ⟨hfresh.token, hfresh.log, hfresh.depth, hfresh.context, hfresh.bare⟩
  have hcall : (parse .statement).Ends file.surroundings
      (s.withLists (.sourceElements :: s.scope.openLists)) _ :=
    parse_of_body (hsupplied.inScope _) (by decide) fun inner hfile hinner =>
      hfile ▸ hstatement inner _ hfile hinner hlists
  have hlist := holdsOne_statement (X := X) (hlists.token ▸ hkind) (hstarts _ hlists.token)
  have hone := elements_one hsupplied hlist hcall
  have hready : file.surroundings.Ready Production.topRank s := hglance.ok.ready
  refine ((elements_ends hready (statements_reads rfl (by decide))).and hone).bind fun list t ht => ?_
  obtain ⟨⟨⟨hrun, -⟩, -⟩, id, hnodes, hlog, ⟨hend, hX⟩, -⟩ := ht
  have hend : t.token.kind = .endOfFile := hend
  refine .kind (.ite (fun hne => absurd hne (by simp [hend])) fun _ => ?_)
  refine (root_shows hrun.ok hend).mono fun root u hu => ?_
  obtain ⟨hrootLog, hgains, endOfFile, hshows⟩ := hu
  exact ⟨hrootLog ▸ hlog, list, endOfFile, id, hshows, hnodes, hkeeps id _ _ hX hgains⟩

/-- No comment stands at the start of a text that starts with something else. -/
theorem leading_eq_nil {c : Char} {cs : List Char} {chars : Array Char} (h : TextAt chars 0 (c :: cs))
    (hspace : isWhiteSpaceLike c = false) (hslash : c ≠ '/') (hash : c ≠ '#') :
    Comment.leading chars 0 = [] := by
  have hlt := h.lt_size
  have hc : chars[0] = c := h.getElem hlt
  have hshebang : isShebang chars 0 = false := by
    simp [isShebang, hasCharAt, h.head, hash]
  simp only [isWhiteSpaceLike, Bool.or_eq_false_iff] at hspace
  have hwalk : Comment.walk chars false true [] 0 = [] := by
    rw [Comment.walk]
    simp [hlt, hc, hspace, hslash]
  unfold Comment.leading Comment.ranges
  simp [hshebang, hwalk]

/-- Without a comment at the start nothing is wrong with the directives in comments. -/
theorem readDirectives_diagnostics_eq_nil {name : String} {chars : Array Char}
    (h : Comment.leading chars 0 = []) : (readDirectives name chars).diagnostics = [] := by
  unfold readDirectives
  rw [h]
  rfl

/-- A text of one statement, of which it is known what it is parsed as, makes a file of that statement.
The diagnostics are what was reported on the way. -/
theorem parseText_one_comes {c : Char} {cs : List Char} (htext : TextAt text.chars 0 (c :: cs))
    (hspace : isWhiteSpaceLike c = false) (hslash : c ≠ '/') (hash : c ≠ '#')
    (hfirst : scanAt text.chars 0 = (first, [])) (hkind : first.kind ≠ .endOfFile)
    (hkeeps : ∀ id F G, X id F → F.Gains Kind.surroundsStatement G → X id G)
    (hstarts : ∀ (env : Surroundings) s, s.token = first → startsStatement.answer env s = true)
    (hstatement : ∀ env s,
      env.file = .ofText fileName text (options.scriptKindFor fileName) →
      env.Supplied Production.statement.rank s →
      Fresh (options.scriptKindFor fileName).context first s → statement.Ends env s
        (Comes env.file.text s L fun id next F => AtEnd next ∧ X id F)) :
    ∃ f id log, parseText fileName text options = .ok f ∧ L log ∧ f.diagnostics = log.entries.toList
      ∧ f.statements = [id] ∧ X id f.forest := by
  let kind := options.scriptKindFor fileName
  let file : SourceFacts := .ofText fileName text kind
  have hone : sourceFile.Ends file.surroundings (.initial kind.context) _ :=
    sourceFile_one hfirst hkind hkeeps (fun s => hstarts _ s) hstatement
  have hrooted := runOn_sourceFile file kind.context
  unfold Ends at hone
  unfold Parser.runOn at hrooted
  obtain ⟨root, s, hrun⟩ : ∃ root s,
    sourceFile file.surroundings (.initial kind.context) = (root, s) := ⟨_, _, rfl⟩
  rw [hrun] at hone hrooted
  obtain ⟨hlog, list, endOfFile, id, hshows, hnodes, hX⟩ := hone
  have hparse : parseText fileName text options = .ok (completeFile fileName text options root s) := by
    have hrun : sourceFile.runOn file kind.context = (root, s) := hrun
    unfold parseText
    dsimp only
    rw [hrun]
    dsimp only
    rw [hrooted.run.ok.faultless]
  have hforest : s.forest.Gains Kind.surroundsStatement _ := gains_completeFile fileName text options root s
  refine ⟨_, id, s.log, hparse, hlog, ?_, ?_, hkeeps id _ _ hX hforest⟩
  · have hleading := leading_eq_nil htext hspace hslash hash
    show s.log.entries.toList
      ++ DirectiveReading.diagnostics (if options.readDirectives then _ else {}) = _
    split
    · rw [readDirectives_diagnostics_eq_nil hleading, List.append_nil]
    · exact List.append_nil _
  · obtain ⟨n, hn, -, hpayload⟩ := hshows.keeps hforest.toKeeps
    have hn : (completeFile fileName text options root s).arena.get?
      (completeFile fileName text options root s).root = some n := hn
    unfold SourceFile.statements
    simp [hn, hpayload, hnodes]

theorem DiagnosticLog.entries_eq_nil {log : DiagnosticLog} (h : log.size = 0) : log.entries.toList = [] := by
  rw [Array.eq_empty_of_size_eq_zero h]

/-- If nothing was reported there is no diagnostic. -/
theorem parseText_one {c : Char} {cs : List Char} (htext : TextAt text.chars 0 (c :: cs))
    (hspace : isWhiteSpaceLike c = false) (hslash : c ≠ '/') (hash : c ≠ '#')
    (hfirst : scanAt text.chars 0 = (first, [])) (hkind : first.kind ≠ .endOfFile)
    (hkeeps : ∀ id F G, X id F → F.Gains Kind.surroundsStatement G → X id G)
    (hstarts : ∀ (env : Surroundings) s, s.token = first → startsStatement.answer env s = true)
    (hstatement : ∀ env s,
      env.file = .ofText fileName text (options.scriptKindFor fileName) →
      env.Supplied Production.statement.rank s →
      Fresh (options.scriptKindFor fileName).context first s → statement.Ends env s
        (Yields env.file.text s fun id next F => AtEnd next ∧ X id F)) :
    ∃ f id, parseText fileName text options = .ok f ∧ f.diagnostics = [] ∧ f.statements = [id]
      ∧ X id f.forest := by
  obtain ⟨f, id, log, hparse, hlog, hdiagnostics, hrest⟩ := parseText_one_comes (L := (·.size = 0)) htext
    hspace hslash hash hfirst hkind hkeeps hstarts fun env s hfile h hfresh =>
      (hstatement env s hfile h hfresh).mono fun _ _ ht => ht.comes hfresh.log
  exact ⟨f, id, hparse, hdiagnostics.trans (DiagnosticLog.entries_eq_nil hlog), hrest⟩

/-- A statement is one level deeper than what it is in. -/
theorem statement_of_body {Y : NodeId → Token → Forest → Prop} (hdepth : s.scope.depth < maxDepth)
    (h : statementBody.Ends env (s.atDepth (s.scope.depth + 1))
      (Comes env.file.text (s.atDepth (s.scope.depth + 1)) L Y)) :
    statement.Ends env s (Comes env.file.text s L Y) := by
  refine .nodePos ((nested_comes .statementExpected hdepth h).bind ?_)
  rintro ⟨id, parsed⟩ t ⟨rfl, ht⟩
  exact ht

/-! ## 2. A statement around an expression -/

/-- A token of the kind starts an expression: it starts an operand, or is an angle bracket. -/
def Kind.opensExpression (k : Kind) : Prop := k.opensOperand ∨ k = .punct .lessThan

theorem Kind.opensExpression.ne_keyword {k : Kind} (h : k.opensExpression) (word : Keyword) :
    k ≠ .keyword word := by
  rcases h with h | rfl
  · exact h.ne_keyword word
  · simp

/-- Kinds of the nodes that are made around the expression of a file. -/
def Kind.surrounds (k : Kind) : Prop := k = .node .expressionStatement ∨ k.surroundsStatement

/-- What is said of an expression before the last semicolon: it is no bare identifier. -/
structure IsWhole (chars : Array Char) (X : NodeId → Forest → Prop) (id : NodeId) (next : Token)
    (F : Forest) : Prop where
  last : LastSemicolon chars next
  shows : ∃ kind payload, F.Shows id kind payload ∧ kind ≠ .identifier
  holds : X id F

/-- Under the number there is a statement of an expression of which the property holds. -/
def Forest.IsExpressionStatement (F : Forest) (X : NodeId → Forest → Prop) (id : NodeId) : Prop :=
  ∃ e, F.Shows id (.node .expressionStatement) (.expression e) ∧ X e F

/-- The parser is at the first token of the expression that the file consists of, and has made nothing so
far. -/
structure AtExpression (first : Token) (s : ParserState) : Prop where
  token : s.token = first
  log : s.log.size = 0
  depth : s.scope.depth = 2
  allowed : s.scope.context.disallowIn = false
  bare : ∀ id kind payload, ¬s.forest.Shows id kind payload

theorem AtExpression.still (h : AtExpression first s) (hstill : Still env.file.text s t) :
    AtExpression first t where
  token := hstill.token.trans h.token
  log := hstill.quiet.silent h.log
  depth := by
    rw [hstill.scope_eq]
    exact h.depth
  allowed := by
    rw [hstill.scope_eq]
    exact h.allowed
  bare id kind payload hshows := h.bare id kind payload (hshows.of_stays hstill.stays)

/-- A statement starts with the token. -/
theorem startsStatement_of_opensExpression (h : s.token.kind.opensExpression) :
    startsStatement.answer env s = true := by
  have hexpression : startsExpression.Ends env s fun b _ => b = true := by
    rcases h with (h | h | h | h) | h
    · refine .leaves (p := startsLeftHandSide) (a := true) (.kind ?_) rfl
      rw [h]
      exact ⟨rfl, rfl⟩
    · refine .leaves (p := startsLeftHandSide) (a := true) (.kind ?_) rfl
      rw [h]
      exact ⟨rfl, rfl⟩
    · refine .leaves (p := startsLeftHandSide) (a := true) (.kind ?_) rfl
      rw [h]
      exact ⟨rfl, rfl⟩
    · refine .leaves (p := startsLeftHandSide) (a := true) (.kind ?_) rfl
      rw [h]
      exact ⟨rfl, rfl⟩
    · refine .leaves (p := startsLeftHandSide) (a := false) (.kind ?_) (.kind ?_)
      · rw [h]
        show isIdentifier.Ends env s fun b t => b = false ∧ t = s
        refine .kind ?_
        rw [h]
        exact ⟨rfl, rfl⟩
      · rw [h]
        rfl
  have hstarts : startsStatement.Ends env s fun b _ => b = true := by
    refine .kind ?_
    rcases h with (h | h | h | h) | h <;> rw [h] <;> exact hexpression
  exact hstarts

section

variable {rank : Nat} {id : NodeId}

/-- An expression and a semicolon are a statement. -/
theorem expressionOrLabeled_comes (h : env.Supplied Production.statement.rank s)
    (hexpression : ∀ context inner, inner.file = env.file →
      inner.Supplied Production.expression.rank (s.inContext context) → context.disallowIn = false →
      expression.Ends inner (s.inContext context)
        (Comes env.file.text (s.inContext context) L (IsWhole env.file.text X)))
    (hkeeps : ∀ id F G, X id F → F.Gains Kind.surrounds G → X id G) :
    expressionOrLabeled.Ends env s (Comes env.file.text s L fun id next F =>
      AtEnd next ∧ F.IsExpressionStatement X id) := by
  have hcontext (context : ContextFlags) : env.Supplied Production.statement.rank (s.inContext context) :=
    h.inScope _
  refine .nodePos (Ends.bind (withContext_comes (parse_of_body (hcontext _) (by decide)
    fun inner hfile hinner => hexpression _ inner hfile hinner rfl)) fun id t ht => ?_)
  obtain ⟨⟨hkind, last, hlast, hend⟩, ⟨kind, payload, hshows, hne⟩, hX⟩ := ht.yields.holds
  have g := Way.ofComes h ht
  refine .kindShown hshows (.leaves (a := false) (.pureThen ?_) ?_)
  · rw [beq_eq_false_iff_ne.mpr hne]
    exact ⟨rfl, rfl⟩
  · refine .no ?_
    refine g.semicolon hkind hlast fun u htoken hforest htook g => ?_
    refine (g.finishAdding (X := fun id next F => AtEnd next ∧ F.IsExpressionStatement X id) rfl
      (Nat.lt_trans ht.yields.took htook) rfl rfl fun id' F hgains hshows => ?_).mono
        fun _ _ hv => .of_yields ht.logged hv
    rw [htoken]
    exact ⟨hend, id, hshows, hkeeps id _ _ (hforest ▸ hX) (hgains.mono fun k hk => .inl hk)⟩

/-- A statement that starts with an expression, below the limit of nesting. -/
theorem statement_comes {Y : NodeId → Token → Forest → Prop} (hdepth : s.scope.depth < maxDepth)
    (hkind : s.token.kind.opensExpression)
    (h : expressionOrLabeled.Ends env (s.atDepth (s.scope.depth + 1))
      (Comes env.file.text (s.atDepth (s.scope.depth + 1)) L Y)) :
    statement.Ends env s (Comes env.file.text s L Y) := by
  refine statement_of_body hdepth (.nodePos (.kind ?_))
  have hkind : (s.atDepth (s.scope.depth + 1)).token.kind.opensExpression := hkind
  rcases hkind with (hkind | hkind | hkind | hkind) | hkind <;> rw [hkind] <;> exact h

end

/-- A text that is an expression without commas and a semicolon makes a file of one statement, if it is
known what the expression is parsed as. -/
theorem parseText_assignment_comes {c : Char} {cs : List Char} (htext : TextAt text.chars 0 (c :: cs))
    (hspace : isWhiteSpaceLike c = false) (hslash : c ≠ '/') (hash : c ≠ '#')
    (hfirst : scanAt text.chars 0 = (first, [])) (hkind : first.kind.opensExpression)
    (hkeeps : ∀ id F G, X id F → F.Gains Kind.surrounds G → X id G)
    (hbody : ∀ env s, env.file = .ofText fileName text (options.scriptKindFor fileName) →
      env.Supplied Production.assignment.rank s → AtExpression first s →
      assignmentBody.Ends env s (Comes env.file.text s L (IsWhole env.file.text X))) :
    ∃ f id e log, parseText fileName text options = .ok f ∧ L log ∧ f.diagnostics = log.entries.toList
      ∧ f.statements = [id] ∧ f.forest.Shows id (.node .expressionStatement) (.expression e)
      ∧ X e f.forest := by
  suffices hone : ∃ f id log, parseText fileName text options = .ok f ∧ L log
      ∧ f.diagnostics = log.entries.toList ∧ f.statements = [id]
      ∧ f.forest.IsExpressionStatement X id by
    obtain ⟨f, id, log, hparse, hlog, hdiagnostics, hstatements, e, hshows, hX⟩ := hone
    exact ⟨f, id, e, log, hparse, hlog, hdiagnostics, hstatements, hshows, hX⟩
  refine parseText_one_comes (X := fun id F => F.IsExpressionStatement X id) htext hspace hslash hash hfirst
    ?_ ?_ ?_ ?_
  · intro hend
    rw [hend] at hkind
    rcases hkind with (hkind | hkind | hkind | hkind) | hkind <;> cases hkind
  · rintro id F G ⟨e, hshows, hX⟩ hgains
    exact ⟨e, hshows.keeps hgains.toKeeps, hkeeps e F G hX (hgains.mono fun k hk => .inr hk)⟩
  · rintro env s rfl
    exact startsStatement_of_opensExpression hkind
  · intro env s hfile hsupplied hfresh
    have hdepth : s.scope.depth < maxDepth := by
      rw [hfresh.depth]
      decide
    refine statement_comes hdepth (hfresh.token ▸ hkind) ?_
    refine expressionOrLabeled_comes (hsupplied.inScope _) (fun context inner hinner h hin => ?_) hkeeps
    rw [← hinner] at hfile ⊢
    have hcomma (id : NodeId) (next : Token) (F : Forest) (hX : IsWhole inner.file.text X id next F) :
        next.kind ≠ .punct .comma := by
      rw [hX.last.1]
      simp
    refine expression_comes h hcomma fun context' inner' hinner' h' hin' => ?_
    rw [← hinner'] at hfile ⊢
    have hdepth' : s.scope.depth + 1 < maxDepth := by
      rw [hfresh.depth]
      decide
    refine assignment_comes hdepth' (hbody inner' _ hfile (h'.inScope _) ?_)
    refine ⟨hfresh.token, hfresh.log, ?_, hin'.trans hin, hfresh.bare⟩
    show s.scope.depth + 1 + 1 = 2
    rw [hfresh.depth]

/-- If nothing is reported there is no diagnostic. -/
theorem parseText_assignment {c : Char} {cs : List Char} (htext : TextAt text.chars 0 (c :: cs))
    (hspace : isWhiteSpaceLike c = false) (hslash : c ≠ '/') (hash : c ≠ '#')
    (hfirst : scanAt text.chars 0 = (first, [])) (hkind : first.kind.opensExpression)
    (hkeeps : ∀ id F G, X id F → F.Gains Kind.surrounds G → X id G)
    (hbody : ∀ env s, env.file = .ofText fileName text (options.scriptKindFor fileName) →
      env.Supplied Production.assignment.rank s → AtExpression first s →
      assignmentBody.Ends env s (Yields env.file.text s (IsWhole env.file.text X))) :
    ∃ f id e, parseText fileName text options = .ok f ∧ f.diagnostics = [] ∧ f.statements = [id]
      ∧ f.forest.Shows id (.node .expressionStatement) (.expression e) ∧ X e f.forest := by
  obtain ⟨f, id, e, log, hparse, hlog, hdiagnostics, hrest⟩ := parseText_assignment_comes (L := (·.size = 0))
    htext hspace hslash hash hfirst hkind hkeeps fun env s hfile h hat =>
      (hbody env s hfile h hat).mono fun _ _ ht => ht.comes hat.log
  exact ⟨f, id, e, hparse, hdiagnostics.trans (DiagnosticLog.entries_eq_nil hlog), hrest⟩

/-- The same, where no arrow function starts: what is known is what the expression of operators is parsed
as. -/
theorem parseText_expression {c : Char} {cs : List Char} (htext : TextAt text.chars 0 (c :: cs))
    (hspace : isWhiteSpaceLike c = false) (hslash : c ≠ '/') (hash : c ≠ '#')
    (hfirst : scanAt text.chars 0 = (first, [])) (hkind : first.kind.opensExpression)
    (hkeeps : ∀ id F G, X id F → F.Gains Kind.surrounds G → X id G)
    (harrow : ∀ env s, env.file = .ofText fileName text (options.scriptKindFor fileName) →
      env.Supplied Production.assignment.rank s → AtExpression first s →
      arrowHeadHere.Ends env s fun head t => head = none ∧ Still env.file.text s t)
    (hbinary : ∀ env s, env.file = .ofText fileName text (options.scriptKindFor fileName) →
      env.Supplied Production.assignment.rank s → AtExpression first s →
      (binary .comma).Ends env s (Yields env.file.text s (IsWhole env.file.text X))) :
    ∃ f id e, parseText fileName text options = .ok f ∧ f.diagnostics = [] ∧ f.statements = [id]
      ∧ f.forest.Shows id (.node .expressionStatement) (.expression e) ∧ X e f.forest := by
  refine parseText_assignment htext hspace hslash hash hfirst hkind hkeeps fun env s hfile h hat => ?_
  refine assignmentBody_yields (hat.token ▸ hkind).ne_keyword (harrow env s hfile h hat) ?_ ?_
    fun t hstill => ?_
  · intro id next F hX
    rw [hX.last.1]
    rfl
  · intro id next F hX
    obtain ⟨kind, payload, hshows, -⟩ := hX.shows
    exact ⟨kind, payload, hshows⟩
  · have hpos : s.pos = t.pos := congrArg Token.fullStart hstill.token.symm
    exact hbinary env t hfile (h.later hstill.ok (Nat.le_of_eq hpos)) (hat.still hstill)

end ScriptSyntax
