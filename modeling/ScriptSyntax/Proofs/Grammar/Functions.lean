/-
  ScriptSyntax/Proofs/Grammar/Functions.lean
  ==========================================
  Blocks and functions.

  A block reads statements only behind its brace, or where the caller says that a
  statement may be read.
-/
import ScriptSyntax.Proofs.Grammar.Types
import ScriptSyntax.Grammar.Functions

namespace ScriptSyntax

namespace Parser

variable {env : Surroundings} {rank : Nat} {took : Bool} {r m s t : ParserState}
variable {items : List Part} {start : DeclarationStart}

/-! ## 1. Blocks -/

/-- Lists whose elements are statements. -/
def holdsStatements : ListContext → Bool
  | .sourceElements | .blockStatements | .switchClauseStatements => true
  | _ => false

theorem startsStatement_of_startsElement {list : ListContext} (hlist : holdsStatements list = true)
    (h : (startsElement list false).answer env s = true) :
    startsStatement.answer env s = true := by
  have hstarts : (startsElement list false).Ends env s
      fun starts _ => starts = true → startsStatement.answer env s = true := by
    unfold holdsStatements at hlist
    split at hlist
    · exact .isAt (.ite nofun fun _ => id)
    · exact .isAt (.ite nofun fun _ => id)
    · exact .isAt (.ite nofun fun _ => id)
    · cases hlist
  exact hstarts h

theorem statements_reads {list : ListContext} (hlist : holdsStatements list = true)
    (hrank : Production.statement.rank < rank) :
    Reads env rank true list (parse .statement) :=
  fun _ hs hstarts =>
    parse_takes .statement hs hrank trivial (startsStatement_of_startsElement hlist hstarts)

/-- What a block holds after its brace, if that is there. -/
theorem blockRest_ends {took : Bool} {t : ParserState} (opened : Bool) (h : s.Ok env.file.text)
    (g : Sofar env rank took s s t []) (hrank : Production.statement.rank < rank)
    (hopened : opened = true → s.token.kind = .punct .openBrace) : Ends (do
      let multiLine ← afterLineBreak
      let statements ← elements .blockStatements (parse .statement)
      expectClosing .openBrace .closeBrace (if opened then some s.token.start else none)
      finishProduction .block s.pos (.block statements multiLine)) env t
    fun id u => Handed env.file.text false s s u (held id) := by
  refine .afterLineBreak (g.step ?_ fun statements t g => ?_)
  · exact elements_gives g.ready (statements_reads rfl hrank)
  have hbrace (hfound : opened = true) : s.token.start < env.file.text.size :=
    h.token.start_lt_size (by simp [hopened hfound])
  refine g.step (expectClosing_gives _ _ g.ready.ok hbrace) fun _ t g => ?_
  exact (g.finishProduction rfl (by simp [Payload.fields]) rfl).mono fun _ _ h => h.run.handed

/-- Without its brace a block reads statements only if it is told to. -/
theorem blockWith_gives {braceOptional : Bool} (message : Option Message) (h : env.Ready rank s)
    (hrank : braceOptional = true → Production.statement.rank < rank) :
    (blockWith braceOptional message).Gives env false s s := by
  refine .nodePos (.tokenPos ((Sofar.start h).expectWith nofun (fun t hbrace g => ?_) fun t _ _ g => ?_))
  · exact blockRest_ends true h.ok g (by decide) fun _ => hbrace
  · refine .ite (fun hoptional => blockRest_ends false h.ok g (hrank ?_) nofun) fun _ => ?_
    · simpa using hoptional
    · refine g.step (missingList_gives g.ready.ok) fun list t g => ?_
      exact g.finishProduction rfl (by simp [Payload.fields]) rfl

theorem block_gives (h : env.Ready rank s) : block.Gives env false s s :=
  blockWith_gives none h nofun

/-- A block takes its brace, if that is there. -/
theorem blockWith_takes {braceOptional : Bool} (message : Option Message) (h : env.Ready rank s)
    (hkind : s.token.kind = .punct .openBrace) :
    (blockWith braceOptional message).Gives env true s s := by
  refine .nodePos (.tokenPos ((Sofar.start h).expectWith nofun (fun t _ g => .afterLineBreak ?_)
    fun t hne _ g => absurd hkind hne))
  refine g.step (elements_gives g.ready (statements_reads rfl (by decide))) fun statements t g => ?_
  have hbrace (_ : true = true) : s.token.start < env.file.text.size :=
    h.ok.token.start_lt_size (by simp [hkind])
  refine g.step (expectClosing_gives _ _ g.ready.ok hbrace) fun _ t g => ?_
  exact g.finishProduction rfl (by simp [Payload.fields]) rfl

theorem blockWith_covers (braceOptional : Bool) (m : Option Message) :
    (blockWith braceOptional m).CoversAll := by
  refine .nodePos fun pos => .bind fun _ => .bind fun _ => .ite ?_ ?_
  · exact .bind fun _ => .bind fun _ => .bind fun _ => finishProduction_covers _ _ _
  · exact .bind fun _ => finishProduction_covers _ _ _

/-- Where its brace is missing, a block is empty, and the parser stays. -/
theorem block_missing (h : s.Ok env.file.text) (hkind : s.token.kind ≠ .punct .openBrace) :
    block.Ends env s fun id t => Run env.file.text s t [.node id] ∧ t.token = s.token := by
  refine .nodePos (.tokenPos ((expectWith_ends (k := .punct .openBrace) none h nofun).bind
    fun found t ht => ?_))
  rcases ht with ⟨-, hbrace, -⟩ | ⟨rfl, -, ht⟩
  · exact absurd hbrace hkind
  · have hlist : Run env.file.text s t [.array (.empty t.pos)] := ht.toRun.after (.emptyList ht.ok)
    refine Ends.bind (P := fun list u => list = .empty t.pos ∧ u = t) ⟨rfl, rfl⟩ ?_
    rintro _ _ ⟨rfl, rfl⟩
    refine Ends.mono (finishProduction_ends hlist rfl ?_ rfl) fun id u hu =>
      ⟨hu.run, hu.token.trans ht.token⟩
    simp [Payload.fields]

theorem functionBodyWith_gives {mode : SignatureMode} {braceOptional : Bool}
    (message : Option Message) (h : env.Ready rank s)
    (hrank : braceOptional = true → Production.statement.rank < rank) :
    (functionBodyWith mode braceOptional message).Gives env false s s := by
  unfold functionBodyWith
  exact .withContext (.withContext (blockWith_gives message ((h.inContext _).inContext _) hrank))

theorem functionBody_gives {mode : SignatureMode} (h : env.Ready rank s) :
    (functionBody mode).Gives env false s s :=
  functionBodyWith_gives none h nofun

/-- The block of a function carries what the function makes of `yield` and `await`: it is finished in
the context that is set for it. -/
theorem functionBodyWith_mayBeBody {mode : SignatureMode} {braceOptional : Bool}
    (message : Option Message) (h : env.Ready rank s)
    (hrank : braceOptional = true → Production.statement.rank < rank) :
    (functionBodyWith mode braceOptional message).Ends env s
      fun id t => t.arena.MayBeBody mode.isGenerator mode.isAsync id := by
  unfold functionBodyWith
  refine .withContext (.withContext ?_)
  refine (Ends.and (blockWith_gives message ((h.inContext _).inContext _) hrank)
    (blockWith_covers _ _ env _)).mono fun id t ht => ?_
  obtain ⟨hhanded, n, hn, -, -, hcontext⟩ := ht
  refine ⟨n, hn, fun _ => ?_⟩
  rw [hcontext, hhanded.run.scope_eq]
  exact ⟨rfl, rfl, rfl⟩

theorem functionBody_mayBeBody {mode : SignatureMode} (h : env.Ready rank s) :
    (functionBody mode).Ends env s
      fun id t => t.arena.MayBeBody mode.isGenerator mode.isAsync id :=
  functionBodyWith_mayBeBody none h nofun

theorem optionalFunctionBody_ends {mode : SignatureMode} (message : Option Message)
    (h : env.Ready rank s) : (optionalFunctionBody mode message).Ends env s fun found t =>
      Handed env.file.text false s s t (held found)
        ∧ ∀ body, found = some body → t.arena.MayBeBody mode.isGenerator mode.isAsync body := by
  refine .isAt (.ask (canEndStatement_inquires (o := true).asks h.ok) (.ite (fun _ => ?_) fun _ => ?_))
  · exact (semicolon_gives h.ok).bind fun _ _ ht => .pure ⟨ht, nofun⟩
  · refine (Ends.and (functionBodyWith_gives message h (by nofun))
      (functionBodyWith_mayBeBody message h (by nofun))).bind fun body t ⟨ht, hbody⟩ => .pure ⟨ht, ?_⟩
    rintro _ ⟨⟩
    exact hbody

/-! ## 2. Functions -/

/-- What comes before the parameters of a function is handed on with the function, and its body carries
what the function makes of `yield` and `await`. -/
theorem functionParts_ends {mode : SignatureMode} {asterisk name questionMark : Option NodeId}
    (before : List Part) (message : Option Message) (hlax : mode.strictParens = false)
    (g : Sofar env rank took r m s
      (before ++ (held asterisk ++ (held name ++ held questionMark)))) :
    (functionParts mode asterisk name questionMark message).Ends env s fun f t =>
      Sofar env rank took r m t (before ++ held f) ∧ s.arena.Grows t.arena ∧ f.asterisk = asterisk
        ∧ ∀ body, f.body = some body → t.arena.MayBeBody mode.isGenerator mode.isAsync body := by
  refine (signature_gives g.ready hlax).weaken.bind fun shape t ht => ?_
  have g := g.go ht.run
  refine (optionalFunctionBody_ends message g.ready).bind fun body u ⟨hu, hbody⟩ => .pure ⟨?_, ?_, rfl, hbody⟩
  · exact (g.go hu.run).parts (by simp)
  · exact ht.run.grows.trans hu.run.grows

/-- A function is finished that its asterisk and its modifiers make what it is. -/
theorem finishMode_gives {kind : NodeKind} {mode : SignatureMode} {asterisk : Option NodeId}
    {shape : FunctionShape} (g : Sofar env rank took r m t (held start ++ held shape))
    (hpos : start.pos = r.pos) (hkind : (Kind.node kind).setsMode = true)
    (hmode : Moded asterisk start.modifiers s mode) (hgrows : s.arena.Grows t.arena)
    (hasterisk : shape.asterisk = asterisk)
    (hbody : ∀ body, shape.body = some body → t.arena.MayBeBody mode.isGenerator mode.isAsync body) :
    (finishDeclaration kind start (.functionLike shape)).Ends env t
      fun id u => Handed env.file.text took r m u (held id) := by
  refine g.finishRuled hpos (by simp) rfl (Node.lawful_of_setsMode hkind rfl fun body hid => ?_)
  rw [hasterisk, ← hmode.isGenerator_eq, hmode.isAsync_eq _ _ hgrows rfl]
  exact hbody body hid

/-- A function is finished that is neither a generator nor asynchronous. -/
theorem finishNoMode_gives {kind : NodeKind} {shape : FunctionShape}
    (g : Sofar env rank took r m t (held start ++ held shape)) (hpos : start.pos = r.pos)
    (hkind : (Kind.node kind).hasNoMode = true)
    (hbody : ∀ body, shape.body = some body → t.arena.MayBeBody false false body) :
    (finishDeclaration kind start (.functionLike shape)).Ends env t
      fun id u => Handed env.file.text took r m u (held id) :=
  g.finishRuled hpos (by simp) rfl (Node.lawful_of_hasNoMode hkind rfl hbody)

/-- A declared function takes its keyword. -/
theorem functionDeclaration_takes (g : Sofar env rank took r s s (held start))
    (hpos : start.pos = r.pos) (hkind : s.token.kind = .keyword .functionKw) :
    (functionDeclaration start).Gives env true r s := by
  refine g.stepTook (expectKeyword_takes g.ready.ok hkind) fun _ t g => ?_
  refine g.step (acceptToken_gives _ g.ready.ok) fun asterisk t g => ?_
  refine .ask (hasModifier_asks .defaultKw g (by simp)) ?_
  extract_lets rest
  refine g.fork rest (fun name t g => ?_) fun hrest => .ite (fun _ => ?_) fun _ => ?_
  · refine (functionMode_ends asterisk g (by simp)).bind ?_
    rintro mode _ ⟨rfl, hmode⟩
    refine (functionParts_ends (held start) _ hmode.lax (g.parts (by simp))).bind
      fun shape u ⟨g, hgrows, hasterisk, hbody⟩ => ?_
    exact finishMode_gives g hpos rfl hmode hgrows hasterisk hbody
  · exact g.step (optionalIdentifier_gives g.ready.ok) hrest
  · exact g.step (identifier_gives g.ready.ok) fun name t g => hrest (some name) t g

/-- Before a function on the same line `async` is a modifier, whatever the context. -/
theorem acceptModifier_of_function (hkind : s.token.kind = .keyword .asyncKw)
    (h : (peek (onSameLine (isAtKeyword .functionKw))).answer env s = true)
    (context : ContextFlags) : acceptModifier.answer env (s.inContext context) = true := by
  have hnext : (onSameLine (isAtKeyword .functionKw)).Ends env (nextToken env s).2 fun found _ =>
      found = true → (nextToken env s).2.token.flags.precedingLineBreak = false
        ∧ (nextToken env s).2.token.kind = .keyword .functionKw :=
    .afterLineBreak (.ite (fun _ => .pure nofun) fun hline hword => ⟨hline, beq_iff_eq.mp hword⟩)
  have htoken : (nextToken env (s.inContext context)).2.token = (nextToken env s).2.token :=
    (token_advance .scan env _).trans (token_advance .scan env s).symm
  obtain ⟨hline, hword⟩ : (nextToken env (s.inContext context)).2.token.flags.precedingLineBreak = false
      ∧ (nextToken env (s.inContext context)).2.token.kind = .keyword .functionKw := by
    rw [htoken]
    exact hnext h
  have hfollows : (onSameLine canFollowModifier).Ends env
      (nextToken env (s.inContext context)).2 fun found _ => found = true := by
    refine .afterLineBreak ?_
    rw [hline]
    refine .kind ?_
    rw [hword]
    show (Kind.isName _ || Kind.isPropertyLiteral _) = true
    rw [hword]
    rfl
  have hasync : (s.inContext context).token.kind = .keyword .asyncKw := hkind
  have hmodifier : tokenIsModifier.Ends env (s.inContext context) fun found _ => found = true := by
    refine .kind ?_
    rw [hasync]
    exact hfollows
  have haccepts : acceptModifier.Ends env (s.inContext context) fun found _ => found = true := by
    refine .kind ?_
    rw [hasync]
    exact (answer_attemptIf tokenIsModifier).trans hmodifier
  exact haccepts

/-- A function that is an expression takes its keyword or the modifier before it. -/
theorem functionExpression_takes (h : env.Ready rank s)
    (hstarts : ∀ context, s.token.kind = .keyword .functionKw
      ∨ acceptModifier.answer env (s.inContext context) = true) :
    functionExpression.Gives env true s s := by
  refine .inContext h fun context h => .nodePos ?_
  refine (modifiers_ends false h).bind fun modifiers t ⟨hrun, hmodified⟩ => ?_
  have g := (Sofar.start h).go hrun
  have hword : (expectKeyword .functionKw).Ends env t fun _ u =>
      Sofar env Production.topRank true (s.inContext context) (s.inContext context) u (held modifiers) := by
    rcases hmodified with htook | ⟨htoken, hno⟩
    · refine (expectKeyword_gives _ hrun.ok).mono fun _ u hu => ?_
      simpa using ((Sofar.start h).goTook hrun htook).go hu.run
    · have hkind := (hstarts context).resolve_right (by simp [hno rfl])
      refine (expectKeyword_takes hrun.ok (htoken ▸ hkind)).mono fun _ u hu => ?_
      simpa using g.goTook hu.run (hu.ahead rfl)
  refine hword.bind fun _ t g => ?_
  refine g.step (acceptToken_gives _ g.ready.ok) fun asterisk t g => ?_
  refine (functionMode_ends asterisk g (by simp)).bind ?_
  rintro mode t ⟨rfl, hmode⟩
  have hname : (inFunction mode.isGenerator mode.isAsync optionalIdentifier).Gives env false t t :=
    .withContext (optionalIdentifier_gives (g.ready.inContext _).ok)
  refine hname.bind fun name u hu => ?_
  have g := g.go hu.run
  refine (signature_gives g.ready hmode.lax).weaken.bind fun shape v hv => ?_
  have g := g.go hv.run
  refine (Ends.and (functionBody_gives g.ready) (functionBody_mayBeBody g.ready)).bind
    fun body w ⟨hw, hbody⟩ => ?_
  have hgrows : t.arena.Grows w.arena :=
    hu.run.grows.trans (hv.run.grows.trans hw.run.grows)
  refine finishMode_gives ((g.go hw.run).parts (by simp)) rfl rfl hmode hgrows rfl ?_
  rintro _ ⟨⟩
  exact hbody

/-! ## 3. Methods and accessors -/

/-- An accessor takes its name, where one starts. -/
theorem accessor_gives {kind : NodeKind} (hkind : (Kind.node kind).hasNoMode = true)
    (g : Sofar env rank took r m s (held start)) (hpos : start.pos = r.pos) :
    (accessor kind start).Ends env s fun id t => Handed env.file.text took r m t (held id) := by
  refine g.step (propertyName_gives g.ready) fun name t g => ?_
  refine (functionParts_ends (held start) _ rfl (g.parts (by simp))).bind
    fun shape t ⟨g, _, _, hbody⟩ => ?_
  exact finishNoMode_gives g hpos hkind hbody

theorem constructorMember_takes (g : Sofar env rank took r s s (held start))
    (hpos : start.pos = r.pos) (hkind : s.token.kind = .keyword .constructorKw) :
    (constructorMember start).Gives env true r s := by
  refine g.stepTook (expectKeyword_takes g.ready.ok hkind) fun _ t g => ?_
  refine (functionParts_ends (held start) _ rfl (g.parts (by simp))).bind
    fun shape t ⟨g, _, _, hbody⟩ => ?_
  exact finishNoMode_gives g hpos rfl hbody

theorem methodAfterName_gives {asterisk questionMark : Option NodeId} {name : NodeId}
    (message : Option Message)
    (g : Sofar env rank took r m s
      (held start ++ (held asterisk ++ (.node name :: held questionMark))))
    (hpos : start.pos = r.pos) :
    (methodAfterName start asterisk name questionMark message).Ends env s
      fun id t => Handed env.file.text took r m t (held id) := by
  refine (functionMode_ends asterisk g (by simp)).bind ?_
  rintro mode _ ⟨rfl, hmode⟩
  refine (functionParts_ends (held start) _ hmode.lax (g.parts (by simp))).bind
    fun shape t ⟨g, hgrows, hasterisk, hbody⟩ => ?_
  exact finishMode_gives g hpos rfl hmode hgrows hasterisk hbody

end Parser

end ScriptSyntax
