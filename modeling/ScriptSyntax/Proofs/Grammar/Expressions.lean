/-
  ScriptSyntax/Proofs/Grammar/Expressions.lean
  ============================================
  Expressions: operators in front of, behind and between operands.

  An expression takes a token wherever one starts, also at a binary operator with
  nothing on its left.  There the missing left operand leaves the operator where
  it is.  If the operator is a `>` that belongs to a longer one, that one is an
  operator too, or an assignment, and a missing name may be assigned to.
-/
import ScriptSyntax.Proofs.Grammar.Arrows
import ScriptSyntax.Proofs.Grammar.Operands
import ScriptSyntax.Grammar.Expressions

namespace ScriptSyntax

/-! ## 1. Operators -/

/-- At the level of a whole expression every operator may follow. -/
theorem Precedence.binds_comma {k : Kind} {next : Precedence} (h : ofKind? k = some next) :
    comma.binds next = true := by
  cases next with
  | comma =>
    unfold ofKind? ofPunctuator? at h
    split at h <;> first | contradiction | (split at h <;> contradiction)
  | _ => rfl

namespace Token

theorem rescanGreater_of_ne {text : Array Char} {t : Token} (h : t.kind ≠ .punct .greaterThan) :
    t.rescanGreater text = (t, []) := by
  simp [rescanGreater, h]

/-- A `>` and what is joined to it is an operator or an assignment. -/
theorem kind_rescanGreater (text : Array Char) {t : Token} (h : t.kind = .punct .greaterThan) :
    ∃ p, (t.rescanGreater text).1.kind = .punct p
      ∧ ((Precedence.ofPunctuator? p).isSome = true ∨ p.isAssignment = true) := by
  refine ⟨greaterThanOf text[t.stop]? text[t.stop + 1]? text[t.stop + 2]?, ?_, ?_⟩
  · simp [rescanGreater, h]
  · unfold greaterThanOf
    repeat' split
    all_goals decide

end Token

namespace Parser

variable {o : Bool} {env : Surroundings} {rank : Nat} {took : Bool} {r m s t : ParserState}
variable {items : List Part}

/-! ## 2. One operand -/

theorem startsUpdate_inquires : Inquires o startsUpdate := by
  refine .bind .kind fun k => ?_
  split
  any_goals with_reducible exact .pure _
  exact isJsxFile_inquires

theorem isIncrement_inquires : Inquires o isIncrement := .kindIs _

theorem startsJsx_inquires : Inquires o startsJsx :=
  .and isJsxFile_inquires (.and (.isAtPunct _) (.peek (Inquires.kindIs _).toScouts))

/-- An operand that may carry `++` or `--` takes a token where a left-hand side starts, or one of
the two. -/
theorem updateExpression_ends (h : env.Ready rank s) (hrank : Production.leftHandSide.rank < rank) :
    updateExpression.Ends env s
      (Operand env (startsLeftHandSide.answer env s || isIncrement.answer env s) s) := by
  refine .token (.kindIs (.ite (fun hincrement => ?_) fun hno => ?_))
  · have hkind : s.token.kind ≠ .endOfFile := by
      intro hkind
      simp [hkind] at hincrement
    refine Gives.operand ((Sofar.start h).stepTook (nextToken_takes h.ok hkind) fun _ t g => ?_)
    refine g.step (parse_gives .leftHandSide g.ready (by decide) trivial) fun operand t g => ?_
    exact g.finishProduction rfl (by simp [Payload.fields]) rfl
  refine .ask (startsJsx_inquires (o := true).asks h.ok) (.ite (fun hjsx => ?_) fun _ => ?_)
  · have hkind : s.token.kind = .punct .lessThan :=
      beq_iff_eq.mp (answer_and (answer_and hjsx rfl).2 rfl).1
    exact (parse_takes (.jsxElement true) h (Nat.lt_trans (by decide) hrank) hkind rfl).operand
  refine (parse_ends .leftHandSide h hrank trivial).bind fun operand t ht => .kind ?_
  have hasks : (isIncrement <&&> (do return !(← afterLineBreak))).Asks env t :=
    (isIncrement_inquires.and (Inquires.afterLineBreak.bind fun _ => .pure (o := true) _)).asks ht.run.ok
  refine .ask hasks (.ite (fun hafter => ?_) fun _ => .pure ⟨ht.run, ?_⟩)
  · have g : Sofar env rank false s s t [.node operand] := (Sofar.start h).go ht.run
    have hkind : t.token.kind ≠ .endOfFile := by
      intro hkind
      have hincrement := (answer_and hafter rfl).1
      rw [isIncrement, kindIs, answer_kind, hkind] at hincrement
      cases hincrement
    refine Ends.mono (g.stepTook (nextToken_takes g.ready.ok hkind) fun _ t g => ?_) fun _ _ =>
      operand_of_handed
    exact g.finishProduction rfl (by simp [Payload.fields]) rfl
  · have hincrement : isIncrement.answer env s = false := hno
    cases hstarts : startsLeftHandSide.answer env s with
    | true => exact .inl (ht.takes hstarts)
    | false =>
      rcases ht.stays rfl with hread | ⟨htoken, hkind⟩
      · exact .inl hread
      · exact .inr ⟨htoken, hkind, by simp [hincrement]⟩

theorem awaitContext_inquires : Inquires o (do return (← context).awaitContext) :=
  .of_eq (fun _ _ => rfl) fun h => h.awaitContext

theorem yieldContext_inquires : Inquires o (do return (← context).yieldContext) :=
  .of_eq (fun _ _ => rfl) fun h => h.yieldContext

theorem isAwaitExpression_inquires : Inquires o isAwaitExpression :=
  awaitContext_inquires.bind (f := fun b => if b = true then pure true else _) fun _ =>
    .ite (.pure true) (.peek isNameOrLiteralOnSameLine_inquires.toScouts)

theorem wordOperator_takes {kind : NodeKind} (hplain : (Kind.node kind).isRuled = false)
    (h : env.Ready rank s) (hkind : s.token.kind ≠ .endOfFile) : (wordOperator kind).Gives env true s s := by
  refine .nodePos ((Sofar.start h).stepTook (nextToken_takes h.ok hkind) fun _ t g => ?_)
  refine g.step (parse_gives .simpleUnary g.ready (by decide) trivial) fun operand t g => ?_
  exact g.finishProduction rfl (by simp [Payload.fields]) (Kind.isSpecial_eq_false hplain rfl)

theorem typeAssertion_takes (h : env.Ready rank s) (hkind : s.token.kind = .punct .lessThan) :
    typeAssertion.Gives env true s s := by
  refine .nodePos ((Sofar.start h).stepTook (expectPunct_takes h.ok hkind) fun _ t g => ?_)
  refine g.step (parse_gives .type g.ready (by decide) trivial) fun type t g => ?_
  refine g.step (expectPunct_gives _ g.ready.ok) fun _ t g => ?_
  refine g.step (parse_gives .simpleUnary g.ready (by decide) trivial) fun inner t g => ?_
  exact g.finishProduction rfl (by simp [Payload.fields]) rfl

theorem prefixOperator_takes (h : env.Ready rank s) (hkind : s.token.kind ≠ .endOfFile) :
    prefixOperator.Gives env true s s := by
  refine .token ((Sofar.start h).stepTook (nextToken_takes h.ok hkind) fun _ t g => ?_)
  refine g.step (parse_gives .simpleUnary g.ready (by decide) trivial) fun operand t g => ?_
  exact g.finishProduction rfl (by simp [Payload.fields]) rfl

/-- Whether an operand starts here, or an operator in front of one. -/
def startsUnaryExpression (env : Surroundings) (s : ParserState) : Bool :=
  startsLeftHandSide.answer env s || s.token.kind.startsUnary || s.token.kind == .keyword .awaitKw

/-- An identifier is an operand. -/
theorem startsLeftHandSide_of_isIdentifier (h : isIdentifier.answer env s = true) :
    startsLeftHandSide.answer env s = true := by
  rw [startsLeftHandSide_answer, startsPrimary, h, Bool.or_true]
  intro hkind
  rw [isIdentifier, answer_kind, hkind] at h
  cases h

/-- `await` that is no operator is an identifier. -/
theorem isIdentifier_of_await (hkind : s.token.kind = .keyword .awaitKw)
    (h : isAwaitExpression.answer env s = false) : isIdentifier.answer env s = true := by
  have hcontext : s.scope.context.awaitContext = false := by
    cases hawait : s.scope.context.awaitContext with
    | false => rfl
    | true =>
      change (if s.scope.context.awaitContext = true then _ else _ : Parser Bool).answer env s = _ at h
      rw [hawait] at h
      cases h
  rw [isIdentifier, answer_kind, hkind]
  exact congrArg not hcontext

theorem simpleUnary_ends (h : env.Ready rank s) (hrank : Production.leftHandSide.rank < rank) :
    simpleUnary.Ends env s (Operand env (startsUnaryExpression env s) s) := by
  refine .kind ?_
  split
  any_goals with_reducible exact (prefixOperator_takes h (by simp [*])).operand
  any_goals with_reducible exact (wordOperator_takes rfl h (by simp [*])).operand
  · exact (typeAssertion_takes h ‹_›).operand
  · rename_i hkind
    refine .ask (isAwaitExpression_inquires (o := true).asks h.ok) (.ite (fun _ => ?_) fun hno => ?_)
    · exact (wordOperator_takes rfl h (by simp [hkind])).operand
    · refine (updateExpression_ends h hrank).mono fun _ _ ht => ht.mono fun _ => ?_
      have hidentifier := isIdentifier_of_await hkind hno
      rw [startsLeftHandSide_of_isIdentifier hidentifier, Bool.true_or]
  · refine (updateExpression_ends h hrank).mono fun _ _ ht => ht.mono fun hstarts => ?_
    have hincrement : isIncrement.answer env s = (s.token.kind == .punct .plusPlus
      || s.token.kind == .punct .minusMinus) := rfl
    unfold startsUnaryExpression Kind.startsUnary at hstarts
    grind

/-! ## 3. Operators between operands -/

/-- After an operand the token, read again, is no operator that may follow at the level; or it is
`in`, where that is no operator, or `as`. -/
structure Unbound (env : Surroundings) (level : Precedence) (s t : ParserState) : Prop where
  token : t.token = (s.token.rescanGreater env.file.text).1
  free : ∀ next, Precedence.ofKind? t.token.kind = some next → level.binds next = true →
    (t.token.kind = .keyword .inKw ∧ s.scope.context.disallowIn = true)
      ∨ t.token.kind = .keyword .asKw

theorem nextOperator_ends (level : Precedence) (h : s.Ok env.file.text) :
    (nextOperator level).Ends env s fun found t => Glance env.file.text s t
      ∧ t.token = (s.token.rescanGreater env.file.text).1
      ∧ (found = none → Unbound env level s t)
      ∧ (found.isSome = true → t.token.kind ≠ .endOfFile) := by
  have htoken : (advance .rescanGreater).Ends env s fun _ t =>
      t.token = (s.token.rescanGreater env.file.text).1 := token_advance .rescanGreater env s
  have hread := advance_ends .rescanGreater h (.of_ne (by decide) (by decide))
  refine Ends.bind (P := fun _ t => Glance env.file.text s t ∧ t.token = _) ⟨hread, htoken⟩
    fun _ t ⟨hglance, htoken⟩ => .kind ?_
  split
  · rename_i hnone
    refine .pure ⟨hglance, htoken, fun _ => ⟨htoken, fun next hsome => ?_⟩, nofun⟩
    exact absurd (hnone.symm.trans hsome) nofun
  · rename_i next hnext
    refine .ite (fun hbinds => .pure ⟨hglance, htoken, fun _ => ⟨htoken, ?_⟩, nofun⟩) fun _ => ?_
    · intro next' hnext' hbinds'
      cases hnext.symm.trans hnext'
      simp [hbinds'] at hbinds
    refine .context (.ite (fun hin => .pure ⟨hglance, htoken, fun _ => ⟨htoken, ?_⟩, nofun⟩) fun _ => ?_)
    · rw [hglance.scope_eq] at hin
      exact fun _ _ _ => .inl (by simpa using hin)
    · refine .pure ⟨hglance, htoken, nofun, fun _ hkind => ?_⟩
      rw [hkind] at hnext
      cases hnext

/-- Where a chain of operators ends without having read a token, the nodes are as they were. -/
abbrev Loose (env : Surroundings) (level : Precedence) (s t : ParserState) : Prop :=
  s.arena.Grows t.arena ∧ Unbound env level s t

theorem binaryTurn_ends {left : NodeId} (level : Precedence)
    (g : Sofar env rank took r m s [.node left]) :
    (binaryTurn level r.pos left).Ends env s (Links env rank took r m (Loose env level) left s) := by
  refine (nextOperator_ends level g.ready.ok).bind fun found t ⟨ht, htoken, hnone, hsome⟩ => ?_
  have g' : Sofar env rank false r t t [.node left] := (g.goOn ht.toRun).mark
  have hagain {p : Parser NodeId} (u : ParserState)
      (hp : p.Ends env u fun id v => Handed env.file.text true r t v (held id)) :
      (p >>= fun id => pure (Turn.again id)).Ends env u
        (Links env rank took r m (Loose env level) left s) :=
    hp.bind fun id v hv => .pure
      ⟨g.resume (hv.back ht.forward), (hv.back ht.forward).ahead rfl⟩
  have hdone (h : Unbound env level s t) : (pure (.done left) : Parser (Turn NodeId)).Ends env t
      (Links env rank took r m (Loose env level) left s) :=
    .pure ⟨⟨g.goOn ht.toRun, .inr ⟨⟨ht.grows, h⟩, rfl⟩⟩, ht.forward⟩
  cases found with
  | none => exact hdone (hnone rfl)
  | some next =>
    have hkind := hsome rfl
    refine .isAt (.ite (fun has => .afterLineBreak (.ite (fun _ => ?_) fun _ => ?_)) fun _ => ?_)
    · exact hdone ⟨htoken, fun _ _ _ => .inr (beq_iff_eq.mp has)⟩
    · refine g'.stepTook (nextToken_takes g'.ready.ok hkind) fun _ u g' => ?_
      refine g'.step (parse_gives .type g'.ready (by decide) trivial) fun type u g' => ?_
      exact hagain u (g'.finishProduction rfl (by simp [Payload.fields]) rfl)
    · refine g'.stepTook (tokenNode_takes g'.ready.ok hkind) fun operator u g' => ?_
      refine g'.step (parse_gives (.binary next) g'.ready (Production.rank_lt_topRank _) trivial) fun right u g' => ?_
      exact hagain u (g'.finishProduction rfl (by simp [Payload.fields]) rfl)

theorem binaryRest_ends {left : NodeId} (level : Precedence)
    (g : Sofar env rank took r m s [.node left]) :
    (binaryRest level left r.pos).Ends env s (Chained env rank took r m (Loose env level) s left) :=
  chain_ends g fun _ _ g => binaryTurn_ends level g

theorem reportPowerBase_ends {base : NodeId} (operator : Kind)
    (g : Sofar env rank took r m s items) (hbase : .node base ∈ items) :
    (reportPowerBase operator base).Ends env s fun _ t => Reported env.file.text s t := by
  refine g.node hbase fun n hn => ?_
  have hin := g.inText hbase hn
  have hstart := tokenStart_le_size hn hin
  refine .ask (tokenStart_asks hn) (.ite (fun _ => ?_) fun _ => ?_)
  · exact errorAtRange_ends g.ready.ok hstart hin.stop_le _ _
  · exact errorAtRange_ends g.ready.ok hstart hin.stop_le _ _

/-- Where a token starts an operand that may carry `++` or `--`, and an operand or an operator in
front of one starts, it is a left-hand side or one of the two. -/
theorem startsUpdate_ends : startsUpdate.Ends env s fun starts _ => starts = true →
    startsUnaryExpression env s = true →
      (startsLeftHandSide.answer env s || isIncrement.answer env s) = true := by
  have hincrement : isIncrement.answer env s = (s.token.kind == .punct .plusPlus
    || s.token.kind == .punct .minusMinus) := rfl
  have hother (hunary : s.token.kind.startsUnary = true → isIncrement.answer env s = true)
      (hawait : s.token.kind ≠ .keyword .awaitKw) (hstarts : startsUnaryExpression env s = true) :
      (startsLeftHandSide.answer env s || isIncrement.answer env s) = true := by
    unfold startsUnaryExpression at hstarts
    grind
  have hno : (pure false : Parser Bool).Ends env s fun starts _ => starts = true →
      startsUnaryExpression env s = true →
        (startsLeftHandSide.answer env s || isIncrement.answer env s) = true := .pure nofun
  refine .kind ?_
  split
  any_goals with_reducible exact hno
  · exact .always fun _ _ _ => hother (by simp [*, Kind.startsUnary]) (by simp [*])
  · refine .pure fun _ => hother (fun hunary => ?_) ‹_›
    unfold Kind.startsUnary at hunary
    grind

/-- The power after an operand is read with it. -/
theorem unary_ends (h : env.Ready rank s) (hrank : Production.leftHandSide.rank < rank) :
    unary.Ends env s (Operand env (startsUnaryExpression env s) s) := by
  refine .nodePos (.kind (.ask (startsUpdate_inquires (o := true).asks h.ok) ?_))
  refine .ite (fun hupdate => ?_) fun _ => ?_
  · refine (updateExpression_ends h hrank).bind fun operand t ht => ?_
    have hstarts : startsUpdate.Ends env s _ := startsUpdate_ends
    have ht := ht.mono (hstarts hupdate)
    have g : Sofar env rank false s s t [.node operand] := (Sofar.start h).go ht.run
    refine .isAt (.ite (fun hpower => ?_) fun _ => .pure ht)
    have hkind := beq_iff_eq.mp hpower
    refine (binaryRest_ends .exponentiation g).mono fun id u hu => ⟨hu.sofar.run, ?_⟩
    refine .inl (Nat.lt_of_le_of_lt ht.run.forward ?_)
    refine hu.outcome.resolve_right fun ⟨⟨_, hunbound⟩, _⟩ => ?_
    have htoken : u.token = t.token := by
      rw [hunbound.token, Token.rescanGreater_of_ne (by simp [hkind])]
    have hfree := hunbound.free .exponentiation (by rw [htoken, hkind]; rfl) rfl
    rw [htoken, hkind] at hfree
    rcases hfree with ⟨hno, -⟩ | hno
    · cases hno
    · cases hno
  · refine (simpleUnary_ends h hrank).bind fun operand t ht => ?_
    have g : Sofar env rank false s s t [.node operand] := (Sofar.start h).go ht.run
    refine .isAt (.ite (fun _ => ?_) fun _ => .pure ht)
    refine (reportPowerBase_ends _ g (List.mem_singleton_self _)).bind fun _ u hu => .pure ?_
    refine ⟨(g.goOn hu.toRun).run, ?_⟩
    have hsame : u.pos = t.pos := congrArg Token.fullStart hu.token
    refine ht.outcome.imp (hsame ▸ ·) fun ⟨htoken, hkind, hno⟩ => ⟨hu.token.trans htoken, ?_, hno⟩
    rw [Arena.kindOf, hu.grows.get?_eq operand (ht.run.there operand (by simp))]
    exact hkind

/-- What an expression of operators comes to. If no token has been read, nothing started here but
perhaps an operator, and its left operand is a missing name. -/
structure Operated (env : Surroundings) (level : Precedence) (s : ParserState) (id : NodeId)
    (t : ParserState) : Prop where
  run : Run env.file.text s t [.node id]
  outcome : s.pos < t.pos ∨ (startsUnaryExpression env s = false
    ∧ t.arena.kindOf id = .identifier ∧ Unbound env level s t)

theorem binary_ends (level : Precedence) (h : env.Ready rank s)
    (hrank : Production.leftHandSide.rank < rank) :
    (binary level).Ends env s (Operated env level s) := by
  refine .nodePos ((unary_ends h hrank).bind fun left t ht => ?_)
  have g : Sofar env rank false s s t [.node left] := (Sofar.start h).go ht.run
  refine (binaryRest_ends level g).mono fun id u hu => ⟨hu.sofar.run, ?_⟩
  rcases hu.outcome with hread | ⟨⟨hgrows, hunbound⟩, rfl⟩
  · exact .inl (Nat.lt_of_le_of_lt ht.run.forward hread)
  · refine ht.outcome.imp (Nat.lt_of_lt_of_le · hu.forward) fun ⟨htoken, hkind, hno⟩ => ⟨hno, ?_, ?_⟩
    · rw [Arena.kindOf, hgrows.get?_eq id (ht.run.there id (by simp))]
      exact hkind
    · exact ⟨htoken ▸ hunbound.token, ht.run.scope_eq ▸ hunbound.free⟩

theorem binary_gives (level : Precedence) (h : env.Ready rank s)
    (hrank : Production.leftHandSide.rank < rank) : (binary level).Gives env false s s :=
  (binary_ends level h hrank).mono fun _ _ ht => ht.run.handed

/-! ## 4. Assignments -/

theorem startsYield_inquires : Inquires o startsYield :=
  (Inquires.isAtKeyword _).bind fun _ => .ite
    (yieldContext_inquires.bind (f := fun b => if b = true then pure true else _) fun _ =>
      .ite (.pure true) (.peek isNameOrLiteralOnSameLine_inquires.toScouts)) (.pure false)

theorem yieldHasOperand_inquires : Inquires true yieldHasOperand :=
  .onSameLine (.or (.isAtPunct _) startsExpression_inquires)

theorem yieldExpression_takes (h : env.Ready rank s) (hkind : s.token.kind = .keyword .yieldKw) :
    yieldExpression.Gives env true s s := by
  refine .nodePos ((Sofar.start h).stepTook (nextToken_takes h.ok (by simp [hkind])) fun _ t g => ?_)
  refine .ask (yieldHasOperand_inquires.asks g.ready.ok) (.ite (fun _ => ?_) fun _ => ?_)
  · refine g.step (acceptToken_gives _ g.ready.ok) fun asterisk t g => ?_
    refine g.step (parse_gives .assignment g.ready (by decide) trivial) fun inner t g => ?_
    exact g.finishProduction rfl (by simp [Payload.fields]) rfl
  · exact g.finishProduction rfl (by simp [Payload.fields]) rfl

theorem conditionalAfter_gives {condition : NodeId}
    (g : Sofar env rank took r m s [.node condition]) : (conditionalAfter condition r.pos).Ends env s
      fun id t => Handed env.file.text took r m t (held id) := by
  refine g.acceptToken nofun (fun questionMark t _ g => ?_) fun _ => g.done rfl
  refine g.step (parseIn_gives .assignment g.ready (by decide) trivial) fun whenTrue t g => ?_
  refine g.step (expectToken_gives rfl g.ready.ok) fun colon t g => ?_
  refine g.isMissing (by simp) fun n hn => ?_
  extract_lets rest
  refine g.fork rest (fun whenFalse t g => ?_) fun hrest => .ite (fun _ => ?_) fun _ => ?_
  · exact g.loosen.finishProduction rfl (by simp [Payload.fields]) rfl
  · exact g.step (missingHere_gives rfl _ _ g.ready.ok) hrest
  · exact g.step (parse_gives .assignment g.ready (by decide) trivial) hrest

/-- What follows an expression of operators takes an assignment after a missing name. -/
theorem afterOperators_ends {first : NodeId} {starts : Bool} (h : s.Ok env.file.text)
    (g : Sofar env rank false s s t [.node first])
    (hmoved : starts = true → s.pos < t.pos ∨ (t.arena.kindOf first = .identifier
      ∧ t.token.kind.isAssignmentOperator = true)) : (afterOperators s.pos first).Ends env t
        fun id u => Handed env.file.text starts s s u (held id) := by
  refine g.kindOf (List.mem_singleton_self _) fun n hn => ?_
  have hkindOf : t.arena.kindOf first = n.kind := by simp [Arena.kindOf, hn]
  have hdone {id : NodeId} {u : ParserState} (hu : Handed env.file.text false s t u [.node id])
      (hno : t.arena.kindOf first = .identifier → t.token.kind.isAssignmentOperator = true →
        t.pos < u.pos) : Handed env.file.text starts s s u [.node id] := by
    refine ⟨hu.run, Nat.le_trans g.forward hu.forward, fun hstarts => ?_⟩
    rcases hmoved hstarts with hread | ⟨hidentifier, hassigns⟩
    · exact Nat.lt_of_lt_of_le hread hu.forward
    · exact Nat.lt_of_le_of_lt g.forward (hno hidentifier hassigns)
  have hasks : (pure (n.kind == .identifier) <&&> isAtPunct .equalsGreaterThan).Asks env t := by
    cases n.kind == .identifier <;> rfl
  refine .ask hasks (.ite (fun harrow => ?_) fun _ => ?_)
  · have hkind : t.token.kind = .punct .equalsGreaterThan := beq_iff_eq.mp (answer_and harrow rfl).2
    refine (simpleArrow_gives (.refl h) g.run g.ready rfl (moded_none s) (.inl hkind)).mono fun id u hu => ?_
    exact hdone hu fun _ hassigns => absurd hassigns (by rw [hkind]; decide)
  extract_lets rest
  have hrest (u : ParserState) (hu : Sofar env rank false s t u [.node first])
      (hno : n.kind.isLeftHandSide = true → t.token.kind.isAssignmentOperator = false) :
      (rest ()).Ends env u fun id v => Handed env.file.text starts s s v (held id) := by
    refine (conditionalAfter_gives hu).mono fun id v hv => hdone hv fun hidentifier hassigns => ?_
    rw [hno (by rw [← hkindOf, hidentifier]; rfl)] at hassigns
    cases hassigns
  refine .ite (fun _ => ?_) fun hleft => hrest t g.mark fun hyes => ?_
  · have htoken : (advance .rescanGreater).Ends env t fun _ u =>
        u.token = (t.token.rescanGreater env.file.text).1 := token_advance .rescanGreater env t
    have hfits : ReadingMode.rescanGreater.FitsAt t.token := .of_ne (by decide) (by decide)
    refine Ends.bind (P := fun _ u => Glance env.file.text t u ∧ u.token = _)
      ⟨advance_ends .rescanGreater g.ready.ok hfits, htoken⟩ ?_
    rintro _ u ⟨hu, htoken⟩
    refine .kind (.ite (fun hassigns => ?_) fun hno => hrest u (g.mark.goOn hu.toRun) fun _ => ?_)
    · have hkind : u.token.kind ≠ .endOfFile := by
        intro hkind
        rw [hkind] at hassigns
        cases hassigns
      refine Ends.mono (P := fun id v => Handed env.file.text true s t v (held id)) ?_
        fun id v hv => hdone ⟨hv.run, hv.forward, fun hno => by cases hno⟩ fun _ _ => hv.ahead rfl
      refine (g.mark.goOn hu.toRun).stepTook (tokenNode_takes hu.ok hkind) fun operator v g => ?_
      refine g.step (parse_gives .assignment g.ready (by decide) trivial) fun right v g => ?_
      exact g.finishProduction rfl (by simp [Payload.fields]) rfl
    · by_cases hangle : t.token.kind = .punct .greaterThan
      · rw [hangle]
        rfl
      · rwa [htoken, Token.rescanGreater_of_ne hangle] at hno
  · exact absurd (hleft.symm.trans hyes) Bool.false_ne_true

/-! ## 5. Expressions -/

theorem isBinaryOperator_answer : isBinaryOperator.answer env s =
    if (s.token.kind == .keyword .inKw && s.scope.context.disallowIn) = true then false
      else (Precedence.ofKind? s.token.kind).isSome := by
  show (if _ then _ else _ : Parser Bool).answer env s = _
  split <;> rfl

/-- `yield` that is no operator is an identifier. -/
theorem isIdentifier_of_yield (hkind : s.token.kind = .keyword .yieldKw)
    (h : startsYield.answer env s = false) : isIdentifier.answer env s = true := by
  have hyield : startsYield.Ends env s fun starts _ => starts = false →
      s.scope.context.yieldContext = false := by
    refine .isAt (.ite (fun _ => .context ?_) fun hno => absurd hkind (by simpa using hno))
    exact .ite (fun _ => .pure nofun) fun hcontext => .always fun _ _ _ => hcontext
  rw [isIdentifier, answer_kind, hkind]
  exact congrArg not (hyield h)

/-- An expression that is no `yield` starts with an operand, with an operator in front of one, or
with an operator between two. -/
theorem startsExpression_cases (hok : s.Ok env.file.text)
    (h : startsExpression.answer env s = true) (hyield : startsYield.answer env s = false) :
    startsUnaryExpression env s = true ∨ isBinaryOperator.answer env s = true := by
  have hidentifier (h : isIdentifier.answer env s = true) : startsUnaryExpression env s = true := by
    simp [startsUnaryExpression, startsLeftHandSide_of_isIdentifier h]
  have hstarts : startsExpression.Ends env s fun starts _ => starts = true →
      startsUnaryExpression env s = true ∨ isBinaryOperator.answer env s = true := by
    refine .ask (startsLeftHandSide_inquires (o := true).asks hok) ?_
    refine .ite (fun hyes => .pure fun _ => .inl ?_) fun _ => .kind ?_
    · simp [startsUnaryExpression, hyes]
    split
    · rename_i hkind
      refine .pure fun _ => .inr ?_
      rw [isBinaryOperator_answer, hkind]
      rfl
    · exact .pure fun _ => .inl (by simp [startsUnaryExpression, *])
    · exact .pure fun _ => .inl (hidentifier (isIdentifier_of_yield ‹_› hyield))
    · refine .ite (fun hunary => .pure fun _ => .inl ?_) fun _ => fun h => ?_
      · simp [startsUnaryExpression, hunary]
      · exact (answer_or h (isBinaryOperator_inquires.asks hok)).symm.imp_left hidentifier
  exact hstarts h

/-- A missing left operand leaves an operator or an assignment where it is. -/
theorem Unbound.assigns (h : Unbound env .comma s t) (hyes : isBinaryOperator.answer env s = true)
    (hno : startsUnaryExpression env s = false) : t.token.kind.isAssignmentOperator = true := by
  rw [isBinaryOperator_answer] at hyes
  by_cases hangle : s.token.kind = .punct .greaterThan
  · have htoken := h.token
    obtain ⟨p, hp, hoperator⟩ := Token.kind_rescanGreater env.file.text hangle
    rw [← htoken] at hp
    rw [hp]
    refine hoperator.resolve_left fun hsome => ?_
    obtain ⟨next, hnext⟩ := Option.isSome_iff_exists.mp hsome
    have hkind : Precedence.ofKind? t.token.kind = some next := hp ▸ hnext
    rcases h.free next hkind (Precedence.binds_comma hkind) with ⟨hin, -⟩ | has
    · cases hp.symm.trans hin
    · cases hp.symm.trans has
  · have htoken : t.token = s.token := by rw [h.token, Token.rescanGreater_of_ne hangle]
    have hfree := h.free
    rw [htoken] at hfree
    split at hyes
    · cases hyes
    rename_i hoperator
    obtain ⟨next, hnext⟩ := Option.isSome_iff_exists.mp hyes
    rcases hfree next hnext (Precedence.binds_comma hnext) with ⟨hin, hdisallowed⟩ | has
    · exact absurd (by simp [hin, hdisallowed]) hoperator
    · have hidentifier : isIdentifier.answer env s = true := by
        rw [isIdentifier, answer_kind, has]
        rfl
      simp [startsUnaryExpression, startsLeftHandSide_of_isIdentifier hidentifier] at hno

/-- What an expression without commas comes to, where it is neither a `yield` nor an arrow function
with its parameters in parentheses. -/
theorem operators_gives (h : env.Ready rank s) (hrank : Production.leftHandSide.rank < rank)
    (hyield : startsYield.answer env s = false) :
    Gives (do
      let pos ← nodePos
      let first ← binary .comma
      afterOperators pos first) env (startsExpression.answer env s) s s := by
  refine .nodePos ((binary_ends .comma h hrank).bind fun first t ht => ?_)
  refine afterOperators_ends h.ok ((Sofar.start h).go ht.run) fun hstarts => ?_
  refine ht.outcome.imp_right fun ⟨hno, hkind, hunbound⟩ => ⟨hkind, ?_⟩
  rcases startsExpression_cases h.ok hstarts hyield with hyes | hyes
  · exact absurd (hno.symm.trans hyes) nofun
  · exact hunbound.assigns hyes hno

/-- No expression starts at an arrow, or at the end of the text. -/
theorem startsExpression_of_kind
    (h : s.token.kind = .endOfFile ∨ s.token.kind = .punct .equalsGreaterThan) :
    startsExpression.answer env s = false := by
  cases s with
  | mk token =>
    cases token
    rcases h with h | h
    all_goals
      cases h
      rfl

/-- Where `in` is allowed as an operator, an expression starts with all that it may start with
elsewhere. -/
theorem startsExpression_mono (hok : s.Ok env.file.text) (hok' : t.Ok env.file.text)
    (hAlike : Alike false env s env t) (hin : t.scope.context.disallowIn = false)
    (h : startsExpression.answer env s = true) : startsExpression.answer env t = true := by
  unfold startsExpression at h ⊢
  rw [answer_bind (startsLeftHandSide_inquires (o := true).asks hok)] at h
  rw [answer_bind (startsLeftHandSide_inquires (o := true).asks hok'),
    ← startsLeftHandSide_inquires.answer_eq hAlike]
  cases hleft : startsLeftHandSide.answer env s with
  | true => rfl
  | false =>
    rw [hleft] at h
    simp only [Bool.false_eq_true, if_false, answer_kind, ← hAlike.token] at h ⊢
    split
    · rfl
    · rfl
    · rfl
    · split at h
      any_goals contradiction
      cases hunary : s.token.kind.startsUnary with
      | true => rfl
      | false =>
        rw [hunary] at h
        have hoperator := (answer_or h (isBinaryOperator_inquires.asks hok)).resolve_right fun hname =>
          absurd (hleft.symm.trans (startsLeftHandSide_of_isIdentifier hname)) nofun
        have hoperator' : isBinaryOperator.answer env t = true := by
          rw [isBinaryOperator_answer] at hoperator ⊢
          rw [← hAlike.token]
          grind
        show (isBinaryOperator >>= _).answer env t = true
        rw [answer_bind (isBinaryOperator_inquires.asks hok'), hoperator']
        rfl

/-- Without a comma an expression takes a token wherever one starts. -/
theorem assignmentBody_gives (h : env.Ready rank s)
    (hrank : Production.leftHandSide.rank < rank) :
    assignmentBody.Gives env (startsExpression.answer env s) s s := by
  refine .ask (startsYield_inquires (o := true).asks h.ok) (.ite (fun hyield => ?_) fun hyield => ?_)
  · have hkind : startsYield.Ends env s fun starts _ => starts = true →
        s.token.kind = .keyword .yieldKw :=
      .isAt (.ite (fun hat => .always fun _ _ _ => beq_iff_eq.mp hat) fun _ => .pure nofun)
    exact (yieldExpression_takes h (hkind hyield)).loosen
  refine (arrowHeadHere_ends h).bind fun found t ht => ?_
  rcases ht with ⟨head, rfl, hpos, ht, hmoded, hopens⟩ | ⟨rfl, ht⟩
  · refine (arrowAfterHead_gives ((Sofar.start h).resume ht).mark hpos hmoded).mono fun id u hu => ?_
    refine ⟨hu.run, Nat.le_trans ht.forward hu.forward, fun hstarts => ?_⟩
    have hopens := hopens.resolve_right fun hkind => ?_
    · exact Nat.lt_of_lt_of_le (ht.ahead hopens) hu.forward
    · exact absurd (hstarts.symm.trans (startsExpression_of_kind (.inr hkind))) nofun
  · have hready : env.Ready rank t := h.run ht.toRun
    have hsame {p : Parser NodeId} (hp : p.Gives env (startsExpression.answer env t) t t) :
        p.Ends env t fun id u => Handed env.file.text (startsExpression.answer env s) s s u [.node id] := by
      refine hp.mono fun id u hu => ⟨ht.after hu.run, Nat.le_trans ht.forward hu.forward, fun hstarts => ?_⟩
      refine Nat.lt_of_le_of_lt ht.forward (hu.ahead ?_)
      rwa [← startsExpression_inquires.answer_eq ht.alike]
    refine .ask (startsAsyncSimpleArrow_inquires (o := true).asks hready.ok) (.ite (fun hasync => ?_) fun _ => ?_)
    · exact hsame (asyncSimpleArrow_takes hready (startsAsyncSimpleArrow_ends hasync)).loosen
    · refine hsame (operators_gives hready hrank ?_)
      rwa [← startsYield_inquires (o := true).answer_eq ht.alike]

/-- An assignment takes a token wherever an expression starts. -/
theorem assignment_gives (h : env.Ready rank s) (hrank : Production.leftHandSide.rank < rank) :
    assignment.Gives env (startsExpression.answer env s) s s := by
  refine (nested_gives _ h.ok (fun hstarts hkind => ?_) ?_).bind fun (id, _) t ht => .pure ht
  · exact absurd (hstarts.symm.trans (startsExpression_of_kind (.inl hkind))) nofun
  · have hAlike : Alike true env s env (s.atDepth (s.scope.depth + 1)) :=
      ⟨rfl, rfl, rfl, rfl, fun _ => rfl⟩
    rw [startsExpression_inquires.answer_eq hAlike]
    exact assignmentBody_gives (h.atDepth _) hrank

/-- The commas after an expression are operators. -/
theorem commas_gives {first : NodeId} (g : Sofar env rank took r m s [.node first]) :
    Ends (repeating first fun left => do
      match ← acceptToken (.punct .comma) with
      | some operator =>
        let right ← parse .assignment
        return .again (← binaryExpression left operator right r.pos)
      | none => return .done left) env s fun id t => Handed env.file.text took r m t (held id) := by
  refine (Sofar.loop (k := held) g fun left t g => ?_).mono fun _ _ g => g.toHanded
  refine g.mark.acceptToken nofun (fun operator u _ g' => ?_) fun _ => g.stop
  refine g'.step (parse_gives .assignment g'.ready (by decide) trivial) fun right u g' => ?_
  exact g.again (g'.finishProduction rfl (by simp [Payload.fields]) rfl)

/-- An expression takes a token wherever one starts. -/
theorem expression_gives (h : env.Ready rank s) (hrank : Production.assignment.rank < rank) :
    expression.Gives env (startsExpression.answer env s) s s := by
  let context := { s.scope.context with decoratorContext := false }
  have hAlike : Alike true env s env (s.inContext context) := ⟨rfl, rfl, rfl, rfl, fun _ => rfl⟩
  rw [startsExpression_inquires.answer_eq hAlike]
  have h : env.Ready rank (s.inContext context) := h.inContext _
  refine .withContext (.nodePos ?_)
  refine (parse_ends .assignment h hrank trivial).bind fun first t ht => ?_
  have g := (Sofar.start h).go ht.run
  refine (commas_gives g.mark).mono fun id u hu => ?_
  refine ⟨hu.run, Nat.le_trans g.forward hu.forward, fun hstarts => ?_⟩
  exact Nat.lt_of_lt_of_le (ht.takes hstarts) hu.forward

end Parser

end ScriptSyntax
