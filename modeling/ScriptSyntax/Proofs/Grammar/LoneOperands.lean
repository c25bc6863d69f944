/-
  ScriptSyntax/Proofs/Grammar/LoneOperands.lean
  =============================================
  Operands that nothing goes on with.

  Where a comma, a semicolon or a closing bracket comes after an operand, there is
  no member, no call and no operator.  What the operand is read as is then what
  the expression is, at each level up to a whole one.
-/
import ScriptSyntax.Proofs.Grammar.Expressions
import ScriptSyntax.Proofs.Grammar.Way
import ScriptSyntax.Proofs.Token.Punctuation

namespace ScriptSyntax

open ScriptSyntax.Parser

/-! ## 1. What starts and what ends an operand -/

namespace Kind

/-- A token of the kind comes after a whole expression. -/
def endsExpression (k : Kind) : Bool :=
  k == .punct .semicolon || k == .punct .comma || k == .punct .closeParen || k == .punct .closeBrace

/-- A token of the kind comes after an expression of operators: it ends the expression, or sets it to
something. -/
def endsOperators (k : Kind) : Bool := k.endsExpression || k == .punct .equals

/-- A token of the kind ends an operand: it is an operator, or the end of the expression of operators. -/
def endsOperand (k : Kind) : Bool := k.endsOperators || (Precedence.ofKind? k).isSome

/-- A token of the kind may open type arguments. -/
def opensTypeArguments (k : Kind) : Bool := k == .punct .lessThan || k == .punct .lessThanLessThan

/-- A token of the kind starts an operand: a name, parentheses or a template. -/
def opensOperand (k : Kind) : Prop :=
  k = .identifier ∨ k = .punct .openParen ∨ k = .literal .noSubstitutionTemplate ∨ k = .template .head

theorem endsOperators_of_endsExpression {k : Kind} (h : k.endsExpression = true) : k.endsOperators = true := by
  simp [endsOperators, h]

theorem endsOperand_of_endsOperators {k : Kind} (h : k.endsOperators = true) : k.endsOperand = true := by
  simp [endsOperand, h]

theorem endsOperators_iff {k : Kind} : k.endsOperators = true ↔ k = .punct .semicolon ∨ k = .punct .comma
    ∨ k = .punct .closeParen ∨ k = .punct .closeBrace ∨ k = .punct .equals := by
  simp [endsOperators, endsExpression, or_assoc]

theorem not_opensTypeArguments {k : Kind} (h : k.endsOperators = true) : k.opensTypeArguments = false := by
  rcases endsOperators_iff.mp h with rfl | rfl | rfl | rfl | rfl <;> rfl

/-- What comes after an expression of operators is no operator. -/
theorem ofKind?_of_endsOperators {k : Kind} (h : k.endsOperators = true) : Precedence.ofKind? k = none := by
  rcases endsOperators_iff.mp h with rfl | rfl | rfl | rfl | rfl <;> rfl

theorem isAssignmentOperator_of_endsExpression {k : Kind} (h : k.endsExpression = true) :
    k.isAssignmentOperator = false := by
  simp only [endsExpression, Bool.or_eq_true, beq_iff_eq, or_assoc] at h
  rcases h with rfl | rfl | rfl | rfl <;> rfl

theorem ne_greaterThan_of_endsOperators {k : Kind} (h : k.endsOperators = true) : k ≠ .punct .greaterThan := by
  rcases endsOperators_iff.mp h with rfl | rfl | rfl | rfl | rfl <;> simp

theorem ne_of_endsOperand {k l : Kind} (h : k.endsOperand = true) (hl : l.endsOperand = false) : k ≠ l := by
  rintro rfl
  rw [h] at hl
  cases hl

theorem ne_of_endsExpression {k l : Kind} (h : k.endsExpression = true) (hl : l.endsExpression = false) :
    k ≠ l := by
  rintro rfl
  rw [h] at hl
  cases hl

theorem opensOperand.ne_keyword {k : Kind} (h : k.opensOperand) (word : Keyword) : k ≠ .keyword word := by
  rcases h with rfl | rfl | rfl | rfl <;> simp

theorem opensOperand.ne_lessThan {k : Kind} (h : k.opensOperand) : k ≠ .punct .lessThan := by
  rcases h with rfl | rfl | rfl | rfl <;> simp

end Kind

variable {env : Surroundings} {rank : Nat} {r s t : ParserState} {id : NodeId} {next : Token}
variable {text : Array Char} {X : NodeId → Token → Forest → Prop} {L : DiagnosticLog → Prop}

/-- What is said of an operand: it stays true where names are entered, and the operand ends there. -/
structure IsOperand (text : Array Char) (X : NodeId → Token → Forest → Prop) : Prop where
  stays : ∀ id next F G, X id next F → F.Stays G → X id next G
  ends : ∀ id next F, X id next F → next.kind.endsOperand = true
  noArguments : ∀ id next F, X id next F → next.kind.opensTypeArguments = true →
    next.Marked text ∧ ∀ i : Nat, text[i]? ≠ some '('

/-- What is said of an expression of operators: nothing of the kind comes after it. -/
structure IsLone (X : NodeId → Token → Forest → Prop) : Prop where
  stays : ∀ id next F G, X id next F → F.Stays G → X id next G
  ends : ∀ id next F, X id next F → next.kind.endsOperators = true

theorem IsLone.isOperand (h : IsLone X) : IsOperand text X where
  stays := h.stays
  ends id next F hX := Kind.endsOperand_of_endsOperators (h.ends id next F hX)
  noArguments id next F hX hopens := by
    rw [Kind.not_opensTypeArguments (h.ends id next F hX)] at hopens
    cases hopens

namespace Parser

/-! ## 2. Operands -/

/-- No member comes after an operand. -/
theorem memberRest_leaves {pos : Nat} (hkind : s.token.kind.endsOperand = true) :
    (memberRest pos id true).Ends env s fun b t => b = id ∧ t = s := by
  have hne {k : Kind} (hk : k.endsOperand = false) : s.token.kind ≠ k := Kind.ne_of_endsOperand hkind hk
  have hno {k : Kind} (hk : k.endsOperand = false) : (s.token.kind == k) = false :=
    beq_eq_false_iff_ne.mpr (hne hk)
  have hmember : startsOptionalMember.Ends env s fun b t => b = false ∧ t = s := by
    refine .isAt ?_
    rw [hno rfl]
    exact ⟨rfl, rfl⟩
  have hmark : (isAtPunct .exclamation).Ends env s fun b t => b = false ∧ t = s :=
    ⟨hno rfl, rfl⟩
  have hlink : (memberLink pos id none).Ends env s fun o t => ∃ b, o = .done b ∧ b = id ∧ t = s := by
    refine .leaves (a := false) hmark (.no ?_)
    extract_lets atTemplate
    have htemplate : (atTemplate ()).Ends env s fun o t => ∃ b, o = .done b ∧ b = id ∧ t = s := by
      refine .kind ?_
      split
      · exact absurd ‹_› (hne rfl)
      · exact absurd ‹_› (hne rfl)
      · exact .pure ⟨id, rfl, rfl, rfl⟩
    refine .context (.ite (fun _ => ?_) fun _ => htemplate)
    exact .leave (hne rfl) (.no htemplate)
  refine repeating_once (.leaves (a := false) hmember (.no ?_))
  exact .leave (hne rfl) (.no hlink)

/-- No call comes after an operand. At a `<` type arguments are tried, but without a parenthesis they are
given up. -/
theorem callRest_leaves {pos : Nat} (h : env.Supplied rank s) (hkind : s.token.kind.endsOperand = true)
    (hopens : s.token.kind.opensTypeArguments = true →
      s.token.Marked env.file.text ∧ ∀ i : Nat, env.file.text[i]? ≠ some '(') :
    (callRest pos id).Ends env s fun b t => b = id ∧ Still env.file.text s t := by
  have hne {k : Kind} (hk : k.endsOperand = false) : s.token.kind ≠ k := Kind.ne_of_endsOperand hkind hk
  refine repeating_once (.leaves (memberRest_leaves hkind) (.leaveToken (hne rfl) ?_))
  extract_lets rest
  have hrest (t : ParserState) (ht : Still env.file.text s t) :
      (rest none).Ends env t fun o u => ∃ b, o = .done b ∧ b = id ∧ Still env.file.text s u := by
    have hopen : (isAtPunct .openParen).Ends env t fun b u => b = false ∧ u = t := by
      refine ⟨?_, rfl⟩
      show (t.token.kind == .punct .openParen) = false
      rw [ht.token]
      exact beq_eq_false_iff_ne.mpr (hne rfl)
    refine .leaves (a := false) hopen (.no ?_)
    exact .pure ⟨id, rfl, rfl, ht⟩
  have hcall (hopen : s.token.kind.opensTypeArguments = true) : (callTypeArguments >>= rest).Ends env s
      fun o u => ∃ b, o = .done b ∧ b = id ∧ Still env.file.text s u := by
    obtain ⟨hmarked, hparen⟩ := hopens hopen
    refine (callTypeArguments_ends h.ready).bind fun found t ht => ?_
    rcases ht with ⟨list, -, hrun, hat⟩ | ⟨rfl, hstill⟩
    · obtain ⟨tokens, hleaves⟩ := hrun.leaves
      have hmark := hleaves.reads.marked hmarked .openParen hat
      exact absurd hmark (hparen _)
    · exact hrest t hstill
  refine .kind ?_
  split
  · exact hcall (by simp [*, Kind.opensTypeArguments])
  · exact hcall (by simp [*, Kind.opensTypeArguments])
  · exact hrest s (.refl h.ok)

/-- An operand with nothing after it is a left-hand side. -/
theorem leftHandSide_yields (hX : IsOperand env.file.text X) (h : env.Supplied rank s)
    (hkind : s.token.kind.opensOperand) (hprimary : primary.Ends env s (Yields env.file.text s X)) :
    leftHandSide.Ends env s (Yields env.file.text s X) := by
  have hmember : memberExpression.Ends env s (Yields env.file.text s X) := by
    refine .nodePos (hprimary.bind fun id t ht => ?_)
    refine (memberRest_leaves (hX.ends _ _ _ ht.holds)).mono ?_
    rintro _ _ ⟨rfl, rfl⟩
    exact ht
  have hcalls : (memberExpression >>= callRest s.pos).Ends env s (Yields env.file.text s X) := by
    refine hmember.bind fun id t ht => ?_
    have g := (Way.start h).goTook ht.quiet ht.took
    refine (callRest_leaves g.supplied (hX.ends _ _ _ ht.holds) (hX.noArguments _ _ _ ht.holds)).mono ?_
    rintro _ u ⟨rfl, hstill⟩
    refine ⟨ht.quiet.before hstill.quiet, Nat.lt_of_lt_of_le ht.took hstill.forward, ?_⟩
    rw [hstill.token]
    exact hX.stays _ _ _ _ ht.holds hstill.stays
  refine .nodePos (.kind ?_)
  rcases hkind with hkind | hkind | hkind | hkind <;> rw [hkind] <;> exact hcalls

/-- No increment stands before the operand or after it, and no tag opens. -/
theorem updateExpression_yields (hX : IsOperand env.file.text X) (h : env.Supplied rank s)
    (hrank : Production.leftHandSide.rank < rank) (hkind : s.token.kind.opensOperand)
    (hprimary : ∀ inner, inner.file = env.file → inner.Supplied Production.leftHandSide.rank s →
      primary.Ends inner s (Yields env.file.text s X)) :
    updateExpression.Ends env s (Yields env.file.text s X) := by
  have hno (t : ParserState) (hplus : t.token.kind ≠ .punct .plusPlus)
      (hminus : t.token.kind ≠ .punct .minusMinus) : isIncrement.Ends env t fun b u => b = false ∧ u = t := by
    refine ⟨?_, rfl⟩
    show (t.token.kind == .punct .plusPlus || t.token.kind == .punct .minusMinus) = false
    simp [hplus, hminus]
  have hbefore : isIncrement.Ends env s fun b t => b = false ∧ t = s := by
    rcases hkind with hkind | hkind | hkind | hkind <;> exact hno s (by simp [hkind]) (by simp [hkind])
  have hjsx : startsJsx.Ends env s fun b t => b = false ∧ t = s := by
    have hat : (isAtPunct .lessThan <&&> peek (kindIs fun k => k.isName || k == .punct .greaterThan)).Ends
        env s fun b t => b = false ∧ t = s := by
      refine .isAt ?_
      rw [beq_eq_false_iff_ne.mpr hkind.ne_lessThan]
      exact ⟨rfl, rfl⟩
    refine .read ?_
    cases env.file.variant == .jsx with
    | true => exact hat
    | false => exact ⟨rfl, rfl⟩
  refine .token (.leaves hbefore (.no (.leaves hjsx (.no ?_))))
  have hcall : (parse .leftHandSide).Ends env s (Yields env.file.text s X) := by
    refine parse_of_body h hrank fun inner hfile hinner => ?_
    have hyields := hprimary inner hfile hinner
    rw [← hfile] at hX hyields ⊢
    exact leftHandSide_yields hX hinner hkind hyields
  refine hcall.bind fun id t ht => .kind ?_
  have hnext := hX.ends _ _ _ ht.holds
  have hafter : (isIncrement <&&> (do return !(← afterLineBreak))).Ends env t
      fun b u => b = false ∧ u = t :=
    .andNo (hno t (Kind.ne_of_endsOperand hnext rfl) (Kind.ne_of_endsOperand hnext rfl))
  exact .leaves hafter (.no (.pure ht))

theorem startsUpdate_of_opensOperand (hkind : s.token.kind.opensOperand) :
    startsUpdate.Ends env s fun b t => b = true ∧ t = s := by
  refine .kind ?_
  rcases hkind with hkind | hkind | hkind | hkind <;> rw [hkind] <;> exact ⟨rfl, rfl⟩

/-! ## 3. Expressions of one operand -/

/-- No operator comes after the operand. -/
theorem nextOperator_leaves {level : Precedence} (hkind : s.token.kind.endsOperators = true) :
    (nextOperator level).Ends env s fun found t => found = none ∧ t = s := by
  have hread : ReadingMode.rescanGreater.read env.file.text s.token = (s.token, []) :=
    Token.rescanGreater_of_ne (Kind.ne_greaterThan_of_endsOperators hkind)
  refine (advance_leaves hread).bind ?_
  rintro _ t rfl
  refine .kind ?_
  rw [Kind.ofKind?_of_endsOperators hkind]
  exact .pure ⟨rfl, rfl⟩

theorem binaryRest_leaves {level : Precedence} {pos : Nat} (hkind : s.token.kind.endsOperators = true) :
    (binaryRest level id pos).Ends env s fun b t => b = id ∧ t = s :=
  repeating_once (.leaves (nextOperator_leaves hkind) (.pure ⟨id, rfl, rfl, rfl⟩))

/-- An operand with nothing after it is an expression of operators at each level. -/
theorem binary_yields {level : Precedence} (hX : IsLone X) (h : env.Supplied rank s)
    (hrank : Production.leftHandSide.rank < rank) (hkind : s.token.kind.opensOperand)
    (hprimary : ∀ inner, inner.file = env.file → inner.Supplied Production.leftHandSide.rank s →
      primary.Ends inner s (Yields env.file.text s X)) :
    (binary level).Ends env s (Yields env.file.text s X) := by
  have hunary : unary.Ends env s (Yields env.file.text s X) := by
    have hupdate := updateExpression_yields hX.isOperand h hrank hkind hprimary
    refine .nodePos (.kind (.leaves (startsUpdate_of_opensOperand hkind) (.yes ?_)))
    refine hupdate.bind fun id t ht => .isAt ?_
    have hpower : t.token.kind ≠ .punct .asteriskAsterisk := by
      intro hpower
      have hends := hX.ends _ _ _ ht.holds
      rw [hpower] at hends
      cases hends
    rw [beq_eq_false_iff_ne.mpr hpower]
    exact .no (.pure ht)
  refine .nodePos (hunary.bind fun id t ht => ?_)
  refine (binaryRest_leaves (hX.ends _ _ _ ht.holds)).mono ?_
  rintro _ _ ⟨rfl, rfl⟩
  exact ht

/-! ## 4. Whole expressions -/

/-- Nothing comes after the expression of operators either. -/
theorem afterOperators_leaves {pos : Nat} {kind : Kind} {payload : Payload}
    (hshows : s.forest.Shows id kind payload) (hkind : s.token.kind.endsExpression = true) :
    (afterOperators pos id).Ends env s fun b t => b = id ∧ t = s := by
  have hne {k : Kind} (hk : k.endsExpression = false) : s.token.kind ≠ k :=
    Kind.ne_of_endsExpression hkind hk
  have harrow : (pure (kind == .identifier) <&&> isAtPunct .equalsGreaterThan).Ends env s
      fun b t => b = false ∧ t = s := by
    refine .pureThen ?_
    cases kind == .identifier with
    | false => exact ⟨rfl, rfl⟩
    | true => exact ⟨beq_eq_false_iff_ne.mpr (hne rfl), rfl⟩
  have hrest : (conditionalAfter id pos).Ends env s fun b t => b = id ∧ t = s :=
    .leaveToken (hne rfl) (.pure ⟨rfl, rfl⟩)
  refine .kindShown hshows (.leaves harrow (.no ?_))
  extract_lets rest
  refine .ite (fun _ => ?_) fun _ => hrest
  have hread : ReadingMode.rescanGreater.read env.file.text s.token = (s.token, []) :=
    Token.rescanGreater_of_ne (hne rfl)
  refine (advance_leaves hread).bind ?_
  rintro _ t rfl
  refine .kind (.ite (fun hassign => ?_) fun _ => hrest)
  rw [Kind.isAssignmentOperator_of_endsExpression hkind] at hassign
  cases hassign

/-- What is read where neither `yield` nor an arrow function starts. Of the state it is known what it is
after the look for an arrow function. -/
theorem assignmentBody_ends {S : ParserState → Prop} {Q : NodeId → ParserState → Prop}
    (hword : ∀ word, s.token.kind ≠ .keyword word)
    (hhead : arrowHeadHere.Ends env s fun head t => head = none ∧ S t)
    (hsame : ∀ t, S t → t.token = s.token)
    (hbinary : ∀ t, S t → (binary .comma).Ends env t fun id u => (afterOperators t.pos id).Ends env u Q) :
    assignmentBody.Ends env s Q := by
  have hno {t : ParserState} (ht : t.token = s.token) (word : Keyword) :
      (t.token.kind == .keyword word) = false := by
    rw [ht]
    exact beq_eq_false_iff_ne.mpr (hword word)
  have hyield : startsYield.Ends env s fun b t => b = false ∧ t = s := by
    refine .isAt ?_
    rw [hno rfl]
    exact ⟨rfl, rfl⟩
  refine .leaves hyield (.no (hhead.bind ?_))
  rintro _ t ⟨rfl, ht⟩
  have hasync : startsAsyncSimpleArrow.Ends env t fun b u => b = false ∧ u = t := by
    refine .isAt ?_
    rw [hno (hsame t ht)]
    exact ⟨rfl, rfl⟩
  exact .leaves hasync (.no (.nodePos ((hbinary t ht).bind fun id u hu => hu)))

/-- An expression of operators with nothing after it is an expression without commas. -/
theorem assignmentBody_yields (hword : ∀ word, s.token.kind ≠ .keyword word)
    (hhead : arrowHeadHere.Ends env s fun head t => head = none ∧ Still env.file.text s t)
    (hends : ∀ id next F, X id next F → next.kind.endsExpression = true)
    (hshows : ∀ id next F, X id next F → ∃ kind payload, F.Shows id kind payload)
    (hbinary : ∀ t, Still env.file.text s t → (binary .comma).Ends env t (Yields env.file.text t X)) :
    assignmentBody.Ends env s (Yields env.file.text s X) := by
  refine assignmentBody_ends hword hhead (fun _ ht => ht.token) fun t hstill => ?_
  refine (hbinary t hstill).mono fun id u hu => ?_
  have hpos : t.pos = s.pos := congrArg Token.fullStart hstill.token
  obtain ⟨kind, payload, hshown⟩ := hshows _ _ _ hu.holds
  refine (afterOperators_leaves hshown (hends _ _ _ hu.holds)).mono ?_
  rintro _ _ ⟨rfl, rfl⟩
  exact ⟨hstill.quiet.after hu.quiet, hpos ▸ hu.took, hu.holds⟩

/-- An expression without commas, nested one level deeper. -/
theorem assignment_comes (hdepth : s.scope.depth < maxDepth)
    (hbody : assignmentBody.Ends env (s.atDepth (s.scope.depth + 1))
      (Comes env.file.text (s.atDepth (s.scope.depth + 1)) L X)) :
    assignment.Ends env s (Comes env.file.text s L X) := by
  refine (nested_comes .expressionExpected hdepth hbody).bind ?_
  rintro ⟨id, parsed⟩ t ⟨-, ht⟩
  exact ht

theorem assignment_yields (hdepth : s.scope.depth < maxDepth)
    (hbody : assignmentBody.Ends env (s.atDepth (s.scope.depth + 1))
      (Yields env.file.text (s.atDepth (s.scope.depth + 1)) X)) :
    assignment.Ends env s (Yields env.file.text s X) :=
  .silent (assignment_comes hdepth hbody.comes)

/-- An expression without commas is a whole expression. -/
theorem expression_comes (h : env.Supplied Production.expression.rank s)
    (hcomma : ∀ id next F, X id next F → next.kind ≠ .punct .comma)
    (hassignment : ∀ context inner, inner.file = env.file →
      inner.Supplied Production.assignment.rank (s.inContext context) →
      context.disallowIn = s.scope.context.disallowIn →
      assignment.Ends inner (s.inContext context) (Comes env.file.text (s.inContext context) L X)) :
    expression.Ends env s (Comes env.file.text s L X) := by
  refine withContext_comes (.nodePos ?_)
  have hcontext : env.Supplied Production.expression.rank
      (s.inContext { s.scope.context with decoratorContext := false }) := h.inScope _
  refine (parse_of_body hcontext (by decide) fun inner hfile hinner =>
    hassignment _ inner hfile hinner rfl).bind fun id t ht => ?_
  refine repeating_once (.leaveToken (hcomma _ _ _ ht.yields.holds) ?_)
  exact .pure ⟨id, rfl, ht⟩

theorem expression_yields (h : env.Supplied Production.expression.rank s)
    (hcomma : ∀ id next F, X id next F → next.kind ≠ .punct .comma)
    (hassignment : ∀ context inner, inner.file = env.file →
      inner.Supplied Production.assignment.rank (s.inContext context) →
      context.disallowIn = s.scope.context.disallowIn →
      assignment.Ends inner (s.inContext context) (Yields env.file.text (s.inContext context) X)) :
    expression.Ends env s (Yields env.file.text s X) :=
  .silent (expression_comes h hcomma fun context inner hfile hinner hin =>
    (hassignment context inner hfile hinner hin).comes)

/-! ## 5. Names -/

/-- No arrow function starts where no parenthesis opens. -/
theorem arrowHeadHere_leaves (h : s.Ok env.file.text) (hkind : s.token.kind.opensOperand)
    (hparen : s.token.kind ≠ .punct .openParen) :
    arrowHeadHere.Ends env s fun head t => head = none ∧ Still env.file.text s t := by
  have hno : startsArrow.Ends env s fun a t => a = .no ∧ t = s := by
    refine .kind ?_
    rcases hkind with hkind | hkind | hkind | hkind
    · rw [hkind]
      exact ⟨rfl, rfl⟩
    · exact absurd hkind hparen
    · rw [hkind]
      exact ⟨rfl, rfl⟩
    · rw [hkind]
      exact ⟨rfl, rfl⟩
  exact .leaves hno (.pure ⟨rfl, .refl h⟩)

/-- Under the number there is the word, which is all that was added, and the token comes next. -/
def IsNameAt (F : Forest) (word : String) (next : Token) (id : NodeId) (u : Token) (G : Forest) : Prop :=
  u = next ∧ G.IsIdentifier id word ∧ F.Gains (· = .identifier) G

section

variable {F G H : Forest} {word : String} {u : Token}

theorem IsNameAt.stays (h : IsNameAt F word next id u G) (hstays : G.Stays H) :
    IsNameAt F word next id u H :=
  ⟨h.1, h.2.1.keeps hstays.keeps, h.2.2.trans (.of_stays hstays)⟩

theorem isOperand_isNameAt (hends : next.kind.endsOperand = true)
    (hopens : next.kind.opensTypeArguments = true → next.Marked text ∧ ∀ i : Nat, text[i]? ≠ some '(') :
    IsOperand text (IsNameAt F word next) where
  stays _ _ _ _ h := h.stays
  ends _ _ _ h := h.1 ▸ hends
  noArguments _ _ _ h := h.1 ▸ hopens

theorem isLone_isNameAt (hends : next.kind.endsOperators = true) : IsLone (IsNameAt F word next) where
  stays _ _ _ _ h := h.stays
  ends _ _ _ h := h.1 ▸ hends

end

/-- A name is an operand. -/
theorem primary_yields_name (h : s.Ok env.file.text) (hkind : s.token.kind = .identifier)
    (hread : s.token.next env.file.text = (next, [])) :
    primary.Ends env s (Yields env.file.text s (IsNameAt s.forest s.token.value next)) := by
  have hname : (identifierOr .expressionExpected).Ends env s
      (Yields env.file.text s (IsNameAt s.forest s.token.value next)) := by
    refine ((identifierOr_yields _ h hkind hread).and (identifierOr_gains _ h hkind)).mono fun id t ht => ?_
    obtain ⟨ht, hgains⟩ := ht
    exact ⟨ht.quiet, ht.took, ht.holds.1, ht.holds.2, hgains⟩
  refine .kind ?_
  rw [hkind]
  exact hname

/-- A name with nothing after it is an expression of operators. -/
theorem binary_yields_name {level : Precedence} (h : env.Supplied rank s)
    (hrank : Production.leftHandSide.rank < rank) (hkind : s.token.kind = .identifier)
    (hread : s.token.next env.file.text = (next, [])) (hends : next.kind.endsOperators = true) :
    (binary level).Ends env s (Yields env.file.text s (IsNameAt s.forest s.token.value next)) := by
  refine binary_yields (isLone_isNameAt hends) h hrank (.inl hkind) fun inner hfile hinner => ?_
  rw [← hfile] at hread ⊢
  exact primary_yields_name hinner.ok hkind hread

/-- A name with nothing after it is an expression without commas. -/
theorem assignment_yields_name (h : env.Supplied Production.assignment.rank s)
    (hdepth : s.scope.depth < maxDepth) (hkind : s.token.kind = .identifier)
    (hread : s.token.next env.file.text = (next, [])) (hends : next.kind.endsExpression = true) :
    assignment.Ends env s (Yields env.file.text s (IsNameAt s.forest s.token.value next)) := by
  let inner := s.atDepth (s.scope.depth + 1)
  have hinner : env.Supplied Production.assignment.rank inner := h.inScope _
  have hopens : inner.token.kind.opensOperand := .inl hkind
  refine assignment_yields hdepth (assignmentBody_yields (X := IsNameAt s.forest s.token.value next)
    hopens.ne_keyword ?_ ?_ ?_ fun t hstill => ?_)
  · refine arrowHeadHere_leaves hinner.ok hopens ?_
    rw [show inner.token.kind = .identifier from hkind]
    simp
  · intro id u F hX
    rw [hX.1]
    exact hends
  · rintro id u F ⟨-, ⟨name, keyword, hshows, -⟩, -⟩
    exact ⟨_, _, hshows⟩
  · have htoken : t.token = s.token := hstill.token
    have hsupplied : env.Supplied Production.assignment.rank t :=
      hinner.later hstill.ok (Nat.le_of_eq (congrArg Token.fullStart htoken).symm)
    rw [← htoken] at hkind hread ⊢
    have hname : (binary .comma).Ends env t _ := binary_yields_name hsupplied (by decide) hkind hread
      (Kind.endsOperators_of_endsExpression hends)
    refine hname.mono fun id u hu => hu.mono fun id u F hX => ⟨hX.1, hX.2.1, ?_⟩
    exact (Forest.Gains.of_stays hstill.stays).trans hX.2.2

/-- A name with nothing after it is a whole expression. -/
theorem parse_expression_yields_name (h : env.Supplied Production.topRank s)
    (hdepth : s.scope.depth < maxDepth) (hkind : s.token.kind = .identifier)
    (hread : s.token.next env.file.text = (next, [])) (hends : next.kind.endsExpression = true)
    (hcomma : next.kind ≠ .punct .comma) :
    (parse .expression).Ends env s (Yields env.file.text s (IsNameAt s.forest s.token.value next)) := by
  refine parse_of_body h (by decide) fun inner hfile hinner => ?_
  rw [← hfile] at hread ⊢
  refine expression_yields hinner ?_ fun context inner' hfile' hinner' _ => ?_
  · intro id u F hX
    rw [hX.1]
    exact hcomma
  · rw [← hfile'] at hread ⊢
    exact assignment_yields_name hinner' hdepth hkind hread hends

end Parser

end ScriptSyntax
