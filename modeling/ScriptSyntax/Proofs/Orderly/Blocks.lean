/-
  ScriptSyntax/Proofs/Orderly/Blocks.lean
  =======================================
  No expression is a block.

  An expression ends with a node of its own kind, with a call of another
  expression, or with an operand that was read before and that nothing has taken
  away since.  So this holds from every state and whatever the text is, if only
  the calls inside are no blocks and add to what there was.
-/
import ScriptSyntax.Proofs.Orderly.Statements

namespace ScriptSyntax

/-! ## 1. Rules -/

theorem ParserState.HoldsExpression.adds {s t : ParserState} {id : NodeId} (h : s.HoldsExpression id)
    (hadds : s.Adds t) : t.HoldsExpression id := by
  intro hfault
  obtain ⟨n, hn, hkind⟩ := h (hadds.fault hfault)
  exact ⟨n, hadds.grows.get? hn, hkind⟩

/-- Calls only add to what there was, and an expression never comes to a block. -/
structure Surroundings.Expresses (env : Surroundings) : Prop where
  adds : env.Adds
  call : ∀ q : Production, q.isExpression = true → ∀ s : ParserState,
    (env.call q s).2.HoldsExpression (env.call q s).1

namespace Parser

variable {α β : Type} {env : Surroundings} {s t : ParserState} {id : NodeId}
variable {p : Parser α} {f : α → Parser β} {Q : β → ParserState → Prop}

/-- From the state, the parser comes to something that is no block. -/
abbrev Expresses (p : Parser NodeId) (env : Surroundings) (s : ParserState) : Prop :=
  p.Ends env s fun id t => t.HoldsExpression id

/-- What a step comes to does not matter. -/
theorem Ends.skip (h : ∀ a t, (f a).Ends env t Q) : (p >>= f).Ends env s Q :=
  h _ _

/-- An operand that was read before is still there after a step. -/
theorem Ends.pass (henv : env.Adds) (hp : Orderly true p) (hs : s.HoldsExpression id)
    (h : ∀ a t, t.HoldsExpression id → (f a).Ends env t Q) : (p >>= f).Ends env s Q :=
  h _ _ (hs.adds (hp.adds henv s))

theorem finishAt_expresses {n : Node} (h : n.kind ≠ .node .block) : (finishAt n).Expresses env s :=
  fun _ => ⟨_, Arena.get?_push_self _ _, h⟩

theorem finish_expresses {n : Node} (h : n.kind ≠ .node .block) : (finish n).Expresses env s := by
  show (do
    if s.pos < n.pos then fail (.backwardsNode n.kind s.pos n.pos)
    finishAt { n with stop := max s.pos n.pos } : Parser NodeId).Expresses env s
  split
  · exact .skip fun _ _ => finishAt_expresses h
  · exact finishAt_expresses h

theorem finishNode_expresses {kind : Kind} {pos : Nat} {payload : Payload} (h : kind ≠ .node .block) :
    (finishNode kind pos payload).Expresses env s :=
  finish_expresses h

theorem finishProduction_expresses {kind : NodeKind} {pos : Nat} {payload : Payload}
    (h : kind ≠ .block) : (finishProduction kind pos payload).Expresses env s :=
  finish_expresses fun hkind => h (Kind.node.inj hkind)

theorem finishFlagged_expresses {kind : NodeKind} {pos : Nat} {flags : NodeFlags} {payload : Payload}
    (h : kind ≠ .block) : (finishFlagged kind pos flags payload).Expresses env s :=
  finish_expresses fun hkind => h (Kind.node.inj hkind)

theorem finishDeclaration_expresses {kind : NodeKind} {start : DeclarationStart} {payload : Payload}
    (h : kind ≠ .block) : (finishDeclaration kind start payload).Expresses env s :=
  finish_expresses fun hkind => h (Kind.node.inj hkind)

theorem call_expresses {q : Production} (henv : env.Expresses) (hq : q.isExpression = true) :
    (parse q).Expresses env s :=
  henv.call q hq s

theorem withContext_expresses {g : ContextFlags → ContextFlags} {p : Parser NodeId}
    (hp : ∀ s, p.Expresses env s) : (withContext g p).Expresses env s :=
  hp (s.inContext (g s.scope.context))

theorem tokenNode_expresses (h : s.token.kind ≠ .node .block) : tokenNode.Expresses env s :=
  .token (.skip fun _ _ => finishNode_expresses h)

theorem literalNode_expresses (h : s.token.kind ≠ .node .block) : literalNode.Expresses env s :=
  .token (.skip fun _ _ => finishNode_expresses h)

theorem identifierIf_expresses (allowed : Bool) (m : Message) : (identifierIf allowed m).Expresses env s := by
  refine .skip fun _ _ => .ite (fun _ => ?_) fun _ => ?_
  · exact .skip fun _ _ => .skip fun _ _ => .skip fun _ _ => finishNode_expresses nofun
  · exact .skip fun _ _ => .skip fun _ _ => .skip fun _ _ => finishAt_expresses nofun

theorem identifierOr_expresses (m : Message) : (identifierOr m).Expresses env s :=
  .skip fun _ _ => identifierIf_expresses _ m

/-- The outcome of a turn of a loop over operands is an operand. -/
def Turn.HoldsExpression : Turn NodeId → ParserState → Prop
  | .again id, t | .done id, t => t.HoldsExpression id

theorem again_expresses {p : Parser NodeId} (hp : p.Expresses env s) :
    (do return .again (← p) : Parser (Turn NodeId)).Ends env s Turn.HoldsExpression :=
  Ends.bind hp fun _ _ ht => ht

theorem repeating_expresses {turn : NodeId → Parser (Turn NodeId)} (hs : s.HoldsExpression id)
    (hturn : ∀ id t, t.HoldsExpression id → (turn id).Ends env t Turn.HoldsExpression) :
    (repeating id turn).Expresses env s := by
  have hloop (count : Nat) (id : NodeId) (s : ParserState) (hs : s.HoldsExpression id) :
      (repeatUpTo turn count id).Expresses env s := by
    induction count generalizing id s with
    | zero =>
      intro hfault
      have hsome : (s.fault <|> some Fault.outOfSteps) = none := hfault
      cases h : s.fault <;> simp [h] at hsome
    | succ count ih =>
      refine (hturn id s hs).bind fun outcome t ht => ?_
      cases outcome with
      | again next => exact ih next t ht
      | done result => exact ht
  exact hloop _ id s hs

theorem nested_expresses {p : Parser NodeId} (m : Message) (hp : ∀ s, p.Expresses env s) :
    (nested m p).Ends env s fun result t => t.HoldsExpression result.1 := by
  have hdeep : (tooDeep m).Expresses env s := by
    refine .skip fun _ _ => .token ?_
    extract_lets rest
    have hrest (t : ParserState) : (rest ()).Expresses env t :=
      .skip fun _ _ => .skip fun _ _ => finishNode_expresses nofun
    exact .ite (fun _ => .skip fun _ t => hrest t) fun _ => hrest _
  refine .get ?_
  split
  · exact hdeep.bind fun _ _ ht => ht
  · exact .skip fun _ t => (hp t).bind fun _ _ ht => ht

/-! ## 2. Operands -/

theorem memberByName_expresses (pos : Nat) (object : NodeId) (questionDot : Option NodeId) :
    (memberByName pos object questionDot).Expresses env s :=
  .skip fun _ _ => .skip fun _ _ => finishFlagged_expresses nofun

theorem memberByIndex_expresses (pos : Nat) (object : NodeId) (questionDot : Option NodeId) :
    (memberByIndex pos object questionDot).Expresses env s := by
  refine .skip fun flags _ => .skip fun _ _ => ?_
  extract_lets rest
  have hrest (index : NodeId) (t : ParserState) : (rest index).Expresses env t :=
    .skip fun _ _ => finishFlagged_expresses nofun
  exact .ite (fun _ => .skip hrest) fun _ => .skip hrest

theorem taggedTemplate_expresses (pos : Nat) (tag : NodeId) :
    (taggedTemplate pos tag).Expresses env s := by
  refine .skip fun _ _ => ?_
  extract_lets rest
  have hrest (text : NodeId) (t : ParserState) : (rest text).Expresses env t :=
    finishProduction_expresses nofun
  exact .ite (fun _ => .skip hrest) fun _ => .skip hrest

theorem memberLink_expresses (henv : env.Adds) (pos : Nat) {object : NodeId}
    (questionDot : Option NodeId) (hs : s.HoldsExpression object) :
    (memberLink pos object questionDot).Ends env s Turn.HoldsExpression := by
  refine .pass henv (.and (.pure _) (.isAtPunct _)) hs fun _ t ht => ?_
  extract_lets atTemplate atBracket
  have htemplate (u : ParserState) (hu : u.HoldsExpression object) :
      (atTemplate ()).Ends env u Turn.HoldsExpression := by
    refine .kind ?_
    split
    · exact again_expresses (taggedTemplate_expresses _ _)
    · exact again_expresses (taggedTemplate_expresses _ _)
    · exact hu
  have hbracket (u : ParserState) (hu : u.HoldsExpression object) :
      (atBracket ()).Ends env u Turn.HoldsExpression := by
    refine .context (.ite (fun _ => ?_) fun _ => htemplate u hu)
    refine .pass henv (.acceptPunct _) hu fun _ v hv => .ite (fun _ => ?_) fun _ => htemplate v hv
    exact again_expresses (memberByIndex_expresses _ _ _)
  refine .ite (fun _ => .afterLineBreak (.ite (fun _ => ?_) fun _ => hbracket t ht)) fun _ => hbracket t ht
  exact .skip fun _ _ => again_expresses (finishProduction_expresses nofun)

theorem memberTurn_expresses (henv : env.Adds) (pos : Nat) (optionalAllowed : Bool) {object : NodeId}
    (hs : s.HoldsExpression object) :
    (memberTurn pos optionalAllowed object).Ends env s Turn.HoldsExpression := by
  refine .pass henv (.and (.pure _) startsOptionalMember_orderly) hs fun _ t ht =>
    .ite (fun _ => ?_) fun _ => ?_
  · refine .pass henv (.expectToken _) ht fun _ u hu => .pass henv isName_orderly hu
      fun _ v hv => .ite (fun _ => ?_) fun _ => memberLink_expresses henv _ _ hv
    exact again_expresses (memberByName_expresses _ _ _)
  · refine .pass henv (.acceptPunct _) ht fun _ u hu =>
      .ite (fun _ => ?_) fun _ => memberLink_expresses henv _ _ hu
    exact again_expresses (memberByName_expresses _ _ _)

theorem memberRest_expresses (henv : env.Adds) (pos : Nat) {first : NodeId} (optionalAllowed : Bool)
    (hs : s.HoldsExpression first) : (memberRest pos first optionalAllowed).Expresses env s :=
  repeating_expresses hs fun _ _ ht => memberTurn_expresses henv pos optionalAllowed ht

theorem callTurn_expresses (henv : env.Adds) (pos : Nat) {first : NodeId}
    (hs : s.HoldsExpression first) : (callTurn pos first).Ends env s Turn.HoldsExpression := by
  refine (memberRest_expresses henv pos true hs).bind fun callee t ht => ?_
  refine .pass henv (.acceptToken _) ht fun questionDot u hu => .kind ?_
  extract_lets rest
  have hrest (list : Option NodeArray) (v : ParserState) (hv : v.HoldsExpression callee) :
      (rest list).Ends env v Turn.HoldsExpression := by
    refine .pass henv (.or (.pure _) (.isAtPunct _)) hv fun _ w hw =>
      .ite (fun _ => ?_) fun _ => ?_
    · exact .skip fun _ _ => .skip fun _ _ => again_expresses (finishFlagged_expresses nofun)
    · cases questionDot with
      | none => exact hw
      | some _ =>
        exact .skip fun _ _ => Ends.bind (finishFlagged_expresses nofun) fun _ _ hdone => hdone
  split
  · exact .pass henv callTypeArguments_orderly hu hrest
  · exact .pass henv callTypeArguments_orderly hu hrest
  · exact hrest none u hu

theorem callRest_expresses (henv : env.Adds) (pos : Nat) {first : NodeId} (hs : s.HoldsExpression first) :
    (callRest pos first).Expresses env s :=
  repeating_expresses hs fun _ _ ht => callTurn_expresses henv pos ht

theorem functionExpression_expresses : functionExpression.Expresses env s := by
  refine withContext_expresses fun _ => .skip fun _ _ => .skip fun _ _ => .skip fun _ _ =>
    .skip fun _ _ => .skip fun _ _ => .skip fun _ _ => .skip fun _ _ => .skip fun _ _ => ?_
  exact finishDeclaration_expresses nofun

theorem classLike_expresses {kind : NodeKind} (h : kind ≠ .block) (start : DeclarationStart) :
    (classLike kind start).Expresses env s :=
  .skip fun _ _ => .skip fun _ _ => .skip fun _ _ => .skip fun _ _ => .skip fun _ _ =>
    finishDeclaration_expresses h

theorem newExpression_expresses : newExpression.Expresses env s := by
  refine .skip fun _ _ => .skip fun _ _ => .skip fun _ _ => .ite (fun _ => ?_) fun _ => ?_
  · exact .skip fun _ _ => finishProduction_expresses nofun
  refine .skip fun _ _ => .skip fun _ _ => .skip fun _ _ => .skip fun _ _ => ?_
  extract_lets rest
  have hrest (typeArguments : Option NodeArray) (t : ParserState) :
      (rest typeArguments).Expresses env t := by
    refine .skip fun _ _ => ?_
    extract_lets rest'
    have hrest' (list : Option NodeArray) (u : ParserState) : (rest' list).Expresses env u :=
      finishProduction_expresses nofun
    exact .ite (fun _ => .skip fun _ u => hrest' _ u) fun _ => hrest' _ _
  exact .ite (fun _ => .skip hrest) fun _ => hrest _ _

theorem template_expresses : template.Expresses env s :=
  .skip fun _ _ => .skip fun _ _ => .skip fun _ _ => .skip fun _ _ => .skip fun _ _ =>
    finishProduction_expresses nofun

theorem regularExpression_expresses : regularExpression.Expresses env s := by
  refine .skip fun _ _ => .isAt (.ite (fun hkind => ?_) fun _ => identifierOr_expresses _)
  refine literalNode_expresses ?_
  rw [beq_iff_eq.mp hkind]
  exact nofun

theorem parenthesized_expresses : parenthesized.Expresses env s :=
  .skip fun _ _ => .skip fun _ _ => .skip fun _ _ => .skip fun _ _ => finishProduction_expresses nofun

theorem arrayLiteral_expresses : arrayLiteral.Expresses env s :=
  .skip fun _ _ => .skip fun _ _ => .skip fun _ _ => .skip fun _ _ => .skip fun _ _ =>
    .skip fun _ _ => finishProduction_expresses nofun

theorem objectLiteral_expresses : objectLiteral.Expresses env s :=
  .skip fun _ _ => .skip fun _ _ => .skip fun _ _ => .skip fun _ _ => .skip fun _ _ =>
    .skip fun _ _ => finishProduction_expresses nofun

theorem primary_expresses : primary.Expresses env s := by
  refine .kind ?_
  split
  case h_1 | h_2 | h_3 | h_4 => exact literalNode_expresses (by simp [*])
  case h_5 | h_6 | h_7 | h_8 | h_9 => exact tokenNode_expresses (by simp [*])
  case h_10 => exact parenthesized_expresses
  case h_11 => exact arrayLiteral_expresses
  case h_12 => exact objectLiteral_expresses
  case h_13 =>
    exact .skip fun _ _ => .ite (fun _ => functionExpression_expresses) fun _ => identifierOr_expresses _
  case h_14 => exact .nodePos (classLike_expresses (by decide) _)
  case h_15 => exact functionExpression_expresses
  case h_16 => exact newExpression_expresses
  case h_17 | h_18 => exact regularExpression_expresses
  case h_19 => exact template_expresses
  case h_20 => exact identifierOr_expresses _

theorem memberExpression_expresses (henv : env.Adds) : memberExpression.Expresses env s :=
  .skip fun _ _ => primary_expresses.bind fun _ _ ht => memberRest_expresses henv _ _ ht

theorem superExpression_expresses (hkind : s.token.kind ≠ .node .block) :
    superExpression.Expresses env s := by
  refine .nodePos ((tokenNode_expresses hkind).bind fun word t ht => .kind ?_)
  split
  case h_4 => exact .skip fun _ _ => .skip fun _ _ => finishProduction_expresses nofun
  all_goals exact ht

/-- A question leaves the token as it was. -/
theorem Ends.question {P : β → ParserState → Prop} (henv : env.Adds) (hp : Orderly false p)
    (h : ∀ a t, t.token = s.token → (f a).Ends env t P) : (p >>= f).Ends env s P :=
  h _ _ (hp.stays rfl henv s).token

theorem importExpression_expresses (henv : env.Adds) (pos : Nat) (hkind : s.token.kind ≠ .node .block) :
    (importExpression pos).Expresses env s := by
  refine .question henv (peek_orderly isParenOrLessThan_orderly) fun _ t htoken => .ite (fun _ => ?_) fun _ => ?_
  · exact tokenNode_expresses (by rw [htoken]; exact hkind)
  refine .skip fun _ _ => .ite (fun _ => ?_) fun _ => memberExpression_expresses henv
  exact .skip fun _ _ => .skip fun _ _ => .skip fun _ _ => finishProduction_expresses nofun

theorem leftHandSide_expresses (henv : env.Adds) : leftHandSide.Expresses env s := by
  refine .nodePos (.kind ?_)
  extract_lets rest
  have hrest (first : NodeId) (t : ParserState) (ht : t.HoldsExpression first) :
      (rest first).Expresses env t := callRest_expresses henv _ ht
  split
  · exact (importExpression_expresses henv _ (by simp [*])).bind hrest
  · exact (superExpression_expresses (by simp [*])).bind hrest
  · exact (memberExpression_expresses henv).bind hrest

/-! ## 3. Operators -/

theorem arrowAfterHead_expresses (head : ArrowHead) : (arrowAfterHead head).Expresses env s := by
  unfold arrowAfterHead
  extract_lets isAsync
  refine .skip fun _ _ => .skip fun _ _ => ?_
  extract_lets rest
  have hrest (body : NodeId) (t : ParserState) : (rest body).Expresses env t :=
    finishDeclaration_expresses nofun
  exact .ite (fun _ => .skip hrest) fun _ => .skip hrest

theorem simpleArrow_expresses (start : DeclarationStart) (name : NodeId) :
    (simpleArrow start name).Expresses env s :=
  .skip fun _ _ => .skip fun _ _ => .skip fun _ _ => .skip fun _ _ => .skip fun _ _ =>
    finishDeclaration_expresses nofun

theorem updateExpression_expresses (henv : env.Expresses) : updateExpression.Expresses env s := by
  refine .token (.skip fun _ _ => .ite (fun _ => ?_) fun _ => ?_)
  · exact .skip fun _ _ => .skip fun _ _ => finishProduction_expresses nofun
  refine .skip fun _ _ => .ite (fun _ => call_expresses henv rfl) fun _ => ?_
  refine (call_expresses henv rfl).bind fun operand t ht => .pass henv.adds .kind ht fun _ u hu => ?_
  refine .pass henv.adds (.and isIncrement_orderly (.bind .afterLineBreak fun _ => .pure _)) hu
    fun _ v hv => .ite (fun _ => ?_) fun _ => hv
  exact .skip fun _ _ => finishProduction_expresses nofun

theorem wordOperator_expresses {kind : NodeKind} (h : kind ≠ .block) : (wordOperator kind).Expresses env s :=
  .skip fun _ _ => .skip fun _ _ => .skip fun _ _ => finishProduction_expresses h

theorem simpleUnary_expresses (henv : env.Expresses) : simpleUnary.Expresses env s := by
  refine .kind ?_
  split
  case h_1 | h_2 | h_3 | h_4 =>
    exact .skip fun _ _ => .skip fun _ _ => .skip fun _ _ => finishProduction_expresses nofun
  case h_5 | h_6 | h_7 => exact wordOperator_expresses nofun
  case h_8 =>
    exact .skip fun _ _ => .skip fun _ _ => .skip fun _ _ => .skip fun _ _ => .skip fun _ _ =>
      finishProduction_expresses nofun
  case h_9 =>
    exact .skip fun _ _ => .ite (fun _ => wordOperator_expresses nofun) fun _ => updateExpression_expresses henv
  case h_10 => exact updateExpression_expresses henv

theorem binaryTurn_expresses (henv : env.Adds) (level : Precedence) (pos : Nat) {left : NodeId}
    (hs : s.HoldsExpression left) : (binaryTurn level pos left).Ends env s Turn.HoldsExpression := by
  refine .pass henv (nextOperator_orderly level) hs fun next t ht => ?_
  cases next with
  | none => exact ht
  | some next =>
    refine .isAt (.ite (fun _ => .afterLineBreak (.ite (fun _ => ht) fun _ => ?_)) fun _ => ?_)
    · exact .skip fun _ _ => .skip fun _ _ => again_expresses (finishProduction_expresses nofun)
    · exact .skip fun _ _ => .skip fun _ _ => again_expresses (finishProduction_expresses nofun)

theorem binaryRest_expresses (henv : env.Adds) (level : Precedence) {left : NodeId} (pos : Nat)
    (hs : s.HoldsExpression left) : (binaryRest level left pos).Expresses env s :=
  repeating_expresses hs fun _ _ ht => binaryTurn_expresses henv level pos ht

theorem unary_expresses (henv : env.Expresses) : unary.Expresses env s := by
  refine .skip fun _ _ => .skip fun _ _ => .skip fun _ _ => .ite (fun _ => ?_) fun _ => ?_
  · refine (updateExpression_expresses henv).bind fun operand t ht => .isAt (.ite (fun _ => ?_) fun _ => ht)
    exact binaryRest_expresses henv.adds _ _ ht
  · refine (simpleUnary_expresses henv).bind fun operand t ht => .isAt (.ite (fun _ => ?_) fun _ => ht)
    exact .pass henv.adds (reportPowerBase_orderly _ _) ht fun _ _ hu => hu

theorem binary_expresses (henv : env.Expresses) (level : Precedence) : (binary level).Expresses env s :=
  .skip fun _ _ => (unary_expresses henv).bind fun _ _ ht => binaryRest_expresses henv.adds level _ ht

/-! ## 4. Assignments and expressions -/

theorem conditionalAfter_expresses (henv : env.Adds) {condition : NodeId} (pos : Nat)
    (hs : s.HoldsExpression condition) : (conditionalAfter condition pos).Expresses env s := by
  refine .pass henv (.acceptToken _) hs fun questionMark t ht => ?_
  cases questionMark with
  | none => exact ht
  | some questionMark =>
    refine .skip fun _ _ => .skip fun _ _ => .skip fun _ _ => ?_
    extract_lets rest
    have hrest (whenFalse : NodeId) (u : ParserState) : (rest whenFalse).Expresses env u :=
      finishProduction_expresses nofun
    exact .ite (fun _ => .skip hrest) fun _ => .skip hrest

theorem afterOperators_expresses (henv : env.Adds) (pos : Nat) {first : NodeId}
    (hs : s.HoldsExpression first) : (afterOperators pos first).Expresses env s := by
  refine .pass henv (.kindOf first) hs fun k t ht => ?_
  refine .pass henv (.and (.pure _) (.isAtPunct _)) ht fun _ u hu => .ite (fun _ => ?_) fun _ => ?_
  · exact simpleArrow_expresses _ _
  extract_lets rest
  have hrest (v : ParserState) (hv : v.HoldsExpression first) : (rest ()).Expresses env v :=
    conditionalAfter_expresses henv pos hv
  refine .ite (fun _ => ?_) fun _ => hrest u hu
  refine .pass henv (.advance _) hu fun _ v hv => .kind (.ite (fun _ => ?_) fun _ => hrest v hv)
  exact .skip fun _ _ => .skip fun _ _ => finishProduction_expresses nofun

theorem yieldExpression_expresses : yieldExpression.Expresses env s := by
  refine .skip fun _ _ => .skip fun _ _ => .skip fun _ _ => .ite (fun _ => ?_) fun _ => ?_
  · exact .skip fun _ _ => .skip fun _ _ => finishProduction_expresses nofun
  · exact finishProduction_expresses nofun

theorem assignmentBody_expresses (henv : env.Expresses) : assignmentBody.Expresses env s := by
  refine .skip fun _ _ => .ite (fun _ => yieldExpression_expresses) fun _ => .skip fun head t => ?_
  cases head with
  | some head => exact arrowAfterHead_expresses head
  | none =>
    refine .skip fun _ _ => .ite (fun _ => ?_) fun _ => ?_
    · exact .skip fun _ _ => .skip fun _ _ => .skip fun _ _ => simpleArrow_expresses _ _
    · exact .skip fun _ _ => (binary_expresses henv _).bind fun _ _ ht =>
        afterOperators_expresses henv.adds _ ht

theorem assignment_expresses (henv : env.Expresses) : assignment.Expresses env s :=
  (nested_expresses _ fun _ => assignmentBody_expresses henv).bind fun _ _ ht => ht

theorem expression_expresses (henv : env.Expresses) : expression.Expresses env s := by
  refine withContext_expresses fun _ => .skip fun _ _ => (call_expresses henv rfl).bind fun first t ht => ?_
  refine repeating_expresses ht fun left u hu => .pass henv.adds (.acceptToken _) hu fun operator v hv => ?_
  cases operator with
  | some operator => exact .skip fun _ _ => again_expresses (finishProduction_expresses nofun)
  | none => exact hv

/-! ## 5. Elements -/

theorem jsxOpening_expresses (inExpression : Bool) : (jsxOpening inExpression).Expresses env s := by
  refine .skip fun _ _ => .skip fun _ _ => .isAt (.ite (fun _ => ?_) fun _ => ?_)
  · exact .skip fun _ _ => finishProduction_expresses nofun
  refine .skip fun _ _ => .skip fun _ _ => .isAt (.ite (fun _ => ?_) fun _ => ?_)
  · exact .skip fun _ _ => finishProduction_expresses nofun
  · exact .skip fun _ _ => .skip fun _ _ => finishProduction_expresses nofun

theorem joinJsxSiblings_expresses (first second : NodeId) :
    (joinJsxSiblings first second).Expresses env s :=
  .skip fun _ _ => .skip fun _ _ => .skip fun _ _ => .skip fun _ _ => finishAt_expresses nofun

theorem jsxElement_expresses (henv : env.Adds) (inExpression : Bool) :
    (jsxElement inExpression).Expresses env s := by
  refine .skip fun _ _ => (jsxOpening_expresses inExpression).bind fun opening t ht => ?_
  refine .pass henv (.kindOf opening) ht fun k u hu => ?_
  extract_lets rest
  have hrest (result : NodeId) (v : ParserState) (hv : v.HoldsExpression result) :
      (rest result).Expresses env v := by
    refine .ite (fun _ => .isAt (.ite (fun _ => ?_) fun _ => hv)) fun _ => hv
    refine .pass henv (.attempt nestedJsxElement_orderly) hv fun sibling w hw => ?_
    cases sibling with
    | some sibling => exact joinJsxSiblings_expresses _ _
    | none => exact hw
  split
  · refine Ends.bind ?_ hrest
    exact .skip fun _ _ => .skip fun _ _ => .skip fun _ _ => finishProduction_expresses nofun
  · refine Ends.bind ?_ hrest
    exact .skip fun _ _ => .skip fun _ _ => finishProduction_expresses nofun
  · exact hrest opening u hu

theorem body_expresses (henv : env.Expresses) {q : Production} (hq : q.isExpression = true) :
    q.body.Expresses env s := by
  cases q with
  | expression => exact expression_expresses henv
  | assignment => exact assignment_expresses henv
  | binary level => exact binary_expresses henv level
  | simpleUnary => exact simpleUnary_expresses henv
  | leftHandSide => exact leftHandSide_expresses henv.adds
  | primary => exact primary_expresses
  | jsxElement inExpression => exact jsxElement_expresses henv.adds inExpression
  | _ => cases hq

end Parser

/-- However many calls may enclose each other, no expression is a block. -/
theorem Surroundings.expresses_run (file : SourceFacts) (count : Nat) :
    Surroundings.Expresses ⟨file, Production.run file count⟩ := by
  induction count with
  | zero =>
    refine ⟨adds_run file 0, fun q _ s hfault => ?_⟩
    have hsome : (s.fault <|> some Fault.outOfSteps) = none := hfault
    cases h : s.fault <;> simp [h] at hsome
  | succ count ih => exact ⟨adds_run file _, fun _ hq _ => Parser.body_expresses ih hq⟩

end ScriptSyntax
