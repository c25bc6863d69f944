/-
  ScriptSyntax/Proofs/Orderly/Expressions.lean
  ============================================
  Functions, classes, operands and expressions are orderly.
-/
import ScriptSyntax.Proofs.Orderly.Types

namespace ScriptSyntax.Parser

variable {α β : Type} {moves : Bool} {env : Surroundings} {s : ParserState}

/-- Parsers that go on alike from wherever the first step leads. -/
theorem bind_congr_at {p : Parser α} {f g : α → Parser β} (h : ∀ a t, f a env t = g a env t) :
    (p >>= f) env s = (p >>= g) env s :=
  h _ _

theorem and_eq (p q : Parser Bool) : (p <&&> q) = (p >>= fun b => if b = true then q else pure false) := by
  funext env s
  refine bind_congr_at fun b _ => ?_
  cases b <;> rfl

/-! ## 1. Functions -/

theorem parseStatement_orderly : Orderly true (parse .statement) := .parse trivial

theorem blockWith_orderly (braceOptional : Bool) (m : Option Message) :
    Orderly true (blockWith braceOptional m) := by
  refine .bind .nodePos fun _ => .bind .tokenPos fun _ => .bind (.expectWith _ _) fun _ => .ite ?_ ?_
  · exact .bind .afterLineBreak fun _ => .bind (elements_orderly _ parseStatement_orderly) fun _ =>
      .bind (.expectClosing _ _ _) fun _ => .finishProduction _ _ _
  · exact .bind .missingList fun _ => .finishProduction _ _ _

theorem block_orderly : Orderly true block := blockWith_orderly _ _

theorem functionBodyWith_orderly (mode : SignatureMode) (braceOptional : Bool) (m : Option Message) :
    Orderly true (functionBodyWith mode braceOptional m) :=
  .inFunction _ _ (.outsideDecorator (blockWith_orderly _ _))

theorem functionBody_orderly (mode : SignatureMode) : Orderly true (functionBody mode) :=
  functionBodyWith_orderly _ _ _

theorem optionalFunctionBody_orderly (mode : SignatureMode) (m : Option Message) :
    Orderly true (optionalFunctionBody mode m) := by
  refine .bind (.isAtPunct _) fun _ => .bind .canEndStatement fun _ => .ite ?_ ?_
  · exact .bind .semicolon fun _ => .pure _
  · exact .map (functionBodyWith_orderly _ _ _)

theorem functionParts_orderly (mode : SignatureMode) (asterisk name questionMark : Option NodeId)
    (m : Option Message) : Orderly true (functionParts mode asterisk name questionMark m) :=
  .bind (signature_orderly _) fun _ => .map (optionalFunctionBody_orderly _ _)

theorem functionDeclaration_orderly (start : DeclarationStart) :
    Orderly true (functionDeclaration start) := by
  refine .bind (.expectKeyword _) fun _ => .bind (.acceptToken _) fun asterisk => ?_
  refine .bind (hasModifier_orderly _ _) fun _ => ?_
  extract_lets rest
  have hrest (name : Option NodeId) : Orderly true (rest name) :=
    .bind (functionMode_orderly _ _) fun _ => .bind (functionParts_orderly _ _ _ _ _) fun _ =>
      .finishDeclaration _ _ _
  exact .ite (.bind optionalIdentifier_orderly hrest)
    (.bind identifier_orderly fun _ => .bind (.pure _) hrest)

theorem functionExpression_orderly : Orderly true functionExpression := by
  refine .outsideDecorator (.bind .nodePos fun _ => .bind (modifiers_orderly _) fun _ => ?_)
  refine .bind (.expectKeyword _) fun _ => .bind (.acceptToken _) fun _ => ?_
  refine .bind (functionMode_orderly _ _) fun _ => ?_
  refine .bind (.inFunction _ _ optionalIdentifier_orderly) fun _ => .bind (signature_orderly _) fun _ => ?_
  exact .bind (functionBody_orderly _) fun _ => .finishDeclaration _ _ _

theorem accessor_orderly (kind : NodeKind) (start : DeclarationStart) :
    Orderly true (accessor kind start) :=
  .bind propertyName_orderly fun _ => .bind (functionParts_orderly _ _ _ _ _) fun _ =>
    .finishDeclaration _ _ _

theorem constructorMember_orderly (start : DeclarationStart) : Orderly true (constructorMember start) :=
  .bind (.expectKeyword _) fun _ => .bind (functionParts_orderly _ _ _ _ _) fun _ =>
    .finishDeclaration _ _ _

theorem methodAfterName_orderly (start : DeclarationStart) (asterisk : Option NodeId) (name : NodeId)
    (questionMark : Option NodeId) (m : Option Message) :
    Orderly true (methodAfterName start asterisk name questionMark m) :=
  .bind (functionMode_orderly _ _) fun _ => .bind (functionParts_orderly _ _ _ _ _) fun _ =>
    .finishDeclaration _ _ _

/-! ## 2. Classes -/

theorem heritageElement_orderly : Orderly true heritageElement := by
  refine .bind .nodePos fun _ => .bind (.parse trivial) fun _ => .bind (.isAtPunct _) fun _ => ?_
  extract_lets rest
  have hrest (arguments : Option NodeArray) : Orderly true (rest arguments) := .finishProduction _ _ _
  exact .ite (.bind typeArguments_orderly fun _ => .bind (.pure _) hrest) (.bind (.pure _) hrest)

theorem heritageClause_orderly : Orderly true heritageClause :=
  .bind .token fun _ => .bind .nextToken fun _ =>
    .bind (separated_orderly _ heritageElement_orderly) fun _ => .finishProduction _ _ _

theorem heritageClauses_orderly : Orderly true heritageClauses :=
  .bind startsHeritageClause_orderly fun _ => .ite
    (.map (elements_orderly _ heritageClause_orderly)) (.pure _)

theorem propertyAfterName_orderly (start : DeclarationStart) (name : NodeId)
    (questionMark : Option NodeId) : Orderly true (propertyAfterName start name questionMark) := by
  refine .bind typeAnnotation_orderly fun _ => .bind (hasModifier_orderly _ _) fun _ => ?_
  extract_lets rest
  have hrest (initializer : Option NodeId) : Orderly true (rest initializer) :=
    .bind .semicolon fun _ => .finishDeclaration _ _ _
  exact .ite (.bind (.allowIn initializer_orderly) hrest)
    (.bind (.withContext (fun _ _ => rfl) initializer_orderly) hrest)

theorem propertyOrMethod_orderly (start : DeclarationStart) : Orderly true (propertyOrMethod start) :=
  .bind (.acceptToken _) fun _ => .bind propertyName_orderly fun _ => .bind (.acceptToken _) fun _ =>
    .bind (.or (.pure _) isParenOrLessThan_orderly) fun _ =>
      .ite (methodAfterName_orderly _ _ _ _ _) (propertyAfterName_orderly _ _ _)

theorem startsMemberName_orderly : Orderly moves startsMemberName := .kindIs _

theorem memberAfterModifiers_orderly (start : DeclarationStart) :
    Orderly true (memberAfterModifiers start) := by
  refine .bind (acceptContextualWord_orderly _) fun _ => .ite (accessor_orderly _ _) ?_
  refine .bind (acceptContextualWord_orderly _) fun _ => .ite (accessor_orderly _ _) ?_
  refine .bind (.isAtKeyword _) fun _ => .ite (constructorMember_orderly _) ?_
  refine .bind startsIndexSignature_orderly fun _ => .ite (indexSignature_orderly _) ?_
  refine .bind startsMemberName_orderly fun _ => .ite (propertyOrMethod_orderly _) ?_
  exact .bind (.missingBefore _ _ _) fun _ => propertyAfterName_orderly _ _ _

theorem classMember_orderly : Orderly true classMember :=
  .bind .nodePos fun _ => .bind (.acceptPunct _) fun _ => .ite (.finishProduction _ _ _)
    (.bind decorators_orderly fun _ => .bind (modifiers_orderly _) fun _ =>
      memberAfterModifiers_orderly _)

theorem className_orderly : Orderly true className :=
  .bind isIdentifier_orderly fun _ => .ite
    (.bind (.and (.isAtKeyword _) (peek_orderly isName_orderly)) fun _ =>
      .ite (.pure _) (.map identifier_orderly)) (.pure _)

theorem classMembers_orderly : Orderly true classMembers :=
  .bind (.expectPunct _) fun _ => .ite
    (.bind (elements_orderly _ classMember_orderly) fun _ => .bind (.expectPunct _) fun _ => .pure _)
    .missingList

theorem classLike_orderly (kind : NodeKind) (start : DeclarationStart) :
    Orderly true (classLike kind start) :=
  .bind (.expectKeyword _) fun _ => .bind className_orderly fun _ => .bind typeParameters_orderly fun _ =>
    .bind heritageClauses_orderly fun _ => .bind classMembers_orderly fun _ => .finishDeclaration _ _ _

theorem interfaceDeclaration_orderly (start : DeclarationStart) :
    Orderly true (interfaceDeclaration start) :=
  .bind (.expectKeyword _) fun _ => .bind identifier_orderly fun _ => .bind typeParameters_orderly fun _ =>
    .bind heritageClauses_orderly fun _ => .bind typeMembers_orderly fun _ => .finishDeclaration _ _ _

/-! ## 3. Arguments and literals -/

theorem arrayElement_orderly : Orderly true arrayElement := by
  refine .bind .kind fun k => ?_
  split
  · exact .bind .nodePos fun _ => .bind .nextToken fun _ => .bind (.parse trivial) fun _ =>
      .finishProduction _ _ _
  · exact .bind .nodePos fun _ => .finishProduction _ _ _
  · exact .parse trivial

theorem argument_orderly : Orderly true argument := .allowIn (.outsideDecorator arrayElement_orderly)

theorem arguments_orderly : Orderly true arguments :=
  .bind (.expectPunct _) fun _ => .bind (separated_orderly _ argument_orderly) fun _ =>
    .bind (.expectPunct _) fun _ => .pure _

theorem typeArgumentsBeforeParen_orderly : Orderly true typeArgumentsBeforeParen := by
  refine .bind (.advance _) fun _ => .bind (.isAtPunct _) fun _ => .ite ?_ (.pure _)
  refine .bind .nextToken fun _ => .bind (separated_orderly _ parseType_orderly) fun _ => ?_
  exact .bind (.expectPunct _) fun _ => .ite (.bind (.isAtPunct _) fun _ => .ite (.pure _) (.pure _))
    (.pure _)

theorem callTypeArguments_orderly : Orderly true callTypeArguments :=
  .attempt typeArgumentsBeforeParen_orderly

theorem arrayLiteral_orderly : Orderly true arrayLiteral :=
  .bind .nodePos fun _ => .bind .tokenPos fun _ => .bind (.expectPunct _) fun _ =>
    .bind .afterLineBreak fun _ => .bind (separated_orderly _ arrayElement_orderly) fun _ =>
      .bind (.expectClosing _ _ _) fun _ => .finishProduction _ _ _

theorem acceptAccessorWord_orderly (k : Keyword) : Orderly true (acceptAccessorWord k) :=
  .bind (.isAtKeyword _) fun _ => .ite
    (.attemptIf (afterNext_orderly (onSameLine_orderly (.or (.isAtPunct _) isPropertyName_orderly))))
    (.pure _)

theorem shorthandProperty_orderly (start : DeclarationStart) (name : NodeId)
    (questionMark : Option NodeId) : Orderly true (shorthandProperty start name questionMark) := by
  refine .bind (.acceptToken _) fun equalsSign => ?_
  extract_lets rest
  have hrest (initializer : Option NodeId) : Orderly true (rest initializer) := .finishDeclaration _ _ _
  exact .ite (.bind (.allowIn (.parse trivial)) fun _ => .bind (.pure _) hrest) (.bind (.pure _) hrest)

theorem propertyAssignment_orderly (start : DeclarationStart) (name : NodeId)
    (questionMark : Option NodeId) : Orderly true (propertyAssignment start name questionMark) :=
  .bind (.expectPunct _) fun _ => .bind (.allowIn (.parse trivial)) fun _ => .finishDeclaration _ _ _

theorem objectProperty_orderly (start : DeclarationStart) : Orderly true (objectProperty start) := by
  refine .bind (.acceptToken _) fun _ => .bind isIdentifier_orderly fun _ => ?_
  refine .bind propertyName_orderly fun _ => .bind (.acceptToken _) fun _ => ?_
  refine .bind (.or (.pure _) isParenOrLessThan_orderly) fun _ =>
    .ite (methodAfterName_orderly _ _ _ _ _) ?_
  exact .bind (.isAtPunct _) fun _ =>
    .ite (shorthandProperty_orderly _ _ _) (propertyAssignment_orderly _ _ _)

theorem objectMember_orderly : Orderly true objectMember := by
  refine .bind .nodePos fun _ => .bind (.acceptPunct _) fun _ => .ite ?_ ?_
  · exact .bind (.parse trivial) fun _ => .finishProduction _ _ _
  · refine .bind decorators_orderly fun _ => .bind (modifiers_orderly _) fun _ => ?_
    refine .bind (acceptAccessorWord_orderly _) fun _ => .ite (accessor_orderly _ _) ?_
    exact .bind (acceptAccessorWord_orderly _) fun _ => .ite (accessor_orderly _ _)
      (objectProperty_orderly _)

theorem objectLiteral_orderly : Orderly true objectLiteral :=
  .bind .nodePos fun _ => .bind .tokenPos fun _ => .bind (.expectPunct _) fun _ =>
    .bind .afterLineBreak fun _ => .bind (separatedWith_orderly _ objectMember_orderly _) fun _ =>
      .bind (.expectClosing _ _ _) fun _ => .finishProduction _ _ _

theorem templateSpan_orderly : Orderly true templateSpan := by
  refine .bind .nodePos fun _ => .bind (.allowIn (.parse trivial)) fun _ => .bind (.isAtPunct _) fun _ => ?_
  extract_lets rest
  have hrest (text : NodeId) : Orderly true (rest text) :=
    .bind (.kindOf _) fun _ => .map (.finishProduction _ _ _)
  exact .ite (.bind (.advance _) fun _ => .bind .literalNode hrest) (.bind (.missingHere _ _ _) hrest)

theorem template_orderly : Orderly true template := by
  refine .bind .nodePos fun _ => .bind .literalNode fun _ => .bind .nodePos fun _ => ?_
  refine .bind (.repeating (fun read => .bind templateSpan_orderly fun (span, goesOn) => ?_) _) fun _ =>
    .bind .nodePos fun _ => .finishProduction _ _ _
  exact .pure _

/-! ## 4. Chains -/

theorem linkFlags_orderly (object : NodeId) (questionDot : Option NodeId) :
    Orderly moves (linkFlags object questionDot) :=
  .ite (.pure _) (.node (fun _ _ => rfl) fun _ => .pure _)

/-- The flags of a link show no context. -/
theorem linkFlags_bind {β : Type} {f : NodeFlags → Parser β} (object : NodeId)
    (questionDot : Option NodeId) (h : ∀ flags, flags.context = {} → Orderly true (f flags)) :
    Orderly true (linkFlags object questionDot >>= f) := by
  refine .bindOf (linkFlags_orderly object questionDot) (fun env s => ?_) h
  cases questionDot <;> rfl

theorem startsOptionalMember_orderly : Orderly moves startsOptionalMember :=
  .and (.isAtPunct _) (peek_orderly (.kindIs _))

theorem memberByName_orderly (pos : Nat) (object : NodeId) (questionDot : Option NodeId) :
    Orderly true (memberByName pos object questionDot) :=
  linkFlags_bind _ _ fun _ hflags =>
    .bind (nameAfterDot_orderly _) fun _ => .finishFlagged _ _ hflags _

theorem memberByIndex_orderly (pos : Nat) (object : NodeId) (questionDot : Option NodeId) :
    Orderly true (memberByIndex pos object questionDot) := by
  refine linkFlags_bind _ _ fun flags hflags => ?_
  refine .bind (.isAtPunct _) fun _ => ?_
  extract_lets rest
  have hrest (index : NodeId) : Orderly true (rest index) :=
    .bind (.expectPunct _) fun _ => .finishFlagged _ _ hflags _
  exact .ite (.bind (.missingBefore _ _ _) hrest) (.bind (.allowIn (.parse trivial)) hrest)

theorem taggedTemplate_orderly (pos : Nat) (tag : NodeId) : Orderly true (taggedTemplate pos tag) := by
  refine .bind (.isAt _) fun _ => ?_
  extract_lets rest
  have hrest (text : NodeId) : Orderly true (rest text) := .finishProduction _ _ _
  exact .ite (.bind .literalNode hrest) (.bind template_orderly hrest)

theorem memberLink_orderly (pos : Nat) (object : NodeId) (questionDot : Option NodeId) :
    Orderly true (memberLink pos object questionDot) := by
  refine .bind (.and (.pure _) (.isAtPunct _)) fun _ => ?_
  extract_lets atTemplate atBracket
  have htemplate : Orderly true (atTemplate ()) := by
    refine .bind .kind fun k => ?_
    split
    · exact .map (taggedTemplate_orderly _ _)
    · exact .map (taggedTemplate_orderly _ _)
    · exact .pure _
  have hbracket : Orderly true (atBracket ()) := by
    refine .context (fun _ _ => rfl) fun c => ?_
    exact .ite (.bind (.acceptPunct _) fun _ => .ite (.map (memberByIndex_orderly _ _ _)) htemplate)
      htemplate
  refine .ite (.bind .afterLineBreak fun _ => .ite ?_ hbracket) hbracket
  exact .bind .nextToken fun _ => .map (.finishProduction _ _ _)

theorem memberTurn_orderly (pos : Nat) (optionalAllowed : Bool) (object : NodeId) :
    Orderly true (memberTurn pos optionalAllowed object) := by
  refine .bind (.and (.pure _) startsOptionalMember_orderly) fun _ => .ite ?_ ?_
  · exact .bind (.expectToken _) fun _ => .bind isName_orderly fun _ =>
      .ite (.map (memberByName_orderly _ _ _)) (memberLink_orderly _ _ _)
  · exact .bind (.acceptPunct _) fun _ =>
      .ite (.map (memberByName_orderly _ _ _)) (memberLink_orderly _ _ _)

theorem memberRest_orderly (pos : Nat) (first : NodeId) (optionalAllowed : Bool) :
    Orderly true (memberRest pos first optionalAllowed) :=
  .repeating (memberTurn_orderly pos optionalAllowed) _

theorem callTurn_orderly (pos : Nat) (first : NodeId) : Orderly true (callTurn pos first) := by
  refine .bind (memberRest_orderly _ _ _) fun callee => .bind (.acceptToken _) fun questionDot => ?_
  refine .bind .kind fun k => ?_
  extract_lets rest
  have hrest (typeArguments : Option NodeArray) : Orderly true (rest typeArguments) := by
    refine .bind (.or (.pure _) (.isAtPunct _)) fun _ => .ite ?_ ?_
    · exact linkFlags_bind _ _ fun _ hflags =>
        .bind arguments_orderly fun _ => .map (.finishFlagged _ _ hflags _)
    · cases questionDot with
      | none => exact .pure _
      | some _ => exact .bind (.missingHere _ _ _) fun _ => .map (.finishFlagged _ _ rfl _)
  split
  · exact .bind callTypeArguments_orderly hrest
  · exact .bind callTypeArguments_orderly hrest
  · exact .bind (.pure _) hrest

theorem callRest_orderly (pos : Nat) (first : NodeId) : Orderly true (callRest pos first) :=
  .repeating (callTurn_orderly pos) _

/-! ## 5. Operands -/

theorem parenthesized_orderly : Orderly true parenthesized :=
  .bind .nodePos fun _ => .bind (.expectPunct _) fun _ => .bind (.allowIn (.parse trivial)) fun _ =>
    .bind (.expectPunct _) fun _ => .finishProduction _ _ _

theorem newExpression_orderly : Orderly true newExpression := by
  refine .bind .nodePos fun pos => .bind (.expectKeyword _) fun _ => .bind (.acceptPunct _) fun _ =>
    .ite (.bind name_orderly fun _ => .finishProduction _ _ _) ?_
  refine .bind .nodePos fun _ => .bind (.parse trivial) fun _ => .bind (memberRest_orderly _ _ _) fun callee => ?_
  refine .bind (.isAtPunct _) fun _ => ?_
  extract_lets rest
  have hrest (typeArguments : Option NodeArray) : Orderly true (rest typeArguments) := by
    refine .bind (.isAtPunct _) fun _ => ?_
    extract_lets rest'
    have hrest' (list : Option NodeArray) : Orderly true (rest' list) := .finishProduction _ _ _
    exact .ite (.bind arguments_orderly fun _ => .bind (.pure _) hrest') (.bind (.pure _) hrest')
  exact .ite (.bind callTypeArguments_orderly hrest) (.bind (.pure _) hrest)

theorem regularExpression_orderly : Orderly true regularExpression :=
  .bind (.advance _) fun _ => .bind (.isAt _) fun _ => .ite .literalNode (identifierOr_orderly _)

theorem primary_orderly : Orderly true primary := by
  refine .bind .kind fun k => ?_
  split
  case h_1 | h_2 | h_3 | h_4 => exact .literalNode
  case h_5 | h_6 | h_7 | h_8 | h_9 => exact .tokenNode
  case h_10 => exact parenthesized_orderly
  case h_11 => exact arrayLiteral_orderly
  case h_12 => exact objectLiteral_orderly
  case h_13 =>
    exact .bind (peek_orderly (onSameLine_orderly (.isAtKeyword _))) fun _ =>
      .ite functionExpression_orderly (identifierOr_orderly _)
  case h_14 => exact .bind .nodePos fun _ => classLike_orderly _ _
  case h_15 => exact functionExpression_orderly
  case h_16 => exact newExpression_orderly
  case h_17 | h_18 => exact regularExpression_orderly
  case h_19 => exact template_orderly
  case h_20 => exact identifierOr_orderly _

theorem memberExpression_orderly : Orderly true memberExpression :=
  .bind .nodePos fun _ => .bind primary_orderly fun _ => memberRest_orderly _ _ _

theorem superExpression_orderly : Orderly true superExpression := by
  refine .bind .nodePos fun _ => .bind .tokenNode fun _ => .bind .kind fun k => ?_
  split
  case h_4 =>
    exact .bind (.require _ _) fun _ => .bind (nameAfterDot_orderly _) fun _ => .finishProduction _ _ _
  all_goals exact .pure _

theorem importExpression_orderly (pos : Nat) : Orderly true (importExpression pos) := by
  refine .bind (peek_orderly isParenOrLessThan_orderly) fun _ => .ite .tokenNode ?_
  refine .bind (peek_orderly (.isAtPunct _)) fun _ => .ite ?_ memberExpression_orderly
  exact .bind .nextToken fun _ => .bind .nextToken fun _ => .bind name_orderly fun _ =>
    .finishProduction _ _ _

theorem leftHandSide_orderly : Orderly true leftHandSide := by
  refine .bind .nodePos fun pos => .bind .kind fun k => ?_
  extract_lets rest
  have hrest (first : NodeId) : Orderly true (rest first) := callRest_orderly _ _
  split
  · exact .bind (importExpression_orderly _) hrest
  · exact .bind superExpression_orderly hrest
  · exact .bind memberExpression_orderly hrest

/-! ## 6. Arrow functions -/

theorem arrowAfterName_orderly : Orderly true arrowAfterName := by
  refine .bind .nextKind fun k => ?_
  split
  case h_2 =>
    refine .bind .nextKind fun next => ?_
    split <;> exact .pure _
  all_goals exact .pure _

theorem isModifiedParameter_orderly (word : Kind) : Orderly moves (isModifiedParameter word) :=
  .ite (peek_orderly isIdentifier_orderly) (.pure _)

theorem arrowAfterParen_orderly : Orderly true arrowAfterParen := by
  refine .bind .nextKind fun k => ?_
  split
  case h_1 =>
    refine .bind .nextKind fun next => ?_
    split <;> exact .pure _
  case h_5 =>
    refine .bind (isModifiedParameter_orderly _) fun _ => .ite (.pure _) ?_
    exact .bind (.or isIdentifier_orderly (.isAtKeyword _)) fun _ => .ite arrowAfterName_orderly (.pure _)
  all_goals exact .pure _

theorem typeParameterAhead_orderly : Orderly true typeParameterAhead := by
  refine .bind .nextKind fun k => ?_
  split
  case h_1 =>
    refine .bind .nextKind fun next => ?_
    split <;> exact .pure _
  all_goals exact .pure _

theorem typeParameterFollows_orderly : Orderly moves typeParameterFollows :=
  .lookAhead typeParameterAhead_orderly

/-- After an opening angle bracket, in a file in which tags are part of the syntax or not. -/
def arrowAfterLessThanIn (isJsx : Bool) : Parser ArrowAnswer := do
  nextToken
  if ← isIdentifier then
    if isJsx then return ArrowAnswer.certain (← typeParameterFollows)
    else return .unclear
  else return .no

theorem arrowAfterLessThan_eq (env : Surroundings) (s : ParserState) :
    arrowAfterLessThan env s = arrowAfterLessThanIn (env.file.variant == .jsx) env s := by
  refine bind_congr_at fun _ _ => bind_congr_at fun found t => ?_
  cases found <;> rfl

theorem arrowAfterLessThanIn_orderly (isJsx : Bool) : Orderly true (arrowAfterLessThanIn isJsx) :=
  .bind .nextToken fun _ => .bind isIdentifier_orderly fun _ => .ite
    (.ite (.map typeParameterFollows_orderly) (.pure _)) (.pure _)

theorem arrowAtOpening_orderly : Orderly true arrowAtOpening := by
  refine .lessThan (g := fun v => arrowAfterLessThanIn (v == .jsx)) arrowAfterLessThan_eq (fun _ => arrowAfterLessThanIn_orderly _) fun k hkind => ?_
  split
  · exact arrowAfterParen_orderly
  · exact absurd rfl hkind
  · exact .pure _

theorem arrowAfterAsync_orderly : Orderly true arrowAfterAsync :=
  .bind .nextToken fun _ => .bind .afterLineBreak fun _ => .ite (.pure _) arrowAtOpening_orderly

theorem startsArrow_orderly : Orderly moves startsArrow := by
  refine .bind .kind fun k => ?_
  split
  · exact .lookAhead arrowAtOpening_orderly
  · exact .lookAhead arrowAtOpening_orderly
  · exact .lookAhead arrowAfterAsync_orderly
  · exact .pure _
  · exact .pure _

theorem startsAsyncSimpleArrow_orderly : Orderly moves startsAsyncSimpleArrow :=
  .bind (.isAtKeyword _) fun _ => .ite
    (peek_orderly (onSameLine_orderly (.and isIdentifier_orderly
      (afterNext_orderly (onSameLine_orderly (.isAtPunct _)))))) (.pure _)

theorem startsBareStatement_orderly : Orderly moves startsBareStatement := by
  refine .bind .kind fun k => ?_
  split
  case h_4 =>
    exact .bind startsStatement_orderly fun _ => .ite (.map startsExpressionStatement_orderly) (.pure _)
  all_goals exact .pure _

theorem arrowBody_orderly (isAsync : Bool) : Orderly true (arrowBody isAsync) :=
  .bind (.isAtPunct _) fun _ => .ite (functionBody_orderly _) (.bind startsBareStatement_orderly fun _ =>
    .ite (functionBodyWith_orderly _ _ _) (.withContext (fun _ _ => rfl) (.parse trivial)))

theorem arrowHead_orderly (certain : Bool) : Orderly true (arrowHead certain) := by
  refine .bind .nodePos fun _ => .bind arrowModifiers_orderly fun _ => ?_
  refine .bind (signatureIf_orderly (fun _ => typeAfterColon_orderly _) _) fun shape => ?_
  cases shape with
  | none => exact .pure _
  | some shape =>
    refine .ite (.pure _) (.bind .kind fun k => ?_)
    split <;> exact .pure _

theorem arrowHeadHere_orderly : Orderly true arrowHeadHere := by
  refine .bind startsArrow_orderly fun answer => ?_
  cases answer with
  | no => exact .pure _
  | yes => exact arrowHead_orderly _
  | unclear => exact .attempt (arrowHead_orderly _)

theorem arrowAfterHead_orderly (head : ArrowHead) : Orderly true (arrowAfterHead head) := by
  refine .bind (.kindIs _) fun _ => .bind (.expectToken _) fun arrow => ?_
  extract_lets rest
  have hrest (body : NodeId) : Orderly true (rest body) := .finishDeclaration _ _ _
  exact .ite (.bind (arrowBody_orderly _) hrest) (.bind identifier_orderly hrest)

theorem simpleArrow_orderly (start : DeclarationStart) (name : NodeId) :
    Orderly true (simpleArrow start name) := by
  refine .node (fun _ _ => rfl) fun _ => .bind (.finishProduction _ _ _) fun _ => ?_
  refine .node (fun _ _ => rfl) fun _ => .bind (.expectToken _) fun _ => ?_
  exact .bind (arrowBody_orderly _) fun _ => .finishDeclaration _ _ _

theorem asyncSimpleArrow_orderly : Orderly true asyncSimpleArrow :=
  .bind .nodePos fun _ => .bind arrowModifiers_orderly fun _ => .bind identifier_orderly fun _ =>
    simpleArrow_orderly _ _

/-! ## 7. Operators -/

theorem startsUpdate_orderly : Orderly moves startsUpdate := by
  refine .lessThan (g := fun v => pure (v == .jsx)) (fun _ _ => rfl) (fun _ => .pure _) fun k hkind => ?_
  split
  case h_9 => exact absurd rfl hkind
  all_goals exact .pure _

theorem isIncrement_orderly : Orderly moves isIncrement := .kindIs _

/-- It does not matter what is asked first, the file or the token. -/
theorem startsJsx_eq : startsJsx = (do
    if (← kind) == .punct .lessThan then
      isJsxFile <&&> peek (kindIs fun k => k.isName || k == .punct .greaterThan)
    else return false) := by
  funext env s
  rw [startsJsx, and_eq, and_eq, and_eq]
  have hfile {f : Bool → Parser Bool} :
      (isJsxFile >>= f) env s = f (env.file.variant == .jsx) env s := rfl
  have hhere {f : Bool → Parser Bool} :
      (isAtPunct .lessThan >>= f) env s = f (s.token.kind == .punct .lessThan) env s := rfl
  have hkind {f : Kind → Parser Bool} : (kind >>= f) env s = f s.token.kind env s := rfl
  rw [hfile, hkind]
  cases hjsx : env.file.variant == .jsx <;> cases hat : s.token.kind == .punct .lessThan
  all_goals simp [hfile, hhere, hjsx, hat]

theorem startsJsx_orderly : Orderly moves startsJsx := by
  rw [startsJsx_eq]
  refine .lessThan (g := fun v => pure (v == .jsx)
    <&&> peek (kindIs fun k => k.isName || k == .punct .greaterThan)) (fun _ _ => rfl)
    (fun _ => .and (.pure _) (peek_orderly (.kindIs _))) fun k hkind => ?_
  rw [beq_false_of_ne hkind]
  exact .pure _

theorem updateExpression_orderly : Orderly true updateExpression := by
  refine .bind .token fun t => .bind isIncrement_orderly fun _ => .ite ?_ ?_
  · exact .bind .nextToken fun _ => .bind (.parse trivial) fun _ => .finishProduction _ _ _
  · refine .bind startsJsx_orderly fun _ => .ite (.parse trivial) ?_
    refine .bind (.parse trivial) fun _ => .bind .kind fun _ => ?_
    refine .bind (.and isIncrement_orderly (.map .afterLineBreak)) fun _ => .ite ?_ (.pure _)
    exact .bind .nextToken fun _ => .finishProduction _ _ _

theorem isAwaitExpression_orderly : Orderly moves isAwaitExpression :=
  .context (fun _ _ => rfl) fun _ => .ite (.pure _) (peek_orderly isNameOrLiteralOnSameLine_orderly)

theorem wordOperator_orderly (kind : NodeKind) : Orderly true (wordOperator kind) :=
  .bind .nodePos fun _ => .bind .nextToken fun _ => .bind (.parse trivial) fun _ =>
    .finishProduction _ _ _

theorem typeAssertion_orderly : Orderly true typeAssertion :=
  .bind .nodePos fun _ => .bind (.expectPunct _) fun _ => .bind (.parse trivial) fun _ =>
    .bind (.expectPunct _) fun _ => .bind (.parse trivial) fun _ => .finishProduction _ _ _

theorem prefixOperator_orderly : Orderly true prefixOperator :=
  .bind .token fun _ => .bind .nextToken fun _ => .bind (.parse trivial) fun _ =>
    .finishProduction _ _ _

theorem simpleUnary_orderly : Orderly true simpleUnary := by
  refine .bind .kind fun k => ?_
  split
  case h_5 | h_6 | h_7 => exact wordOperator_orderly _
  case h_8 => exact typeAssertion_orderly
  case h_9 =>
    exact .bind isAwaitExpression_orderly fun _ => .ite (wordOperator_orderly _) updateExpression_orderly
  case h_10 => exact updateExpression_orderly
  all_goals exact prefixOperator_orderly

theorem binaryExpression_orderly (left operator right : NodeId) (pos : Nat) :
    Orderly true (binaryExpression left operator right pos) :=
  .finishProduction _ _ _

theorem nextOperator_orderly (level : Precedence) : Orderly true (nextOperator level) := by
  refine .bind (.advance _) fun _ => .bind .kind fun k => ?_
  cases Precedence.ofKind? k with
  | none => exact .pure _
  | some next =>
    exact .ite (.pure _) (.context (fun _ _ => rfl) fun _ => .ite (.pure _) (.pure _))

theorem binaryTurn_orderly (level : Precedence) (pos : Nat) (left : NodeId) :
    Orderly true (binaryTurn level pos left) := by
  refine .bind (nextOperator_orderly _) fun next => ?_
  cases next with
  | none => exact .pure _
  | some next =>
    refine .bind (.isAtKeyword _) fun _ => .ite (.bind .afterLineBreak fun _ => .ite (.pure _) ?_) ?_
    · exact .bind .nextToken fun _ => .bind (.parse trivial) fun _ => .map (.finishProduction _ _ _)
    · exact .bind .tokenNode fun _ => .bind (.parse trivial) fun _ => .map (binaryExpression_orderly _ _ _ _)

theorem binaryRest_orderly (level : Precedence) (left : NodeId) (pos : Nat) :
    Orderly true (binaryRest level left pos) :=
  .repeating (binaryTurn_orderly level pos) _

theorem tokenStart_orderly (id : NodeId) : Orderly moves (tokenStart id) :=
  .read (fun _ _ _ htext => by rw [htext]) fun _ => .node (fun _ _ => rfl) fun _ => .pure _

theorem reportPowerBase_orderly (operator : Kind) (base : NodeId) :
    Orderly true (reportPowerBase operator base) :=
  .node (fun _ _ => rfl) fun _ => .bind (tokenStart_orderly _) fun _ =>
    .ite (.errorAtRange _ _ _ _) (.errorAtRange _ _ _ _)

theorem unary_orderly : Orderly true unary := by
  refine .bind .nodePos fun _ => .bind .kind fun _ => .bind startsUpdate_orderly fun _ => .ite ?_ ?_
  · exact .bind updateExpression_orderly fun _ => .bind (.isAtPunct _) fun _ =>
      .ite (binaryRest_orderly _ _ _) (.pure _)
  · exact .bind simpleUnary_orderly fun _ => .bind (.isAtPunct _) fun _ =>
      .ite (.bind (reportPowerBase_orderly _ _) fun _ => .pure _) (.pure _)

theorem binary_orderly (level : Precedence) : Orderly true (binary level) :=
  .bind .nodePos fun _ => .bind unary_orderly fun _ => binaryRest_orderly _ _ _

/-! ## 8. Assignments and expressions -/

theorem startsYield_orderly : Orderly moves startsYield :=
  .bind (.isAtKeyword _) fun _ => .ite
    (.context (fun _ _ => rfl) fun _ => .ite (.pure _) (peek_orderly isNameOrLiteralOnSameLine_orderly))
    (.pure _)

theorem yieldHasOperand_orderly : Orderly moves yieldHasOperand :=
  onSameLine_orderly (.or (.isAtPunct _) startsExpression_orderly)

theorem yieldExpression_orderly : Orderly true yieldExpression :=
  .bind .nodePos fun _ => .bind .nextToken fun _ => .bind yieldHasOperand_orderly fun _ => .ite
    (.bind (.acceptToken _) fun _ => .bind (.parse trivial) fun _ => .finishProduction _ _ _)
    (.finishProduction _ _ _)

theorem conditionalAfter_orderly (condition : NodeId) (pos : Nat) :
    Orderly true (conditionalAfter condition pos) := by
  refine .bind (.acceptToken _) fun questionMark => ?_
  cases questionMark with
  | none => exact .pure _
  | some questionMark =>
    refine .bind (.allowIn (.parse trivial)) fun whenTrue => .bind (.expectToken _) fun colon => ?_
    refine .bind (.isMissing _) fun _ => ?_
    extract_lets rest
    have hrest (whenFalse : NodeId) : Orderly true (rest whenFalse) := .finishProduction _ _ _
    exact .ite (.bind (.missingHere _ _ _) hrest) (.bind (.parse trivial) hrest)

theorem afterOperators_orderly (pos : Nat) (first : NodeId) :
    Orderly true (afterOperators pos first) := by
  refine .bind (.kindOf _) fun k => .bind (.and (.pure _) (.isAtPunct _)) fun _ =>
    .ite (simpleArrow_orderly _ _) ?_
  refine .ite ?_ (conditionalAfter_orderly _ _)
  refine .bind (.advance _) fun _ => .bind .kind fun _ => .ite ?_ (conditionalAfter_orderly _ _)
  exact .bind .tokenNode fun _ => .bind (.parse trivial) fun _ => binaryExpression_orderly _ _ _ _

theorem assignmentBody_orderly : Orderly true assignmentBody := by
  refine .bind startsYield_orderly fun _ => .ite yieldExpression_orderly ?_
  refine .bind arrowHeadHere_orderly fun head => ?_
  cases head with
  | some head => exact arrowAfterHead_orderly head
  | none =>
    refine .bind startsAsyncSimpleArrow_orderly fun _ => .ite asyncSimpleArrow_orderly ?_
    exact .bind .nodePos fun _ => .bind (binary_orderly _) fun _ => afterOperators_orderly _ _

theorem assignment_orderly : Orderly true assignment := .map (.nested _ assignmentBody_orderly)

theorem expression_orderly : Orderly true expression := by
  refine .outsideDecorator (.bind .nodePos fun _ => .bind (.parse trivial) fun _ =>
    .repeating (fun left => .bind (.acceptToken _) fun operator => ?_) _)
  cases operator with
  | some operator => exact .bind (.parse trivial) fun _ => .map (binaryExpression_orderly _ _ _ _)
  | none => exact .pure _

end ScriptSyntax.Parser
