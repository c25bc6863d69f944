/-
  ScriptSyntax/Proofs/Orderly/Signatures.lean
  ===========================================
  Names, lists, patterns and signatures are orderly.
-/
import ScriptSyntax.Proofs.Orderly.Starts

namespace ScriptSyntax.Parser

variable {moves : Bool} {element : Parser NodeId}

/-! ## 1. Names -/

theorem identifierIf_orderly (allowed : Bool) (m : Message) : Orderly true (identifierIf allowed m) :=
  MakesIdentifier.counting (.ite
    (.after .token fun _ => .after (.intern _) fun _ => .after .nextToken fun _ => .finishNode _ _)
    (.missingHere m []))

theorem identifierOr_orderly (m : Message) : Orderly true (identifierOr m) :=
  .bind isIdentifier_orderly fun _ => identifierIf_orderly _ m

theorem identifier_orderly : Orderly true identifier := identifierOr_orderly _

theorem nameOr_orderly (m : Message) : Orderly true (nameOr m) :=
  .bind isName_orderly fun _ => identifierIf_orderly _ m

theorem name_orderly : Orderly true name := nameOr_orderly _

theorem optionalIdentifier_orderly : Orderly true optionalIdentifier :=
  .bind isIdentifier_orderly fun _ => .ite (.map identifier_orderly) (.pure _)

theorem nameAfterDot_orderly (keywords : Bool) : Orderly true (nameAfterDot keywords) := by
  have hsame : Orderly true (peek nameAfterDot.isNameOnSameLine) :=
    peek_orderly (onSameLine_orderly isName_orderly)
  refine .bind (.and .afterLineBreak (.and isName_orderly hsame)) fun _ => ?_
  exact .ite (.missingBefore _ _ _) (.ite name_orderly identifier_orderly)

theorem qualifiedRest_orderly (pos : Nat) (keywords : Bool) (first : NodeId) :
    Orderly true (qualifiedRest pos keywords first) :=
  .repeating (fun _ => .bind (.acceptPunct _) fun _ => .ite
    (.bind (nameAfterDot_orderly _) fun _ => .map (.finishProduction _ _ _)) (.pure _)) _

theorem entityName_orderly (keywords : Bool) (m : Message) : Orderly true (entityName keywords m) := by
  refine .bind .nodePos fun pos => ?_
  extract_lets rest
  have hrest (first : NodeId) : Orderly true (rest first) := qualifiedRest_orderly _ _ _
  exact .ite (.bind (nameOr_orderly m) hrest) (.bind (identifierOr_orderly m) hrest)

theorem computedName_orderly : Orderly true computedName :=
  .bind .nodePos fun _ => .bind (.expectPunct _) fun _ => .bind (.allowIn (.parse trivial)) fun _ =>
    .bind (.expectPunct _) fun _ => .finishProduction _ _ _

theorem propertyName_orderly : Orderly true propertyName := by
  refine .bind .kind fun k => ?_
  split
  · exact .literalNode
  · exact .literalNode
  · exact computedName_orderly
  · exact name_orderly

/-! ## 2. Lists -/

theorem giveUp_orderly (list : ListContext) : Orderly true (giveUp list) :=
  .bind (.errorHere _ _) fun _ => .bind openListTakes_orderly fun _ =>
    .ite (.pure _) (.bind .nextToken fun _ => .pure _)

theorem listTurn_orderly (list : ListContext) (h : Orderly true element) (read : List NodeId) :
    Orderly true (listTurn list element read) :=
  .bind (endsList_orderly _) fun _ => .ite (.pure _) (.bind (startsElement_orderly _ _) fun _ =>
    .ite (.map h) (.bind (giveUp_orderly _) fun _ => .ite (.pure _) (.pure _)))

theorem elements_orderly (list : ListContext) (h : Orderly true element) :
    Orderly true (elements list element) :=
  .inList list (.bind .nodePos fun _ => .bind (.repeating (listTurn_orderly list h) _) fun _ =>
    .map .nodePos)

theorem missingComma_orderly (start : Nat) (semicolonSeparates : Bool) :
    Orderly true (missingComma start semicolonSeparates) := by
  refine .bind (.expectPunct _) fun _ => ?_
  extract_lets rest
  have hrest : Orderly true (rest ()) := .bind .nodePos fun _ => .ite .nextToken (.pure _)
  refine .ite (.bind (.isAtPunct _) fun _ => .ite (.bind .afterLineBreak fun _ => ?_) hrest) hrest
  exact .ite (.bind .nextToken fun _ => hrest) hrest

theorem separatedTurn_orderly (list : ListContext) (h : Orderly true element)
    (semicolonSeparates : Bool) (sofar : Separated) :
    Orderly true (separatedTurn list element semicolonSeparates sofar) := by
  refine .bind (startsElement_orderly _ _) fun _ => .ite ?_ ?_
  · refine .bind .nodePos fun _ => .bind h fun _ => .bind (.acceptPunct _) fun _ => .ite (.pure _) ?_
    refine .bind (endsList_orderly _) fun _ => .ite (.pure _) ?_
    exact .bind (missingComma_orderly _ _) fun _ => .pure _
  · refine .bind (endsList_orderly _) fun _ => .ite (.pure _) ?_
    exact .bind (giveUp_orderly _) fun _ => .ite (.pure _) (.pure _)

theorem separatedWith_orderly (list : ListContext) (h : Orderly true element)
    (semicolonSeparates : Bool) : Orderly true (separatedWith list element semicolonSeparates) :=
  .inList list (.bind .nodePos fun _ =>
    .bind (.repeating (separatedTurn_orderly list h semicolonSeparates) _) fun _ => .map .nodePos)

theorem separated_orderly (list : ListContext) (h : Orderly true element) :
    Orderly true (separated list element) :=
  separatedWith_orderly list h false

theorem bracketed_orderly (list : ListContext) (h : Orderly true element)
    (opening closing : Punctuator) : Orderly true (bracketed list element opening closing) :=
  .bind (.expectPunct _) fun _ => .ite
    (.bind (separated_orderly list h) fun _ => .bind (.expectPunct _) fun _ => .pure _) .missingList

/-! ## 3. Decorators and modifiers -/

theorem nonEmptyArray_orderly (pos : Nat) (nodes : List NodeId) :
    Orderly moves (nonEmptyArray pos nodes) :=
  .ite (.pure _) (.map .nodePos)

theorem decorators_orderly : Orderly true decorators := by
  refine .bind .nodePos fun _ => .bind (.repeating (fun _ => .bind .nodePos fun _ => ?_) _) fun _ =>
    nonEmptyArray_orderly _ _
  refine .bind (.acceptPunct _) fun _ => .ite ?_ (.pure _)
  exact .bind (.inDecorator (.parse trivial)) fun _ => .map (.finishProduction _ _ _)

theorem acceptModifier_orderly : Orderly true acceptModifier :=
  .bind .kind fun _ => .ite (.attemptIf tokenIsModifier_orderly) (.pure _)

theorem acceptContextualWord_orderly (k : Keyword) : Orderly true (acceptContextualWord k) :=
  .bind (.isAtKeyword _) fun _ => .ite (.attemptIf tokenIsModifier_orderly) (.pure _)

theorem modifiers_orderly (constAllowed : Bool) : Orderly true (modifiers constAllowed) := by
  refine .bind .nodePos fun _ => .bind (.repeating (fun read => .bind .token fun t => ?_) _) fun _ =>
    nonEmptyArray_orderly _ _
  extract_lets rest
  have hrest (found : Bool) : Orderly true (rest found) := .ite (.map (.finishNode _ _ _)) (.pure _)
  exact .ite (.bind (.attemptIf nextFollowsModifier_orderly) hrest) (.bind acceptModifier_orderly hrest)

theorem arrowModifiers_orderly : Orderly true arrowModifiers :=
  .bind (.isAtKeyword _) fun _ => .ite
    (.bind .nodePos fun _ => .bind .tokenNode fun _ => .map .nodePos) (.pure _)

theorem hasModifier_orderly (list : Option NodeArray) (k : Keyword) :
    Orderly moves (hasModifier list k) := by
  cases list with
  | none => exact .pure _
  | some modifiers =>
    show Orderly moves (modifiers.nodes.anyM fun id => return (← kindOf id) == .keyword k)
    induction modifiers.nodes with
    | nil => exact .pure _
    | cons id ids ih =>
      refine .bind (.map (.kindOf id)) fun found => ?_
      cases found with
      | true => exact .pure _
      | false => exact ih

theorem functionMode_orderly (asterisk : Option NodeId) (list : Option NodeArray) :
    Orderly moves (functionMode asterisk list) :=
  .map (hasModifier_orderly _ _)

/-! ## 4. Annotations and initializers -/

theorem typeAnnotation_orderly : Orderly true typeAnnotation :=
  .bind (.acceptPunct _) fun _ => .ite (.map (.parse trivial)) (.pure _)

theorem hasInitializer_orderly (inParameter : Bool) : Orderly moves (hasInitializer inParameter) := by
  refine .bind .kind fun k => ?_
  split
  · exact .pure _
  · exact .bind .afterLineBreak fun _ => .ite (.pure _) (.ite (.pure _) startsExpression_orderly)

theorem initializerIn_orderly (inParameter : Bool) : Orderly true (initializerIn inParameter) :=
  .bind (hasInitializer_orderly _) fun _ => .ite
    (.bind (.expectPunct _) fun _ => .map (.parse trivial)) (.pure _)

theorem initializer_orderly : Orderly true initializer := initializerIn_orderly _

/-! ## 5. Parameters -/

theorem thisParameter_orderly (start : DeclarationStart) : Orderly true (thisParameter start) :=
  .bind (identifierIf_orderly _ _) fun _ => .bind typeAnnotation_orderly fun _ =>
    .finishDeclaration _ _ _

theorem skipStrayModifier_orderly (name : NodeId) (list : Option NodeArray) :
    Orderly true (skipStrayModifier name list) :=
  .ite (.bind (.isMissing _) fun _ => .ite
    (.bind .kind fun _ => .ite .nextToken (.pure _)) (.pure _)) (.pure _)

theorem parameter_orderly : Orderly true parameter := by
  refine .bind .nodePos fun _ => .bind decorators_orderly fun _ => .bind (.isAtKeyword _) fun _ => ?_
  refine .ite (thisParameter_orderly _) ?_
  refine .bind (modifiers_orderly _) fun _ => .bind (.acceptToken _) fun _ => ?_
  refine .bind (.parse trivial) fun _ => .bind (skipStrayModifier_orderly _ _) fun _ => ?_
  exact .bind (.acceptToken _) fun _ => .bind typeAnnotation_orderly fun _ =>
    .bind (initializerIn_orderly _) fun _ => .finishDeclaration _ _ _

theorem parameterList_orderly (mode : SignatureMode) : Orderly true (parameterList mode) := by
  refine .bind (.expectPunct _) fun _ => .ite ?_ (.ite (.pure _) (.map .missingList))
  refine .bind (.inFunction _ _ (separated_orderly _ parameter_orderly)) fun _ => ?_
  exact .bind (.expectPunct _) fun _ => .ite (.pure _) (.pure _)

theorem typeParameter_orderly : Orderly true typeParameter := by
  refine .bind .nodePos fun pos => .bind identifier_orderly fun name => .bind (.acceptKeyword _) fun _ => ?_
  extract_lets rest
  have hrest (constraint : Option NodeId) : Orderly true (rest constraint) := by
    refine .bind (.acceptPunct _) fun _ => ?_
    extract_lets rest'
    have hrest' (default : Option NodeId) : Orderly true (rest' default) := .finishProduction _ _ _
    exact .ite (.bind (.parse trivial) fun _ => .bind (.pure _) hrest') (.bind (.pure _) hrest')
  exact .ite (.bind (.parse trivial) fun _ => .bind (.pure _) hrest) (.bind (.pure _) hrest)

theorem typeParameters_orderly : Orderly true typeParameters :=
  .bind (.isAtPunct _) fun _ => .ite (.map (bracketed_orderly _ typeParameter_orderly _ _)) (.pure _)

/-! ## 6. Signatures -/

theorem predicateStart_orderly : Orderly true predicateStart :=
  .bind identifier_orderly fun _ => .bind (.isAtKeyword _) fun _ => .ite
    (.bind .afterLineBreak fun _ => .ite (.pure _) (.bind .nextToken fun _ => .pure _)) (.pure _)

theorem returnType_orderly : Orderly true returnType := by
  refine .bind .nodePos fun pos => .bind isIdentifier_orderly fun _ => ?_
  extract_lets rest
  have hrest (name : Option NodeId) : Orderly true (rest name) := by
    refine .bind (.parse trivial) fun type => ?_
    cases name with
    | some name => exact .finishProduction _ _ _
    | none => exact .pure _
  exact .ite (.bind (.attempt predicateStart_orderly) hrest) (.bind (.pure _) hrest)

theorem typeAfterArrow_orderly : Orderly true typeAfterArrow :=
  .bind (.expectPunct _) fun _ => .map returnType_orderly

theorem typeAfterColon_orderly (inType : Bool) : Orderly true (typeAfterColon inType) := by
  refine .bind (.acceptPunct _) fun _ => .ite (.map returnType_orderly) ?_
  refine .ite (.bind (.isAtPunct _) fun _ => .ite ?_ (.pure _)) (.pure _)
  exact .bind (.expectedHere _) fun _ => .bind .nextToken fun _ => .map returnType_orderly

theorem signatureIf_orderly {returns : SignatureMode → Parser (Option NodeId)}
    (h : ∀ mode, Orderly true (returns mode)) (mode : SignatureMode) :
    Orderly true (signatureIf returns mode) := by
  refine .bind typeParameters_orderly fun _ => .bind (parameterList_orderly _) fun parameters => ?_
  cases parameters with
  | none => exact .pure _
  | some list => exact .map (h mode)

theorem signature_orderly (mode : SignatureMode) : Orderly true (signature mode) :=
  .map (signatureIf_orderly (fun _ => typeAfterColon_orderly _) mode)

theorem arrowSignature_orderly (mode : SignatureMode) : Orderly true (arrowSignature mode) :=
  .map (signatureIf_orderly (fun _ => typeAfterArrow_orderly) mode)

/-! ## 7. Patterns and declared variables -/

theorem arrayBindingElement_orderly : Orderly true arrayBindingElement := by
  refine .bind .nodePos fun _ => .bind (.isAtPunct _) fun _ => .ite (.finishProduction _ _ _) ?_
  exact .bind (.acceptToken _) fun _ => .bind (.parse trivial) fun _ => .bind initializer_orderly fun _ =>
    .finishProduction _ _ _

theorem arrayBindingPattern_orderly : Orderly true arrayBindingPattern :=
  .bind .nodePos fun _ => .bind (.expectPunct _) fun _ =>
    .bind (separated_orderly _ arrayBindingElement_orderly) fun _ =>
      .bind (.expectPunct _) fun _ => .finishProduction _ _ _

theorem objectBindingElement_orderly : Orderly true objectBindingElement := by
  refine .bind .nodePos fun pos => .bind (.acceptToken _) fun dots => ?_
  refine .bind isIdentifier_orderly fun canBeVariable => .bind propertyName_orderly fun first => ?_
  refine .bind (.isAtPunct _) fun _ => ?_
  extract_lets rest
  have hrest (names : Option NodeId × NodeId) : Orderly true (rest names) :=
    .bind initializer_orderly fun _ => .finishProduction _ _ _
  refine .ite (.bind (.pure _) hrest) ?_
  exact .bind (.expectPunct _) fun _ => .bind (.parse trivial) fun _ => .bind (.pure _) hrest

theorem objectBindingPattern_orderly : Orderly true objectBindingPattern :=
  .bind .nodePos fun _ => .bind (.expectPunct _) fun _ =>
    .bind (separated_orderly _ objectBindingElement_orderly) fun _ =>
      .bind (.expectPunct _) fun _ => .finishProduction _ _ _

theorem bindingName_orderly : Orderly true bindingName := by
  refine .bind .kind fun k => ?_
  split
  · exact arrayBindingPattern_orderly
  · exact objectBindingPattern_orderly
  · exact identifier_orderly

theorem variableDeclaration_orderly : Orderly true variableDeclaration := by
  refine .bind .nodePos fun pos => .bind (.parse trivial) fun name => ?_
  refine .bind typeAnnotation_orderly fun type => .bind .kind fun k => ?_
  extract_lets rest
  have hrest (initializer : Option NodeId) : Orderly true (rest initializer) := .finishProduction _ _ _
  exact .ite (.bind (.pure _) hrest) (.bind initializer_orderly hrest)

theorem loopEndAhead_orderly : Orderly true loopEndAhead :=
  .bind (afterNext_orderly isIdentifier_orderly) fun _ => .ite (.map .nextKind) (.pure _)

theorem ofFollowsNothing_orderly : Orderly moves ofFollowsNothing :=
  .bind (.isAtKeyword _) fun _ => .ite (.lookAhead loopEndAhead_orderly) (.pure _)

theorem variableDeclarationList_orderly (inLoopHead : Bool) :
    Orderly true (variableDeclarationList inLoopHead) := by
  refine .bind .token fun t => .bind .nextToken fun _ => .bind ofFollowsNothing_orderly fun _ => ?_
  extract_lets rest
  have hflags : (declarationFlags t.kind).context = {} := by
    unfold declarationFlags
    split <;> rfl
  have hrest (list : NodeArray) : Orderly true (rest list) := .finishFlagged _ _ hflags _
  refine .ite (.bind .missingList hrest) (.bind (.withContext (fun _ _ => rfl) ?_) hrest)
  exact separated_orderly _ variableDeclaration_orderly

theorem variableStatement_orderly (start : DeclarationStart) : Orderly true (variableStatement start) :=
  .bind (variableDeclarationList_orderly _) fun _ => .bind .semicolon fun _ => .finishDeclaration _ _ _

end ScriptSyntax.Parser
