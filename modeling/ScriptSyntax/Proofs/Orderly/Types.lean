/-
  ScriptSyntax/Proofs/Orderly/Types.lean
  ======================================
  Types are orderly.
-/
import ScriptSyntax.Proofs.Orderly.Signatures

namespace ScriptSyntax.Parser

variable {moves : Bool}

/-! ## 1. Function types -/

/-- A pattern that is skipped counts only if the log is as long as before. -/
theorem skipParameterStart_orderly : Orderly true skipParameterStart := by
  refine .bind .kind fun k => ?_
  extract_lets rest
  have hrest : Orderly true (rest ()) := by
    refine .bind (.or isIdentifier_orderly (.isAtKeyword _)) fun _ => .ite ?_ (.bind .kind fun k => ?_)
    · exact .bind .nextToken fun _ => .pure _
    · split
      case h_3 => exact .pure _
      all_goals
        exact .get (fun _ _ => rfl) fun _ => .bind (.parse trivial) fun _ =>
          .get (fun _ _ => rfl) fun _ => .pure _
  exact .ite (.bind (modifiers_orderly _) fun _ => hrest) hrest

theorem parametersAhead_orderly : Orderly true parametersAhead := by
  refine .bind .nextKind fun k => ?_
  split
  · exact .pure _
  · exact .pure _
  · refine .bind skipParameterStart_orderly fun _ => .ite (.bind .kind fun k => ?_) (.pure _)
    split
    case h_5 => exact .map .nextKind
    all_goals exact .pure _

theorem parenStartsParameters_orderly : Orderly moves parenStartsParameters :=
  .lookAhead parametersAhead_orderly

theorem startsFunctionType_orderly : Orderly moves startsFunctionType := by
  refine .bind .kind fun k => ?_
  split
  · exact .pure _
  · exact parenStartsParameters_orderly
  · exact .pure _

theorem functionType_orderly : Orderly true functionType :=
  .bind .nodePos fun _ => .bind (arrowSignature_orderly _) fun _ => .finishProduction _ _ _

theorem constructorType_orderly : Orderly true constructorType :=
  .bind .nodePos fun _ => .bind (.expectKeyword _) fun _ => .bind (arrowSignature_orderly _) fun _ =>
    .finishProduction _ _ _

/-! ## 2. Lists of types and references -/

theorem parseType_orderly : Orderly true (parse .type) := .parse trivial

theorem typeArguments_orderly : Orderly true typeArguments :=
  .allowConditionalTypes (bracketed_orderly _ parseType_orderly _ _)

theorem tupleType_orderly : Orderly true tupleType :=
  .bind .nodePos fun _ =>
    .bind (.allowConditionalTypes (bracketed_orderly _ parseType_orderly _ _)) fun _ =>
      .finishProduction _ _ _

theorem referenceArguments_orderly : Orderly true referenceArguments :=
  .bind .afterLineBreak fun _ => .ite (.pure _) (.bind (.advance _) fun _ =>
    .bind (.isAtPunct _) fun _ => .ite (.map typeArguments_orderly) (.pure _))

theorem typeReference_orderly : Orderly true typeReference :=
  .bind .nodePos fun _ => .bind (entityName_orderly _ _) fun _ => .bind referenceArguments_orderly fun _ =>
    .bind (.isMissing _) fun _ => .finishFlagged _ _ rfl _

theorem typeQuery_orderly : Orderly true typeQuery :=
  .bind .nodePos fun _ => .bind (.expectKeyword _) fun _ => .bind (entityName_orderly _ _) fun _ =>
    .finishProduction _ _ _

theorem keywordType_orderly : Orderly true keywordType :=
  .bind .tokenNode fun _ => .bind (.isAtPunct _) fun _ => .ite (.pure _) (.pure _)

theorem wordType_orderly : Orderly true wordType := by
  refine .bind (.attempt keywordType_orderly) fun word => ?_
  cases word with
  | some word => exact .pure _
  | none => exact typeReference_orderly

theorem literalType_orderly : Orderly true literalType := by
  refine .bind .nodePos fun pos => .bind .kind fun k => ?_
  extract_lets rest
  have hrest (literal : NodeId) : Orderly true (rest literal) := .finishProduction _ _ _
  split
  · exact .bind .tokenNode hrest
  · exact .bind .tokenNode hrest
  · exact .bind .literalNode hrest

theorem negativeLiteralType_orderly : Orderly true negativeLiteralType :=
  .bind .nodePos fun _ => .bind .nextToken fun _ => .bind .literalNode fun _ =>
    .bind (.finishProduction _ _ _) fun _ => .finishProduction _ _ _

theorem thisType_orderly : Orderly true thisType := by
  refine .bind .nodePos fun _ => .bind .nextToken fun _ => .bind (.finishProduction _ _ _) fun _ => ?_
  refine .bind (.isAtKeyword _) fun _ => .ite (.bind .afterLineBreak fun _ => .ite (.pure _) ?_) (.pure _)
  exact .bind .nextToken fun _ => .bind (.parse trivial) fun _ => .finishProduction _ _ _

theorem parenthesizedType_orderly : Orderly true parenthesizedType :=
  .bind .nodePos fun _ => .bind (.expectPunct _) fun _ =>
    .bind (.allowConditionalTypes (.parse trivial)) fun _ => .bind (.expectPunct _) fun _ =>
      .finishProduction _ _ _

/-! ## 3. Mapped types -/

theorem signedToken_orderly (signed : Kind) : Orderly true (signedToken signed) := by
  refine .bind .kind fun k => ?_
  split
  · exact .bind .tokenNode fun _ => .bind (.expect _) fun _ => .pure _
  · exact .bind .tokenNode fun _ => .bind (.expect _) fun _ => .pure _
  · exact .ite (.map .tokenNode) (.pure _)

theorem mappedTypeParameter_orderly : Orderly true mappedTypeParameter :=
  .bind .nodePos fun _ => .bind identifier_orderly fun _ => .bind (.expectKeyword _) fun _ =>
    .bind (.parse trivial) fun _ => .finishProduction _ _ _

theorem mappedType_orderly : Orderly true mappedType := by
  refine .bind .nodePos fun _ => .bind (.expectPunct _) fun _ => .bind (signedToken_orderly _) fun _ => ?_
  refine .bind (.expectPunct _) fun _ => .bind mappedTypeParameter_orderly fun _ => ?_
  refine .bind (.expectPunct _) fun _ => .bind (signedToken_orderly _) fun _ => ?_
  refine .bind (.allowConditionalTypes typeAnnotation_orderly) fun _ => .bind .semicolon fun _ => ?_
  exact .bind (.expectPunct _) fun _ => .finishProduction _ _ _

/-! ## 4. Members -/

theorem memberEnd_orderly : Orderly true memberEnd :=
  .bind (.acceptPunct _) fun _ => .ite (.pure _) .semicolon

theorem indexSignature_orderly (start : DeclarationStart) : Orderly true (indexSignature start) :=
  .bind (bracketed_orderly _ parameter_orderly _ _) fun _ => .bind typeAnnotation_orderly fun _ =>
    .bind memberEnd_orderly fun _ => .finishDeclaration _ _ _

theorem callSignature_orderly : Orderly true callSignature :=
  .bind .nodePos fun _ => .bind (signature_orderly _) fun _ => .bind memberEnd_orderly fun _ =>
    .finishProduction _ _ _

theorem constructSignature_orderly : Orderly true constructSignature :=
  .bind .nodePos fun _ => .bind (.expectKeyword _) fun _ => .bind (signature_orderly _) fun _ =>
    .bind memberEnd_orderly fun _ => .finishProduction _ _ _

theorem methodSignature_orderly (start : DeclarationStart) (name : NodeId)
    (questionMark : Option NodeId) : Orderly true (methodSignature start name questionMark) :=
  .bind (signature_orderly _) fun _ => .bind memberEnd_orderly fun _ => .finishDeclaration _ _ _

theorem propertySignature_orderly (start : DeclarationStart) (name : NodeId)
    (questionMark : Option NodeId) : Orderly true (propertySignature start name questionMark) := by
  refine .bind typeAnnotation_orderly fun type => .bind (.isAtPunct _) fun _ => ?_
  extract_lets rest
  have hrest (initializer : Option NodeId) : Orderly true (rest initializer) :=
    .bind memberEnd_orderly fun _ => .finishDeclaration _ _ _
  exact .ite (.bind initializer_orderly hrest) (.bind (.pure _) hrest)

theorem namedMember_orderly (start : DeclarationStart) : Orderly true (namedMember start) :=
  .bind propertyName_orderly fun _ => .bind (.acceptToken _) fun _ =>
    .bind isParenOrLessThan_orderly fun _ => .ite (methodSignature_orderly _ _ _)
      (propertySignature_orderly _ _ _)

theorem typeMember_orderly : Orderly true typeMember := by
  refine .bind isParenOrLessThan_orderly fun _ => .ite callSignature_orderly ?_
  refine .bind (.and (.isAtKeyword _) (peek_orderly isParenOrLessThan_orderly)) fun _ =>
    .ite constructSignature_orderly ?_
  exact .bind .nodePos fun _ => .bind (modifiers_orderly _) fun _ =>
    .bind startsIndexSignature_orderly fun _ => .ite (indexSignature_orderly _) (namedMember_orderly _)

theorem typeMembers_orderly : Orderly true typeMembers :=
  .bind (.expectPunct _) fun _ => .ite
    (.bind (elements_orderly _ typeMember_orderly) fun _ => .bind (.expectPunct _) fun _ => .pure _)
    .missingList

theorem typeLiteral_orderly : Orderly true typeLiteral :=
  .bind .nodePos fun _ => .bind (.allowConditionalTypes typeMembers_orderly) fun _ =>
    .finishProduction _ _ _

/-! ## 5. Operators -/

theorem primaryType_orderly : Orderly true primaryType := by
  refine .bind .kind fun k => ?_
  split
  case h_11 | h_12 | h_13 | h_14 => exact literalType_orderly
  case h_15 =>
    exact .bind (peek_orderly isNumber_orderly) fun _ => .ite negativeLiteralType_orderly
      typeReference_orderly
  case h_16 | h_17 => exact .tokenNode
  case h_18 => exact thisType_orderly
  case h_19 => exact typeQuery_orderly
  case h_20 =>
    exact .bind startsMappedType_orderly fun _ => .ite mappedType_orderly typeLiteral_orderly
  case h_21 => exact tupleType_orderly
  case h_22 => exact parenthesizedType_orderly
  case h_23 => exact typeReference_orderly
  all_goals exact wordType_orderly

theorem bracketsAfterType_orderly (pos : Nat) (type : NodeId) :
    Orderly true (bracketsAfterType pos type) :=
  .bind startsType_orderly fun _ => .ite
    (.bind (.parse trivial) fun _ => .bind (.expectPunct _) fun _ => .finishProduction _ _ _)
    (.bind (.expectPunct _) fun _ => .finishProduction _ _ _)

theorem postfixType_orderly : Orderly true postfixType := by
  refine .bind .nodePos fun _ => .bind primaryType_orderly fun _ => .repeating (fun type => ?_) _
  exact .bind .afterLineBreak fun _ => .ite (.pure _) (.bind (.acceptPunct _) fun _ =>
    .ite (.map (bracketsAfterType_orderly _ _)) (.pure _))

theorem inferType_orderly : Orderly true inferType :=
  .bind .nodePos fun _ => .bind (.expectKeyword _) fun _ => .bind .nodePos fun _ =>
    .bind identifier_orderly fun _ => .bind (.finishProduction _ _ _) fun _ => .finishProduction _ _ _

theorem typeOperator_orderly : Orderly true typeOperator := by
  refine .bind .kind fun k => ?_
  split
  case h_4 => exact inferType_orderly
  case h_5 => exact postfixType_orderly
  all_goals
    exact .bind .token fun _ => .bind .nextToken fun _ => .bind (.parse trivial) fun _ =>
      .finishProduction _ _ _

theorem typeChain_orderly (kind : NodeKind) (operator : Punctuator) {part : Parser NodeId}
    (h : Orderly true part) : Orderly true (typeChain kind operator part) := by
  refine .bind .nodePos fun _ => .bind (.acceptPunct _) fun _ => .bind h fun _ => ?_
  have hturn (read : List NodeId) : Orderly true (do
      if ← acceptPunct operator then return .again ((← part) :: read)
      else return .done read : Parser (Turn (List NodeId))) :=
    .bind (.acceptPunct _) fun _ => .ite (.map h) (.pure _)
  refine .bind (.isAtPunct _) fun _ => .ite (.pure _) (.node (fun _ _ => rfl) fun _ => ?_)
  exact .bind (.repeating hturn _) fun _ => .bind .nodePos fun _ => .finishProduction _ _ _

theorem unionType_orderly : Orderly true unionType :=
  typeChain_orderly _ _ (typeChain_orderly _ _ typeOperator_orderly)

/-! ## 6. Types -/

theorem conditionalRest_orderly (pos : Nat) (check : NodeId) : Orderly true (conditionalRest pos check) :=
  .bind (.disallowConditionalTypes (.parse trivial)) fun _ => .bind (.expectPunct _) fun _ =>
    .bind (.allowConditionalTypes (.parse trivial)) fun _ => .bind (.expectPunct _) fun _ =>
      .bind (.allowConditionalTypes (.parse trivial)) fun _ => .finishProduction _ _ _

theorem typeBody_orderly : Orderly true typeBody := by
  refine .bind startsFunctionType_orderly fun _ => .ite functionType_orderly ?_
  refine .bind (.isAtKeyword _) fun _ => .ite constructorType_orderly ?_
  refine .bind .nodePos fun _ => .bind unionType_orderly fun _ => ?_
  refine .context (fun _ _ => rfl) fun _ => .ite (.pure _) (.bind .afterLineBreak fun _ => ?_)
  exact .ite (.pure _) (.bind (.acceptKeyword _) fun _ => .ite (conditionalRest_orderly _ _) (.pure _))

theorem type_orderly : Orderly true type := by
  refine .inFunction _ _ (.bind (.nested _ typeBody_orderly) fun (id, parsed) => .ite (.pure _) ?_)
  exact .node (fun _ _ => rfl) fun _ => .finishProduction _ _ _

end ScriptSyntax.Parser
