/-
  ScriptSyntax/Proofs/Orderly/Starts.lean
  =======================================
  Questions about tokens are orderly, and do not move.
-/
import ScriptSyntax.Proofs.Orderly.Rules

namespace ScriptSyntax.Parser

variable {α : Type} {moves : Bool}

/-! ## 1. The next token -/

theorem afterNext_orderly {p : Parser α} (hp : Orderly true p) : Orderly true (afterNext p) :=
  .bind .nextToken fun _ => hp

theorem onSameLine_orderly {p : Parser Bool} (hp : Orderly moves p) : Orderly moves (onSameLine p) :=
  .bind .afterLineBreak fun _ => .ite (.pure _) hp

theorem peek_orderly {p : Parser α} (hp : Orderly true p) : Orderly moves (peek p) :=
  .lookAhead (afterNext_orderly hp)

/-! ## 2. Names -/

theorem isIdentifier_orderly : Orderly moves isIdentifier := by
  refine .bind .kind fun k => ?_
  split
  · exact .pure _
  · exact .context (fun _ _ => rfl) fun _ => .pure _
  · exact .context (fun _ _ => rfl) fun _ => .pure _
  · exact .pure _
  · exact .pure _

theorem isName_orderly : Orderly moves isName := .kindIs _

theorem isPropertyName_orderly : Orderly moves isPropertyName := .kindIs _

theorem startsBinding_orderly : Orderly moves startsBinding := by
  refine .bind .kind fun k => ?_
  split
  · exact .pure _
  · exact .pure _
  · exact isIdentifier_orderly

theorem isNameOrLiteralOnSameLine_orderly : Orderly moves isNameOrLiteralOnSameLine :=
  onSameLine_orderly (.kindIs _)

/-! ## 3. Expressions -/

theorem isParenOrLessThan_orderly : Orderly moves isParenOrLessThan := .kindIs _

theorem startsLeftHandSide_orderly : Orderly moves startsLeftHandSide := by
  refine .bind .kind fun k => .ite (.pure _) ?_
  split
  · exact peek_orderly (.or isParenOrLessThan_orderly (.isAtPunct _))
  · exact isIdentifier_orderly

theorem isBinaryOperator_orderly : Orderly moves isBinaryOperator :=
  .bind .kind fun _ => .context (fun _ _ => rfl) fun _ => .ite (.pure _) (.pure _)

theorem startsExpression_orderly : Orderly moves startsExpression := by
  refine .bind startsLeftHandSide_orderly fun _ => .ite (.pure _) (.bind .kind fun k => ?_)
  split
  · exact .pure _
  · exact .pure _
  · exact .pure _
  · exact .ite (.pure _) (.or isBinaryOperator_orderly isIdentifier_orderly)

theorem startsExpressionStatement_orderly : Orderly moves startsExpressionStatement := by
  refine .bind .kind fun k => ?_
  split
  case h_5 => exact startsExpression_orderly
  all_goals exact .pure _

/-! ## 4. Modifiers -/

theorem canFollowModifier_orderly : Orderly moves canFollowModifier := by
  refine .bind .kind fun k => ?_
  split
  case h_5 => exact isPropertyName_orderly
  all_goals exact .pure _

theorem defaultIsModifier_orderly : Orderly true defaultIsModifier := by
  refine .bind .nextKind fun k => ?_
  split
  case h_4 | h_5 => exact peek_orderly (onSameLine_orderly (.isAtKeyword _))
  all_goals exact .pure _

theorem nextFollowsModifier_orderly : Orderly true nextFollowsModifier :=
  afterNext_orderly (onSameLine_orderly canFollowModifier_orderly)

theorem tokenIsModifier_orderly : Orderly true tokenIsModifier := by
  refine .bind .kind fun k => ?_
  split
  · exact .map .nextKind
  · refine .bind .nextKind fun next => ?_
    split
    · exact .lookAhead defaultIsModifier_orderly
    · exact .pure _
    · exact .pure _
    · exact .pure _
    · exact canFollowModifier_orderly
  · exact defaultIsModifier_orderly
  · exact afterNext_orderly canFollowModifier_orderly
  · exact nextFollowsModifier_orderly

/-! ## 5. Declarations and statements -/

theorem declarationTurn_orderly : Orderly true declarationTurn := by
  refine .bind .kind fun k => ?_
  split
  case h_7 | h_8 => exact .map (afterNext_orderly (onSameLine_orderly isIdentifier_orderly))
  case h_9 | h_10 =>
    exact .map (afterNext_orderly (onSameLine_orderly (.or isIdentifier_orderly (.isAt _))))
  case h_11 | h_12 | h_13 | h_14 | h_15 | h_16 | h_17 =>
    exact .bind .nextToken fun _ => .bind .afterLineBreak fun _ => .ite (.pure _) (.pure _)
  case h_18 =>
    refine .bind .nextKind fun next => ?_
    split <;> exact .pure _
  case h_19 =>
    refine .bind .nextKind fun next => ?_
    split
    case h_4 => exact .map isName_orderly
    all_goals exact .pure _
  case h_20 =>
    refine .bind .nextKind fun next => ?_
    split <;> exact .pure _
  case h_21 => exact .bind .nextToken fun _ => .pure _
  all_goals exact .pure _

theorem startsDeclaration_orderly : Orderly moves startsDeclaration :=
  .lookAhead (.repeating (fun _ => declarationTurn_orderly) _)

theorem startsStatement_orderly : Orderly moves startsStatement := by
  refine .bind .kind fun k => .ite (.pure _) ?_
  split
  case h_1 =>
    exact .or startsDeclaration_orderly (peek_orderly (.or isParenOrLessThan_orderly (.isAtPunct _)))
  case h_2 | h_3 => exact startsDeclaration_orderly
  case h_11 =>
    exact .ite
      (.bind startsDeclaration_orderly fun _ => .ite (.pure _)
        (.map (peek_orderly (onSameLine_orderly isName_orderly))))
      startsExpression_orderly
  all_goals exact .pure _

theorem letDeclares_orderly : Orderly moves letDeclares := peek_orderly startsBinding_orderly

/-! ## 6. Types -/

theorem startsParameter_orderly : Orderly moves startsParameter := by
  refine .bind .kind fun k => ?_
  split
  case h_4 => exact .ite (.pure _) startsBinding_orderly
  all_goals exact .pure _

theorem isNumber_orderly : Orderly moves isNumber := .kindIs _

theorem startsTypeUpTo_orderly (count : Nat) : Orderly moves (startsTypeUpTo count) := by
  induction count generalizing moves with
  | zero => exact .bind (.fail _) fun _ => .pure _
  | succ count ih =>
    refine .bind .kind fun k => ?_
    split
    · exact peek_orderly isNumber_orderly
    · exact peek_orderly (.or (.isAtPunct _) (.or startsParameter_orderly ih))
    · exact .ite (.pure _) isIdentifier_orderly

theorem startsType_orderly : Orderly moves startsType :=
  .read (fun _ _ _ htext => by rw [htext]) fun _ => startsTypeUpTo_orderly _

theorem mappedTypeAhead_orderly : Orderly true mappedTypeAhead := by
  refine .bind .nextKind fun first => .ite (.map .nextKind) ?_
  extract_lets rest
  have hrest : Orderly true (rest ()) :=
    .bind (.isAtPunct _) fun _ => .ite (.pure _)
      (.bind (afterNext_orderly isIdentifier_orderly) fun _ => .ite (.pure _) (.map .nextKind))
  exact .ite (.bind .nextToken fun _ => hrest) hrest

theorem startsMappedType_orderly : Orderly moves startsMappedType := .lookAhead mappedTypeAhead_orderly

/-! ## 7. Members -/

theorem endsMemberName_orderly : Orderly moves endsMemberName := by
  refine .bind .kind fun k => ?_
  split
  case h_6 => exact .canEndStatement
  all_goals exact .pure _

theorem skipModifiers_orderly : Orderly true skipModifiers :=
  .repeating (fun _ => .bind .kind fun _ => .ite (.bind .nextToken fun _ => .pure _) (.pure _)) _

theorem typeMemberAhead_orderly : Orderly true typeMemberAhead := by
  refine .bind isParenOrLessThan_orderly fun _ => .ite (.pure _) ?_
  refine .bind skipModifiers_orderly fun modified => .bind (.isAtPunct _) fun _ => .ite (.pure _) ?_
  refine .bind isPropertyName_orderly fun _ => .ite ?_ ?_
  · exact .bind .nextToken fun _ => endsMemberName_orderly
  · exact .ite endsMemberName_orderly (.pure _)

theorem startsTypeMember_orderly : Orderly moves startsTypeMember := .lookAhead typeMemberAhead_orderly

theorem skipMemberModifiers_orderly : Orderly true skipMemberModifiers :=
  .repeating (fun _ => .bind .kind fun _ => .ite (.pure _) (.ite (.pure _)
    (.bind .nextToken fun _ => .pure _))) _

theorem classMemberGoesOn_orderly (name : Kind) : Orderly moves (classMemberGoesOn name) := by
  refine .ite (.pure _) (.bind .kind fun k => ?_)
  split
  case h_6 => exact .canEndStatement
  all_goals exact .pure _

theorem classMemberAhead_orderly : Orderly true classMemberAhead := by
  refine .bind (.isAtPunct _) fun _ => .ite (.pure _) ?_
  refine .bind skipMemberModifiers_orderly fun (modifier, decided) => .ite (.pure _) ?_
  refine .bind (.isAtPunct _) fun _ => .ite (.pure _) (.bind isPropertyName_orderly fun _ => ?_)
  extract_lets rest
  have hrest (name : Option Kind) : Orderly true (rest name) := by
    refine .bind (.isAtPunct _) fun _ => .ite (.pure _) ?_
    cases name with
    | none => exact .pure _
    | some k => exact classMemberGoesOn_orderly k
  exact .ite (.bind .kind fun _ => .bind .nextToken fun _ => .bind (.pure _) hrest) (.bind (.pure _) hrest)

theorem startsClassMember_orderly : Orderly moves startsClassMember := .lookAhead classMemberAhead_orderly

theorem indexSignatureAhead_orderly : Orderly true indexSignatureAhead := by
  refine .bind .nextKind fun first => .ite (.pure _) ?_
  extract_lets rest
  have hrest : Orderly true (rest ()) := by
    refine .bind .kind fun k => ?_
    split
    · exact .pure _
    · exact .pure _
    · refine .bind .nextKind fun next => ?_
      split <;> exact .pure _
    · exact .pure _
  refine .ite ?_ ?_
  · exact .bind .nextToken fun _ => .bind isIdentifier_orderly fun _ => .ite (.pure _) hrest
  · exact .bind isIdentifier_orderly fun _ => .ite (.bind .nextToken fun _ => hrest) (.pure _)

theorem startsIndexSignature_orderly : Orderly moves startsIndexSignature :=
  .bind (.isAtPunct _) fun _ => .ite (.pure _) (.lookAhead indexSignatureAhead_orderly)

/-! ## 8. Heritage -/

theorem startsHeritageClause_orderly : Orderly moves startsHeritageClause := .kindIs _

theorem startsNextHeritage_orderly : Orderly moves startsNextHeritage :=
  .bind startsHeritageClause_orderly fun _ => .ite (peek_orderly startsExpression_orderly) (.pure _)

theorem heritageAhead_orderly : Orderly true heritageAhead := by
  refine .bind .nextKind fun first => .ite (.bind .nextKind fun next => ?_) (.pure _)
  split <;> exact .pure _

theorem braceIsHeritage_orderly : Orderly moves braceIsHeritage := .lookAhead heritageAhead_orderly

/-! ## 9. Lists -/

theorem startsElement_orderly (list : ListContext) (afterError : Bool) :
    Orderly moves (startsElement list afterError) := by
  cases list with
  | sourceElements | blockStatements | switchClauseStatements =>
    exact .bind (.isAtPunct _) fun _ => .ite (.pure _) startsStatement_orderly
  | switchClauses => exact .or (.isAtKeyword _) (.isAtKeyword _)
  | typeMembers => exact startsTypeMember_orderly
  | classMembers =>
    exact .bind startsClassMember_orderly fun _ => .ite (.pure _) (.ite (.pure _) (.isAtPunct _))
  | enumMembers => exact .or (.isAtPunct _) isPropertyName_orderly
  | objectLiteralMembers =>
    refine .bind .kind fun k => ?_
    split
    case h_5 => exact isPropertyName_orderly
    all_goals exact .pure _
  | objectBindingElements =>
    refine .bind .kind fun k => ?_
    split
    case h_3 => exact isPropertyName_orderly
    all_goals exact .pure _
  | heritageClauseElement =>
    refine .bind (.isAtPunct _) fun _ => .ite braceIsHeritage_orderly ?_
    refine .bind (.ite isIdentifier_orderly startsLeftHandSide_orderly) fun _ => .ite ?_ (.pure _)
    exact .map startsNextHeritage_orderly
  | variableDeclarations => exact startsBinding_orderly
  | arrayBindingElements =>
    refine .bind .kind fun k => ?_
    split
    case h_3 => exact startsBinding_orderly
    all_goals exact .pure _
  | typeParameters => exact isIdentifier_orderly
  | arrayLiteralMembers =>
    refine .bind .kind fun k => ?_
    split
    case h_4 => exact startsExpression_orderly
    all_goals exact .pure _
  | argumentExpressions => exact .or (.isAtPunct _) startsExpression_orderly
  | parameters => exact startsParameter_orderly
  | typeArguments | tupleElementTypes => exact .or (.isAtPunct _) startsType_orderly
  | heritageClauses => exact startsHeritageClause_orderly
  | importOrExportSpecifiers => exact isName_orderly
  | jsxAttributes => exact .or isName_orderly (.isAtPunct _)
  | jsxChildren => exact .pure _

theorem endsDeclarations_orderly : Orderly moves endsDeclarations :=
  .bind .canEndStatement fun _ => .ite (.pure _) (.kindIs _)

theorem endsList_orderly (list : ListContext) : Orderly moves (endsList list) := by
  refine .bind .kind fun k => .ite (.pure _) ?_
  cases list
  case variableDeclarations => exact endsDeclarations_orderly
  all_goals exact .pure _

theorem openListTakes_orderly : Orderly moves openListTakes := by
  refine .get (fun _ _ => rfl) fun s => ?_
  induction ListContext.all with
  | nil => exact .pure _
  | cons list lists ih =>
    refine .bind (.ite (.or (startsElement_orderly _ _) (endsList_orderly _)) (.pure _)) fun found => ?_
    cases found with
    | true => exact .pure _
    | false => exact ih

end ScriptSyntax.Parser
