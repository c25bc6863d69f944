/-
  ScriptSyntax/Proofs/Grammar/Starts.lean
  =======================================
  What a token may start: every question of the grammar asks, and leaves the
  state as it is.
-/
import ScriptSyntax.Proofs.Grammar.Scouting
import ScriptSyntax.Grammar.Signatures

namespace ScriptSyntax

namespace Parser

variable {o : Bool} {env : Surroundings} {s t : ParserState}

/-! ## 1. Names -/

theorem isIdentifier_inquires : Inquires o isIdentifier := by
  refine .bind .kind fun k => ?_
  split
  any_goals with_reducible exact .pure _
  · refine .of_eq (fun _ _ => rfl) fun h => ?_
    exact congrArg not h.yieldContext
  · refine .of_eq (fun _ _ => rfl) fun h => ?_
    exact congrArg not h.awaitContext

theorem isName_inquires : Inquires o isName := .kindIs _

theorem isPropertyName_inquires : Inquires o isPropertyName := .kindIs _

theorem startsBinding_inquires : Inquires o startsBinding := by
  refine .bind .kind fun k => ?_
  split
  any_goals with_reducible exact .pure _
  · exact isIdentifier_inquires

theorem isNameOrLiteralOnSameLine_inquires : Inquires o isNameOrLiteralOnSameLine :=
  .onSameLine (.kindIs _)

theorem canEndStatement_inquires : Inquires o canEndStatement := by
  refine .bind .kind fun k => ?_
  split
  any_goals with_reducible exact .pure _
  · exact .afterLineBreak

/-! ## 2. Expressions -/

theorem isParenOrLessThan_inquires : Inquires o isParenOrLessThan := .kindIs _

/-- Is `import` called, or does it have a member? -/
theorem importIsOperand_inquires :
    Inquires o (peek (isParenOrLessThan <||> isAtPunct .dot)) :=
  .peek (isParenOrLessThan_inquires.or (.isAtPunct _)).toScouts

theorem startsLeftHandSide_inquires : Inquires o startsLeftHandSide := by
  refine .bind .kind fun k => .ite (.pure true) ?_
  split
  · exact importIsOperand_inquires
  · exact isIdentifier_inquires

/-- `in` is an operator unless the context forbids it. -/
theorem isBinaryOperator_inquires : Inquires true isBinaryOperator := by
  refine .of_eq (fun env s => ?_) fun {env env' s s'} h => ?_
  · show ((if (_ : Bool) = true then _ else _ : Parser Bool) env s).2 = s
    split <;> rfl
  · show ((if (_ : Bool) = true then _ else _ : Parser Bool) env s).1
      = ((if (_ : Bool) = true then _ else _ : Parser Bool) env' s').1
    rw [h.token, h.disallowIn rfl]
    split <;> rfl

theorem startsExpression_inquires : Inquires true startsExpression := by
  refine .bind startsLeftHandSide_inquires fun b => .ite (.pure true) (.bind .kind fun k => ?_)
  split
  any_goals with_reducible exact .pure _
  · exact .ite (.pure true) (isBinaryOperator_inquires.or isIdentifier_inquires)

theorem startsExpressionStatement_inquires : Inquires true startsExpressionStatement := by
  refine .bind .kind fun k => ?_
  split
  any_goals with_reducible exact .pure _
  · exact startsExpression_inquires

/-! ## 3. Modifiers -/

theorem canFollowModifier_inquires : Inquires o canFollowModifier := by
  refine .bind .kind fun k => ?_
  split
  any_goals with_reducible exact .pure _
  · exact isPropertyName_inquires

theorem nextKind_scouts : Scouts o nextKind := .afterNext Inquires.kind.toScouts

theorem defaultIsModifier_scouts : Scouts o defaultIsModifier := by
  refine .bind nextKind_scouts fun k => ?_
  split
  any_goals with_reducible exact .pure _
  · exact (Inquires.peek (Inquires.onSameLine (.isAtKeyword _)).toScouts).toScouts
  · exact (Inquires.peek (Inquires.onSameLine (.isAtKeyword _)).toScouts).toScouts

theorem nextFollowsModifier_scouts : Scouts o nextFollowsModifier :=
  .afterNext (Inquires.onSameLine canFollowModifier_inquires).toScouts

theorem tokenIsModifier_scouts : Scouts o tokenIsModifier := by
  refine Inquires.kind.toScouts.bind fun k => ?_
  split
  · exact nextKind_scouts.bind fun _ => .pure _
  · refine nextKind_scouts.bind fun k => ?_
    split
    any_goals with_reducible exact .pure _
    · exact (Inquires.lookAhead defaultIsModifier_scouts).toScouts
    · exact canFollowModifier_inquires.toScouts
  · exact defaultIsModifier_scouts
  · exact .afterNext canFollowModifier_inquires.toScouts
  · exact nextFollowsModifier_scouts

/-! ## 4. Declarations and statements -/

/-- Is there, on the line of the keyword, the name of what it declares? -/
theorem nameFollows_scouts {p : Parser Bool} (hp : Inquires o p) :
    Scouts o (do return (Turn.done (← afterNext (onSameLine p)) : Turn Bool)) :=
  (Inquires.onSameLine hp).toScouts.afterNext.bind fun _ => .pure _

/-- A modifier goes on to the next word, on its line. -/
theorem modifierGoesOn_scouts :
    Scouts o (do
      nextToken
      if ← afterLineBreak then return Turn.done false else return Turn.again false : Parser _) :=
  Scouts.nextToken.bind fun _ => Inquires.afterLineBreak.toScouts.bind fun _ =>
    .ite (.pure _) (.pure _)

theorem declarationTurn_scouts : Scouts o declarationTurn := by
  refine Inquires.kind.toScouts.bind fun k => ?_
  split
  any_goals with_reducible exact .pure _
  any_goals with_reducible exact nameFollows_scouts isIdentifier_inquires
  any_goals with_reducible exact nameFollows_scouts (isIdentifier_inquires.or (.isAt _))
  any_goals with_reducible exact modifierGoesOn_scouts
  · refine nextKind_scouts.bind fun k => ?_
    split
    any_goals with_reducible exact .pure _
  · refine nextKind_scouts.bind fun k => ?_
    split
    any_goals with_reducible exact .pure _
    · exact isName_inquires.toScouts.bind fun _ => .pure _
  · refine nextKind_scouts.bind fun k => ?_
    split
    any_goals with_reducible exact .pure _
  · exact Scouts.nextToken.bind fun _ => .pure _

/-- The turn that goes on, if it does, has read on. -/
abbrev Gains (turn : Parser (Turn Bool)) (env : Surroundings) (s : ParserState) : Prop :=
  turn.Ends env s fun outcome t => ∀ b, outcome = .again b → s.pos < t.pos

theorem done_gains (p : Parser Bool) : Gains (do return .done (← p)) env s :=
  fun _ hdone => nomatch hdone

theorem modifierGoesOn_gains (h : s.Ok env.file.text) (hkind : s.token.kind ≠ .endOfFile) :
    Gains (do
      nextToken
      if ← afterLineBreak then return Turn.done false else return Turn.again false) env s :=
  (nextToken_ends h hkind).bind fun _ _ ht => .afterLineBreak
    (.ite (fun _ => .pure nofun) fun _ => .pure fun _ _ => ht.took)

theorem nextKind_ends (h : s.Ok env.file.text) (hkind : s.token.kind ≠ .endOfFile) :
    nextKind.Ends env s fun k t => k = t.token.kind ∧ Skipped env.file.text s t :=
  (nextToken_ends h hkind).bind fun _ _ ht => ⟨rfl, ht⟩

/-- Where the search for a declaration goes on, it has read over a keyword. -/
theorem declarationTurn_gains (h : s.Ok env.file.text) : Gains declarationTurn env s := by
  by_cases hkind : s.token.kind = .endOfFile
  · refine Ends.kind ?_
    rw [hkind]
    exact Ends.pure nofun
  refine Ends.kind ?_
  split
  any_goals with_reducible exact Ends.pure nofun
  any_goals with_reducible exact done_gains _
  any_goals with_reducible exact modifierGoesOn_gains h hkind
  · refine (nextKind_ends h hkind).bind fun k t ht => ?_
    split
    all_goals exact .pure nofun
  · refine (nextKind_ends h hkind).bind fun k t ht => ?_
    split
    any_goals with_reducible exact .pure nofun
    exact fun _ hdone => nomatch hdone
  · refine (nextKind_ends h hkind).bind fun k t ht => ?_
    split
    all_goals exact .pure fun _ _ => ht.2.took
  · exact (nextToken_ends h hkind).bind fun _ t ht => .pure fun _ _ => ht.took

theorem declarationTurns_scouts : Scouts o (repeating false fun _ => declarationTurn) :=
  .repeating (fun _ => declarationTurn_scouts) (fun h _ => declarationTurn_gains h) false

theorem startsDeclaration_inquires : Inquires o startsDeclaration := .lookAhead declarationTurns_scouts

/-- A word that only class members have in front of them starts a statement where a declaration
follows, or where it is a name. -/
theorem memberModifierStarts_inquires :
    Inquires o (do
      if ← startsDeclaration then return true
      return !(← peek (onSameLine isName)) : Parser Bool) :=
  startsDeclaration_inquires.bind fun _ => .ite (.pure true)
    ((Inquires.peek (Inquires.onSameLine isName_inquires).toScouts).bind fun _ => .pure _)

theorem startsStatement_inquires : Inquires true startsStatement := by
  refine .bind .kind fun k => .ite (.pure true) ?_
  split
  any_goals with_reducible exact .pure _
  · exact startsDeclaration_inquires.or importIsOperand_inquires
  · exact startsDeclaration_inquires
  · exact startsDeclaration_inquires
  · exact .ite memberModifierStarts_inquires startsExpression_inquires

theorem letDeclares_inquires : Inquires o letDeclares := .peek startsBinding_inquires.toScouts

/-! ## 5. Types -/

theorem startsParameter_inquires : Inquires o startsParameter := by
  refine .bind .kind fun k => ?_
  split
  any_goals with_reducible exact .pure _
  exact .ite (.pure true) startsBinding_inquires

theorem isNumber_inquires : Inquires o isNumber := .kindIs _

/-- After an opening parenthesis only tokens are read to see whether a type goes on. -/
theorem openedType_ends (count : Nat) (h : s.Ok env.file.text)
    (hkind : s.token.kind = .punct .openParen)
    (hinner : ∀ t, t.Ok env.file.text → s.pos < t.pos → (startsTypeUpTo count).Asks env t) :
    (afterNext (isAtPunct .closeParen <||> startsParameter <||> startsTypeUpTo count)).Ends env s
      fun _ t => Glance env.file.text s t := by
  refine (nextToken_ends h (by simp [hkind])).bind fun _ t ht => ?_
  have hasks := ((Inquires.isAtPunct (o := true) .closeParen).asks ht.ok).or
    ((startsParameter_inquires (o := true).asks ht.ok).or (hinner t ht.ok ht.took))
  show Glance env.file.text s _
  rw [hasks]
  exact ht.toGlance

/-- Parentheses that open inside each other end with the text. -/
theorem startsTypeUpTo_asks (count : Nat) (h : s.Ok env.file.text)
    (hcount : env.file.text.size - s.pos < count) : (startsTypeUpTo count).Asks env s := by
  induction count generalizing s with
  | zero => exact absurd hcount (Nat.not_lt_zero _)
  | succ count ih =>
    refine Asks.kind ?_
    split
    · exact (Inquires.peek (o := true) isNumber_inquires.toScouts).asks h
    · rename_i hkind
      refine (openedType_ends count h hkind fun t ht htook => ih ht ?_).lookAhead
      have := ht.pos_le_size
      omega
    · exact (Inquires.ite (o := true) (.pure true) isIdentifier_inquires).asks h

theorem startsType_asks (h : s.Ok env.file.text) : startsType.Asks env s := by
  have hsize : env.file.text.size - s.pos < env.file.text.size + 2 := by omega
  exact .read (startsTypeUpTo_asks _ h hsize)

theorem mappedTypeAhead_scouts : Scouts o mappedTypeAhead := by
  refine nextKind_scouts.bind fun first => .ite (nextKind_scouts.bind fun _ => .pure _) ?_
  extract_lets rest
  have hrest (u) : Scouts o (rest u) :=
    (Inquires.isAtPunct _).toScouts.bind fun _ => .ite (.pure false)
      (isIdentifier_inquires.toScouts.afterNext.bind fun _ => .ite (.pure false)
        (nextKind_scouts.bind fun _ => .pure _))
  exact .ite (Scouts.nextToken.bind fun u => hrest u) (hrest ())

theorem startsMappedType_inquires : Inquires o startsMappedType := .lookAhead mappedTypeAhead_scouts

/-! ## 6. Members -/

theorem endsMemberName_inquires : Inquires o endsMemberName := by
  refine .bind .kind fun k => ?_
  split
  any_goals with_reducible exact .pure _
  exact canEndStatement_inquires

theorem Kind.isName_of_isModifier {k : Kind} (h : k.isModifier = true) : k.isName = true := by
  cases k <;> first | rfl | cases h

theorem Kind.ne_endOfFile_of_isModifier {k : Kind} (h : k.isModifier = true) : k ≠ .endOfFile := by
  rintro rfl
  cases h

theorem skipModifiers_scouts : Scouts o skipModifiers := by
  refine .repeating (fun found => ?_) (fun hok found => .kind (.ite (fun hkind => ?_) fun _ => ?_)) _
  · exact Inquires.kind.toScouts.bind fun _ =>
      .ite (Scouts.nextToken.bind fun _ => .pure _) (.pure _)
  · exact (nextToken_ends hok (Kind.ne_endOfFile_of_isModifier hkind)).bind fun _ _ ht =>
      .pure fun _ _ => ht.took
  · exact .pure nofun

theorem typeMemberAhead_scouts : Scouts o typeMemberAhead := by
  refine isParenOrLessThan_inquires.toScouts.bind fun _ => .ite (.pure true) ?_
  refine skipModifiers_scouts.bind fun _ => (Inquires.isAtPunct _).toScouts.bind fun _ =>
    .ite (.pure true) (isPropertyName_inquires.toScouts.bind fun _ => ?_)
  exact .ite endsMemberName_inquires.toScouts.afterNext
    (.ite endsMemberName_inquires.toScouts (.pure false))

theorem startsTypeMember_inquires : Inquires o startsTypeMember := .lookAhead typeMemberAhead_scouts

theorem skipMemberModifiers_scouts : Scouts o skipMemberModifiers := by
  refine .repeating (fun found => ?_) (fun hok found => .kind (.ite (fun _ => ?_) fun hkind => ?_)) _
  · exact Inquires.kind.toScouts.bind fun _ => .ite (.pure _)
      (.ite (.pure _) (Scouts.nextToken.bind fun _ => .pure _))
  · exact .pure nofun
  · refine .ite (fun _ => .pure nofun) fun _ => ?_
    have hkind := Kind.ne_endOfFile_of_isModifier (by simpa using hkind)
    exact (nextToken_ends hok hkind).bind fun _ _ ht => .pure fun _ _ => ht.took

theorem classMemberGoesOn_inquires (name : Kind) : Inquires o (classMemberGoesOn name) := by
  refine .ite (.pure true) (.bind .kind fun k => ?_)
  split
  any_goals with_reducible exact .pure _
  exact canEndStatement_inquires

theorem classMemberAhead_scouts : Scouts o classMemberAhead := by
  refine (Inquires.isAtPunct _).toScouts.bind fun _ => .ite (.pure true) ?_
  refine skipMemberModifiers_scouts.bind fun (modifier, decided) => .ite (.pure true) ?_
  refine (Inquires.isAtPunct _).toScouts.bind fun _ => .ite (.pure true) ?_
  refine isPropertyName_inquires.toScouts.bind fun _ => ?_
  extract_lets rest
  have hrest (name) : Scouts o (rest name) := by
    refine (Inquires.isAtPunct _).toScouts.bind fun _ => .ite (.pure true) ?_
    cases name with
    | none => exact .pure false
    | some k => exact (classMemberGoesOn_inquires k).toScouts
  exact .ite (Inquires.kind.toScouts.bind fun k => Scouts.nextToken.bind fun _ => hrest (some k))
    (hrest modifier)

theorem startsClassMember_inquires : Inquires o startsClassMember := .lookAhead classMemberAhead_scouts

theorem indexSignatureAhead_scouts : Scouts o indexSignatureAhead := by
  refine nextKind_scouts.bind fun first => .ite (.pure true) ?_
  extract_lets rest
  have hrest (u) : Scouts o (rest u) := by
    refine Inquires.kind.toScouts.bind fun k => ?_
    split
    any_goals with_reducible exact .pure _
    refine nextKind_scouts.bind fun k => ?_
    split
    all_goals exact .pure _
  refine .ite (Scouts.nextToken.bind fun _ => isIdentifier_inquires.toScouts.bind fun _ => ?_) ?_
  · exact .ite (.pure true) (hrest ())
  · exact isIdentifier_inquires.toScouts.bind fun _ =>
      .ite (Scouts.nextToken.bind fun u => hrest u) (.pure false)

theorem startsIndexSignature_inquires : Inquires o startsIndexSignature :=
  (Inquires.isAtPunct _).bind fun _ => .ite (.pure false) (.lookAhead indexSignatureAhead_scouts)

/-! ## 7. Heritage -/

theorem startsHeritageClause_inquires : Inquires o startsHeritageClause := .kindIs _

theorem startsNextHeritage_inquires : Inquires true startsNextHeritage :=
  startsHeritageClause_inquires.bind fun _ =>
    .ite (.peek startsExpression_inquires.toScouts) (.pure false)

theorem heritageAhead_scouts : Scouts o heritageAhead := by
  refine nextKind_scouts.bind fun k => .ite (nextKind_scouts.bind fun k => ?_) (.pure _)
  split
  all_goals exact .pure _

theorem braceIsHeritage_inquires : Inquires o braceIsHeritage := .lookAhead heritageAhead_scouts

end Parser

end ScriptSyntax
