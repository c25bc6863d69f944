/-
  ScriptSyntax/Proofs/Grammar/Productions.lean
  ============================================
  The productions that occur inside themselves.

  Between two calls at one place the rank of what is called goes down, and after
  a token it may start again from the top.  So the calls that enclose each other
  are no more than eight for each character and once more eight, and the bound on
  their number is never met.
-/
import ScriptSyntax.Proofs.Grammar.Declarations
import ScriptSyntax.Proofs.Grammar.Jsx
import ScriptSyntax.Proofs.Grammar.Statements
import ScriptSyntax.Proofs.Orderly.Blocks
import ScriptSyntax.Grammar.Productions

namespace ScriptSyntax

namespace Parser

variable {env : Surroundings} {rank : Nat} {took : Bool} {r m s t : ParserState}
variable {items : List Part}

/-! ## 1. Statements -/

theorem startsExpression_of_startsLeftHandSide (hok : s.Ok env.file.text)
    (h : startsLeftHandSide.answer env s = true) : startsExpression.answer env s = true := by
  unfold startsExpression
  rw [answer_bind (startsLeftHandSide_inquires (o := true).asks hok), h]
  rfl

/-- A word that is not reserved starts an expression, whatever the context. -/
theorem startsExpression_of_word {k : Keyword} (hok : s.Ok env.file.text)
    (hkind : s.token.kind = .keyword k) (hfree : k.isReserved = false)
    (hword : k ≠ .yieldKw ∧ k ≠ .awaitKw) : startsExpression.answer env s = true := by
  refine startsExpression_of_startsLeftHandSide hok (startsLeftHandSide_of_isIdentifier ?_)
  rw [isIdentifier, answer_kind, hkind]
  cases k
  any_goals rfl
  all_goals simp [Keyword.isReserved] at hfree hword

theorem Kind.word_of_isMemberModifier {k : Kind} (h : k.isMemberModifier = true) :
    ∃ word : Keyword, k = .keyword word ∧ word.isReserved = false
      ∧ (word ≠ .yieldKw ∧ word ≠ .awaitKw) := by
  unfold Kind.isMemberModifier at h
  split at h
  all_goals first
    | exact ⟨_, rfl, rfl, by decide⟩
    | cases h

/-- What starts a statement, but is neither a keyword of statements nor a declaration, starts an
expression. -/
theorem startsExpression_of_startsStatement (hok : s.Ok env.file.text)
    (h : startsStatement.answer env s = true) (hkind : s.token.kind.startsStatement = false)
    (hdeclares : declares s.token.kind = true → startsDeclaration.answer env s = false) :
    startsExpression.answer env s = true := by
  rw [startsStatement, answer_kind, hkind] at h
  simp only [Bool.false_eq_true, if_false] at h
  split at h
  all_goals try rename_i hword
  case h_1 =>
    have hoperand := (answer_or h (startsDeclaration_inquires (o := true).asks hok)).resolve_left
      (by simp [hdeclares (by rw [hword]; rfl)])
    refine startsExpression_of_startsLeftHandSide hok ?_
    rw [startsLeftHandSide, answer_kind, hword]
    exact hoperand
  case h_2 | h_3 =>
    exact absurd (h.symm.trans (hdeclares (by rw [hword]; rfl))) Bool.false_ne_true.symm
  case h_11 =>
    split at h
    · rename_i hmember
      obtain ⟨k, hword, hfree, hnone⟩ := Kind.word_of_isMemberModifier hmember
      exact startsExpression_of_word hok hword hfree hnone
    · exact h
  all_goals exact startsExpression_of_word hok hword rfl (by decide)

/-- What a statement comes to where it starts with an expression. -/
theorem expressionStatement_gives (h : env.Ready rank s)
    (hrank : Production.expression.rank < rank) (hkind : s.token.kind.startsStatement = false)
    (hdeclares : declares s.token.kind = true → startsDeclaration.answer env s = false) :
    expressionOrLabeled.Gives env (startsStatement.answer env s) s s :=
  (expressionOrLabeled_gives h hrank).mono fun _ _ ht => ⟨ht.run, ht.forward, fun hstarts =>
    ht.ahead (startsExpression_of_startsStatement h.ok hstarts hkind hdeclares)⟩

theorem declarationOrExpression_gives (h : env.Ready rank s)
    (hrank : Production.expression.rank < rank) (hkind : s.token.kind.startsStatement = false ∨
      startsDeclaration.answer env s = true) :
    declarationOrExpression.Gives env (startsStatement.answer env s) s s := by
  refine .ask (startsDeclaration_inquires (o := true).asks h.ok) (.ite (fun hyes => ?_) fun hno => ?_)
  · exact (declaration_takes h (.inr hyes)).loosen
  · exact expressionStatement_gives h hrank (hkind.resolve_right (by simp [hno])) fun _ => hno

theorem startsDeclaration_of_enum (hkind : s.token.kind = .keyword .enumKw) :
    startsDeclaration.answer env s = true := by
  have hturn : declarationTurn.Ends env s fun outcome _ => outcome = .done true := by
    refine .kind ?_
    rw [hkind]
    exact .pure rfl
  have hsearch : startsDeclaration.Ends env s fun found _ => found = true := by
    refine .peeked (.read (hturn.bind fun outcome _ houtcome => ?_))
    subst houtcome
    exact .pure rfl
  exact hsearch

/-- Without a check of the nesting a statement takes a token wherever one starts. -/
theorem statementBody_gives (h : env.Ready rank s) (hrank : Production.expression.rank < rank) :
    statementBody.Gives env (startsStatement.answer env s) s s := by
  have g := Sofar.start h
  refine .nodePos (.kind ?_)
  split
  all_goals try rename_i hkind
  case h_1 => exact (emptyStatement_takes h (by simp [hkind])).loosen
  case h_2 => exact (blockWith_takes _ h hkind).loosen
  case h_3 => exact (variableStatement_takes g rfl (by simp [hkind])).loosen
  case h_4 =>
    refine .ask (letDeclares_inquires (o := true).asks h.ok) (.ite (fun _ => ?_) fun _ => ?_)
    · exact (variableStatement_takes g rfl (by simp [hkind])).loosen
    · refine (expressionOrLabeled_gives h hrank).mono fun _ _ ht => ⟨ht.run, ht.forward, fun _ => ?_⟩
      exact ht.ahead (startsExpression_of_word h.ok hkind rfl (by decide))
  case h_5 => exact (functionDeclaration_takes g rfl hkind).loosen
  case h_6 => exact (classLike_takes rfl g rfl hkind).loosen
  case h_7 => exact (ifStatement_takes h hkind).loosen
  case h_8 => exact (doStatement_takes h hkind).loosen
  case h_9 | h_14 => exact (headedStatement_takes rfl h hkind).loosen
  case h_10 => exact (forStatement_takes h hkind).loosen
  case h_11 | h_12 => exact (jumpStatement_takes rfl h (by simp [hkind])).loosen
  case h_13 => exact (returnStatement_takes h hkind).loosen
  case h_15 => exact (switchStatement_takes h hkind).loosen
  case h_16 => exact (throwStatement_takes h hkind).loosen
  case h_17 | h_18 | h_19 => exact (tryStatement_takes h (by rw [hkind]; rfl)).loosen
  case h_20 => exact (debuggerStatement_takes h (by simp [hkind])).loosen
  case h_21 => exact (declaration_takes h (.inl hkind)).loosen
  case h_29 => exact declarationOrExpression_gives h hrank (.inr (startsDeclaration_of_enum hkind))
  case h_39 =>
    refine expressionStatement_gives h hrank ?_ fun hdeclares => ?_
    · unfold Kind.startsStatement
      split
      all_goals first
        | rfl
        | contradiction
    · unfold declares at hdeclares
      split at hdeclares
      all_goals contradiction
  all_goals exact declarationOrExpression_gives h hrank (.inl (by rw [hkind]; rfl))

/-- At the end of the text no statement starts. -/
theorem startsStatement_of_endOfFile (hkind : s.token.kind = .endOfFile) :
    startsStatement.answer env s = false := by
  rw [startsStatement, answer_kind, hkind]
  exact startsExpression_of_kind (.inl hkind)

/-- A statement takes a token wherever one starts. -/
theorem statement_gives (h : env.Ready rank s) (hrank : Production.expression.rank < rank) :
    statement.Gives env (startsStatement.answer env s) s s := by
  have hAlike : Alike true env s env (s.atDepth (s.scope.depth + 1)) :=
    ⟨rfl, rfl, rfl, rfl, fun _ => rfl⟩
  have hbody : statementBody.Gives env (startsStatement.answer env s)
      (s.atDepth (s.scope.depth + 1)) (s.atDepth (s.scope.depth + 1)) := by
    rw [startsStatement_inquires.answer_eq hAlike]
    exact statementBody_gives (h.atDepth _) hrank
  refine .nodePos ((nested_gives _ h.ok (fun hstarts hkind => ?_) hbody).bind fun (id, parsed) t ht => ?_)
  · exact absurd (hstarts.symm.trans (startsStatement_of_endOfFile hkind)) nofun
  · have g : Sofar env rank (startsStatement.answer env s) s s t [.node id] := ⟨ht, h.run ht.run⟩
    refine .ite (fun _ => g.done rfl) fun _ => ?_
    exact g.finishProduction rfl (by simp [Payload.fields]) rfl

end Parser

/-! ## 2. Calls -/

namespace Production

open ScriptSyntax.Parser

variable {env : Surroundings} {s : ParserState}

theorem begins_inquires (q : Production) : Inquires true q.begins := by
  cases q with
  | statement => exact startsStatement_inquires
  | expression => exact startsExpression_inquires
  | assignment => exact startsExpression_inquires
  | leftHandSide => exact startsLeftHandSide_inquires
  | _ => exact .pure _

theorem Meets.of_handed {q : Production} {took : Bool} {id : NodeId} {t : ParserState}
    (h : Handed env.file.text took s s t [.node id])
    (htook : q.begins.answer env s = true → took = true) (hother : q ≠ leftHandSide) :
    q.Meets env s id t where
  run := h.run
  takes hbegins := h.ahead (htook hbegins)
  stays heq := absurd heq hother

/-- A production comes to what a call of it should, if calls inside it do: those of lower rank at
once, and all of them behind a token. -/
theorem body_ends (q : Production) (h : env.Ready q.rank s) (hadmits : q.Admits s.token) :
    q.body.Ends env s (q.Meets env s) := by
  cases q with
  | statement => exact (statement_gives h (by decide)).mono fun _ _ ht => .of_handed ht id nofun
  | expression => exact (expression_gives h (by decide)).mono fun _ _ ht => .of_handed ht id nofun
  | assignment => exact (assignment_gives h (by decide)).mono fun _ _ ht => .of_handed ht id nofun
  | binary level =>
    exact (binary_gives level h (show 2 < 4 by decide)).mono fun _ _ ht => .of_handed ht nofun nofun
  | simpleUnary =>
    exact (simpleUnary_ends h (by decide)).mono fun _ _ ht => .of_handed ht.run.handed nofun nofun
  | leftHandSide => exact leftHandSide_ends h
  | primary => exact (primary_ends h).mono fun _ _ ht => .of_handed ht.run.handed nofun nofun
  | type => exact (type_gives h).mono fun _ _ ht => .of_handed ht nofun nofun
  | typeOperator => exact (typeOperator_gives h).mono fun _ _ ht => .of_handed ht nofun nofun
  | bindingName => exact (bindingName_gives h).mono fun _ _ ht => .of_handed ht nofun nofun
  | jsxElement inExpression =>
    exact (jsxElement_takes inExpression h hadmits).mono fun _ _ ht => .of_handed ht (fun _ => rfl) nofun
  | namespaceDeclaration start flags =>
    obtain ⟨rfl, herror⟩ := hadmits
    exact (namespaceDeclaration_gives (Sofar.start h) rfl herror).mono fun _ _ ht =>
      .of_handed ht nofun nofun

/-- The number of calls that may enclose each other from here on: a production of each rank at every
place that is left. -/
def callsLeft (file : SourceFacts) (q : Production) (s : ParserState) : Nat :=
  (file.text.size - s.pos) * topRank + q.rank

theorem rank_pos (q : Production) : 0 < q.rank := by
  cases q <;> exact Nat.succ_pos _

/-- Behind a token, or at the same place but for a production of lower rank, there are fewer calls
left. -/
theorem callsLeft_lt {file : SourceFacts} {q q' : Production} {s t : ParserState}
    (ht : t.Ok file.text) (h : s.pos < t.pos ∨ (s.pos ≤ t.pos ∧ q'.rank < q.rank)) :
    q'.callsLeft file t < q.callsLeft file s := by
  have hsize := ht.pos_le_size
  have hrank : q'.rank < topRank := q'.rank_lt_topRank
  simp only [callsLeft, topRank] at hrank ⊢
  omega

/-- Which calls are made inside a production does not matter to what starts it. -/
theorem Meets.called {q : Production} {file : SourceFacts}
    {call : Production → ParserState → NodeId × ParserState} {id : NodeId} {t : ParserState}
    (h : q.Meets ⟨file, call⟩ s id t) (call' : Production → ParserState → NodeId × ParserState) :
    q.Meets ⟨file, call'⟩ s id t where
  run := h.run
  takes hbegins := by
    have hAlike : Alike true ⟨file, call⟩ s ⟨file, call'⟩ s := ⟨rfl, rfl, rfl, rfl, fun _ => rfl⟩
    exact h.takes ((q.begins_inquires.answer_eq hAlike).trans hbegins)
  stays := h.stays

/-- Every call comes to what it should, if there are enough calls left. -/
theorem run_meets (file : SourceFacts) (count : Nat) (q : Production) (s : ParserState)
    (call : Production → ParserState → NodeId × ParserState) (hok : s.Ok file.text)
    (hadmits : q.Admits s.token) (hcount : q.callsLeft file s ≤ count) :
    q.Meets ⟨file, call⟩ s (run file count q s).1 (run file count q s).2 := by
  induction count generalizing q s call with
  | zero => exact absurd (Nat.le_trans (Nat.le_add_left _ _) hcount) (Nat.not_le_of_lt q.rank_pos)
  | succ count ih =>
    have hready : Surroundings.Ready ⟨file, run file count⟩ q.rank s := by
      refine ⟨hok, (Surroundings.expresses_run file count).call, fun q' t ht hle hadmits' => ?_⟩
      refine ih q' t _ ht hadmits' ?_
      have hless : q'.callsLeft file t < q.callsLeft file s := callsLeft_lt ht hle
      omega
    have hbody : q.body.Ends ⟨file, run file count⟩ s (q.Meets ⟨file, run file count⟩ s) :=
      q.body_ends hready hadmits
    exact Meets.called hbody call

end Production

/-- From any place in the text all productions may be called. -/
theorem ParserState.Ok.ready {file : SourceFacts} {s : ParserState} (h : s.Ok file.text) :
    file.surroundings.Ready Production.topRank s where
  ok := h
  expresses := (Surroundings.expresses_run file _).call
  serves q t ht _ hadmits := by
    refine q.run_meets file _ t _ ht hadmits ?_
    have := q.rank_lt_topRank
    simp only [Production.callsLeft, SourceFacts.callLimit, Production.topRank] at this ⊢
    omega

end ScriptSyntax
