/-
  ScriptSyntax/Proofs/Clean/Errors.lean
  =====================================
  Errors on the way.

  What has been reported stays reported.  So of a text that is known up to an
  error it is known that it has a diagnostic, whatever comes behind: the parser is
  followed up to the error, and what it does afterwards does not matter.  Here the
  error is met within the expression that a file starts with.
-/
import ScriptSyntax.Proofs.Clean.Lists
import ScriptSyntax.Proofs.File.OneStatement
import ScriptSyntax.Proofs.File.Silent

namespace ScriptSyntax

open ScriptSyntax.Parser

variable {α : Type} {env : Surroundings} {rank : Nat} {s : ParserState} {p : Parser α}

theorem Surroundings.Supplied.adds (h : env.Supplied rank s) : env.Adds := by
  obtain ⟨count, hcall, -⟩ := h.supply
  have hadds := Surroundings.adds_run env.file count
  intro q hq t
  rw [hcall]
  exact hadds q hq t

namespace Parser

/-- Whatever the parser comes to, something has been reported then, or has failed. -/
abbrev Reports (p : Parser α) (env : Surroundings) (s : ParserState) : Prop :=
  p.Ends env s fun _ t => ¬t.Clean

/-! ## 1. Rules -/

/-- A token that is read with an error. -/
theorem advance_reports {mode : ReadingMode} (h : (mode.read env.file.text s.token).2 ≠ []) :
    (advance mode).Reports env s := by
  intro hclean
  have hsilent := hclean.silent
  rw [log_advance, DiagnosticLog.size_reportScans_eq_zero_iff] at hsilent
  exact h hsilent.2

theorem inList_reports {list : ListContext} (h : p.Reports env (s.withLists (list :: s.scope.openLists))) :
    (inList list p).Reports env s :=
  .inList (h.mono fun _ _ ht hclean => ht ⟨hclean.faultless, hclean.silent⟩)

theorem withContext_reports {g : ContextFlags → ContextFlags} (h : p.Reports env (s.inContext (g s.scope.context))) :
    (withContext g p).Reports env s :=
  .withContext (h.mono fun _ _ ht hclean => ht ⟨hclean.faultless, hclean.silent⟩)

theorem nested_reports {p : Parser NodeId} (m : Message) (hdepth : s.scope.depth < maxDepth)
    (h : p.Reports env (s.atDepth (s.scope.depth + 1))) : (nested m p).Reports env s := by
  refine .get ?_
  split
  · omega
  · have hdeeper : p.Ends env (s.atDepth (s.scope.depth + 1)) fun _ t => ¬(t.atDepth (t.scope.depth - 1)).Clean :=
      h.mono fun _ _ ht hclean => ht ⟨hclean.faultless, hclean.silent⟩
    exact hdeeper

/-- An error in the first element of a list. -/
theorem elements_reports {list : ListContext} {element : Parser NodeId} (h : s.Ok env.file.text) (hadds : env.Adds)
    (hgoesOn : (endsList list).answer env (s.withLists (list :: s.scope.openLists)) = false)
    (hstarts : (startsElement list false).answer env (s.withLists (list :: s.scope.openLists)) = true)
    (horderly : Orderly true element) (helement : element.Reports env (s.withLists (list :: s.scope.openLists))) :
    (elements list element).Reports env s := by
  let inner := s.withLists (list :: s.scope.openLists)
  have hinner : inner.Ok env.file.text := h.inScope _
  have hloop : (repeating [] (listTurn list element)).Reports env inner := by
    refine repeating_comes (P := fun read t => (read = [] ∧ t = inner) ∨ ¬t.Clean) (.inl ⟨rfl, rfl⟩)
      (fun _ _ ht => ht) fun read t ht => ?_
    rcases ht with ⟨rfl, rfl⟩ | ht
    · refine .asked (endsList_asks _ hinner) hgoesOn (.asked (startsElement_asks _ _ hinner) hstarts ?_)
      exact helement.bind fun id u hu => .pure (.inr hu)
    · refine ((listTurn_orderly list horderly read).dirty hadds ht).mono fun outcome u hu => ?_
      cases outcome with
      | again _ => exact .inr hu
      | done _ => exact hu
  exact inList_reports (.nodePos (hloop.late hadds fun _ => .bind .nodePos fun _ => .pure _))

/-! ## 2. Expressions -/

theorem unary_reports (hadds : env.Adds) (hupdate : startsUpdate.Ends env s fun b t => b = true ∧ t = s)
    (h : updateExpression.Reports env s) : unary.Reports env s :=
  .nodePos (.kind (.leaves hupdate (.yes (h.late hadds fun _ => .bind (.isAtPunct _) fun _ =>
    .ite (binaryRest_orderly _ _ _) (.pure _)))))

theorem binary_reports {level : Precedence} (hadds : env.Adds) (h : unary.Reports env s) :
    (binary level).Reports env s :=
  .nodePos (h.late hadds fun _ => binaryRest_orderly _ _ _)

theorem assignmentBody_reports (hadds : env.Adds) (hword : ∀ word, s.token.kind ≠ .keyword word)
    (hhead : arrowHeadHere.Ends env s fun head t => head = none ∧ t = s) (h : (binary .comma).Reports env s) :
    assignmentBody.Reports env s := by
  refine assignmentBody_ends hword hhead (fun _ ht => congrArg ParserState.token ht) ?_
  rintro _ rfl
  exact h.mono fun id t ht => (afterOperators_orderly _ _).dirty hadds ht

theorem assignment_reports (hadds : env.Adds) (hdepth : s.scope.depth < maxDepth)
    (h : assignmentBody.Reports env (s.atDepth (s.scope.depth + 1))) : assignment.Reports env s :=
  (nested_reports .expressionExpected hdepth h).late hadds fun _ => .pure _

/-- An error in the first expression without commas. -/
theorem expression_reports (h : env.Supplied Production.expression.rank s)
    (hassignment : ∀ context inner, inner.file = env.file →
      inner.Supplied Production.assignment.rank (s.inContext context) →
      context.disallowIn = s.scope.context.disallowIn → assignment.Reports inner (s.inContext context)) :
    expression.Reports env s := by
  have hcontext : env.Supplied Production.expression.rank
      (s.inContext { s.scope.context with decoratorContext := false }) := h.inScope _
  have hfirst : (parse .assignment).Reports env (s.inContext { s.scope.context with decoratorContext := false }) :=
    parse_of_body hcontext (by decide) fun inner hfile hinner => hassignment _ inner hfile hinner rfl
  refine withContext_reports (.nodePos (hfirst.late h.adds fun _ => .repeating (fun left => ?_) _))
  refine .bind (.acceptToken _) fun operator => ?_
  cases operator with
  | some operator => exact .bind (.parse trivial) fun _ => .map (binaryExpression_orderly _ _ _ _)
  | none => exact .pure _

/-! ## 3. Statements and files -/

theorem expressionOrLabeled_reports (h : env.Supplied Production.statement.rank s)
    (hexpression : ∀ context inner, inner.file = env.file →
      inner.Supplied Production.expression.rank (s.inContext context) → context.disallowIn = false →
      expression.Reports inner (s.inContext context)) : expressionOrLabeled.Reports env s := by
  have hcontext (context : ContextFlags) : env.Supplied Production.statement.rank (s.inContext context) :=
    h.inScope _
  have hinner : (allowIn (parse .expression)).Reports env s :=
    withContext_reports (parse_of_body (hcontext _) (by decide) fun inner hfile hinner =>
      hexpression _ inner hfile hinner rfl)
  refine .nodePos (hinner.late h.adds fun _ => .bind (.kindOf _) fun _ => ?_)
  refine .bind (.and (.pure _) (.acceptPunct _)) fun _ => .ite ?_ ?_
  · exact .bind (.parse trivial) fun _ => .finishProduction _ _ _
  · exact .bind .semicolon fun _ => .finishProduction _ _ _

theorem statement_reports (hadds : env.Adds) (hdepth : s.scope.depth < maxDepth)
    (hkind : s.token.kind.opensExpression)
    (h : expressionOrLabeled.Reports env (s.atDepth (s.scope.depth + 1))) : statement.Reports env s := by
  have hbody : statementBody.Reports env (s.atDepth (s.scope.depth + 1)) := by
    refine .nodePos (.kind ?_)
    have hkind : (s.atDepth (s.scope.depth + 1)).token.kind.opensExpression := hkind
    rcases hkind with (hkind | hkind | hkind | hkind) | hkind <;> rw [hkind] <;> exact h
  exact .nodePos ((nested_reports .statementExpected hdepth hbody).late hadds fun (_, _) =>
    .ite (.pure _) (.finishProduction _ _ _))

/-- An error in the first statement of a file. -/
theorem sourceFile_reports {file : SourceFacts} {first : Token} {context : ContextFlags}
    (hfirst : scanAt file.text 0 = (first, [])) (hkind : first.kind ≠ .endOfFile)
    (hstarts : ∀ s, s.token = first → startsStatement.answer file.surroundings s = true)
    (hstatement : ∀ env s, env.file = file → env.Supplied Production.statement.rank s → Fresh context first s →
      statement.Reports env s) : sourceFile.Reports file.surroundings (.initial context) := by
  have hfresh : nextToken.Ends file.surroundings (.initial context) _ := firstToken_fresh hfirst
  refine hfresh.bind fun _ s hs => ?_
  obtain ⟨hglance, hfresh⟩ := hs
  have hsupplied : file.surroundings.Supplied Production.topRank s := hglance.ok.supplied
  have hlists : Fresh context first (s.withLists (.sourceElements :: s.scope.openLists)) :=
    ⟨hfresh.token, hfresh.log, hfresh.depth, hfresh.context, hfresh.bare⟩
  have hcall : (parse .statement).Reports file.surroundings (s.withLists (.sourceElements :: s.scope.openLists)) :=
    parse_of_body (hsupplied.inScope _) (by decide) fun inner hfile hinner => hstatement inner _ hfile hinner hlists
  have hlist := holdsOne_statement (X := fun _ _ => True) (hlists.token ▸ hkind) (hstarts _ hlists.token)
  refine (elements_reports hsupplied.ok hsupplied.adds hlist.goesOn hlist.starts parseStatement_orderly hcall).late
    hsupplied.adds fun _ => .bind .kind fun _ => .ite ?_ (root_orderly _)
  exact .bind (.fail _) fun _ => root_orderly _

end Parser

/-- A text that starts with an expression has a diagnostic if an error is met in that. -/
theorem parseText_assignment_reports {fileName : String} {text : SourceText} {options : ParseOptions} {first : Token}
    (hfirst : scanAt text.chars 0 = (first, [])) (hkind : first.kind.opensExpression)
    (hbody : ∀ env s, env.file = .ofText fileName text (options.scriptKindFor fileName) →
      env.Supplied Production.assignment.rank s → AtExpression first s → assignmentBody.Reports env s) :
    ∃ f, parseText fileName text options = .ok f ∧ f.diagnostics ≠ [] := by
  let file := SourceFacts.ofText fileName text (options.scriptKindFor fileName)
  have hreports : sourceFile.Reports file.surroundings (.initial (options.scriptKindFor fileName).context) := by
    refine sourceFile_reports hfirst ?_ (fun s hs => startsStatement_of_opensExpression (hs ▸ hkind)) ?_
    · intro hend
      rw [hend] at hkind
      rcases hkind with (hkind | hkind | hkind | hkind) | hkind <;> cases hkind
    · intro env s hfile h hfresh
      have hdepth : s.scope.depth + 1 < maxDepth := by
        rw [hfresh.depth]
        decide
      refine statement_reports h.adds (Nat.lt_of_succ_lt hdepth) (hfresh.token ▸ hkind) ?_
      refine expressionOrLabeled_reports (h.inScope _) fun context inner hinner h hin => ?_
      refine expression_reports h fun context' inner' hinner' h' hin' => ?_
      refine assignment_reports h'.adds hdepth (hbody inner' _ ?_ (h'.inScope _) ?_)
      · rw [hinner', hinner, hfile]
      · refine ⟨hfresh.token, hfresh.log, ?_, hin'.trans hin, hfresh.bare⟩
        show s.scope.depth + 1 + 1 = 2
        rw [hfresh.depth]
  have hrooted := runOn_sourceFile file (options.scriptKindFor fileName).context
  exact ⟨_, parseText_eq_completeFile fileName text options, fun hsilent =>
    hreports (clean_of_diagnostics_eq_nil hrooted.run.ok.faultless hsilent)⟩

end ScriptSyntax
