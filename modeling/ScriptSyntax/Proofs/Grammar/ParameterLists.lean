/-
  ScriptSyntax/Proofs/Grammar/ParameterLists.lean
  ===============================================
  Parameters are read as what they are.
-/
import ScriptSyntax.Proofs.Grammar.KnownLists
import ScriptSyntax.Proofs.Grammar.LoneOperands
import ScriptSyntax.Proofs.Grammar.TypeTerms
import ScriptSyntax.Proofs.Tree.Parameter

namespace ScriptSyntax

open ScriptSyntax.Parser

variable {env : Surroundings} {rank : Nat} {r s t : ParserState} {rest : List Piece} {next : Token}
variable {p : ParameterTerm} {ps : List ParameterTerm} {word : PlainName}

/-- After a parameter or an item a comma comes next, or the closing parenthesis. -/
theorem GoesOnWith.ends {text : Array Char} (h : GoesOnWith [.comma, .closeParen] rest)
    (hahead : Ahead text rest next) : next.kind ∈ [.punct .comma, .punct .closeParen]
      ∧ next.flags.precedingLineBreak = false := by
  obtain ⟨⟨p, hp, hkind⟩, hline⟩ := h.kind hahead
  refine ⟨?_, hline⟩
  rw [hkind]
  exact List.mem_map_of_mem hp

namespace Parser

/-! ## 1. What may come after a name -/

/-- A name is an expression where it ends one. -/
theorem parse_assignment_reads_name (h : env.Supplied rank s) (hrank : Production.assignment.rank < rank)
    (hdepth : s.scope.depth < maxDepth) (hahead : Ahead env.file.text (.word word.text :: rest) s.token)
    (hrest : GoesOnWith [.comma, .closeParen, .semicolon] rest) :
    (parse .assignment).Ends env s (Yields env.file.text s fun id next F =>
      Ahead env.file.text rest next ∧ F.IsIdentifier id word.text ∧ s.forest.Gains (· = .identifier) F) := by
  obtain ⟨hkind, hvalue, -, next, hnext, hahead⟩ := hahead
  rw [word.wordKind_eq] at hkind
  have hends : next.kind.endsExpression = true := by
    obtain ⟨⟨p, hp, hkind⟩, -⟩ := hrest.kind hahead
    rw [hkind]
    simp only [List.mem_cons, List.not_mem_nil, or_false] at hp
    rcases hp with rfl | rfl | rfl <;> rfl
  refine parse_of_body h hrank fun inner hfile hinner => ?_
  rw [← hfile] at hnext hahead ⊢
  refine (assignment_yields_name hinner hdepth hkind hnext hends).mono fun id t ht => ht.mono ?_
  rintro id _ F ⟨rfl, hname, hgains⟩
  exact ⟨hahead, hvalue ▸ hname, hgains⟩

theorem startsParameter_of_name (hkind : s.token.kind = .identifier) :
    startsParameter.Ends env s fun b t => b = true ∧ t = s := by
  refine .kind ?_
  rw [hkind]
  refine .no (.kind ?_)
  rw [hkind]
  refine .kind ?_
  rw [hkind]
  exact ⟨rfl, rfl⟩

/-- No parameter and no expression starts with what comes after an element. -/
theorem startsParameter_leaves (hkind : s.token.kind = .punct .closeParen) :
    startsParameter.Ends env s fun b t => b = false ∧ t = s := by
  refine .kind ?_
  rw [hkind]
  refine .no (.kind ?_)
  rw [hkind]
  refine .kind ?_
  rw [hkind]
  exact ⟨rfl, rfl⟩

theorem startsExpression_leaves (hkind : s.token.kind ∈ [.punct .comma, .punct .closeParen]) :
    startsExpression.Ends env s fun b t => b = false ∧ t = s := by
  simp only [List.mem_cons, List.not_mem_nil, or_false] at hkind
  have hname : isIdentifier.Ends env s fun b t => b = false ∧ t = s := by
    refine .kind ?_
    rcases hkind with hkind | hkind <;> rw [hkind] <;> exact ⟨rfl, rfl⟩
  have hoperator : isBinaryOperator.Ends env s fun b t => b = false ∧ t = s := by
    refine .kind ?_
    rcases hkind with hkind | hkind <;> rw [hkind] <;> exact ⟨rfl, rfl⟩
  have hoperand : startsLeftHandSide.Ends env s fun b t => b = false ∧ t = s := by
    refine .kind ?_
    rcases hkind with hkind | hkind <;> rw [hkind] <;> exact .no hname
  refine .leaves hoperand (.no (.kind ?_))
  rcases hkind with hkind | hkind <;> rw [hkind] <;> exact .no (.orNo hoperator hname)

theorem initializerIn_leaves (hkind : s.token.kind ∈ [.punct .comma, .punct .closeParen])
    (hline : s.token.flags.precedingLineBreak = false) :
    (initializerIn true).Ends env s fun found t => found = none ∧ t = s := by
  have hexpression : startsExpression.Ends env s fun b t => b = false ∧ t = s := startsExpression_leaves hkind
  have hno : (hasInitializer true).Ends env s fun b t => b = false ∧ t = s := by
    refine .kind ?_
    simp only [List.mem_cons, List.not_mem_nil, or_false] at hkind
    rcases hkind with hkind | hkind
    all_goals
      rw [hkind]
      refine .afterLineBreak ?_
      rw [hline]
      exact .no (.no hexpression)
  exact .leaves hno (.no (.pure ⟨rfl, rfl⟩))

/-- The value after the sign is read. -/
theorem initializerIn_reads (h : env.Supplied Production.topRank s) (hdepth : s.scope.depth < maxDepth)
    (hahead : Ahead env.file.text (.punct .equals :: .space :: .word word.text :: rest) s.token)
    (hrest : GoesOnWith [.comma, .closeParen] rest) :
    (initializerIn true).Ends env s fun found t => ∃ value, found = some value
      ∧ Yields env.file.text s (fun id next F => Ahead env.file.text rest next
        ∧ F.IsIdentifier id word.text) value t := by
  obtain ⟨hkind, -, next, hnext, hahead⟩ := hahead
  have hstarts : (hasInitializer true).Ends env s fun b t => b = true ∧ t = s := by
    refine .kind ?_
    rw [hkind]
    exact ⟨rfl, rfl⟩
  refine .leaves hstarts (.yes ?_)
  refine (Way.start h).takeExpected hkind nofun hnext fun t htoken _ htook g => ?_
  have hvalue := parse_assignment_reads_name g.supplied (by decide) (g.quiet.shallow hdepth) (htoken ▸ hahead)
    (hrest.mono (by decide))
  refine hvalue.bind fun value u hu => .pure ⟨value, rfl, ?_⟩
  obtain ⟨hahead, hname, -⟩ := hu.holds
  exact ⟨g.quiet.after hu.quiet, Nat.lt_trans htook hu.took, hahead, hname⟩

/-- The type after a colon is read. -/
theorem typeAnnotation_reads (h : env.Supplied rank s) (hlog : s.log.size = 0)
    (hdepth : s.scope.depth < maxDepth)
    (hahead : Ahead env.file.text (.punct .colon :: .space :: .word word.text :: rest) s.token)
    (hrest : GoesOnWith [.comma, .closeParen] rest) :
    typeAnnotation.Ends env s fun found t => ∃ type, found = some type
      ∧ Yields env.file.text s (fun id next F => Ahead env.file.text rest next
        ∧ F.IsType id (.reference word [])) type t := by
  obtain ⟨hkind, -, next, hnext, hahead⟩ := hahead
  refine (Way.start h).take hkind nofun hnext fun t htoken _ htook g => .yes ?_
  rw [← htoken] at hahead
  have hlog := g.quiet.silent hlog
  have hdepth : t.scope.depth + (TypeTerm.reference word []).depth < maxDepth := by
    rw [g.quiet.scope_eq]
    exact hdepth
  have hterm : (TypeTerm.reference word []).WellFormed := .reference (by simp)
  have htype := hterm.isRead.type env t rest g.supplied hlog hdepth hahead (hrest.mono (by decide))
  refine htype.bind fun type u hu => .pure ⟨type, rfl, ?_⟩
  exact ⟨g.quiet.after hu.quiet, Nat.lt_trans htook hu.took, hu.holds⟩

theorem typeAnnotation_leaves (hkind : s.token.kind ≠ .punct .colon) :
    typeAnnotation.Ends env s fun found t => found = none ∧ t = s :=
  .leave hkind (.no (.pure ⟨rfl, rfl⟩))

/-- After a name nothing stands that might be taken for a modifier. -/
theorem skipStrayModifier_leaves {name : NodeId} {list : Option NodeArray} {n : Node}
    (hn : s.arena.get? name = some n) (hkind : s.token.kind.isModifier = false) :
    (skipStrayModifier name list).Ends env s fun _ t => t = s := by
  refine .ite (fun _ => .isMissing hn (.ite (fun _ => .kind ?_) fun _ => .pure rfl)) fun _ => .pure rfl
  rw [hkind]
  exact .no (.pure rfl)

/-! ## 2. Parameters -/

/-- The name of a parameter is a binding name. -/
theorem bindingName_yields (h : env.Supplied Production.topRank s) (hkind : s.token.kind = .identifier)
    (hread : s.token.next env.file.text = (next, [])) :
    (parse .bindingName).Ends env s (Yields env.file.text s fun id u F =>
      u = next ∧ F.IsIdentifier id s.token.value) := by
  refine parse_of_body h (by decide) fun inner hfile hinner => ?_
  rw [← hfile] at hread ⊢
  have hname : identifier.Ends inner s _ := identifierOr_yields _ hinner.ok hkind hread
  refine .kind ?_
  rw [hkind]
  exact hname

/-- A parameter is read up to what comes after it in its list. -/
theorem parameter_reads (h : env.Supplied Production.topRank s) (hlog : s.log.size = 0)
    (hdepth : s.scope.depth < maxDepth) (hahead : Ahead env.file.text (p.before rest) s.token)
    (hrest : GoesOnWith [.comma, .closeParen] rest) :
    parameter.Ends env s (Yields env.file.text s fun id next F =>
      Ahead env.file.text rest next ∧ F.IsParameter id p) := by
  obtain ⟨hkind, hvalue, -, next, hnext, hahead⟩ := hahead
  rw [p.name.wordKind_eq] at hkind
  refine .nodePos (.leaves (decorators_leaves (by simp [hkind])) (.isAt ?_))
  rw [hkind]
  refine .no (.leaves (modifiers_leaves (by rw [hkind]; rfl)) (.leaveToken (by simp [hkind]) ?_))
  refine (Way.start h).step (bindingName_yields h hkind hnext) fun name t ht _ htook g => ?_
  obtain ⟨rfl, hname⟩ := ht
  rw [hvalue] at hname
  obtain ⟨_, _, ⟨n, hn, -⟩, -⟩ := id hname
  have hmodifier : t.token.kind.isModifier = false := by
    obtain ⟨⟨mark, -, hmark⟩, -⟩ := (p.goesOnWith_afterName hrest).kind hahead
    rw [hmark]
    rfl
  refine (skipStrayModifier_leaves hn hmodifier).bind ?_
  rintro _ t rfl
  have hlog := g.quiet.silent hlog
  have hdepth := g.quiet.shallow hdepth
  cases p with
  | plain x =>
    have hends := hrest.ends hahead
    refine .leaveToken (hrest.ne hahead (by decide)) ?_
    refine .leaves (typeAnnotation_leaves (hrest.ne hahead (by decide))) ?_
    refine .leaves (initializerIn_leaves hends.1 hends.2) ?_
    refine g.finish rfl htook rfl rfl fun id F hkeeps hshows => ?_
    exact ⟨hahead, .plain hshows (hname.keeps hkeeps)⟩
  | typed x y =>
    refine .leaveToken (by simp [hahead.1]) ?_
    refine (typeAnnotation_reads g.supplied hlog hdepth hahead hrest).bind ?_
    rintro _ u ⟨type, rfl, hu⟩
    have g := g.goTook hu.quiet hu.took
    obtain ⟨hahead, htype⟩ := hu.holds
    have hends := hrest.ends hahead
    refine .leaves (initializerIn_leaves hends.1 hends.2) ?_
    refine g.finish rfl (Nat.lt_trans htook hu.took) rfl rfl fun id F hkeeps hshows => ?_
    exact ⟨hahead, .typed hshows (hname.keeps (hu.quiet.keeps.trans hkeeps)) (htype.keeps hkeeps)⟩
  | optional x y =>
    obtain ⟨hkind, -, next, hnext, hahead⟩ := hahead
    refine (acceptToken_yields g.ok hkind nofun hnext).bind ?_
    rintro _ u ⟨questionMark, rfl, hu⟩
    have g := g.goTook hu.quiet hu.took
    obtain ⟨rfl, hquestion, -⟩ := hu.holds
    have hlog := hu.quiet.silent hlog
    have hdepth := hu.quiet.shallow hdepth
    refine (typeAnnotation_reads g.supplied hlog hdepth hahead hrest).bind ?_
    rintro _ v ⟨type, rfl, hv⟩
    have g := g.goTook hv.quiet hv.took
    obtain ⟨hahead, htype⟩ := hv.holds
    have hends := hrest.ends hahead
    have htook := Nat.lt_trans htook (Nat.lt_trans hu.took hv.took)
    refine .leaves (initializerIn_leaves hends.1 hends.2) ?_
    refine g.finish rfl htook rfl rfl fun id F hkeeps hshows => ?_
    have hkeeps' := hv.quiet.keeps.trans hkeeps
    exact ⟨hahead, .optional hshows (hname.keeps (hu.quiet.keeps.trans hkeeps')) (hquestion.keeps hkeeps')
      (htype.keeps hkeeps)⟩
  | initialized x y =>
    refine .leaveToken (by simp [show t.token.kind = _ from hahead.1]) ?_
    refine .leaves (typeAnnotation_leaves (by simp [show t.token.kind = _ from hahead.1])) ?_
    refine (initializerIn_reads g.supplied hdepth hahead hrest).bind ?_
    rintro _ u ⟨value, rfl, hu⟩
    have g := g.goTook hu.quiet hu.took
    obtain ⟨hahead, hvalue⟩ := hu.holds
    refine g.finish rfl (Nat.lt_trans htook hu.took) rfl rfl fun id F hkeeps hshows => ?_
    exact ⟨hahead, .initialized hshows (hname.keeps (hu.quiet.keeps.trans hkeeps)) (hvalue.keeps hkeeps)⟩

/-! ## 3. Lists of parameters -/

/-- Parameters are read in a list of parameters. -/
theorem isListOf_parameters (hlog : r.log.size = 0) (hdepth : r.scope.depth < maxDepth) :
    IsListOf env r .parameters parameter .closeParen ParameterTerm.before Forest.IsParameter ps where
  notComma := by decide
  ends t hkind := by
    unfold endsList
    rw [answer_kind, hkind]
    rfl
  startsNone t hkind := by
    have hno : startsParameter.Ends env t fun b u => b = false ∧ u = t := startsParameter_leaves hkind
    exact hno.1
  starts p _ t rest _ hahead _ := by
    have hkind : t.token.kind = .identifier := hahead.1.trans p.name.wordKind_eq
    have hyes : startsParameter.Ends env t fun b u => b = true ∧ u = t := startsParameter_of_name hkind
    exact hyes.1
  reads p _ t rest h hlog' hscope hahead hrest := by
    refine parameter_reads h (hlog' ▸ hlog) ?_ hahead hrest
    rw [hscope]
    exact hdepth
  keeps _ _ _ _ hkeeps h := h.keeps hkeeps

theorem parameters_read (h : env.Supplied Production.topRank s) (hlog : s.log.size = 0)
    (hdepth : s.scope.depth < maxDepth)
    (hahead : Ahead env.file.text
      (writtenList TypeTerm.comma ParameterTerm.before ps (.punct .closeParen :: rest)) s.token) :
    (separated .parameters parameter).Ends env s fun list t => Quiet env.file.text s t [.array list]
      ∧ Ahead env.file.text (.punct .closeParen :: rest) t.token
      ∧ List.Forall₂ t.forest.IsParameter list.nodes ps := by
  have hlist : IsListOf env (s.withLists (.parameters :: s.scope.openLists)) .parameters parameter .closeParen
    ParameterTerm.before Forest.IsParameter ps := isListOf_parameters hlog hdepth
  exact hlist.separated_reads h hahead

/-- A list of parameters in its parentheses is read. -/
theorem parameterList_reads (mode : SignatureMode) (h : env.Supplied rank s) (hlog : s.log.size = 0)
    (hdepth : s.scope.depth < maxDepth)
    (hahead : Ahead env.file.text (.punct .openParen
      :: writtenList TypeTerm.comma ParameterTerm.before ps (.punct .closeParen :: rest)) s.token) :
    (parameterList mode).Ends env s fun found t => ∃ list, found = some list
      ∧ Quiet env.file.text s t [.array list] ∧ s.pos < t.pos ∧ Ahead env.file.text rest t.token
      ∧ List.Forall₂ t.forest.IsParameter list.nodes ps := by
  obtain ⟨hkind, -, next, hnext, hahead⟩ := hahead
  refine (Way.start h).takeExpected hkind nofun hnext fun t htoken _ htook g => .yes ?_
  rw [← htoken] at hahead
  have hlist : (inFunction mode.isGenerator mode.isAsync (separated .parameters parameter)).Ends env t
      fun list u => Quiet env.file.text t u [.array list]
        ∧ Ahead env.file.text (.punct .closeParen :: rest) u.token
        ∧ List.Forall₂ u.forest.IsParameter list.nodes ps := by
    have hlog := g.quiet.silent hlog
    have hdepth := g.quiet.shallow hdepth
    refine .withContext (Ends.mono (parameters_read (g.supplied.inScope _) hlog hdepth hahead) fun list u hu => ?_)
    exact ⟨⟨hu.1.toRun.inContext, hu.1.log_eq⟩, hu.2⟩
  refine hlist.bind fun list u hu => ?_
  obtain ⟨hquiet, ⟨hkind, -, next, hnext, hahead⟩, hall⟩ := hu
  refine (g.go hquiet).takeExpected hkind nofun hnext fun v htoken hforest htook' g => ?_
  refine .ite (fun hgiven => ?_) fun _ => .pure ⟨list, rfl, g.quiet, ?_, htoken ▸ hahead, hforest ▸ hall⟩
  · simp at hgiven
  · exact Nat.lt_trans htook (Nat.lt_of_le_of_lt hquiet.forward htook')

end Parser

end ScriptSyntax
