/-
  ScriptSyntax/Proofs/Grammar/ArrowFunctions.lean
  ===============================================
  Arrow functions with parameters in parentheses, and what only looks like one.

  The tokens after the opening parenthesis say that there is an arrow function, or
  they leave it open.  In the second case the parameters are read on trial: what
  was read stays if the arrow comes next, and leaves no trace but names if not.
-/
import ScriptSyntax.Proofs.Grammar.ParameterLists

namespace ScriptSyntax

open ScriptSyntax.Parser

variable {env : Surroundings} {rank : Nat} {r s t : ParserState} {rest : List Piece} {next : Token}
variable {p : ParameterTerm} {ps : List ParameterTerm} {word : PlainName}

namespace Parser

/-! ## 1. Looking ahead -/

/-- After the first name: with a colon or a question mark there is an arrow function, otherwise it is left
open. -/
theorem arrowAfterName_answers (hahead : Ahead env.file.text (p.before rest) s.token)
    (hrest : GoesOnWith [.comma, .closeParen] rest) :
    arrowAfterName.Ends env s fun a _ => a = if p.isTyped then .yes else .unclear := by
  obtain ⟨-, -, -, next, hnext, hahead⟩ := hahead
  refine (nextKind_reads hnext).bind ?_
  rintro _ t ⟨rfl, rfl⟩
  cases p with
  | plain x =>
    have hends := (hrest.ends hahead).1
    simp only [List.mem_cons, List.not_mem_nil, or_false] at hends
    rcases hends with hkind | hkind <;> rw [hkind] <;> exact .pure rfl
  | typed x y =>
    rw [show t.token.kind = .punct .colon from hahead.1]
    exact .pure rfl
  | optional x y =>
    obtain ⟨hkind, -, next, hnext, hcolon, -⟩ := hahead
    rw [hkind]
    refine (nextKind_reads hnext).bind ?_
    rintro _ u ⟨rfl, rfl⟩
    rw [hcolon]
    exact .pure rfl
  | initialized x y =>
    rw [show t.token.kind = .punct .equals from hahead.1]
    exact .pure rfl

/-- At the opening parenthesis. -/
theorem startsArrow_answers (hahead : Ahead env.file.text (.punct .openParen :: p.before rest) s.token)
    (hrest : GoesOnWith [.comma, .closeParen] rest) :
    startsArrow.Ends env s fun a _ => a = if p.isTyped then .yes else .unclear := by
  obtain ⟨hkind, -, next, hnext, hahead⟩ := hahead
  refine .kind ?_
  rw [hkind]
  refine Ends.peeked (.kind ?_)
  rw [hkind]
  refine (nextKind_reads hnext).bind ?_
  rintro _ t ⟨rfl, rfl⟩
  have hname : t.token.kind = .identifier := hahead.1.trans p.name.wordKind_eq
  have hmodified : (isModifiedParameter .identifier).Ends env t fun b u => b = false ∧ u = t := ⟨rfl, rfl⟩
  have hidentifier : isIdentifier.Ends env t fun b u => b = true ∧ u = t := by
    refine .kind ?_
    rw [hname]
    exact ⟨rfl, rfl⟩
  rw [hname]
  refine .leaves hmodified (.no (.leaves (Ends.orYes hidentifier) (.yes ?_)))
  exact arrowAfterName_answers hahead hrest

/-! ## 2. Heads -/

theorem typeAfterColon_leaves (hkind : s.token.kind ≠ .punct .colon) :
    (typeAfterColon false).Ends env s fun found t => found = none ∧ t = s :=
  .leave hkind (.no (.no (.pure ⟨rfl, rfl⟩)))

theorem arrowModifiers_leaves (hkind : s.token.kind ≠ .keyword .asyncKw) :
    arrowModifiers.Ends env s fun list t => list = none ∧ t = s := by
  refine .isAt ?_
  rw [beq_eq_false_iff_ne.mpr hkind]
  exact ⟨rfl, rfl⟩

/-- The parameters have been read, from the state `r` on, up to the pieces after them. -/
structure ReadParameters (env : Surroundings) (ps : List ParameterTerm) (rest : List Piece)
    (r : ParserState) (list : NodeArray) (t : ParserState) : Prop where
  quiet : Quiet env.file.text r t [.array list]
  took : r.pos < t.pos
  all : List.Forall₂ t.forest.IsParameter list.nodes ps
  ahead : Ahead env.file.text rest t.token

/-- The head that consists of the parameters. -/
def parametersHead (pos : Nat) (list : NodeArray) : ArrowHead := ⟨{ pos }, { parameters := list }⟩

/-- The head is there if it is certain to be one, or if the arrow comes next. -/
theorem arrowHead_reads (certain : Bool) (h : env.Supplied rank s) (hlog : s.log.size = 0)
    (hdepth : s.scope.depth < maxDepth) (hrest : GoesOnWith [.equalsGreaterThan, .semicolon] rest)
    (hahead : Ahead env.file.text (.punct .openParen
      :: writtenList TypeTerm.comma ParameterTerm.before ps (.punct .closeParen :: rest)) s.token) :
    (arrowHead certain).Ends env s fun found t => ∃ list, ReadParameters env ps rest s list t
      ∧ found = if certain || t.token.kind == .punct .equalsGreaterThan then some (parametersHead s.pos list)
        else none := by
  have hkind : s.token.kind = .punct .openParen := hahead.1
  refine .nodePos (.leaves (arrowModifiers_leaves (by simp [hkind])) ?_)
  extract_lets mode
  have hsignature : (signatureIf (fun m => typeAfterColon m.inType) mode).Ends env s fun found t =>
      ∃ list, found = some { parameters := list } ∧ ReadParameters env ps rest s list t := by
    refine .leaves (typeParameters_leaves (by simp [hkind])) ?_
    refine (parameterList_reads mode h hlog hdepth hahead).bind ?_
    rintro _ t ⟨list, rfl, hquiet, htook, hahead, hall⟩
    refine .leaves (typeAfterColon_leaves (hrest.ne hahead (by decide))) ?_
    exact .pure ⟨list, rfl, hquiet, htook, hall, hahead⟩
  refine hsignature.bind ?_
  rintro _ t ⟨list, rfl, hread⟩
  refine .ite (fun hcertain => .pure ⟨list, hread, ?_⟩) fun hunclear => .kind ?_
  · rw [hcertain]
    rfl
  · obtain ⟨⟨mark, hmark, hkind⟩, -⟩ := hrest.kind hread.ahead
    simp only [List.mem_cons, List.not_mem_nil, or_false] at hmark
    rw [hunclear, hkind]
    rcases hmark with rfl | rfl
    · exact .pure ⟨list, hread, by simp [hkind, parametersHead]⟩
    · exact .pure ⟨list, hread, by simp [hkind]⟩

/-- Where the arrow comes after the parameters, the head of an arrow function is read. -/
theorem arrowHeadHere_reads (h : env.Supplied rank s) (hlog : s.log.size = 0)
    (hdepth : s.scope.depth < maxDepth) (hrest : GoesOnWith [.equalsGreaterThan] rest)
    (hahead : Ahead env.file.text (.punct .openParen
      :: writtenList TypeTerm.comma ParameterTerm.before (p :: ps) (.punct .closeParen :: rest)) s.token) :
    arrowHeadHere.Ends env s fun found t => ∃ list, found = some (parametersHead s.pos list)
      ∧ ReadParameters env (p :: ps) rest s list t := by
  have hstarts := startsArrow_answers hahead (IsListOf.goesOnWith ps)
  have hhead (certain : Bool) : (arrowHead certain).Ends env s fun found t =>
      ∃ list, found = some (parametersHead s.pos list) ∧ ReadParameters env (p :: ps) rest s list t := by
    refine (arrowHead_reads certain h hlog hdepth (hrest.mono (by decide)) hahead).mono ?_
    rintro found t ⟨list, hread, hfound⟩
    have hkind : t.token.kind = .punct .equalsGreaterThan := by
      obtain ⟨⟨mark, hmark, hkind⟩, -⟩ := hrest.kind hread.ahead
      rw [hkind, List.mem_singleton.mp hmark]
    exact ⟨list, by simpa [hkind] using hfound, hread⟩
  refine .asked (startsArrow_inquires (o := true).asks h.ok) hstarts ?_
  cases p.isTyped with
  | true => exact hhead true
  | false =>
    refine attempt_keeps (hhead false) ?_
    rintro _ t ⟨list, rfl, -⟩
    rfl

/-- Where no arrow comes after the names, nothing has been read. -/
theorem arrowHeadHere_givesUp (h : env.Supplied rank s) (hlog : s.log.size = 0)
    (hdepth : s.scope.depth < maxDepth) (hrest : GoesOnWith [.semicolon] rest) (htyped : p.isTyped = false)
    (hahead : Ahead env.file.text (.punct .openParen
      :: writtenList TypeTerm.comma ParameterTerm.before (p :: ps) (.punct .closeParen :: rest)) s.token) :
    arrowHeadHere.Ends env s fun found t => found = none ∧ Still env.file.text s t := by
  have hstarts := startsArrow_answers hahead (IsListOf.goesOnWith ps)
  rw [htyped] at hstarts
  refine .asked (startsArrow_inquires (o := true).asks h.ok) hstarts ?_
  have hnone : (arrowHead false).Ends env s fun found _ => found = none := by
    refine (arrowHead_reads false h hlog hdepth (hrest.mono (by decide)) hahead).mono ?_
    rintro found t ⟨list, hread, hfound⟩
    have hkind : t.token.kind = .punct .semicolon := by
      obtain ⟨⟨mark, hmark, hkind⟩, -⟩ := hrest.kind hread.ahead
      rw [hkind, List.mem_singleton.mp hmark]
    simpa [hkind] using hfound
  have hgrows : (arrowHead false).Ends env s fun _ t => s.Grows t :=
    (arrowHead_ends false h.ready).mono fun _ _ ht => ht.grows
  refine (attempt_ends (P := fun _ _ => False) h.ok ((hgrows.and hnone).mono fun found t ht => ?_)).mono ?_
  · obtain ⟨hgrows, rfl⟩ := ht
    exact ⟨hgrows, nofun⟩
  · rintro found t (⟨_, _, hfalse⟩ | hnone)
    · exact hfalse.elim
    · exact hnone

/-! ## 3. Bodies -/

/-- A name is no statement, so it is the body as an expression. -/
theorem arrowBody_reads_name (h : env.Supplied Production.topRank s) (hdepth : s.scope.depth < maxDepth)
    (hahead : Ahead env.file.text [.word word.text, .punct .semicolon] s.token) :
    (arrowBody false).Ends env s (Yields env.file.text s fun id next F =>
      LastSemicolon env.file.text next ∧ F.IsIdentifier id word.text) := by
  have hkind : s.token.kind = .identifier := hahead.1.trans word.wordKind_eq
  have hexpression : startsExpression.Ends env s fun b t => b = true ∧ t = s := by
    have hoperand : startsLeftHandSide.Ends env s fun b t => b = true ∧ t = s := by
      refine .kind ?_
      rw [hkind]
      exact .yes ⟨rfl, rfl⟩
    exact .leaves hoperand (.yes ⟨rfl, rfl⟩)
  have hbare : startsBareStatement.Ends env s fun b t => b = false ∧ t = s := by
    have hstatement : startsStatement.Ends env s fun b t => b = true ∧ t = s := by
      refine .kind ?_
      rw [hkind]
      exact .no (.no hexpression)
    have hno : startsExpressionStatement.Ends env s fun b t => b = true ∧ t = s := by
      refine .kind ?_
      rw [hkind]
      exact hexpression
    refine .kind ?_
    rw [hkind]
    exact .leaves hstatement (.yes (.leaves hno (.pure ⟨rfl, rfl⟩)))
  refine .isAt ?_
  rw [hkind]
  have hsemicolon : GoesOnWith [.comma, .closeParen, .semicolon] [.punct .semicolon] :=
    goesOnWith_punct (by decide)
  refine .no (.leaves hbare (.no (withContext_yields (Ends.mono
    (parse_assignment_reads_name (h.inScope _) (by decide) hdepth hahead hsemicolon) fun id t ht => ht.mono ?_))))
  rintro id next F ⟨hahead, hname, -⟩
  exact ⟨hahead.lastSemicolon, hname⟩

/-- The arrow and the name after the parameters complete the arrow function. -/
theorem arrowAfterHead_yields {list : NodeArray} (h : env.Supplied rank s) (hdepth : s.scope.depth < maxDepth)
    (hread : ReadParameters env ps
      (.space :: .punct .equalsGreaterThan :: .space :: .word word.text :: [.punct .semicolon]) s list t) :
    (arrowAfterHead (parametersHead s.pos list)).Ends env t (Yields env.file.text s fun id next F =>
      LastSemicolon env.file.text next ∧ F.IsArrowFunction ps word id) := by
  obtain ⟨hkind, -, next, hnext, hahead⟩ := hread.ahead
  have g := (Way.start h).goTook hread.quiet hread.took
  unfold arrowAfterHead
  extract_lets isAsync
  have harrow := expectToken_yields g.ok hkind nofun hnext
  refine .kindIs (g.step harrow fun arrow u hu hkept htook g => ?_)
  obtain ⟨rfl, harrow, -⟩ := hu
  have hbody := arrowBody_reads_name g.supplied (g.quiet.shallow hdepth) hahead
  extract_lets rest
  have hrest (inner : NodeId) (v : ParserState) (hv : Yields env.file.text u (fun id next F =>
      LastSemicolon env.file.text next ∧ F.IsIdentifier id word.text) inner v) :
      (rest inner).Ends env v (Yields env.file.text s fun id next F =>
        LastSemicolon env.file.text next ∧ F.IsArrowFunction ps word id) := by
    have g := g.goTook hv.quiet hv.took
    obtain ⟨hlast, hinner⟩ := hv.holds
    have hlawful : v.arena.MayBeBody false false inner := by
      obtain ⟨_, _, ⟨n, hn, hidentifier, -⟩, -⟩ := hinner
      exact Arena.mayBeBody_of_ne hn (by simp [hidentifier])
    refine (finish_quiet g.quiet rfl rfl rfl rfl (Node.sourcedAt_of_isToken rfl) fun _ => ?_).mono fun id w hw => ?_
    · refine Node.lawful_of_setsMode rfl rfl ?_
      rintro _ ⟨⟩
      exact hlawful
    · have hkeeps := hw.gains.toKeeps
      have htaken : t.pos < v.pos := Nat.lt_trans htook hv.took
      have hpos : w.pos = v.pos := congrArg Token.fullStart hw.token
      refine ⟨hw.quiet, hpos ▸ Nat.lt_trans hread.took htaken, ?_⟩
      rw [hw.token]
      refine ⟨hlast, list, arrow, inner, hw.shows, ?_, ?_, ?_⟩
      · exact hread.all.imp fun _ _ h => h.keeps (hkept.trans (hv.quiet.keeps.trans hkeeps))
      · exact harrow.keeps (hv.quiet.keeps.trans hkeeps)
      · exact hinner.keeps hkeeps
  rw [hkind]
  exact .yes (hbody.bind hrest)

end Parser

end ScriptSyntax
