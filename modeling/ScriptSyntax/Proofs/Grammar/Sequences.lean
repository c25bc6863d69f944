/-
  ScriptSyntax/Proofs/Grammar/Sequences.lean
  ==========================================
  Sequences in parentheses are read as what they are.

  On the way no arrow function and no parameter is made.
-/
import ScriptSyntax.Proofs.Grammar.ArrowFunctions

namespace ScriptSyntax

open ScriptSyntax.Parser

variable {env : Surroundings} {rank : Nat} {r s t : ParserState} {rest : List Piece} {next : Token}
variable {q : SequenceItem} {qs : List SequenceItem} {x y : PlainName}

/-- The kind is neither that of arrow functions nor that of parameters. -/
def Kind.isArrowFree (k : Kind) : Prop := k ≠ .node .arrowFunction ∧ k ≠ .node .parameter

/-- The item was read, and the given pieces are ahead. Of what was made since, nothing belongs to an arrow
function. -/
def AsItem (F : Forest) (text : Array Char) (rest : List Piece) (q : SequenceItem) (id : NodeId)
    (next : Token) (G : Forest) : Prop :=
  Ahead text rest next ∧ G.IsItem id q ∧ F.Gains Kind.isArrowFree G

theorem isArrowFree_gains {F G : Forest} {k : Kind} (h : F.Gains (· = k) G) (hk : k.isArrowFree) :
    F.Gains Kind.isArrowFree G := by
  apply h.mono
  rintro _ rfl
  exact hk

/-- A sequence in parentheses, before the last semicolon. Nothing of what was made for it belongs to an arrow
function. -/
structure IsGroup (F : Forest) (text : Array Char) (qs : List SequenceItem) (id : NodeId) (next : Token)
    (G : Forest) : Prop where
  last : LastSemicolon text next
  parenthesized : G.IsParenthesized qs id
  gains : F.Gains Kind.isArrowFree G

theorem isLone_isGroup {F : Forest} {text : Array Char} : IsLone (IsGroup F text qs) where
  stays _ _ _ _ h hstays :=
    ⟨h.last, h.parenthesized.keeps hstays.keeps, h.gains.trans (.of_stays hstays)⟩
  ends _ _ _ h := by
    rw [h.last.1]
    rfl

namespace Parser

/-! ## 1. Items -/

/-- After the name the sign comes, and then the value. -/
theorem afterOperators_yields_assigned {pos : Nat} {name : NodeId} (g : Way env rank r s [.node name])
    (htook : r.pos < s.pos) (hpos : pos = r.pos) (hname : s.forest.IsIdentifier name x.text)
    (hdepth : r.scope.depth < maxDepth)
    (hahead : Ahead env.file.text (.punct .equals :: .space :: .word y.text :: rest) s.token)
    (hrest : GoesOnWith [.comma, .closeParen] rest) :
    (afterOperators pos name).Ends env s (Yields env.file.text r fun id next F =>
      Ahead env.file.text rest next ∧ F.IsItem id (.assigned x y) ∧ s.forest.Gains Kind.isArrowFree F) := by
  obtain ⟨hkind, -, next, hnext, hahead⟩ := hahead
  obtain ⟨_, _, hshows, -⟩ := id hname
  have harrow : (pure (Kind.identifier == .identifier) <&&> isAtPunct .equalsGreaterThan).Ends env s
      fun b t => b = false ∧ t = s := by
    refine .pureThen ?_
    refine ⟨beq_eq_false_iff_ne.mpr ?_, rfl⟩
    simp [hkind]
  refine .kindShown hshows (.leaves harrow (.no ?_))
  extract_lets rest'
  have hread : ReadingMode.rescanGreater.read env.file.text s.token = (s.token, []) :=
    Token.rescanGreater_of_ne (by simp [hkind])
  refine .yes ((advance_leaves hread).bind ?_)
  rintro _ t rfl
  refine .kind ?_
  rw [hkind]
  refine .yes (g.step (tokenNode_yields g.ok (by simp [hkind]) hnext) fun operator u hu hkeeps htu g => ?_)
  obtain ⟨rfl, hoperator, hgains⟩ := hu
  rw [hkind] at hoperator hgains
  have hvalue := parse_assignment_reads_name g.supplied (by decide) (g.quiet.shallow hdepth) hahead (hrest.mono (by decide))
  refine g.step hvalue fun value v hv hkeeps' huv g => ?_
  obtain ⟨hahead, hvalue, hgains'⟩ := hv
  have htook' : r.pos < v.pos := Nat.lt_trans htook (Nat.lt_trans htu huv)
  refine g.finishAdding hpos htook' rfl rfl fun id F hgains'' hshows => ⟨hahead, ?_, ?_⟩
  · have hkept := hkeeps'.trans hgains''.toKeeps
    exact .assigned hshows (hname.keeps (hkeeps.trans hkept)) (hoperator.keeps hkept)
      (hvalue.keeps hgains''.toKeeps)
  · have hoperator := isArrowFree_gains hgains (by simp [Kind.isArrowFree])
    have hvalue := isArrowFree_gains hgains' (by simp [Kind.isArrowFree])
    have hnode := isArrowFree_gains hgains'' (by simp [Kind.isArrowFree])
    exact hoperator.trans (hvalue.trans hnode)

/-- A name that a value is assigned to. -/
theorem assignment_yields_assigned (h : env.Supplied Production.assignment.rank s)
    (hdepth : s.scope.depth + 1 < maxDepth)
    (hahead : Ahead env.file.text (SequenceItem.before (.assigned x y) rest) s.token)
    (hrest : GoesOnWith [.comma, .closeParen] rest) :
    assignment.Ends env s (Yields env.file.text s (AsItem s.forest env.file.text rest (.assigned x y))) := by
  obtain ⟨hkind, hvalue, -, next, hnext, hahead⟩ := hahead
  have hkind : s.token.kind = .identifier := hkind.trans x.wordKind_eq
  have hends : next.kind.endsOperators = true := by
    rw [show next.kind = .punct .equals from hahead.1]
    rfl
  have hinner : env.Supplied Production.assignment.rank (s.atDepth (s.scope.depth + 1)) := h.inScope _
  have hopens : s.token.kind.opensOperand := .inl hkind
  refine assignment_yields (by omega) (assignmentBody_ends hopens.ne_keyword
    (arrowHeadHere_leaves hinner.ok hopens ?_) (fun _ ht => ht.token) fun t hstill => ?_)
  · show s.token.kind ≠ _
    simp [hkind]
  have htoken : t.token = s.token := hstill.token
  have hsupplied : env.Supplied Production.assignment.rank t :=
    hinner.later hstill.ok (Nat.le_of_eq (congrArg Token.fullStart htoken).symm)
  rw [← htoken] at hkind hnext hvalue
  refine (binary_yields_name hsupplied (by decide) hkind hnext hends).mono fun name u hu => ?_
  obtain ⟨rfl, hname, hgains⟩ := hu.holds
  have g := ((Way.start hinner).go hstill.quiet).goTook hu.quiet hu.took
  have hpos : t.pos = s.pos := congrArg Token.fullStart htoken
  refine (afterOperators_yields_assigned g (hpos ▸ hu.took) hpos (hvalue ▸ hname) hdepth hahead hrest).mono
    fun id v hv => hv.mono ?_
  rintro id next F ⟨hahead, hitem, hgains'⟩
  have hbefore : s.forest.Gains Kind.isArrowFree t.forest := .of_stays hstill.stays
  have hname := isArrowFree_gains hgains (by simp [Kind.isArrowFree])
  exact ⟨hahead, hitem, hbefore.trans (hname.trans hgains')⟩

/-- An item is an expression without commas. -/
theorem parse_assignment_reads_item (h : env.Supplied rank s) (hrank : Production.assignment.rank < rank)
    (hdepth : s.scope.depth + 1 < maxDepth) (hahead : Ahead env.file.text (q.before rest) s.token)
    (hrest : GoesOnWith [.comma, .closeParen] rest) :
    (parse .assignment).Ends env s (Yields env.file.text s (AsItem s.forest env.file.text rest q)) := by
  cases q with
  | plain x =>
    refine (parse_assignment_reads_name h hrank (by omega) hahead (hrest.mono (by decide))).mono fun id t ht => ht.mono ?_
    rintro id next F ⟨hahead, hname, hgains⟩
    exact ⟨hahead, .plain hname, isArrowFree_gains hgains (by simp [Kind.isArrowFree])⟩
  | assigned x y =>
    refine parse_of_body h hrank fun inner hfile hinner => ?_
    rw [← hfile] at hahead ⊢
    exact assignment_yields_assigned hinner hdepth hahead hrest

/-! ## 2. Sequences -/

/-- Of the items some have been read, from the state `r` on, and the others are ahead. -/
structure ReadingItems (env : Surroundings) (r : ParserState) (qs left : List SequenceItem)
    (rest : List Piece) (id : NodeId) (t : ParserState) : Prop where
  way : Way env Production.topRank r t [.node id]
  took : r.pos < t.pos
  gains : r.forest.Gains Kind.isArrowFree t.forest
  done : ∃ done, done ++ left = qs ∧ t.forest.IsSequence id done
  ahead : Ahead env.file.text
    (writtenMore TypeTerm.comma SequenceItem.before left (.punct .closeParen :: rest)) t.token

/-- One more item is read behind a comma, and the comma makes one sequence of both sides. -/
theorem ReadingItems.more {left operator : NodeId} {more : List SequenceItem}
    (h : ReadingItems env r qs (q :: more) rest left s) (hdepth : r.scope.depth + 1 < maxDepth)
    (hoperator : Yields env.file.text s (fun id next F => Ahead env.file.text
        (q.before (writtenMore TypeTerm.comma SequenceItem.before more (.punct .closeParen :: rest))) next
      ∧ F.Shows id (.punct .comma) .token ∧ s.forest.Gains (· = .punct .comma) F) operator t) :
    (parse .assignment).Ends env t fun right u => (binaryExpression left operator right r.pos).Ends env u
      fun id v => ReadingItems env r qs more rest id v ∧ s.pos < v.pos := by
  obtain ⟨done, hall, hdone⟩ := h.done
  obtain ⟨hahead, hcomma, hgains⟩ := hoperator.holds
  have g := h.way.goTook hoperator.quiet hoperator.took
  have hdepth : t.scope.depth + 1 < maxDepth := by
    rw [g.quiet.scope_eq]
    exact hdepth
  refine (parse_assignment_reads_item g.supplied (by decide) hdepth hahead (IsListOf.goesOnWith more)).mono
    fun right u hu => ?_
  obtain ⟨hahead, hitem, hgains'⟩ := hu.holds
  have g := g.goTook hu.quiet hu.took
  have htook : s.pos < u.pos := Nat.lt_trans hoperator.took hu.took
  have hnode : (binaryExpression left operator right r.pos).Ends env u (Yields env.file.text r fun id next F =>
      next = u.token ∧ F.IsSequence id (done ++ [q]) ∧ u.forest.Gains Kind.isArrowFree F) := by
    refine g.finishAdding rfl (Nat.lt_trans h.took htook) rfl rfl fun id F hgains'' hshows => ⟨rfl, ?_, ?_⟩
    · have hkept := hu.quiet.keeps.trans hgains''.toKeeps
      exact .more hshows (hdone.keeps (hoperator.quiet.keeps.trans hkept)) (hcomma.keeps hkept)
        (hitem.keeps hgains''.toKeeps)
    · exact isArrowFree_gains hgains'' (by simp [Kind.isArrowFree])
  refine hnode.mono fun id v hv => ?_
  obtain ⟨htoken, hsequence, hgains''⟩ := hv.holds
  have hpos : v.pos = u.pos := congrArg Token.fullStart htoken
  have hcomma := isArrowFree_gains hgains (by simp [Kind.isArrowFree])
  refine ⟨⟨⟨hv.quiet, g.supplied.later hv.quiet.ok (Nat.le_of_eq hpos.symm)⟩, hv.took, ?_,
    ⟨done ++ [q], by simpa using hall, hsequence⟩, ?_⟩, ?_⟩
  · exact h.gains.trans (hcomma.trans (hgains'.trans hgains''))
  · rw [htoken]
    exact hahead
  · rw [hpos]
    exact htook

/-- Items in a row are read as a sequence, up to the closing parenthesis. -/
theorem expression_reads_sequence (h : env.Supplied Production.expression.rank s)
    (hdepth : s.scope.depth + 1 < maxDepth)
    (hahead : Ahead env.file.text
      (writtenList TypeTerm.comma SequenceItem.before (q :: qs) (.punct .closeParen :: rest)) s.token) :
    expression.Ends env s (Yields env.file.text s fun id next F =>
      Ahead env.file.text (.punct .closeParen :: rest) next ∧ F.IsSequence id (q :: qs)
        ∧ s.forest.Gains Kind.isArrowFree F) := by
  let inner := s.inContext { s.scope.context with decoratorContext := false }
  have h : env.Supplied Production.expression.rank inner := h.inScope _
  have hfirst : (parse .assignment).Ends env inner _ :=
    parse_assignment_reads_item h (by decide) hdepth hahead (IsListOf.goesOnWith qs)
  refine withContext_yields (.nodePos (hfirst.bind fun first t ht => ?_))
  obtain ⟨hahead, hitem, hgains⟩ := ht.holds
  have hstart : ReadingItems env inner (q :: qs) qs rest first t :=
    ⟨(Way.start h).goTook ht.quiet ht.took, ht.took, hgains, ⟨[q], rfl, .one hitem⟩, hahead⟩
  refine (repeating_ends (P := fun id t => ∃ more, ReadingItems env inner (q :: qs) more rest id t)
    (Q := ReadingItems env inner (q :: qs) [] rest) ⟨qs, hstart⟩ ?_ fun left u hu => ?_).mono fun id u hu => ?_
  · rintro id u ⟨more, hu⟩
    exact hu.way.ok.pos_le_size
  · obtain ⟨more, hu⟩ := hu
    cases more with
    | nil =>
      refine .leaveToken ?_ (.pure ⟨hu, Nat.le_refl _⟩)
      rw [show u.token.kind = _ from hu.ahead.1]
      simp
    | cons q' more =>
      obtain ⟨hkind, -, next, hnext, hahead⟩ := hu.ahead
      refine (acceptToken_yields hu.way.ok hkind nofun hnext).bind ?_
      rintro _ v ⟨operator, rfl, hv⟩
      have hmore := hu.more hdepth (hv.mono fun id next F hF => ⟨hF.1 ▸ hahead, hF.2⟩)
      refine hmore.bind fun right w hw => hw.bind fun id x hx => .pure ⟨⟨more, hx.1⟩, hx.2⟩
  · obtain ⟨⟨g, htook, hgains, ⟨done, hdone, hsequence⟩, hahead⟩, -⟩ := hu
    rw [List.append_nil] at hdone
    exact ⟨g.quiet, htook, hahead, hdone ▸ hsequence, hgains⟩

/-! ## 3. Parentheses -/

/-- Parentheses around a sequence are an operand. -/
theorem primary_reads_group (h : env.Supplied rank s) (hdepth : s.scope.depth + 1 < maxDepth)
    (hahead : Ahead env.file.text (.punct .openParen :: writtenList TypeTerm.comma SequenceItem.before (q :: qs)
      [.punct .closeParen, .punct .semicolon]) s.token) :
    primary.Ends env s (Yields env.file.text s (IsGroup s.forest env.file.text (q :: qs))) := by
  obtain ⟨hkind, -, next, hnext, hahead⟩ := hahead
  have hgroup : parenthesized.Ends env s (Yields env.file.text s (IsGroup s.forest env.file.text (q :: qs))) := by
    refine .nodePos ((Way.start h).takeExpected hkind nofun hnext fun t htoken hforest htook g => ?_)
    rw [← htoken] at hahead
    have hdepth : t.scope.depth + 1 < maxDepth := by
      rw [g.quiet.scope_eq]
      exact hdepth
    have hinner : (allowIn (parse .expression)).Ends env t (Yields env.file.text t fun id next F =>
        Ahead env.file.text [.punct .closeParen, .punct .semicolon] next ∧ F.IsSequence id (q :: qs)
          ∧ t.forest.Gains Kind.isArrowFree F) := by
      refine withContext_yields (parse_of_body (g.supplied.inScope _) (by decide) fun inner hfile hinner => ?_)
      rw [← hfile] at hahead ⊢
      exact expression_reads_sequence hinner hdepth hahead
    refine g.step hinner fun inner u hu hkeeps htu g => ?_
    obtain ⟨⟨hkind, -, last, hlast, hahead⟩, hsequence, hgains⟩ := hu
    refine g.takeExpected hkind nofun hlast fun v htoken hforest' huv g => ?_
    have htook : s.pos < v.pos := Nat.lt_trans htook (Nat.lt_trans htu huv)
    refine g.finishAdding rfl htook rfl rfl fun id F hgains' hshows => ⟨?_, ?_, ?_⟩
    · rw [htoken]
      exact hahead.lastSemicolon
    · rw [hforest'] at hgains'
      exact ⟨inner, hshows, hsequence.keeps hgains'.toKeeps⟩
    · rw [hforest'] at hgains'
      exact hforest ▸ hgains.trans (isArrowFree_gains hgains' (by simp [Kind.isArrowFree]))
  refine .kind ?_
  rw [hkind]
  exact hgroup

end Parser

end ScriptSyntax
