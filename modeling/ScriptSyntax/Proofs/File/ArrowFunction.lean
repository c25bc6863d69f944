/-
  ScriptSyntax/Proofs/File/ArrowFunction.lean
  ===========================================
  Texts of one arrow function, or of one sequence in parentheses.

  Both start alike, however long: it is the arrow that tells them apart.
-/
import ScriptSyntax.Proofs.File.OneStatement
import ScriptSyntax.Proofs.Grammar.Sequences

namespace ScriptSyntax

open ScriptSyntax.Parser

variable {env : Surroundings} {rank : Nat} {s : ParserState} {rest : List Piece} {body : PlainName}
variable {p : ParameterTerm} {ps : List ParameterTerm} {q : SequenceItem} {qs : List SequenceItem}

/-! ## 1. What is written -/

/-- Parameters in parentheses, the arrow, and the body. -/
def arrowPieces (ps : List ParameterTerm) (body : PlainName) : List Piece :=
  .punct .openParen :: writtenList TypeTerm.comma ParameterTerm.before ps (.punct .closeParen :: .space
    :: .punct .equalsGreaterThan :: .space :: .word body.text :: [.punct .semicolon])

/-- The text of an arrow function, and a semicolon. -/
def arrowText (ps : List ParameterTerm) (body : PlainName) : SourceText :=
  ⟨((arrowPieces ps body).flatMap Piece.chars).toArray⟩

/-- Items in parentheses. -/
def groupPieces (qs : List SequenceItem) : List Piece :=
  .punct .openParen :: writtenList TypeTerm.comma SequenceItem.before qs [.punct .closeParen, .punct .semicolon]

/-- The text of a sequence in parentheses, and a semicolon. -/
def groupText (qs : List SequenceItem) : SourceText :=
  ⟨((groupPieces qs).flatMap Piece.chars).toArray⟩

example : arrowText [.plain ⟨"a", by decide, by decide⟩,
    .optional ⟨"b", by decide, by decide⟩ ⟨"T", by decide, by decide⟩] ⟨"z", by decide, by decide⟩
      = .ofString "(a, b?: T) => z;" := by decide

example : groupText [.assigned ⟨"a", by decide, by decide⟩ ⟨"b", by decide, by decide⟩,
    .plain ⟨"c", by decide, by decide⟩] = .ofString "(a = b, c);" := by decide

theorem arrowPieces_apart (ps : List ParameterTerm) (body : PlainName) : Apart (arrowPieces ps body) := by
  have hbody : Apart (.space :: .word body.text :: [.punct .semicolon]) := by
    refine ⟨body.isIdentifier, ?_, rfl, trivial⟩
    rintro _ ⟨⟩
    decide
  have harrow : Apart (.space :: .punct .equalsGreaterThan :: .space :: .word body.text
      :: [.punct .semicolon]) := ⟨rfl, hbody⟩
  have hclose := apart_punct (p := .closeParen) harrow (by decide)
  have hlist := apart_writtenList hclose (fun _ => TypeTerm.apart_comma)
    (fun p (_ : p ∈ ps) _ hrest => p.apart hrest)
  exact (apart_punct hlist (by decide)).1

theorem groupPieces_eq (qs : List SequenceItem) : groupPieces qs = .punct .openParen
    :: writtenList TypeTerm.comma ParameterTerm.before (qs.map SequenceItem.parameter)
      [.punct .closeParen, .punct .semicolon] := by
  rw [writtenList_map]
  rfl

theorem groupPieces_apart (qs : List SequenceItem) : Apart (groupPieces qs) := by
  have hsemicolon : Apart [.punct .semicolon] := ⟨rfl, trivial⟩
  have hclose := apart_punct (p := .closeParen) hsemicolon (by decide)
  have hlist := apart_writtenList hclose (fun _ => TypeTerm.apart_comma)
    (fun p (_ : p ∈ qs.map SequenceItem.parameter) _ hrest => p.apart hrest)
  rw [groupPieces_eq]
  exact (apart_punct hlist (by decide)).1

/-! ## 2. How it is read -/

namespace Parser

/-- Where the arrow comes after the parameters there is an arrow function. -/
theorem assignmentBody_reads_arrow (h : env.Supplied rank s) (hlog : s.log.size = 0)
    (hdepth : s.scope.depth < maxDepth)
    (hahead : Ahead env.file.text (arrowPieces (p :: ps) body) s.token) :
    assignmentBody.Ends env s (Yields env.file.text s fun id next F =>
      LastSemicolon env.file.text next ∧ F.IsArrowFunction (p :: ps) body id) := by
  have hyield : startsYield.Ends env s fun b t => b = false ∧ t = s := by
    refine .isAt ?_
    rw [show s.token.kind = _ from hahead.1]
    exact ⟨rfl, rfl⟩
  have harrow : GoesOnWith [.equalsGreaterThan] (.space :: .punct .equalsGreaterThan :: .space
      :: .word body.text :: [.punct .semicolon]) := List.mem_singleton_self _
  refine .leaves hyield (.no ((arrowHeadHere_reads h hlog hdepth harrow hahead).bind ?_))
  rintro _ t ⟨list, rfl, hread⟩
  exact arrowAfterHead_yields h hdepth hread

/-- Where no arrow comes after the items there is none. -/
theorem arrowHeadHere_leaves_group (h : env.Supplied rank s) (hlog : s.log.size = 0)
    (hdepth : s.scope.depth < maxDepth) (hahead : Ahead env.file.text (groupPieces (q :: qs)) s.token) :
    arrowHeadHere.Ends env s fun head t => head = none ∧ Still env.file.text s t := by
  have htyped : q.parameter.isTyped = false := by
    cases q <;> rfl
  rw [groupPieces_eq] at hahead
  exact arrowHeadHere_givesUp h hlog hdepth (goesOnWith_punct (by decide)) htyped hahead

end Parser

/-! ## 3. Files of an arrow function, and of a sequence -/

/-- An arrow function is parsed, without a diagnostic, as one statement of just that function. -/
theorem parseText_arrowText (fileName : String) (options : ParseOptions) (p : ParameterTerm)
    (ps : List ParameterTerm) (body : PlainName) :
    ∃ f statement e, parseText fileName (arrowText (p :: ps) body) options = .ok f ∧ f.diagnostics = []
      ∧ f.statements = [statement]
      ∧ f.forest.Shows statement (.node .expressionStatement) (.expression e)
      ∧ f.forest.IsArrowFunction (p :: ps) body e := by
  let text := arrowText (p :: ps) body
  have htext : TextAt text.chars 0 ((arrowPieces (p :: ps) body).flatMap Piece.chars) := by
    simp [TextAt, text, arrowText]
  obtain ⟨first, hfirst, hahead⟩ := (arrowPieces_apart (p :: ps) body).ahead htext rfl
  have hkind : first.kind = .punct .openParen := hahead.1
  refine parseText_assignment (X := fun id F => F.IsArrowFunction (p :: ps) body id) (c := '(') htext
    (by decide) (by decide) (by decide) hfirst (.inl (.inr (.inl hkind))) ?_ ?_
  · intro id F G h hgains
    exact h.keeps hgains.toKeeps
  · intro env s hfile hsupplied hbegin
    have hchars : env.file.text = text.chars := by
      rw [hfile]
      rfl
    have hdepth : s.scope.depth < maxDepth := by
      rw [hbegin.depth]
      decide
    rw [← hbegin.token, ← hchars] at hahead
    refine (assignmentBody_reads_arrow hsupplied hbegin.log hdepth hahead).mono fun id t ht => ht.mono ?_
    rintro id next F ⟨hlast, harrow⟩
    have hshown := harrow
    obtain ⟨list, arrow, inner, hshows, -⟩ := hshown
    exact ⟨hlast, ⟨_, _, hshows, by simp⟩, harrow⟩

/-- A sequence in parentheses is parsed, without a diagnostic, as one statement of just that sequence. Nowhere
in the tree there is an arrow function or a parameter. -/
theorem parseText_groupText (fileName : String) (options : ParseOptions) (q : SequenceItem)
    (qs : List SequenceItem) :
    ∃ f statement e, parseText fileName (groupText (q :: qs)) options = .ok f ∧ f.diagnostics = []
      ∧ f.statements = [statement]
      ∧ f.forest.Shows statement (.node .expressionStatement) (.expression e)
      ∧ f.forest.IsParenthesized (q :: qs) e
      ∧ ∀ id kind payload, f.forest.Shows id kind payload → kind.isArrowFree := by
  let text := groupText (q :: qs)
  have htext : TextAt text.chars 0 ((groupPieces (q :: qs)).flatMap Piece.chars) := by
    simp [TextAt, text, groupText]
  obtain ⟨first, hfirst, hahead⟩ := (groupPieces_apart (q :: qs)).ahead htext rfl
  have hkind : first.kind.opensOperand := .inr (.inl hahead.1)
  have hdepth {s : ParserState} (hbegin : AtExpression first s) : s.scope.depth + 1 < maxDepth := by
    rw [hbegin.depth]
    decide
  let X (id : NodeId) (F : Forest) : Prop :=
    F.IsParenthesized (q :: qs) id ∧ ∀ id kind payload, F.Shows id kind payload → kind.isArrowFree
  refine parseText_expression (X := X) (c := '(') htext (by decide) (by decide) (by decide) hfirst (.inl hkind)
    ?_ ?_ ?_
  · rintro id F G ⟨hgroup, hfree⟩ hgains
    refine ⟨hgroup.keeps hgains.toKeeps, fun id kind payload hshows => ?_⟩
    rcases hgains.kinds id kind payload hshows with hkind | hshows
    · rcases hkind with rfl | rfl | rfl <;> simp [Kind.isArrowFree]
    · exact hfree id kind payload hshows
  · intro env s hfile hsupplied hbegin
    have hchars : env.file.text = text.chars := by
      rw [hfile]
      rfl
    have hdepth := hdepth hbegin
    rw [← hbegin.token, ← hchars] at hahead
    exact arrowHeadHere_leaves_group hsupplied hbegin.log (by omega) hahead
  · intro env s hfile hsupplied hbegin
    have hchars : env.file.text = text.chars := by
      rw [hfile]
      rfl
    rw [← hbegin.token] at hkind
    rw [← hbegin.token, ← hchars] at hahead
    have hbinary : (binary .comma).Ends env s
        (Yields env.file.text s (IsGroup s.forest env.file.text (q :: qs))) := by
      refine binary_yields isLone_isGroup hsupplied (by decide) hkind fun inner hinner h => ?_
      rw [← hinner] at hahead ⊢
      exact primary_reads_group h (hdepth hbegin) hahead
    refine hbinary.mono fun id t ht => ht.mono fun id next F hgroup =>
      ⟨hgroup.last, ?_, hgroup.parenthesized, ?_⟩
    · obtain ⟨inner, hshows, -⟩ := hgroup.parenthesized
      exact ⟨_, _, hshows, by simp⟩
    · intro id kind payload hshows
      rcases hgroup.gains.kinds id kind payload hshows with hkind | hshows
      · exact hkind
      · exact absurd hshows (hbegin.bare id kind payload)

/-- After an opening parenthesis it is decided by what is written which of the two there is: parameters before
an arrow make an arrow function of just these parameters, and items in parentheses make just that sequence, in
a tree without arrow functions and parameters. -/
theorem parseText_arrow_and_group (fileName : String) (options : ParseOptions) :
    (∀ (p : ParameterTerm) (ps : List ParameterTerm) (body : PlainName),
      ∃ f statement e, parseText fileName (arrowText (p :: ps) body) options = .ok f ∧ f.diagnostics = []
        ∧ f.statements = [statement]
        ∧ f.forest.Shows statement (.node .expressionStatement) (.expression e)
        ∧ f.forest.IsArrowFunction (p :: ps) body e)
    ∧ (∀ (q : SequenceItem) (qs : List SequenceItem),
      ∃ f statement e, parseText fileName (groupText (q :: qs)) options = .ok f ∧ f.diagnostics = []
        ∧ f.statements = [statement]
        ∧ f.forest.Shows statement (.node .expressionStatement) (.expression e)
        ∧ f.forest.IsParenthesized (q :: qs) e
        ∧ ∀ id kind payload, f.forest.Shows id kind payload → kind.isArrowFree) := by
  constructor
  · intro p ps body
    exact parseText_arrowText fileName options p ps body
  · intro q qs
    exact parseText_groupText fileName options q qs

end ScriptSyntax
