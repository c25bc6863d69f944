/-
  ScriptSyntax/Proofs/Grammar/JsxOperands.lean
  ============================================
  Tags as operands.

  Where tags are part of the syntax an angle bracket before a name opens a tag,
  unless the name is that of a type parameter.  Before a semicolon the element is
  the whole expression then, whatever is known of it.
-/
import ScriptSyntax.Proofs.Grammar.Jsx
import ScriptSyntax.Proofs.Grammar.LoneOperands

namespace ScriptSyntax

open ScriptSyntax.Parser

variable {env : Surroundings} {rank : Nat} {s : ParserState} {P : NodeId → ParserState → Prop}

/-- The token is a bracket that opens a tag: behind it there is a name, and nothing that makes a type
parameter of it; or another bracket closes. -/
structure Token.OpensTag (text : Array Char) (t : Token) : Prop where
  kind_eq : t.kind = .punct .lessThan
  inside : ∃ next, t.next text = (next, []) ∧ (next.kind = .punct .greaterThan ∨ next.kind.isName = true
    ∧ ∃ after, next.next text = (after, []) ∧ after.kind ≠ .keyword .extendsKw ∧ after.kind ≠ .punct .comma)

/-- What is known of an element before a semicolon: it is there, and the semicolon comes next. -/
structure IsBeforeSemicolon (P : NodeId → ParserState → Prop) : Prop where
  kind_eq : ∀ id t, P id t → t.token.kind = .punct .semicolon
  shows : ∀ id t, P id t → ∃ kind payload, t.forest.Shows id kind payload

namespace Parser

theorem isIdentifier_leaves : isIdentifier.Ends env s fun _ t => t = s := by
  refine .kind ?_
  split <;> exact rfl

/-- A tag is no head of an arrow function. -/
theorem startsArrow_of_tag (hjsx : env.file.variant = .jsx) (htag : s.token.OpensTag env.file.text) :
    startsArrow.Ends env s fun a _ => a = .no := by
  obtain ⟨hkind, next, hnext, hinside⟩ := htag
  have hopening : arrowAtOpening.Ends env s fun a _ => a = .no := by
    refine .kind ?_
    rw [hkind]
    refine (nextToken_reads hnext).bind ?_
    rintro _ t rfl
    rcases hinside with hangle | ⟨-, after, hafter, hextends, hcomma⟩
    · have hidentifier : isIdentifier.Ends env t fun b u => b = false ∧ u = t := by
        refine .kind ?_
        rw [hangle]
        exact ⟨rfl, rfl⟩
      exact .leaves hidentifier (.no (.pure rfl))
    · have hparameter : typeParameterAhead.Ends env t fun found _ => found = false := by
        refine (nextKind_reads hafter).bind ?_
        rintro _ u ⟨rfl, -⟩
        split
        · exact absurd ‹_› hextends
        · exact absurd ‹_› hcomma
        · exact .pure rfl
      refine isIdentifier_leaves.bind ?_
      rintro b _ rfl
      cases b with
      | false => exact .no (.pure rfl)
      | true =>
        refine .yes (.read ?_)
        rw [hjsx]
        refine .yes (hparameter.peeked.bind ?_)
        rintro _ _ rfl
        exact .pure rfl
  refine .kind ?_
  rw [hkind]
  exact hopening.peeked

theorem arrowHeadHere_of_tag (h : s.Ok env.file.text) (hjsx : env.file.variant = .jsx)
    (htag : s.token.OpensTag env.file.text) : arrowHeadHere.Ends env s fun head t => head = none ∧ t = s :=
  .asked ((startsArrow_inquires (o := true)).asks h) (startsArrow_of_tag hjsx htag) (.pure ⟨rfl, rfl⟩)

/-- Where tags are part of the syntax an angle bracket starts no type assertion. -/
theorem startsUpdate_of_tag (hjsx : env.file.variant = .jsx) (htag : s.token.OpensTag env.file.text) :
    startsUpdate.Ends env s fun b t => b = true ∧ t = s := by
  refine .kind ?_
  rw [htag.kind_eq]
  refine .read ?_
  rw [hjsx]
  exact ⟨rfl, rfl⟩

/-- A tag is an operand. -/
theorem updateExpression_of_tag (hjsx : env.file.variant = .jsx) (htag : s.token.OpensTag env.file.text)
    (h : env.Supplied rank s) (hrank : (Production.jsxElement true).rank < rank)
    (hread : ∀ inner, inner.file = env.file → inner.Supplied (Production.jsxElement true).rank s →
      (jsxElement true).Ends inner s P) : updateExpression.Ends env s P := by
  obtain ⟨hkind, next, hnext, hinside⟩ := htag
  have hincrement : isIncrement.Ends env s fun b t => b = false ∧ t = s := by
    refine ⟨?_, rfl⟩
    show (s.token.kind == .punct .plusPlus || s.token.kind == .punct .minusMinus) = false
    rw [hkind]
    rfl
  have hstarts : startsJsx.Ends env s fun b _ => b = true := by
    have htaken : (kindIs fun k => k.isName || k == .punct .greaterThan).Ends env (nextToken env s).2
        fun b _ => b = true := by
      have htoken : (nextToken env s).2.token = next := nextToken_reads hnext
      refine .kind (.pure ?_)
      show ((nextToken env s).2.token.kind.isName || _ == _) = true
      rw [htoken, Bool.or_eq_true, beq_iff_eq]
      exact hinside.symm.imp_left And.left
    have hangle : (isAtPunct .lessThan).Ends env s fun b t => b = true ∧ t = s :=
      ⟨beq_iff_eq.mpr hkind, rfl⟩
    have hvariant : isJsxFile.Ends env s fun b t => b = true ∧ t = s := by
      refine ⟨?_, rfl⟩
      show (env.file.variant == .jsx) = true
      rw [hjsx]
      rfl
    exact .andYes hvariant (.andYes hangle (Ends.peeked htaken))
  have hasks := (startsJsx_inquires (o := true)).asks h.ok
  refine .token (.leaves hincrement (.no (.asked hasks hstarts (.yes ?_))))
  exact parse_of_body h hrank hread

/-- A tag before a semicolon is an expression of operators by itself. -/
theorem binary_of_tag {level : Precedence} (hjsx : env.file.variant = .jsx)
    (htag : s.token.OpensTag env.file.text) (h : env.Supplied rank s)
    (hrank : (Production.jsxElement true).rank < rank) (hP : IsBeforeSemicolon P)
    (hread : ∀ inner, inner.file = env.file → inner.Supplied (Production.jsxElement true).rank s →
      (jsxElement true).Ends inner s P) : (binary level).Ends env s P := by
  have hupdate := startsUpdate_of_tag hjsx htag
  have hoperand := updateExpression_of_tag hjsx htag h hrank hread
  have hunary : unary.Ends env s P := by
    refine .nodePos (.kind (.leaves hupdate (.yes (hoperand.bind fun id t ht => .isAt ?_))))
    rw [hP.kind_eq id t ht]
    exact .no (.pure ht)
  refine .nodePos (hunary.bind fun id t ht => ?_)
  have hends : t.token.kind.endsOperators = true := by
    rw [hP.kind_eq id t ht]
    rfl
  refine (binaryRest_leaves hends).mono ?_
  rintro _ _ ⟨rfl, rfl⟩
  exact ht

/-- A tag before a semicolon is an expression without commas by itself. -/
theorem assignmentBody_of_tag (hjsx : env.file.variant = .jsx) (htag : s.token.OpensTag env.file.text)
    (h : env.Supplied rank s) (hrank : (Production.jsxElement true).rank < rank) (hP : IsBeforeSemicolon P)
    (hread : ∀ inner, inner.file = env.file → inner.Supplied (Production.jsxElement true).rank s →
      (jsxElement true).Ends inner s P) : assignmentBody.Ends env s P := by
  have hword (word : Keyword) : s.token.kind ≠ .keyword word := by simp [htag.kind_eq]
  have hhead := arrowHeadHere_of_tag h.ok hjsx htag
  refine assignmentBody_ends hword hhead (fun _ ht => congrArg ParserState.token ht) ?_
  rintro _ rfl
  refine (binary_of_tag hjsx htag h hrank hP hread).mono fun id t ht => ?_
  obtain ⟨kind, payload, hshows⟩ := hP.shows id t ht
  have hends : t.token.kind.endsExpression = true := by
    rw [hP.kind_eq id t ht]
    rfl
  refine (afterOperators_leaves hshows hends).mono ?_
  rintro _ _ ⟨rfl, rfl⟩
  exact ht

end Parser

end ScriptSyntax
