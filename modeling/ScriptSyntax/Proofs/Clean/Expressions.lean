/-
  ScriptSyntax/Proofs/Clean/Expressions.lean
  ==========================================
  Expressions on clean runs.

  An operator is made around its left operand, which starts where it does, and
  its right operand binds tighter.  So the bound falls with the level, and a row of
  operators of one level stays within it.  Only powers group to the right.
-/
import ScriptSyntax.Proofs.Clean.Jsx
import ScriptSyntax.Proofs.Clean.Operands

namespace ScriptSyntax

theorem Kind.isSolid_of_isAssignmentOperator {k : Kind} (h : k.isAssignmentOperator = true) :
    k.isSolid = true := by
  cases k <;> first | rfl | cases h

namespace Precedence

theorem isSolid_of_ofKind? {k : Kind} {next : Precedence} (h : ofKind? k = some next) :
    k.isSolid = true := by
  unfold ofKind? at h
  split at h
  · rfl
  · rfl
  · rfl
  · rfl
  · cases h

theorem eq_asteriskAsterisk_of_ofKind? {k : Kind} (h : ofKind? k = some .exponentiation) :
    k = .punct .asteriskAsterisk := by
  unfold ofKind? ofPunctuator? at h
  split at h <;> try contradiction
  split at h <;> first | rfl | contradiction

theorem rank_lt_of_binds {level next : Precedence} (h : level.binds next = true)
    (hne : next ≠ .exponentiation) : level.rank < next.rank := by
  simpa [binds, hne] using h

end Precedence

namespace Parser

variable {env : Surroundings} {took : Bool} {k : Nat} {r s t u : ParserState} {items : List Part}
variable {left operator right : NodeId}

/-! ## 1. One operand -/

theorem updateExpression_produces (h : env.Apt s) : updateExpression.Produces env 8 s s := by
  refine .token ((isIncrement_orderly.went h).bind fun _ t ht => .ite (fun _ => ?_) fun _ => ?_)
  · have g := (Going.start 7 h).goOn ht.1
    refine g.step (nextToken_goes g.apt) fun _ t g => ?_
    refine g.past (parse_produces .leftHandSide g.apt trivial) fun operand u hoperand g => ?_
    exact g.finishUnguarded hoperand (.start 7 g.apt) (List.mem_singleton_self _) rfl
      (by simp [Node.parts_eq, Payload.fields]) rfl (by decide)
  · have h := ((Going.start 0 h).goOn ht.1).apt
    refine Ends.mono (P := Made env.file.text 8 t) ?_ fun _ _ hu => ht.1.made ht.2 hu
    refine Produces.ask h startsJsx_orderly fun _ u hu h => .ite (fun _ => ?_) fun _ => ?_
    · exact (parse_produces (.jsxElement true) h trivial).upTo
    refine (parse_produces .leftHandSide h trivial).bind fun operand v hoperand => .kind ?_
    refine (Going.start 7 (hoperand.apt h.serves)).ask (.and isIncrement_orderly (.map .afterLineBreak)) fun _ w g => ?_
    refine .ite (fun _ => ?_) fun _ => .pure (hoperand.goOn g.went)
    have hpos : s.pos = u.pos := congrArg Token.fullStart (hu.trans ht.2).symm
    exact g.step (nextToken_goes g.apt) fun _ w g =>
      hoperand.finish g hpos (by simp [Node.parts_eq, Payload.fields]) rfl

/-- The operand of a word is read without the depth of nesting being checked. -/
theorem wordOperator_produces {kind : NodeKind} (h : env.Apt s)
    (hword : kind = .deleteExpression ∨ kind = .typeOfExpression ∨ kind = .voidExpression ∨ kind = .awaitExpression) :
    (wordOperator kind).Produces env 8 s s := by
  refine .nodePos ((Going.start 7 h).step (nextToken_goes h) fun _ t g => ?_)
  refine g.past (parse_produces .simpleUnary g.apt trivial) fun operand u hoperand g => ?_
  rcases hword with rfl | rfl | rfl | rfl
  all_goals
    exact g.finishUnguarded hoperand (.start 7 g.apt) (List.mem_singleton_self _) rfl
      (by simp [Node.parts_eq, Payload.fields]) rfl (by decide)

theorem typeAssertion_produces (h : env.Apt s) : typeAssertion.Produces env 8 s s := by
  refine .nodePos ((Going.start 7 h).stepTook (expectPunct_goes _ h) fun _ t g => ?_)
  refine g.step (parse_goes .type g.apt trivial) fun type t g => ?_
  refine g.step (expectPunct_goes _ g.apt) fun _ t g => ?_
  refine g.past (parse_produces .simpleUnary g.apt trivial) fun inner u hinner g => ?_
  exact g.finishUnguarded hinner (.start 7 g.apt) (List.mem_singleton_self _) rfl
      (by simp [Node.parts_eq, Payload.fields]) rfl (by decide)

theorem prefixOperator_produces (h : env.Apt s) : prefixOperator.Produces env 8 s s := by
  refine .token ((Going.start 7 h).step (nextToken_goes h) fun _ t g => ?_)
  refine g.past (parse_produces .simpleUnary g.apt trivial) fun operand u hoperand g => ?_
  exact g.finishUnguarded hoperand (.start 7 g.apt) (List.mem_singleton_self _) rfl
      (by simp [Node.parts_eq, Payload.fields]) rfl (by decide)

theorem simpleUnary_produces (h : env.Apt s) : simpleUnary.Produces env 8 s s := by
  refine .kind ?_
  split
  case h_5 => exact wordOperator_produces h (by simp)
  case h_6 => exact wordOperator_produces h (by simp)
  case h_7 => exact wordOperator_produces h (by simp)
  case h_8 => exact typeAssertion_produces h
  case h_9 =>
    refine Produces.ask h isAwaitExpression_orderly fun _ t _ h => .ite (fun _ => ?_) fun _ => ?_
    · exact wordOperator_produces h (by simp)
    · exact updateExpression_produces h
  case h_10 => exact updateExpression_produces h
  all_goals exact prefixOperator_produces h

/-! ## 2. Operators between operands -/

theorem nextOperator_went (level : Precedence) (h : env.Apt s) :
    (nextOperator level).Ends env s fun found t => Went env.file.text false 0 s t []
      ∧ ∀ next, found = some next → level.binds next = true ∧ Precedence.ofKind? t.token.kind = some next := by
  refine (advance_goes .rescanGreater h nofun).bind fun _ t ht => .kind ?_
  cases hnext : Precedence.ofKind? t.token.kind with
  | none => exact .pure ⟨ht, nofun⟩
  | some next =>
    refine .ite (fun _ => .pure ⟨ht, nofun⟩) fun hbinds => ?_
    have hfound : ∀ next', some next = some next' →
        level.binds next' = true ∧ some next = some next' := by
      rintro _ ⟨⟩
      exact ⟨by simpa using hbinds, rfl⟩
    exact .context (.ite (fun _ => .pure ⟨ht, nofun⟩) fun _ => .pure ⟨ht, hnext ▸ hfound⟩)

theorem tokenNode_shows : tokenNode.Ends env s fun id t => t.forest.Shows id s.token.kind .token :=
  .token (Ends.bind (.always fun _ _ => trivial) fun _ t _ => (finish_shows _ env t).mono fun _ _ ht => ht.1)

/-- The right operand of a power is read without the depth of nesting being checked. -/
theorem power_produces (h : Made env.file.text (k + 1) r left s) (g : Going env took k s t [.node operator])
    (hshows : t.forest.Shows operator (.punct .asteriskAsterisk) .token) (hright : Made env.file.text 8 t right u) :
    (binaryExpression left operator right r.pos).Produces env (k + 1) r u := by
  have hway : Going env true k r u [.node operator] := by
    refine ⟨g.serves, ?_⟩
    simpa using ((h.went.past.mono (Nat.zero_le k)).go g.went (Nat.le_refl k)).go hright.went.past (Nat.zero_le k)
  refine hway.finish_produces (fun _ => Nat.le_refl _) rfl (Nat.succ_pos k) fun hclean c hc => ?_
  have hlast := hright.went hclean
  have hpower : u.arena.kindOf operator = .punct .asteriskAsterisk := by
    obtain ⟨n, hn, hkind, -⟩ := hshows
    simp [Arena.kindOf, hlast.grows.get? hn, hkind]
  have hmem : c ∈ [left, operator, right] := hc
  simp only [List.mem_cons, List.not_mem_nil, or_false] at hmem
  rcases hmem with rfl | rfl | rfl
  · exact h.hasRoom (g.goOn hright.went.past |>.went hclean) rfl
  · exact hway.hasRoom hclean (by simp)
  · have hwithin : u.arena.Within (u.limit + 8) c := hlast.limit_eq ▸ hlast.within c (by simp)
    refine hwithin.hasRoom_of_unguarded ?_ (by simp only [fallsPerLevel]; omega)
    simp [Arena.unguarded, hpower]

theorem binaryTurn_comes (level : Precedence) (hserves : env.Serves)
    (h : Made env.file.text (20 - level.rank) r left s) :
    (binaryTurn level r.pos left).Ends env s (Turn.Comes (Made env.file.text (20 - level.rank) r)
      (Made env.file.text (20 - level.rank) r)) := by
  have hrank := level.rank_le
  obtain ⟨k, hk⟩ : ∃ k, 20 - level.rank = k + 1 := ⟨19 - level.rank, by omega⟩
  rw [hk] at h ⊢
  refine (nextOperator_went level (h.apt hserves)).bind fun found t hnext => ?_
  obtain ⟨ht, hfound⟩ := hnext
  cases found with
  | none => exact .pure (h.goOn ht)
  | some next =>
    obtain ⟨hbinds, hkind⟩ := hfound next rfl
    have g := (Going.start k (h.apt hserves)).goOn ht
    refine .isAt (.ite (fun _ => .afterLineBreak (.ite (fun _ => .pure (h.goOn ht)) fun _ => ?_)) fun _ => ?_)
    · refine g.step (nextToken_goes g.apt) fun _ t g => ?_
      refine g.step (parse_goes .type g.apt trivial) fun type t g => ?_
      exact (h.finish g rfl (by simp [Node.parts_eq, Payload.fields]) rfl).bind fun _ _ hu => .pure hu
    have htoken := tokenNode_produces g.apt (Precedence.isSolid_of_ofKind? hkind)
    refine (Ends.and htoken tokenNode_shows).bind fun operator u hread => ?_
    obtain ⟨hu, hshows⟩ := hread
    have g := g.go hu.went (by omega)
    by_cases hpower : next = .exponentiation
    · subst hpower
      rw [Precedence.eq_asteriskAsterisk_of_ofKind? hkind] at hshows
      refine (parse_produces (.binary .exponentiation) g.apt trivial).bind fun right v hright => ?_
      exact (power_produces h g hshows hright).bind fun _ _ hw => .pure hw
    · have hlt := Precedence.rank_lt_of_binds hbinds hpower
      have hle : AtMost (Production.binary next).height k := ⟨by simp only [Production.height]; omega⟩
      refine g.step (parse_goes (.binary next) g.apt trivial) fun right v g => ?_
      exact (h.finish g rfl (by simp [Node.parts_eq, Payload.fields]) rfl).bind fun _ _ hw => .pure hw

theorem binaryRest_produces (level : Precedence) (hserves : env.Serves)
    (h : Made env.file.text (20 - level.rank) r left s) :
    (binaryRest level left r.pos).Produces env (20 - level.rank) r s :=
  repeating_produces h fun _ _ ht => binaryTurn_comes level hserves ht

theorem reportPowerBase_dirty (operator : Kind) (base : NodeId) :
    (reportPowerBase operator base).Ends env s fun _ t => ¬t.Clean := by
  have hany {α : Type} {p : Parser α} {t : ParserState} : p.Ends env t fun _ _ => True := .always fun _ _ => trivial
  refine hany.bind fun n t _ => hany.bind fun start t _ => .ite (fun _ => ?_) fun _ => ?_
  · exact errorAtRange_dirty _ _ _ _
  · exact errorAtRange_dirty _ _ _ _

theorem unary_produces (h : env.Apt s) : unary.Produces env 8 s s := by
  refine .nodePos (.kind (Produces.ask h startsUpdate_orderly fun _ t ht h => .ite (fun _ => ?_) fun _ => ?_))
  · refine (updateExpression_produces h).bind fun operand u hu => .isAt (.ite (fun _ => ?_) fun _ => .pure hu)
    rw [show s.pos = t.pos from congrArg Token.fullStart ht.symm]
    exact binaryRest_produces .exponentiation h.serves hu
  · refine (simpleUnary_produces h).bind fun operand u hu => .isAt (.ite (fun _ => ?_) fun _ => .pure hu)
    exact (reportPowerBase_dirty _ operand).bind fun _ v hv => .pure (.dirty hv)

theorem binary_produces (level : Precedence) (h : env.Apt s) : (binary level).Produces env (20 - level.rank) s s := by
  refine .nodePos ((unary_produces h).bind fun first t ht => binaryRest_produces level h.serves (ht.mono ?_))
  have := level.rank_le
  omega

/-! ## 3. Assignments -/

theorem startsYield_starts : startsYield.Ends env s fun starts _ => starts = true → s.token.kind = .keyword .yieldKw :=
  .isAt (.ite (fun hyield => .always fun _ _ _ => beq_iff_eq.mp hyield) fun _ => .pure nofun)

theorem yieldExpression_produces (h : env.Apt s) (hkind : s.token.kind ≠ .endOfFile) :
    yieldExpression.Produces env 2 s s := by
  refine .nodePos ((Going.start 1 h).stepTook (nextToken_passes h hkind) fun _ t g => ?_)
  refine g.ask yieldHasOperand_orderly fun _ t g => .ite (fun _ => ?_) fun _ =>
    g.finish rfl (by simp [Node.parts_eq, Payload.fields]) rfl
  refine g.step (acceptToken_goes g.apt rfl) fun asterisk t g => ?_
  exact g.step (parse_goes .assignment g.apt trivial) fun inner t g =>
    g.finish rfl (by simp [Node.parts_eq, Payload.fields]) rfl

theorem conditionalAfter_produces {condition : NodeId} (hserves : env.Serves)
    (h : Made env.file.text 20 r condition s) : (conditionalAfter condition r.pos).Produces env 20 r s := by
  have h' := h.apt hserves
  refine (acceptToken_went h' rfl).bind fun questionMark t ht => ?_
  rcases ht with ⟨questionMark, rfl, ht⟩ | ⟨rfl, rfl⟩
  · have g := (Going.start 19 h').go ht.went (by decide)
    refine g.step (parseIn_goes .assignment g.apt (fun _ => trivial)) fun whenTrue t g => ?_
    refine g.step (expectToken_produces g.apt rfl).goes fun colon t g => ?_
    refine g.ask (.isMissing colon) fun _ t g => ?_
    extract_lets rest
    refine g.fork rest (fun whenFalse t g =>
      h.finish g rfl (by simp [Node.parts_eq, Payload.fields]) rfl) fun hrest => .ite (fun _ => ?_) fun _ => ?_
    · exact g.step (missingHere_produces (k := 0) (r := t) _ _ _ g.apt).goes hrest
    · exact g.step (parse_goes .assignment g.apt trivial) hrest
  · exact .pure h

theorem afterOperators_produces {first : NodeId} (h : env.Apt r) (hfirst : Made env.file.text 20 r first s) :
    (afterOperators r.pos first).Produces env 22 r s := by
  have g := Going.start 19 (hfirst.apt h.serves)
  refine g.ask (.kindOf first) fun kind t g => g.ask (.and (.pure _) (.isAtPunct _)) fun _ t g => ?_
  have hrest (t : ParserState) (g : Going env false 19 s t []) :
      (conditionalAfter first r.pos).Produces env 22 r t :=
    (conditionalAfter_produces h.serves (hfirst.goOn g.went)).upTo
  refine .ite (fun _ => simpleArrow_produces ((Going.start 21 h).parts (by simp)) (hfirst.goOn g.went) rfl) fun _ => ?_
  refine .ite (fun _ => ?_) fun _ => hrest t g
  refine g.step (advance_goes .rescanGreater g.apt nofun) fun _ t g => .kind (.ite (fun hassigns => ?_) fun _ => hrest t g)
  refine g.step (tokenNode_produces g.apt ?_).goes fun operator t g => ?_
  · exact Kind.isSolid_of_isAssignmentOperator hassigns
  · refine g.step (parse_goes .assignment g.apt trivial) fun right t g => ?_
    exact Produces.upTo (k := 20) (hfirst.finish g rfl (by simp [Node.parts_eq, Payload.fields]) rfl)

theorem assignmentBody_produces (h : env.Apt s) : assignmentBody.Produces env 22 s s := by
  refine (Ends.and (startsYield_orderly.went h) startsYield_starts).bind fun _ t ⟨ht, hstarts⟩ => ?_
  have h := ((Going.start 0 h).goOn ht.1).apt
  refine Ends.mono (P := Made env.file.text 22 t) (.ite (fun hyield => ?_) fun _ => ?_) fun _ _ hu => ht.1.made ht.2 hu
  · exact (yieldExpression_produces h (by rw [ht.2, hstarts hyield]; nofun)).upTo
  refine (arrowHeadHere_went h).bind fun found u hu => ?_
  rcases hu with ⟨head, rfl, hu⟩ | ⟨rfl, hu, hutoken⟩
  · exact (arrowAfterHead_produces h.serves hu).upTo
  have h := ((Going.start 0 h).goOn hu).apt
  refine Ends.mono (P := Made env.file.text 22 u) ?_ fun _ _ hv => hu.made hutoken hv
  refine Produces.ask h startsAsyncSimpleArrow_orderly fun _ v _ h => .ite (fun _ => asyncSimpleArrow_produces h) fun _ => ?_
  exact .nodePos ((binary_produces .comma h).bind fun first w hw => afterOperators_produces h hw)

/-- An expression without commas is read one level deeper. -/
theorem assignment_produces (h : env.Apt s) : assignment.Produces env 0 s s :=
  (nested_went _ h fun _ h => (assignmentBody_produces h).upTo).bind fun _ _ ht => .pure ht.1

/-! ## 4. Expressions -/

theorem expression_produces (h : env.Apt s) : expression.Produces env 2 s s := by
  refine .withContext h fun s h => .nodePos ((parse_produces .assignment h trivial).bind fun first t ht => ?_)
  refine repeating_produces (ht.mono (by decide)) fun left u hu => ?_
  have h := hu.apt h.serves
  refine (acceptToken_went h rfl).bind fun comma v hv => ?_
  rcases hv with ⟨comma, rfl, hv⟩ | ⟨rfl, rfl⟩
  · have g := (Going.start 1 h).go hv.went (by decide)
    refine g.step (parse_goes .assignment g.apt trivial) fun right w g => ?_
    exact (hu.finish g rfl (by simp [Node.parts_eq, Payload.fields]) rfl).bind fun _ _ hw => .pure hw
  · exact .pure hu

end Parser

end ScriptSyntax
