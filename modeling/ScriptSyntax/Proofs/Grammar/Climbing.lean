/-
  ScriptSyntax/Proofs/Grammar/Climbing.lean
  =========================================
  Operators and operands in a row.

  A chain of operators is read turn by turn.  Of the row a tree has been read at
  any time, and the rest is ahead.  The right operand of the last operator was
  read for as long as the next one binds tighter than it: so that next operator
  may have the whole tree on its left.
-/
import ScriptSyntax.Grammar.Expressions
import ScriptSyntax.Proofs.Grammar.LoneOperands
import ScriptSyntax.Proofs.Token.Spelling
import ScriptSyntax.Proofs.Tree.Operators

namespace ScriptSyntax

open ScriptSyntax.Parser

variable {env : Surroundings} {rank : Nat} {r s t : ParserState} {id : NodeId}
variable {text : Array Char} {next : Token} {word : PlainName} {o p : BinaryOperator}
variable {level : Precedence} {steps rest : List OperatorStep} {step : OperatorStep}

/-! ## 1. Levels -/

namespace BinaryOperator

/-- The right operand of an operator is read at its level. -/
theorem admitsRight_of_binds (h : o.level.binds p.level = true) : o.AdmitsRight p := by
  unfold Precedence.binds at h
  split at h
  · rename_i hp
    by_cases ho : o.IsPower
    · exact .inr ⟨ho, isPower_iff.mpr hp⟩
    · left
      have hrank : o.level.rank ≠ 12 := fun hrank => ho (isPower_iff_rank.mpr hrank)
      have hle := o.level.rank_le
      rw [hp]
      show o.level.rank < 12
      omega
  · exact .inl (of_decide_eq_true h)

/-- An operator that does not go on with the right operand of another one has that one on its left. -/
theorem admitsLeft_of_not_binds (h : p.level.binds o.level = false) : o.AdmitsLeft p := by
  unfold Precedence.binds at h
  split at h
  · rename_i ho
    have hle := p.level.rank_le
    rw [ho] at h
    exact absurd hle (of_decide_eq_false h)
  · rename_i ho
    have hno : ¬o.IsPower := fun hpower => ho (isPower_iff.mp hpower)
    have hle := of_decide_eq_false h
    by_cases heq : p.level.rank = o.level.rank
    · exact .inr ⟨heq, hno⟩
    · exact .inl (by omega)

end BinaryOperator

/-! ## 2. Tokens of a row -/

/-- The row is ahead, and behind it a semicolon. An operator is told by its token read again. -/
def RowAhead (text : Array Char) : List OperatorStep → Token → Prop
  | [], t => LastSemicolon text t
  | (o, word) :: steps, t =>
    (t.rescanGreater text).1.kind = o.kind
      ∧ ∃ operand, (t.rescanGreater text).1.next text = (operand, [])
        ∧ operand.kind = .identifier ∧ operand.value = word.text
        ∧ ∃ next, operand.next text = (next, []) ∧ RowAhead text steps next

theorem Token.errors_rescanGreater (text : Array Char) (t : Token) : (t.rescanGreater text).2 = [] := by
  unfold Token.rescanGreater
  split <;> rfl

/-- An operator is read again only once. -/
theorem Token.rescanGreater_rescanGreater (text : Array Char) (t : Token) :
    (t.rescanGreater text).1.rescanGreater text = ((t.rescanGreater text).1, []) := by
  by_cases hkind : (t.rescanGreater text).1.kind = .punct .greaterThan
  · have hsame : (t.rescanGreater text).1 = t := by
      by_cases ht : t.kind = .punct .greaterThan
      · unfold rescanGreater at hkind ⊢
        simp only [ht, beq_self_eq_true, if_true, Kind.punct.injEq] at hkind ⊢
        rw [hkind, ← ht]
        rfl
      · rw [rescanGreater_of_ne ht]
    rw [hsame]
    exact Prod.ext hsame (errors_rescanGreater text t)
  · exact rescanGreater_of_ne hkind

/-- The row is still ahead after its first operator has been read again. -/
theorem RowAhead.rescan (h : RowAhead text steps next) : RowAhead text steps (next.rescanGreater text).1 := by
  cases steps with
  | nil =>
    have hne : next.kind ≠ .punct .greaterThan := by
      rw [h.1]
      simp
    rw [Token.rescanGreater_of_ne hne]
    exact h
  | cons step steps =>
    unfold RowAhead at h ⊢
    rwa [Token.rescanGreater_rescanGreater]

theorem RowAhead.endsOperand (h : RowAhead text steps next) : next.kind.endsOperand = true := by
  cases steps with
  | nil =>
    rw [h.1]
    rfl
  | cons step steps =>
    by_cases hkind : next.kind = .punct .greaterThan
    · rw [hkind]
      rfl
    · have hoperator : next.kind = step.1.kind := by
        have := h.1
        rwa [Token.rescanGreater_of_ne hkind] at this
      simp [Kind.endsOperand, hoperator, step.1.level_eq]

/-- A power is told by its token without reading that again. -/
theorem RowAhead.kind_of_isPower (h : RowAhead text steps next) (hstep : step ∈ steps.head?)
    (hpower : step.1.IsPower) : next.kind = .punct .asteriskAsterisk := by
  cases steps with
  | nil => cases hstep
  | cons step steps =>
    cases hstep
    have hkind : (next.rescanGreater text).1.kind = .punct .asteriskAsterisk := h.1.trans hpower
    by_cases hangle : next.kind = .punct .greaterThan
    · exfalso
      unfold Token.rescanGreater at hkind
      simp only [hangle, beq_self_eq_true, if_true, Kind.punct.injEq] at hkind
      have hhead := head_greaterThanOf text[next.stop]? text[next.stop + 1]? text[next.stop + 2]?
      rw [hkind] at hhead
      exact absurd hhead (by decide)
    · rwa [Token.rescanGreater_of_ne hangle] at hkind

namespace Parser

/-! ## 3. Climbing -/

/-- Of the row that starts with the word a tree has been read, and the rest is ahead. The operator that
binds last does not bind the next one. -/
structure RowRead (text : Array Char) (word : PlainName) (steps : List OperatorStep)
    (tree : OperatorTree) (rest : List OperatorStep) (id : NodeId) (next : Token) (F : Forest) : Prop where
  shows : F.IsOperatorTree id tree
  grouped : tree.Grouped
  first_eq : tree.first = word
  steps_eq : tree.steps ++ rest = steps
  ahead : RowAhead text rest next
  free : ∀ p ∈ tree.root?, ∀ step ∈ rest.head?, p.level.binds step.1.level = false

/-- An operator joins the tree on its left with what was read on its right. -/
theorem RowRead.join {tree tree' : OperatorTree} {rest' : List OperatorStep} {name : PlainName}
    {left operator right : NodeId} {before : Token} {F G H : Forest}
    (h : RowRead text word steps tree ((o, name) :: rest) left before F)
    (h' : RowRead text name rest tree' rest' right next G) (hF : F.Keeps H) (hG : G.Keeps H)
    (hroot : ∀ p ∈ tree'.root?, o.level.binds p.level = true)
    (hended : ∀ step ∈ rest'.head?, o.level.binds step.1.level = false)
    (hshows : H.Shows id (.node .binaryExpression) (.binary left operator right))
    (hoperator : H.Shows operator o.kind .token) :
    RowRead text word steps (.binary o tree tree') rest' id next H where
  shows := .binary hshows hoperator (h.shows.keeps hF) (h'.shows.keeps hG)
  grouped := by
    refine ⟨fun p hp => ?_, fun p hp => ?_, h.grouped, h'.grouped⟩
    · exact BinaryOperator.admitsLeft_of_not_binds (h.free p hp _ rfl)
    · exact BinaryOperator.admitsRight_of_binds (hroot p hp)
  first_eq := h.first_eq
  steps_eq := by
    show (tree.steps ++ (o, tree'.first) :: tree'.steps) ++ rest' = steps
    rw [h'.first_eq, List.append_assoc, List.cons_append, h'.steps_eq]
    exact h.steps_eq
  ahead := h'.ahead
  free := by
    rintro _ ⟨⟩
    exact hended

/-- At a level the row has been read as far as the level binds its operators. -/
def Climbed (text : Array Char) (level : Precedence) (word : PlainName) (steps : List OperatorStep)
    (id : NodeId) (next : Token) (F : Forest) : Prop :=
  ∃ tree rest, RowRead text word steps tree rest id next F
    ∧ (∀ p ∈ tree.root?, level.binds p.level = true)
    ∧ ∀ step ∈ rest.head?, level.binds step.1.level = false

/-- The parser is at the first operand of a row, where `in` is an operator. -/
structure AtRow (text : Array Char) (word : PlainName) (steps : List OperatorStep) (s : ParserState) :
    Prop where
  kind_eq : s.token.kind = .identifier
  value_eq : s.token.value = word.text
  ahead : ∃ next, s.token.next text = (next, []) ∧ RowAhead text steps next
  allowed : s.scope.context.disallowIn = false

/-- Rows with fewer operators are climbed at every level. -/
def Climbs (file : SourceFacts) (count : Nat) : Prop :=
  ∀ (level : Precedence) (env : Surroundings) (rank : Nat) (s : ParserState) (word : PlainName)
    (steps : List OperatorStep), env.file = file → steps.length < count → env.Supplied rank s →
    Production.leftHandSide.rank < rank → AtRow file.text word steps s →
    (binary level).Ends env s (Yields file.text s (Climbed file.text level word steps))

/-- On the way along a row: the tree that has been read is all that was read, and the level binds its
root. -/
def Climbing (env : Surroundings) (level : Precedence) (word : PlainName) (steps : List OperatorStep)
    (count : Nat) (r : ParserState) (id : NodeId) (t : ParserState) : Prop :=
  Way env Production.topRank r t [.node id] ∧ r.pos < t.pos
    ∧ ∃ tree rest, RowRead env.file.text word steps tree rest id t.token t.forest
      ∧ rest.length ≤ count ∧ ∀ p ∈ tree.root?, level.binds p.level = true

/-- The next operator of the row is found, if the level binds it. -/
theorem nextOperator_climbs (h : env.Supplied rank t) (hahead : RowAhead env.file.text rest t.token)
    (hin : t.scope.context.disallowIn = false) :
    (nextOperator level).Ends env t fun found u => Quiet env.file.text t u []
      ∧ u.token = (t.token.rescanGreater env.file.text).1 ∧ u.forest = t.forest
      ∧ found = (rest.head?.map fun step => step.1.level).filter level.binds := by
  have hread : ReadingMode.rescanGreater.read env.file.text t.token
      = ((t.token.rescanGreater env.file.text).1, []) :=
    Prod.ext rfl (Token.errors_rescanGreater _ _)
  refine (Way.start h).read (by decide) hread fun u htoken hforest g => .kind ?_
  have hkind : Precedence.ofKind? u.token.kind = rest.head?.map fun step => step.1.level := by
    rw [htoken]
    cases rest with
    | nil =>
      rw [Token.rescanGreater_of_ne (by simp [hahead.1]), hahead.1]
      rfl
    | cons step rest =>
      rw [hahead.1]
      exact step.1.level_eq
  rw [hkind]
  cases rest.head? with
  | none => exact .pure ⟨g.quiet, htoken, hforest, rfl⟩
  | some step =>
    refine .ite (fun hno => ?_) fun hyes => .context (.ite (fun hdisallowed => ?_) fun _ => ?_)
    · have hno : level.binds step.1.level = false := by simpa using hno
      exact .pure ⟨g.quiet, htoken, hforest, by simp [Option.filter, hno]⟩
    · rw [g.quiet.scope_eq, hin, Bool.and_false] at hdisallowed
      cases hdisallowed
    · have hyes : level.binds step.1.level = true := by simpa using hyes
      exact .pure ⟨g.quiet, htoken, hforest, by simp [Option.filter, hyes]⟩

/-- The right operand of an operator is read at the level of that operator. -/
theorem rightOperand_climbs {count : Nat} (hclimbs : Climbs env.file count)
    (h : env.Supplied Production.topRank s) (hfewer : steps.length < count)
    (hat : AtRow env.file.text word steps s) : (parse (.binary level)).Ends env s
      (Yields env.file.text s (Climbed env.file.text level word steps)) := by
  refine parse_of_body h (Production.rank_lt_topRank _) fun inner hfile hinner => ?_
  have hrank : Production.leftHandSide.rank < (Production.binary level).rank := by
    simp [Production.rank]
  exact hclimbs level inner _ s word steps hfile hfewer hinner hrank hat

/-- The tree on the left of an operator and what was read on its right become one tree. -/
theorem binaryExpression_climbs {count : Nat} {tree : OperatorTree} {name : PlainName}
    {left operator right : NodeId} {before : Token} {F : Forest}
    (g : Way env Production.topRank r s [.node left, .node operator, .node right]) (htook : r.pos < s.pos)
    (hleft : RowRead env.file.text word steps tree ((o, name) :: rest) left before F)
    (hkeeps : F.Keeps s.forest) (hoperator : s.forest.Shows operator o.kind .token)
    (hright : Climbed env.file.text o.level name rest right s.token s.forest)
    (hcount : rest.length ≤ count) (hbinds : level.binds o.level = true) :
    (binaryExpression left operator right r.pos).Ends env s fun id t =>
      Climbing env level word steps count r id t ∧ t.pos = s.pos := by
  obtain ⟨tree', rest', hright, hroot, hended⟩ := hright
  have hfinish : (binaryExpression left operator right r.pos).Ends env s
      (Yields env.file.text r fun id next F => next = s.token
        ∧ RowRead env.file.text word steps (.binary o tree tree') rest' id next F) := by
    refine g.finish rfl htook rfl rfl fun id F hkept hshows => ⟨rfl, ?_⟩
    exact hleft.join hright (hkeeps.trans hkept) hkept hroot hended hshows (hoperator.keeps hkept)
  refine hfinish.mono fun id t ht => ?_
  obtain ⟨htoken, hrow⟩ := ht.holds
  have hpos : t.pos = s.pos := congrArg Token.fullStart htoken
  have hlonger : rest'.length ≤ rest.length := by
    rw [← hright.steps_eq, List.length_append]
    omega
  refine ⟨⟨⟨ht.quiet, g.supplied.later ht.quiet.ok (Nat.le_of_eq hpos.symm)⟩, ht.took, _, rest', hrow,
    Nat.le_trans hlonger hcount, ?_⟩, hpos⟩
  rintro _ ⟨⟩
  exact hbinds

/-- Along a row an operator that the level binds takes the tree on its left, and on its right what it
binds itself. -/
theorem binaryTurn_climbs {count : Nat} (hclimbs : Climbs env.file count)
    (hin : r.scope.context.disallowIn = false) (h : Climbing env level word steps count r id t) :
    (binaryTurn level r.pos id).Ends env t
      (Turn.Leads (Climbing env level word steps count r)
        (Yields env.file.text r (Climbed env.file.text level word steps)) t) := by
  obtain ⟨g, htook, tree, rest, hrow, hcount, hroot⟩ := h
  have hallowed {u : ParserState} {items : List Part} (hu : Quiet env.file.text r u items) :
      u.scope.context.disallowIn = false := by
    rw [hu.scope_eq]
    exact hin
  have hoperator : (nextOperator level).Ends env t _ :=
    nextOperator_climbs g.supplied hrow.ahead (hallowed g.quiet)
  refine hoperator.bind fun found u hu => ?_
  obtain ⟨hquiet, htoken, hforest, rfl⟩ := hu
  have g := (g.go hquiet).parts (List.append_nil _)
  have hmoved := Nat.lt_of_lt_of_le htook hquiet.forward
  have hdone (hended : ∀ step ∈ rest.head?, level.binds step.1.level = false) :
      Turn.Leads (Climbing env level word steps count r)
        (Yields env.file.text r (Climbed env.file.text level word steps)) t (.done id) u := by
    refine ⟨⟨g.quiet, hmoved, tree, rest, ?_, hroot, hended⟩, hquiet.forward⟩
    rw [htoken, hforest]
    exact ⟨hrow.shows, hrow.grouped, hrow.first_eq, hrow.steps_eq, hrow.ahead.rescan, hrow.free⟩
  cases rest with
  | nil =>
    refine .pure (hdone ?_)
    rintro _ ⟨⟩
  | cons step rest =>
    obtain ⟨o, name⟩ := step
    cases hbinds : level.binds o.level with
    | false =>
      have hfound : ((((o, name) :: rest).head?.map fun step => step.1.level).filter level.binds)
          = none := by simp [Option.filter, hbinds]
      rw [hfound]
      refine .pure (hdone ?_)
      rintro _ ⟨⟩
      exact hbinds
    | true =>
      have hfound : ((((o, name) :: rest).head?.map fun step => step.1.level).filter level.binds)
          = some o.level := by simp [Option.filter, hbinds]
      rw [hfound]
      obtain ⟨hkind, operand, hoperand, hidentifier, hvalue, next, hnext, hahead⟩ := hrow.ahead
      rw [← htoken] at hkind hoperand
      have has : (u.token.kind == .keyword .asKw) = false := by
        rw [hkind]
        exact beq_eq_false_iff_ne.mpr o.ne_as
      have hend : u.token.kind ≠ .endOfFile := by
        intro hend
        have hlevel := o.level_eq
        rw [← hkind, hend] at hlevel
        cases hlevel
      refine .isAt ?_
      rw [has]
      refine .no (g.step (tokenNode_yields g.ok hend hoperand) fun operator v hv hkeeps huv g => ?_)
      obtain ⟨hv, hshows, -⟩ := hv
      rw [hkind] at hshows
      have hat : AtRow env.file.text name rest v :=
        ⟨hv ▸ hidentifier, hv ▸ hvalue, ⟨next, hv ▸ hnext, hahead⟩, hallowed g.quiet⟩
      have hright : (parse (.binary o.level)).Ends env v _ :=
        rightOperand_climbs hclimbs g.supplied (Nat.lt_of_succ_le hcount) hat
      refine g.step hright fun right w hw hkeeps' hvw g => ?_
      have hread : u.pos < w.pos := Nat.lt_trans huv hvw
      have hjoin : (binaryExpression id operator right r.pos).Ends env w _ :=
        binaryExpression_climbs g (Nat.lt_trans hmoved hread) hrow (hforest ▸ hkeeps.trans hkeeps')
          (hshows.keeps hkeeps') hw (Nat.le_of_succ_le hcount) hbinds
      refine hjoin.bind fun id' x hx => .pure ⟨hx.1, ?_⟩
      rw [hx.2]
      exact Nat.lt_of_le_of_lt hquiet.forward hread

/-- A chain of operators is read as far as the level binds them. -/
theorem binaryRest_climbs {count : Nat} (hclimbs : Climbs env.file count)
    (hin : r.scope.context.disallowIn = false) (h : Climbing env level word steps count r id t) :
    (binaryRest level id r.pos).Ends env t
      (Yields env.file.text r (Climbed env.file.text level word steps)) :=
  (repeating_ends h (fun _ _ h => h.1.ok.pos_le_size)
    fun _ _ h => binaryTurn_climbs hclimbs hin h).mono fun _ _ h => h.1

/-- A row is an operand with the powers after it, and what is left of the row then. -/
theorem unary_climbs (hparen : ∀ i : Nat, env.file.text[i]? ≠ some '(')
    (hclimbs : Climbs env.file steps.length) (h : env.Supplied rank s)
    (hrank : Production.leftHandSide.rank < rank) (hat : AtRow env.file.text word steps s) :
    unary.Ends env s (Yields env.file.text s (Climbed env.file.text .exponentiation word steps)) := by
  obtain ⟨next, hread, hahead⟩ := hat.ahead
  have hupdate : startsUpdate.Ends env s fun b t => b = true ∧ t = s := by
    refine .kind ?_
    rw [hat.kind_eq]
    exact ⟨rfl, rfl⟩
  refine .nodePos (.kind (.leaves hupdate (.yes ?_)))
  have hmarked : next.Marked env.file.text := by
    have := scanAt_marked env.file.text s.token.stop
    rwa [show scanAt env.file.text s.token.stop = (next, []) from hread] at this
  have hends : IsOperand env.file.text (IsNameAt s.forest s.token.value next) :=
    isOperand_isNameAt hahead.endsOperand fun _ => ⟨hmarked, hparen⟩
  have hoperand := updateExpression_yields hends h hrank (.inl hat.kind_eq) fun inner hfile hinner => by
    rw [← hfile] at hread ⊢
    exact primary_yields_name hinner.ok hat.kind_eq hread
  refine (Way.start h).step hoperand fun id t ht _ htook g => ?_
  obtain ⟨htoken, hname, -⟩ := ht
  have hrow : RowRead env.file.text word steps (.name word) steps id t.token t.forest := by
    refine ⟨.name (hat.value_eq ▸ hname), trivial, rfl, rfl, htoken ▸ hahead, ?_⟩
    rintro _ ⟨⟩
  refine .isAt (.ite (fun _ => ?_) fun hno => .pure ?_)
  · refine binaryRest_climbs hclimbs hat.allowed ⟨g, htook, _, steps, hrow, Nat.le_refl _, ?_⟩
    rintro _ ⟨⟩
  · refine ⟨g.quiet, htook, _, steps, hrow, ?_, ?_⟩
    · rintro _ ⟨⟩
    · intro step hstep
      have hlevel : step.1.level ≠ .exponentiation := by
        intro hlevel
        have hkind := hahead.kind_of_isPower hstep (BinaryOperator.isPower_iff.mpr hlevel)
        rw [htoken, hkind] at hno
        cases hno
      cases heq : step.1.level <;> first | rfl | exact absurd heq hlevel

/-- A row is read at a level as far as the level binds its operators. -/
theorem binary_climbs (hparen : ∀ i : Nat, env.file.text[i]? ≠ some '(')
    (hclimbs : Climbs env.file steps.length) (h : env.Supplied rank s)
    (hrank : Production.leftHandSide.rank < rank) (hat : AtRow env.file.text word steps s) :
    (binary level).Ends env s (Yields env.file.text s (Climbed env.file.text level word steps)) := by
  refine .nodePos ((Way.start h).step (unary_climbs hparen hclimbs h hrank hat)
    fun id t ht _ htook g => ?_)
  obtain ⟨tree, rest, hrow, hroot, -⟩ := ht
  have hshorter : rest.length ≤ steps.length := by
    rw [← hrow.steps_eq, List.length_append]
    omega
  refine binaryRest_climbs hclimbs hat.allowed ⟨g, htook, tree, rest, hrow, hshorter, fun p hp => ?_⟩
  -- the operators that have been read are powers, and every level binds these
  have hpower : p.level = .exponentiation := by
    have hbinds := hroot p hp
    cases heq : p.level with
    | exponentiation => rfl
    | _ =>
      rw [heq] at hbinds
      cases hbinds
  rw [hpower]
  exact decide_eq_true level.rank_le

/-- All rows are climbed, at all levels. -/
theorem climbs {file : SourceFacts} (hparen : ∀ i : Nat, file.text[i]? ≠ some '(') (count : Nat) :
    Climbs file count := by
  induction count with
  | zero =>
    intro level env rank s word steps _ hfewer
    exact absurd hfewer (Nat.not_lt_zero _)
  | succ count ih =>
    rintro level env rank s word steps rfl hfewer h hrank hat
    refine binary_climbs hparen ?_ h hrank hat
    intro level env' rank s word steps' hfile hfewer'
    exact ih level env' rank s word steps' hfile (by omega)

/-- At the level of the comma a row is read to its end. -/
theorem binary_comma_climbs (hparen : ∀ i : Nat, env.file.text[i]? ≠ some '(')
    (h : env.Supplied rank s) (hrank : Production.leftHandSide.rank < rank)
    (hat : AtRow env.file.text word steps s) :
    (binary .comma).Ends env s (Yields env.file.text s fun id next F =>
      LastSemicolon env.file.text next ∧ ∃ tree, F.IsOperatorTree id tree ∧ tree.Grouped
        ∧ tree.first = word ∧ tree.steps = steps) := by
  refine (binary_climbs hparen (climbs hparen _) h hrank hat).mono fun id t ht => ht.mono ?_
  rintro id next F ⟨tree, rest, hrow, -, hended⟩
  cases rest with
  | nil =>
    refine ⟨hrow.ahead, tree, hrow.shows, hrow.grouped, hrow.first_eq, ?_⟩
    rw [← hrow.steps_eq, List.append_nil]
  | cons step rest =>
    have hno := hended step rfl
    rw [Precedence.binds_comma step.1.level_eq] at hno
    cases hno

end Parser

end ScriptSyntax
