/-
  ScriptSyntax/Proofs/File/OperatorRow.lean
  =========================================
  Texts of operators and operands in a row.

  Identifiers with binary operators between them are parsed as the one tree that
  precedence and association leave.
-/
import ScriptSyntax.Proofs.File.OneStatement
import ScriptSyntax.Proofs.Grammar.Climbing

namespace ScriptSyntax

open ScriptSyntax.Parser

variable {text : Array Char} {pos : Nat} {cs : List Char}

/-! ## 1. Operators in a text -/

/-- How an operator is read from a text: as the punctuator or the word that it is, or, if it starts with
a `>`, as that alone. -/
inductive BinaryOperator.Spelling (o : BinaryOperator) : Prop where
  | punct (p : Punctuator) : o.kind = .punct p → p ≠ .greaterThan →
    (∀ cs, p.standsBefore (' ' :: cs) = true) → Spelling o
  | word (k : Keyword) : o.kind = .keyword k → isIdentifierText k.text = true →
    wordKind k.text = .keyword k → Spelling o
  | angle (p : Punctuator) (more : List Char) : o.kind = .punct p → p.text.toList = '>' :: more →
    (∀ cs : List Char, greaterThanOf (more ++ ' ' :: cs)[0]? (more ++ ' ' :: cs)[1]?
      (more ++ ' ' :: cs)[2]? = p) → Spelling o

theorem BinaryOperator.spelling (o : BinaryOperator) : o.Spelling := by
  obtain ⟨kind, level, hlevel, has⟩ := o
  cases kind with
  | punct p =>
    cases p
    case greaterThan => exact .angle .greaterThan [] rfl rfl fun _ => rfl
    case greaterThanEquals => exact .angle .greaterThanEquals ['='] rfl rfl fun _ => rfl
    case greaterThanGreaterThan => exact .angle .greaterThanGreaterThan ['>'] rfl rfl fun _ => rfl
    case greaterThanGreaterThanGreaterThan =>
      exact .angle .greaterThanGreaterThanGreaterThan ['>', '>'] rfl rfl fun _ => rfl
    all_goals first
      | cases hlevel; done
      | exact .punct _ rfl (by decide) fun _ => rfl
  | keyword k =>
    cases k
    case inKw => exact .word .inKw rfl (by decide) (by decide)
    case instanceOfKw => exact .word .instanceOfKw rfl (by decide) (by decide)
    case asKw => exact absurd rfl has
    all_goals cases hlevel
  | _ => cases hlevel

/-- The token at the place is the operator before a space, if it is read again where it starts with a
`>`. -/
structure ReadsOperator (text : Array Char) (pos : Nat) (o : BinaryOperator) (cs : List Char) (t : Token) :
    Prop where
  scan_eq : scanAt text pos = (t, [])
  kind_eq : (t.rescanGreater text).1.kind = o.kind
  textAt : TextAt text (t.rescanGreater text).1.stop (' ' :: cs)

theorem Reads.operator {o : BinaryOperator} {word : Word} {t : Token}
    (h : Reads text pos word (' ' :: cs) t) (hkind : word.kind = o.kind)
    (hne : o.kind ≠ .punct .greaterThan) : ReadsOperator text pos o cs t := by
  have hsame : (t.rescanGreater text).1 = t := by
    rw [Token.rescanGreater_of_ne]
    rw [h.kind_eq, hkind]
    exact hne
  refine ⟨h.scan_eq, ?_, ?_⟩
  · rw [hsame, h.kind_eq, hkind]
  · rw [hsame]
    exact h.textAt

/-- An operator that starts with a `>` is that one read again. -/
theorem Reads.angleOperator {o : BinaryOperator} {p : Punctuator} {more : List Char} {t : Token}
    (h : Reads text pos ⟨.punct .greaterThan, ""⟩ (more ++ ' ' :: cs) t) (hkind : o.kind = .punct p)
    (hlist : p.text.toList = '>' :: more) (hgreater : greaterThanOf (more ++ ' ' :: cs)[0]?
      (more ++ ' ' :: cs)[1]? (more ++ ' ' :: cs)[2]? = p) : ReadsOperator text pos o cs t := by
  have hp : greaterThanOf text[t.stop]? text[t.stop + 1]? text[t.stop + 2]? = p := by
    rw [show text[t.stop]? = _ from h.textAt.getElem? 0,
      show text[t.stop + 1]? = _ from h.textAt.getElem? 1,
      show text[t.stop + 2]? = _ from h.textAt.getElem? 2]
    exact hgreater
  have hlength : p.text.length - 1 = more.length := by
    show p.text.toList.length - 1 = _
    rw [hlist]
    rfl
  have hrescan : t.rescanGreater text = ({ t with kind := o.kind, stop := t.stop + more.length }, []) := by
    unfold Token.rescanGreater
    simp only [h.kind_eq, beq_self_eq_true, if_true, hp, hlength, hkind]
  refine ⟨h.scan_eq, ?_, ?_⟩
  · rw [hrescan]
  · rw [hrescan]
    exact h.textAt.skip

/-- Between spaces every operator is read as what it is. -/
theorem exists_readsOperator (o : BinaryOperator)
    (h : TextAt text pos (' ' :: (o.kind.text.toList ++ ' ' :: cs))) :
    ∃ t, ReadsOperator text pos o cs t := by
  have hmarker := isConflictMarker_after_space h
  have htail := h.tail
  cases o.spelling with
  | punct p hkind hne hp =>
    rw [hkind] at htail
    obtain ⟨t, ht⟩ := reads_punct htail (hp cs) hmarker
    refine ⟨_, (ht.space h).operator hkind.symm ?_⟩
    rw [hkind]
    intro heq
    exact hne (Kind.punct.inj heq)
  | word k hkind hk hword =>
    rw [hkind] at htail
    obtain ⟨t, ht⟩ := reads_word htail hk .of_space
    refine ⟨_, (ht.space h).operator (hword.trans hkind.symm) ?_⟩
    rw [hkind]
    nofun
  | angle p more hkind hlist hgreater =>
    rw [hkind, show (Kind.punct p).text.toList = '>' :: more from hlist] at htail
    obtain ⟨t, ht⟩ : ∃ t, Reads text (pos + 1) ⟨.punct .greaterThan, ""⟩ (more ++ ' ' :: cs) t :=
      reads_punct htail rfl hmarker
    exact ⟨_, (ht.space h).angleOperator hkind hlist (hgreater cs)⟩

/-! ## 2. Rows in a text -/

/-- The rest of a row: operators with operands after them, with single spaces, and a semicolon. -/
def restChars : List OperatorStep → List Char
  | [] => [';']
  | (o, name) :: steps =>
    ' ' :: (o.kind.text.toList ++ ' ' :: (name.text.toList ++ restChars steps))

/-- Operands with operators between them, and a semicolon. -/
def rowText (first : PlainName) (steps : List OperatorStep) : SourceText :=
  ⟨(first.text.toList ++ restChars steps).toArray⟩

theorem endsWord_restChars (steps : List OperatorStep) : EndsWord (restChars steps) := by
  cases steps with
  | nil =>
    rintro _ ⟨⟩
    decide
  | cons step steps => exact .of_space

/-- A row that stands in a text is ahead there. -/
theorem rowAhead_of_textAt {first : PlainName} {steps : List OperatorStep}
    (h : TextAt text pos (first.text.toList ++ restChars steps)) :
    ∃ t, scanAt text pos = (t, []) ∧ t.kind = .identifier ∧ t.value = first.text
      ∧ ∃ next, t.next text = (next, []) ∧ RowAhead text steps next := by
  induction steps generalizing first pos with
  | nil =>
    obtain ⟨t, ht⟩ := reads_word h first.isIdentifier (endsWord_restChars [])
    have hsemicolon : ∃ next, Reads text t.stop ⟨.punct .semicolon, ""⟩ [] next :=
      reads_punct ht.textAt rfl (isConflictMarker_of_isLineStart ht.inLine)
    obtain ⟨next, hnext⟩ := hsemicolon
    obtain ⟨last, hlast⟩ := scanAt_end hnext.textAt
    exact ⟨t, ht.scan_eq, ht.kind_eq.trans first.wordKind_eq, ht.value_eq, next, hnext.scan_eq,
      hnext.kind_eq, last, hlast⟩
  | cons step steps ih =>
    obtain ⟨o, name⟩ := step
    obtain ⟨t, ht⟩ := reads_word h first.isIdentifier (endsWord_restChars ((o, name) :: steps))
    obtain ⟨next, hnext⟩ := exists_readsOperator o ht.textAt
    obtain ⟨operand, hoperand, hidentifier, hvalue, hafter⟩ := ih hnext.textAt.tail
    exact ⟨t, ht.scan_eq, ht.kind_eq.trans first.wordKind_eq, ht.value_eq, next, hnext.scan_eq,
      hnext.kind_eq, _, scanAt_space hnext.textAt hoperand, hidentifier, hvalue, hafter⟩

theorem BinaryOperator.openParen_notMem (o : BinaryOperator) : '(' ∉ o.kind.text.toList := by
  obtain ⟨kind, level, hlevel, -⟩ := o
  show '(' ∉ kind.text.toList
  cases kind with
  | punct p => cases p <;> first | decide | cases hlevel
  | keyword k => cases k <;> decide
  | _ => cases hlevel

/-- No parenthesis stands in a row. -/
theorem openParen_notMem_restChars (steps : List OperatorStep) : '(' ∉ restChars steps := by
  induction steps with
  | nil => decide
  | cons step steps ih =>
    obtain ⟨o, name⟩ := step
    have hname : '(' ∉ name.text.toList := name.notMem (by decide)
    simp [restChars, o.openParen_notMem, hname, ih]

theorem ne_openParen_of_rowText (first : PlainName) (steps : List OperatorStep) (i : Nat) :
    (rowText first steps).chars[i]? ≠ some '(' := by
  intro hi
  have hmem : '(' ∈ first.text.toList ++ restChars steps := by
    simpa [rowText] using Array.mem_of_getElem? hi
  rcases List.mem_append.mp hmem with hmem | hmem
  · exact first.notMem (by decide) hmem
  · exact openParen_notMem_restChars steps hmem

/-! ## 3. Files of a row -/

/-- Under the number there is a tree of the row in which every operator has the operands that it
admits. -/
def Forest.IsRow (F : Forest) (first : PlainName) (steps : List OperatorStep) (id : NodeId) : Prop :=
  ∃ tree, F.IsOperatorTree id tree ∧ tree.Grouped ∧ tree.first = first ∧ tree.steps = steps

/-- A row of identifiers and binary operators is parsed, without a diagnostic, as one statement: a tree
of that row in which every operator has the operands that it admits. There is only one such tree. -/
theorem parseText_rowText (fileName : String) (options : ParseOptions) (first : PlainName)
    (step : OperatorStep) (steps : List OperatorStep) :
    ∃ f statement e tree, parseText fileName (rowText first (step :: steps)) options = .ok f
      ∧ f.diagnostics = [] ∧ f.statements = [statement]
      ∧ f.forest.Shows statement (.node .expressionStatement) (.expression e)
      ∧ f.forest.IsOperatorTree e tree ∧ tree.first = first ∧ tree.steps = step :: steps
      ∧ tree.Grouped ∧ ∀ other : OperatorTree, other.first = first → other.steps = step :: steps →
        other.Grouped → other = tree := by
  let text := rowText first (step :: steps)
  obtain ⟨c, w, hlist, hspace, hslash, hash⟩ := first.exists_cons
  have htext : TextAt text.chars 0 (first.text.toList ++ restChars (step :: steps)) := by
    simp [TextAt, text, rowText]
  have hparen : ∀ i : Nat, text.chars[i]? ≠ some '(' := ne_openParen_of_rowText first (step :: steps)
  obtain ⟨t, hscan, hkind, hvalue, hnext⟩ := rowAhead_of_textAt htext
  suffices hwhole : ∃ f statement e, parseText fileName text options = .ok f ∧ f.diagnostics = []
      ∧ f.statements = [statement]
      ∧ f.forest.Shows statement (.node .expressionStatement) (.expression e)
      ∧ f.forest.IsRow first (step :: steps) e by
    obtain ⟨f, statement, e, hparse, hdiagnostics, hstatements, hshows, tree, htree, hgrouped, hfirst,
      hsteps⟩ := hwhole
    refine ⟨f, statement, e, tree, hparse, hdiagnostics, hstatements, hshows, htree, hfirst, hsteps,
      hgrouped, fun other hfirst' hsteps' hgrouped' => ?_⟩
    exact hgrouped'.eq hgrouped (hfirst'.trans hfirst.symm) (hsteps'.trans hsteps.symm)
  rw [hlist] at htext
  refine parseText_expression (X := fun id F => F.IsRow first (step :: steps) id) htext hspace hslash hash
    hscan (.inl (.inl hkind)) ?_ ?_ ?_
  · rintro id F G ⟨tree, hshows, hgrouped⟩ hgains
    exact ⟨tree, hshows.keeps hgains.toKeeps, hgrouped⟩
  · intro env s _ hsupplied hat
    have hkind : s.token.kind = .identifier := hat.token ▸ hkind
    exact arrowHeadHere_leaves hsupplied.ok (.inl hkind) (by simp [hkind])
  · intro env s hfile hsupplied hbegin
    have hs := hbegin.token
    have hchars : env.file.text = text.chars := by
      rw [hfile]
      rfl
    rw [← hchars] at hparen hnext
    have hat : AtRow env.file.text first (step :: steps) s :=
      ⟨hs ▸ hkind, hs ▸ hvalue, hs ▸ hnext, hbegin.allowed⟩
    refine (binary_comma_climbs hparen hsupplied (by decide) hat).mono fun id t ht => ht.mono ?_
    rintro id next F ⟨hlast, tree, hshows, hgrouped, hfirst, hsteps⟩
    refine ⟨hlast, ?_, tree, hshows, hgrouped, hfirst, hsteps⟩
    cases hshows with
    | name => cases hsteps
    | binary hshows => exact ⟨_, _, hshows, by simp⟩

end ScriptSyntax
