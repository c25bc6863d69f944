/-
  ScriptSyntax/Proofs/Grammar/Trials.lean
  =======================================
  Trial runs leave no trace but names.

  Most trials only read tokens.  The others make nodes, report errors, open lists
  and nest; they may even stop in the middle of a production.  Rewinding cuts the
  tree and the log back and knows nothing of open lists, of the depth or of a
  failure, so it relies on every production to only add to what was there, and to
  put its surroundings back.
-/
import ScriptSyntax.Proofs.Grammar.File

namespace ScriptSyntax

open ScriptSyntax.Parser

/-! ## 1. Trials -/

/-- Questions about the token after the current one. -/
inductive NextQuestion : Parser Bool → Prop where
  | identifier : NextQuestion isIdentifier
  | kindIs (c : Kind → Bool) : NextQuestion (kindIs c)
  | kindOnSameLine (c : Kind → Bool) : NextQuestion (onSameLine (kindIs c))
  | callOrMember : NextQuestion (isParenOrLessThan <||> isAtPunct .dot)
  | binding : NextQuestion startsBinding
  | expression : NextQuestion startsExpression
  | simpleArrow :
    NextQuestion (onSameLine (isIdentifier <&&> afterNext (onSameLine (isAtPunct .equalsGreaterThan))))

/-- What is run on trial, and where. Besides what the grammar tries, that is every production that may
be called there. -/
inductive Trial (file : SourceFacts) (s : ParserState) : {α : Type} → Parser α → Prop where
  -- questions
  | next {question : Parser Bool} : NextQuestion question → Trial file s (afterNext question)
  | modifier : Trial file s tokenIsModifier
  | modifierOnSameLine : Trial file s nextFollowsModifier
  | defaultModifier : Trial file s defaultIsModifier
  | accessor : Trial file s (afterNext (onSameLine (isAtPunct .openBracket <||> isPropertyName)))
  | declaration : Trial file s (repeating false fun _ => declarationTurn)
  | mappedType : Trial file s mappedTypeAhead
  | typeMember : Trial file s typeMemberAhead
  | classMember : Trial file s classMemberAhead
  | indexSignature : Trial file s indexSignatureAhead
  | heritage : Trial file s heritageAhead
  | loopEnd : Trial file s loopEndAhead
  | typeParameter : Trial file s typeParameterAhead
  | arrow : Trial file s arrowAtOpening
  | asyncArrow : Trial file s arrowAfterAsync
  | openedType (count : Nat) : s.token.kind = .punct .openParen → file.text.size ≤ s.pos + count →
    Trial file s (afterNext (isAtPunct .closeParen <||> startsParameter <||> startsTypeUpTo count))
  | parameters : s.token.kind = .punct .openParen → Trial file s parametersAhead
  -- parts of productions
  | keywordType : Trial file s keywordType
  | predicateStart : Trial file s predicateStart
  | typeArguments : Trial file s typeArgumentsBeforeParen
  | arrowHead : Trial file s (arrowHead false)
  | sibling : s.token.kind = .punct .lessThan → Trial file s nestedJsxElement
  -- productions
  | production (q : Production) : q.Admits s.token → Trial file s (parse q)

/-! ## 2. What a trial run does -/

variable {file : SourceFacts} {s : ParserState}

theorem NextQuestion.scouts {question : Parser Bool} (h : NextQuestion question) :
    Scouts true question := by
  cases h with
  | identifier => exact isIdentifier_inquires.toScouts
  | kindIs c => exact (Inquires.kindIs c).toScouts
  | kindOnSameLine c => exact (Inquires.kindIs c).onSameLine.toScouts
  | callOrMember => exact (isParenOrLessThan_inquires.or (.isAtPunct _)).toScouts
  | binding => exact startsBinding_inquires.toScouts
  | expression => exact startsExpression_inquires.toScouts
  | simpleArrow => exact simpleArrow_scouts

/-- A scout only moves on, and what errors it meets are added to the log. -/
theorem Scouts.grows {α : Type} {p : Parser α} (hp : Scouts true p) (hok : s.Ok file.text) :
    p.Ends file.surroundings s fun _ t => s.Grows t :=
  (hp.glance hok).mono fun _ _ ht => ht.toGrows

/-- Whatever is run on trial only adds to what was there, and puts its surroundings back. -/
theorem Trial.grows {α : Type} {p : Parser α} (h : Trial file s p) (hok : s.Ok file.text) :
    p.Ends file.surroundings s fun _ t => s.Grows t := by
  have hready := hok.ready
  cases h with
  | next hquestion => exact hquestion.scouts.afterNext.grows hok
  | modifier => exact tokenIsModifier_scouts.grows hok
  | modifierOnSameLine => exact nextFollowsModifier_scouts.grows hok
  | defaultModifier => exact defaultIsModifier_scouts.grows hok
  | accessor =>
    have hname : Scouts true (onSameLine (isAtPunct .openBracket <||> isPropertyName)) :=
      (Inquires.onSameLine (.or (.isAtPunct _) isPropertyName_inquires)).toScouts
    exact hname.afterNext.grows hok
  | declaration => exact declarationTurns_scouts.grows hok
  | mappedType => exact mappedTypeAhead_scouts.grows hok
  | typeMember => exact typeMemberAhead_scouts.grows hok
  | classMember => exact classMemberAhead_scouts.grows hok
  | indexSignature => exact indexSignatureAhead_scouts.grows hok
  | heritage => exact heritageAhead_scouts.grows hok
  | loopEnd => exact loopEndAhead_scouts.grows hok
  | typeParameter => exact typeParameterAhead_scouts.grows hok
  | arrow => exact arrowAtOpening_scouts.grows hok
  | asyncArrow => exact arrowAfterAsync_scouts.grows hok
  | openedType count hkind hcount =>
    have hinner (t : ParserState) (ht : t.Ok file.text) (htook : s.pos < t.pos) :
        (startsTypeUpTo count).Asks file.surroundings t := by
      have := ht.pos_le_size
      exact startsTypeUpTo_asks count ht (show file.text.size - t.pos < count by omega)
    exact (openedType_ends count hok hkind hinner).mono fun _ _ ht => ht.toGrows
  | parameters hkind => exact parametersAhead_ends hready hkind
  | keywordType => exact (keywordType_ends hok).mono fun _ _ ht => ht.1
  | predicateStart => exact (predicateStart_ends hok).mono fun _ _ ht => ht.1
  | typeArguments => exact (typeArgumentsBeforeParen_ends hready).mono fun _ _ ht => ht.1
  | arrowHead => exact (arrowHead_ends false hready).mono fun _ _ ht => ht.grows
  | sibling hkind => exact (nestedJsxElement_ends hready hkind).mono fun _ _ ht => ht.1
  | production q hadmits => exact (parse_gives q hready q.rank_lt_topRank hadmits).mono fun _ _ ht => ht.run.toGrows

/-! ## 3. Rewinding -/

/-- Whatever is run on trial, from any state that the parser may be in: unless the result is kept, the
state is afterwards what it was before, but for new names at the end of their table. -/
theorem speculate_transparent {α : Type} {p : Parser α} (keep : α → Bool) (hok : s.Ok file.text)
    (htrial : Trial file s p) (hgivenUp : keep (p.answer file.surroundings s) = false) :
    ∃ names, s.names.Grows names
      ∧ speculate keep p file.surroundings s = (p.answer file.surroundings s, { s with names }) := by
  have hgrows : s.Grows (p file.surroundings s).2 := htrial.grows hok
  have hkeep : keep (p file.surroundings s).1 = false := hgivenUp
  refine ⟨_, hgrows.named, ?_⟩
  rw [speculate_eq, hkeep, ← hgrows.rewind_eq]
  rfl

/-- An `if` whose parenthesis stays open, read ahead from the start of the text: nodes are made and
errors are reported, and all of that is gone afterwards. -/
theorem lookAhead_openedIf :
    let file : SourceFacts := ⟨"a.ts", #['i', 'f', '(', 'a'], .standard⟩
    let s := ParserState.opened {} file.text
    s.Ok file.text ∧ Trial file s (parse .statement) ∧
      ∃ names, s.names.Grows names ∧ lookAhead (parse .statement) file.surroundings s
        = ((parse .statement).answer file.surroundings s, { s with names }) := by
  intro file s
  have hok : s.Ok file.text := ParserState.opened_ok {} file.text
  have htrial : Trial file s (parse .statement) := .production .statement trivial
  exact ⟨hok, htrial, speculate_transparent (fun _ => false) hok htrial rfl⟩

end ScriptSyntax
