/-
  ScriptSyntax/Proofs/Grammar/Lists.lean
  ======================================
  Lists of productions end, and hand over their elements in order.

  A list without separators has no guard of its own: it goes on because whatever
  its question lets in takes a token.  A list with commas skips a token where an
  element took none.
-/
import ScriptSyntax.Proofs.Grammar.Names
import ScriptSyntax.Proofs.Tree.Tiling
import ScriptSyntax.Grammar.Lists

namespace ScriptSyntax

/-- The elements read, the last one first, as parts in the order of the source. -/
def readParts (read : List NodeId) : List Part := read.reverse.map Part.node

@[simp] theorem readParts_cons (id : NodeId) (read : List NodeId) :
    readParts (id :: read) = readParts read ++ [Part.node id] := by
  simp [readParts]

variable {env : Surroundings} {rank : Nat} {took : Bool} {r m s t : ParserState}
variable {items : List Part} {list : ListContext} {element : Parser NodeId}

namespace Parser

/-! ## 1. What a token is to a list -/

theorem startsElement_asks (list : ListContext) (afterError : Bool) (h : s.Ok env.file.text) :
    (startsElement list afterError).Asks env s := by
  cases list
  case sourceElements | blockStatements | switchClauseStatements =>
    exact .bind rfl fun _ => .ite rfl (startsStatement_inquires.asks h)
  case switchClauses | enumMembers | jsxAttributes => exact .or rfl rfl
  case typeMembers => exact (startsTypeMember_inquires (o := true)).asks h
  case classMembers =>
    exact .bind ((startsClassMember_inquires (o := true)).asks h) fun _ => .ite rfl (.ite rfl rfl)
  case objectLiteralMembers | objectBindingElements =>
    refine .kind ?_
    split
    all_goals rfl
  case heritageClauseElement =>
    refine .bind rfl fun _ => .ite ((braceIsHeritage_inquires (o := true)).asks h) ?_
    refine .bind (.ite ?_ ?_) fun _ => .ite (.bind (startsNextHeritage_inquires.asks h) fun _ => rfl) rfl
    · exact (isIdentifier_inquires (o := true)).asks h
    · exact (startsLeftHandSide_inquires (o := true)).asks h
  case variableDeclarations => exact (startsBinding_inquires (o := true)).asks h
  case arrayBindingElements =>
    refine .kind ?_
    split
    · rfl
    · rfl
    · exact (startsBinding_inquires (o := true)).asks h
  case typeParameters => exact (isIdentifier_inquires (o := true)).asks h
  case arrayLiteralMembers =>
    refine .kind ?_
    split
    any_goals rfl
    exact startsExpression_inquires.asks h
  case argumentExpressions => exact .or rfl (startsExpression_inquires.asks h)
  case parameters => exact (startsParameter_inquires (o := true)).asks h
  case typeArguments | tupleElementTypes => exact .or rfl (startsType_asks h)
  case heritageClauses | importOrExportSpecifiers | jsxChildren => rfl

theorem endsList_asks (list : ListContext) (h : s.Ok env.file.text) :
    (endsList list).Asks env s := by
  refine .kind (.ite rfl ?_)
  cases list
  case variableDeclarations =>
    exact .bind ((canEndStatement_inquires (o := true)).asks h) fun _ => .ite rfl rfl
  all_goals rfl

/-- The end of the file ends every list. -/
theorem endsList_of_endOfFile (list : ListContext) (hkind : s.token.kind = .endOfFile) :
    (endsList list).answer env s = true := by
  unfold endsList
  rw [answer_kind, hkind]
  rfl

theorem ne_endOfFile_of_endsList (h : (endsList list).answer env s = false) :
    s.token.kind ≠ .endOfFile := by
  intro hkind
  rw [endsList_of_endOfFile list hkind] at h
  cases h

theorem openListTakes_asks (h : s.Ok env.file.text) : openListTakes.Asks env s :=
  .get (.anyM fun list _ => .ite (.or (startsElement_asks list true h) (endsList_asks list h))
    (.pure false))

/-- After the report the list ends, or the token is skipped. -/
theorem giveUp_ends (list : ListContext) (h : s.Ok env.file.text)
    (hkind : s.token.kind ≠ .endOfFile) :
    (giveUp list).Ends env s fun ends t =>
      (ends = true ∧ Reported env.file.text s t ∧ openListTakes.answer env t = true)
        ∨ (ends = false ∧ Skipped env.file.text s t) := by
  refine (errorHere_ends h _ []).bind fun _ t ht => .ask (openListTakes_asks ht.ok) ?_
  refine .ite (fun hends => .inl ⟨rfl, ht, hends⟩) fun _ => ?_
  refine (nextToken_ends ht.ok (ht.token ▸ hkind)).bind fun _ u hu => .inr ⟨rfl, ?_⟩
  refine ⟨ht.toGlance.trans hu.toGlance, ht.token ▸ hu.token, ?_⟩
  exact Nat.lt_of_le_of_lt ht.forward hu.took

/-- A token that is skipped has been reported, or something else was reported at its place before. -/
theorem giveUp_explains (list : ListContext) (h : s.Ok env.file.text)
    (hkind : s.token.kind ≠ .endOfFile) :
    (giveUp list).Ends env s fun _ t => Explained t.log.entries.toList s.pos t.pos := by
  refine (Ends.and (errorHere_ends h _ []) (exists_last?_errorHere _ [])).bind fun _ t ht => ?_
  obtain ⟨ht, e, he, hstart⟩ := ht
  have hpos : t.pos = s.pos := congrArg Token.fullStart ht.token
  refine .ask (openListTakes_asks ht.ok) (.ite (fun _ => .pure (hpos ▸ .refl _ _)) fun _ => ?_)
  refine (Ends.and (nextToken_ends ht.ok (ht.token ▸ hkind)) (pos_nextToken env t)).bind fun _ u hu => ?_
  obtain ⟨hu, hstop⟩ := hu
  rw [ht.token] at hstop
  refine .pure ⟨Nat.le_trans ht.forward hu.forward, fun _ => ⟨e, ?_, ?_, ?_⟩⟩
  · exact Array.mem_toList_iff.mpr (hu.logged.mem (Array.mem_of_back? he))
  · exact hstart ▸ h.token.fullStart_le
  · rw [hstart, hstop]
    exact h.token.takesRoom hkind

/-! ## 2. Lists -/

/-- Wherever an element of the list may start, the parser makes one and, if so told, takes a
token. -/
def Reads (env : Surroundings) (rank : Nat) (took : Bool) (list : ListContext)
    (element : Parser NodeId) : Prop :=
  ∀ s, env.Ready rank s → (startsElement list false).answer env s = true →
    element.Gives env took s s

/-- What ends a list: a token that says so, or one that a list around it can use. -/
def Ended (list : ListContext) (env : Surroundings) (t : ParserState) : Prop :=
  (endsList list).answer env t = true ∨ ∃ s : ParserState, s.Ok env.file.text
    ∧ Alike true env s env t ∧ (startsElement list false).answer env s = false
    ∧ openListTakes.answer env t = true

theorem Reported.alike {o : Bool} (h : Reported env.file.text s t) : Alike o env s env t := by
  refine ⟨rfl, h.token.symm, ?_, ?_, fun _ => ?_⟩ <;> rw [h.scope_eq]

theorem listTurn_ends {read : List NodeId} (helement : Reads env rank true list element)
    (g : Sofar env rank false r m s (readParts read)) :
    (listTurn list element read).Ends env s
      (Turn.Leads (fun read t => Sofar env rank false r m t (readParts read))
        (fun read t => Sofar env rank false r m t (readParts read) ∧ Ended list env t) s) := by
  have h := g.ready.ok
  refine .ask (endsList_asks list h) (.ite (fun hends => ?_) fun hgoes => ?_)
  · exact .pure ⟨⟨g, .inl hends⟩, Nat.le_refl _⟩
  refine .ask (startsElement_asks list false h) (.ite (fun hstarts => ?_) fun hno => ?_)
  · refine (helement s g.ready hstarts).bind fun id t ht => ?_
    exact .pure ⟨by simpa using g.go ht.run, ht.ahead rfl⟩
  · refine (giveUp_ends list h (ne_endOfFile_of_endsList hgoes)).bind fun ends t ht => ?_
    rcases ht with ⟨rfl, ht, htakes⟩ | ⟨rfl, ht⟩
    · exact .pure ⟨⟨g.goOn ht.toRun, .inr ⟨s, h, ht.alike, hno, htakes⟩⟩, ht.forward⟩
    · exact .pure ⟨g.goOn ht.toRun, ht.took⟩

/-- A list is open while it is read, and what ends it is asked in that state. -/
theorem elements_ends (h : env.Ready rank s) (helement : Reads env rank true list element) :
    (elements list element).Ends env s fun nodes t => Run env.file.text s t [.array nodes]
      ∧ Ended list env (t.withLists (list :: s.scope.openLists)) := by
  have hstart : Sofar env rank false (s.withLists (list :: s.scope.openLists)) _ _ (readParts []) :=
    .start (h.withLists _)
  have hloop : (repeating [] (listTurn list element)).Ends env _ _ :=
    repeating_ends hstart (fun _ _ g => g.ready.ok.pos_le_size) fun read t g => listTurn_ends helement g
  refine .inList (.nodePos (hloop.bind fun read t ht => ?_))
  obtain ⟨⟨g, hended⟩, -⟩ := ht
  refine .nodePos (.pure ⟨(g.run.array rfl rfl).withLists, ?_⟩)
  have hback : (t.withLists s.scope.openLists).withLists (list :: s.scope.openLists) = t := by
    have hscope : { t.scope with openLists := list :: s.scope.openLists } = t.scope := by
      rw [g.run.scope_eq]
      rfl
    show { t with scope := { t.scope with openLists := list :: s.scope.openLists } } = t
    rw [hscope]
  rw [hback]
  exact hended

theorem elements_gives (h : env.Ready rank s) (helement : Reads env rank true list element) :
    (elements list element).Gives env false s s :=
  (elements_ends h helement).mono fun _ _ ht => ht.1.handed

/-! ## 3. Lists with commas -/

/-- After a comma that is missing the parser is further on than the element that it should follow. -/
theorem missingComma_ends {start : Nat} (semicolonSeparates : Bool) (h : s.Ok env.file.text)
    (hkind : s.token.kind ≠ .endOfFile) (hstart : start ≤ s.pos) :
    (missingComma start semicolonSeparates).Ends env s fun _ t =>
      Run env.file.text s t [] ∧ start < t.pos := by
  -- Until a token has been read over, the token is the one that no comma was found at.
  let near (t : ParserState) := Run env.file.text s t [] ∧ (start < t.pos ∨ t.token = s.token)
  have hlast (t : ParserState) (ht : near t) :
      Ends (do if (← nodePos) == start then nextToken) env t fun _ u =>
        Run env.file.text s u [] ∧ start < u.pos := by
    refine .nodePos (.ite (fun heq => ?_) fun hne => ?_)
    · have heq : t.pos = start := beq_iff_eq.mp heq
      have htoken := ht.2.resolve_left (heq ▸ Nat.lt_irrefl _)
      refine (nextToken_ends ht.1.ok (htoken ▸ hkind)).mono fun _ u hu => ?_
      exact ⟨ht.1.trans hu.toRun, heq ▸ hu.took⟩
    · have hne : t.pos ≠ start := by simpa using hne
      exact .pure ⟨ht.1, Nat.lt_of_le_of_ne (Nat.le_trans hstart ht.1.forward) hne.symm⟩
  refine (expectWith_ends (k := .punct .comma) none h nofun).bind fun _ t ht => ?_
  have ht : near t := by
    rcases ht with ⟨-, -, ht⟩ | ⟨-, -, ht⟩
    · exact ⟨ht.toRun, .inl (Nat.lt_of_le_of_lt hstart ht.took)⟩
    · exact ⟨ht.toRun, .inr ht.token⟩
  refine .ite (fun _ => .isAt (.ite (fun hsemicolon => ?_) fun _ => ?_)) fun _ => hlast t ht
  · refine .afterLineBreak (.ite (fun _ => ?_) fun _ => hlast t ht)
    have hkind : t.token.kind ≠ .endOfFile := by
      rw [beq_iff_eq.mp hsemicolon]
      nofun
    refine (nextToken_ends ht.1.ok hkind).bind fun _ u hu => hlast u ⟨ht.1.trans hu.toRun, .inl ?_⟩
    exact Nat.lt_of_le_of_lt (Nat.le_trans hstart ht.1.forward) hu.took
  · exact hlast t ht

theorem separatedTurn_ends {sofar : Separated} (semicolonSeparates : Bool)
    (helement : Reads env rank false list element)
    (g : Sofar env rank false r m s (readParts sofar.read)) :
    (separatedTurn list element semicolonSeparates sofar).Ends env s
      (Sofar.Turns env rank false r m (fun sofar => readParts sofar.read) s) := by
  have h := g.ready.ok
  refine .ask (startsElement_asks list false h) (.ite (fun hstarts => ?_) fun _ => ?_)
  · refine .nodePos (g.mark.step (helement s g.ready hstarts) fun id t g' => ?_)
    refine g'.acceptPunct (fun u _ g' => ?_) fun _ => ?_
    · exact .pure ⟨by simpa using g.resume g'.toHanded, g'.ahead rfl⟩
    refine .ask (endsList_asks list g'.ready.ok) (.ite (fun _ => ?_) fun hgoes => ?_)
    · exact .pure ⟨by simpa using g.resume g'.toHanded, g'.forward⟩
    · refine (missingComma_ends _ g'.ready.ok (ne_endOfFile_of_endsList hgoes) g'.forward).bind
        fun _ u hu => ?_
      exact .pure ⟨by simpa using g.resume (g'.goOn hu.1).toHanded, hu.2⟩
  refine .ask (endsList_asks list h) (.ite (fun _ => g.stop) fun hgoes => ?_)
  refine (giveUp_ends list h (ne_endOfFile_of_endsList hgoes)).bind fun ends t ht => ?_
  rcases ht with ⟨rfl, ht, -⟩ | ⟨rfl, ht⟩
  · exact .pure ⟨g.goOn ht.toRun, ht.forward⟩
  · exact .pure ⟨g.goOn ht.toRun, ht.took⟩

theorem separatedWith_gives (semicolonSeparates : Bool) (h : env.Ready rank s)
    (helement : Reads env rank false list element) :
    (separatedWith list element semicolonSeparates).Gives env false s s := by
  have hstart : Sofar env rank false (s.withLists (list :: s.scope.openLists)) _ _
      (readParts ({} : Separated).read) :=
    .start (h.withLists _)
  have hloop := hstart.loop (k := fun sofar : Separated => readParts sofar.read)
    fun sofar t g => separatedTurn_ends semicolonSeparates helement g
  refine .inList (.nodePos (hloop.bind fun sofar t g => ?_))
  exact .nodePos (.pure (g.run.array rfl rfl).withLists.handed)

theorem separated_gives (h : env.Ready rank s) (helement : Reads env rank false list element) :
    (separated list element).Gives env false s s :=
  separatedWith_gives false h helement

theorem bracketed_gives {opening : Punctuator} (closing : Punctuator) (h : env.Ready rank s)
    (helement : Reads env Production.topRank false list element) :
    (bracketed list element opening closing).Gives env false s s := by
  refine (Sofar.start h).expectPunct (fun t _ g => ?_) fun t _ _ g => ?_
  · refine g.step (separated_gives g.ready helement) fun nodes t g => ?_
    refine g.step (expectPunct_gives _ g.ready.ok) fun _ t g => ?_
    exact g.loosen.done (by simp)
  · exact g.only (missingList_gives g.ready.ok)

theorem bracketed_takes {opening : Punctuator} (closing : Punctuator) (h : env.Ready rank s)
    (helement : Reads env Production.topRank false list element)
    (hkind : s.token.kind = .punct opening) :
    (bracketed list element opening closing).Gives env true s s := by
  refine (Sofar.start h).expectPunct (fun t _ g => ?_) fun t hne _ g => absurd hkind hne
  refine g.step (separated_gives g.ready helement) fun nodes t g => ?_
  refine g.step (expectPunct_gives _ g.ready.ok) fun _ t g => ?_
  exact g.done (by simp)

end Parser

end ScriptSyntax
