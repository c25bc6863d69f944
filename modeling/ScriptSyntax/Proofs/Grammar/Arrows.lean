/-
  ScriptSyntax/Proofs/Grammar/Arrows.lean
  =======================================
  Arrow functions.

  The head of an arrow function takes the token that opens it.  Where the head is
  found missing behind the arrow, nothing has been read, and the arrow itself is
  taken next.
-/
import ScriptSyntax.Proofs.Grammar.Functions
import ScriptSyntax.Grammar.Arrows

namespace ScriptSyntax

instance : Held ArrowHead := ⟨fun head => held head.start ++ held head.shape⟩

@[simp] theorem held_arrowHead (head : ArrowHead) :
    held head = held head.start ++ held head.shape := rfl

namespace Parser

variable {o : Bool} {env : Surroundings} {rank : Nat} {took : Bool} {r m s t : ParserState}
variable {items : List Part}

/-! ## 1. Looking ahead -/

theorem isJsxFile_inquires : Inquires o isJsxFile :=
  .of_eq (fun _ _ => rfl) fun h => congrArg (fun file : SourceFacts => file.variant == .jsx) h.file

theorem arrowAfterName_scouts : Scouts o arrowAfterName := by
  refine nextKind_scouts.bind fun k => ?_
  split
  any_goals with_reducible exact .pure _
  refine nextKind_scouts.bind fun k => ?_
  split
  all_goals exact .pure _

theorem isModifiedParameter_inquires (word : Kind) : Inquires o (isModifiedParameter word) :=
  .ite (.peek isIdentifier_inquires.toScouts) (.pure false)

theorem arrowAfterParen_scouts : Scouts o arrowAfterParen := by
  refine nextKind_scouts.bind fun k => ?_
  split
  any_goals with_reducible exact .pure _
  · refine nextKind_scouts.bind fun k => ?_
    split
    all_goals exact .pure _
  · refine (isModifiedParameter_inquires _).toScouts.bind fun _ => .ite (.pure _) ?_
    exact (isIdentifier_inquires.or (.isAtKeyword _)).toScouts.bind fun _ =>
      .ite arrowAfterName_scouts (.pure _)

theorem typeParameterAhead_scouts : Scouts o typeParameterAhead := by
  refine nextKind_scouts.bind fun k => ?_
  split
  any_goals with_reducible exact .pure _
  refine nextKind_scouts.bind fun k => ?_
  split
  all_goals exact .pure _

theorem typeParameterFollows_inquires : Inquires o typeParameterFollows :=
  .lookAhead typeParameterAhead_scouts

theorem arrowAfterLessThan_scouts : Scouts o arrowAfterLessThan := by
  refine Scouts.nextToken.bind fun _ => isIdentifier_inquires.toScouts.bind fun _ => .ite ?_ (.pure _)
  exact isJsxFile_inquires.toScouts.bind fun _ =>
    .ite (typeParameterFollows_inquires.toScouts.bind fun _ => .pure _) (.pure _)

theorem arrowAtOpening_scouts : Scouts o arrowAtOpening := by
  refine Inquires.kind.toScouts.bind fun k => ?_
  split
  · exact arrowAfterParen_scouts
  · exact arrowAfterLessThan_scouts
  · exact .pure _

/-- Whether an arrow function starts at `async` is decided on its line. -/
theorem arrowAfterAsync_scouts : Scouts o arrowAfterAsync :=
  Scouts.nextToken.bind fun _ => Inquires.afterLineBreak.toScouts.bind fun _ =>
    .ite (.pure _) arrowAtOpening_scouts

theorem startsArrow_inquires : Inquires o startsArrow := by
  refine .bind .kind fun k => ?_
  split
  any_goals with_reducible exact .pure _
  · exact .lookAhead arrowAtOpening_scouts
  · exact .lookAhead arrowAtOpening_scouts
  · exact .lookAhead arrowAfterAsync_scouts

/-- Tokens that open the head of an arrow function. -/
def opensArrow (k : Kind) : Bool := k == .keyword .asyncKw || opensSignature k

/-- An arrow function starts with a token that opens its head, or, if that is missing, with the
arrow. -/
theorem startsArrow_ends : startsArrow.Ends env s fun answer _ =>
    (answer = .unclear → opensArrow s.token.kind = true)
      ∧ (answer = .yes → opensArrow s.token.kind = true ∨ s.token.kind = .punct .equalsGreaterThan) := by
  refine .kind ?_
  split
  · exact .always fun _ _ => ⟨fun _ => by simp [*, opensArrow, opensSignature], fun _ => .inl (by simp [*, opensArrow, opensSignature])⟩
  · exact .always fun _ _ => ⟨fun _ => by simp [*, opensArrow, opensSignature], fun _ => .inl (by simp [*, opensArrow, opensSignature])⟩
  · exact .always fun _ _ => ⟨fun _ => by simp [*, opensArrow], fun _ => .inl (by simp [*, opensArrow])⟩
  · exact .pure ⟨fun hunclear => absurd hunclear (by decide), fun _ => .inr ‹_›⟩
  · refine .pure ⟨fun hunclear => absurd hunclear (by decide), fun hyes => absurd hyes (by decide)⟩

/-- Are there, on one line, a name and an arrow? -/
theorem simpleArrow_scouts :
    Scouts o (onSameLine (isIdentifier <&&> afterNext (onSameLine (isAtPunct .equalsGreaterThan)))) := by
  refine Inquires.afterLineBreak.toScouts.bind fun _ => .ite (.pure false) ?_
  refine isIdentifier_inquires.toScouts.bind fun b => ?_
  cases b with
  | true => exact .afterNext (Inquires.onSameLine (.isAtPunct _)).toScouts
  | false => exact .pure false

theorem startsAsyncSimpleArrow_inquires : Inquires o startsAsyncSimpleArrow :=
  (Inquires.isAtKeyword _).bind fun _ => .ite (.peek simpleArrow_scouts) (.pure false)

theorem startsAsyncSimpleArrow_ends : startsAsyncSimpleArrow.Ends env s fun starts _ =>
    starts = true → s.token.kind = .keyword .asyncKw :=
  .isAt (.ite (fun hasync => .always fun _ _ _ => beq_iff_eq.mp hasync) fun _ => .pure nofun)

/-! ## 2. Bodies -/

theorem startsBareStatement_inquires : Inquires true startsBareStatement := by
  refine .bind .kind fun k => ?_
  split
  any_goals with_reducible exact .pure _
  exact startsStatement_inquires.bind fun _ =>
    .ite (startsExpressionStatement_inquires.bind fun _ => .pure _) (.pure false)

/-- Without its brace a body may be read only where a statement may. What is no block is an
expression. -/
theorem arrowBody_ends (isAsync : Bool) (h : env.Ready rank s)
    (hbody : s.token.kind = .punct .openBrace ∨ Production.statement.rank < rank) :
    (arrowBody isAsync).Ends env s fun id t =>
      Handed env.file.text false s s t [.node id] ∧ t.arena.MayBeBody false isAsync id := by
  refine .isAt (.ite (fun _ => Ends.and (functionBody_gives h) (functionBody_mayBeBody h)) fun hbrace => ?_)
  have hrank : Production.statement.rank < rank :=
    hbody.resolve_left fun hkind => absurd hbrace (by simp [hkind])
  refine .ask (startsBareStatement_inquires.asks h.ok) (.ite (fun _ => ?_) fun _ => ?_)
  · exact Ends.and (functionBodyWith_gives none h fun _ => hrank)
      (functionBodyWith_mayBeBody none h fun _ => hrank)
  · have hexpresses : (withContext (fun c => { c with awaitContext := isAsync })
        (parse .assignment)).Ends env s fun id t => t.HoldsExpression id :=
      .withContext (parse_expresses rfl (h.inContext _))
    refine (Ends.and (parseIn_gives .assignment h (Nat.lt_trans (by decide) hrank) trivial)
      hexpresses).mono fun id t ⟨ht, hbody⟩ => ⟨ht, ?_⟩
    obtain ⟨n, hn, hne⟩ := hbody ht.run.ok.faultless
    exact Arena.mayBeBody_of_ne hn hne

/-! ## 3. Heads -/

/-- The modifiers of an arrow function make it asynchronous where there are any. -/
def IsModed (head : ArrowHead) (s : ParserState) : Prop :=
  Moded none head.start.modifiers s { isAsync := head.start.modifiers.isSome }

/-- What the head of an arrow function comes to: nothing older is touched, a certain head is there,
and whatever is there starts here and took the token that opens it. -/
structure Headed (env : Surroundings) (certain : Bool) (s : ParserState) (found : Option ArrowHead)
    (t : ParserState) : Prop where
  grows : s.Grows t
  isSome : certain = true → found.isSome = true
  head : ∀ head, found = some head → head.start.pos = s.pos
    ∧ Handed env.file.text (opensArrow s.token.kind) s s t (held head) ∧ IsModed head t

theorem arrowHead_ends (certain : Bool) (h : env.Ready rank s) :
    (arrowHead certain).Ends env s (Headed env certain s) := by
  refine .nodePos ((arrowModifiers_ends h).bind fun modifiers t ⟨hmoded, ht⟩ => ?_)
  obtain ⟨hready, hbefore⟩ : env.Ready rank t ∧ s.Grows t := by
    rcases ht with ⟨-, ht⟩ | ⟨-, -, rfl⟩
    · exact ⟨h.run ht.run, ht.run.toGrows⟩
    · exact ⟨h, .refl t⟩
  refine (signatureIf_ends _ hready fun u hu => typeAfterColon_gives _ hu).bind
    fun found u ⟨hafter, hsome, hfound⟩ => ?_
  have hgrows := hbefore.trans hafter
  cases found with
  | none => exact .pure ⟨hgrows, fun hcertain => by simp [hcertain] at hsome, nofun⟩
  | some shape =>
    have hu := hfound shape rfl
    have hhead (head : ArrowHead) (heq : head = ⟨{ pos := s.pos, modifiers }, shape⟩) :
        head.start.pos = s.pos ∧ Handed env.file.text (opensArrow s.token.kind) s s u (held head)
          ∧ IsModed head u := by
      subst heq
      refine ⟨rfl, ?_, hmoded.grows hafter.grows⟩
      rcases ht with ⟨-, ht⟩ | ⟨hkind, rfl, rfl⟩
      · refine ⟨?_, Nat.le_trans ht.forward hu.forward, fun _ => Nat.lt_of_lt_of_le (ht.ahead rfl) hu.forward⟩
        simpa using ht.run.trans hu.run
      · refine ⟨by simpa using hu.run, hu.forward, fun hopens => hu.ahead ?_⟩
        simpa [opensArrow, hkind] using hopens
    have hdone : Headed env certain s (some ⟨{ pos := s.pos, modifiers }, shape⟩) u :=
      ⟨hgrows, fun _ => rfl, fun head heq => hhead head (Option.some.inj heq).symm⟩
    refine .ite (fun _ => .pure hdone) fun hcertain => .kind ?_
    split
    · exact .pure hdone
    · exact .pure hdone
    · exact .pure ⟨hgrows, fun h => absurd (hcertain.symm.trans h) nofun, nofun⟩

/-- Either an arrow function starts here, and its head has been read, or nothing has been changed. -/
theorem arrowHeadHere_ends (h : env.Ready rank s) :
    arrowHeadHere.Ends env s fun found t =>
      (∃ head, found = some head ∧ head.start.pos = s.pos
        ∧ Handed env.file.text (opensArrow s.token.kind) s s t (held head) ∧ IsModed head t
        ∧ (opensArrow s.token.kind = true ∨ s.token.kind = .punct .equalsGreaterThan))
      ∨ (found = none ∧ Still env.file.text s t) := by
  have hstarts : startsArrow.Ends env s _ := startsArrow_ends
  refine .ask (startsArrow_inquires (o := true).asks h.ok) ?_
  change (_ → _) ∧ (_ → _) at hstarts
  split
  · exact .pure (.inr ⟨rfl, .refl h.ok⟩)
  · refine (arrowHead_ends true h).mono fun found t ht => .inl ?_
    obtain ⟨head, rfl⟩ := Option.isSome_iff_exists.mp (ht.isSome rfl)
    obtain ⟨hpos, hread, hmoded⟩ := ht.head head rfl
    exact ⟨head, rfl, hpos, hread, hmoded, hstarts.2 ‹_›⟩
  · refine (attempt_ends h.ok ((arrowHead_ends false h).mono fun found t ht => ⟨ht.grows, ht.head⟩)).mono
      fun found t ht => ht.imp_left ?_
    rintro ⟨head, rfl, hpos, hread, hmoded⟩
    exact ⟨head, rfl, hpos, hread, hmoded, .inl (hstarts.1 ‹_›)⟩

/-! ## 4. Arrow functions -/

/-- Behind the arrow everything may be read; where it is missing, the parser stays. -/
theorem expectArrow_ends (g : Sofar env rank took r m s items) :
    (expectToken (.punct .equalsGreaterThan)).Ends env s fun arrow t =>
      ∃ rank', Sofar env rank' took r m t (items ++ [Part.node arrow]) ∧ s.arena.Grows t.arena
        ∧ (Production.statement.rank < rank' ∨ (s.token.kind ≠ .punct .equalsGreaterThan
          ∧ t.token = s.token ∧ rank' = rank)) := by
  by_cases harrow : s.token.kind = .punct .equalsGreaterThan
  · refine (expectToken_ends g.ready.ok harrow).mono fun arrow t ht => ?_
    exact ⟨_, (g.goTook ht.run (ht.pos_lt g.ready.ok (by simp [harrow]))).loosen, ht.run.grows, .inl (by decide)⟩
  · refine (expectToken_missing rfl g.ready.ok harrow).mono fun arrow t ht => ?_
    exact ⟨_, g.go ht.run, ht.run.grows, .inr ⟨harrow, ht.token, rfl⟩⟩

/-- A body follows only an arrow, or stands in its brace. -/
theorem arrowAfterHead_gives {head : ArrowHead} (g : Sofar env rank took r m s (held head))
    (hpos : head.start.pos = r.pos) (hmoded : IsModed head s) : (arrowAfterHead head).Ends env s
      fun id t => Handed env.file.text took r m t (held id) := by
  unfold arrowAfterHead
  extract_lets isAsync
  refine .kindIs ((expectArrow_ends g).bind fun arrow t ⟨_, g, hgrows, hbody⟩ => ?_)
  have hmoded := hmoded.grows hgrows
  extract_lets rest
  have hrest (body : NodeId) (u : ParserState) (hu : Handed env.file.text false t t u [.node body]
      ∧ u.arena.MayBeBody false isAsync body) :
      (rest body).Ends env u fun id v => Handed env.file.text took r m v (held id) := by
    obtain ⟨hu, hbody⟩ := hu
    refine finishMode_gives ((g.go hu.run).parts (by simp)) hpos rfl hmoded hu.run.grows rfl ?_
    rintro _ ⟨⟩
    exact hbody
  refine .ite (fun hfollows => (arrowBody_ends isAsync g.ready ?_).bind hrest) fun _ => ?_
  · refine hbody.symm.imp_left fun ⟨hne, htoken, _⟩ => htoken ▸ ?_
    simpa [hne] using hfollows
  · refine (identifierOr_ends _ g.ready.ok).bind fun body u hu => hrest body u ⟨hu.1.run.handed, ?_⟩
    obtain ⟨n, hn, hkind, -⟩ := hu.1.node
    exact Arena.mayBeBody_of_ne hn (by rw [hkind]; decide)

/-- A single parameter is a parameter around its name, and a list around that. -/
theorem simpleArrow_gives {start : DeclarationStart} {name : NodeId}
    (hstart : Run env.file.text r s (held start)) (hname : Run env.file.text s t [.node name])
    (hready : env.Ready rank t) (hpos : start.pos = r.pos)
    (hmoded : Moded none start.modifiers s { isAsync := start.modifiers.isSome })
    (harrow : t.token.kind = .punct .equalsGreaterThan ∨ Production.statement.rank < rank) :
    (simpleArrow start name).Gives env false r t := by
  obtain ⟨n, hn, -⟩ := hname.placed
  refine .node hn ((finishAround_ends hname hn (by simp) rfl).bind fun parameter u ⟨hle, hu⟩ => ?_)
  obtain ⟨p, hp, -, hpos', hstop, -⟩ := hu.node
  have hspan : u.arena.Spans n.pos [parameter] p.stop :=
    ⟨p, hp, Nat.le_of_eq hpos'.symm, (hu.run.ok.sound.fits _ _ hp).pos_le_stop, Nat.le_refl _⟩
  have hlist := hstart.trans (show Run _ _ _
    [.array { pos := n.pos, stop := p.stop, nodes := [parameter] }] from
      hu.run.gather hle (Nat.le_of_eq hstop) hspan)
  have hforward : t.pos ≤ u.pos := Nat.le_of_eq (congrArg Token.fullStart hu.token.symm)
  have g : Sofar env rank false r t u _ :=
    ⟨⟨hlist, hforward, nofun⟩, hready.later hu.run.ok hforward⟩
  refine .node hp ((expectArrow_ends g).bind fun arrow v ⟨_, g, hgrows, hbody⟩ => ?_)
  refine (arrowBody_ends _ g.ready ?_).bind fun body w ⟨hw, hbody⟩ => ?_
  · rcases hbody with hbody | ⟨hne, -, rfl⟩
    · exact .inr hbody
    · exact .inr (harrow.resolve_left (hu.token ▸ hne))
  · refine finishMode_gives ((g.go hw.run).parts (by simp)) hpos rfl hmoded
      (hu.run.grows.trans (hgrows.trans hw.run.grows)) rfl ?_
    rintro _ ⟨⟩
    exact hbody

theorem asyncSimpleArrow_takes (h : env.Ready rank s) (hkind : s.token.kind = .keyword .asyncKw) :
    asyncSimpleArrow.Gives env true s s := by
  refine .nodePos ((arrowModifiers_ends h).bind fun modifiers t ⟨hmoded, ht⟩ => ?_)
  rcases ht with ⟨-, ht⟩ | ⟨hne, -⟩
  · have g := (Sofar.start h).resumeTook ht
    refine (identifier_gives g.ready.ok).bind fun name u hu => ?_
    have g' := g.go hu.run
    exact g'.last (simpleArrow_gives (g.parts (by simp)).run hu.run g'.ready rfl hmoded
      (.inr (by decide)))
  · exact absurd hkind hne

end Parser

end ScriptSyntax
