/-
  ScriptSyntax/Proofs/Grammar/Classes.lean
  ========================================
  Classes, interfaces and their members.

  A list of members goes on because a member takes a token wherever the list lets
  one start: its decorators, its modifiers or its name.
-/
import ScriptSyntax.Proofs.Grammar.Functions
import ScriptSyntax.Grammar.Classes

namespace ScriptSyntax

namespace Parser

variable {env : Surroundings} {rank : Nat} {took : Bool} {r m s t : ParserState}
variable {items : List Part} {start : DeclarationStart}

/-! ## 1. Heritage -/

theorem heritageElement_gives (h : env.Ready Production.topRank s) :
    heritageElement.Gives env false s s := by
  refine .nodePos ((Sofar.start h).step (parse_gives .leftHandSide h (by decide) trivial)
    fun inner t g => ?_)
  extract_lets rest
  refine g.fork rest (fun arguments t g => ?_) fun hrest => .isAt (.ite (fun _ => ?_) fun _ => ?_)
  · exact g.finishProduction rfl (by simp [Payload.fields]) rfl
  · exact g.step (typeArguments_gives g.ready) fun list t g => hrest (some list) t g
  · exact hrest none t (g.parts (by simp))

theorem heritageClause_takes (h : env.Ready rank s) (hkind : s.token.kind ≠ .endOfFile) :
    heritageClause.Gives env true s s := by
  refine .token ((Sofar.start h).stepTook (nextToken_takes h.ok hkind) fun _ t g => ?_)
  have helement : Reads env Production.topRank false .heritageClauseElement heritageElement :=
    fun _ hs _ => heritageElement_gives hs
  refine g.step (separated_gives g.ready helement) fun types t g => ?_
  exact g.finishProduction rfl (by simp [Payload.fields]) rfl

theorem heritageClause_reads : Reads env rank true .heritageClauses heritageClause := by
  intro s hs hstarts
  refine heritageClause_takes hs fun hkind => ?_
  have hword : s.token.kind.isHeritageWord = true := hstarts
  rw [hkind] at hword
  cases hword

theorem heritageClauses_gives (h : env.Ready rank s) : heritageClauses.Gives env false s s := by
  refine .kindIs (.ite (fun _ => ?_) fun _ => (Run.refl h.ok).handed)
  exact (elements_gives h heritageClause_reads).bind fun _ _ ht => .pure ht

/-! ## 2. Members -/

/-- There is a node for the name of a property. If the name is missing, decorators or modifiers come
before it. -/
def NamedOrMarked (start : DeclarationStart) (a : Arena) (name : NodeId) : Prop :=
  ∃ n, a.get? name = some n
    ∧ (n.isMissing = true → start.decorators.isSome = true ∨ start.modifiers.isSome = true)

theorem NamedOrMarked.grows {a b : Arena} {name : NodeId} (h : NamedOrMarked start a name)
    (hab : a.Grows b) : NamedOrMarked start b name := by
  obtain ⟨n, hn, hmissing⟩ := h
  exact ⟨n, hab.get? hn, hmissing⟩

theorem propertyAfterName_gives {name : NodeId} {questionMark : Option NodeId}
    (g : Sofar env Production.topRank took r m s (held start ++ (.node name :: held questionMark)))
    (hpos : start.pos = r.pos) (hnamed : NamedOrMarked start s.arena name) :
    (propertyAfterName start name questionMark).Ends env s
      fun id t => Handed env.file.text took r m t (held id) := by
  refine (typeAnnotation_gives g.ready).bind fun type t ht => ?_
  have g := g.go ht.run
  have hnamed := hnamed.grows ht.run.grows
  refine .ask (hasModifier_asks .staticKw g (by simp)) ?_
  extract_lets rest
  have hrest (initializer : Option NodeId) (u : ParserState)
      (hu : Handed env.file.text false t t u (held initializer)) : (rest initializer).Ends env u
        fun id v => Handed env.file.text took r m v (held id) := by
    have g := g.go hu.run
    refine (semicolon_gives g.ready.ok).bind fun _ v hv => ?_
    obtain ⟨n, hn, hmissing⟩ := hnamed.grows (hu.run.grows.trans hv.run.grows)
    exact (g.go hv.run).finishRuled hpos (by simp) rfl (Node.lawful_of_name rfl rfl hn hmissing)
  have hinitializer (context : ContextFlags → ContextFlags) :
      (withContext context initializer).Gives env false t t :=
    .withContext (initializer_gives (g.ready.inContext _))
  exact .ite (fun _ => (hinitializer _).bind hrest) fun _ => (hinitializer _).bind hrest

/-- A property or a method takes the asterisk or the name that it starts with. -/
def startsMember (k : Kind) : Bool := k == .punct .asterisk || startsPropertyName k

theorem propertyOrMethod_gives (g : Sofar env Production.topRank took r s s (held start))
    (hpos : start.pos = r.pos) (hmember : startsMember s.token.kind = true) :
    (propertyOrMethod start).Gives env (startsMember s.token.kind) r s := by
  refine g.acceptToken nofun (fun asterisk t _ g' => ?_) fun hkind => ?_
  · refine g'.step (propertyName_gives g'.ready) fun name t g' => ?_
    refine g'.step (acceptToken_gives _ g'.ready.ok) fun questionMark t g' => ?_
    refine .ask rfl (.ite (fun _ => ?_) nofun)
    exact methodAfterName_gives _ (g'.loosen.parts (by simp)) hpos
  · have hstarts : startsMember s.token.kind = startsPropertyName s.token.kind := by
      simp [startsMember, hkind]
    rw [hstarts] at hmember ⊢
    refine (Ends.and (propertyName_ends g.ready) (propertyName_present g.ready hmember)).bind
      fun name t ⟨ht, n, hn, hpresent⟩ => ?_
    have g' : Sofar env Production.topRank _ r s t (held start ++ [Part.node name]) :=
      ⟨⟨g.run.trans ht.run, ht.forward, ht.ahead⟩, g.ready.run ht.run⟩
    refine (acceptToken_gives _ g'.ready.ok).bind fun questionMark u hu => ?_
    have g' := g'.go hu.run
    refine .ask rfl (.ite (fun _ => ?_) fun _ => ?_)
    · exact methodAfterName_gives _ (g'.parts (by simp)) hpos
    · refine propertyAfterName_gives (g'.parts (by simp)) hpos ⟨n, hu.run.grows.get? hn, ?_⟩
      exact fun hmissing => absurd (hpresent.symm.trans hmissing) Bool.false_ne_true

/-- Where no name of a member starts, there are decorators or modifiers. -/
theorem memberAfterModifiers_gives (g : Sofar env Production.topRank took r s s (held start))
    (hpos : start.pos = r.pos) (hmarked : startsMember s.token.kind = false →
      start.decorators.isSome = true ∨ start.modifiers.isSome = true) :
    (memberAfterModifiers start).Gives env (startsMember s.token.kind) r s := by
  refine (acceptContextualWord_ends .getKw g.ready.ok).bind fun found t ht => ?_
  rcases ht with ⟨rfl, ht⟩ | ⟨rfl, ht⟩
  · exact accessor_gives rfl (g.goOnTook ht.toRun ht.took).loosen hpos
  refine .ite nofun fun _ => (acceptContextualWord_ends .setKw ht.ok).bind fun found u hu => ?_
  rcases hu with ⟨rfl, hu⟩ | ⟨rfl, hu⟩
  · exact accessor_gives rfl ((g.goOn ht.toRun).goOnTook hu.toRun hu.took).loosen hpos
  refine .ite nofun fun _ => ?_
  have g := ((g.goOn ht.toRun).goOn hu.toRun).mark
  have hle : s.pos ≤ u.pos := Nat.le_trans ht.forward hu.forward
  rw [← ht.token, ← hu.token] at hmarked ⊢
  suffices h : Ends _ env u fun id v =>
      Handed env.file.text (startsMember u.token.kind) r u v (held id) from
    h.mono fun _ _ hv => hv.back hle
  refine .isAt (.ite (fun hword => ?_) fun _ => ?_)
  · exact (constructorMember_takes g hpos (beq_iff_eq.mp hword)).loosen
  refine .ask (startsIndexSignature_inquires (o := true).asks g.ready.ok) (.ite (fun hindex => ?_) fun _ => ?_)
  · exact (indexSignature_takes g hpos (startsIndexSignature_ends hindex)).loosen
  refine .kindIs (.ite (fun hyes => propertyOrMethod_gives g hpos ?_) fun hno => ?_)
  · grind [startsMember, startsPropertyName]
  have hstarts : startsMember u.token.kind = false := by
    grind [startsMember, startsPropertyName]
  rw [hstarts]
  refine (missingBefore_ends rfl _ _ g.ready.ok).bind fun name v hv => ?_
  obtain ⟨n, hn, -⟩ := hv.1.node
  exact propertyAfterName_gives ((g.go hv.1.run).parts (by simp)) hpos ⟨n, hn, fun _ => hmarked hstarts⟩

theorem skipMemberModifiers_ends (h : s.token.kind.isModifier = false) :
    skipMemberModifiers.Ends env s fun found t => found = (none, false) ∧ t = s := by
  refine Ends.read (Ends.bind (P := fun o t => o = .done (none, false) ∧ t = s) (.kind ?_) ?_)
  · exact .ite (fun _ => .pure ⟨rfl, rfl⟩) fun hmodifier => absurd hmodifier (by simp [h])
  · rintro _ _ ⟨rfl, rfl⟩
    exact .pure ⟨rfl, rfl⟩

/-- A member of a class starts with an at sign, an asterisk, a modifier or a name. -/
theorem startsClassMember_ends : startsClassMember.Ends env s fun starts _ =>
    starts = true → s.token.kind = .punct .atSign ∨ startsMember s.token.kind = true := by
  refine .peeked (.isAt (.ite (fun hat => .pure fun _ => .inl (beq_iff_eq.mp hat)) fun _ => ?_))
  cases hmodifier : s.token.kind.isModifier with
  | true =>
    refine .always fun _ _ _ => .inr ?_
    simp [startsMember, startsPropertyName, Kind.isName_of_isModifier hmodifier]
  | false =>
    refine (skipMemberModifiers_ends hmodifier).bind ?_
    rintro _ _ ⟨rfl, rfl⟩
    refine .ite (fun hyes => absurd hyes Bool.false_ne_true) fun _ => ?_
    refine .isAt (.ite (fun hasterisk => .pure fun _ => .inr ?_) fun _ => ?_)
    · simp [startsMember, beq_iff_eq.mp hasterisk]
    refine .kindIs (.ite (fun hname => .always fun _ _ _ => .inr ?_) fun _ => ?_)
    · simp only [startsMember, startsPropertyName, hname]
      simp
    · refine .pureThen (.isAt (.ite (fun hbracket => .pure fun _ => .inr ?_) fun _ => .pure ?_))
      · simp [startsMember, startsPropertyName, beq_iff_eq.mp hbracket]
      · exact fun hyes => absurd hyes Bool.false_ne_true

theorem classMember_starts (h : s.Ok env.file.text)
    (hstarts : (startsElement .classMembers false).answer env s = true)
    (hsemicolon : s.token.kind ≠ .punct .semicolon) :
    s.token.kind = .punct .atSign ∨ startsMember s.token.kind = true := by
  have helement : (startsElement .classMembers false).Ends env s fun starts _ => starts = true →
      startsClassMember.answer env s = true ∨ s.token.kind = .punct .semicolon :=
    .ask ((startsClassMember_inquires (o := true)).asks h) (.ite (fun hyes => .pure fun _ => .inl hyes)
      fun _ => .ite nofun fun _ hyes => .inr (beq_iff_eq.mp hyes))
  exact startsClassMember_ends ((helement hstarts).resolve_right hsemicolon)

/-- A member takes a token: its decorators, its modifiers or its name. -/
theorem classMember_takes (h : env.Ready Production.topRank s)
    (hstarts : (startsElement .classMembers false).answer env s = true) :
    classMember.Gives env true s s := by
  refine .nodePos ((Sofar.start h).acceptPunct (fun t _ g => ?_) fun hsemicolon => ?_)
  · exact g.finishProduction rfl rfl rfl
  refine (decorators_ends h).bind fun decorators t ⟨hrun, hdecorated⟩ => ?_
  have g := (Sofar.start h).go hrun
  refine (modifiers_ends true g.ready).bind fun modifiers u ⟨hrun', hmodified, hfilled⟩ => ?_
  have hmarked (hno : startsMember u.token.kind = false) :
      decorators.isSome = true ∨ modifiers.isSome = true := by
    rcases hdecorated with ⟨-, -, hlist⟩ | ⟨hat, rfl⟩
    · exact .inl hlist.isSome
    rcases hmodified with htook | ⟨htoken, -⟩
    · exact .inr (hfilled htook)
    · have hname := (classMember_starts h.ok hstarts hsemicolon).resolve_left hat
      rw [htoken, hname] at hno
      cases hno
  have hmember : (memberAfterModifiers { pos := s.pos, decorators, modifiers }).Gives env
      (startsMember u.token.kind) s u := memberAfterModifiers_gives (g.go hrun').mark rfl hmarked
  refine hmember.mono fun id v hv => hv.run.handedTook ?_
  have hle : s.pos ≤ u.pos := Nat.le_trans hrun.forward hrun'.forward
  rcases hdecorated with ⟨-, htook, -⟩ | ⟨hat, rfl⟩
  · exact Nat.lt_of_lt_of_le htook (Nat.le_trans hrun'.forward hv.forward)
  rcases hmodified with htook | ⟨htoken, -⟩
  · exact Nat.lt_of_lt_of_le htook hv.forward
  · have hname := (classMember_starts h.ok hstarts hsemicolon).resolve_left hat
    exact Nat.lt_of_le_of_lt hle (hv.ahead (htoken ▸ hname))

/-! ## 3. Classes -/

theorem className_gives (h : s.Ok env.file.text) : className.Gives env false s s := by
  refine .ask (isIdentifier_inquires (o := true).asks h) (.ite (fun _ => ?_) fun _ => ?_)
  · have hasks : (isAtKeyword .implementsKw <&&> peek isName).Asks env s :=
      (Inquires.and (o := true) (.isAtKeyword _) (.peek isName_inquires.toScouts)).asks h
    refine .ask hasks (.ite (fun _ => (Run.refl h).handed) fun _ => ?_)
    exact (identifier_gives h).bind fun _ _ ht => .pure ht
  · exact (Run.refl h).handed

theorem classMembers_gives (h : env.Ready rank s) : classMembers.Gives env false s s := by
  refine (Sofar.start h).expectPunct (fun t _ g => ?_) fun t _ _ g => ?_
  · have helement : Reads env Production.topRank true .classMembers classMember :=
      fun _ hs hstarts => classMember_takes hs hstarts
    refine g.step (elements_gives g.ready helement) fun list t g => ?_
    refine g.step (expectPunct_gives _ g.ready.ok) fun _ t g => ?_
    exact g.loosen.done (by simp)
  · exact g.only (missingList_gives g.ready.ok)

/-- A class takes its keyword. -/
theorem classLike_takes {kind : NodeKind} (hplain : (Kind.node kind).isRuled = false)
    (g : Sofar env rank took r s s (held start)) (hpos : start.pos = r.pos) (hkind : s.token.kind = .keyword .classKw) :
    (classLike kind start).Gives env true r s := by
  refine g.stepTook (expectKeyword_takes g.ready.ok hkind) fun _ t g => ?_
  refine g.step (className_gives g.ready.ok) fun name t g => ?_
  refine g.step (typeParameters_gives g.ready) fun typeParameters t g => ?_
  refine g.step (heritageClauses_gives g.ready) fun heritage t g => ?_
  refine g.step (classMembers_gives g.ready) fun members t g => ?_
  exact g.finishDeclaration hpos (by simp) (Kind.isSpecial_eq_false hplain rfl)

theorem interfaceDeclaration_takes (g : Sofar env rank took r s s (held start))
    (hpos : start.pos = r.pos) (hkind : s.token.kind = .keyword .interfaceKw) :
    (interfaceDeclaration start).Gives env true r s := by
  refine g.stepTook (expectKeyword_takes g.ready.ok hkind) fun _ t g => ?_
  refine g.step (identifier_gives g.ready.ok) fun name t g => ?_
  refine g.step (typeParameters_gives g.ready) fun typeParameters t g => ?_
  refine g.step (heritageClauses_gives g.ready) fun heritage t g => ?_
  refine g.step (typeMembers_gives g.ready) fun members t g => ?_
  exact g.finishDeclaration hpos (by simp) rfl

end Parser

end ScriptSyntax
