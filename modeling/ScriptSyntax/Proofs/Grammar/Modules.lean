/-
  ScriptSyntax/Proofs/Grammar/Modules.lean
  ========================================
  Namespaces, imports and exports.
-/
import ScriptSyntax.Proofs.Grammar.Expressions
import ScriptSyntax.Grammar.Modules

namespace ScriptSyntax

namespace Parser

variable {env : Surroundings} {rank : Nat} {took : Bool} {r m s t : ParserState}
variable {items : List Part} {start : DeclarationStart}

/-! ## 1. Namespaces -/

theorem moduleBlock_gives (h : env.Ready rank s) : moduleBlock.Gives env false s s := by
  unfold moduleBlock
  refine .nodePos ?_
  extract_lets rest
  have hrest (took : Bool) (rank : Nat) (list : NodeArray) (t : ParserState)
      (g : Sofar env rank took s s t [.array list]) :
      (rest list).Ends env t fun id u => Handed env.file.text false s s u (held id) := by
    refine (g.finishProduction rfl (by simp [Payload.fields]) rfl).mono fun _ _ h => h.run.handed
  refine (Sofar.start h).expectPunct (fun t _ g => ?_) fun t _ _ g => ?_
  · refine g.step (elements_gives g.ready (statements_reads rfl (by decide))) fun list t g => ?_
    refine g.step (expectPunct_gives _ g.ready.ok) fun _ t g => ?_
    exact hrest _ _ list t g
  · exact g.step (missingList_gives g.ready.ok) fun list t g => hrest _ _ list t g

/-- Each part of a dotted name is a namespace inside the one before it. -/
theorem namespaceDeclaration_gives {flags : NodeFlags}
    (g : Sofar env rank took r m s (held start)) (hpos : start.pos = r.pos)
    (herror : flags.hasError = false) : (namespaceDeclaration start flags).Ends env s
      fun id t => Handed env.file.text took r m t (held id) := by
  refine g.step (identifier_gives g.ready.ok) fun name t g => ?_
  extract_lets rest
  refine .via (P := fun body u => ∃ rank, Sofar env rank took r m u (held start ++ held name ++ held body))
    rest (fun body u ⟨_, g⟩ => ?_) fun hrest => g.acceptPunct (fun u _ g => ?_) fun _ => ?_
  · exact g.finishFlaggedDeclaration hpos (by simp [Payload.fields]) rfl herror
  · refine .nodePos (g.step (parse_gives _ g.ready (Production.rank_lt_topRank _) ⟨rfl, rfl⟩)
      fun body u g => hrest body u ⟨_, g.loosen⟩)
  · exact g.step (moduleBlock_gives g.ready) fun body u g => hrest body u ⟨_, g⟩

theorem optionalModuleBlock_gives (h : env.Ready rank s) :
    optionalModuleBlock.Gives env false s s := by
  refine .isAt (.ite (fun _ => ?_) fun _ => ?_)
  · exact (moduleBlock_gives h).bind fun _ _ ht => ht
  · exact (semicolon_gives h.ok).bind fun _ _ ht => ht

theorem globalDeclaration_takes (g : Sofar env rank took r s s (held start))
    (hpos : start.pos = r.pos) (hkind : s.token.kind = .keyword .globalKw) :
    (globalDeclaration start).Gives env true r s := by
  have hidentifier : isIdentifier.answer env s = true := by
    rw [isIdentifier, answer_kind, hkind]
    rfl
  refine g.stepTook (identifier_takes g.ready.ok hidentifier) fun name t g => ?_
  refine g.step (optionalModuleBlock_gives g.ready) fun body t g => ?_
  exact g.finishFlaggedDeclaration hpos (by simp [Payload.fields]) rfl rfl

/-- What a declaration of a namespace or a module starts with. -/
def startsModule (k : Kind) : Bool :=
  k == .keyword .globalKw || k == .keyword .moduleKw || k == .keyword .namespaceKw

theorem moduleDeclaration_takes (g : Sofar env rank took r s s (held start))
    (hpos : start.pos = r.pos) (hkind : startsModule s.token.kind = true) :
    (moduleDeclaration start).Gives env true r s := by
  refine .isAt (.ite (fun hglobal => globalDeclaration_takes g hpos (beq_iff_eq.mp hglobal)) fun hno => ?_)
  refine g.acceptKeyword (fun t _ g => namespaceDeclaration_gives g hpos rfl) fun hne => ?_
  have hmodule : s.token.kind = .keyword .moduleKw := by grind [startsModule]
  refine g.stepTook (expectKeyword_takes g.ready.ok hmodule) fun _ t g => .isAt (.ite (fun hname => ?_) fun _ => ?_)
  · refine g.step (literalNode_gives g.ready.ok) fun name t g => ?_
    refine g.step (optionalModuleBlock_gives g.ready) fun body t g => ?_
    exact g.finishDeclaration hpos (by simp [Payload.fields]) rfl
  · exact namespaceDeclaration_gives (g.parts (by simp)) hpos rfl

/-! ## 2. Specifiers -/

theorem moduleSpecifier_gives (h : env.Ready Production.topRank s) :
    moduleSpecifier.Gives env false s s := by
  refine .isAt (.ite (fun _ => literalNode_gives h.ok) fun _ => ?_)
  exact parse_gives .expression h (by decide) trivial

theorem reservedWordHere_asks (h : s.Ok env.file.text) : reservedWordHere.Asks env s :=
  .bind rfl fun _ => .bind (isIdentifier_inquires (o := true).asks h) fun _ => .ite (.pure _) (.pure _)

/-- The word is the token. -/
theorem reservedWordHere_inText {word : Token} (h : s.Ok env.file.text)
    (hword : reservedWordHere.answer env s = some word) : word.InText env.file.text := by
  have hends : reservedWordHere.Ends env s fun found _ =>
      found = some word → word.InText env.file.text := by
    refine .token (.ask (isIdentifier_inquires (o := true).asks h) (.ite (fun _ => ?_) fun _ => ?_))
    · rintro ⟨⟩
      exact h.token
    · exact .pure nofun
  exact hends hword

theorem specifier_gives {kind : NodeKind} (hplain : (Kind.node kind).isRuled = false)
    (h : env.Ready rank s) :
    (specifier kind).Gives env false s s := by
  refine .nodePos (.ask (reservedWordHere_asks h.ok) ?_)
  refine (Sofar.start h).step (name_gives h.ok) fun first t g => ?_
  extract_lets rest
  refine .via (P := fun (names : Option NodeId × NodeId × Option Token) u =>
    Sofar env rank false s s u (held names.1 ++ held names.2.1)
      ∧ ∀ word, names.2.2 = some word → word.InText env.file.text) rest
    (fun (propertyName, localName, reserved) u ⟨g, hreserved⟩ => ?_) fun hrest => ?_
  · unfold rest
    dsimp -zeta only
    extract_lets finish
    have hfinish (v : ParserState) (g : Sofar env rank false s s v
        (held propertyName ++ held localName)) :
        (finish ()).Ends env v fun id w => Handed env.file.text false s s w (held id) :=
      g.finishProduction rfl (by simp [Payload.fields]) (Kind.isSpecial_eq_false hplain rfl)
    refine .ite (fun _ => ?_) fun _ => hfinish u g
    cases reserved with
    | none => exact hfinish u g
    | some word =>
      have hword := hreserved word rfl
      have hstart := Nat.le_trans hword.start_le hword.stop_le
      refine g.step (errorAtRange_gives g.ready.ok hstart hword.stop_le _ _) fun _ v g => ?_
      exact hfinish v (g.parts (by simp))
  · refine g.acceptKeyword (fun u _ g => ?_) fun _ => ?_
    · have hok := g.ready.ok
      refine .ask (reservedWordHere_asks hok) (g.step (name_gives hok) fun name v g => ?_)
      exact hrest (some first, name, _) v
        ⟨g.weaken.parts (by simp), fun _ => reservedWordHere_inText hok⟩
    · exact hrest (none, first, _) t ⟨g.parts (by simp), fun _ => reservedWordHere_inText h.ok⟩

theorem specifiers_gives {kind element : NodeKind} (hplain : (Kind.node kind).isRuled = false)
    (helement : (Kind.node element).isRuled = false) (h : env.Ready rank s) :
    (specifiers kind element).Gives env false s s := by
  have hreads : Reads env Production.topRank false .importOrExportSpecifiers (specifier element) :=
    fun _ hs _ => specifier_gives helement hs
  refine .nodePos ((Sofar.start h).step (bracketed_gives _ h hreads) fun list t g => ?_)
  exact g.finishProduction rfl (by simp [Payload.fields]) (Kind.isSpecial_eq_false hplain rfl)

/-! ## 3. Imports -/

theorem namespaceImport_gives (h : env.Ready rank s) : namespaceImport.Gives env false s s := by
  refine .nodePos ((Sofar.start h).step (expectPunct_gives _ h.ok) fun _ t g => ?_)
  refine g.step (expectKeyword_gives _ g.ready.ok) fun _ t g => ?_
  refine g.step (identifier_gives g.ready.ok) fun name t g => ?_
  exact g.finishProduction rfl (by simp [Payload.fields]) rfl

theorem importClause_gives {name : Option NodeId}
    (g : Sofar env Production.topRank took r m s (held name)) :
    (importClause name r.pos).Ends env s fun id t => Handed env.file.text took r m t (held id) := by
  unfold importClause
  extract_lets rest
  have hrest (bindings : Option NodeId) (t : ParserState)
      (g : Sofar env Production.topRank took r m t (held name ++ held bindings)) :
      (rest bindings).Ends env t fun id u => Handed env.file.text took r m u (held id) :=
    g.finishProduction rfl (by simp [Payload.fields]) rfl
  have hnames (t : ParserState) (g : Sofar env Production.topRank took r m t (held name)) : Ends (do
      if ← isAtPunct .asterisk then
        let bindings ← namespaceImport
        rest (some bindings)
      else
        let bindings ← namedImports
        rest (some bindings)) env t fun id u => Handed env.file.text took r m u (held id) := by
    refine .isAt (.ite (fun _ => ?_) fun _ => ?_)
    · exact g.step (namespaceImport_gives g.ready) fun bindings t g => hrest (some bindings) t g
    · exact g.step (specifiers_gives rfl rfl g.ready) fun bindings t g => hrest (some bindings) t g
  cases name with
  | none => exact hnames s g
  | some name =>
    exact g.acceptPunct (fun t _ g => hnames t g.loosen) fun _ => hrest none s (g.parts (by simp))

theorem externalModuleReference_gives (h : env.Ready Production.topRank s) :
    externalModuleReference.Gives env false s s := by
  refine .nodePos ((Sofar.start h).step (expectKeyword_gives _ h.ok) fun _ t g => ?_)
  refine g.step (expectPunct_gives _ g.ready.ok) fun _ t g => ?_
  refine g.step (moduleSpecifier_gives g.ready) fun inner t g => ?_
  refine g.step (expectPunct_gives _ g.ready.ok) fun _ t g => ?_
  exact g.finishProduction rfl (by simp [Payload.fields]) rfl

theorem importEquals_gives {name : NodeId}
    (g : Sofar env Production.topRank took r m s (held start ++ [Part.node name]))
    (hpos : start.pos = r.pos) : (importEquals start name).Ends env s
      fun id t => Handed env.file.text took r m t (held id) := by
  refine g.step (expectPunct_gives _ g.ready.ok) fun _ t g => ?_
  have hasks : (isAtKeyword .requireKw <&&> peek (isAtPunct .openParen)).Asks env t :=
    (Inquires.and (o := true) (.isAtKeyword _) (.peek (Inquires.isAtPunct _).toScouts)).asks g.ready.ok
  refine .ask hasks ?_
  extract_lets rest
  refine g.fork rest (fun reference t g => ?_) fun hrest => .ite (fun _ => ?_) fun _ => ?_
  · refine g.step (semicolon_gives g.ready.ok) fun _ t g => ?_
    exact g.finishDeclaration hpos (by simp [Payload.fields]) rfl
  · exact g.step (externalModuleReference_gives g.ready) hrest
  · exact g.step (entityName_gives _ _ g.ready) hrest

/-- The clause of an import starts behind its keyword. -/
theorem importFrom_gives {name : Option NodeId}
    (g : Sofar env Production.topRank took r m s (held start))
    (hname : Sofar env Production.topRank false s s t (held name)) (hpos : start.pos = r.pos) :
    (importFrom start s.pos name).Ends env t
      fun id t => Handed env.file.text took r m t (held id) := by
  have hasks : (pure name.isSome <||> isAtPunct .asterisk <||> isAtPunct .openBrace).Asks env t := by
    cases name with
    | none => exact ((Inquires.isAtPunct (o := true) _).or (.isAtPunct _)).asks hname.ready.ok
    | some name => rfl
  refine .ask hasks ?_
  extract_lets rest
  have hrest (clause : Option NodeId) (u : ParserState)
      (g : Sofar env Production.topRank took r m u (held start ++ held clause)) :
      (rest clause).Ends env u fun id v => Handed env.file.text took r m v (held id) := by
    refine g.step (moduleSpecifier_gives g.ready) fun source u g => ?_
    refine g.step (semicolon_gives g.ready.ok) fun _ u g => ?_
    exact g.finishDeclaration hpos (by simp [Payload.fields]) rfl
  refine .ite (fun _ => ?_) fun hno => ?_
  · refine (importClause_gives hname).bind fun clause u hu => ?_
    refine (g.go hu.run).step (expectKeyword_gives _ hu.run.ok) fun _ u g => ?_
    exact hrest (some clause) u (g.parts (by simp))
  · cases name with
    | none => exact hrest none t (g.go hname.run)
    | some name => cases hno

theorem importDeclaration_takes (g : Sofar env rank took r s s (held start))
    (hpos : start.pos = r.pos) (hkind : s.token.kind = .keyword .importKw) :
    (importDeclaration start).Gives env true r s := by
  refine g.stepTook (expectKeyword_takes g.ready.ok hkind) fun _ t g => .nodePos ?_
  have g : Sofar env Production.topRank true r s t (held start) := g.parts (by simp)
  refine .ask (isIdentifier_inquires (o := true).asks g.ready.ok) (.ite (fun _ => ?_) fun _ => ?_)
  · refine (identifier_gives g.ready.ok).bind fun name u hu => .kind ?_
    have hname : Sofar env Production.topRank false t t u (held (some name)) := g.here.go hu.run
    split
    · exact importFrom_gives g hname hpos
    · exact importFrom_gives g hname hpos
    · exact importEquals_gives (g.go hu.run) hpos
  · have hnone : Sofar env Production.topRank false t t t (held (none : Option NodeId)) := g.here
    exact importFrom_gives g hnone hpos

/-! ## 4. Exports -/

theorem exportAssignment_gives (g : Sofar env Production.topRank took r m s (held start))
    (hpos : start.pos = r.pos) : (exportAssignment start).Ends env s
      fun id t => Handed env.file.text took r m t (held id) := by
  refine g.step (acceptPunct_gives _ g.ready.ok) fun isEquals t g => ?_
  extract_lets rest
  have hrest (u : Unit) (v : ParserState) (g : Sofar env Production.topRank took r m v (held start)) :
      (rest u).Ends env v fun id w => Handed env.file.text took r m w (held id) := by
    refine g.step (parse_gives .assignment g.ready (by decide) trivial) fun inner t g => ?_
    refine g.step (semicolon_gives g.ready.ok) fun _ t g => ?_
    exact g.finishDeclaration hpos (by simp [Payload.fields]) rfl
  refine .ite (fun _ => ?_) fun _ => hrest () t (g.parts (by simp))
  exact g.step (expectKeyword_gives _ g.ready.ok) fun _ u g => hrest () u (g.parts (by simp))

theorem namespaceExport_gives (g : Sofar env rank took r m s (held start))
    (hpos : start.pos = r.pos) : (namespaceExport start).Ends env s
      fun id t => Handed env.file.text took r m t (held id) := by
  refine g.step (expectKeyword_gives _ g.ready.ok) fun _ t g => ?_
  refine g.step (expectKeyword_gives _ g.ready.ok) fun _ t g => ?_
  refine g.step (identifier_gives g.ready.ok) fun name t g => ?_
  refine g.step (semicolon_gives g.ready.ok) fun _ t g => ?_
  exact g.finishDeclaration hpos (by simp [Payload.fields]) rfl

theorem startsExportSource_inquires {o : Bool} : Inquires o startsExportSource :=
  .or (.isAtKeyword _) (.onSameLine (.isAt _))

theorem exportNames_gives (g : Sofar env Production.topRank took r m s (held start))
    (hpos : start.pos = r.pos) : (exportNames start).Ends env s
      fun id t => Handed env.file.text took r m t (held id) := by
  unfold exportNames
  extract_lets rest
  have hrest (clause source : Option NodeId) (u : ParserState)
      (g : Sofar env Production.topRank took r m u (held start ++ (held clause ++ held source))) :
      (rest (clause, source)).Ends env u fun id v => Handed env.file.text took r m v (held id) := by
    refine g.step (semicolon_gives g.ready.ok) fun _ u g => ?_
    exact g.finishDeclaration hpos (by simp [Payload.fields]) rfl
  refine g.acceptPunct (fun t _ g => ?_) fun _ => ?_
  · refine g.step (expectKeyword_gives _ g.ready.ok) fun _ t g => ?_
    refine g.step (moduleSpecifier_gives g.ready) fun source t g => ?_
    exact hrest none (some source) t (g.loosen.parts (by simp))
  · refine g.step (specifiers_gives rfl rfl g.ready) fun clause t g => ?_
    refine .ask (startsExportSource_inquires (o := true).asks g.ready.ok) (.ite (fun _ => ?_) fun _ => ?_)
    · refine g.step (expectKeyword_gives _ g.ready.ok) fun _ t g => ?_
      refine g.step (moduleSpecifier_gives g.ready) fun source t g => ?_
      exact hrest (some clause) (some source) t (g.parts (by simp))
    · exact hrest (some clause) none t (g.parts (by simp))

theorem exportDeclaration_gives (g : Sofar env Production.topRank took r m s (held start))
    (hpos : start.pos = r.pos) : (exportDeclaration start).Ends env s
      fun id t => Handed env.file.text took r m t (held id) := by
  refine .kind ?_
  split
  · exact exportAssignment_gives g hpos
  · exact exportAssignment_gives g hpos
  · exact namespaceExport_gives g hpos
  · exact exportNames_gives g hpos

end Parser

end ScriptSyntax
