/-
  ScriptSyntax/Proofs/Clean/Modules.lean
  ======================================
  Namespaces, imports and exports on clean runs.
-/
import ScriptSyntax.Proofs.Clean.Expressions

namespace ScriptSyntax

namespace Parser

variable {env : Surroundings} {took : Bool} {k : Nat} {r s t u : ParserState} {items : List Part}
variable {start : DeclarationStart}

/-! ## 1. Namespaces -/

theorem moduleBlock_produces (h : env.Apt s) : moduleBlock.Produces env 1 s s := by
  refine .nodePos ((Going.start 0 h).stepTook (expectPunct_goes _ h) fun _ t g => ?_)
  extract_lets rest
  refine g.fork rest (fun statements t g =>
    g.finish rfl (by simp [Node.parts_eq, Payload.fields]) rfl) fun hrest => .ite (fun _ => ?_) fun _ => ?_
  · refine g.step (elements_goes g.apt fun _ => parseStatement_produces) fun list t g => ?_
    exact g.step (expectPunct_goes _ g.apt) fun _ t g => hrest list t (g.parts (by simp))
  · exact g.step (missingList_goes g.apt) hrest

/-- The inner part of a dotted name is read without the depth of nesting being checked. -/
theorem namespaceDeclaration_produces {flags : NodeFlags} (g : Going env false 1 r s (held start))
    (hstart : start.pos = r.pos) : (namespaceDeclaration start flags).Produces env 2 r s := by
  refine g.stepTook (identifier_produces g.apt).goes fun name t g => ?_
  refine Ends.bind (P := fun _ u => Going env true 1 r u (held start ++ held name)) ?_ fun dotted u g => ?_
  · exact (acceptPunct_goes _ g.apt).mono fun _ u hu => g.goOn hu
  extract_lets rest inner
  have hrest {v w : ParserState} {body : NodeId} (hbody : Made env.file.text 2 v body w)
      (g : Going env true 1 r w (held start ++ held name)) : (rest body).Produces env 2 r w :=
    g.finishUnguarded hbody (.start 1 g.apt) (List.mem_singleton_self _) hstart
      (by simp [Node.parts_eq, Payload.fields]) rfl (by decide)
  refine .ite (fun _ => .nodePos ?_) fun _ => ?_
  · exact g.past (parse_produces (.namespaceDeclaration { pos := u.pos } inner) g.apt ⟨rfl, rfl⟩)
      fun body w hbody g => hrest hbody g
  · exact g.past (moduleBlock_produces g.apt) fun body w hbody g => hrest (hbody.mono (by decide)) g

theorem optionalModuleBlock_goes (h : env.Apt s) : optionalModuleBlock.Goes env false 1 s := by
  refine .isAt (.ite (fun _ => ?_) fun _ => ?_)
  · exact (moduleBlock_produces h).bind fun _ _ ht => .pure ht.went.weaken
  · exact (Going.start 1 h).step (semicolon_goes h) fun _ t g => .pure g.went

theorem globalDeclaration_produces (g : Going env false 1 r s (held start)) (hstart : start.pos = r.pos) :
    (globalDeclaration start).Produces env 2 r s := by
  refine g.stepTook (identifier_produces g.apt).goes fun name t g => ?_
  exact g.step (optionalModuleBlock_goes g.apt) fun body t g =>
    g.finish hstart (by simp [Node.parts_eq, Payload.fields]) rfl

theorem quotedModuleDeclaration_produces (g : Going env true 1 r s (held start)) (hstart : start.pos = r.pos)
    (hkind : s.token.kind.isSolid = true) : (quotedModuleDeclaration start).Produces env 2 r s := by
  refine g.step (literalNode_produces g.apt hkind).goes fun name t g => ?_
  exact g.step (optionalModuleBlock_goes g.apt) fun body t g =>
    g.finish hstart (by simp [Node.parts_eq, Payload.fields]) rfl

theorem moduleDeclaration_produces (g : Going env false 1 r s (held start)) (hstart : start.pos = r.pos) :
    (moduleDeclaration start).Produces env 2 r s := by
  refine .isAt (.ite (fun _ => globalDeclaration_produces g hstart) fun _ => ?_)
  refine g.acceptKeyword (fun t g => namespaceDeclaration_produces g.loosen hstart) ?_
  refine g.stepTook (expectKeyword_goes _ g.apt) fun _ t g => ?_
  have g : Going env true 1 r t (held start) := g.parts (by simp)
  refine .isAt (.ite (fun hname => ?_) fun _ => namespaceDeclaration_produces g.loosen hstart)
  exact quotedModuleDeclaration_produces g hstart (by rw [beq_iff_eq.mp hname]; rfl)

/-! ## 2. Imports and exports -/

theorem moduleSpecifier_produces (h : env.Apt s) : moduleSpecifier.Produces env 2 s s := by
  refine .isAt (.ite (fun hkind => ?_) fun _ => parse_produces .expression h trivial)
  exact (literalNode_produces h (by rw [beq_iff_eq.mp hkind]; rfl)).upTo

theorem specifier_produces {kind : NodeKind} (h : env.Apt s) (hkind : (Kind.node kind).isSolid = true) :
    (specifier kind).Produces env 2 s s := by
  refine .nodePos ((Going.start 1 h).ask reservedWordHere_orderly fun firstReserved t g => ?_)
  refine (name_produces g.apt).bind fun first t hfirst => ?_
  extract_lets rest
  refine .via (P := fun (names : Option NodeId × NodeId × Option Token) u =>
    Going env true 1 s u (held names.1 ++ held names.2.1)) rest
    (fun (propertyName, localName, reserved) u g => ?_) fun hrest => ?_
  · unfold rest
    dsimp -zeta only
    extract_lets finish
    have hfinish (v : ParserState) (g : Going env true 1 s v (held propertyName ++ held localName)) :
        (finish ()).Produces env 2 s v :=
      g.finish rfl (by simp [Node.parts_eq, Payload.fields]) hkind
    refine .ite (fun _ => ?_) fun _ => hfinish u g
    cases reserved with
    | none => exact hfinish u g
    | some word => exact (errorAtRange_dirty _ _ _ _).bind fun _ v hv => hfinish v (g.dirty hv)
  have g := g.goTook hfirst.went (by decide)
  refine g.acceptKeyword (fun u g => ?_) (hrest (none, first, firstReserved) t (g.parts (by simp)))
  refine g.ask reservedWordHere_orderly fun reserved v g => ?_
  exact g.step (name_produces g.apt).goes fun second w g =>
    hrest (some first, second, reserved) w (g.parts (by simp))

theorem specifiers_produces {kind element : NodeKind} (h : env.Apt s) (hkind : (Kind.node kind).isSolid = true)
    (helement : (Kind.node element).isSolid = true) : (specifiers kind element).Produces env 3 s s := by
  refine .nodePos ((Going.start 2 h).stepTook (bracketed_goes h fun _ h => (specifier_produces h helement).goes)
    fun list t g => ?_)
  exact g.finish rfl (by simp [Node.parts_eq, Payload.fields]) hkind

theorem namespaceImport_produces (h : env.Apt s) : namespaceImport.Produces env 2 s s := by
  refine .nodePos ((Going.start 1 h).stepTook (expectPunct_goes _ h) fun _ t g => ?_)
  refine g.step (expectKeyword_goes _ g.apt) fun _ t g => ?_
  exact g.step (identifier_produces g.apt).goes fun name t g =>
    g.finish rfl (by simp [Node.parts_eq, Payload.fields]) rfl

/-- A clause has a name before it, or it takes a token itself. -/
theorem importClause_produces {name : Option NodeId} (g : Going env name.isSome 3 r s (held name)) :
    (importClause name r.pos).Produces env 4 r s := by
  have hbindings (t : ParserState) (g : Going env name.isSome 3 r t (held name)) (rest : Option NodeId → Parser NodeId)
      (hrest : ∀ bindings u, Going env true 3 r u (held name ++ held bindings) → (rest bindings).Produces env 4 r u) :
      (do
        if ← isAtPunct .asterisk then rest (some (← namespaceImport))
        else rest (some (← namedImports)) : Parser NodeId).Produces env 4 r t := by
    refine .isAt (.ite (fun _ => ?_) fun _ => ?_)
    · exact g.stepTook (namespaceImport_produces g.apt).goes fun bindings u g => hrest (some bindings) u g
    · exact g.stepTook (specifiers_produces g.apt rfl rfl).goes fun bindings u g => hrest (some bindings) u g
  cases name with
  | none =>
    refine Ends.bind (P := fun follows t => follows = true ∧ t = s) ⟨rfl, rfl⟩ fun follows t ht => ?_
    obtain ⟨rfl, rfl⟩ := ht
    extract_lets rest
    exact hbindings t g rest fun bindings u g => g.finish rfl (by simp [Node.parts_eq, Payload.fields]) rfl
  | some name =>
    refine g.step (acceptPunct_goes .comma g.apt) fun follows t g => ?_
    have g : Going env true 3 r t (held (some name)) := g.parts (by simp)
    extract_lets rest
    have hrest (bindings : Option NodeId) (u : ParserState) (g : Going env true 3 r u (held (some name) ++ held bindings)) :
        (rest bindings).Produces env 4 r u := g.finish rfl (by simp [Node.parts_eq, Payload.fields]) rfl
    refine .ite (fun _ => hbindings t g rest hrest) fun _ => hrest none t (g.parts (by simp))

theorem externalModuleReference_produces (h : env.Apt s) : externalModuleReference.Produces env 3 s s := by
  refine .nodePos ((Going.start 2 h).stepTook (expectKeyword_goes _ h) fun _ t g => ?_)
  refine g.step (expectPunct_goes _ g.apt) fun _ t g => ?_
  refine g.step (moduleSpecifier_produces g.apt).goes fun inner t g => ?_
  exact g.step (expectPunct_goes _ g.apt) fun _ t g =>
    g.finish rfl (by simp [Node.parts_eq, Payload.fields]) rfl

theorem importEquals_produces {name : NodeId} (g : Going env true 4 r s (held start ++ [Part.node name]))
    (hstart : start.pos = r.pos) : (importEquals start name).Produces env 5 r s := by
  refine g.step (expectPunct_goes _ g.apt) fun _ t g => ?_
  refine g.ask (.and (.isAtKeyword _) (peek_orderly (.isAtPunct _))) fun _ t g => ?_
  extract_lets rest
  refine g.fork rest (fun reference t g => ?_) fun hrest => .ite (fun _ => ?_) fun _ => ?_
  · exact g.step (semicolon_goes g.apt) fun _ t g =>
      g.finish hstart (by simp [Node.parts_eq, Payload.fields]) rfl
  · exact g.step (externalModuleReference_produces g.apt).goes hrest
  · exact g.step (entityName_produces _ _ g.apt).goes hrest

theorem importFrom_produces {name : Option NodeId} (g : Going env true 4 r s (held start))
    (g' : Going env name.isSome 3 s t (held name)) (hstart : start.pos = r.pos) :
    (importFrom start s.pos name).Produces env 5 r t := by
  refine g'.ask (.or (.pure _) (.or (.isAtPunct _) (.isAtPunct _))) fun clauseFollows u g' => ?_
  extract_lets rest
  have hrest (clause : Option NodeId) (v : ParserState) (g : Going env true 4 r v (held start ++ held clause)) :
      (rest clause).Produces env 5 r v := by
    refine g.step (moduleSpecifier_produces g.apt).goes fun source t g => ?_
    exact g.step (semicolon_goes g.apt) fun _ t g =>
      g.finish hstart (by simp [Node.parts_eq, Payload.fields]) rfl
  refine .ite (fun _ => ?_) fun _ => hrest none u (g.goOn g'.went.past |>.parts (by simp))
  refine (importClause_produces g').bind fun clause v hclause => ?_
  have g := g.goTook hclause.went (by decide)
  exact g.step (expectKeyword_goes _ g.apt) fun _ w g => hrest (some clause) w (g.parts (by simp))

theorem importDeclaration_produces (g : Going env false 4 r s (held start)) (hstart : start.pos = r.pos) :
    (importDeclaration start).Produces env 5 r s := by
  refine g.stepTook (expectKeyword_goes _ g.apt) fun _ t g => .nodePos ?_
  have g : Going env true 4 r t (held start) := g.parts (by simp)
  refine (Orderly.went isIdentifier_orderly g.apt).bind fun _ u hu => ?_
  have g' := (Going.start 3 g.apt).goOn hu.1
  refine .ite (fun _ => ?_) fun _ => importFrom_produces g (g'.parts (by simp)) hstart
  refine (identifier_produces g'.apt).bind fun name v hname => .kind ?_
  have hfrom : (importFrom start t.pos (some name)).Produces env 5 r v :=
    importFrom_produces g ((g'.goTook hname.went (by decide)).parts (by simp)) hstart
  split
  · exact hfrom
  · exact hfrom
  · exact importEquals_produces ((g.goOn hu.1).goTook hname.went (by decide)) hstart

theorem exportAssignment_produces (g : Going env true 4 r s (held start)) (hstart : start.pos = r.pos) :
    (exportAssignment start).Produces env 5 r s := by
  refine g.step (acceptPunct_goes _ g.apt) fun isEquals t g => ?_
  extract_lets rest
  refine g.fork rest (fun _ t g => ?_) fun hrest => .ite (fun _ => ?_) fun _ => hrest () t (g.parts (by simp))
  · refine g.step (parse_goes .assignment g.apt trivial) fun inner t g => ?_
    exact g.step (semicolon_goes g.apt) fun _ t g =>
      g.finish hstart (by simp [Node.parts_eq, Payload.fields]) rfl
  · exact g.step (expectKeyword_goes _ g.apt) fun _ t g => hrest () t (g.parts (by simp))

theorem namespaceExport_produces (g : Going env true 4 r s (held start)) (hstart : start.pos = r.pos) :
    (namespaceExport start).Produces env 5 r s := by
  refine g.step (expectKeyword_goes _ g.apt) fun _ t g => ?_
  refine g.step (expectKeyword_goes _ g.apt) fun _ t g => ?_
  refine g.step (identifier_produces g.apt).goes fun name t g => ?_
  exact g.step (semicolon_goes g.apt) fun _ t g =>
    g.finish hstart (by simp [Node.parts_eq, Payload.fields]) rfl

theorem exportNames_produces (g : Going env true 4 r s (held start)) (hstart : start.pos = r.pos) :
    (exportNames start).Produces env 5 r s := by
  refine g.step (acceptPunct_goes _ g.apt) fun _ t g => ?_
  extract_lets rest
  refine g.fork rest (fun parts t g => ?_) fun hrest => .ite (fun _ => ?_) fun _ => ?_
  · obtain ⟨clause, source⟩ := parts
    exact g.step (semicolon_goes g.apt) fun _ t g =>
      g.finish hstart (by simp [Node.parts_eq, Payload.fields]) rfl
  · refine g.step (expectKeyword_goes _ g.apt) fun _ t g => ?_
    exact g.step (moduleSpecifier_produces g.apt).goes fun source t g =>
      hrest (none, some source) t (g.parts (by simp))
  · refine g.step (specifiers_produces g.apt rfl rfl).goes fun clause t g => ?_
    refine g.ask (.or (.isAtKeyword _) (onSameLine_orderly (.isAt _))) fun _ t g => .ite (fun _ => ?_) fun _ => ?_
    · refine g.step (expectKeyword_goes _ g.apt) fun _ t g => ?_
      exact g.step (moduleSpecifier_produces g.apt).goes fun source t g =>
        hrest (some clause, some source) t (g.parts (by simp))
    · exact hrest (some clause, none) t (g.parts (by simp))

theorem exportDeclaration_produces (g : Going env true 4 r s (held start)) (hstart : start.pos = r.pos) :
    (exportDeclaration start).Produces env 5 r s := by
  refine .kind ?_
  split
  · exact exportAssignment_produces g hstart
  · exact exportAssignment_produces g hstart
  · exact namespaceExport_produces g hstart
  · exact exportNames_produces g hstart

end Parser

end ScriptSyntax
