/-
  ScriptSyntax/Proofs/Clean/Jsx.lean
  ==================================
  JSX on clean runs.
-/
import ScriptSyntax.Proofs.Clean.Lists
import ScriptSyntax.Proofs.Orderly.Statements

namespace ScriptSyntax

namespace Parser

variable {env : Surroundings} {took : Bool} {k : Nat} {r s t : ParserState} {items : List Part}

/-! ## 1. Names and expressions in braces -/

theorem jsxName_produces (h : env.Apt s) : jsxName.Produces env 2 s s := by
  refine .nodePos ((advance_rescans .extendJsxName h rfl nofun).bind fun _ t ⟨ht, hpos⟩ => .isAt ?_)
  have h' := ((Going.start 0 h).goOn ht).apt
  extract_lets rest
  have hrest (first : NodeId) (u : ParserState) (hu : Made env.file.text 1 t first u) :
      (rest first).Produces env 2 s u := by
    refine repeating_produces (ht.madeAt hpos (hu.mono (by decide))) fun object v hv => ?_
    refine (Going.start 1 (hv.apt h.serves)).acceptPunct (fun w g => ?_) (Ends.pure hv)
    refine g.step (nameAfterDot_produces true g.apt).goes fun member w g => ?_
    exact (hv.finish g rfl (by simp [Node.parts_eq, Payload.fields]) rfl).bind fun _ _ hw => .pure hw
  refine .ite (fun hthis => ?_) fun _ => ?_
  · exact (tokenNode_produces h' (by rw [beq_iff_eq.mp hthis]; rfl)).bind hrest
  · exact (name_produces h').bind hrest

theorem jsxExpression_goes (inTag : Bool) (h : env.Apt s) : (jsxExpression inTag).Goes env true 3 s := by
  refine .nodePos ((Going.start 2 h).stepTook (expectPunct_goes _ h) fun opened t g => ?_)
  refine .ite (fun _ => .isAt ?_) fun _ => .pure (g.went.past.mono (by decide))
  extract_lets rest
  have hdone {dots inner : Option NodeId} {u : ParserState}
      (g : Going env true 2 s u (held dots ++ held inner)) : (do
        return some (← finishProduction .jsxExpression s.pos (.jsxExpression dots inner)) : Parser (Option NodeId)).Ends
          env u fun found v => Went env.file.text true 3 s v (held found) :=
    (g.finish rfl (by simp [Node.parts_eq, Payload.fields]) rfl).bind fun _ _ hu => .pure hu.went
  refine g.fork rest (fun parts t g => ?_) fun hrest => .ite (fun _ => ?_) fun _ => ?_
  · obtain ⟨dots, inner⟩ := parts
    refine .ite (fun _ => ?_) fun _ => ?_
    · exact g.step (expectPunct_goes _ g.apt) fun _ u g => hdone (g.parts (by simp))
    · refine g.step (require_goes _ _ g.apt) fun _ u g => .ite (fun _ => ?_) fun _ => hdone (g.parts (by simp))
      exact g.step (advance_goes .scanJsx g.apt (.of_ne (by decide))) fun _ u g => hdone (g.parts (by simp))
  · exact hrest (none, none) t (g.parts (by simp))
  · refine g.step (acceptToken_goes g.apt rfl) fun dots u g => ?_
    exact g.step (parse_goes .expression g.apt trivial) fun inner v g => hrest (dots, some inner) v (g.parts (by simp))

/-! ## 2. Attributes -/

theorem jsxSpreadAttribute_produces (h : env.Apt s) : jsxSpreadAttribute.Produces env 3 s s := by
  refine .nodePos ((Going.start 2 h).stepTook (expectPunct_goes _ h) fun _ t g => ?_)
  refine g.step (expectPunct_goes _ g.apt) fun _ t g => ?_
  refine g.step (parse_goes .expression g.apt trivial) fun inner t g => ?_
  exact g.step (expectPunct_goes _ g.apt) fun _ t g =>
    g.finish rfl (by simp [Node.parts_eq, Payload.fields]) rfl

theorem jsxAttributeValue_goes (h : env.Apt s) : jsxAttributeValue.Goes env false 3 s := by
  refine (Going.start 3 h).step (advance_goes .scanJsxAttributeValue h nofun) fun _ t g => .kind ?_
  split
  · refine g.step (literalNode_produces g.apt (by simp [*, Kind.isSolid])).goes fun value u g => ?_
    exact g.done rfl
  · exact g.only (jsxExpression_goes true g.apt)

theorem jsxAttribute_produces (h : env.Apt s) : jsxAttribute.Produces env 4 s s := by
  refine .isAt (.ite (fun _ => (jsxSpreadAttribute_produces h).upTo) fun _ => .nodePos ?_)
  refine (Going.start 3 h).step (advance_goes .extendJsxName h nofun) fun _ t g => ?_
  refine g.stepTook (name_produces g.apt).goes fun name t g => .isAt ?_
  extract_lets rest
  refine g.fork rest (fun initializer t g =>
    g.finish rfl (by simp [Node.parts_eq, Payload.fields]) rfl) fun hrest => .ite (fun _ => ?_) fun _ => ?_
  · exact g.step (jsxAttributeValue_goes g.apt) hrest
  · exact hrest none t (g.parts (by simp))

/-- The attributes of a tag take room if there are any. -/
theorem jsxAttributes_goes (h : env.Apt s) : jsxAttributes.Goes env false 5 s := by
  refine .nodePos ((elements_went h fun _ h _ => jsxAttribute_produces h).bind fun list t ⟨ht, hstays⟩ => ?_)
  have g : Going env false 4 s t [.array list] := ⟨h.serves, ht.weaken⟩
  refine g.finish_goes (by simp [Node.parts_eq, Payload.fields]) nofun fun hclean => ?_
  have hroom : s.pos = t.pos ↔ list.nodes = [] := by
    refine ⟨fun hpos => ?_, fun hnone => (hstays hclean hnone).symm⟩
    by_contra hsome
    have htook : (!list.nodes.isEmpty) = true := by simpa using hsome
    exact Nat.ne_of_lt ((ht hclean).ahead htook) hpos
  have hchildren : Node.children { kind := .node .jsxAttributes, pos := s.pos, stop := t.pos, payload := .jsxAttributes list }
      = list.nodes := by
    simp [Node.children, Node.parts_eq, Payload.fields, Part.children]
  simp [Node.Regular, Node.isMissing, hroom, hchildren]

/-! ## 3. Tags -/

theorem jsxTagEnd_goes (inExpression : Bool) (h : env.Apt s) : (jsxTagEnd inExpression).Goes env false 0 s := by
  refine .ite (fun _ => ?_) fun _ => ?_
  · exact (expectPunct_goes _ h).bind fun _ _ ht => .pure ht.weaken
  · exact (Going.start 0 h).step (require_goes _ _ h) fun _ t g => g.only (advance_goes .scanJsx g.apt (.of_ne (by decide)))

theorem jsxOpening_produces (inExpression : Bool) (h : env.Apt s) : (jsxOpening inExpression).Produces env 6 s s := by
  refine .nodePos ((Going.start 5 h).stepTook (expectPunct_goes _ h) fun _ t g => .isAt (.ite (fun _ => ?_) fun _ => ?_))
  · exact g.step (advance_goes .scanJsx g.apt (.of_ne (by decide))) fun _ t g =>
      g.finish rfl (by simp [Node.parts_eq, Payload.fields]) rfl
  · refine g.step (jsxName_produces g.apt).goes fun name t g => ?_
    refine g.step (jsxAttributes_goes g.apt) fun attributes t g => .isAt (.ite (fun _ => ?_) fun _ => ?_)
    · exact g.step (advance_goes .scanJsx g.apt (.of_ne (by decide))) fun _ t g =>
        g.finish rfl (by simp [Node.parts_eq, Payload.fields]) rfl
    · refine g.step (expectPunct_goes _ g.apt) fun _ t g => ?_
      exact g.step (jsxTagEnd_goes inExpression g.apt) fun _ t g =>
        g.finish rfl (by simp [Node.parts_eq, Payload.fields]) rfl

theorem jsxClosing_produces (inExpression : Bool) (h : env.Apt s) : (jsxClosing inExpression).Produces env 6 s s := by
  refine .nodePos ((Going.start 5 h).stepTook (expectPunct_goes _ h) fun _ t g => ?_)
  refine g.step (jsxName_produces g.apt).goes fun name t g => ?_
  exact g.step (jsxTagEnd_goes inExpression g.apt) fun _ t g =>
    g.finish rfl (by simp [Node.parts_eq, Payload.fields]) rfl

theorem jsxClosingFragment_produces (inExpression : Bool) (h : env.Apt s) :
    (jsxClosingFragment inExpression).Produces env 6 s s := by
  refine .nodePos ((Going.start 5 h).stepTook (expectPunct_goes _ h) fun _ t g => ?_)
  refine g.ask isName_orderly fun _ t g => ?_
  extract_lets rest
  refine g.fork rest (fun _ t g => ?_) fun hrest => .ite (fun _ => ?_) fun _ => hrest () t (g.parts (by simp))
  · exact g.step (jsxTagEnd_goes inExpression g.apt) fun _ t g =>
      g.finish rfl (by simp [Node.parts_eq, Payload.fields]) rfl
  · refine g.step (jsxName_produces g.apt).goes fun name t g => g.node fun n t _ g => ?_
    exact (errorAtRange_dirty _ _ _ _).bind fun _ t ht => hrest () t (g.dirty ht)

/-! ## 4. Children -/

theorem jsxText_produces (h : env.Apt s) (hkind : s.token.kind.isSolid = true) : jsxText.Produces env 1 s s :=
  .token ((Going.start 0 h).stepTook (advance_passes h rfl (Kind.ne_endOfFile_of_isSolid hkind))
    fun _ _ g => g.finish rfl rfl hkind)

theorem unclosedJsx_dirty (opening : NodeId) : (unclosedJsx opening).Ends env s fun _ t => ¬t.Clean := by
  have hany {α : Type} {p : Parser α} {t : ParserState} : p.Ends env t fun _ _ => True := .always fun _ _ => trivial
  refine hany.bind fun _ t _ => .ite (fun _ => ?_) fun _ => ?_
  · exact hany.bind fun _ t _ => errorAtRange_dirty _ _ _ _
  · refine hany.bind fun name t _ => hany.bind fun start t _ => hany.bind fun n t _ => hany.bind fun source t _ => ?_
    exact errorAtRange_dirty _ _ _ _

theorem jsxChild_goes (opening : NodeId) (h : env.Apt s) : (jsxChild opening).Goes env false 3 s := by
  refine (Going.start 3 h).step (advance_goes .rescanJsx h nofun) fun _ t g => .kind ?_
  have hnone {u : ParserState} (g : Going env false 3 s u []) :
      (pure none : Parser (Option NodeId)).Ends env u fun found v => Went env.file.text false 3 s v (held found) :=
    .pure g.went
  have htext (hkind : t.token.kind.isSolid = true) : (do return some (← jsxText) : Parser (Option NodeId)).Ends env t
      fun found u => Went env.file.text false 3 s u (held found) :=
    g.step (jsxText_produces g.apt hkind).goes fun text u g => g.done rfl
  split
  · exact (unclosedJsx_dirty opening).bind fun _ u hu => hnone (g.dirty hu)
  · exact hnone (g.parts (by simp))
  · exact hnone (g.parts (by simp))
  · exact htext (by simp [*, Kind.isSolid])
  · exact htext (by simp [*, Kind.isSolid])
  · exact g.only ((jsxExpression_goes false g.apt).weaken)
  · refine (nested_went _ g.apt fun _ h => (parse_produces (.jsxElement false) h trivial).upTo).bind fun result u hu => ?_
    exact .pure (g.go hu.1.went (by decide)).went
  · exact (fail_dirty _).bind fun _ u hu => hnone (g.dirty hu)

theorem jsxChildren_goes (opening : NodeId) (h : env.Apt s) : (jsxChildren opening).Goes env false 3 s := by
  have hstart : Going env false 3 (s.withLists (.jsxChildren :: s.scope.openLists)) _ (readParts []) :=
    .start 3 (h.inScope _)
  refine Ends.inList (.nodePos (Ends.bind (hstart.loop readParts fun read t g => ?_) fun read t g => .nodePos ?_))
  · refine (jsxChild_goes opening g.apt).bind fun child u hu => ?_
    have g := g.go hu (Nat.le_refl 3)
    cases child with
    | some child => exact .pure (g.parts (by simp))
    | none => exact .pure (g.parts (by simp))
  · exact Ends.pure ((g.went.array rfl).inScope (r := s) rfl rfl)

/-! ## 5. Elements -/

/-- Tags that do not have the same name are reported. -/
theorem checkTagNames_goes (opening closing : NodeId) (h : env.Apt s) :
    (checkTagNames opening closing).Goes env false 0 s := by
  refine (Going.start 0 h).ask (tagName_orderly _) fun openingName t g => ?_
  refine g.ask (tagName_orderly _) fun closingName t g => .get ?_
  split
  · exact (fail_dirty _).mono fun _ _ ht => .dirty ht
  · exact .pure g.went
  · refine g.node fun n t _ g => g.ask (sourceOf_orderly _) fun source t g => ?_
    exact (errorAtRange_dirty _ _ _ _).mono fun _ _ ht => .dirty ht

theorem jsxElementRest_produces {opening : NodeId} (inExpression : Bool) (g : Going env true 6 r s [.node opening]) :
    (jsxElementRest r.pos opening inExpression).Produces env 7 r s := by
  refine g.step (jsxChildren_goes opening g.apt) fun children t g => ?_
  refine g.step (jsxClosing_produces inExpression g.apt).goes fun closing t g => ?_
  exact g.step (checkTagNames_goes opening closing g.apt) fun _ t g =>
    g.finish rfl (by simp [Node.parts_eq, Payload.fields]) rfl

theorem jsxFragmentRest_produces {opening : NodeId} (inExpression : Bool) (g : Going env true 6 r s [.node opening]) :
    (jsxFragmentRest r.pos opening inExpression).Produces env 7 r s := by
  refine g.step (jsxChildren_goes opening g.apt) fun children t g => ?_
  exact g.step (jsxClosingFragment_produces inExpression g.apt).goes fun closing t g =>
    g.finish rfl (by simp [Node.parts_eq, Payload.fields]) rfl

theorem joinJsxSiblings_dirty (first second : NodeId) (hadds : env.Adds) :
    (joinJsxSiblings first second).Ends env s fun _ t => ¬t.Clean :=
  .late (errorHere_dirty _ _) hadds fun _ => .node (fun _ _ => rfl) fun _ => .node (fun _ _ => rfl) fun _ =>
    .bind (.finishAt rfl) fun _ => .finishAt rfl

/-- An element that stands beside another one without a parent is reported, so there is none. -/
theorem jsxElement_produces (inExpression : Bool) (h : env.Apt s) : (jsxElement inExpression).Produces env 7 s s := by
  refine .nodePos ((jsxOpening_produces inExpression h).bind fun opening t hopening => ?_)
  have g : Going env true 6 s t [.node opening] := ⟨h.serves, hopening.went⟩
  refine (Orderly.went (.kindOf opening) g.apt).bind fun kind u ⟨hu, _⟩ => ?_
  have g := g.goOn hu
  extract_lets rest
  have hrest (result : NodeId) (v : ParserState) (hv : Made env.file.text 7 s result v) : (rest result).Produces env 7 s v := by
    refine .ite (fun _ => .isAt (.ite (fun _ => ?_) fun _ => .pure hv)) fun _ => .pure hv
    have h := hv.apt h.serves
    refine (speculate_goes h nestedJsxElement_orderly (.always fun _ _ _ => trivial)).bind fun sibling w hw => ?_
    cases sibling with
    | some sibling => exact (joinJsxSiblings_dirty result sibling h.serves.adds).mono fun _ _ hx => .dirty hx
    | none =>
      rcases hw with ⟨hno, -⟩ | ⟨-, hw, -⟩
      · cases hno
      · exact .pure (hv.goOn hw)
  split
  · exact (jsxElementRest_produces inExpression g).bind hrest
  · exact (jsxFragmentRest_produces inExpression g).bind hrest
  · exact hrest opening u ((hopening.goOn hu).mono (by decide))

end Parser

end ScriptSyntax
