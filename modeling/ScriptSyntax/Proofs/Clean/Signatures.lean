/-
  ScriptSyntax/Proofs/Clean/Signatures.lean
  =========================================
  What comes before a body, and what variables are bound to, on clean runs.
-/
import ScriptSyntax.Proofs.Clean.Lists
import ScriptSyntax.Proofs.Orderly.Signatures

namespace ScriptSyntax

theorem Kind.isSolid_of_isModifier {k : Kind} (h : k.isModifier = true) : k.isSolid = true := by
  cases k <;> first | rfl | cases h

namespace Parser

variable {env : Surroundings} {took : Bool} {k : Nat} {r s t : ParserState} {items : List Part}

/-! ## 1. Modifiers -/

theorem question_goes {q : Parser Bool} (hq : Orderly false q) (h : env.Apt s) : q.Goes env false 0 s :=
  (hq.went h).mono fun _ _ ht => ht.1

theorem afterNext_goes {q : Parser Bool} (hq : Orderly false q) (h : env.Apt s)
    (hkind : s.token.kind ≠ .endOfFile) : (afterNext q).Goes env true 0 s :=
  (Going.start 0 h).stepTook (nextToken_passes h hkind) fun _ _ g => g.only (question_goes hq g.apt)

theorem nextKind_passes {f : Kind → Parser Bool} (h : env.Apt s) (hkind : s.token.kind ≠ .endOfFile)
    (hf : ∀ kind t, Going env true 0 s t [] → (f kind).Ends env t fun _ u => Went env.file.text true 0 s u []) :
    (nextKind >>= f).Goes env true 0 s := by
  have hnext : nextKind.Ends env s fun _ t => Went env.file.text true 0 s t [] :=
    (nextToken_passes h hkind).bind fun _ _ ht => ht
  exact hnext.bind fun kind t ht => hf kind t ⟨h.serves, ht⟩

theorem defaultIsModifier_goes (h : env.Apt s) (hkind : s.token.kind ≠ .endOfFile) :
    defaultIsModifier.Goes env true 0 s := by
  refine nextKind_passes h hkind fun kind t g => ?_
  split
  any_goals exact .pure g.went
  · exact g.only (question_goes (peek_orderly (onSameLine_orderly (.isAtKeyword _))) g.apt)
  · exact g.only (question_goes (peek_orderly (onSameLine_orderly (.isAtKeyword _))) g.apt)

theorem nextFollowsModifier_goes (h : env.Apt s) (hkind : s.token.kind ≠ .endOfFile) :
    nextFollowsModifier.Goes env true 0 s :=
  afterNext_goes (onSameLine_orderly canFollowModifier_orderly) h hkind

/-- Whether a token is a modifier is found out behind it. -/
theorem tokenIsModifier_goes (h : env.Apt s) (hkind : s.token.kind ≠ .endOfFile) :
    tokenIsModifier.Goes env true 0 s := by
  refine .kind ?_
  split
  · exact nextKind_passes h hkind fun _ _ g => .pure g.went
  · refine nextKind_passes h hkind fun kind t g => ?_
    split
    any_goals exact .pure g.went
    · exact g.only (question_goes (.lookAhead defaultIsModifier_orderly) g.apt)
    · exact g.only (question_goes canFollowModifier_orderly g.apt)
  · exact defaultIsModifier_goes h hkind
  · exact afterNext_goes canFollowModifier_orderly h hkind
  · exact nextFollowsModifier_goes h hkind

/-- A word on trial is read over, or the parser is called back. -/
theorem attemptIf_went {p : Parser Bool} (h : env.Apt s) (hp : Orderly true p) (hgoes : p.Goes env true 0 s) :
    (attemptIf p).Ends env s fun found t => (found = true ∧ Went env.file.text true 0 s t [])
      ∨ (found = false ∧ Went env.file.text false 0 s t [] ∧ t.token = s.token) :=
  speculate_goes h hp (hgoes.mono fun _ _ ht _ => ht)

theorem acceptModifier_went (h : env.Apt s) :
    acceptModifier.Ends env s fun found t =>
      (found = true ∧ s.token.kind.isModifier = true ∧ Went env.file.text true 0 s t [])
        ∨ (found = false ∧ Went env.file.text false 0 s t [] ∧ t.token = s.token) := by
  refine .kind (.ite (fun hkind => ?_) fun _ => .inr ⟨rfl, .refl h.fine, rfl⟩)
  have hgoes := tokenIsModifier_goes h (Kind.ne_endOfFile_of_isModifier hkind)
  refine (attemptIf_went h tokenIsModifier_orderly hgoes).mono fun _ _ ht => ?_
  exact ht.imp_left fun hyes => ⟨hyes.1, hkind, hyes.2⟩

theorem acceptContextualWord_goes (keyword : Keyword) (h : env.Apt s) :
    (acceptContextualWord keyword).Goes env false 0 s := by
  refine .isAt (.ite (fun hkind => ?_) fun _ => .pure (.refl h.fine))
  have hgoes := tokenIsModifier_goes h (by rw [beq_iff_eq.mp hkind]; nofun)
  refine (attemptIf_went h tokenIsModifier_orderly hgoes).mono fun _ _ ht => ?_
  rcases ht with ⟨-, ht⟩ | ⟨-, ht, -⟩
  · exact ht.weaken
  · exact ht

theorem nonEmptyArray_goes {read : List NodeId} (pos : Nat) (g : Going env took k r s (readParts read)) :
    (nonEmptyArray pos read).Ends env s fun list t => Went env.file.text took k r t (held list) := by
  refine .ite (fun hempty => ?_) fun _ => .nodePos (.pure (g.went.array rfl))
  exact .pure (g.went.parts (by simp [List.isEmpty_iff.mp hempty, readParts]))

theorem modifiers_goes (constAllowed : Bool) (h : env.Apt s) :
    (modifiers constAllowed).Goes env false 1 s := by
  refine .nodePos (Ends.bind ((Going.start 1 h).loop readParts fun read t g => .token ?_)
    fun read t g => nonEmptyArray_goes _ g)
  extract_lets rest
  have hmade {u : ParserState} (hkind : t.token.kind.isSolid = true)
      (hu : Went env.file.text true 0 t u []) : (rest true).Ends env u
        (Turn.Comes (fun read t => Going env false 1 s t (readParts read))
          fun read t => Going env false 1 s t (readParts read)) := by
    have g' : Going env true 0 t u [] := ⟨h.serves, hu⟩
    refine (g'.finish rfl rfl hkind).bind fun id v hv => ?_
    exact .pure ((g.go hv.went (Nat.le_refl 1)).parts (by simp))
  refine .ite (fun hconst => ?_) fun _ => ?_
  · simp only [Bool.and_eq_true, beq_iff_eq] at hconst
    have hgoes := nextFollowsModifier_goes g.apt (by rw [hconst.2]; nofun)
    refine (attemptIf_went g.apt nextFollowsModifier_orderly hgoes).bind fun _ u hu => ?_
    rcases hu with ⟨rfl, hu⟩ | ⟨rfl, hu, -⟩
    · exact hmade (by rw [hconst.2]; rfl) hu
    · exact .pure (g.goOn hu)
  · refine (acceptModifier_went g.apt).bind fun _ u hu => ?_
    rcases hu with ⟨rfl, hkind, hu⟩ | ⟨rfl, hu, -⟩
    · exact hmade (Kind.isSolid_of_isModifier hkind) hu
    · exact .pure (g.goOn hu)

theorem arrowModifiers_goes (h : env.Apt s) : arrowModifiers.Goes env false 1 s := by
  refine .isAt (.ite (fun hasync => .nodePos ?_) fun _ => .pure (.refl h.fine))
  have hkind : s.token.kind.isSolid = true := by rw [beq_iff_eq.mp hasync]; rfl
  exact (tokenNode_produces h hkind).bind fun word t ht =>
    .nodePos (.pure (ht.went.weaken.parts (by simp)))

/-- The expression of a decorator is read without the depth of nesting being checked. -/
theorem decorators_goes (h : env.Apt s) : decorators.Goes env false 1 s := by
  refine .nodePos (Ends.bind ((Going.start 1 h).loop readParts fun read t g => .nodePos ?_)
    fun read t g => nonEmptyArray_goes _ g)
  refine (Going.start 0 g.apt).acceptPunct (fun u g' => ?_) (.pure g)
  refine g'.past (parseIn_produces .leftHandSide g'.apt fun _ => trivial) fun inner u hinner g' => ?_
  refine (g'.finishUnguarded hinner (.start 0 g'.apt) (List.mem_singleton_self _) rfl
      (by simp [Node.parts_eq, Payload.fields]) rfl (by decide)).bind fun id v hv => ?_
  exact .pure ((g.go hv.went (Nat.le_refl 1)).parts (by simp))

/-! ## 2. Annotations and initializers -/

theorem typeAnnotation_goes (h : env.Apt s) : typeAnnotation.Goes env false 0 s := by
  refine (Going.start 0 h).acceptPunct (fun t g => ?_) (.pure (.refl h.fine))
  exact g.step (parse_goes .type g.apt trivial) fun type t g => g.loosen.done rfl

theorem initializerIn_goes (inParameter : Bool) (h : env.Apt s) :
    (initializerIn inParameter).Goes env false 0 s := by
  refine .ask h (hasInitializer_orderly _) fun _ t _ h => .ite (fun _ => ?_) fun _ => .pure (.refl h.fine)
  refine (Going.start 0 h).step (expectPunct_goes _ h) fun _ t g => ?_
  exact g.step (parse_goes .assignment g.apt trivial) fun value t g => g.done rfl

theorem initializer_goes (h : env.Apt s) : initializer.Goes env false 0 s := initializerIn_goes false h

/-! ## 3. Parameters -/

theorem thisParameter_produces {start : DeclarationStart} (g : Going env false 5 r s (held start))
    (hstart : start.pos = r.pos) (hkind : s.token.kind = .keyword .thisKw) :
    (thisParameter start).Produces env 6 r s := by
  have hname : (identifierIf true .identifierExpected).Produces env 1 s s :=
    identifierIf_produces _ g.apt fun _ => by rw [hkind]; nofun
  refine g.stepTook hname.goes fun name t g => ?_
  exact g.step (typeAnnotation_goes g.apt) fun type t g =>
    g.finish hstart (by simp [Node.parts_eq, Payload.fields, Payload.variableFields]) rfl

theorem skipStrayModifier_goes (name : NodeId) (list : Option NodeArray) (h : env.Apt s) :
    (skipStrayModifier name list).Goes env false 0 s := by
  have hrefl {s : ParserState} (h : env.Apt s) : Went env.file.text false 0 s s [] := .refl h.fine
  refine .ite (fun _ => Goes.ask h (.isMissing name) fun _ t _ h => .ite (fun _ => ?_) fun _ => hrefl h)
    fun _ => hrefl h
  exact .kind (.ite (fun _ => nextToken_goes h) fun _ => hrefl h)

theorem parameter_produces (h : env.Apt s) : parameter.Produces env 6 s s := by
  refine .nodePos ((Going.start 5 h).step (decorators_goes h) fun decorators t g => ?_)
  refine .isAt (.ite (fun hthis => ?_) fun _ => ?_)
  · exact thisParameter_produces (g.parts (by simp)) rfl (beq_iff_eq.mp hthis)
  refine g.step (modifiers_goes false g.apt) fun modifiers t g => ?_
  refine g.step (acceptToken_goes g.apt rfl) fun dots t g => ?_
  refine g.stepTook (parse_goes .bindingName g.apt trivial) fun name t g => ?_
  refine g.step (skipStrayModifier_goes name modifiers g.apt) fun _ t g => ?_
  refine g.step (acceptToken_goes g.apt rfl) fun questionMark t g => ?_
  refine g.step (typeAnnotation_goes g.apt) fun type t g => ?_
  exact g.step (initializerIn_goes true g.apt) fun initializer t g =>
    g.finish rfl (by simp [Node.parts_eq, Payload.fields, Payload.variableFields]) rfl

/-- Parameters are given up only where parentheses are strict. -/
theorem parameterList_went (mode : SignatureMode) (h : env.Apt s) :
    (parameterList mode).Ends env s fun found t => Went env.file.text true 6 s t (held found)
      ∧ (mode.strictParens = false → found.isSome = true) := by
  refine (Going.start 6 h).stepTook (expectPunct_goes .openParen h) fun _ t g => ?_
  have hnone {u : ParserState} {items : List Part} (hstrict : mode.strictParens = true) (g : Going env true 6 s u items) :
      (pure none : Parser (Option NodeArray)).Ends env u fun found t =>
        Went env.file.text true 6 s t (held found) ∧ (mode.strictParens = false → found.isSome = true) :=
    .pure ⟨g.went.past.mono (by decide), fun hlax => absurd (hlax.symm.trans hstrict) Bool.false_ne_true⟩
  refine .ite (fun _ => ?_) fun _ => .ite (fun hstrict => hnone hstrict g) fun _ => ?_
  · have hlist : (inFunction mode.isGenerator mode.isAsync (separated .parameters parameter)).Goes env false 6 t :=
      .withContext g.apt fun _ h => separated_goes h fun _ h => (parameter_produces h).goes
    refine g.step hlist fun list t g => g.step (expectPunct_goes _ g.apt) fun closed t g => ?_
    refine .ite (fun hgiven => hnone (Bool.and_eq_true_iff.mp hgiven).1 g) fun _ => ?_
    exact .pure ⟨g.went.parts (by simp), fun _ => rfl⟩
  · exact g.step (missingList_goes g.apt) fun list t g => .pure ⟨g.went.parts (by simp), fun _ => rfl⟩

theorem typeParameter_produces (h : env.Apt s) : typeParameter.Produces env 2 s s := by
  refine .nodePos ((Going.start 1 h).stepTook (identifier_produces h).goes fun name t g => ?_)
  extract_lets rest
  refine g.fork rest (fun constraint t g => ?_) fun hrest => g.acceptKeyword (fun u g => ?_) ?_
  · unfold rest
    extract_lets rest
    refine g.fork rest (fun default t g =>
      g.finish rfl (by simp [Node.parts_eq, Payload.fields]) rfl) fun hrest => g.acceptPunct (fun u g => ?_) ?_
    · exact g.step (parse_goes .type g.apt trivial) fun type v g => hrest (some type) v g
    · exact hrest none t (g.parts (by simp))
  · exact g.step (parse_goes .type g.apt trivial) fun type v g => hrest (some type) v g
  · exact hrest none t (g.parts (by simp))

theorem typeParameters_goes (h : env.Apt s) : typeParameters.Goes env false 2 s := by
  refine .isAt (.ite (fun _ => ?_) fun _ => .pure (.refl h.fine))
  exact (bracketed_goes h fun _ h => (typeParameter_produces h).goes).bind fun list t ht => .pure ht.weaken

/-! ## 4. Signatures -/

theorem predicateStart_goes (h : env.Apt s) : predicateStart.Goes env false 1 s := by
  refine (Going.start 1 h).step (identifier_produces h).goes fun name t g => ?_
  have hnone : Went env.file.text false 1 s t [] := g.went.past.mono (by decide)
  refine .isAt (.ite (fun _ => .afterLineBreak (.ite (fun _ => .pure hnone) fun _ => ?_)) fun _ => .pure hnone)
  exact g.step (nextToken_goes g.apt) fun _ t g => g.done (by simp)

theorem returnType_produces (h : env.Apt s) : returnType.Produces env 2 s s := by
  refine .nodePos ?_
  extract_lets rest
  have htype {t : ParserState} (ht : Went env.file.text false 0 s t []) (htoken : t.token = s.token) :
      (rest none).Produces env 2 s t := by
    have g := (Going.start 0 h).goOn ht
    exact (parse_produces .type g.apt trivial).bind fun type u hu => .pure (ht.made htoken (hu.mono (by decide)))
  refine (isIdentifier_orderly.went h).bind fun _ t ht => .ite (fun _ => ?_) fun _ => htype ht.1 ht.2
  have g := (Going.start 1 h).goOn ht.1
  refine (speculate_goes g.apt predicateStart_orderly ((predicateStart_goes g.apt).mono
    fun _ _ hu _ => hu)).bind fun name u hu => ?_
  cases name with
  | none =>
    rcases hu with ⟨hno, -⟩ | ⟨-, hu, htoken⟩
    · cases hno
    · exact htype (ht.1.on hu) (htoken.trans ht.2)
  | some name =>
    rcases hu with ⟨-, hu⟩ | ⟨hno, -⟩
    · refine (g.go hu (by decide)).stepTook (parse_goes .type ?_ trivial) fun type v g =>
        g.finish rfl (by simp [Node.parts_eq, Payload.fields]) rfl
      exact (g.go hu (by decide)).apt
    · cases hno

theorem typeAfterArrow_goes (h : env.Apt s) : typeAfterArrow.Goes env false 2 s := by
  refine (Going.start 2 h).step (expectPunct_goes .equalsGreaterThan h) fun _ t g => ?_
  exact g.step (returnType_produces g.apt).goes fun type t g => g.done rfl

theorem typeAfterColon_goes (inType : Bool) (h : env.Apt s) : (typeAfterColon inType).Goes env false 2 s := by
  refine (Going.start 2 h).acceptPunct (fun t g => ?_) ?_
  · exact g.step (returnType_produces g.apt).goes fun type t g => g.loosen.done rfl
  have hnone : Went env.file.text false 2 s s [] := .refl h.fine
  refine .ite (fun hno => absurd hno Bool.false_ne_true) fun _ =>
    .ite (fun _ => .isAt (.ite (fun _ => ?_) fun _ => .pure hnone)) fun _ => .pure hnone
  refine (expectedHere_dirty (.punct .colon)).bind fun _ t ht => ?_
  have g : Going env false 2 s t [] := (Going.start 2 h).dirty ht
  refine g.step (nextToken_goes g.apt) fun _ t g => ?_
  exact g.step (returnType_produces g.apt).goes fun type t g => g.done rfl

theorem signatureIf_went {returns : SignatureMode → Parser (Option NodeId)} (mode : SignatureMode)
    (h : env.Apt s) (hreturns : ∀ t, env.Apt t → (returns mode).Goes env false 2 t) :
    (signatureIf returns mode).Ends env s fun found t => Went env.file.text true 6 s t (held found)
      ∧ (mode.strictParens = false → found.isSome = true) := by
  refine (Going.start 6 h).step (typeParameters_goes h) fun typeParameters t g => ?_
  refine (parameterList_went mode g.apt).bind fun found u hu => ?_
  have g := g.goTook hu.1 (Nat.le_refl 6)
  cases found with
  | none => exact .pure ⟨g.went.past.mono (by decide), hu.2⟩
  | some parameters =>
    exact g.step (hreturns u g.apt) fun type v g => .pure ⟨g.went.parts (by simp), fun _ => rfl⟩

/-- What is given up has no parameters. -/
theorem shape_goes {p : Parser (Option SignatureShape)} (hp : p.Goes env true 6 s) :
    (do return (← p).getD .empty : Parser SignatureShape).Goes env true 6 s := by
  refine hp.bind fun found t ht => .pure ?_
  cases found with
  | none => exact ht.parts rfl
  | some shape => exact ht

theorem signature_goes (mode : SignatureMode) (h : env.Apt s) : (signature mode).Goes env true 6 s :=
  shape_goes ((signatureIf_went mode h fun _ => typeAfterColon_goes mode.inType).mono fun _ _ ht => ht.1)

theorem arrowSignature_goes (mode : SignatureMode) (h : env.Apt s) :
    (arrowSignature mode).Goes env true 6 s :=
  shape_goes ((signatureIf_went mode h fun _ => typeAfterArrow_goes).mono fun _ _ ht => ht.1)

/-! ## 5. Patterns -/

/-- An inner pattern is read without the depth of nesting being checked. -/
theorem arrayBindingElement_goes (h : env.Apt s) : arrayBindingElement.Goes env false 4 s := by
  refine .nodePos (.isAt (.ite (fun _ => (omitted_goes h).upTo) fun _ => ?_))
  refine (Going.start 3 h).step (acceptToken_goes h rfl) fun dots t g => ?_
  refine g.past (parse_produces .bindingName g.apt trivial) fun name t hname g => ?_
  refine (Going.start 3 g.apt).step (initializer_goes g.apt) fun initializer t g' => ?_
  refine Ends.mono (P := Made env.file.text 4 s) ?_ fun _ _ ht => ht.went.weaken
  exact g.finishUnguarded hname g' (List.mem_singleton_self _) rfl
      (by simp [Node.parts_eq, Payload.fields, Payload.variableFields]) rfl (by decide)

theorem arrayBindingPattern_produces (h : env.Apt s) : arrayBindingPattern.Produces env 5 s s := by
  refine .nodePos ((Going.start 4 h).stepTook (expectPunct_goes _ h) fun _ t g => ?_)
  refine g.step (separated_goes g.apt fun _ h => arrayBindingElement_goes h) fun list t g => ?_
  exact g.step (expectPunct_goes _ g.apt) fun _ t g =>
    g.finish rfl (by simp [Node.parts_eq, Payload.fields]) rfl

theorem objectBindingElement_produces (h : env.Apt s) : objectBindingElement.Produces env 4 s s := by
  refine .nodePos ((Going.start 3 h).step (acceptToken_goes h rfl) fun dots t g => ?_)
  refine g.ask isIdentifier_orderly fun canBeVariable t g => ?_
  refine (propertyName_produces g.apt).bind fun first u hfirst => ?_
  extract_lets rest
  have hrest (propertyName : Option NodeId) {name : NodeId} {v w : ParserState}
      (g : Going env true 3 s w (held propertyName ++ held dots)) (hname : Made env.file.text 5 v name w) :
      (rest (propertyName, name)).Produces env 4 s w := by
    refine (Going.start 3 g.apt).step (initializer_goes g.apt) fun initializer t g' => ?_
    exact g.finishUnguarded hname g' (List.mem_singleton_self _) rfl
      (by simp [Node.parts_eq, Payload.fields, Payload.variableFields]) rfl (by decide)
  refine .isAt (.ite (fun _ => ?_) fun _ => ?_)
  · exact hrest none (g.goOnTook hfirst.went.past) (hfirst.mono (by decide))
  · refine (g.goTook hfirst.went (by decide)).step (expectPunct_goes _ ?_) fun _ v g => ?_
    · exact hfirst.apt h.serves
    refine g.past (parse_produces .bindingName g.apt trivial) fun name w hname g => ?_
    exact hrest (some first) (g.among (by simp)) hname

theorem objectBindingPattern_produces (h : env.Apt s) : objectBindingPattern.Produces env 5 s s := by
  refine .nodePos ((Going.start 4 h).stepTook (expectPunct_goes _ h) fun _ t g => ?_)
  refine g.step (separated_goes g.apt fun _ h => (objectBindingElement_produces h).goes) fun list t g => ?_
  exact g.step (expectPunct_goes _ g.apt) fun _ t g =>
    g.finish rfl (by simp [Node.parts_eq, Payload.fields]) rfl

theorem bindingName_produces (h : env.Apt s) : bindingName.Produces env 5 s s := by
  refine .kind ?_
  split
  · exact arrayBindingPattern_produces h
  · exact objectBindingPattern_produces h
  · exact (identifier_produces h).upTo

/-! ## 6. Declared variables -/

theorem variableDeclaration_produces (h : env.Apt s) : variableDeclaration.Produces env 6 s s := by
  refine .nodePos ((Going.start 5 h).stepTook (parse_goes .bindingName h trivial) fun name t g => ?_)
  refine g.step (typeAnnotation_goes g.apt) fun type t g => .kind ?_
  extract_lets rest
  refine g.fork rest (fun initializer t g =>
    g.finish rfl (by simp [Node.parts_eq, Payload.fields, Payload.variableFields]) rfl) fun hrest => .ite (fun _ => ?_) fun _ => ?_
  · exact hrest none t (g.parts (by simp))
  · exact g.step (initializer_goes g.apt) hrest

theorem variableDeclarationList_produces (inLoopHead : Bool) (h : env.Apt s)
    (hkind : s.token.kind ≠ .endOfFile) : (variableDeclarationList inLoopHead).Produces env 7 s s := by
  refine .token ((Going.start 6 h).stepTook (nextToken_passes h hkind) fun _ t g => ?_)
  refine g.ask ofFollowsNothing_orderly fun _ t g => ?_
  extract_lets rest
  refine g.fork rest (fun list t g =>
    g.finish rfl (by simp [Node.parts_eq, Payload.fields]) rfl) fun hrest => .ite (fun _ => ?_) fun _ => ?_
  · exact g.step (missingList_goes g.apt) hrest
  · have hlist (s : ParserState) (h : env.Apt s) :
        (separated .variableDeclarations variableDeclaration).Goes env false 6 s :=
      separated_goes h fun _ h => (variableDeclaration_produces h).goes
    exact g.step (.withContext g.apt hlist) hrest

theorem variableStatement_produces {start : DeclarationStart} (g : Going env false 7 r s (held start))
    (hstart : start.pos = r.pos) (hkind : s.token.kind ≠ .endOfFile) :
    (variableStatement start).Produces env 8 r s := by
  refine g.stepTook (variableDeclarationList_produces false g.apt hkind).goes fun declarations t g => ?_
  exact g.step (semicolon_goes g.apt) fun _ t g =>
    g.finish hstart (by simp [Node.parts_eq, Payload.fields]) rfl

end Parser

end ScriptSyntax
