/-
  ScriptSyntax/Proofs/Clean/Lists.lean
  ====================================
  What clean runs make of nested productions, of names and of lists.

  A production that is nested is parsed one level deeper, where as many falls
  fewer are left as it may need.
-/
import ScriptSyntax.Proofs.Clean.Reading
import ScriptSyntax.Proofs.Grammar.Lists
import ScriptSyntax.Proofs.Orderly.Starts

namespace ScriptSyntax

/-- At the depth of nesting that is left there is room for what is parsed one level deeper. -/
theorem Made.deeper {text : Array Char} {s t : ParserState} {id : NodeId}
    (hdepth : s.scope.depth < Parser.maxDepth)
    (h : Made text fallsPerLevel (s.atDepth (s.scope.depth + 1)) id t) :
    Made text 0 s id (t.atDepth (t.scope.depth - 1)) where
  begins hclean := h.begins ⟨hclean.faultless, hclean.silent⟩
  went hclean := by
    have hgone := h.went ⟨hclean.faultless, hclean.silent⟩
    refine ⟨⟨⟨hgone.start.faultless, hgone.start.silent⟩, ⟨hgone.fine.token, hgone.fine.regular⟩, ?_,
      hgone.grows, hgone.forward, hgone.ahead, ?_⟩, hgone.counted⟩
    · show t.scope.depth - 1 = s.scope.depth
      rw [hgone.depth_eq]
      rfl
    · have hlimit : (s.atDepth (s.scope.depth + 1)).limit + fallsPerLevel = s.limit + 0 := by
        show fallsPerLevel * (Parser.maxDepth - (s.scope.depth + 1)) + fallsPerLevel
          = fallsPerLevel * (Parser.maxDepth - s.scope.depth)
        rw [← Nat.mul_succ]
        congr 1
        omega
      exact hlimit ▸ hgone.within

theorem childrenOf_readParts (read : List NodeId) : childrenOf (readParts read) = read.reverse :=
  childrenOf_map_node _

/-- The elements read, the last one first, make the list. -/
theorem Went.array {text : Array Char} {took : Bool} {k : Nat} {r s : ParserState} {read : List NodeId}
    {list : NodeArray} (h : Went text took k r s (readParts read)) (hnodes : list.nodes = read.reverse) :
    Went text took k r s [.array list] :=
  h.parts (by simp [childrenOf_readParts, hnodes])

namespace Parser

variable {env : Surroundings} {took : Bool} {k : Nat} {r s t : ParserState} {items : List Part}

/-! ## 1. Calls and nesting -/

theorem parse_goes (q : Production) (h : env.Apt s) (hfits : q.Fits s.token) :
    (parse q).Goes env true q.height s :=
  (parse_produces q h hfits).goes

/-- A call in another context. -/
theorem parseIn_produces {g : ContextFlags → ContextFlags} (q : Production) (h : env.Apt s)
    (hfits : ∀ t, q.Fits t) :
    (withContext g (parse q)).Produces env q.height s s :=
  .withContext h fun _ h => parse_produces q h (hfits _)

theorem parseIn_goes {g : ContextFlags → ContextFlags} (q : Production) (h : env.Apt s)
    (hfits : ∀ t, q.Fits t) : (withContext g (parse q)).Goes env true q.height s :=
  (parseIn_produces q h hfits).goes

/-- What would be made in place of a production that is nested too deeply comes after a report. -/
theorem tooDeep_dirty (m : Message) (h : env.Apt s) : (tooDeep m).Ends env s fun _ t => ¬t.Clean :=
  Ends.late (errorHere_dirty m []) h.serves.adds fun _ => Orderly.tooDeep_rest

theorem nested_went {p : Parser NodeId} (m : Message) (h : env.Apt s)
    (hp : ∀ s, env.Apt s → p.Produces env fallsPerLevel s s) :
    (nested m p).Ends env s fun result t =>
      Made env.file.text 0 s result.1 t ∧ (result.2 = false → ¬t.Clean) := by
  refine .get ?_
  split
  · exact (tooDeep_dirty m h).bind fun id t ht => ⟨.dirty ht, fun _ => ht⟩
  · rename_i hdepth
    have hdeeper : p.Ends env (s.atDepth (s.scope.depth + 1)) fun id t =>
        Made env.file.text 0 s id (t.atDepth (t.scope.depth - 1)) :=
      (hp _ (h.inScope _)).mono fun id t ht => ht.deeper (Nat.lt_of_not_le hdepth)
    exact ⟨hdeeper, fun hno => absurd hno.symm Bool.false_ne_true⟩

/-! ## 2. Names -/

theorem intern_went (name : String) (h : env.Apt s) :
    (intern name).Ends env s fun _ t => Went env.file.text false 0 s t [] ∧ t.token = s.token :=
  ⟨.of_stays h.fine ((Orderly.intern name).adds h.serves.adds s) ⟨rfl, rfl, rfl, rfl⟩, rfl⟩

/-- An identifier is finished for which the run was counted. -/
theorem finishIdentifier_produces {n : Node} (h : Went env.file.text true 0 s.counting t [])
    (hkind : n.kind = .identifier) (hpos : n.pos = s.pos) (hchildren : n.children = []) :
    (finish n).Produces env 1 s t := by
  have hmoved (hclean : t.Clean) : Moved env.file.text true 0 s t [] := by
    have hgone := h hclean
    exact ⟨⟨hgone.start.faultless, hgone.start.silent⟩, hgone.fine, hgone.depth_eq, hgone.grows,
      hgone.forward, hgone.ahead, by simp⟩
  have hregular (hclean : t.Clean) : { n with stop := t.pos }.Regular :=
    Node.regular_of_lt (.inr hkind) (hpos ▸ (hmoved hclean).ahead rfl)
  have hmoves : (finish n).Ends env t _ := finish_moves hmoved hregular Nat.one_pos fun _ c hc =>
    absurd (hchildren ▸ hc) List.not_mem_nil
  refine (hmoves.and (finish_clean n env t)).mono fun id u hu => ⟨fun hclean => ?_, fun hclean => ?_⟩
  · obtain ⟨hmade, -, hcount, hnodes⟩ := hu.1 hclean
    have hcounted : t.identifierCount + s.arena.identifierNodes
        = s.identifierCount + 1 + t.arena.identifierNodes := (h (hu.2 hclean).1).counted
    rw [if_pos hkind] at hnodes
    exact ⟨hmade, by omega⟩
  · obtain ⟨-, ⟨stop, flags, hnode⟩, -⟩ := hu.1 hclean
    exact ⟨_, hnode, Nat.le_of_eq hpos⟩

theorem identifierIf_produces {allowed : Bool} (m : Message) (h : env.Apt s)
    (hallowed : allowed = true → s.token.kind ≠ .endOfFile) :
    (identifierIf allowed m).Produces env 1 s s := by
  refine Ends.bind (P := fun _ t => t = s.counting) rfl ?_
  rintro _ _ rfl
  have happt : env.Apt s.counting := by
    refine ⟨h.serves, fun hclean => ?_⟩
    have hfine := h.fine ⟨hclean.faultless, hclean.silent⟩
    exact ⟨hfine.token, hfine.regular⟩
  refine .ite (fun hyes => .token ((intern_went _ happt).bind fun name u hu => ?_)) fun _ => ?_
  · have g := (Going.start 0 happt).goOn hu.1
    have hkind : u.token.kind ≠ .endOfFile := by
      rw [hu.2]
      exact hallowed hyes
    exact g.stepTook (nextToken_passes g.apt hkind) fun _ _ g =>
      finishIdentifier_produces g.went rfl rfl (by simp [Node.children, Node.parts_eq, Payload.fields])
  · exact missingHere_produces _ m [] happt

theorem identifierOr_produces (m : Message) (h : env.Apt s) : (identifierOr m).Produces env 1 s s := by
  refine Ends.bind (P := fun allowed t => (Went env.file.text false 0 s t [] ∧ t.token = s.token)
    ∧ allowed = isIdentifier.answer env s) ⟨isIdentifier_orderly.went h, rfl⟩ fun allowed t ht => ?_
  obtain ⟨⟨hwent, htoken⟩, rfl⟩ := ht
  refine (identifierIf_produces m ((Going.start 0 h).goOn hwent).apt fun hyes => ?_).mono
    fun _ _ hu => hwent.made htoken hu
  rw [htoken]
  exact ne_endOfFile_of_isName (isName_of_isIdentifier hyes)

theorem nameOr_produces (m : Message) (h : env.Apt s) : (nameOr m).Produces env 1 s s :=
  .kindIs (identifierIf_produces m h ne_endOfFile_of_isName)

theorem identifier_produces (h : env.Apt s) : identifier.Produces env 1 s s := identifierOr_produces _ h

theorem name_produces (h : env.Apt s) : name.Produces env 1 s s := nameOr_produces _ h

theorem optionalIdentifier_goes (h : env.Apt s) : optionalIdentifier.Goes env false 1 s := by
  refine .ask h isIdentifier_orderly fun _ t _ h => .ite (fun _ => ?_) fun _ => ?_
  · exact (identifier_produces h).bind fun _ _ ht => .pure ht.went.weaken
  · exact .pure (.refl h.fine)

theorem nameAfterDot_produces (keywords : Bool) (h : env.Apt s) :
    (nameAfterDot keywords).Produces env 1 s s := by
  refine .ask h ?_ fun _ t _ h => .ite (fun _ => ?_) fun _ => .ite (fun _ => ?_) fun _ => ?_
  · exact Orderly.afterLineBreak.and (isName_orderly.and (peek_orderly (onSameLine_orderly isName_orderly)))
  · exact missingBefore_produces _ _ _ h
  · exact name_produces h
  · exact identifier_produces h

/-- Each name after a dot makes a node of all that there is so far. -/
theorem qualifiedRest_produces {first : NodeId} (keywords : Bool) (hserves : env.Serves)
    (h : Made env.file.text 2 r first s) :
    (qualifiedRest r.pos keywords first).Produces env 2 r s := by
  refine repeating_produces h fun left t hleft => ?_
  have g := Going.start 1 (hleft.apt hserves)
  refine g.acceptPunct (fun u g => ?_) (Ends.pure hleft)
  refine g.step (nameAfterDot_produces keywords g.apt).goes fun right u g => ?_
  exact (hleft.finish g rfl (by simp [Node.parts_eq, Payload.fields]) rfl).bind fun _ _ ht => .pure ht

theorem entityName_produces (keywords : Bool) (m : Message) (h : env.Apt s) :
    (entityName keywords m).Produces env 2 s s := by
  refine .nodePos (.ite (fun _ => ?_) fun _ => ?_)
  · exact (nameOr_produces m h).bind fun _ _ ht => qualifiedRest_produces keywords h.serves (ht.mono (by decide))
  · exact (identifierOr_produces m h).bind fun _ _ ht =>
      qualifiedRest_produces keywords h.serves (ht.mono (by decide))

theorem computedName_produces (h : env.Apt s) : computedName.Produces env 3 s s := by
  refine .nodePos ((Going.start 2 h).stepTook (expectPunct_goes _ h) fun _ t g => ?_)
  refine g.step (parseIn_goes .expression g.apt (fun _ => trivial)) fun inner t g => ?_
  refine g.step (expectPunct_goes _ g.apt) fun _ t g => ?_
  exact g.finish rfl (by simp [Node.parts_eq, Payload.fields]) rfl

/-- The name of a property: a string, a number, a computed name or any word. -/
theorem propertyName_produces (h : env.Apt s) : propertyName.Produces env 3 s s := by
  refine .kind ?_
  split
  · exact (literalNode_produces h (by simp [*, Kind.isSolid])).upTo
  · exact (literalNode_produces h (by simp [*, Kind.isSolid])).upTo
  · exact computedName_produces h
  · exact (name_produces h).upTo

/-! ## 3. Lists -/

variable {list : ListContext} {element : Parser NodeId} {took' : Bool}

/-- What a list has no use for is reported. -/
theorem giveUp_dirty (list : ListContext) (h : env.Apt s) :
    (giveUp list).Ends env s fun _ t => ¬t.Clean :=
  .late (errorHere_dirty _ _) h.serves.adds fun _ => openListTakes_orderly.bind fun _ =>
    .ite (.pure _) (Orderly.nextToken.bind fun _ => .pure _)

/-- The elements read so far of a list without separators. If there are none, nothing has been read
over. -/
structure Listing (env : Surroundings) (k : Nat) (r : ParserState) (read : List NodeId) (s : ParserState) :
    Prop where
  going : Going env (!read.isEmpty) k r s (readParts read)
  stays : s.Clean → read = [] → s.pos = r.pos

theorem Listing.ask {β : Type} {q : Parser Bool} {f : Bool → Parser β} {read : List NodeId}
    {Q : β → ParserState → Prop} (h : Listing env k r read s) (hq : Orderly false q)
    (hf : ∀ t, t.token = s.token → Listing env k r read t → (f (q.answer env s)).Ends env t Q) :
    (q >>= f).Ends env s Q := by
  obtain ⟨hwent, htoken⟩ := hq.went h.going.apt
  refine hf _ htoken ⟨h.going.goOn hwent, fun hclean hnone => ?_⟩
  rw [ParserState.pos, htoken]
  exact h.stays (hwent hclean).start hnone

theorem listTurn_lists {read : List NodeId}
    (helement : ∀ s, env.Apt s → s.token.kind ≠ .endOfFile → element.Produces env k s s)
    (h : Listing env k r read s) :
    (listTurn list element read).Ends env s (Turn.Comes (Listing env k r) (Listing env k r)) := by
  refine h.ask (endsList_orderly list) fun t htoken h => .ite (fun _ => h) fun hgoes => ?_
  have hkind : t.token.kind ≠ .endOfFile := htoken ▸ ne_endOfFile_of_endsList hgoes
  refine h.ask (startsElement_orderly list false) fun u htoken h => .ite (fun _ => ?_) fun _ => ?_
  · refine (helement u h.going.apt (htoken ▸ hkind)).bind fun id v hu => .pure ⟨?_, nofun⟩
    exact (h.going.goTook hu.went (Nat.le_refl k)).parts (by simp)
  · have hdirty {u : ParserState} (hu : ¬u.Clean) : Listing env k r read u :=
      ⟨h.going.dirty hu, fun hclean => absurd hclean hu⟩
    exact (giveUp_dirty list h.going.apt).bind fun _ u hu => .ite (fun _ => hdirty hu) fun _ => hdirty hu

theorem elements_went (h : env.Apt s)
    (helement : ∀ s, env.Apt s → s.token.kind ≠ .endOfFile → element.Produces env k s s) :
    (elements list element).Ends env s fun nodes t =>
      Went env.file.text (!nodes.nodes.isEmpty) k s t [.array nodes]
        ∧ (t.Clean → nodes.nodes = [] → t.pos = s.pos) := by
  have hstart : Listing env k (s.withLists (list :: s.scope.openLists)) [] _ :=
    ⟨.start k (h.inScope _), fun _ _ => rfl⟩
  have hloop : (repeating [] (listTurn list element)).Ends env _ _ :=
    repeating_comes hstart (fun _ _ ht => ⟨⟨h.serves, .dirty ht⟩, fun hclean => absurd hclean ht⟩)
      fun read t ht => listTurn_lists helement ht
  refine .inList (.nodePos (hloop.bind fun read t ht => .nodePos (Ends.pure ⟨?_, fun hclean hnone => ?_⟩)))
  · rw [List.isEmpty_reverse]
    exact (ht.going.went.array rfl).inScope (r := s) rfl rfl
  · exact ht.stays ⟨hclean.faultless, hclean.silent⟩ (List.reverse_eq_nil_iff.mp hnone)

theorem elements_goes (h : env.Apt s)
    (helement : ∀ s, env.Apt s → s.token.kind ≠ .endOfFile → element.Produces env k s s) :
    (elements list element).Goes env false k s :=
  (elements_went h helement).mono fun _ _ ht => ht.1.weaken

/-! ## 4. Lists with commas -/

theorem missingComma_goes (start : Nat) (semicolonSeparates : Bool) (h : env.Apt s) :
    (missingComma start semicolonSeparates).Goes env false 0 s := by
  have g := Going.start 0 h
  have hlast (t : ParserState) (g : Going env false 0 s t []) :
      Ends (do if (← nodePos) == start then nextToken) env t fun _ u => Went env.file.text false 0 s u [] :=
    .nodePos (.ite (fun _ => g.only (nextToken_goes g.apt)) fun _ => g.went)
  refine g.step (expectPunct_goes .comma h) fun _ t g => ?_
  refine .ite (fun _ => .isAt (.ite (fun _ => .afterLineBreak (.ite (fun _ => ?_) fun _ => ?_)) fun _ => ?_))
    fun _ => hlast t g
  · exact g.step (nextToken_goes g.apt) fun _ u g => hlast u g
  · exact hlast t g
  · exact hlast t g

theorem separatedTurn_goes {sofar : Separated} (semicolonSeparates : Bool)
    (helement : ∀ s, env.Apt s → element.Goes env took k s)
    (g : Going env false k r s (readParts sofar.read)) :
    (separatedTurn list element semicolonSeparates sofar).Ends env s
      (Turn.Comes (fun sofar t => Going env false k r t (readParts sofar.read))
        fun sofar t => Going env false k r t (readParts sofar.read)) := by
  refine g.ask (startsElement_orderly list false) fun _ t g => .ite (fun _ => ?_) fun _ => ?_
  · refine .nodePos (g.step (helement t g.apt) fun id u g => ?_)
    have g : Going env false k r u (readParts (id :: sofar.read)) := g.parts (by simp)
    refine g.acceptPunct (fun v g => .pure g.loosen) ?_
    refine g.ask (endsList_orderly list) fun _ v g => .ite (fun _ => .pure g) fun _ => ?_
    exact (missingComma_goes _ semicolonSeparates g.apt).bind fun _ w hw => .pure (g.goOn hw)
  · refine g.ask (endsList_orderly list) fun _ u g => .ite (fun _ => .pure g) fun _ => ?_
    exact (giveUp_dirty list g.apt).bind fun _ v hv => .ite (fun _ => g.dirty hv) fun _ => g.dirty hv

theorem separatedWith_goes (semicolonSeparates : Bool) (h : env.Apt s)
    (helement : ∀ s, env.Apt s → element.Goes env took k s) :
    (separatedWith list element semicolonSeparates).Goes env false k s := by
  have hstart : Going env false k (s.withLists (list :: s.scope.openLists)) _
      (readParts ({} : Separated).read) := .start k (h.inScope _)
  have hloop : (repeating {} (separatedTurn list element semicolonSeparates)).Ends env _ _ :=
    hstart.loop (fun sofar => readParts sofar.read) fun _ _ g =>
      separatedTurn_goes semicolonSeparates helement g
  refine Ends.inList (.nodePos (hloop.bind fun sofar t g => .nodePos (Ends.pure ?_)))
  exact (g.went.array rfl).inScope (r := s) rfl rfl

theorem separated_goes (h : env.Apt s) (helement : ∀ s, env.Apt s → element.Goes env took k s) :
    (separated list element).Goes env false k s :=
  separatedWith_goes false h helement

theorem missingList_goes (h : env.Apt s) : missingList.Goes env false 0 s :=
  Ends.nodePos (Ends.pure ((Went.refl h.fine).parts rfl))

theorem bracketed_goes {opening closing : Punctuator} (h : env.Apt s)
    (helement : ∀ s, env.Apt s → element.Goes env took k s) :
    (bracketed list element opening closing).Goes env true k s := by
  refine (Going.start k h).stepTook (expectPunct_goes opening h) fun _ t g => ?_
  refine .ite (fun _ => ?_) fun _ => ?_
  · refine g.step (separated_goes g.apt helement) fun nodes t g => ?_
    exact g.step (expectPunct_goes closing g.apt) fun _ t g => g.done (by simp)
  · exact g.only (missingList_goes g.apt)

end Parser

end ScriptSyntax
