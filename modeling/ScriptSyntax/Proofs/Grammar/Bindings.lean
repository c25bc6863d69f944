/-
  ScriptSyntax/Proofs/Grammar/Bindings.lean
  =========================================
  Patterns and lists of declared variables.

  One node here is not finished from its parts in their order: an element of an
  object pattern that has both dots and a property name.
-/
import ScriptSyntax.Proofs.Grammar.Signatures
import ScriptSyntax.Grammar.Bindings

namespace ScriptSyntax

namespace Arena

variable {a : Arena}

/-- A node fits that names its second part first, and it is then out of order. -/
theorem fits_of_swapped {n first : Node} {c d : NodeId} {ps : List Part}
    (hparts : n.parts = .node d :: .node c :: ps)
    (hspan : a.SpansParts n.pos (.node c :: .node d :: ps) n.stop)
    (hdistinct : (childrenOf (.node c :: .node d :: ps)).Nodup) (hfirst : a.get? c = some first)
    (hroom : first.pos < first.stop) (hspreads : n.payload.spreadsProperty = true) :
    (a.push n).Fits ⟨a.size⟩ n := by
  have hgrown := hspan.grows (grows_push a n)
  have hmem (p : Part) : p ∈ n.parts ↔ p ∈ (.node c :: .node d :: ps) := by
    simp only [hparts, List.mem_cons]
    exact or_left_comm
  have hchildren : n.children = d :: c :: childrenOf ps := by simp [Node.children_eq, hparts]
  refine ⟨hspan.le, fun e he => ?_, ?_, fun p hp => hgrown.of_mem ((hmem p).mp hp), ?_⟩
  · have he : e ∈ childrenOf (.node c :: .node d :: ps) := by
      rw [hchildren] at he
      simp only [childrenOf_node, List.mem_cons] at he ⊢
      exact or_left_comm.mp he
    obtain ⟨child, hchild, -⟩ := hspan.children.get?_of_mem he
    exact lt_size_of_get? hchild
  · rw [hchildren]
    exact (List.Perm.swap c d _).nodup_iff.mpr hdistinct
  · rw [hchildren, hspreads]
    refine iff_of_false (fun horder => ?_) nofun
    obtain ⟨m, m', hm, hm', hle⟩ := horder.1
    obtain ⟨first', hfirst', -, -, second, hsecond, hle', hroom', -⟩ := hgrown
    cases hfirst'.symm.trans ((grows_push a n).get? hfirst)
    cases hm.symm.trans hsecond
    cases hm'.symm.trans hfirst'
    omega

end Arena

namespace Parser

variable {env : Surroundings} {rank : Nat} {took : Bool} {r m s t : ParserState}
variable {items : List Part}

/-! ## 1. Patterns -/

theorem arrayBindingElement_gives (h : env.Ready Production.topRank s) :
    arrayBindingElement.Gives env false s s := by
  have g := Sofar.start h
  refine .nodePos (.isAt (.ite (fun _ => ?_) fun _ => ?_))
  · exact g.finishProduction rfl rfl rfl
  refine g.step (acceptToken_gives _ g.ready.ok) fun dots t g => ?_
  refine g.step (parse_gives .bindingName g.ready (by decide) trivial) fun name t g => ?_
  refine g.step (initializer_gives g.ready) fun initializer t g => ?_
  exact g.finishProduction rfl (by simp) (Bool.and_false _)

/-- A pattern is read where its bracket opens. -/
theorem arrayBindingPattern_gives (h : env.Ready rank s)
    (hkind : s.token.kind = .punct .openBracket) : arrayBindingPattern.Gives env false s s := by
  refine .nodePos ((Sofar.start h).stepTook (expectPunct_takes h.ok hkind) fun _ t g => ?_)
  have helement : Reads env Production.topRank false .arrayBindingElements arrayBindingElement :=
    fun _ hs _ => arrayBindingElement_gives hs
  refine g.step (separated_gives g.ready helement) fun list t g => ?_
  refine g.step (expectPunct_gives _ g.ready.ok) fun _ t g => ?_
  exact g.loosen.finishProduction rfl (by simp [Payload.fields]) rfl

/-- The element of an object pattern that has both dots and a property name. -/
theorem finishSpread_ends {dots property name : NodeId} {initializer : Option NodeId} {n : Node}
    (h : Run env.file.text r s
      (.node dots :: .node property :: .node name :: held initializer))
    (hdots : s.arena.get? dots = some n) (hroom : n.pos < n.stop) :
    (finishProduction .bindingElement r.pos
      (.variableLike { propertyName := property, dots, name, initializer })).Ends env s
      fun id t => Run env.file.text r t [.node id] := by
  unfold Ends finishProduction finishNode
  rw [finish_eq _ h.forward, finishAt_eq]
  have hchildren (c : NodeId) (flags : NodeFlags) : c ∈ Node.children {
        kind := .node .bindingElement, pos := r.pos, stop := s.pos, flags
        payload := .variableLike { propertyName := property, dots, name, initializer } }
      ↔ c ∈ childrenOf (.node dots :: .node property :: .node name :: held initializer) := by
    simp [Node.children_eq, Node.parts_eq, or_left_comm]
  refine h.finishFits ?_ (fun c hc => (hchildren c _).mp hc) ?_ (Nat.le_refl _) (Nat.le_refl _) ?_ ?_
    (Node.sourced_of_isToken rfl) fun _ => Node.lawful_of_isRuled rfl
  · refine Arena.fits_of_swapped ?_ h.placed h.distinct hdots hroom rfl
    simp [Node.parts_eq]
  · intro c hc hno
    exact absurd ((hchildren c _).mpr hc) hno
  · intro hpending
    simp [flagsAt, hpending]
  · intro hmarked
    exact h.ok.reported (.inl (by simpa [flagsAt] using hmarked))

theorem finishElement_ends {dots property initializer : Option NodeId} {name : NodeId}
    (h : Run env.file.text r s
      (held dots ++ (held property ++ .node name :: held initializer)))
    (hdots : ∀ id, dots = some id → ∃ n, s.arena.get? id = some n ∧ n.pos < n.stop) :
    (finishProduction .bindingElement r.pos
      (.variableLike { propertyName := property, dots, name, initializer })).Ends env s
      fun id t => Run env.file.text r t [.node id] := by
  cases dots with
  | none => exact (finishProduction_ends h rfl (by simp) rfl).mono fun _ _ ht => ht.run
  | some dots =>
    cases property with
    | none => exact (finishProduction_ends h rfl (by simp) rfl).mono fun _ _ ht => ht.run
    | some property =>
      obtain ⟨n, hn, hroom⟩ := hdots dots rfl
      exact finishSpread_ends h hn hroom

theorem objectBindingElement_gives (h : env.Ready Production.topRank s) :
    objectBindingElement.Gives env false s s := by
  refine .nodePos ((acceptToken_ends h.ok).bind fun dots t ht => ?_)
  have hdots : Run env.file.text s t (held dots)
      ∧ ∀ id, dots = some id → ∃ n, t.arena.get? id = some n ∧ n.pos < n.stop := by
    rcases ht with ⟨id, rfl, hkind, ht⟩ | ⟨rfl, -, rfl⟩
    · refine ⟨ht.run, fun _ hid => ?_⟩
      cases hid
      obtain ⟨n, hn, -, hpos, hstop, -⟩ := ht.node
      exact ⟨n, hn, by rw [hpos, hstop]; exact ht.pos_lt h.ok (by simp [hkind])⟩
    · exact ⟨.refl h.ok, nofun⟩
  have g := Sofar.start (h.run hdots.1)
  refine .ask (isIdentifier_inquires (o := true).asks g.ready.ok) ?_
  refine g.step (propertyName_gives g.ready) fun first u g => ?_
  extract_lets rest
  refine .via (P := fun names v => Sofar env Production.topRank false t t v (held names)) rest
    (fun (property, name) v g => ?_) fun hrest => .isAt (.ite (fun _ => ?_) fun _ => ?_)
  · refine g.step (initializer_gives g.ready) fun initializer w g => ?_
    refine (finishElement_ends (by simpa using hdots.1.trans g.run) fun id hid => ?_).mono
      fun id x hx => hx.handed
    obtain ⟨n, hn, hroom⟩ := hdots.2 id hid
    exact ⟨n, g.run.grows.get? hn, hroom⟩
  · exact hrest (none, first) u (g.parts (by simp))
  · refine g.step (expectPunct_gives _ g.ready.ok) fun _ v g => ?_
    refine g.step (parse_gives .bindingName g.ready (by decide) trivial) fun name v g => ?_
    exact hrest (some first, name) v (g.parts (by simp))

/-- A pattern is read where its brace opens. -/
theorem objectBindingPattern_gives (h : env.Ready rank s)
    (hkind : s.token.kind = .punct .openBrace) : objectBindingPattern.Gives env false s s := by
  refine .nodePos ((Sofar.start h).stepTook (expectPunct_takes h.ok hkind) fun _ t g => ?_)
  have helement : Reads env Production.topRank false .objectBindingElements objectBindingElement :=
    fun _ hs _ => objectBindingElement_gives hs
  refine g.step (separated_gives g.ready helement) fun list t g => ?_
  refine g.step (expectPunct_gives _ g.ready.ok) fun _ t g => ?_
  exact g.loosen.finishProduction rfl (by simp [Payload.fields]) rfl

theorem bindingName_gives (h : env.Ready rank s) : bindingName.Gives env false s s := by
  refine .kind ?_
  split
  · exact arrayBindingPattern_gives h ‹_›
  · exact objectBindingPattern_gives h ‹_›
  · exact identifier_gives h.ok

/-! ## 2. Declared variables -/

theorem variableDeclaration_gives (h : env.Ready Production.topRank s) :
    variableDeclaration.Gives env false s s := by
  refine .nodePos ((Sofar.start h).step (parse_gives .bindingName h (by decide) trivial)
    fun name t g => ?_)
  refine g.step (typeAnnotation_gives g.ready) fun type t g => .kind ?_
  extract_lets rest
  refine g.fork rest (fun initializer t g => ?_) fun hrest => .ite (fun _ => ?_) fun _ => ?_
  · exact g.finishProduction rfl (by simp) rfl
  · exact hrest none t (g.parts (by simp))
  · exact g.step (initializer_gives g.ready) hrest

theorem loopEndAhead_scouts {o : Bool} : Scouts o loopEndAhead :=
  isIdentifier_inquires.toScouts.afterNext.bind fun _ =>
    .ite (nextKind_scouts.bind fun _ => .pure _) (.pure _)

theorem ofFollowsNothing_inquires {o : Bool} : Inquires o ofFollowsNothing :=
  (Inquires.isAtKeyword _).bind fun _ => .ite (.lookAhead loopEndAhead_scouts) (.pure _)

theorem hasError_declarationFlags (k : Kind) : (declarationFlags k).hasError = false := by
  unfold declarationFlags
  split <;> rfl

/-- A list of declared variables takes the keyword in front of it. -/
theorem variableDeclarationList_takes (inLoopHead : Bool) (h : env.Ready rank s)
    (hkind : s.token.kind ≠ .endOfFile) :
    (variableDeclarationList inLoopHead).Gives env true s s := by
  refine .token ((Sofar.start h).stepTook (nextToken_takes h.ok hkind) fun _ t g => ?_)
  refine .ask (ofFollowsNothing_inquires (o := true).asks g.ready.ok) ?_
  extract_lets rest
  refine g.fork rest (fun declarations t g => ?_) fun hrest => .ite (fun _ => ?_) fun _ => ?_
  · exact g.finishFlagged rfl (by simp [Payload.fields]) rfl (hasError_declarationFlags _)
  · exact g.step (missingList_gives g.ready.ok) hrest
  · refine g.step (.withContext ?_) hrest
    exact separated_gives (g.ready.inContext _) fun _ hs _ => variableDeclaration_gives hs

theorem semicolon_gives (h : s.Ok env.file.text) : semicolon.Gives env false s s := by
  refine .ask (canEndStatement_inquires (o := true).asks h) (.ite (fun _ => ?_) fun _ => ?_)
  · exact (acceptPunct_gives _ h).bind fun _ _ ht => ht
  · exact (expectPunct_gives _ h).bind fun _ _ ht => ht

theorem variableStatement_takes {start : DeclarationStart}
    (g : Sofar env rank took r s s (held start)) (hpos : start.pos = r.pos)
    (hkind : s.token.kind ≠ .endOfFile) : (variableStatement start).Gives env true r s := by
  refine g.stepTook (variableDeclarationList_takes false g.ready hkind) fun declarations t g => ?_
  refine g.step (semicolon_gives g.ready.ok) fun _ t g => ?_
  exact g.finishDeclaration hpos (by simp [Payload.fields]) rfl

end Parser

end ScriptSyntax
