/-
  ScriptSyntax/Proofs/Grammar/Signatures.lean
  ===========================================
  Decorators, modifiers, parameters and return types.
-/
import ScriptSyntax.Proofs.Grammar.Lists
import ScriptSyntax.Grammar.Signatures

namespace ScriptSyntax

namespace Parser

variable {env : Surroundings} {rank : Nat} {took : Bool} {r m s t : ParserState}
variable {items : List Part}

/-! ## 1. Modifiers -/

theorem defaultIsModifier_ends (h : s.Ok env.file.text) (hkind : s.token.kind ≠ .endOfFile) :
    defaultIsModifier.Ends env s fun _ t => Skipped env.file.text s t := by
  refine (nextKind_ends h hkind).bind fun k t ht => ?_
  split
  any_goals with_reducible exact .pure ht.2
  · exact (Inquires.peek (Inquires.onSameLine (.isAtKeyword _)).toScouts).skipped ht.2
  · exact (Inquires.peek (Inquires.onSameLine (.isAtKeyword _)).toScouts).skipped ht.2

/-- Whatever decides that a token is a modifier reads over it. -/
theorem tokenIsModifier_ends (h : s.Ok env.file.text) (hkind : s.token.kind ≠ .endOfFile) :
    tokenIsModifier.Ends env s fun _ t => Skipped env.file.text s t := by
  refine .kind ?_
  split
  · exact (nextKind_ends h hkind).bind fun k t ht => .pure ht.2
  · refine (nextKind_ends h hkind).bind fun k t ht => ?_
    split
    any_goals with_reducible exact .pure ht.2
    · exact (Inquires.lookAhead defaultIsModifier_scouts).skipped ht.2
    · exact canFollowModifier_inquires.skipped ht.2
  · exact defaultIsModifier_ends h hkind
  · exact (nextToken_ends h hkind).bind fun _ t ht =>
      canFollowModifier_inquires.skipped ht
  · exact (nextToken_ends h hkind).bind fun _ t ht =>
      (Inquires.onSameLine canFollowModifier_inquires).skipped ht

theorem acceptModifier_ends (h : s.Ok env.file.text) :
    acceptModifier.Ends env s fun found t =>
      (found = true ∧ Skipped env.file.text s t) ∨ (found = false ∧ Still env.file.text s t) := by
  refine .kind (.ite (fun hmodifier => ?_) fun _ => .inr ⟨rfl, .refl h⟩)
  have hkind := Kind.ne_endOfFile_of_isModifier hmodifier
  exact attemptIf_ends h ((tokenIsModifier_ends h hkind).mono fun _ t ht =>
    ⟨ht.toGrows, fun _ => ht⟩)

theorem acceptContextualWord_ends (k : Keyword) (h : s.Ok env.file.text) :
    (acceptContextualWord k).Ends env s fun found t =>
      (found = true ∧ Skipped env.file.text s t) ∨ (found = false ∧ Still env.file.text s t) := by
  refine .isAt (.ite (fun hword => ?_) fun _ => .inr ⟨rfl, .refl h⟩)
  have hkind : s.token.kind ≠ .endOfFile := by
    rw [beq_iff_eq.mp hword]
    nofun
  exact attemptIf_ends h ((tokenIsModifier_ends h hkind).mono fun _ t ht =>
    ⟨ht.toGrows, fun _ => ht⟩)

/-- There is a list, and it is not empty. -/
def IsFilled (list : Option NodeArray) : Prop := ∃ nodes, list = some nodes ∧ nodes.nodes ≠ []

theorem IsFilled.isSome {list : Option NodeArray} (h : IsFilled list) : list.isSome = true := by
  obtain ⟨_, rfl, -⟩ := h
  rfl

theorem nonEmptyArray_ends {nodes : List NodeId} (h : Run env.file.text r s (readParts nodes)) :
    (nonEmptyArray r.pos nodes).Ends env s fun list t =>
      t = s ∧ Run env.file.text r t (held list) ∧ (nodes ≠ [] → IsFilled list) := by
  refine .ite (fun hempty => ⟨rfl, ?_, fun hne => ?_⟩) fun _ => ⟨rfl, h.array rfl rfl, fun hne => ?_⟩
  · rw [List.isEmpty_iff.mp hempty] at h
    exact h
  · exact absurd (List.isEmpty_iff.mp hempty) hne
  · exact ⟨_, rfl, by simpa using hne⟩

/-- A token has been read over, or there was no modifier. -/
def Modified (constAllowed : Bool) (env : Surroundings) (s t : ParserState) : Prop :=
  s.pos < t.pos
    ∨ (t.token = s.token ∧ (constAllowed = false → acceptModifier.answer env s = false))

/-- Modifiers are read over one by one. What is kept by reading over each of them holds where there is
no further one. -/
theorem modifiers_keep {J : ParserState → Prop} {D : Token → Prop} (constAllowed : Bool)
    (h : env.Ready rank s) (hstart : J s) (hsame : ∀ t u, Alike true env t env u → J t → J u)
    (hnext : ∀ t, t.Ok env.file.text → (constAllowed = false → acceptModifier.answer env t = true) →
      J t → J (nextToken env t).2)
    (hstop : ∀ t, (constAllowed = false → acceptModifier.answer env t = false) → J t → D t.token) :
    (modifiers constAllowed).Ends env s fun list t => Run env.file.text s t (held list)
      ∧ Modified constAllowed env s t ∧ (s.pos < t.pos → list.isSome = true) ∧ D t.token := by
  refine .nodePos (Ends.bind (repeating_ends
    (P := fun read t => Sofar env rank false s s t (readParts read)
      ∧ ((s.pos < t.pos ∧ read ≠ []) ∨ t = s) ∧ J t)
    (Q := fun read t => Sofar env rank false s s t (readParts read)
      ∧ Modified constAllowed env s t ∧ (s.pos < t.pos → read ≠ []) ∧ D t.token)
    ⟨.start h, .inr rfl, hstart⟩ (fun _ _ ht => ht.1.ready.ok.pos_le_size) fun read t ⟨g, hfirst, hJ⟩ => ?_)
    fun read t ht => ?_)
  · refine .token ?_
    extract_lets rest
    refine .via (P := fun found u =>
      (found = true ∧ Skipped env.file.text t u ∧ (constAllowed = false → acceptModifier.answer env t = true))
      ∨ (found = false ∧ Still env.file.text t u
        ∧ (constAllowed = false → acceptModifier.answer env t = false)))
      rest (fun found u hu => ?_) fun hrest => .ite (fun hconst => ?_) fun hconst => ?_
    · rcases hu with ⟨rfl, hu, hanswer⟩ | ⟨rfl, hu, hanswer⟩
      · have hsourced (n : Node) (hkind : n.kind = t.token.kind) (hpos : n.pos = t.pos)
            (hpayload : n.payload = .token) : n.SourcedAt env.file.text t u :=
          Node.sourcedAt_of_read rfl hu.arena hu.token hpos (.inl hkind) (by simp [hpayload])
            fun _ _ _ hidentifier => by simp [hpayload] at hidentifier
        refine (finish_ends hu.toRun rfl rfl rfl (by nofun) (hsourced _ rfl rfl rfl)
          fun ht => Node.lawful_of_isNode ht).bind fun id v hv => ?_
        have hread : t.pos < v.pos :=
          Nat.lt_of_lt_of_eq hu.took (congrArg Token.fullStart hv.token.symm)
        have htook : s.pos < v.pos := Nat.lt_of_le_of_lt g.forward hread
        have hAlike : Alike true env (nextToken env t).2 env v := by
          refine .of_eq ?_ (hv.run.scope_eq.trans (scope_advance .scan env t).symm)
          rw [hv.token, hu.token]
          exact (token_advance .scan env t).symm
        refine .pure ⟨⟨by simpa using g.go hv.run, .inl ⟨htook, List.cons_ne_nil _ _⟩, ?_⟩, hread⟩
        exact hsame _ _ hAlike (hnext t g.ready.ok hanswer hJ)
      · refine .pure ⟨⟨g.goOn hu.toRun, ?_⟩, hu.forward⟩
        have hstopped : D u.token := hu.token ▸ hstop t hanswer hJ
        rcases hfirst with ⟨hread, hne⟩ | rfl
        · exact ⟨.inl (Nat.lt_of_lt_of_le hread hu.forward), fun _ => hne, hstopped⟩
        · refine ⟨.inr ⟨hu.token, hanswer⟩, fun htook => ?_, hstopped⟩
          exact absurd htook (Nat.not_lt_of_le (Nat.le_of_eq (congrArg Token.fullStart hu.token)))
    · simp only [Bool.and_eq_true, beq_iff_eq] at hconst
      have hno {b : Bool} (hb : constAllowed = false) : acceptModifier.answer env t = b :=
        absurd (hconst.1.symm.trans hb) Bool.false_ne_true.symm
      refine (attemptIf_afterNext_ends (Inquires.onSameLine canFollowModifier_inquires) g.ready.ok
        (by simp [hconst.2])).bind fun found u hu => hrest found u ?_
      exact hu.imp (fun hyes => ⟨hyes.1, hyes.2, hno⟩) fun hleft => ⟨hleft.1, hleft.2, hno⟩
    · refine Ends.bind (P := fun found u => found = acceptModifier.answer env t ∧
        ((found = true ∧ Skipped env.file.text t u) ∨ (found = false ∧ Still env.file.text t u)))
        ⟨rfl, acceptModifier_ends g.ready.ok⟩ fun found u hu => hrest found u ?_
      exact hu.2.imp (fun hyes => ⟨hyes.1, hyes.2, fun _ => hu.1 ▸ hyes.1⟩)
        fun hleft => ⟨hleft.1, hleft.2, fun _ => hu.1 ▸ hleft.1⟩
  · obtain ⟨⟨g, hmodified, hne, hstopped⟩, -⟩ := ht
    refine (nonEmptyArray_ends g.run).mono fun list u hu => ?_
    obtain ⟨rfl, hlist, hfilled⟩ := hu
    exact ⟨hlist, hmodified, fun htook => (hfilled (hne htook)).isSome, hstopped⟩

/-- After modifiers a token has been read over, or there were none. -/
theorem modifiers_ends (constAllowed : Bool) (h : env.Ready rank s) :
    (modifiers constAllowed).Ends env s fun list t => Run env.file.text s t (held list)
      ∧ Modified constAllowed env s t ∧ (s.pos < t.pos → list.isSome = true) :=
  (modifiers_keep (J := fun _ => True) (D := fun _ => True) constAllowed h trivial
    (fun _ _ _ _ => trivial) (fun _ _ _ _ => trivial) fun _ _ _ => trivial).mono
      fun _ _ ht => ⟨ht.1, ht.2.1, ht.2.2.1⟩

theorem modifiers_gives (constAllowed : Bool) (h : env.Ready rank s) :
    (modifiers constAllowed).Gives env false s s :=
  (modifiers_ends constAllowed h).mono fun _ _ ht => ht.1.handed

/-- The nodes of a list that was handed over are there. -/
theorem lt_size_of_list {list : NodeArray} (g : Sofar env rank took r m s items)
    (hlist : .array list ∈ items) : ∀ id ∈ list.nodes, id.index < s.arena.size := by
  intro id hid
  exact g.run.there id (List.mem_flatMap.mpr ⟨_, hlist, hid⟩)

/-- Whether a word is among nodes that are there is answered from the tree. -/
theorem anyKind_ends (k : Kind) {ids : List NodeId} (h : ∀ id ∈ ids, id.index < s.arena.size) :
    Ends (ids.anyM fun id => return (← kindOf id) == k) env s fun found t =>
      found = ids.any (fun id => s.arena.kindOf id == k) ∧ t = s := by
  induction ids with
  | nil => exact ⟨rfl, rfl⟩
  | cons id ids ih =>
    obtain ⟨n, hn⟩ : ∃ n, s.arena.get? id = some n :=
      ⟨_, Array.getElem?_eq_getElem (h id List.mem_cons_self)⟩
    have hkind : s.arena.kindOf id = n.kind := by simp [Arena.kindOf, hn]
    refine Ends.bind (P := fun b t => b = (n.kind == k) ∧ t = s) (.kindOf hn ⟨rfl, rfl⟩) ?_
    rintro b _ ⟨hb, rfl⟩
    rw [List.any_cons, hkind, ← hb]
    cases b with
    | true => exact ⟨rfl, rfl⟩
    | false => exact ih fun id hid => h id (List.mem_cons_of_mem _ hid)

/-- The words among modifiers can be looked up. -/
theorem hasModifier_ends {list : Option NodeArray} (k : Keyword)
    (g : Sofar env rank took r m s items) (hlist : held list ⊆ items) :
    (hasModifier list k).Ends env s fun found t => t = s
      ∧ found = list.any fun modifiers => modifiers.nodes.any fun id => s.arena.kindOf id == .keyword k := by
  cases list with
  | none => exact ⟨rfl, rfl⟩
  | some modifiers =>
    exact (anyKind_ends _ (lt_size_of_list g (hlist (List.mem_singleton_self _)))).mono
      fun _ _ h => h.symm

theorem hasModifier_asks {list : Option NodeArray} (k : Keyword)
    (g : Sofar env rank took r m s items) (hlist : held list ⊆ items) :
    (hasModifier list k).Asks env s :=
  (hasModifier_ends k g hlist).1

/-- How a function is read: its asterisk and its modifiers make it what it is, and its parentheses
need not be there. -/
structure Moded (asterisk : Option NodeId) (list : Option NodeArray) (s : ParserState)
    (mode : SignatureMode) : Prop where
  isGenerator_eq : mode.isGenerator = asterisk.isSome
  isAsync_eq : ∀ (a : Arena) (n : Node), s.arena.Grows a → n.modifiers = list →
    a.isAsync n = mode.isAsync
  lax : mode.strictParens = false

theorem functionMode_ends {list : Option NodeArray} (asterisk : Option NodeId)
    (g : Sofar env rank took r m s items) (hlist : held list ⊆ items) :
    (functionMode asterisk list).Ends env s fun mode t => t = s ∧ Moded asterisk list s mode := by
  refine (hasModifier_ends .asyncKw g hlist).bind fun found t ⟨ht, hfound⟩ => ?_
  refine .pure ⟨ht, rfl, fun a n hgrows hn => ?_, rfl⟩
  have hin : ∀ modifiers, n.modifiers = some modifiers →
      ∀ id ∈ modifiers.nodes, id.index < s.arena.size := by
    intro modifiers hmodifiers
    refine lt_size_of_list g (hlist ?_)
    rw [← hn, hmodifiers]
    exact List.mem_singleton_self _
  rw [hgrows.isAsync_eq hin]
  refine Bool.eq_iff_iff.mpr (Arena.isAsync_eq_true_iff.trans ?_)
  show _ ↔ found = true
  rw [hfound, hn]
  cases list <;> simp

theorem Moded.grows {asterisk : Option NodeId} {list : Option NodeArray} {mode : SignatureMode}
    (h : Moded asterisk list s mode) (hgrows : s.arena.Grows t.arena) : Moded asterisk list t mode where
  isGenerator_eq := h.isGenerator_eq
  isAsync_eq a n hab hn := h.isAsync_eq a n (hgrows.trans hab) hn
  lax := h.lax

/-- Without modifiers and an asterisk a function is neither a generator nor asynchronous. -/
theorem moded_none (s : ParserState) : Moded none none s {} where
  isGenerator_eq := rfl
  isAsync_eq a n _ hn := by simp [Arena.isAsync, Arena.modifiersOf, hn]
  lax := rfl

/-- Before an arrow function only one word may stand, and it is taken. -/
theorem arrowModifiers_ends (h : env.Ready rank s) :
    arrowModifiers.Ends env s fun list t => Moded none list t { isAsync := list.isSome }
      ∧ ((s.token.kind = .keyword .asyncKw ∧ Handed env.file.text true s s t (held list))
        ∨ (s.token.kind ≠ .keyword .asyncKw ∧ list = none ∧ t = s)) := by
  refine .isAt (.ite (fun hasync => ?_) fun hno =>
    .pure ⟨moded_none s, .inr ⟨by simpa using hno, rfl, rfl⟩⟩)
  · have hasync := beq_iff_eq.mp hasync
    refine .nodePos ((tokenNode_ends h.ok).bind fun word t ht => .nodePos (.pure ⟨?_, .inl ⟨hasync, ?_⟩⟩))
    · refine ⟨rfl, fun a n hgrows hn => Arena.isAsync_eq_true_iff.mpr ?_, rfl⟩
      obtain ⟨m, hm, hkind, -⟩ := ht.node
      refine ⟨_, hn, word, List.mem_singleton_self _, ?_⟩
      simp [Arena.kindOf, hgrows.get? hm, hkind, hasync]
    · exact (Run.array ht.run rfl rfl).handedTook (ht.pos_lt h.ok (by simp [hasync]))

/-! ## 2. Decorators -/

/-- Decorators have taken a token where there is an at sign, and have changed nothing elsewhere. -/
theorem decorators_ends (h : env.Ready rank s) :
    decorators.Ends env s fun list t => Run env.file.text s t (held list)
      ∧ ((s.token.kind = .punct .atSign ∧ s.pos < t.pos ∧ IsFilled list)
        ∨ (s.token.kind ≠ .punct .atSign ∧ t = s)) := by
  refine .nodePos (Ends.bind (repeating_ends
    (P := fun read t => Sofar env rank false s s t (readParts read)
      ∧ ((s.token.kind = .punct .atSign ∧ s.pos < t.pos ∧ read ≠ []) ∨ t = s))
    (Q := fun read t => Sofar env rank false s s t (readParts read)
      ∧ ((s.token.kind = .punct .atSign ∧ s.pos < t.pos ∧ read ≠ [])
        ∨ (s.token.kind ≠ .punct .atSign ∧ t = s)))
    ⟨.start h, .inr rfl⟩ (fun _ _ ht => ht.1.ready.ok.pos_le_size) fun read t ⟨g, hfirst⟩ => ?_)
    fun read t ht => ?_)
  · refine .nodePos (g.here.acceptPunct (fun u hkind g' => ?_) fun hkind => ?_)
    · refine g'.step (parseIn_gives .leftHandSide g'.ready (by decide) trivial) fun inner u g' => ?_
      refine (g'.finishProduction rfl (by simp [Payload.fields]) rfl).bind fun id v hv => ?_
      refine .pure ⟨⟨by simpa using g.go hv.run, .inl ⟨?_, ?_, List.cons_ne_nil _ _⟩⟩, hv.ahead rfl⟩
      · rcases hfirst with ⟨hat, -⟩ | rfl
        · exact hat
        · exact hkind
      · exact Nat.lt_of_le_of_lt g.forward (hv.ahead rfl)
    · refine .pure ⟨⟨g, hfirst.imp_right ?_⟩, Nat.le_refl _⟩
      rintro rfl
      exact ⟨hkind, rfl⟩
  · obtain ⟨⟨g, hdecorated⟩, -⟩ := ht
    refine (nonEmptyArray_ends g.run).mono fun list u hu => ?_
    obtain ⟨rfl, hlist, hfilled⟩ := hu
    refine ⟨hlist, hdecorated.imp_left ?_⟩
    rintro ⟨hat, htook, hne⟩
    exact ⟨hat, htook, hfilled hne⟩

theorem decorators_gives (h : env.Ready rank s) : decorators.Gives env false s s :=
  (decorators_ends h).mono fun _ _ ht => ht.1.handed

/-! ## 3. Annotations and initializers -/

theorem typeAnnotation_gives (h : env.Ready rank s) : typeAnnotation.Gives env false s s := by
  refine (Sofar.start h).acceptPunct (fun t _ g => ?_) fun _ => (Run.refl h.ok).handed
  refine g.step (parse_gives .type g.ready (by decide) trivial) fun type t g => ?_
  exact g.loosen.done rfl

theorem hasInitializer_asks (inParameter : Bool) (h : s.Ok env.file.text) :
    (hasInitializer inParameter).Asks env s := by
  refine .kind ?_
  split
  · rfl
  · exact .bind rfl fun _ => .ite rfl (.ite rfl (startsExpression_inquires.asks h))

theorem initializerIn_gives (inParameter : Bool) (h : env.Ready Production.topRank s) :
    (initializerIn inParameter).Gives env false s s := by
  refine .ask (hasInitializer_asks inParameter h.ok) (.ite (fun _ => ?_) fun _ =>
    (Run.refl h.ok).handed)
  refine (Sofar.start h).step (expectPunct_gives _ h.ok) fun _ t g => ?_
  refine g.step (parse_gives .assignment g.ready (by decide) trivial) fun value t g => ?_
  exact g.done rfl

theorem initializer_gives (h : env.Ready Production.topRank s) : initializer.Gives env false s s :=
  initializerIn_gives false h

/-! ## 4. Parameters -/

theorem thisParameter_gives {start : DeclarationStart} (g : Sofar env rank took r s s (held start))
    (hstart : start.pos = r.pos) (hkind : s.token.kind = .keyword .thisKw) :
    (thisParameter start).Gives env true r s := by
  refine (identifierIf_ends _ g.ready.ok fun _ => hkind ▸ rfl).bind fun name t ht => ?_
  have g := g.goTook ht.1.run (ht.2 rfl)
  refine g.step (typeAnnotation_gives g.ready) fun type t g => ?_
  exact g.finishDeclaration hstart (by simp) rfl

theorem skipStrayModifier_gives {name : NodeId} (list : Option NodeArray)
    (g : Sofar env rank took r m s items) (hname : .node name ∈ items) :
    (skipStrayModifier name list).Gives env false s s := by
  have hrefl := (Run.refl g.ready.ok).handed
  refine .ite (fun _ => g.isMissing hname fun n hn => .ite (fun _ => ?_) fun _ => hrefl) fun _ => hrefl
  refine .kind (.ite (fun _ => nextToken_gives g.ready.ok) fun _ => hrefl)

theorem parameter_gives (h : env.Ready Production.topRank s) : parameter.Gives env false s s := by
  refine .nodePos ((Sofar.start h).step (decorators_gives h) fun decorators t g => ?_)
  refine .isAt (.ite (fun hthis => ?_) fun _ => ?_)
  · have g' : Sofar env _ false s s t (held { pos := s.pos, decorators : DeclarationStart }) := g.parts (by simp)
    exact g.last (thisParameter_gives g'.mark rfl (beq_iff_eq.mp hthis))
  refine g.step (modifiers_gives false g.ready) fun modifiers t g => ?_
  refine g.step (acceptToken_gives _ g.ready.ok) fun dots t g => ?_
  refine g.step (parse_gives .bindingName g.ready (by decide) trivial) fun name t g => ?_
  refine g.step (skipStrayModifier_gives modifiers g (by simp)) fun _ t g => ?_
  refine g.step (acceptToken_gives _ g.ready.ok) fun questionMark t g => ?_
  refine g.step (typeAnnotation_gives g.ready) fun type t g => ?_
  refine g.step (initializerIn_gives true g.ready) fun initializer t g => ?_
  exact g.finishDeclaration rfl (by simp) (Bool.and_false _)

/-- Parameters are given up only where parentheses are strict. They take the parenthesis that opens
them. -/
theorem parameterList_ends (mode : SignatureMode) (h : env.Ready rank s) :
    (parameterList mode).Ends env s fun found t => s.Grows t
      ∧ (mode.strictParens = false → found.isSome = true)
      ∧ ∀ list, found = some list →
        Handed env.file.text (s.token.kind == .punct .openParen) s s t [.array list] := by
  refine (Sofar.start h).expectPunct (fun t hkind g => ?_) fun t hkind _ g => ?_
  · have hlist : (inFunction mode.isGenerator mode.isAsync (separated .parameters parameter)).Gives
        env false t t := by
      refine .withContext ?_
      exact separated_gives (g.ready.inContext _) fun u hu _ => parameter_gives hu
    refine g.step hlist fun list t g => ?_
    refine g.step (expectPunct_gives _ g.ready.ok) fun closed t g => ?_
    refine .ite (fun hgiven => ?_) fun _ => ?_
    · refine .pure ⟨g.run.toGrows, fun hlax => ?_, nofun⟩
      simp [hlax] at hgiven
    · refine .pure ⟨g.run.toGrows, fun _ => rfl, ?_⟩
      rintro _ ⟨⟩
      exact (g.parts (by simp)).loosen.toHanded
  · refine .ite nofun fun _ => .ite (fun hstrict => ?_) fun _ => ?_
    · refine .pure ⟨g.run.toGrows, fun hlax => ?_, nofun⟩
      simp [hlax] at hstrict
    · refine (missingList_gives g.ready.ok).bind fun list u hu => ?_
      refine .pure ⟨g.run.toGrows.trans hu.run.toGrows, fun _ => rfl, ?_⟩
      rintro _ ⟨⟩
      rw [beq_eq_false_iff_ne.mpr hkind]
      exact (g.go hu.run).toHanded

theorem typeParameter_gives (h : env.Ready rank s) : typeParameter.Gives env false s s := by
  refine .nodePos ((Sofar.start h).step (identifier_gives h.ok) fun name t g => ?_)
  extract_lets rest
  refine g.fork rest (fun constraint t g => ?_) fun hrest => g.acceptKeyword (fun u _ g' => ?_) ?_
  · unfold rest
    extract_lets rest
    refine g.fork rest (fun default t g => ?_) fun hrest => g.acceptPunct (fun u _ g' => ?_) ?_
    · exact g.finishProduction rfl (by simp [Payload.fields]) rfl
    · exact g'.step (parse_gives .type g'.ready (by decide) trivial) fun type v g' =>
        hrest (some type) v g'.weaken
    · exact fun _ => hrest none t (g.parts (by simp))
  · exact g'.step (parse_gives .type g'.ready (by decide) trivial) fun type v g' =>
      hrest (some type) v g'.weaken
  · exact fun _ => hrest none t (g.parts (by simp))

theorem typeParameters_ends (h : env.Ready rank s) :
    typeParameters.Ends env s fun list t =>
      (s.token.kind = .punct .lessThan ∧ Handed env.file.text true s s t (held list))
        ∨ (s.token.kind ≠ .punct .lessThan ∧ list = none ∧ t = s) := by
  refine .isAt (.ite (fun hkind => ?_) fun hkind => .inr ⟨by simpa using hkind, rfl, rfl⟩)
  have hkind := beq_iff_eq.mp hkind
  exact (bracketed_takes _ h (fun t ht _ => typeParameter_gives ht) hkind).bind fun list t ht =>
    .pure (.inl ⟨hkind, ht⟩)

theorem typeParameters_gives (h : env.Ready rank s) : typeParameters.Gives env false s s := by
  refine (typeParameters_ends h).mono fun list t ht => ?_
  rcases ht with ⟨-, ht⟩ | ⟨-, rfl, rfl⟩
  · exact ht.run.handed
  · exact (Run.refl h.ok).handed

/-! ## 5. Signatures -/

theorem predicateStart_ends (h : s.Ok env.file.text) :
    predicateStart.Ends env s fun name t =>
      s.Grows t ∧ ∀ id, name = some id → Handed env.file.text true s s t [.node id] := by
  refine (identifier_gives h).bind fun name t ht => .isAt (.ite (fun hkind => ?_) fun _ => ?_)
  · refine .afterLineBreak (.ite (fun _ => .pure ⟨ht.run.toGrows, nofun⟩) fun _ => ?_)
    have hkind : t.token.kind ≠ .endOfFile := by
      rw [beq_iff_eq.mp hkind]
      nofun
    refine (nextToken_ends ht.run.ok hkind).bind fun _ u hu => .pure ⟨ht.run.toGrows.trans hu.toGrows, ?_⟩
    rintro _ ⟨⟩
    have htook : s.pos < u.pos := Nat.lt_of_le_of_lt ht.forward hu.took
    exact (ht.run.before hu.toRun).handedTook htook
  · exact .pure ⟨ht.run.toGrows, nofun⟩

theorem returnType_gives (h : env.Ready rank s) (hrank : Production.type.rank < rank) :
    returnType.Gives env false s s := by
  refine .nodePos ?_
  extract_lets rest
  have g := Sofar.start h
  refine g.fork rest (fun name t g => ?_) fun hrest => ?_
  · refine g.step (parse_gives .type g.ready hrank trivial) fun type t g => ?_
    cases name with
    | some name => exact g.finishProduction rfl (by simp [Payload.fields]) rfl
    | none => exact g.done (by simp)
  · refine .ask (isIdentifier_inquires (o := true).asks h.ok) (.ite (fun _ => ?_) fun _ => ?_)
    · refine (attempt_ends h.ok (predicateStart_ends h.ok)).bind fun name t ht => ?_
      rcases ht with ⟨id, rfl, ht⟩ | ⟨rfl, ht⟩
      · exact hrest (some id) t (g.go ht.run)
      · exact hrest none t (g.goOn ht.toRun)
    · exact hrest none s g

theorem typeAfterArrow_gives (h : env.Ready rank s) (hrank : Production.type.rank < rank) :
    typeAfterArrow.Gives env false s s := by
  refine (Sofar.start h).step (expectPunct_gives _ h.ok) fun _ t g => ?_
  refine g.step (returnType_gives g.ready hrank) fun type t g => ?_
  exact g.done rfl

theorem typeAfterColon_gives (inType : Bool) (h : env.Ready rank s) :
    (typeAfterColon inType).Gives env false s s := by
  refine (Sofar.start h).acceptPunct (fun t _ g => ?_) fun _ => ?_
  · refine g.step (returnType_gives g.ready (by decide)) fun type t g => ?_
    exact g.loosen.done rfl
  have hnone := (Run.refl h.ok).handed
  refine .ite nofun fun _ =>
    .ite (fun _ => .isAt (.ite (fun harrow => ?_) fun _ => .pure hnone)) fun _ => .pure hnone
  have harrow := beq_iff_eq.mp harrow
  refine (expectedHere_ends h.ok (.punct .colon)).bind fun _ t ht => ?_
  have g := (Sofar.start h).goOn ht.toRun
  have hkind : t.token.kind ≠ .endOfFile := by
    rw [ht.token, harrow]
    nofun
  refine g.stepTook (nextToken_takes ht.ok hkind) fun _ t g => ?_
  refine g.step (returnType_gives g.ready (by decide)) fun type t g => ?_
  exact g.loosen.done rfl

/-- Does the token open the type parameters or the parameters of a signature? -/
def opensSignature (k : Kind) : Bool := k == .punct .openParen || k == .punct .lessThan

/-- A signature is given up only where parentheses are strict. It takes the token that opens it. -/
theorem signatureIf_ends {returns : SignatureMode → Parser (Option NodeId)} (mode : SignatureMode)
    (h : env.Ready rank s)
    (hreturns : ∀ t,
      env.Ready (if opensSignature s.token.kind = true then Production.topRank else rank) t →
        (returns mode).Gives env false t t) :
    (signatureIf returns mode).Ends env s fun found t => s.Grows t
      ∧ (mode.strictParens = false → found.isSome = true)
      ∧ ∀ shape, found = some shape →
        Handed env.file.text (opensSignature s.token.kind) s s t (held shape) := by
  let opens := opensSignature s.token.kind
  have hparameters (list : Option NodeArray) (t : ParserState) (hlist : (s.token.kind = .punct .lessThan
      ∧ Handed env.file.text true s s t (held list))
        ∨ (s.token.kind ≠ .punct .lessThan ∧ list = none ∧ t = s)) :
      (parameterList mode).Ends env t fun found u => s.Grows u
        ∧ (mode.strictParens = false → found.isSome = true)
        ∧ ∀ parameters, found = some parameters →
          Handed env.file.text opens s s u (held list ++ [Part.array parameters]) := by
    rcases hlist with ⟨hkind, ht⟩ | ⟨hkind, rfl, rfl⟩
    · have g := (Sofar.start h).resumeTook ht
      refine (parameterList_ends mode g.ready).mono fun found u hu =>
        ⟨ht.run.toGrows.trans hu.1, hu.2.1, ?_⟩
      exact fun parameters hfound => (g.go (hu.2.2 parameters hfound).run).loosen.toHanded
    · refine (parameterList_ends mode h).mono fun found u hu => ⟨hu.1, hu.2.1, ?_⟩
      intro parameters hfound
      have hopens : opens = (t.token.kind == .punct .openParen) := by
        simp [opens, opensSignature, hkind]
      exact hopens ▸ hu.2.2 parameters hfound
  refine (typeParameters_ends h).bind fun list t hlist => ?_
  refine (hparameters list t hlist).bind fun found u ⟨hgrows, hsome, hfound⟩ => ?_
  cases found with
  | none => exact .pure ⟨hgrows, hsome, nofun⟩
  | some parameters =>
    have hu := hfound parameters rfl
    have hready : env.Ready (if opens = true then Production.topRank else rank) u := by
      split
      · exact h.ofTook hu.run.ok (hu.ahead ‹_›)
      · exact h.run hu.run
    refine (hreturns u hready).bind fun type v hv => .pure ⟨hgrows.trans hv.run.toGrows, fun _ => rfl, ?_⟩
    rintro _ ⟨⟩
    refine ⟨?_, Nat.le_trans hu.forward hv.forward, fun htook => ?_⟩
    · simpa using hu.run.trans hv.run
    · exact Nat.lt_of_lt_of_le (hu.ahead htook) hv.forward

theorem signature_gives {mode : SignatureMode} (h : env.Ready rank s)
    (hlax : mode.strictParens = false) :
    (signature mode).Gives env (opensSignature s.token.kind) s s := by
  refine (signatureIf_ends mode h fun t ht => ?_).bind fun found t ⟨_, hsome, hfound⟩ => ?_
  · exact typeAfterColon_gives mode.inType ht
  obtain ⟨shape, rfl⟩ := Option.isSome_iff_exists.mp (hsome hlax)
  exact .pure (hfound shape rfl)

/-- A signature with an arrow may start with its return type only where a type may be read. -/
theorem arrowSignature_gives {mode : SignatureMode} (h : env.Ready rank s)
    (hlax : mode.strictParens = false)
    (hrank : opensSignature s.token.kind = true ∨ Production.type.rank < rank) :
    (arrowSignature mode).Gives env (opensSignature s.token.kind) s s := by
  refine (signatureIf_ends mode h fun t ht => typeAfterArrow_gives ht ?_).bind
    fun found t ⟨_, hsome, hfound⟩ => ?_
  · split
    · decide
    · simpa [*] using hrank
  · obtain ⟨shape, rfl⟩ := Option.isSome_iff_exists.mp (hsome hlax)
    exact .pure (hfound shape rfl)

end Parser

end ScriptSyntax
