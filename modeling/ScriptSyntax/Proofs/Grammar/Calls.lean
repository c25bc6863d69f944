/-
  ScriptSyntax/Proofs/Grammar/Calls.lean
  ======================================
  Calls of other productions, trial runs and nesting.

  A trial run that is not kept leaves nothing behind but names, so the errors and
  the marks made in it are gone together.
-/
import ScriptSyntax.Proofs.Grammar.Finishing

namespace ScriptSyntax

variable {text : Array Char} {env : Surroundings} {rank : Nat} {took : Bool}
variable {r m s t : ParserState} {items : List Part}

namespace Parser

variable {α β : Type} {P : α → ParserState → Prop} {Q : β → ParserState → Prop}

/-! ## 1. Finished nodes -/

theorem node_eq {id : NodeId} {n : Node} (hn : s.arena.get? id = some n) :
    node id env s = (n, s) := by
  have hnode : (Parser.node id).Ends env s fun m t => m = n ∧ t = s := by
    refine .get ?_
    rw [hn]
    exact .pure ⟨rfl, rfl⟩
  exact Prod.ext hnode.1 hnode.2

theorem Ends.node {f : Node → Parser β} {id : NodeId} {n : Node} (hn : s.arena.get? id = some n)
    (h : (f n).Ends env s Q) : (Parser.node id >>= f).Ends env s Q := by
  show (f (Parser.node id env s).1).Ends env (Parser.node id env s).2 Q
  rw [node_eq hn]
  exact h

theorem Ends.kindOf {f : Kind → Parser β} {id : NodeId} {n : Node} (hn : s.arena.get? id = some n)
    (h : (f n.kind).Ends env s Q) : (Parser.kindOf id >>= f).Ends env s Q := by
  refine Ends.bind (P := fun k t => k = n.kind ∧ t = s) (.node hn ⟨rfl, rfl⟩) ?_
  rintro _ _ ⟨rfl, rfl⟩
  exact h

theorem Ends.isMissing {f : Bool → Parser β} {id : NodeId} {n : Node}
    (hn : s.arena.get? id = some n) (h : (f n.isMissing).Ends env s Q) :
    (Parser.isMissing id >>= f).Ends env s Q := by
  refine Ends.bind (P := fun b t => b = n.isMissing ∧ t = s) (.node hn ⟨rfl, rfl⟩) ?_
  rintro _ _ ⟨rfl, rfl⟩
  exact h

/-! ## 2. Calls -/

theorem parse_ends (q : Production) (h : env.Ready rank s) (hrank : q.rank < rank)
    (hadmits : q.Admits s.token) : (parse q).Ends env s fun id t => q.Meets env s id t :=
  h.serves q s h.ok (.inr ⟨Nat.le_refl _, hrank⟩) hadmits

theorem parse_gives (q : Production) (h : env.Ready rank s) (hrank : q.rank < rank)
    (hadmits : q.Admits s.token) : (parse q).Gives env false s s :=
  (parse_ends q h hrank hadmits).mono fun _ _ ht => ht.run.handed

theorem parse_takes (q : Production) (h : env.Ready rank s) (hrank : q.rank < rank)
    (hadmits : q.Admits s.token) (hbegins : q.begins.answer env s = true) :
    (parse q).Gives env true s s :=
  (parse_ends q h hrank hadmits).mono fun _ _ ht => ht.run.handedTook (ht.takes hbegins)

/-- What is called as an expression is no block. -/
theorem parse_expresses {q : Production} (hq : q.isExpression = true) (h : env.Ready rank s) :
    (parse q).Ends env s fun id t => t.HoldsExpression id :=
  h.expresses q hq s

/-- A call in another context. -/
theorem parseIn_gives {g : ContextFlags → ContextFlags} (q : Production) (h : env.Ready rank s)
    (hrank : q.rank < rank) (hadmits : q.Admits s.token) :
    (withContext g (parse q)).Gives env false s s :=
  .withContext (parse_gives q (h.inContext _) hrank hadmits)

/-- What a parser gives in any context, it gives in the one that it is run in. -/
theorem Gives.inContext [Held α] {p : Parser α} {g : ContextFlags → ContextFlags}
    (h : env.Ready rank s)
    (hp : ∀ context, env.Ready rank (s.inContext context) →
      p.Gives env took (s.inContext context) (s.inContext context)) :
    (Parser.withContext g p).Gives env took s s :=
  .withContext (hp _ (h.inContext _))

/-! ## 3. Trial runs -/

/-- A state that was rewound is as it was before, but for new names. -/
theorem rewind_still (h : s.Ok text) (hgrows : s.Grows t) :
    Still text s (t.rewind s.snapshot) := by
  rw [hgrows.rewind_eq]
  exact .of_arena_eq h ⟨.refl _, .refl _, hgrows.named, rfl, rfl⟩ rfl rfl rfl rfl

theorem speculate_eq (keep : α → Bool) (p : Parser α) (env : Surroundings) (s : ParserState) :
    speculate keep p env s = ((p env s).1,
      if keep (p env s).1 = true then (p env s).2 else (p env s).2.rewind s.snapshot) := by
  show (do
    if !keep (p env s).1 then modify fun t => t.rewind s.snapshot
    return (p env s).1 : Parser α) env (p env s).2 = _
  cases keep (p env s).1 <;> rfl

/-- The answer found on trial stands, whether the run is kept or not. -/
theorem answer_attemptIf (p : Parser Bool) : (attemptIf p).answer env s = p.answer env s := by
  show (speculate id p env s).1 = (p env s).1
  rw [speculate_eq]

/-- A trial run gives something and is kept, or it has changed nothing. -/
theorem attempt_ends {p : Parser (Option α)} (h : s.Ok env.file.text)
    (hp : p.Ends env s fun a t => s.Grows t ∧ ∀ x, a = some x → P x t) :
    (attempt p).Ends env s fun a t =>
      (∃ x, a = some x ∧ P x t) ∨ (a = none ∧ Still env.file.text s t) := by
  obtain ⟨hgrows, hsome⟩ := hp
  unfold Ends attempt
  rw [speculate_eq]
  cases hresult : (p env s).1 with
  | none => exact .inr ⟨rfl, rewind_still h hgrows⟩
  | some x => exact .inl ⟨x, rfl, hsome x hresult⟩

/-- What is found on trial is kept as it was found. -/
theorem attempt_keeps {p : Parser (Option α)} {P : Option α → ParserState → Prop} (hp : p.Ends env s P)
    (hsome : ∀ a t, P a t → a.isSome = true) : (attempt p).Ends env s P := by
  have hkept : (p env s).1.isSome = true := hsome _ _ hp
  unfold Ends attempt
  rw [speculate_eq, if_pos hkept]
  exact hp

theorem attemptIf_ends {p : Parser Bool} {P : ParserState → Prop} (h : s.Ok env.file.text)
    (hp : p.Ends env s fun b t => s.Grows t ∧ (b = true → P t)) :
    (attemptIf p).Ends env s fun b t =>
      (b = true ∧ P t) ∨ (b = false ∧ Still env.file.text s t) := by
  obtain ⟨hgrows, htrue⟩ := hp
  unfold Ends attemptIf
  rw [speculate_eq]
  cases hresult : (p env s).1 with
  | false => exact .inr ⟨rfl, rewind_still h hgrows⟩
  | true => exact .inl ⟨rfl, htrue hresult⟩

/-- A question about the next token, on trial, has read over one token, or it has changed nothing. -/
theorem attemptIf_afterNext_ends {p : Parser Bool} (hp : Inquires true p)
    (h : s.Ok env.file.text) (hkind : s.token.kind ≠ .endOfFile) :
    (attemptIf (afterNext p)).Ends env s fun b t =>
      (b = true ∧ Skipped env.file.text s t) ∨ (b = false ∧ Still env.file.text s t) := by
  refine attemptIf_ends h ((nextToken_ends h hkind).bind fun _ t ht => ?_)
  exact (hp.skipped ht).mono fun _ _ hu => ⟨hu.toGrows, fun _ => hu⟩

/-! ## 4. Nesting -/

/-- In place of what is nested too deeply there is an empty name, and a token is read over. -/
theorem tooDeep_ends (m : Message) (h : s.Ok env.file.text) :
    (tooDeep m).Ends env s fun id t =>
      Run env.file.text s t [.node id] ∧ (s.token.kind ≠ .endOfFile → s.pos < t.pos) := by
  let node (name : NameId) : Node :=
    { kind := .identifier, pos := s.pos, stop := s.pos, payload := .identifier name none }
  have hname {t : ParserState} (ht : Run env.file.text s t [])
      (hsourced : ∀ (u : ParserState) (name : NameId), u.arena = t.arena → u.token = t.token →
        u.names.find? "" = some name → (node name).SourcedAt env.file.text s u) :
      Ends (do
        countIdentifier
        finishNode .identifier s.token.fullStart (.identifier (← intern "") none)) env t
        fun id u => Run env.file.text s u [.node id] ∧ u.token = t.token := by
    refine (countIdentifier_ends ht.ok).bind fun _ u hu => ?_
    have hintern : (intern "").Ends env u _ := intern_ends "" hu.ok
    refine (hintern.and (intern_enters "")).bind fun name v ⟨hv, henters⟩ => ?_
    have hleaf := hsourced v name (hv.arena.trans hu.arena) (hv.token.trans hu.token) henters
    refine (finish_ends (ht.after (hu.toRun.after hv.toRun)) rfl rfl rfl (by nofun) hleaf
      fun _ => Node.lawful_of_isNode rfl).mono fun id w hw => ?_
    exact ⟨hw.run, hw.token.trans (hv.token.trans hu.token)⟩
  have hnameless {v : ParserState} {name : NameId} {tokens : List Token}
      (henters : v.names.find? "" = some name) : (node name).NamedBy v.names tokens := by
    intro _ name' keyword heq
    cases heq
    exact .inl ⟨henters, rfl⟩
  refine (errorHere_ends h m []).bind fun _ t ht => .token ?_
  rw [ht.token]
  refine .ite (fun hkind => ?_) fun hkind => ?_
  · have hkind : s.token.kind ≠ .endOfFile := by simpa using hkind
    refine (nextToken_ends ht.ok (ht.token ▸ hkind)).bind fun _ u hu => ?_
    refine (hname (ht.toRun.after hu.toRun) fun v name harena hv henters => ?_).mono
      fun id v hv => ⟨hv.1, fun _ => ?_⟩
    · have hread : v.token = (ReadingMode.scan.read env.file.text s.token).1 := by
        rw [hv, hu.token, ht.token]
      exact Node.sourcedAt_of_read rfl (harena.trans (hu.arena.trans ht.arena)) hread rfl
        (.inr rfl) (by simp [node]) (hnameless henters)
    · show s.token.fullStart < v.token.fullStart
      rw [hv.2, ← ht.token]
      exact hu.took
  · refine (hname ht.toRun fun v name _ hv henters => ?_).mono fun id v hv => ⟨hv.1, fun hne => absurd hne ?_⟩
    · exact Node.sourcedAt_of_empty (Nat.le_of_eq (congrArg Token.fullStart (hv.trans ht.token)))
        (hnameless henters)
    · simpa using hkind

/-- A production nested one level deeper takes what it takes, and so does what stands for it. -/
theorem nested_gives {p : Parser NodeId} (m : Message) (h : s.Ok env.file.text)
    (htook : took = true → s.token.kind ≠ .endOfFile)
    (hp : p.Gives env took (s.atDepth (s.scope.depth + 1)) (s.atDepth (s.scope.depth + 1))) :
    (nested m p).Ends env s fun (id, _) t => Handed env.file.text took s s t [.node id] := by
  refine .get ?_
  split
  · refine (tooDeep_ends m h).bind fun id t ht => ?_
    exact ⟨ht.1, ht.1.forward, fun h => ht.2 (htook h)⟩
  · have hdeeper : p.Ends env (s.atDepth (s.scope.depth + 1)) fun id t =>
        Handed env.file.text took s s (t.atDepth (t.scope.depth - 1)) [.node id] :=
      hp.mono fun _ _ ht => ⟨ht.run.deeper, ht.forward, ht.ahead⟩
    exact hdeeper

end Parser

namespace Sofar

variable {β : Type} {Q : β → ParserState → Prop} {id : NodeId}

/-! ## 5. Parts handed over -/

theorem there (g : Sofar env rank took r m s items) (hid : .node id ∈ items) :
    ∃ n, s.arena.get? id = some n := by
  have hchild : id ∈ childrenOf items := List.mem_flatMap.mpr ⟨_, hid, List.mem_singleton_self id⟩
  exact ⟨_, Array.getElem?_eq_getElem (g.run.there id hchild)⟩

/-- A node that was handed over lies in the text. -/
theorem inText {n : Node} (g : Sofar env rank took r m s items) (hid : .node id ∈ items)
    (hn : s.arena.get? id = some n) : n.InText env.file.text.size := by
  obtain ⟨k, hk, -, hle, hstop⟩ := g.run.placed.of_mem hid
  cases hn.symm.trans hk
  exact ⟨hle, Nat.le_trans hstop g.run.ok.pos_le_size⟩

/-- A node that was handed over can be looked at. -/
theorem node {f : Node → Parser β} (g : Sofar env rank took r m s items) (hid : .node id ∈ items)
    (h : ∀ n, s.arena.get? id = some n → (f n).Ends env s Q) :
    (Parser.node id >>= f).Ends env s Q := by
  obtain ⟨n, hn⟩ := g.there hid
  exact .node hn (h n hn)

theorem kindOf {f : Kind → Parser β} (g : Sofar env rank took r m s items)
    (hid : .node id ∈ items) (h : ∀ n, s.arena.get? id = some n → (f n.kind).Ends env s Q) :
    (Parser.kindOf id >>= f).Ends env s Q := by
  obtain ⟨n, hn⟩ := g.there hid
  exact .kindOf hn (h n hn)

theorem isMissing {f : Bool → Parser β} (g : Sofar env rank took r m s items)
    (hid : .node id ∈ items) (h : ∀ n, s.arena.get? id = some n → (f n.isMissing).Ends env s Q) :
    (Parser.isMissing id >>= f).Ends env s Q := by
  obtain ⟨n, hn⟩ := g.there hid
  exact .isMissing hn (h n hn)

end Sofar

end ScriptSyntax
