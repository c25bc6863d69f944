/-
  ScriptSyntax/Proofs/Grammar/Way.lean
  ====================================
  The way of the parser over a text that is known.

  What a production makes of a known text is found by following it: it is known
  which token comes next, so of every choice one branch is left.  Calls are
  followed too.  A call is answered by the production itself as long as the bound
  on the number of calls is not met, and it never is.
-/
import ScriptSyntax.Proofs.Grammar.Productions
import ScriptSyntax.Proofs.Grammar.Quiet

namespace ScriptSyntax

open ScriptSyntax.Parser

variable {env : Surroundings} {rank rank' : Nat} {r s t : ParserState} {items items' : List Part}

/-! ## 1. Calls -/

/-- From here on calls are answered by the productions: all of them once a token has been read over,
and those of lower rank before that. -/
structure Surroundings.Supplied (env : Surroundings) (rank : Nat) (s : ParserState) : Prop where
  ok : s.Ok env.file.text
  supply : ∃ count, env.call = Production.run env.file count
    ∧ (env.file.text.size - s.pos) * Production.topRank + rank ≤ count + 1

namespace Surroundings.Supplied

theorem later (h : env.Supplied rank s) (ht : t.Ok env.file.text) (hle : s.pos ≤ t.pos) :
    env.Supplied rank t where
  ok := ht
  supply := by
    obtain ⟨count, hcall, hcount⟩ := h.supply
    refine ⟨count, hcall, ?_⟩
    simp only [Production.topRank] at hcount ⊢
    omega

/-- Once a token has been read over, every production may be called. -/
theorem took (h : env.Supplied rank s) (ht : t.Ok env.file.text) (htook : s.pos < t.pos) :
    env.Supplied Production.topRank t where
  ok := ht
  supply := by
    obtain ⟨count, hcall, hcount⟩ := h.supply
    have hsize := ht.pos_le_size
    refine ⟨count, hcall, ?_⟩
    simp only [Production.topRank] at hcount ⊢
    omega

/-- Calls that are answered come to what they should. -/
theorem ready (h : env.Supplied rank s) : env.Ready rank s where
  ok := h.ok
  expresses := by
    obtain ⟨count, hcall, -⟩ := h.supply
    rw [hcall]
    exact (Surroundings.expresses_run env.file count).call
  serves q t ht hpos hadmits := by
    obtain ⟨count, hcall, hcount⟩ := h.supply
    have hcalls : q.callsLeft env.file t ≤ count := by
      have hsize := ht.pos_le_size
      have hrank := q.rank_lt_topRank
      simp only [Production.callsLeft, Production.topRank] at hcount hrank ⊢
      omega
    rw [hcall]
    exact q.run_meets env.file count t env.call ht hadmits hcalls

end Surroundings.Supplied

/-- A call comes to what the production does, whose own calls are answered in turn. -/
theorem Parser.parse_of_body {q : Production} {Q : NodeId → ParserState → Prop}
    (h : env.Supplied rank s) (hrank : q.rank < rank)
    (hbody : ∀ inner : Surroundings, inner.file = env.file → inner.Supplied q.rank s →
      q.body.Ends inner s Q) : (parse q).Ends env s Q := by
  obtain ⟨count, hcall, hcount⟩ := h.supply
  have hpositive := q.rank_pos
  cases count with
  | zero => omega
  | succ count =>
    have hinner : Surroundings.Supplied ⟨env.file, Production.run env.file count⟩ q.rank s :=
      ⟨h.ok, count, rfl, by
        show (env.file.text.size - s.pos) * Production.topRank + q.rank ≤ count + 1
        omega⟩
    show Q (env.call q s).1 (env.call q s).2
    rw [hcall]
    exact hbody _ rfl hinner

theorem Surroundings.Supplied.inScope (h : env.Supplied rank s) (scope : Scope) :
    env.Supplied rank { s with scope } :=
  h.later (h.ok.inScope scope) (Nat.le_refl _)

/-- From any place in a file all productions may be called. -/
theorem ParserState.Ok.supplied {file : SourceFacts} (h : s.Ok file.text) :
    file.surroundings.Supplied Production.topRank s where
  ok := h
  supply := by
    refine ⟨file.callLimit, rfl, ?_⟩
    simp only [SourceFacts.surroundings, SourceFacts.callLimit, Production.topRank]
    omega

/-! ## 2. On the way -/

/-- The parser is on its way from an earlier state `r`, without a report, and has handed over the
given parts. Productions below the rank may be called. -/
structure Way (env : Surroundings) (rank : Nat) (r s : ParserState) (items : List Part) : Prop where
  quiet : Quiet env.file.text r s items
  supplied : env.Supplied rank s

/-- What a production comes to: it hands over a node, and reads over a token. What holds of the node, and
of the next token, does not depend on the surroundings. -/
structure Yields (text : Array Char) (s : ParserState) (X : NodeId → Token → Forest → Prop)
    (id : NodeId) (t : ParserState) : Prop where
  quiet : Quiet text s t [.node id]
  took : s.pos < t.pos
  holds : X id t.token t.forest

variable {α β : Type} {P : α → ParserState → Prop} {Q : β → ParserState → Prop}
variable {X Y : NodeId → Token → Forest → Prop} {text : Array Char} {id : NodeId}
variable {L : DiagnosticLog → Prop}

theorem Yields.mono (h : Yields text s X id t) (hX : ∀ id next F, X id next F → Y id next F) :
    Yields text s Y id t :=
  ⟨h.quiet, h.took, hX id _ _ h.holds⟩

/-- What a production comes to that may report something. Of the log it is said how it is then. -/
structure Comes (text : Array Char) (s : ParserState) (L : DiagnosticLog → Prop)
    (X : NodeId → Token → Forest → Prop) (id : NodeId) (t : ParserState) : Prop where
  logged : L t.log
  yields : Yields text (s.withLog t.log) X id t

theorem Comes.of_yields {log : DiagnosticLog} (hlog : L log) (h : Yields text (s.withLog log) X id t) :
    Comes text s L X id t := by
  obtain rfl : t.log = log := h.quiet.log_eq
  exact ⟨hlog, h⟩

theorem Yields.comes (h : Yields text s X id t) (hlog : L s.log) : Comes text s L X id t :=
  .of_yields hlog h

/-- Where the log is still what it was nothing has been reported. -/
theorem Comes.silent (h : Comes text s (· = s.log) X id t) : Yields text s X id t := by
  have hyields := h.yields
  rwa [h.logged] at hyields

namespace Parser

/-- What is made in silence leaves the log as it is. -/
theorem Ends.comes {p : Parser NodeId} (h : p.Ends env s (Yields text s X)) :
    p.Ends env s (Comes text s (· = s.log) X) :=
  h.mono fun _ _ ht => ht.comes rfl

theorem Ends.silent {p : Parser NodeId} (h : p.Ends env s (Comes text s (· = s.log) X)) :
    p.Ends env s (Yields text s X) :=
  h.mono fun _ _ ht => ht.silent

/-! ### Steps that change nothing -/

theorem Ends.leaves {p : Parser α} {f : α → Parser β} {a : α}
    (hp : p.Ends env s fun b t => b = a ∧ t = s) (h : (f a).Ends env s Q) :
    (p >>= f).Ends env s Q := by
  refine hp.bind ?_
  rintro _ _ ⟨rfl, rfl⟩
  exact h

theorem Ends.yes {p q : Parser α} (h : p.Ends env s P) : (if true = true then p else q).Ends env s P := h

theorem Ends.no {p q : Parser α} (h : q.Ends env s P) : (if false = true then p else q).Ends env s P := h

/-- The second question is asked only if the answer to the first one is yes. -/
theorem Ends.andNo {p q : Parser Bool} (hp : p.Ends env s fun b t => b = false ∧ t = s) :
    (p <&&> q).Ends env s fun b t => b = false ∧ t = s :=
  .leaves hp ⟨rfl, rfl⟩

theorem Ends.andYes {p q : Parser Bool} {P : Bool → ParserState → Prop}
    (hp : p.Ends env s fun b t => b = true ∧ t = s) (hq : q.Ends env s P) : (p <&&> q).Ends env s P :=
  .leaves hp hq

/-- The second question is asked only if the answer to the first one is no. -/
theorem Ends.orYes {p q : Parser Bool} (hp : p.Ends env s fun b t => b = true ∧ t = s) :
    (p <||> q).Ends env s fun b t => b = true ∧ t = s :=
  .leaves hp ⟨rfl, rfl⟩

theorem Ends.orNo {p q : Parser Bool} {P : Bool → ParserState → Prop}
    (hp : p.Ends env s fun b t => b = false ∧ t = s) (hq : q.Ends env s P) : (p <||> q).Ends env s P :=
  .leaves hp hq

/-- A question, of which the answer is known. -/
theorem Ends.asked {p : Parser α} {f : α → Parser β} {a : α} (hp : p.Asks env s)
    (ha : p.answer env s = a) (h : (f a).Ends env s Q) : (p >>= f).Ends env s Q := by
  refine .ask hp ?_
  rw [ha]
  exact h

/-- A token of another kind is not read over. -/
theorem Ends.leave {k : Kind} {f : Bool → Parser β} (hk : s.token.kind ≠ k)
    (h : (f false).Ends env s Q) : (accept k >>= f).Ends env s Q := by
  refine .leaves (a := false) (.kind (.ite (fun heq => ?_) fun _ => ⟨rfl, rfl⟩)) h
  exact absurd (beq_iff_eq.mp heq) hk

theorem Ends.leaveToken {k : Kind} {f : Option NodeId → Parser β} (hk : s.token.kind ≠ k)
    (h : (f none).Ends env s Q) : (acceptToken k >>= f).Ends env s Q := by
  refine .leaves (a := none) (.kind (.ite (fun heq => ?_) fun _ => ⟨rfl, rfl⟩)) h
  exact absurd (beq_iff_eq.mp heq) hk

/-- The kind of a node that is known. -/
theorem Ends.kindShown {kind : Kind} {payload : Payload} {f : Kind → Parser β}
    (hshows : s.forest.Shows id kind payload) (h : (f kind).Ends env s Q) :
    (Parser.kindOf id >>= f).Ends env s Q := by
  obtain ⟨n, hn, rfl, -⟩ := hshows
  exact .kindOf hn h

/-- A loop that ends with its first turn. -/
theorem repeating_once {σ : Type} {turn : σ → Parser (Turn σ)} {a : σ} {P : σ → ParserState → Prop}
    (h : (turn a).Ends env s fun o t => ∃ b, o = .done b ∧ P b t) :
    (repeating a turn).Ends env s P := by
  refine .read (Ends.bind h ?_)
  rintro _ t ⟨b, rfl, hb⟩
  exact .pure hb

/-! ### What is not there -/

theorem decorators_leaves (hkind : s.token.kind ≠ .punct .atSign) :
    decorators.Ends env s fun list t => list = none ∧ t = s := by
  refine .nodePos (Ends.bind (repeating_once (P := fun read t => read = [] ∧ t = s)
    (.nodePos (.leave hkind (.no (.pure ⟨[], rfl, rfl, rfl⟩))))) ?_)
  rintro _ _ ⟨rfl, rfl⟩
  exact .pure ⟨rfl, rfl⟩

theorem modifiers_leaves (hkind : s.token.kind.isModifier = false) :
    (modifiers false).Ends env s fun list t => list = none ∧ t = s := by
  have hnone : acceptModifier.Ends env s fun found t => found = false ∧ t = s := by
    refine .kind ?_
    rw [hkind]
    exact ⟨rfl, rfl⟩
  refine .nodePos (Ends.bind (repeating_once (P := fun read t => read = [] ∧ t = s)
    (.token (.leaves hnone (.no (.pure ⟨[], rfl, rfl, rfl⟩))))) ?_)
  rintro _ _ ⟨rfl, rfl⟩
  exact .pure ⟨rfl, rfl⟩

theorem typeParameters_leaves (hkind : s.token.kind ≠ .punct .lessThan) :
    typeParameters.Ends env s fun list t => list = none ∧ t = s := by
  refine .isAt ?_
  rw [beq_eq_false_iff_ne.mpr hkind]
  exact ⟨rfl, rfl⟩

/-! ### Surroundings of a part -/

/-- What is made in another context is there when that ends. -/
theorem withContext_comes {g : ContextFlags → ContextFlags} {p : Parser NodeId}
    (hp : p.Ends env (s.inContext (g s.scope.context))
      (Comes env.file.text (s.inContext (g s.scope.context)) L X)) :
    (withContext g p).Ends env s (Comes env.file.text s L X) := by
  refine .withContext (hp.mono fun id t ht => .of_yields ht.logged ?_)
  obtain ⟨hquiet, htook, hholds⟩ := ht.yields
  exact ⟨⟨hquiet.inContext, hquiet.log_eq⟩, htook, hholds⟩

theorem withContext_yields {g : ContextFlags → ContextFlags} {p : Parser NodeId}
    (hp : p.Ends env (s.inContext (g s.scope.context))
      (Yields env.file.text (s.inContext (g s.scope.context)) X)) :
    (withContext g p).Ends env s (Yields env.file.text s X) :=
  .silent (withContext_comes hp.comes)

/-- What is made one level deeper, below the limit. -/
theorem nested_comes {p : Parser NodeId} (m : Message) (hdepth : s.scope.depth < maxDepth)
    (hp : p.Ends env (s.atDepth (s.scope.depth + 1))
      (Comes env.file.text (s.atDepth (s.scope.depth + 1)) L X)) :
    (nested m p).Ends env s fun found t => found.2 = true ∧ Comes env.file.text s L X found.1 t := by
  refine .get ?_
  split
  · omega
  · have hdeeper : p.Ends env (s.atDepth (s.scope.depth + 1)) fun id t =>
        true = true ∧ Comes env.file.text s L X id (t.atDepth (t.scope.depth - 1)) := by
      refine hp.mono fun id t ht => ⟨rfl, .of_yields ht.logged ?_⟩
      obtain ⟨hquiet, htook, hholds⟩ := ht.yields
      exact ⟨⟨hquiet.toRun.deeper, hquiet.log_eq⟩, htook, hholds⟩
    exact hdeeper

theorem nested_yields {p : Parser NodeId} (m : Message) (hdepth : s.scope.depth < maxDepth)
    (hp : p.Ends env (s.atDepth (s.scope.depth + 1))
      (Yields env.file.text (s.atDepth (s.scope.depth + 1)) X)) :
    (nested m p).Ends env s fun found t => found.2 = true ∧ Yields env.file.text s X found.1 t :=
  (nested_comes m hdepth hp.comes).mono fun _ _ ht => ⟨ht.1, ht.2.silent⟩

/-! ### Nodes from one token -/

/-- A node that is finished right behind its token. It is all that is made of that. -/
theorem leaf_shows {next : Token} {payload : Payload} (h : s.Ok env.file.text)
    (hread : s.token.next env.file.text = (next, [])) :
    (nextToken >>= fun _ => finishNode s.token.kind s.token.fullStart payload).Ends env s fun id t =>
      t.forest.Shows id s.token.kind payload ∧ s.forest.Gains (· = s.token.kind) t.forest ∧ t.log = s.log
        ∧ t.token = next := by
  refine (nextToken_quiet h hread).bind fun _ t ht => (finish_shows _ env t).mono fun id u hu => ?_
  obtain ⟨hquiet, htoken, hforest⟩ := ht
  obtain ⟨hshows, hgains, hlog, hkept, -⟩ := hu
  exact ⟨hshows, hforest ▸ hgains, hlog.trans hquiet.log_eq, hkept.trans htoken⟩

theorem tokenNode_yields {next : Token} (h : s.Ok env.file.text) (hkind : s.token.kind ≠ .endOfFile)
    (hread : s.token.next env.file.text = (next, [])) :
    tokenNode.Ends env s (Yields env.file.text s fun id u F =>
      u = next ∧ F.Shows id s.token.kind .token ∧ s.forest.Gains (· = s.token.kind) F) := by
  have hrun : tokenNode.Ends env s _ := tokenNode_ends h
  have hshows : tokenNode.Ends env s _ := .token (leaf_shows h hread)
  refine (hrun.and hshows).mono fun id t ht => ?_
  obtain ⟨hbecame, hshows, hgains, hlog, htoken⟩ := ht
  exact ⟨⟨hbecame.run, hlog⟩, hbecame.pos_lt h hkind, htoken, hshows, hgains⟩

/-- A token becomes a literal of its value. -/
theorem literalNode_yields {next : Token} (h : s.Ok env.file.text) (hkind : s.token.kind ≠ .endOfFile)
    (hread : s.token.next env.file.text = (next, [])) :
    literalNode.Ends env s (Yields env.file.text s fun id u F =>
      u = next ∧ F.Shows id s.token.kind (.literal s.token.value s.token.flags)) := by
  have hrun : literalNode.Ends env s _ := literalNode_ends h
  have hshows : literalNode.Ends env s _ := .token (leaf_shows h hread)
  refine (hrun.and hshows).mono fun id t ht => ?_
  obtain ⟨hbecame, hshows, -, hlog, htoken⟩ := ht
  exact ⟨⟨hbecame.run, hlog⟩, hbecame.pos_lt h hkind, htoken, hshows⟩

/-- A token that may be there, and is, becomes a node. -/
theorem acceptToken_yields {k : Kind} {next : Token} (h : s.Ok env.file.text) (hk : s.token.kind = k)
    (hend : k ≠ .endOfFile) (hread : s.token.next env.file.text = (next, [])) :
    (acceptToken k).Ends env s fun found t => ∃ id, found = some id
      ∧ Yields env.file.text s (fun id u F => u = next ∧ F.Shows id k .token ∧ s.forest.Gains (· = k) F) id t := by
  have htoken := tokenNode_yields h (hk ▸ hend) hread
  rw [hk] at htoken
  refine .kind (.ite (fun _ => htoken.bind fun id t ht => .pure ⟨id, rfl, ht⟩) fun hno => ?_)
  simp [hk] at hno

/-- A token that should be there, and is. -/
theorem expectToken_yields {k : Kind} {next : Token} (h : s.Ok env.file.text) (hk : s.token.kind = k)
    (hend : k ≠ .endOfFile) (hread : s.token.next env.file.text = (next, [])) :
    (expectToken k).Ends env s
      (Yields env.file.text s fun id u F => u = next ∧ F.Shows id k .token ∧ s.forest.Gains (· = k) F) := by
  refine (acceptToken_yields h hk hend hread).bind ?_
  rintro _ t ⟨id, rfl, ht⟩
  exact .pure ht

/-- A name becomes an identifier. -/
theorem identifierIf_yields {next : Token} (m : Message) (h : s.Ok env.file.text)
    (hkind : s.token.kind.isName = true) (hread : s.token.next env.file.text = (next, [])) :
    (identifierIf true m).Ends env s (Yields env.file.text s fun id u F =>
      u = next ∧ F.IsIdentifier id s.token.value) := by
  have hread : ReadingMode.scan.read env.file.text s.token = (next, []) := hread
  have hends : (identifierIf true m).Ends env s _ := identifierIf_ends m h fun _ => hkind
  refine (hends.and (identifierIf_shows m env s)).mono fun id t ht => ?_
  obtain ⟨⟨hnamed, htook⟩, hidentifier, hlog, htoken, -⟩ := ht
  rw [hread] at hlog htoken
  exact ⟨⟨hnamed.run, hlog⟩, htook rfl, htoken, hidentifier⟩

theorem isIdentifier_of_name (hkind : s.token.kind = .identifier) : isIdentifier.answer env s = true := by
  unfold isIdentifier
  rw [answer_kind, hkind]
  rfl

theorem identifierOr_yields {next : Token} (m : Message) (h : s.Ok env.file.text)
    (hkind : s.token.kind = .identifier) (hread : s.token.next env.file.text = (next, [])) :
    (identifierOr m).Ends env s (Yields env.file.text s fun id u F =>
      u = next ∧ F.IsIdentifier id s.token.value) := by
  refine .asked (isIdentifier_inquires (o := true).asks h) (isIdentifier_of_name hkind) ?_
  exact identifierIf_yields m h (hkind ▸ rfl) hread

/-- The identifier is all that is made of a name. -/
theorem identifierOr_gains (m : Message) (h : s.Ok env.file.text) (hkind : s.token.kind = .identifier) :
    (identifierOr m).Ends env s fun _ t => s.forest.Gains (· = .identifier) t.forest := by
  refine .asked (isIdentifier_inquires (o := true).asks h) (isIdentifier_of_name hkind) ?_
  exact (identifierIf_shows m env s).mono fun _ _ ht => ht.2.2.2

theorem nameOr_yields {next : Token} (m : Message) (h : s.Ok env.file.text)
    (hkind : s.token.kind.isName = true) (hread : s.token.next env.file.text = (next, [])) :
    (nameOr m).Ends env s (Yields env.file.text s fun id u F =>
      u = next ∧ F.IsIdentifier id s.token.value) := by
  refine .kindIs ?_
  rw [hkind]
  exact identifierIf_yields m h hkind hread

theorem nameOr_gains (m : Message) (hkind : s.token.kind.isName = true) :
    (nameOr m).Ends env s fun _ t => s.forest.Gains (· = .identifier) t.forest := by
  refine .kindIs ?_
  rw [hkind]
  exact (identifierIf_shows m env s).mono fun _ _ ht => ht.2.2.2

end Parser

namespace Way

theorem start (h : env.Supplied rank s) : Way env rank s s [] := ⟨.refl h.ok, h⟩

theorem ok (g : Way env rank r s items) : s.Ok env.file.text := g.supplied.ok

theorem parts (g : Way env rank r s items) (h : items = items') : Way env rank r s items' := h ▸ g

/-- On from here by a quiet run. -/
theorem go (g : Way env rank r s items) (h : Quiet env.file.text s t items') :
    Way env rank r t (items ++ items') :=
  ⟨g.quiet.trans h, g.supplied.later h.ok h.forward⟩

/-- On from here by a quiet run that reads over a token. -/
theorem goTook (g : Way env rank r s items) (h : Quiet env.file.text s t items')
    (htook : s.pos < t.pos) : Way env Production.topRank r t (items ++ items') :=
  ⟨g.quiet.trans h, g.supplied.took h.ok htook⟩

/-- From here on something new is under way. -/
theorem here (g : Way env rank r s items) : Way env rank s s [] := start g.supplied

/-- A step that hands over a node. -/
theorem step {p : Parser NodeId} {f : NodeId → Parser β} (g : Way env rank r s items)
    (hp : p.Ends env s (Yields env.file.text s X))
    (hf : ∀ id t, X id t.token t.forest → s.forest.Keeps t.forest → s.pos < t.pos →
      Way env Production.topRank r t (items ++ [Part.node id]) → (f id).Ends env t Q) :
    (p >>= f).Ends env s Q :=
  hp.bind fun id t ht => hf id t ht.holds ht.quiet.keeps ht.took (g.goTook ht.quiet ht.took)

/-- A way of reading that meets no error. -/
theorem read {mode : ReadingMode} {next : Token} {f : Unit → Parser β}
    (g : Way env rank r s items) (hmode : mode ≠ .rescanTemplate ∧ mode ≠ .rescanJsx)
    (hread : mode.read env.file.text s.token = (next, []))
    (hf : ∀ t, t.token = next → t.forest = s.forest → Way env rank r t items →
      (f ()).Ends env t Q) : (advance mode >>= f).Ends env s Q := by
  refine (advance_quiet g.ok (.of_ne hmode.1 hmode.2) hread).bind fun _ t ht => ?_
  exact hf t ht.2.1 ht.2.2 ((g.go ht.1).parts (List.append_nil items))

/-- Reading over a token, to one that is free of errors. -/
theorem skip {next : Token} {f : Unit → Parser β} (g : Way env rank r s items)
    (hkind : s.token.kind ≠ .endOfFile) (hread : s.token.next env.file.text = (next, []))
    (hf : ∀ t, t.token = next → t.forest = s.forest → s.pos < t.pos →
      Way env Production.topRank r t items → (f ()).Ends env t Q) :
    (nextToken >>= f).Ends env s Q := by
  refine ((nextToken_quiet g.ok hread).and (nextToken_ends g.ok hkind)).bind fun _ t ht => ?_
  obtain ⟨⟨hquiet, htoken, hforest⟩, hskipped⟩ := ht
  exact hf t htoken hforest hskipped.took
    ((g.goTook hquiet hskipped.took).parts (List.append_nil items))

/-- Reading over a token that may be there, and is. -/
theorem take {k : Kind} {next : Token} {f : Bool → Parser β} (g : Way env rank r s items)
    (hk : s.token.kind = k) (hend : k ≠ .endOfFile)
    (hread : s.token.next env.file.text = (next, []))
    (hf : ∀ t, t.token = next → t.forest = s.forest → s.pos < t.pos →
      Way env Production.topRank r t items → (f true).Ends env t Q) :
    (accept k >>= f).Ends env s Q := by
  have htake : (accept k).Ends env s fun found t =>
      found = true ∧ t.token = next ∧ t.forest = s.forest ∧ s.pos < t.pos
        ∧ Way env Production.topRank r t items := by
    refine .kind (.ite (fun _ => ?_) fun hno => ?_)
    · exact g.skip (hk ▸ hend) hread fun t htoken hforest htook g =>
        .pure ⟨rfl, htoken, hforest, htook, g⟩
    · simp [hk] at hno
  refine htake.bind ?_
  rintro _ t ⟨rfl, htoken, hforest, htook, g⟩
  exact hf t htoken hforest htook g

/-- Reading over a token that should be there, and is. -/
theorem takeExpected {k : Kind} {next : Token} {f : Bool → Parser β} (g : Way env rank r s items)
    (hk : s.token.kind = k) (hend : k ≠ .endOfFile)
    (hread : s.token.next env.file.text = (next, []))
    (hf : ∀ t, t.token = next → t.forest = s.forest → s.pos < t.pos →
      Way env Production.topRank r t items → (f true).Ends env t Q) :
    (expect k >>= f).Ends env s Q := by
  have htake : (expect k).Ends env s fun found t =>
      found = true ∧ t.token = next ∧ t.forest = s.forest ∧ s.pos < t.pos
        ∧ Way env Production.topRank r t items := by
    refine .leaves (a := true) (.kind (.ite (fun _ => ⟨rfl, rfl⟩) fun hno => ?_)) ?_
    · simp [hk] at hno
    · exact g.skip (hk ▸ hend) hread fun t htoken hforest htook g =>
        .pure ⟨rfl, htoken, hforest, htook, g⟩
  refine htake.bind ?_
  rintro _ t ⟨rfl, htoken, hforest, htook, g⟩
  exact hf t htoken hforest htook g

/-- The semicolon at the end of a statement. -/
theorem semicolon {next : Token} {f : Unit → Parser β} (g : Way env rank r s items)
    (hk : s.token.kind = .punct .semicolon) (hread : s.token.next env.file.text = (next, []))
    (hf : ∀ t, t.token = next → t.forest = s.forest → s.pos < t.pos →
      Way env Production.topRank r t items → (f ()).Ends env t Q) :
    (Parser.semicolon >>= f).Ends env s Q := by
  have hends : canEndStatement.answer env s = true := by
    unfold canEndStatement
    rw [answer_kind, hk]
    rfl
  have htake : Parser.semicolon.Ends env s fun _ t =>
      t.token = next ∧ t.forest = s.forest ∧ s.pos < t.pos ∧ Way env Production.topRank r t items := by
    refine .asked ((canEndStatement_inquires (o := true)).asks g.ok) hends ?_
    exact g.take hk nofun hread fun t htoken hforest htook g => .pure ⟨htoken, hforest, htook, g⟩
  exact htake.bind fun _ t ⟨htoken, hforest, htook, g⟩ => hf t htoken hforest htook g

/-- A production is finished from all parts that were handed over since it started. Its node is all that
is added. -/
theorem finishAdding {kind : NodeKind} {payload : Payload} {pos : Nat} (g : Way env rank r s items)
    (hpos : pos = r.pos) (htook : r.pos < s.pos) (hparts : partsOf payload.fields = items)
    (hplain : (Kind.node kind).isSpecial payload = false)
    (hX : ∀ id forest, s.forest.Gains (· = .node kind) forest → forest.Shows id (.node kind) payload →
      X id s.token forest) :
    (finishProduction kind pos payload).Ends env s (Yields env.file.text r X) := by
  refine (finishProduction_quiet g.quiet hpos hparts hplain).mono fun id t ht => ?_
  have hpos : t.pos = s.pos := congrArg Token.fullStart ht.token
  refine ⟨ht.quiet, hpos ▸ htook, ?_⟩
  rw [ht.token]
  exact hX id t.forest ht.gains ht.shows

theorem finish {kind : NodeKind} {payload : Payload} {pos : Nat} (g : Way env rank r s items)
    (hpos : pos = r.pos) (htook : r.pos < s.pos) (hparts : partsOf payload.fields = items)
    (hplain : (Kind.node kind).isSpecial payload = false)
    (hX : ∀ id forest, s.forest.Keeps forest → forest.Shows id (.node kind) payload →
      X id s.token forest) :
    (finishProduction kind pos payload).Ends env s (Yields env.file.text r X) :=
  g.finishAdding hpos htook hparts hplain fun id forest hgains => hX id forest hgains.toKeeps

/-- On from what a production came to, as if what it reported had been reported before it. -/
theorem ofComes (h : env.Supplied rank s) (ht : Comes env.file.text s L X id t) :
    Way env Production.topRank (s.withLog t.log) t [.node id] :=
  ⟨ht.yields.quiet, h.took ht.yields.quiet.ok ht.yields.took⟩

end Way

/-! ## 3. Lists of one element -/

variable {list : ListContext} {element : Parser NodeId}

/-- Where the list is open an element starts, and behind an element of which the property holds the list ends. -/
structure HoldsOne (env : Surroundings) (list : ListContext) (X : NodeId → Token → Forest → Prop)
    (r : ParserState) : Prop where
  goesOn : (endsList list).answer env r = false
  starts : (startsElement list false).answer env r = true
  ends : ∀ id t, X id t.token t.forest → (endsList list).answer env t = true

/-- The one element of a list has been read. -/
def OneRead (text : Array Char) (L : DiagnosticLog → Prop) (X : NodeId → Token → Forest → Prop)
    (r : ParserState) (read : List NodeId) (t : ParserState) : Prop :=
  ∃ id, read = [id] ∧ Comes text r L X id t

namespace Parser

/-- The first turn reads the element, and the second one finds the end of the list. -/
theorem listTurn_one {read : List NodeId} (h : r.Ok env.file.text) (hlist : HoldsOne env list X r)
    (helement : element.Ends env r (Comes env.file.text r L X))
    (ht : (read = [] ∧ t = r) ∨ OneRead env.file.text L X r read t) :
    (listTurn list element read).Ends env t
      (Turn.Leads (fun read t => (read = [] ∧ t = r) ∨ OneRead env.file.text L X r read t)
        (OneRead env.file.text L X r) t) := by
  rcases ht with ⟨rfl, rfl⟩ | ⟨id, rfl, hdone⟩
  · refine .asked (endsList_asks _ h) hlist.goesOn ?_
    refine .asked (startsElement_asks _ _ h) hlist.starts ?_
    exact helement.bind fun id u hu => .pure ⟨.inr ⟨id, rfl, hu⟩, hu.yields.took⟩
  · have hend := hlist.ends id t hdone.yields.holds
    refine .asked (endsList_asks _ hdone.yields.quiet.ok) hend ?_
    exact .pure ⟨⟨id, rfl, hdone⟩, Nat.le_refl _⟩

/-- A list of one element is read up to where that ends. -/
theorem elements_one (h : env.Supplied rank s)
    (hlist : HoldsOne env list X (s.withLists (list :: s.scope.openLists)))
    (helement : element.Ends env (s.withLists (list :: s.scope.openLists))
      (Comes env.file.text (s.withLists (list :: s.scope.openLists)) L X)) :
    (elements list element).Ends env s fun array t => ∃ id, array.nodes = [id] ∧ L t.log ∧ X id t.token t.forest
      ∧ s.pos < t.pos ∧ Quiet env.file.text (s.withLog t.log) t [.array array] := by
  let inner := s.withLists (list :: s.scope.openLists)
  have hinner : env.Supplied rank inner := h.inScope _
  have hsize (read : List NodeId) (t : ParserState)
      (ht : (read = [] ∧ t = inner) ∨ OneRead env.file.text L X inner read t) :
      t.pos ≤ env.file.text.size := by
    rcases ht with ⟨-, rfl⟩ | ⟨id, -, hdone⟩
    · exact hinner.ok.pos_le_size
    · exact hdone.yields.quiet.ok.pos_le_size
  have hloop : (repeating [] (listTurn list element)).Ends env inner _ :=
    repeating_ends (.inl ⟨rfl, rfl⟩) hsize fun _ _ ht => listTurn_one hinner.ok hlist helement ht
  refine .inList (.nodePos (hloop.bind fun read t ht => .nodePos (.pure ?_)))
  obtain ⟨⟨id, rfl, hlogged, hquiet, htook, hholds⟩, -⟩ := ht
  have hrun : Run env.file.text ((s.withLog t.log).withLists (list :: s.scope.openLists)) t
      [.array { pos := inner.pos, stop := t.pos, nodes := [id] }] := hquiet.toRun.array rfl rfl
  exact ⟨id, rfl, hlogged, hholds, htook, hrun.withLists, rfl⟩

end Parser

end ScriptSyntax
