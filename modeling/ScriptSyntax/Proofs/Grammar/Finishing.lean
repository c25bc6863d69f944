/-
  ScriptSyntax/Proofs/Grammar/Finishing.lean
  ==========================================
  Finished nodes.

  A node is finished from all parts handed over since it started.  It ends where
  the parser stands, it never ends before it starts, and an error that was due
  is marked on it.
-/
import ScriptSyntax.Proofs.Grammar.Starts

namespace ScriptSyntax

variable {text : Array Char} {env : Surroundings} {rank : Nat} {took : Bool}
variable {r m s t : ParserState} {items : List Part}

/-- Under the number there is a node of the given kind, range and parts. -/
def Arena.Holds (a : Arena) (id : NodeId) (kind : Kind) (pos stop : Nat) (parts : List Part) : Prop :=
  ∃ n, a.get? id = some n ∧ n.kind = kind ∧ n.pos = pos ∧ n.stop = stop ∧ n.parts = parts

theorem Arena.Holds.kindOf {a : Arena} {id : NodeId} {kind : Kind} {pos stop : Nat}
    {parts : List Part} (h : a.Holds id kind pos stop parts) : a.kindOf id = kind := by
  obtain ⟨n, hn, rfl, -⟩ := h
  simp [Arena.kindOf, hn]

/-- A node has been finished from the parts of a run. It reaches from the given position to where the
parser stands, and the token is as it was. -/
structure Finished (text : Array Char) (kind : Kind) (pos : Nat) (items : List Part)
    (r s : ParserState) (id : NodeId) (t : ParserState) : Prop where
  run : Run text r t [.node id]
  token : t.token = s.token
  node : t.arena.Holds id kind pos t.pos items

/-- With the flags that it gets, and with its end where the parser stands, the node is sourced. -/
def Node.SourcedAt (text : Array Char) (r s : ParserState) (n : Node) : Prop :=
  ∀ flags, Node.Sourced text r s { n with stop := s.pos, flags }

theorem Node.sourcedAt_of_isToken {n : Node} (h : n.kind.isToken = false) : n.SourcedAt text r s :=
  fun _ => Node.sourced_of_isToken h

theorem Node.sourcedAt_of_empty {n : Node} (h : s.pos ≤ n.pos) (hnamed : n.NamedBy s.names []) :
    n.SourcedAt text r s :=
  fun _ => Node.sourced_of_empty h hnamed

/-- A node that is all that the token has been made into which was read over. An identifier is named by
the token, or has no name. -/
theorem Node.sourcedAt_of_read {n : Node} {mode : ReadingMode} (hon : mode.movesOn = true)
    (harena : s.arena = r.arena) (htoken : s.token = (mode.read text r.token).1)
    (hpos : n.pos = r.pos) (hkind : n.kind = r.token.kind ∨ n.kind = .identifier)
    (hliteral : ∀ value flags, n.payload = .literal value flags →
      value = r.token.value ∧ flags = r.token.flags)
    (hnamed : n.NamedBy s.names [r.token]) : n.SourcedAt text r s := by
  intro flags
  have hreads : ReadsOver text r.token [r.token] s.token := by
    rw [htoken]
    exact .on mode .here hon
  have hstop : s.pos = r.token.stop := by
    rw [ParserState.pos, htoken, ReadingMode.fullStart_read, if_pos hon]
  exact .read harena hreads (fun _ => ⟨r.token, List.mem_singleton_self _, hpos, hstop, hkind, hliteral⟩) hnamed

namespace Parser

/-! ## 1. Nodes -/

/-- The flags that a node is put into the arena with. -/
def flagsAt (s : ParserState) (flags : NodeFlags) : NodeFlags :=
  { flags with
    context := flags.context.join s.scope.context
    hasError := flags.hasError || s.errorPending }

theorem finishAt_eq (n : Node) (env : Surroundings) (s : ParserState) :
    finishAt n env s = (⟨s.arena.size⟩, s.adding { n with flags := flagsAt s n.flags }) := rfl

theorem finish_eq (n : Node) (h : n.pos ≤ s.pos) :
    finish n env s = finishAt { n with stop := s.pos } env s := by
  have hmax : max s.pos n.pos = s.pos := Nat.max_eq_left h
  show (if s.pos < n.pos then _ else _ : Parser NodeId) env s = _
  rw [if_neg (Nat.not_lt_of_le h)]
  show finishAt { n with stop := max s.pos n.pos } env s = _
  rw [hmax]

/-- A node is finished from all parts that a run has handed over, and starts where the first of them
does, or before. -/
theorem finish_ends_from {n : Node} (h : Run env.file.text r s items) (hpos : r.pos ≤ n.pos)
    (hspan : s.arena.SpansParts n.pos items s.pos) (hparts : n.parts = items)
    (hspreads : n.payload.spreadsProperty = false)
    (herror : n.flags.hasError = true → 0 < s.log.size) (hsourced : n.SourcedAt env.file.text r s)
    (hlawful : r.token.kind.isNode = false → n.Lawful s.arena) :
    (finish n).Ends env s fun id t => Finished env.file.text n.kind n.pos items r s id t := by
  unfold Ends
  rw [finish_eq n hspan.le, finishAt_eq]
  refine ⟨h.finish hparts hpos hspan rfl hspreads ?_ ?_ (hsourced _) ?_, rfl, ?_⟩
  · intro hpending
    simp [flagsAt, hpending]
  · intro hmarked
    rcases Bool.or_eq_true_iff.mp hmarked with hown | hpending
    · exact herror hown
    · exact h.ok.reported (.inl hpending)
  · exact fun hr => (hlawful hr).finished _ _
  · exact ⟨_, Arena.get?_push_self _ _, rfl, rfl, rfl, hparts⟩

/-- A node is finished from parts that a run has handed over, and the others are left out of it. -/
theorem finishLeaving_ends {n : Node} (h : Run env.file.text r s items) (hpos : n.pos = r.pos)
    (hparts : n.parts.Sublist items) (hplain : n.kind.isSpecial n.payload = false)
    (herror : n.flags.hasError = false) (hsourced : n.SourcedAt env.file.text r s)
    (hleft : ∀ c ∈ childrenOf items, c ∉ n.children → ∀ a m, s.arena.Grows a →
      a.get? ⟨s.arena.size⟩ = some m → m.kind = n.kind → m.pos = r.pos → m.stop = s.pos →
      m.flags.hasError = s.errorPending → a.LeftOut ⟨s.arena.size⟩ c) :
    (finish n).Ends env s fun id t => Finished env.file.text n.kind r.pos n.parts r s id t := by
  have hspan : s.arena.SpansParts n.pos n.parts s.pos := hpos ▸ h.placed.sublist hparts
  unfold Ends
  rw [finish_eq n hspan.le, finishAt_eq]
  refine ⟨h.finishLeaving hparts ?_ (Nat.le_of_eq hpos.symm) hspan rfl (Kind.not_spreadsProperty hplain)
    ?_ ?_ (hsourced _) fun _ => Node.lawful_of_isRuled (Kind.not_isRuled hplain), rfl, ?_⟩
  · intro c hc hno
    exact hleft c hc hno _ _ (Arena.grows_push _ _) (Arena.get?_push_self _ _) rfl hpos rfl
      (by simp [flagsAt, herror])
  · intro hpending
    simp [flagsAt, hpending]
  · intro hmarked
    refine h.ok.reported (.inl ?_)
    simpa [flagsAt, herror] using hmarked
  · exact ⟨_, Arena.get?_push_self _ _, rfl, hpos, rfl, rfl⟩

/-- A node is finished that starts where the run started. -/
theorem finish_ends {n : Node} (h : Run env.file.text r s items) (hpos : n.pos = r.pos)
    (hparts : n.parts = items) (hspreads : n.payload.spreadsProperty = false)
    (herror : n.flags.hasError = true → 0 < s.log.size) (hsourced : n.SourcedAt env.file.text r s)
    (hlawful : r.token.kind.isNode = false → n.Lawful s.arena) :
    (finish n).Ends env s fun id t => Finished env.file.text n.kind r.pos items r s id t := by
  have hfinish : (finish n).Ends env s _ :=
    finish_ends_from h (Nat.le_of_eq hpos.symm) (hpos ▸ h.placed) hparts hspreads herror hsourced hlawful
  rw [hpos] at hfinish
  exact hfinish

theorem finishProduction_ends {kind : NodeKind} {payload : Payload} {pos : Nat}
    (h : Run env.file.text r s items) (hpos : pos = r.pos)
    (hparts : partsOf payload.fields = items)
    (hplain : (Kind.node kind).isSpecial payload = false) :
    (finishProduction kind pos payload).Ends env s
      fun id t => Finished env.file.text (.node kind) r.pos items r s id t :=
  finish_ends h hpos hparts (Kind.not_spreadsProperty hplain) nofun (Node.sourcedAt_of_isToken rfl)
    fun _ => Node.lawful_of_isRuled (Kind.not_isRuled hplain)

/-- A production is finished from a single node and starts with it. -/
theorem finishAround_ends {kind : NodeKind} {payload : Payload} {first : NodeId} {n : Node}
    (h : Run env.file.text r s [.node first]) (hn : s.arena.get? first = some n)
    (hparts : partsOf payload.fields = [.node first])
    (hplain : (Kind.node kind).isSpecial payload = false) :
    (finishProduction kind n.pos payload).Ends env s fun id t =>
      r.pos ≤ n.pos ∧ Finished env.file.text (.node kind) n.pos [.node first] r s id t := by
  obtain ⟨m, hm, hle, hstop, hplaced⟩ := h.placed
  cases hn.symm.trans hm
  have hfinish : (finishProduction kind n.pos payload).Ends env s _ :=
    finish_ends_from h hle ⟨n, hn, Nat.le_refl _, hstop, hplaced⟩ hparts
      (Kind.not_spreadsProperty hplain) nofun (Node.sourcedAt_of_isToken rfl)
      fun _ => Node.lawful_of_isRuled (Kind.not_isRuled hplain)
  exact hfinish.mono fun _ _ h => ⟨hle, h⟩

/-! ## 2. Nodes for what is missing -/

/-- A step that touches neither the tree, the token nor the errors. -/
structure Still (text : Array Char) (s t : ParserState) : Prop extends Run text s t [] where
  token : t.token = s.token
  arena : t.arena = s.arena
  log : t.log = s.log

theorem Still.of_arena_eq (h : s.Ok text) (hgrows : s.Grows t) (htoken : t.token = s.token)
    (harena : t.arena = s.arena) (hlog : t.log = s.log) (hpending : t.errorPending = s.errorPending) :
    Still text s t where
  toRun := by
    have hpos : s.pos ≤ t.pos := Nat.le_of_eq (congrArg Token.fullStart htoken.symm)
    refine .of_arena_eq h hgrows harena ⟨[], htoken ▸ .here⟩ ?_ hpos ?_ (.inr ⟨hpending, hlog⟩) ?_
    · rw [htoken]
      exact h.token
    · rw [hlog]
      exact h.inside
    · rw [hpending, hlog]
      exact fun hdue => h.reported (.inl hdue)
  token := htoken
  arena := harena
  log := hlog

theorem Still.refl (h : s.Ok text) : Still text s s := .of_arena_eq h (.refl s) rfl rfl rfl rfl

theorem Still.alike {o : Bool} (h : Still text s t) : Alike o env s env t :=
  .of_eq h.token h.scope_eq

theorem intern_ends (name : String) (h : s.Ok env.file.text) :
    (intern name).Ends env s fun _ t => Still env.file.text s t :=
  .of_arena_eq h ⟨.refl _, .refl _, s.names.grows_intern name, rfl, rfl⟩ rfl rfl rfl rfl

theorem countIdentifier_ends (h : s.Ok env.file.text) :
    countIdentifier.Ends env s fun _ t => Still env.file.text s t :=
  .of_arena_eq h ⟨.refl _, .refl _, .refl _, rfl, rfl⟩ rfl rfl rfl rfl

/-- The table has the name that was entered. -/
theorem intern_enters (name : String) :
    (intern name).Ends env s fun id t => t.names.find? name = some id :=
  NameTable.find?_intern s.names name

theorem missingPayload_ends (k : Kind) (h : s.Ok env.file.text) :
    (missingPayload k).Ends env s fun payload t =>
      Still env.file.text s t ∧ payload.fields = [] ∧ payload.spreadsProperty = false
        ∧ ∀ name keyword, payload = .identifier name keyword → t.names.find? "" = some name ∧ keyword = none := by
  unfold missingPayload
  split
  · have hintern : (intern "").Ends env s _ := intern_ends "" h
    refine (hintern.and (intern_enters "")).bind fun name t ht => ⟨ht.1, rfl, rfl, fun _ _ heq => ?_⟩
    cases heq
    exact ⟨ht.2, rfl⟩
  all_goals exact ⟨.refl h, rfl, rfl, fun _ _ heq => by cases heq⟩

theorem missingNode_ends {k : Kind} (hk : k.isNode = false) (h : s.Ok env.file.text) :
    (missingNode k).Ends env s fun id t => Finished env.file.text k s.pos [] s s id t ∧ t.log = s.log := by
  refine .nodePos ((missingPayload_ends k h).bind fun payload t ht => ?_)
  obtain ⟨hstill, hfields, hspreads, hnameless⟩ := ht
  have hpos : t.pos = s.pos := congrArg Token.fullStart hstill.token
  have hfinish : (finish { kind := k, pos := s.pos, stop := s.pos, payload }).Ends env t _ :=
    finish_ends hstill.toRun rfl ((Node.parts_eq _).trans (by simp [hfields])) hspreads nofun
      (Node.sourcedAt_of_empty (Nat.le_of_eq hpos) fun _ name keyword heq => .inl (hnameless name keyword heq))
      fun _ => Node.lawful_of_isNode hk
  unfold Ends at hfinish ⊢
  rw [finish_eq _ (Nat.le_of_eq hpos.symm), hpos] at hfinish
  exact ⟨⟨hfinish.run, hfinish.token.trans hstill.token, hfinish.node⟩, hstill.log⟩

theorem missingNode_after {k : Kind} (hk : k.isNode = false) (h : Reported env.file.text s t) :
    (missingNode k).Ends env t fun id u => Finished env.file.text k s.pos [] s s id u ∧ 0 < u.log.size := by
  refine (missingNode_ends hk h.ok).mono fun id u hu => ?_
  obtain ⟨⟨hrun, htoken, hnode⟩, hlog⟩ := hu
  have hpos : t.pos = s.pos := congrArg Token.fullStart h.token
  refine ⟨⟨h.toRun.after hrun, htoken.trans h.token, hpos ▸ hnode⟩, ?_⟩
  rw [hlog]
  exact h.ok.reported (.inl h.pending)

/-- A node for something missing is accounted for by a report. -/
theorem missingHere_ends {k : Kind} (hk : k.isNode = false) (m : Message) (args : List String)
    (h : s.Ok env.file.text) :
    (missingHere k m args).Ends env s fun id t =>
      Finished env.file.text k s.pos [] s s id t ∧ 0 < t.log.size :=
  (errorHere_ends h m args).bind fun _ _ ht => missingNode_after hk ht

theorem missingBefore_ends {k : Kind} (hk : k.isNode = false) (m : Message) (args : List String)
    (h : s.Ok env.file.text) :
    (missingBefore k m args).Ends env s fun id t =>
      Finished env.file.text k s.pos [] s s id t ∧ 0 < t.log.size :=
  .nodePos ((errorAt_ends h h.pos_le_size m args).bind fun _ _ ht => missingNode_after hk ht)

/-! ## 3. Tokens as nodes -/

/-- A token has been read over and made into a node of the given kind. -/
structure Became (text : Array Char) (kind : Kind) (s : ParserState) (id : NodeId)
    (t : ParserState) : Prop where
  run : Run text s t [.node id]
  token : t.token = (ReadingMode.scan.read text s.token).1
  node : t.arena.Holds id kind s.pos t.pos []

/-- The parser stands behind the token. -/
theorem Became.pos_eq {kind : Kind} {id : NodeId} (h : Became text kind s id t) :
    t.pos = s.token.stop :=
  (congrArg Token.fullStart h.token).trans (ReadingMode.fullStart_read .scan text s.token)

theorem Became.pos_lt {kind : Kind} {id : NodeId} (h : Became text kind s id t) (hok : s.Ok text)
    (hkind : s.token.kind ≠ .endOfFile) : s.pos < t.pos := by
  rw [h.pos_eq]
  exact hok.token.fullStart_lt_stop hkind

/-- Reading over the token and finishing it as a node without parts. -/
theorem become_ends {kind : Kind} {payload : Payload} (h : s.Ok env.file.text)
    (hfields : payload.fields = []) (hspreads : payload.spreadsProperty = false)
    (hkind : kind = s.token.kind ∨ kind = .identifier)
    (hliteral : ∀ value flags, payload = .literal value flags →
      value = s.token.value ∧ flags = s.token.flags)
    (hnamed : ∀ name keyword, payload = .identifier name keyword → s.token.kind.isName = true
      ∧ s.names.find? s.token.value = some name ∧ keyword = s.token.kind.keyword?) :
    (nextToken >>= fun _ => finishNode kind s.token.fullStart payload).Ends env s
      fun id t => Became env.file.text kind s id t := by
  have hnext : Glance env.file.text s (nextToken env s).2 := nextToken_glance h
  have hfinish : (finishNode kind s.token.fullStart payload).Ends env (nextToken env s).2 _ :=
    finish_ends hnext.toRun rfl ((Node.parts_eq _).trans (by simp [hfields])) hspreads nofun
      (Node.sourcedAt_of_read rfl hnext.arena (token_advance .scan env s) rfl hkind hliteral
        fun _ name keyword heq => .inr ⟨s.token, List.mem_singleton_self _, hnext.names ▸ hnamed name keyword heq⟩)
      fun hs => Node.lawful_of_isNode (by rcases hkind with rfl | rfl <;> [exact hs; rfl])
  obtain ⟨hrun, htoken, hnode⟩ := hfinish
  exact ⟨hrun, htoken.trans (token_advance .scan env s), hnode⟩

theorem tokenNode_ends (h : s.Ok env.file.text) :
    tokenNode.Ends env s fun id t => Became env.file.text s.token.kind s id t :=
  .token (become_ends h rfl rfl (.inl rfl) (by simp) (by simp))

theorem literalNode_ends (h : s.Ok env.file.text) :
    literalNode.Ends env s fun id t => Became env.file.text s.token.kind s id t :=
  .token (become_ends h rfl rfl (.inl rfl) (fun _ _ heq => by cases heq; exact ⟨rfl, rfl⟩) (by simp))

theorem tokenNode_gives (h : s.Ok env.file.text) : tokenNode.Gives env false s s :=
  (tokenNode_ends h).mono fun _ _ ht => ht.run.handed

theorem tokenNode_takes (h : s.Ok env.file.text) (hkind : s.token.kind ≠ .endOfFile) :
    tokenNode.Gives env true s s :=
  (tokenNode_ends h).mono fun _ _ ht => ht.run.handedTook (ht.pos_lt h hkind)

theorem literalNode_gives (h : s.Ok env.file.text) : literalNode.Gives env false s s :=
  (literalNode_ends h).mono fun _ _ ht => ht.run.handed

theorem literalNode_takes (h : s.Ok env.file.text) (hkind : s.token.kind ≠ .endOfFile) :
    literalNode.Gives env true s s :=
  (literalNode_ends h).mono fun _ _ ht => ht.run.handedTook (ht.pos_lt h hkind)

theorem acceptToken_ends {k : Kind} (h : s.Ok env.file.text) :
    (acceptToken k).Ends env s fun found t =>
      (∃ id, found = some id ∧ s.token.kind = k ∧ Became env.file.text k s id t)
        ∨ (found = none ∧ s.token.kind ≠ k ∧ t = s) := by
  refine .kind (.ite (fun hk => ?_) fun hk => ?_)
  · have hk := beq_iff_eq.mp hk
    exact (tokenNode_ends h).bind fun id _ ht => .inl ⟨id, rfl, hk, hk ▸ ht⟩
  · exact .inr ⟨rfl, by simpa using hk, rfl⟩

theorem acceptToken_gives (k : Kind) (h : s.Ok env.file.text) :
    (acceptToken k).Gives env false s s := by
  refine (acceptToken_ends h).mono fun found t ht => ?_
  rcases ht with ⟨id, rfl, -, ht⟩ | ⟨rfl, -, rfl⟩
  · exact ht.run.handed
  · exact (Run.refl h).handed

theorem expectToken_gives {k : Kind} (hk : k.isNode = false) (h : s.Ok env.file.text) :
    (expectToken k).Gives env false s s := by
  refine (acceptToken_ends h).bind fun found t ht => ?_
  rcases ht with ⟨id, rfl, -, ht⟩ | ⟨rfl, -, rfl⟩
  · exact ht.run.handed
  · exact (missingHere_ends hk _ _ h).mono fun _ _ ht => ht.1.run.handed

theorem expectToken_ends {k : Kind} (h : s.Ok env.file.text) (hk : s.token.kind = k) :
    (expectToken k).Ends env s fun id t => Became env.file.text k s id t := by
  refine (acceptToken_ends h).bind fun found t ht => ?_
  rcases ht with ⟨id, rfl, -, ht⟩ | ⟨rfl, hne, rfl⟩
  · exact ht
  · exact absurd hk hne

/-- Where a token that should be there is not, there is a node for it, and the parser stays. -/
theorem expectToken_missing {k : Kind} (hnode : k.isNode = false) (h : s.Ok env.file.text)
    (hk : s.token.kind ≠ k) : (expectToken k).Ends env s fun id t => Finished env.file.text k s.pos [] s s id t := by
  refine (acceptToken_ends h).bind fun found t ht => ?_
  rcases ht with ⟨id, rfl, hfound, -⟩ | ⟨rfl, -, rfl⟩
  · exact absurd hfound hk
  · exact (missingHere_ends hnode _ _ h).mono fun _ _ ht => ht.1

theorem missingHere_gives {k : Kind} (hk : k.isNode = false) (m : Message) (args : List String)
    (h : s.Ok env.file.text) : (missingHere k m args).Gives env false s s :=
  (missingHere_ends hk m args h).mono fun _ _ ht => ht.1.run.handed

theorem missingBefore_gives {k : Kind} (hk : k.isNode = false) (m : Message) (args : List String)
    (h : s.Ok env.file.text) : (missingBefore k m args).Gives env false s s :=
  (missingBefore_ends hk m args h).mono fun _ _ ht => ht.1.run.handed

theorem missingList_gives (h : s.Ok env.file.text) : missingList.Gives env false s s :=
  (Run.emptyList h).handed

end Parser

namespace Sofar

open ScriptSyntax.Parser

/-- After a token that may be there and is a node then, the rest goes on behind it, or from the same
state. -/
theorem acceptToken {β : Type} {f : Option NodeId → Parser β} {Q : β → ParserState → Prop}
    {k : Kind} (g : Sofar env rank took r m s items) (hend : k ≠ .endOfFile)
    (yes : ∀ id t, s.token.kind = k →
      Sofar env Production.topRank true r m t (items ++ [Part.node id]) → (f (some id)).Ends env t Q)
    (no : s.token.kind ≠ k → (f none).Ends env s Q) : (Parser.acceptToken k >>= f).Ends env s Q := by
  refine (acceptToken_ends g.ready.ok).bind fun found t ht => ?_
  rcases ht with ⟨id, rfl, hk, ht⟩ | ⟨rfl, hk, rfl⟩
  · exact yes id t hk (g.goTook ht.run (ht.pos_lt g.ready.ok (hk ▸ hend)))
  · exact no hk

theorem finished {kind : Kind} {pos : Nat} {parts : List Part} {id : NodeId}
    (g : Sofar env rank took r m s items) (h : Finished env.file.text kind pos parts r s id t) :
    Handed env.file.text took r m t [.node id] :=
  have h : Handed env.file.text false r s t [.node id] :=
    ⟨h.run, Nat.le_of_eq (congrArg Token.fullStart h.token.symm), nofun⟩
  (g.resume h).toHanded

theorem finish {n : Node} (g : Sofar env rank took r m s items) (hpos : n.pos = r.pos)
    (hparts : n.parts = items) (hspreads : n.payload.spreadsProperty = false)
    (herror : n.flags.hasError = false) (hsourced : n.SourcedAt env.file.text r s)
    (hlawful : r.token.kind.isNode = false → n.Lawful s.arena) :
    (Parser.finish n).Ends env s fun id t => Handed env.file.text took r m t [.node id] :=
  (finish_ends g.run hpos hparts hspreads (by simp [herror]) hsourced hlawful).mono
    fun _ _ h => g.finished h

/-- A node that there are no rules for is finished. -/
theorem finishPlain {n : Node} (g : Sofar env rank took r m s items) (hpos : n.pos = r.pos)
    (hparts : n.parts = items) (hplain : n.kind.isSpecial n.payload = false)
    (herror : n.flags.hasError = false) (hsourced : n.SourcedAt env.file.text r s) :
    (Parser.finish n).Ends env s fun id t => Handed env.file.text took r m t [.node id] :=
  g.finish hpos hparts (Kind.not_spreadsProperty hplain) herror hsourced
    fun _ => Node.lawful_of_isRuled (Kind.not_isRuled hplain)

section

variable {kind : NodeKind} {payload : Payload} {pos : Nat}

/-- A production is finished from all parts handed over since it started. -/
theorem finishProduction (g : Sofar env rank took r m s items) (hpos : pos = r.pos)
    (hparts : partsOf payload.fields = items) (hplain : (Kind.node kind).isSpecial payload = false) :
    (Parser.finishProduction kind pos payload).Ends env s fun id t => Handed env.file.text took r m t [.node id] :=
  g.finishPlain hpos hparts hplain rfl (Node.sourcedAt_of_isToken rfl)

theorem finishFlagged {flags : NodeFlags} (g : Sofar env rank took r m s items) (hpos : pos = r.pos)
    (hparts : partsOf payload.fields = items) (hplain : (Kind.node kind).isSpecial payload = false)
    (herror : flags.hasError = false) :
    (Parser.finishFlagged kind pos flags payload).Ends env s fun id t => Handed env.file.text took r m t [.node id] :=
  g.finishPlain hpos hparts hplain herror (Node.sourcedAt_of_isToken rfl)

/-- A declaration is finished from its decorators, its modifiers and what came after them. -/
theorem finishDeclaration {start : DeclarationStart} (g : Sofar env rank took r m s items)
    (hpos : start.pos = r.pos) (hparts : held start ++ partsOf payload.fields = items)
    (hplain : (Kind.node kind).isSpecial payload = false) :
    (Parser.finishDeclaration kind start payload).Ends env s fun id t => Handed env.file.text took r m t [.node id] :=
  g.finishPlain hpos ((Node.parts_eq _).trans hparts) hplain rfl (Node.sourcedAt_of_isToken rfl)

/-- A declaration that there are rules for is finished if it breaks none. -/
theorem finishRuled {start : DeclarationStart} (g : Sofar env rank took r m s items)
    (hpos : start.pos = r.pos) (hparts : held start ++ partsOf payload.fields = items)
    (hspreads : payload.spreadsProperty = false)
    (hlawful : Node.Lawful s.arena {
      kind := .node kind, pos := start.pos, stop := start.pos, decorators := start.decorators
      modifiers := start.modifiers, payload }) :
    (Parser.finishDeclaration kind start payload).Ends env s fun id t => Handed env.file.text took r m t [.node id] :=
  g.finish hpos ((Node.parts_eq _).trans hparts) hspreads rfl (Node.sourcedAt_of_isToken rfl)
    fun _ => hlawful

theorem finishFlaggedDeclaration {start : DeclarationStart} {flags : NodeFlags}
    (g : Sofar env rank took r m s items) (hpos : start.pos = r.pos)
    (hparts : held start ++ partsOf payload.fields = items)
    (hplain : (Kind.node kind).isSpecial payload = false) (herror : flags.hasError = false) :
    (Parser.finishFlaggedDeclaration kind start flags payload).Ends env s fun id t => Handed env.file.text took r m t [.node id] :=
  g.finishPlain hpos ((Node.parts_eq _).trans hparts) hplain herror (Node.sourcedAt_of_isToken rfl)

end

end Sofar

end ScriptSyntax
