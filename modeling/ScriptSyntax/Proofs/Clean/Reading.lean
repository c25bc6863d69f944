/-
  ScriptSyntax/Proofs/Clean/Reading.lean
  ======================================
  Tokens and nodes on clean runs.

  A token that is asked for is there, so it is read over; what would be put in
  the place of something missing is never made.  A node that has read over a
  token takes room.
-/
import ScriptSyntax.Proofs.Clean.Rules

namespace ScriptSyntax

namespace Parser

variable {α β : Type} {p : Parser α} {f : α → Parser β} {env : Surroundings} {took : Bool} {k : Nat}
variable {r s t : ParserState} {items : List Part}

/-! ## 1. Errors -/

theorem fail_dirty (fault : Fault) : (fail fault).Ends env s fun _ t => ¬t.Clean := by
  intro hclean
  have hnone : (s.fault <|> some fault) = none := hclean.faultless
  cases hfault : s.fault <;> simp [hfault] at hnone

theorem errorAt_dirty (start length : Nat) (m : Message) (args : List String) :
    (errorAt start length m args).Ends env s fun _ t => ¬t.Clean := fun hclean =>
  Nat.ne_of_gt (DiagnosticLog.size_report_pos s.log _) hclean.silent

theorem errorAtRange_dirty (pos stop : Nat) (m : Message) (args : List String) :
    (errorAtRange pos stop m args).Ends env s fun _ t => ¬t.Clean :=
  errorAt_dirty _ _ _ _

theorem errorHere_dirty (m : Message) (args : List String) :
    (errorHere m args).Ends env s fun _ t => ¬t.Clean :=
  .token (errorAt_dirty _ _ _ _)

theorem expectedHere_dirty (k : Kind) : (expectedHere k).Ends env s fun _ t => ¬t.Clean :=
  errorHere_dirty _ _

/-- What follows an error comes too late. -/
theorem Ends.late (hp : p.Ends env s fun _ t => ¬t.Clean) (hadds : env.Adds)
    (hf : ∀ a, Orderly true (f a)) : (p >>= f).Ends env s fun _ t => ¬t.Clean :=
  hp.bind fun a _ ht => (hf a).dirty hadds ht

theorem missingHere_produces (kind : Kind) (m : Message) (args : List String) (h : env.Apt s) :
    (missingHere kind m args).Produces env k r s :=
  (Ends.late (errorHere_dirty m args) h.serves.adds fun _ => .missingNode kind).mono
    fun _ _ ht => .dirty ht

theorem missingBefore_produces (kind : Kind) (m : Message) (args : List String) (h : env.Apt s) :
    (missingBefore kind m args).Produces env k r s :=
  .nodePos ((Ends.late (errorAt_dirty _ _ m args) h.serves.adds fun _ => .missingNode kind).mono
    fun _ _ ht => .dirty ht)

/-! ## 2. The next token -/

theorem identifierCount_advance (mode : ReadingMode) (env : Surroundings) (s : ParserState) :
    (advance mode env s).2.identifierCount = s.identifierCount := by
  have hcount (errors : List ScanError) (t : ParserState) :
      ((errors.forM fun e => errorAt e.start e.length e.message []) env t).2.identifierCount
        = t.identifierCount := by
    induction errors generalizing t with
    | nil => rfl
    | cons e errors ih => exact ih _
  exact hcount (mode.read env.file.text s.token).2 _

/-- Reading on reports nothing if the run ends clean, and the token read lies in the text. -/
theorem advance_went (mode : ReadingMode) (h : env.Apt s) (hfits : mode.FitsToken s.token) :
    (advance mode).Ends env s fun _ t => Went env.file.text
      (mode.movesOn && s.token.kind != .endOfFile) 0 s t [] := by
  intro hclean
  have hadds := (Orderly.advance mode).adds h.serves.adds s
  have hstart := hadds.clean hclean
  have hfine := h.fine hstart
  have htoken := token_advance mode env s
  have hpos : (advance mode env s).2.pos = if mode.movesOn then s.token.stop else s.pos := by
    rw [ParserState.pos, htoken, ReadingMode.fullStart_read]
  have harena : (advance mode env s).2.arena = s.arena := congrArg Forest.arena (forest_advance mode env s)
  refine ⟨⟨hstart, ⟨?_, ?_⟩, congrArg Scope.depth hadds.scope_eq, hadds.grows, ?_, fun htook => ?_, by simp⟩, ?_⟩
  · rw [htoken]
    exact (mode.read_inText hfine.token hfits.kind_ne).1
  · rw [harena]
    exact hfine.regular
  · show s.token.fullStart ≤ Token.fullStart _
    rw [htoken]
    exact mode.fullStart_le_read hfine.token
  · simp only [Bool.and_eq_true, bne_iff_ne] at htook
    rw [hpos, if_pos htook.1]
    exact hfine.token.fullStart_lt_stop htook.2
  · rw [identifierCount_advance, harena]

theorem advance_goes (mode : ReadingMode) (h : env.Apt s) (hfits : mode.FitsToken s.token) :
    (advance mode).Goes env false 0 s :=
  (advance_went mode h hfits).mono fun _ _ ht => ht.weaken

/-- A token that is read again starts where it was. -/
theorem advance_rescans (mode : ReadingMode) (h : env.Apt s) (hmode : mode.movesOn = false)
    (hfits : mode.FitsToken s.token) :
    (advance mode).Ends env s fun _ t => Went env.file.text false 0 s t [] ∧ t.pos = s.pos := by
  refine ⟨advance_goes mode h hfits, ?_⟩
  have hsame := ReadingMode.fullStart_read mode env.file.text s.token
  rw [hmode] at hsame
  rw [ParserState.pos, token_advance mode env s]
  exact hsame

theorem nextToken_goes (h : env.Apt s) : nextToken.Goes env false 0 s := advance_goes .scan h nofun

/-- Reading on from a token that takes room goes over it. -/
theorem advance_passes {mode : ReadingMode} (h : env.Apt s) (hmode : mode.movesOn = true)
    (hkind : s.token.kind ≠ .endOfFile) : (advance mode).Goes env true 0 s := by
  have hfits : mode.FitsToken s.token := by
    rintro rfl
    cases hmode
  have htook : (mode.movesOn && s.token.kind != .endOfFile) = true := by simp [hmode, hkind]
  have hwent := advance_went mode h hfits
  rwa [htook] at hwent

theorem nextToken_passes (h : env.Apt s) (hkind : s.token.kind ≠ .endOfFile) :
    nextToken.Goes env true 0 s :=
  advance_passes h rfl hkind

theorem accept_went (k : Kind) (h : env.Apt s) : (accept k).Ends env s fun found t =>
    (found = true ∧ s.token.kind = k ∧ Went env.file.text (k != .endOfFile) 0 s t [])
      ∨ (found = false ∧ t = s) := by
  refine .kind (.ite (fun hk => ?_) fun hk => .inr ⟨rfl, rfl⟩)
  have hk := beq_iff_eq.mp hk
  refine (advance_went .scan h nofun).bind fun _ t ht => .inl ⟨rfl, hk, ?_⟩
  rwa [hk] at ht

theorem accept_goes (k : Kind) (h : env.Apt s) : (accept k).Goes env false 0 s := by
  refine (accept_went k h).mono fun _ t ht => ?_
  rcases ht with ⟨-, -, ht⟩ | ⟨-, rfl⟩
  · exact ht.weaken
  · exact .refl h.fine

theorem acceptPunct_goes (p : Punctuator) (h : env.Apt s) : (acceptPunct p).Goes env false 0 s :=
  accept_goes _ h

/-- A token that is asked for is there, or the run does not end clean. -/
theorem require_went (k : Kind) (m : Option Message) :
    (require k m).Ends env s fun found t =>
      (found = true ∧ s.token.kind = k ∧ t = s) ∨ (found = false ∧ ¬t.Clean) := by
  refine .kind (.ite (fun hk => .inl ⟨rfl, beq_iff_eq.mp hk, rfl⟩) fun _ => ?_)
  cases m with
  | none => exact (expectedHere_dirty k).bind fun _ t ht => .inr ⟨rfl, ht⟩
  | some m => exact (errorHere_dirty m []).bind fun _ t ht => .inr ⟨rfl, ht⟩

theorem require_goes (k : Kind) (m : Option Message) (h : env.Apt s) :
    (require k m).Goes env false 0 s := by
  refine (require_went k m).mono fun _ t ht => ?_
  rcases ht with ⟨-, -, rfl⟩ | ⟨-, ht⟩
  · exact .refl h.fine
  · exact .dirty ht

theorem expectWith_goes {k : Kind} (m : Option Message) (h : env.Apt s) (hend : k ≠ .endOfFile) :
    (expectWith k m).Goes env true 0 s := by
  refine (require_went k m).bind fun _ t ht => ?_
  rcases ht with ⟨rfl, hk, rfl⟩ | ⟨rfl, ht⟩
  · exact (nextToken_passes h (hk ▸ hend)).bind fun _ _ ht => ht
  · exact Ends.pure (.dirty ht)

theorem expectPunct_goes (p : Punctuator) (h : env.Apt s) : (expectPunct p).Goes env true 0 s :=
  expectWith_goes none h nofun

theorem expectKeyword_goes (k : Keyword) (h : env.Apt s) : (expectKeyword k).Goes env true 0 s :=
  expectWith_goes none h nofun

theorem expectClosing_goes (opening closing : Punctuator) (opened : Option Nat) (h : env.Apt s) :
    (expectClosing opening closing opened).Goes env true 0 s := by
  refine (accept_went (.punct closing) h).bind fun found t ht => ?_
  rcases ht with ⟨rfl, -, ht⟩ | ⟨rfl, rfl⟩
  · exact ht
  refine .get ((expectedHere_dirty (.punct closing)).bind fun _ u hu => ?_)
  cases opened with
  | none => exact Ends.pure (.dirty hu)
  | some pos =>
    refine .get ?_
    split
    · exact ((Orderly.relateToLast fun name => .ofMessageAt name ⟨pos, 1⟩ .matchingTokenExpected
        [closing.text, opening.text]).dirty h.serves.adds hu).mono fun _ _ ht => .dirty ht
    · exact Ends.pure (.dirty hu)

theorem semicolon_goes (h : env.Apt s) : semicolon.Goes env false 0 s := by
  refine .ask h .canEndStatement fun ends t _ h => .ite (fun _ => ?_) fun _ => ?_
  · exact (acceptPunct_goes .semicolon h).bind fun _ _ ht => ht
  · exact (expectPunct_goes .semicolon h).bind fun _ _ ht => ht.weaken

end Parser

namespace Going

open ScriptSyntax.Parser

variable {β : Type} {f : Bool → Parser β} {env : Surroundings} {took : Bool} {k : Nat}
variable {r s : ParserState} {items : List Part} {Q : β → ParserState → Prop}

/-- After a token that may be there, the rest goes on behind it, or from the same state. -/
theorem accept {kind : Kind} (g : Going env took k r s items) (hend : kind ≠ .endOfFile)
    (yes : ∀ t, Going env true k r t items → (f true).Ends env t Q) (no : (f false).Ends env s Q) :
    (Parser.accept kind >>= f).Ends env s Q := by
  refine (accept_went kind g.apt).bind fun found t ht => ?_
  rcases ht with ⟨rfl, -, ht⟩ | ⟨rfl, rfl⟩
  · rw [bne_iff_ne.mpr hend] at ht
    exact yes t (g.goOnTook ht)
  · exact no

/-- A finished node may be looked at. -/
theorem node {f : Node → Parser β} {id : NodeId} (g : Going env took k r s items)
    (hf : ∀ n t, (t.Clean → t = s ∧ s.arena.get? id = some n) → Going env took k r t items →
      (f n).Ends env t Q) : (Parser.node id >>= f).Ends env s Q := by
  have hnode : (Parser.node id).Ends env s fun n t =>
      (t.Clean → t = s ∧ s.arena.get? id = some n) ∧ Going env took k r t items := by
    refine .get ?_
    split
    · exact .pure ⟨fun _ => ⟨rfl, ‹_›⟩, g⟩
    · exact (fail_dirty _).bind fun _ t ht => .pure ⟨fun hclean => absurd hclean ht, g.dirty ht⟩
  exact hnode.bind fun n t ht => hf n t ht.1 ht.2

theorem acceptPunct {p : Punctuator} (g : Going env took k r s items)
    (yes : ∀ t, Going env true k r t items → (f true).Ends env t Q) (no : (f false).Ends env s Q) :
    (Parser.acceptPunct p >>= f).Ends env s Q :=
  g.accept nofun yes no

theorem acceptKeyword {keyword : Keyword} (g : Going env took k r s items)
    (yes : ∀ t, Going env true k r t items → (f true).Ends env t Q) (no : (f false).Ends env s Q) :
    (Parser.acceptKeyword keyword >>= f).Ends env s Q :=
  g.accept nofun yes no

end Going

/-! ## 3. Finished nodes -/

namespace Parser

variable {env : Surroundings} {took : Bool} {k k' : Nat} {r s : ParserState} {items : List Part} {n : Node}

/-- A node that is finished on a clean run does not end before it starts. -/
theorem finish_clean (n : Node) (env : Surroundings) (s : ParserState) :
    (finish n).Ends env s fun _ t => t.Clean → s.Clean ∧ n.pos ≤ s.pos := by
  refine .nodePos ?_
  extract_lets rest
  split
  · exact (fail_dirty _).bind fun _ t ht hclean => absurd ⟨hclean.faultless, hclean.silent⟩ ht
  · rename_i hlt
    exact fun hclean => ⟨⟨hclean.faultless, hclean.silent⟩, Nat.le_of_not_lt hlt⟩

/-- The node is there under the number, and nothing else is added. -/
structure FinishedClean (n : Node) (s : ParserState) (id : NodeId) (t : ParserState) : Prop where
  node : ∃ stop flags, t.arena.get? id = some { n with stop, flags }
  count_eq : t.identifierCount = s.identifierCount
  nodes_eq : t.arena.identifierNodes = s.arena.identifierNodes + if n.kind = .identifier then 1 else 0

/-- A node is finished from children for which there is room. -/
theorem finish_moves (h : s.Clean → Moved env.file.text took k' r s items)
    (hregular : s.Clean → { n with stop := s.pos }.Regular) (hk : 0 < k)
    (hchildren : s.Clean → ∀ c ∈ n.children, s.arena.HasRoom n (s.limit + k) c) :
    (finish n).Ends env s fun id t => t.Clean →
      Moved env.file.text took k r t [.node id] ∧ FinishedClean n s id t := by
  have hfinish := finish_clean n env s
  intro hclean
  obtain ⟨hstill, hle⟩ := hfinish hclean
  have hgone := h hstill
  let made : Node := { n with stop := s.pos, flags := flagsAt s n.flags }
  have hgrows : s.arena.Grows (s.arena.push made) := Arena.grows_push _ _
  have hself : (s.arena.push made).get? ⟨s.arena.size⟩ = some made := Arena.get?_push_self _ _
  have hmade : (s.arena.push made).Within (r.limit + k) ⟨s.arena.size⟩ :=
    hgone.limit_eq ▸ Arena.within_push (Nat.lt_add_left _ hk) (hchildren hstill)
  rw [finish_eq n hle, finishAt_eq]
  refine ⟨⟨hgone.start, ⟨hgone.fine.token, ?_⟩, hgone.depth_eq, hgone.grows.trans hgrows, hgone.forward,
    hgone.ahead, ?_⟩, ⟨_, _, hself⟩, rfl, Arena.identifierNodes_push _ _⟩
  · intro id m hm
    rcases Arena.get?_push_cases hm with hold | ⟨-, rfl⟩
    · exact hgone.fine.regular id m hold
    · exact hregular hstill
  · intro c hc
    rw [List.mem_singleton.mp hc]
    exact hmade

theorem finish_went (h : Went env.file.text took k' r s items) (hkind : n.kind ≠ .identifier)
    (hregular : s.Clean → { n with stop := s.pos }.Regular) (hk : 0 < k)
    (hchildren : s.Clean → ∀ c ∈ n.children, s.arena.HasRoom n (s.limit + k) c) :
    (finish n).Ends env s fun id t => Went env.file.text took k r t [.node id]
      ∧ (t.Clean → ∃ stop flags, t.arena.get? id = some { n with stop, flags }) := by
  have hmoves : (finish n).Ends env s _ :=
    finish_moves (fun hclean => (h hclean).toMoved) hregular hk hchildren
  refine (hmoves.and (finish_clean n env s)).mono fun id t ht => forall_and.mp fun hclean => ?_
  obtain ⟨hmoved, hnode, hcount, hnodes⟩ := ht.1 hclean
  have hcounted := (h (ht.2 hclean).1).counted
  rw [if_neg hkind, Nat.add_zero] at hnodes
  exact ⟨⟨hmoved, by rw [hcount, hnodes, hcounted]⟩, hnode⟩

end Parser

/-- The bound of a node that was made, where the parser has gone on since. -/
theorem Made.within {text : Array Char} {took : Bool} {k k' : Nat} {r s t : ParserState} {items : List Part}
    {id : NodeId} (h : Made text k r id s) (hgone : Gone text took k' s t items) :
    t.arena.Within (t.limit + k) id := by
  have hmade := h.went hgone.start
  rw [hgone.limit_eq, hmade.limit_eq]
  exact (hmade.within id (by simp)).grows hgone.grows

namespace Going

open ScriptSyntax.Parser

variable {env : Surroundings} {took took' : Bool} {k k' : Nat} {r s t u : ParserState}
variable {items items' : List Part} {n : Node} {inner left : NodeId}

/-- There is room for what has been handed over. -/
theorem hasRoom (g : Going env took k r s items) (hclean : s.Clean) {c : NodeId} (hc : c ∈ childrenOf items) :
    s.arena.HasRoom n (s.limit + (k + 1)) c := by
  have hwithin := (g.went hclean).within c hc
  rw [← (g.went hclean).limit_eq] at hwithin
  exact hwithin.hasRoom

/-- A node is finished from all that has been handed over. -/
theorem finish_goes (g : Going env took k r s items) (hparts : n.parts = items)
    (hkind : n.kind ≠ .identifier) (hregular : s.Clean → { n with stop := s.pos }.Regular) :
    (Parser.finish n).Ends env s fun id t => Went env.file.text took (k + 1) r t [.node id] :=
  (finish_went g.went hkind hregular (Nat.succ_pos k) fun hclean _ hc => g.hasRoom hclean (hparts ▸ hc)).mono
    fun _ _ ht => ht.1

/-- A node that has read over a token takes room. -/
theorem finish_produces (g : Going env true k' r s items) (hpos : s.Clean → n.pos ≤ r.pos)
    (hkind : n.kind.isSolid = true) (hk : 0 < k)
    (hchildren : s.Clean → ∀ c ∈ n.children, s.arena.HasRoom n (s.limit + k) c) :
    (Parser.finish n).Produces env k r s := by
  have hregular (hclean : s.Clean) : { n with stop := s.pos }.Regular := by
    exact Node.regular_of_lt (.inl hkind) (Nat.lt_of_le_of_lt (hpos hclean) ((g.went hclean).ahead rfl))
  have hclean := finish_clean n env s
  have hne := Kind.ne_identifier_of_isSolid hkind
  refine ((finish_went g.went hne hregular hk hchildren).and hclean).mono fun id t ht => ⟨ht.1.1, fun hend => ?_⟩
  obtain ⟨stop, flags, hmade⟩ := ht.1.2 hend
  exact ⟨_, hmade, hpos (ht.2 hend).1⟩

/-- The node may start before the way does. -/
theorem finishBehind (g : Going env true k r s items) (hpos : s.Clean → n.pos ≤ r.pos)
    (hparts : n.parts = items) (hkind : n.kind.isSolid = true) :
    (Parser.finish n).Produces env (k + 1) r s :=
  g.finish_produces hpos hkind (Nat.succ_pos k) fun hclean _ hc => g.hasRoom hclean (hparts ▸ hc)

theorem finish (g : Going env true k r s items) (hpos : n.pos = r.pos) (hparts : n.parts = items)
    (hkind : n.kind.isSolid = true) : (Parser.finish n).Produces env (k + 1) r s :=
  g.finishBehind (fun _ => Nat.le_of_eq hpos) hparts hkind

/-- A node is finished, one of whose children was read without the depth of nesting being checked. -/
theorem finishUnguarded (g : Going env true k r s items) (h : Made env.file.text k' u inner s)
    (g' : Going env took k s t items') (hunguarded : inner ∈ t.arena.unguarded n) (hpos : n.pos = r.pos)
    (hparts : n.parts = items ++ .node inner :: items') (hkind : n.kind.isSolid = true)
    (hle : k' ≤ k + fallsPerLevel) :
    (Parser.finish n).Produces env (k + 1) r t := by
  have hall := g.go g'.went (Nat.le_refl k)
  refine hall.finish_produces (fun _ => Nat.le_of_eq hpos) hkind (Nat.succ_pos k) fun hclean c hc => ?_
  have hmem : c = inner ∨ c ∈ childrenOf (items ++ items') := by
    have hc : c ∈ childrenOf n.parts := hc
    rw [hparts] at hc
    simp only [childrenOf_append, childrenOf_node, List.mem_append, List.mem_cons] at hc ⊢
    tauto
  rcases hmem with rfl | hmem
  · exact (h.within (g'.went hclean)).hasRoom_of_unguarded hunguarded (by omega)
  · exact hall.hasRoom hclean hmem

end Going

/-- There is room for a node that was made where the way starts. -/
theorem Made.hasRoom {text : Array Char} {took : Bool} {k k' : Nat} {r s t : ParserState} {items : List Part}
    {n : Node} {left : NodeId} (h : Made text k r left s) (hgone : Gone text took k' s t items)
    (hpos : n.pos = r.pos) : t.arena.HasRoom n (t.limit + k) left := by
  refine (h.within hgone).hasRoom_of_pos_le fun m hm => ?_
  obtain ⟨m', hm', hbegins⟩ := h.begins hgone.start
  cases hm.symm.trans (hgone.grows.get? hm')
  exact hpos ▸ hbegins

/-- A node is finished that goes on from one that starts where it starts itself. -/
theorem Made.finish {env : Surroundings} {took : Bool} {k : Nat} {r s t : ParserState} {items : List Part}
    {n : Node} {left : NodeId} (h : Made env.file.text (k + 1) r left s) (g : Going env took k s t items)
    (hpos : n.pos = r.pos) (hparts : n.parts = .node left :: items) (hkind : n.kind.isSolid = true) :
    (Parser.finish n).Produces env (k + 1) r t := by
  have hway : Going env true k r t items := ⟨g.serves, (h.went.past.mono (Nat.zero_le k)).go g.went (Nat.le_refl k)⟩
  refine hway.finish_produces (fun _ => Nat.le_of_eq hpos) hkind (Nat.succ_pos k) fun hclean c hc => ?_
  have hmem : c ∈ childrenOf (.node left :: items) := hparts ▸ hc
  rcases List.mem_cons.mp hmem with rfl | hmem
  · exact h.hasRoom (g.went hclean) hpos
  · exact hway.hasRoom hclean hmem

/-! ## 4. Nodes made of tokens -/

theorem Kind.ne_endOfFile_of_isSolid {k : Kind} (h : k.isSolid = true) : k ≠ .endOfFile := by
  rintro rfl
  cases h

namespace Parser

variable {env : Surroundings} {k : Nat} {r s : ParserState}

/-- An element that is left out takes no room. -/
theorem omitted_goes (h : env.Apt s) :
    (finishProduction .omittedExpression s.pos .token).Goes env false 1 s := by
  have hregular : { kind := .node .omittedExpression, pos := s.pos, stop := s.pos, payload := .token : Node }.Regular :=
    ⟨fun _ => .inl rfl, fun _ => by simp [Node.isMissing]⟩
  exact (Going.start 0 h).finish_goes (by simp [Node.parts_eq, Payload.fields]) (by simp) fun _ => hregular

theorem tokenNode_produces (h : env.Apt s) (hkind : s.token.kind.isSolid = true) :
    tokenNode.Produces env 1 s s :=
  .token ((Going.start 0 h).stepTook (nextToken_passes h (Kind.ne_endOfFile_of_isSolid hkind))
    fun _ _ g => g.finish rfl rfl hkind)

theorem literalNode_produces (h : env.Apt s) (hkind : s.token.kind.isSolid = true) :
    literalNode.Produces env 1 s s :=
  .token ((Going.start 0 h).stepTook (nextToken_passes h (Kind.ne_endOfFile_of_isSolid hkind))
    fun _ _ g => g.finish rfl rfl hkind)

/-- The token becomes a node, or it stays where it is. -/
theorem acceptToken_went {kind : Kind} (h : env.Apt s) (hkind : kind.isSolid = true) :
    (acceptToken kind).Ends env s fun found t =>
      (∃ id, found = some id ∧ Made env.file.text 1 s id t) ∨ (found = none ∧ t = s) := by
  refine .kind (.ite (fun hk => ?_) fun _ => .inr ⟨rfl, rfl⟩)
  have hk := beq_iff_eq.mp hk
  exact (tokenNode_produces h (hk ▸ hkind)).bind fun id _ ht => .inl ⟨id, rfl, ht⟩

theorem acceptToken_goes {kind : Kind} (h : env.Apt s) (hkind : kind.isSolid = true) :
    (acceptToken kind).Goes env false 1 s := by
  refine (acceptToken_went h hkind).mono fun _ t ht => ?_
  rcases ht with ⟨id, rfl, ht⟩ | ⟨rfl, rfl⟩
  · exact ht.went.weaken
  · exact .refl h.fine

theorem expectToken_produces {kind : Kind} (h : env.Apt s) (hkind : kind.isSolid = true) :
    (expectToken kind).Produces env 1 s s := by
  refine (acceptToken_went h hkind).bind fun found t ht => ?_
  rcases ht with ⟨id, rfl, ht⟩ | ⟨rfl, rfl⟩
  · exact .pure ht
  · exact missingHere_produces kind _ _ h

end Parser

end ScriptSyntax
