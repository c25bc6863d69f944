/-
  ScriptSyntax/Proofs/Orderly/Rules.lean
  ====================================
  What every parser of the grammar respects, from every state and whatever the
  text is.

  An orderly parser only adds to the tree and to the log, puts its surroundings
  back, and has no regard for the stamp: run on a file whose nodes carry another
  stamp, it does the same, stamp apart.  It enters no name twice, and counts no
  more identifiers than it makes.  Whether tags are part of the syntax it asks
  only at an opening angle bracket, so where the text has none that does not
  matter either.  Orderly parsers are closed under all that the grammar is put
  together with, and there is one rule for each of these; what is said of whole
  productions is put together from the rules.
-/
import ScriptSyntax.Proofs.Grammar.Calls
import ScriptSyntax.Proofs.Token.Punctuation
import ScriptSyntax.Proofs.Tree.Stamp

namespace ScriptSyntax

/-! ## 1. States -/

/-- The state in which all nodes, and those to come, have the given stamp. -/
def ParserState.stamped (s : ParserState) (b : Bool) : ParserState :=
  { s.inContext (s.scope.context.stamped b) with arena := s.arena.stamped b }

theorem ParserState.adding_stamped (s : ParserState) (n : Node) (b : Bool) :
    (s.stamped b).adding (n.stamped b) = (s.adding n).stamped b := by
  simp [adding, stamped, inContext]

theorem ParserState.rewind_stamped (s t : ParserState) (b : Bool) :
    (t.stamped b).rewind (s.stamped b).snapshot = (t.rewind s.snapshot).stamped b := by
  simp [rewind, snapshot, stamped, inContext]

/-- How many nodes are identifiers. -/
def Arena.identifierNodes (a : Arena) : Nat := a.nodes.countP fun n => n.kind == .identifier

theorem Arena.identifierNodes_push (a : Arena) (n : Node) :
    (a.push n).identifierNodes = a.identifierNodes + if n.kind = .identifier then 1 else 0 := by
  simp [identifierNodes, push, Array.countP_push]

/-- The state in which one identifier more has been counted. -/
def ParserState.counting (s : ParserState) : ParserState :=
  { s with identifierCount := s.identifierCount + 1 }

/-- What a parser leaves as it was: the nodes that there were, and the surroundings. The log does not
shrink, and a failure is not forgotten. No name is entered twice, and no identifier is counted for which
no node is made. -/
structure ParserState.Adds (s t : ParserState) : Prop where
  grows : s.arena.Grows t.arena
  logged : s.log.size ≤ t.log.size
  scope_eq : t.scope = s.scope
  fault : t.fault = none → s.fault = none
  distinct : s.names.toList.Nodup → t.names.toList.Nodup
  counted : t.identifierCount + s.arena.identifierNodes ≤ s.identifierCount + t.arena.identifierNodes

/-- Nothing has happened but that names were met and failures noted. -/
structure ParserState.Stays (s t : ParserState) : Prop where
  token : t.token = s.token
  arena : t.arena = s.arena
  logged : t.log.size = s.log.size
  counted : t.identifierCount = s.identifierCount

namespace ParserState

variable {s t u : ParserState}

theorem Adds.refl (s : ParserState) : s.Adds s :=
  ⟨.refl _, Nat.le_refl _, rfl, id, id, Nat.le_refl _⟩

theorem Adds.trans (h : s.Adds t) (h' : t.Adds u) : s.Adds u where
  grows := h.grows.trans h'.grows
  logged := Nat.le_trans h.logged h'.logged
  scope_eq := h'.scope_eq.trans h.scope_eq
  fault := h.fault ∘ h'.fault
  distinct := h'.distinct ∘ h.distinct
  counted := by
    have := h.counted
    have := h'.counted
    omega

theorem Stays.refl (s : ParserState) : s.Stays s := ⟨rfl, rfl, rfl, rfl⟩

theorem Stays.trans (h : s.Stays t) (h' : t.Stays u) : s.Stays u :=
  ⟨h'.token.trans h.token, h'.arena.trans h.arena, h'.logged.trans h.logged,
    h'.counted.trans h.counted⟩

/-- Rewinding gives back what there was. -/
theorem Adds.rewind (h : s.Adds t) : s.Adds (t.rewind s.snapshot) ∧ s.Stays (t.rewind s.snapshot) := by
  have harena : (t.rewind s.snapshot).arena = s.arena := h.grows.truncate_eq
  have hlog : (t.rewind s.snapshot).log.size = s.log.size := by
    have := h.logged
    show (t.log.entries.shrink s.log.size).size = s.log.size
    rw [Array.size_shrink]
    exact Nat.min_eq_left h.logged
  have hscope : (t.rewind s.snapshot).scope = s.scope := by
    show { t.scope with context := s.scope.context } = s.scope
    rw [h.scope_eq]
  refine ⟨⟨?_, Nat.le_of_eq hlog.symm, hscope, h.fault, h.distinct, ?_⟩, rfl, harena, hlog, rfl⟩
  · rw [harena]
    exact .refl _
  · rw [harena]
    exact Nat.le_refl _

end ParserState

/-! ## 2. Surroundings -/

/-- What the parts of a namespace are declared with before they are finished shows no context. -/
def Production.Unstamped : Production → Prop
  | namespaceDeclaration _ flags => flags.context = {}
  | _ => True

/-- Calls only add to what there was. -/
def Surroundings.Adds (env : Surroundings) : Prop :=
  ∀ q : Production, q.Unstamped → ∀ s : ParserState, s.Adds (env.call q s).2

/-- Surroundings for one text and one name. Tags are part of the syntax in both or in neither, unless
the text has no opening angle bracket; and calls come to the same, stamp apart. -/
structure Surroundings.Twins (b : Bool) (env env' : Surroundings) : Prop where
  name : env'.file.name = env.file.name
  text : env'.file.text = env.file.text
  variant : env'.file.variant = env.file.variant ∨ '<' ∉ env.file.text
  call : ∀ q : Production, q.Unstamped → ∀ s : ParserState, s.token.Marked env.file.text →
    env'.call q (s.stamped b) = ((env.call q s).1, (env.call q s).2.stamped b)
      ∧ (env.call q s).2.token.Marked env.file.text

/-- Where tags are part of the syntax of only one of two files, no opening angle bracket is met. -/
theorem Surroundings.Twins.variant_eq {b : Bool} {env env' : Surroundings} (h : env.Twins b env')
    {t : Token} (ht : t.Marked env.file.text) (hkind : t.kind = .punct .lessThan) :
    env'.file.variant = env.file.variant := by
  refine h.variant.resolve_right fun hnone => hnone ?_
  have hchar : env.file.text[t.start]? = some '<' := ht .lessThan hkind
  exact Array.mem_of_getElem? hchar

/-! ## 3. Orderly parsers -/

/-- The parser only adds to what there was, and does the same whatever the stamp is. One that does not
move is a question: it reads no token for good, makes no node and reports nothing. -/
structure Orderly {α : Type} (moves : Bool) (p : Parser α) : Prop where
  twin : ∀ {b : Bool} {env env' : Surroundings}, env.Twins b env' → ∀ s : ParserState, s.token.Marked env.file.text →
    p env' (s.stamped b) = ((p env s).1, (p env s).2.stamped b)
      ∧ (p env s).2.token.Marked env.file.text
  adds : ∀ {env : Surroundings}, env.Adds → ∀ s : ParserState, s.Adds (p env s).2
  stays : moves = false → ∀ {env : Surroundings}, env.Adds → ∀ s : ParserState, s.Stays (p env s).2

namespace Orderly

variable {α β σ : Type} {moves : Bool} {p : Parser α} {f : α → Parser β}

/-! ### Steps -/

theorem pure (a : α) : Orderly moves (Pure.pure a : Parser α) where
  twin _ _ hs := ⟨rfl, hs⟩
  adds _ s := .refl s
  stays _ _ _ s := .refl s

theorem bind (hp : Orderly moves p) (hf : ∀ a, Orderly moves (f a)) : Orderly moves (p >>= f) where
  twin {b env env'} htwins s hs := by
    obtain ⟨heq, hnext⟩ := hp.twin htwins s hs
    show f (p env' (s.stamped b)).1 env' (p env' (s.stamped b)).2 = _ ∧ _
    rw [heq]
    exact (hf (p env s).1).twin htwins _ hnext
  adds henv s := (hp.adds henv s).trans ((hf _).adds henv _)
  stays hmoves _ henv s := (hp.stays hmoves henv s).trans ((hf _).stays hmoves henv _)

/-- What is known of every result may be used. -/
theorem bindOf {P : α → Prop} (hp : Orderly moves p) (hpost : ∀ env s, P (p env s).1)
    (hf : ∀ a, P a → Orderly moves (f a)) : Orderly moves (p >>= f) where
  twin {b env env'} htwins s hs := by
    obtain ⟨heq, hnext⟩ := hp.twin htwins s hs
    show f (p env' (s.stamped b)).1 env' (p env' (s.stamped b)).2 = _ ∧ _
    rw [heq]
    exact (hf _ (hpost env s)).twin htwins _ hnext
  adds {env} henv s := (hp.adds henv s).trans ((hf _ (hpost env s)).adds henv _)
  stays hmoves env henv s :=
    (hp.stays hmoves henv s).trans ((hf _ (hpost env s)).stays hmoves henv _)

theorem map {g : α → β} (hp : Orderly moves p) : Orderly moves (p >>= fun a => Pure.pure (g a)) :=
  hp.bind fun _ => .pure _

theorem ite {c : Bool} {p q : Parser α} (hp : Orderly moves p) (hq : Orderly moves q) :
    Orderly moves (if c = true then p else q) := by
  cases c with
  | true => exact hp
  | false => exact hq

theorem or {p q : Parser Bool} (hp : Orderly moves p) (hq : Orderly moves q) :
    Orderly moves (p <||> q) := by
  refine hp.bind fun b => ?_
  cases b with
  | true => exact .pure true
  | false => exact hq

theorem and {p q : Parser Bool} (hp : Orderly moves p) (hq : Orderly moves q) :
    Orderly moves (p <&&> q) := by
  refine hp.bind fun b => ?_
  cases b with
  | true => exact hq
  | false => exact .pure false

/-- Whatever is asked of the state may not be about the stamp. -/
theorem get {f : ParserState → Parser β} (hf : ∀ s b, f (s.stamped b) = f s)
    (h : ∀ s, Orderly moves (f s)) :
    Orderly moves ((MonadStateOf.get : Parser ParserState) >>= f) where
  twin {b env env'} htwins s hs := by
    show f (s.stamped b) env' (s.stamped b) = _ ∧ _
    rw [hf]
    exact (h s).twin htwins s hs
  adds henv s := (h s).adds henv s
  stays hmoves _ henv s := (h s).stays hmoves henv s

/-- Of the surroundings the name and the text may be asked for. -/
theorem read {f : Surroundings → Parser β}
    (hf : ∀ env env' : Surroundings, env'.file.name = env.file.name →
      env'.file.text = env.file.text → f env' = f env)
    (h : ∀ env, Orderly moves (f env)) :
    Orderly moves ((MonadReader.read : Parser Surroundings) >>= f) where
  twin {b env env'} htwins s hs := by
    show f env' env' (s.stamped b) = _ ∧ _
    rw [hf env env' htwins.name htwins.text]
    exact (h env).twin htwins s hs
  adds {env} henv s := (h env).adds henv s
  stays hmoves env henv s := (h env).stays hmoves henv s

/-! ### Looking around -/

theorem token : Orderly moves Parser.token := get (fun _ _ => rfl) fun _ => .pure _

theorem kind : Orderly moves Parser.kind := get (fun _ _ => rfl) fun _ => .pure _

/-- Whether tags are part of the syntax may be asked where one may open. -/
theorem lessThan {f : Kind → Parser α} {g : LanguageVariant → Parser α}
    (hless : ∀ env s, f (.punct .lessThan) env s = g env.file.variant env s)
    (hg : ∀ v, Orderly moves (g v)) (h : ∀ k, k ≠ .punct .lessThan → Orderly moves (f k)) :
    Orderly moves (Parser.kind >>= f) where
  twin {b env env'} htwins s hs := by
    show f s.token.kind env' (s.stamped b) = ((f s.token.kind env s).1, (f s.token.kind env s).2.stamped b)
      ∧ (f s.token.kind env s).2.token.Marked env.file.text
    by_cases hkind : s.token.kind = .punct .lessThan
    · rw [hkind, hless, hless, htwins.variant_eq hs hkind]
      exact (hg _).twin htwins s hs
    · exact (h _ hkind).twin htwins s hs
  adds {env} henv s := by
    show s.Adds (f s.token.kind env s).2
    by_cases hkind : s.token.kind = .punct .lessThan
    · rw [hkind, hless]
      exact (hg _).adds henv s
    · exact (h _ hkind).adds henv s
  stays hmoves env henv s := by
    show s.Stays (f s.token.kind env s).2
    by_cases hkind : s.token.kind = .punct .lessThan
    · rw [hkind, hless]
      exact (hg _).stays hmoves henv s
    · exact (h _ hkind).stays hmoves henv s

theorem isAt (k : Kind) : Orderly moves (Parser.isAt k) := kind.map

theorem isAtPunct (p : Punctuator) : Orderly moves (Parser.isAtPunct p) := isAt _

theorem isAtKeyword (k : Keyword) : Orderly moves (Parser.isAtKeyword k) := isAt _

theorem kindIs (c : Kind → Bool) : Orderly moves (Parser.kindIs c) := kind.map

theorem nodePos : Orderly moves Parser.nodePos := token.map

theorem tokenPos : Orderly moves Parser.tokenPos := token.map

theorem afterLineBreak : Orderly moves Parser.afterLineBreak := token.map

/-- Of the context all may be asked for but the stamp. -/
theorem context {f : ContextFlags → Parser β} (hf : ∀ c b, f (c.stamped b) = f c)
    (h : ∀ c, Orderly moves (f c)) : Orderly moves (Parser.context >>= f) :=
  get (fun s b => hf s.scope.context b) fun s => h s.scope.context

/-! ### Failures, finished nodes and errors -/

theorem fail (f : Fault) : Orderly moves (Parser.fail f) where
  twin _ _ hs := ⟨rfl, hs⟩
  adds _ s := by
    refine ⟨.refl _, Nat.le_refl _, rfl, fun hnone => ?_, id, Nat.le_refl _⟩
    cases hfault : s.fault with
    | none => rfl
    | some f' =>
      have hsome : (s.fault <|> some f) = none := hnone
      rw [hfault] at hsome
      cases hsome
  stays _ _ _ _ := ⟨rfl, rfl, rfl, rfl⟩

theorem node_of_some {f : Node → Parser β} {id : NodeId} {env : Surroundings} {s : ParserState}
    {n : Node} (hn : s.arena.get? id = some n) : (Parser.node id >>= f) env s = f n env s := by
  show f (Parser.node id env s).1 env (Parser.node id env s).2 = _
  rw [Parser.node_eq hn]

/-- A number without a node is a failure, after which the parser goes on with an empty token. -/
theorem node_of_none {f : Node → Parser β} {id : NodeId} {env : Surroundings} {s : ParserState}
    (hn : s.arena.get? id = none) : (Parser.node id >>= f) env s = (Parser.fail (.noSuchNode id)
      >>= fun _ => f { kind := .unknown, pos := 0, stop := 0, payload := .token }) env s := by
  have hnode : (Parser.node id).Ends env s fun m t =>
      m = { kind := .unknown, pos := 0, stop := 0, payload := .token }
        ∧ t = (Parser.fail (.noSuchNode id) env s).2 := by
    refine .get ?_
    rw [hn]
    exact ⟨rfl, rfl⟩
  show f (Parser.node id env s).1 env (Parser.node id env s).2 = _
  rw [hnode.1, hnode.2]
  rfl

/-- Of a finished node all may be asked for but the stamp. -/
theorem node {f : Node → Parser β} {id : NodeId} (hf : ∀ n b, f (n.stamped b) = f n)
    (h : ∀ n, Orderly moves (f n)) : Orderly moves (Parser.node id >>= f) where
  twin {b env env'} htwins s hs := by
    have hget : (s.stamped b).arena.get? id = (s.arena.get? id).map fun n => n.stamped b :=
      Arena.get?_stamped s.arena b id
    cases hn : s.arena.get? id with
    | some n =>
      rw [hn] at hget
      rw [node_of_some hn, node_of_some hget, hf]
      exact (h n).twin htwins s hs
    | none =>
      rw [hn] at hget
      rw [node_of_none hn, node_of_none hget]
      exact ((fail _).bind fun _ => h _).twin htwins s hs
  adds henv s := by
    cases hn : s.arena.get? id with
    | some n =>
      rw [node_of_some hn]
      exact (h n).adds henv s
    | none =>
      rw [node_of_none hn]
      exact ((fail _).bind fun _ => h _).adds henv s
  stays hmoves _ henv s := by
    cases hn : s.arena.get? id with
    | some n =>
      rw [node_of_some hn]
      exact (h n).stays hmoves henv s
    | none =>
      rw [node_of_none hn]
      exact ((fail _).bind fun _ => h _).stays hmoves henv s

theorem kindOf (id : NodeId) : Orderly moves (Parser.kindOf id) :=
  node (fun _ _ => rfl) fun _ => .pure _

theorem isMissing (id : NodeId) : Orderly moves (Parser.isMissing id) :=
  node (fun _ _ => rfl) fun _ => .pure _

theorem errorAt (start length : Nat) (m : Message) (args : List String) :
    Orderly true (Parser.errorAt start length m args) where
  twin {b env env'} htwins s hs := by
    refine ⟨?_, hs⟩
    show ((), { s.stamped b with
      log := s.log.report (.ofMessageAt env'.file.name ⟨start, length⟩ m args)
      errorPending := true }) = _
    rw [htwins.name]
    rfl
  adds _ s := ⟨.refl _, (DiagnosticLog.grows_report _ _).size_le, rfl, id, id, Nat.le_refl _⟩
  stays := nofun

theorem errorAtRange (pos stop : Nat) (m : Message) (args : List String) :
    Orderly true (Parser.errorAtRange pos stop m args) :=
  errorAt _ _ _ _

theorem errorHere (m : Message) (args : List String) : Orderly true (Parser.errorHere m args) :=
  token.bind fun _ => errorAt _ _ _ _

theorem expectedHere (k : Kind) : Orderly true (Parser.expectedHere k) := errorHere _ _

/-! ### Reading tokens -/

theorem advance (mode : ReadingMode) : Orderly true (Parser.advance mode) := by
  let reports (errors : List ScanError) : Parser Unit :=
    errors.forM fun e => Parser.errorAt e.start e.length e.message []
  have herrors (errors : List ScanError) : Orderly true (reports errors) := by
    induction errors with
    | nil => exact .pure ()
    | cons e errors ih => exact (errorAt _ _ _ _).bind fun _ => ih
  constructor
  · intro b env env' htwins s hs
    have hread := (herrors (mode.read env.file.text s.token).2).twin htwins
      { s with token := (mode.read env.file.text s.token).1 } (mode.read_marked hs)
    refine ⟨?_, hread.2⟩
    refine Eq.trans ?_ hread.1
    show reports (mode.read env'.file.text s.token).2 env'
      { s.stamped b with token := (mode.read env'.file.text s.token).1 } = _
    rw [htwins.text]
    rfl
  · intro env henv s
    have hadds := (herrors (mode.read env.file.text s.token).2).adds henv
      { s with token := (mode.read env.file.text s.token).1 }
    exact ⟨hadds.grows, hadds.logged, hadds.scope_eq, hadds.fault, hadds.distinct, hadds.counted⟩
  · nofun

theorem nextToken : Orderly true Parser.nextToken := advance _

theorem nextKind : Orderly true Parser.nextKind := nextToken.bind fun _ => kind

theorem accept (k : Kind) : Orderly true (Parser.accept k) :=
  kind.bind fun _ => .ite (nextToken.bind fun _ => .pure _) (.pure _)

theorem acceptPunct (p : Punctuator) : Orderly true (Parser.acceptPunct p) := accept _

theorem acceptKeyword (k : Keyword) : Orderly true (Parser.acceptKeyword k) := accept _

theorem require (k : Kind) (m : Option Message) : Orderly true (Parser.require k m) := by
  refine kind.bind fun _ => .ite (.pure _) ?_
  cases m with
  | none => exact (expectedHere _).bind fun _ => .pure _
  | some m => exact (errorHere _ _).bind fun _ => .pure _

theorem expectWith (k : Kind) (m : Option Message) : Orderly true (Parser.expectWith k m) :=
  (require _ _).bind fun _ => .ite (nextToken.bind fun _ => .pure _) (.pure _)

theorem expect (k : Kind) : Orderly true (Parser.expect k) := expectWith _ _

theorem expectPunct (p : Punctuator) : Orderly true (Parser.expectPunct p) := expect _

theorem expectKeyword (k : Keyword) : Orderly true (Parser.expectKeyword k) := expect _

/-- A note is added to a diagnostic that is in the log. -/
theorem relateToLast (note : String → Note) : Orderly true (do
    let name := (← MonadReader.read).file.name
    modify fun s => { s with log := s.log.relateToLast (note name) } : Parser Unit) where
  twin {b env env'} htwins s hs := by
    refine ⟨?_, hs⟩
    show ((), { s.stamped b with log := s.log.relateToLast (note env'.file.name) }) = _
    rw [htwins.name]
    rfl
  adds _ s :=
    ⟨.refl _, Nat.le_of_eq (DiagnosticLog.size_relateToLast _ _).symm, rfl, id, id, Nat.le_refl _⟩
  stays := nofun

theorem expectClosing (opening closing : Punctuator) (opened : Option Nat) :
    Orderly true (Parser.expectClosing opening closing opened) := by
  refine (acceptPunct closing).bind fun _ => .ite (.pure _) ?_
  refine get (fun _ _ => rfl) fun s => (expectedHere _).bind fun _ => ?_
  cases opened with
  | none => exact .pure _
  | some pos =>
    refine get (fun _ _ => rfl) fun t => ?_
    split
    · exact relateToLast fun name =>
        .ofMessageAt name ⟨pos, 1⟩ .matchingTokenExpected [closing.text, opening.text]
    · exact .pure _

theorem canEndStatement : Orderly moves Parser.canEndStatement := by
  refine kind.bind fun k => ?_
  split
  · exact .pure _
  · exact .pure _
  · exact .pure _
  · exact afterLineBreak

theorem semicolon : Orderly true Parser.semicolon :=
  canEndStatement.bind fun _ => .ite ((acceptPunct _).bind fun _ => .pure _)
    ((expectPunct _).bind fun _ => .pure _)

/-! ### Finishing nodes -/

theorem finishAt {n : Node} (h : n.flags.context = {}) : Orderly true (Parser.finishAt n) where
  twin {b env env'} _ s hs := by
    have hnode : { n with flags := Parser.flagsAt (s.stamped b) n.flags }
        = Node.stamped { n with flags := Parser.flagsAt s n.flags } b := by
      simp only [Parser.flagsAt, Node.stamped, h]
      rfl
    refine ⟨?_, hs⟩
    rw [Parser.finishAt_eq, Parser.finishAt_eq, hnode]
    exact Prod.ext (congrArg NodeId.mk (Arena.size_stamped s.arena b)) (s.adding_stamped _ b)
  adds _ s := by
    refine ⟨Arena.grows_push _ _, Nat.le_refl _, rfl, id, id, Nat.add_le_add_left ?_ _⟩
    rw [Parser.finishAt_eq, ParserState.adding, Arena.identifierNodes_push]
    exact Nat.le_add_right _ _
  stays := nofun

theorem finish {n : Node} (h : n.flags.context = {}) : Orderly true (Parser.finish n) := by
  have hfinish (stop : Nat) : Orderly true (Parser.finishAt { n with stop }) := finishAt h
  refine nodePos.bind fun stop => ?_
  split
  · exact (fail _).bind fun _ => hfinish _
  · exact hfinish _

theorem finishNode (kind : Kind) (pos : Nat) (payload : Payload) :
    Orderly true (Parser.finishNode kind pos payload) :=
  finish rfl

theorem finishProduction (kind : NodeKind) (pos : Nat) (payload : Payload) :
    Orderly true (Parser.finishProduction kind pos payload) :=
  finish rfl

theorem finishFlagged (kind : NodeKind) (pos : Nat) {flags : NodeFlags} (h : flags.context = {})
    (payload : Payload) : Orderly true (Parser.finishFlagged kind pos flags payload) :=
  finish h

theorem finishDeclaration (kind : NodeKind) (start : DeclarationStart) (payload : Payload) :
    Orderly true (Parser.finishDeclaration kind start payload) :=
  finish rfl

theorem finishFlaggedDeclaration (kind : NodeKind) (start : DeclarationStart) {flags : NodeFlags}
    (h : flags.context = {}) (payload : Payload) :
    Orderly true (Parser.finishFlaggedDeclaration kind start flags payload) :=
  finish h

theorem intern (name : String) : Orderly true (Parser.intern name) where
  twin _ _ hs := ⟨rfl, hs⟩
  adds _ _ :=
    ⟨.refl _, Nat.le_refl _, rfl, id, fun h => NameTable.nodup_intern h name, Nat.le_refl _⟩
  stays := nofun

theorem missingPayload (k : Kind) : Orderly true (Parser.missingPayload k) := by
  unfold Parser.missingPayload
  split
  · exact (intern _).map
  · exact .pure _
  · exact .pure _
  · exact .pure _

theorem missingNode (k : Kind) : Orderly true (Parser.missingNode k) :=
  nodePos.bind fun _ => (missingPayload k).bind fun _ => finishAt rfl

theorem missingHere (k : Kind) (m : Message) (args : List String) :
    Orderly true (Parser.missingHere k m args) :=
  (errorHere m args).bind fun _ => missingNode k

theorem missingBefore (k : Kind) (m : Message) (args : List String) :
    Orderly true (Parser.missingBefore k m args) :=
  nodePos.bind fun _ => (errorAt _ _ _ _).bind fun _ => missingNode k

theorem missingList : Orderly moves Parser.missingList := nodePos.map

theorem tokenNode : Orderly true Parser.tokenNode :=
  token.bind fun _ => nextToken.bind fun _ => finishNode _ _ _

theorem acceptToken (k : Kind) : Orderly true (Parser.acceptToken k) :=
  kind.bind fun _ => .ite tokenNode.map (.pure _)

theorem expectToken (k : Kind) : Orderly true (Parser.expectToken k) := by
  refine (acceptToken k).bind fun found => ?_
  cases found with
  | some id => exact .pure _
  | none => exact missingHere _ _ _

theorem literalNode : Orderly true Parser.literalNode :=
  token.bind fun _ => nextToken.bind fun _ => finishNode _ _ _

end Orderly

/-! ### Identifiers -/

/-- The parser makes an identifier that it does not count. -/
structure MakesIdentifier {α : Type} (p : Parser α) : Prop extends Orderly true p where
  uncounted : ∀ {env : Surroundings}, env.Adds → ∀ s : ParserState,
    (p env s).2.identifierCount + s.arena.identifierNodes
      < s.identifierCount + (p env s).2.arena.identifierNodes

namespace MakesIdentifier

variable {α β : Type} {p : Parser α} {f : α → Parser β}

theorem after (hp : Orderly true p) (hf : ∀ a, MakesIdentifier (f a)) : MakesIdentifier (p >>= f) where
  toOrderly := hp.bind fun a => (hf a).toOrderly
  uncounted {env} henv s := by
    have hadds := (hp.adds henv s).counted
    have hmakes := (hf (p env s).1).uncounted henv (p env s).2
    show (f (p env s).1 env (p env s).2).2.identifierCount + _
      < _ + (f (p env s).1 env (p env s).2).2.arena.identifierNodes
    omega

theorem ite {c : Bool} {p q : Parser α} (hp : MakesIdentifier p) (hq : MakesIdentifier q) :
    MakesIdentifier (if c = true then p else q) := by
  cases c with
  | true => exact hp
  | false => exact hq

theorem finishAt {n : Node} (h : n.flags.context = {}) (hkind : n.kind = .identifier) :
    MakesIdentifier (Parser.finishAt n) where
  toOrderly := .finishAt h
  uncounted _ s := by
    refine Nat.add_lt_add_left ?_ _
    rw [Parser.finishAt_eq, ParserState.adding, Arena.identifierNodes_push, if_pos hkind]
    exact Nat.lt_succ_self _

theorem finishNode (pos : Nat) (payload : Payload) :
    MakesIdentifier (Parser.finishNode .identifier pos payload) := by
  refine .after .nodePos fun stop => ?_
  split
  · exact .after (.fail _) fun _ => .finishAt rfl rfl
  · exact .finishAt rfl rfl

theorem missingHere (m : Message) (args : List String) :
    MakesIdentifier (Parser.missingHere .identifier m args) :=
  .after (.errorHere m args) fun _ => .after .nodePos fun _ => .after (.missingPayload _) fun _ =>
    .finishAt rfl rfl

/-- The identifier that is made is counted before. -/
theorem counting (hp : MakesIdentifier p) :
    Orderly true (Parser.countIdentifier >>= fun _ => p) where
  twin htwins s hs := hp.twin htwins s.counting hs
  adds henv s := by
    have hadds := hp.adds henv s.counting
    refine ⟨hadds.grows, hadds.logged, hadds.scope_eq, hadds.fault, hadds.distinct, ?_⟩
    have hless : _ + s.arena.identifierNodes < s.identifierCount + 1 + _ :=
      hp.uncounted henv s.counting
    show (p _ s.counting).2.identifierCount + _ ≤ _ + (p _ s.counting).2.arena.identifierNodes
    omega
  stays := nofun

end MakesIdentifier

namespace Orderly

variable {α β σ : Type} {moves : Bool} {p : Parser α} {f : α → Parser β}

/-! ### Surroundings of a part -/

theorem withContext {g : ContextFlags → ContextFlags} (hg : ∀ c b, g (c.stamped b) = (g c).stamped b)
    (hp : Orderly moves p) : Orderly moves (Parser.withContext g p) where
  twin {b env env'} htwins s hs := by
    let inner := s.inContext (g s.scope.context)
    have hinner : (s.stamped b).inContext (g (s.scope.context.stamped b)) = inner.stamped b := by
      rw [hg]
      rfl
    obtain ⟨heq, hnext⟩ := hp.twin htwins inner hs
    refine ⟨?_, hnext⟩
    show ((p env' ((s.stamped b).inContext (g (s.scope.context.stamped b)))).1,
      (p env' ((s.stamped b).inContext (g (s.scope.context.stamped b)))).2.inContext
        (s.scope.context.stamped b)) = _
    rw [hinner, heq]
    rfl
  adds {env} henv s := by
    have hadds := hp.adds henv (s.inContext (g s.scope.context))
    refine ⟨hadds.grows, hadds.logged, ?_, hadds.fault, hadds.distinct, hadds.counted⟩
    show { (p env (s.inContext (g s.scope.context))).2.scope with context := s.scope.context } = s.scope
    rw [hadds.scope_eq]
    rfl
  stays hmoves env henv s := by
    have hstays := hp.stays hmoves henv (s.inContext (g s.scope.context))
    exact ⟨hstays.token, hstays.arena, hstays.logged, hstays.counted⟩

theorem allowIn (hp : Orderly moves p) : Orderly moves (Parser.allowIn p) :=
  withContext (fun _ _ => rfl) hp

theorem disallowIn (hp : Orderly moves p) : Orderly moves (Parser.disallowIn p) :=
  withContext (fun _ _ => rfl) hp

theorem inDecorator (hp : Orderly moves p) : Orderly moves (Parser.inDecorator p) :=
  withContext (fun _ _ => rfl) hp

theorem outsideDecorator (hp : Orderly moves p) : Orderly moves (Parser.outsideDecorator p) :=
  withContext (fun _ _ => rfl) hp

theorem allowConditionalTypes (hp : Orderly moves p) : Orderly moves (Parser.allowConditionalTypes p) :=
  withContext (fun _ _ => rfl) hp

theorem disallowConditionalTypes (hp : Orderly moves p) :
    Orderly moves (Parser.disallowConditionalTypes p) :=
  withContext (fun _ _ => rfl) hp

theorem inFunction (isGenerator isAsync : Bool) (hp : Orderly moves p) :
    Orderly moves (Parser.inFunction isGenerator isAsync p) :=
  withContext (fun _ _ => rfl) hp

theorem inList (list : ListContext) (hp : Orderly moves p) : Orderly moves (Parser.inList list p) where
  twin {b env env'} htwins s hs := by
    obtain ⟨heq, hnext⟩ := hp.twin htwins (s.withLists (list :: s.scope.openLists)) hs
    refine ⟨?_, hnext⟩
    show ((p env' ((s.withLists (list :: s.scope.openLists)).stamped b)).1,
      (p env' ((s.withLists (list :: s.scope.openLists)).stamped b)).2.withLists s.scope.openLists) = _
    rw [heq]
    rfl
  adds {env} henv s := by
    have hadds := hp.adds henv (s.withLists (list :: s.scope.openLists))
    refine ⟨hadds.grows, hadds.logged, ?_, hadds.fault, hadds.distinct, hadds.counted⟩
    show { (p env (s.withLists _)).2.scope with openLists := s.scope.openLists } = s.scope
    rw [hadds.scope_eq]
    rfl
  stays hmoves env henv s := by
    have hstays := hp.stays hmoves henv (s.withLists (list :: s.scope.openLists))
    exact ⟨hstays.token, hstays.arena, hstays.logged, hstays.counted⟩

theorem parse {q : Production} (h : q.Unstamped) : Orderly true (Parser.parse q) where
  twin htwins s hs := htwins.call q h s hs
  adds henv s := henv q h s
  stays := nofun

/-! ### Trial runs -/

theorem speculate (keep : α → Bool) (hp : Orderly true p) : Orderly true (Parser.speculate keep p) where
  twin {b env env'} htwins s hs := by
    obtain ⟨heq, hnext⟩ := hp.twin htwins s hs
    rw [Parser.speculate_eq, Parser.speculate_eq, heq]
    dsimp only
    split
    · exact ⟨rfl, hnext⟩
    · exact ⟨congrArg (Prod.mk _) (s.rewind_stamped _ b), hs⟩
  adds {env} henv s := by
    have hadds := hp.adds henv s
    rw [Parser.speculate_eq]
    dsimp only
    split
    · exact hadds
    · exact hadds.rewind.1
  stays := nofun

/-- A parser that is called back is a question. -/
theorem lookAhead (hp : Orderly true p) : Orderly moves (Parser.lookAhead p) where
  twin := (hp.speculate fun _ => false).twin
  adds := (hp.speculate fun _ => false).adds
  stays _ _ henv s := (hp.adds henv s).rewind.2

theorem attempt {p : Parser (Option α)} (hp : Orderly true p) : Orderly true (Parser.attempt p) :=
  hp.speculate _

theorem attemptIf {p : Parser Bool} (hp : Orderly true p) : Orderly true (Parser.attemptIf p) :=
  hp.speculate _

/-! ### Repetition -/

theorem repeatUpTo {turn : σ → Parser (Parser.Turn σ)} (hturn : ∀ a, Orderly moves (turn a))
    (count : Nat) (start : σ) : Orderly moves (Parser.repeatUpTo turn count start) := by
  induction count generalizing start with
  | zero => exact (fail _).bind fun _ => .pure _
  | succ count ih =>
    refine (hturn start).bind fun outcome => ?_
    cases outcome with
    | again next => exact ih next
    | done result => exact .pure _

theorem repeating {turn : σ → Parser (Parser.Turn σ)} (hturn : ∀ a, Orderly moves (turn a))
    (start : σ) : Orderly moves (Parser.repeating start turn) := by
  refine read (fun env env' _ htext => ?_) fun env => repeatUpTo hturn _ start
  rw [htext]

/-! ### Nesting -/

/-- What stands for something that is nested too deeply is reported before. -/
theorem tooDeep_rest : Orderly true (do
    let t ← Parser.token
    if t.kind != .endOfFile then Parser.nextToken
    Parser.countIdentifier
    Parser.finishNode .identifier t.fullStart (.identifier (← Parser.intern "") none)) := by
  refine token.bind fun t => ?_
  extract_lets rest
  have hrest : Orderly true (rest ()) :=
    MakesIdentifier.counting (.after (intern _) fun _ => .finishNode _ _)
  exact .ite (nextToken.bind fun _ => hrest) hrest

theorem tooDeep (m : Message) : Orderly true (Parser.tooDeep m) :=
  (errorHere m []).bind fun _ => tooDeep_rest

/-- One level deeper the same is done, and after that the parser is back at its level. -/
theorem deeper (g : α → β) (hp : Orderly true p) : Orderly true (do
    modify fun s => s.atDepth (s.scope.depth + 1)
    let a ← p
    modify fun s => s.atDepth (s.scope.depth - 1)
    return g a : Parser β) where
  twin {b env env'} htwins s hs := by
    obtain ⟨heq, hnext⟩ := hp.twin htwins (s.atDepth (s.scope.depth + 1)) hs
    refine ⟨?_, hnext⟩
    let ends (r : α × ParserState) : β × ParserState := (g r.1, r.2.atDepth (r.2.scope.depth - 1))
    show ends (p env' ((s.atDepth (s.scope.depth + 1)).stamped b)) = _
    rw [heq]
    rfl
  adds {env} henv s := by
    have hadds := hp.adds henv (s.atDepth (s.scope.depth + 1))
    refine ⟨hadds.grows, hadds.logged, ?_, hadds.fault, hadds.distinct, hadds.counted⟩
    let back (scope : Scope) : Scope := { scope with depth := scope.depth - 1 }
    show back (p env (s.atDepth (s.scope.depth + 1))).2.scope = s.scope
    rw [hadds.scope_eq]
    rfl
  stays := nofun

theorem nested (m : Message) {p : Parser NodeId} (hp : Orderly true p) :
    Orderly true (Parser.nested m p) := by
  refine get (fun _ _ => rfl) fun s => ?_
  split
  · exact (tooDeep m).map
  · exact deeper (fun id => (id, true)) hp

end Orderly

end ScriptSyntax
