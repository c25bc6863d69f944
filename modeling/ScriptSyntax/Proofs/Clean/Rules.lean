/-
  ScriptSyntax/Proofs/Clean/Rules.lean
  ====================================
  Runs that leave the parser clean.

  A state is clean if nothing has been reported and no failure has occurred.  A
  run that ends clean was clean all the way, so whatever the grammar asks for was
  there, and it was not nested too deeply.  Three things follow for the nodes that
  are made on such a run: they take room, apart from those that may be empty,
  paths down from them fall only so often, and the identifiers among them have
  been counted.

  What is said of a run here is said for the case that it ends clean, and nothing
  is said otherwise.  The steps of a production are gone through as they are for
  all runs, and the rules for steps are the same.
-/
import ScriptSyntax.Proofs.Grammar.Quiet
import ScriptSyntax.Proofs.Orderly.Rules
import ScriptSyntax.Proofs.Tree.Falls

namespace ScriptSyntax

/-! ## 1. Clean states -/

/-- Nothing has been reported, and no failure has occurred. -/
structure ParserState.Clean (s : ParserState) : Prop where
  faultless : s.fault = none
  silent : s.log.size = 0

/-- What is clean in the end was clean before. -/
theorem ParserState.Adds.clean {s t : ParserState} (h : s.Adds t) (ht : t.Clean) : s.Clean where
  faultless := h.fault ht.faultless
  silent := Nat.eq_zero_of_le_zero (ht.silent ▸ h.logged)

/-- Kinds of tokens and nodes that take room where they are, and are not counted. The end of the file
takes none, and an element that is left out and the attributes of a tag need not; identifiers are
counted. -/
def Kind.isSolid : Kind → Bool
  | .endOfFile | .identifier | .node .omittedExpression | .node .jsxAttributes => false
  | _ => true

theorem Kind.ne_identifier_of_isSolid {k : Kind} (h : k.isSolid = true) : k ≠ .identifier := by
  rintro rfl
  cases h

/-- The node takes room, unless it is an element that is left out, or no attributes. -/
def Node.Regular (n : Node) : Prop :=
  n.isMissing = true ↔ n.kind = .node .omittedExpression ∨ (n.kind = .node .jsxAttributes ∧ n.children = [])

theorem Node.regular_of_lt {n : Node} (hkind : n.kind.isSolid = true ∨ n.kind = .identifier)
    (hlt : n.pos < n.stop) : n.Regular := by
  have hne : n.pos ≠ n.stop := Nat.ne_of_lt hlt
  constructor
  · intro hmissing
    simp [isMissing, hne] at hmissing
  · rintro (hkind' | ⟨hkind', -⟩) <;> rw [hkind'] at hkind <;> rcases hkind with h | h <;> cases h

/-- The token lies in the text, and all nodes take the room that they should. -/
structure ParserState.Fine (text : Array Char) (s : ParserState) : Prop where
  token : s.token.InText text
  regular : ∀ id n, s.arena.get? id = some n → n.Regular

/-- How often paths may still fall that are made from here on. -/
def ParserState.limit (s : ParserState) : Nat := fallsPerLevel * (Parser.maxDepth - s.scope.depth)

/-- A bound that is at most another one, found by counting both down. -/
class AtMost (k k' : Nat) : Prop where
  le : k ≤ k'

instance AtMost.refl (k : Nat) : AtMost k k := ⟨Nat.le_refl k⟩

instance AtMost.zero (k : Nat) : AtMost 0 k := ⟨Nat.zero_le k⟩

instance AtMost.succ (k k' : Nat) [h : AtMost k k'] : AtMost (k + 1) (k' + 1) := ⟨Nat.succ_le_succ h.le⟩

/-! ## 2. Clean runs -/

/-- The parser moved from one state to another. Paths down from the nodes that it hands over fall no
more often than the bound says beyond the limit; if so told, it read over a token. -/
structure Moved (text : Array Char) (took : Bool) (k : Nat) (r s : ParserState) (items : List Part) :
    Prop where
  start : r.Clean
  fine : s.Fine text
  depth_eq : s.scope.depth = r.scope.depth
  grows : r.arena.Grows s.arena
  forward : r.pos ≤ s.pos
  ahead : took = true → r.pos < s.pos
  within : ∀ c ∈ childrenOf items, s.arena.Within (r.limit + k) c

/-- The parser went from one state to another, and counted the identifiers that it made. -/
structure Gone (text : Array Char) (took : Bool) (k : Nat) (r s : ParserState) (items : List Part) :
    Prop extends Moved text took k r s items where
  counted : s.identifierCount + r.arena.identifierNodes = r.identifierCount + s.arena.identifierNodes

/-- If the parser ends clean, it went this way. -/
def Went (text : Array Char) (took : Bool) (k : Nat) (r s : ParserState) (items : List Part) : Prop :=
  s.Clean → Gone text took k r s items

/-- If the parser ends clean, it read over a token and made a node on the way. The node starts where
the way does, or before. -/
structure Made (text : Array Char) (k : Nat) (r : ParserState) (id : NodeId) (s : ParserState) :
    Prop where
  went : Went text true k r s [.node id]
  begins : s.Clean → ∃ n, s.arena.get? id = some n ∧ n.pos ≤ r.pos

section

variable {text : Array Char} {took took' : Bool} {k k' : Nat} {r s t : ParserState}
variable {items items' : List Part} {id : NodeId}

theorem Went.refl (h : s.Clean → s.Fine text) : Went text false k s s [] := fun hclean =>
  ⟨⟨hclean, h hclean, rfl, .refl _, Nat.le_refl _, nofun, by simp⟩, rfl⟩

/-- Nothing is said of a run that does not end clean. -/
theorem Went.dirty (h : ¬s.Clean) : Went text took k r s items := fun hclean => absurd hclean h

theorem Made.dirty (h : ¬s.Clean) : Made text k r id s := ⟨.dirty h, fun hclean => absurd hclean h⟩

/-- A step that only adds and that stays where it is. -/
theorem Went.of_stays (h : s.Clean → s.Fine text) (hadds : s.Adds t) (hstays : s.Stays t) :
    Went text false k s t [] := fun hclean => by
  have hstart := hadds.clean hclean
  refine ⟨⟨hstart, ⟨?_, ?_⟩, congrArg Scope.depth hadds.scope_eq, hadds.grows, ?_, nofun, by simp⟩, ?_⟩
  · rw [hstays.token]
    exact (h hstart).token
  · rw [hstays.arena]
    exact (h hstart).regular
  · rw [ParserState.pos, ParserState.pos, hstays.token]
  · rw [hstays.counted, hstays.arena]

theorem Moved.limit_eq (h : Moved text took k r s items) : s.limit = r.limit := by
  simp only [ParserState.limit, h.depth_eq]

/-- What has been handed over stays within its bound on the way. -/
theorem Gone.within_of_gone (h : Gone text took k r s items) (h' : Gone text took' k' s t items')
    (hle : k' ≤ k) : ∀ c ∈ childrenOf (items ++ items'), t.arena.Within (r.limit + k) c := by
  intro c hc
  rw [childrenOf_append] at hc
  rcases List.mem_append.mp hc with hc | hc
  · exact (h.within c hc).grows h'.grows
  · refine (h'.within c hc).mono ?_
    rw [h.limit_eq]
    exact Nat.add_le_add_left hle _

theorem Went.go (h : Went text took k r s items) (h' : Went text took' k' s t items') (hle : k' ≤ k) :
    Went text took k r t (items ++ items') := fun hclean => by
  have hlast := h' hclean
  have hfirst := h hlast.start
  exact {
    start := hfirst.start
    fine := hlast.fine
    depth_eq := hlast.depth_eq.trans hfirst.depth_eq
    grows := hfirst.grows.trans hlast.grows
    forward := Nat.le_trans hfirst.forward hlast.forward
    ahead := fun htook => Nat.lt_of_lt_of_le (hfirst.ahead htook) hlast.forward
    within := hfirst.within_of_gone hlast hle
    counted := by
      have := hfirst.counted
      have := hlast.counted
      omega }

theorem Went.goTook (h : Went text took k r s items) (h' : Went text true k' s t items')
    (hle : k' ≤ k) : Went text true k r t (items ++ items') := fun hclean =>
  { h.go h' hle hclean with
    ahead := fun _ => Nat.lt_of_le_of_lt (h (h' hclean).start).forward ((h' hclean).ahead rfl) }

theorem Went.weaken (h : Went text took k r s items) : Went text false k r s items := fun hclean =>
  { h hclean with ahead := nofun }

theorem Went.loosen (h : Went text true k r s items) : Went text took k r s items := fun hclean =>
  { h hclean with ahead := fun _ => (h hclean).ahead rfl }

theorem Went.mono (h : Went text took k r s items) (hle : k ≤ k') : Went text took k' r s items :=
  fun hclean =>
    { h hclean with
      within := fun c hc => ((h hclean).within c hc).mono (Nat.add_le_add_left hle _) }

/-- The parts that were handed over may be left aside. -/
theorem Went.past (h : Went text took k r s items) : Went text took 0 r s [] := fun hclean =>
  { h hclean with within := by simp }

/-- Only the nodes among the parts matter. -/
theorem Went.among (h : Went text took k r s items) (hsub : childrenOf items' ⊆ childrenOf items) :
    Went text took k r s items' := fun hclean =>
  { h hclean with within := fun c hc => (h hclean).within c (hsub hc) }

theorem Went.parts (h : Went text took k r s items) (heq : childrenOf items' = childrenOf items) :
    Went text took k r s items' :=
  h.among (heq ▸ List.Subset.refl _)

/-- Before a run a few questions may have been asked. -/
theorem Went.on (h : Went text false 0 r s []) (h' : Went text took k s t items) :
    Went text took k r t items := by
  have hgo := (h.mono (Nat.zero_le k)).go h' (Nat.le_refl k)
  cases took with
  | false => exact hgo
  | true => exact (h.mono (Nat.zero_le k)).goTook h' (Nat.le_refl k)

theorem Went.madeAt (h : Went text false 0 r s []) (hpos : s.pos = r.pos) (h' : Made text k s id t) :
    Made text k r id t where
  went := h.on h'.went
  begins := hpos ▸ h'.begins

theorem Went.made (h : Went text false 0 r s []) (htoken : s.token = r.token) (h' : Made text k s id t) :
    Made text k r id t :=
  h.madeAt (congrArg Token.fullStart htoken) h'

/-- The node that was made stays when the parser goes on. -/
theorem Made.goOn (h : Made text k r id s) (h' : Went text took k' s t items) : Made text k r id t where
  went := by simpa using h.went.go h'.past (Nat.zero_le k)
  begins hclean := by
    have hgone := h' hclean
    obtain ⟨n, hn, hbegins⟩ := h.begins hgone.start
    exact ⟨n, hgone.grows.get? hn, hbegins⟩

theorem Made.mono (h : Made text k r id s) (hle : k ≤ k') : Made text k' r id s :=
  ⟨h.went.mono hle, h.begins⟩

/-- What is gone in other surroundings, at the same depth, is gone here. -/
theorem Went.inScope {scope scope' : Scope} (h : Went text took k { r with scope } s items)
    (hdepth : scope.depth = r.scope.depth) (hdepth' : s.scope.depth = scope'.depth) :
    Went text took k r { s with scope := scope' } items := fun hclean => by
  have hgone := h ⟨hclean.faultless, hclean.silent⟩
  refine ⟨⟨⟨hgone.start.faultless, hgone.start.silent⟩, ⟨hgone.fine.token, hgone.fine.regular⟩, ?_,
    hgone.grows, hgone.forward, hgone.ahead, ?_⟩, hgone.counted⟩
  · exact hdepth'.symm.trans (hgone.depth_eq.trans hdepth)
  · have hlimit : ParserState.limit { r with scope } = r.limit := by
      simp only [ParserState.limit, hdepth]
    exact hlimit ▸ hgone.within

end

/-! ## 3. Surroundings -/

/-- How far the falls from a production may exceed the limit. Statements, expressions without commas
and types are read one level deeper. -/
@[reducible]
def Production.height : Production → Nat
  | statement | assignment | type => 0
  | expression | namespaceDeclaration .. => 2
  | bindingName => 5
  | jsxElement _ => 7
  | simpleUnary | leftHandSide | primary | typeOperator => 8
  | binary level => 20 - level.rank

/-- Where a production may be called: a part of a dotted namespace where it starts. -/
def Production.Fits : Production → Token → Prop
  | namespaceDeclaration start flags, t => start = { pos := t.fullStart } ∧ flags.context = {}
  | _, _ => True

/-- Calls only add to what there was, and come to what they should. -/
structure Surroundings.Serves (env : Surroundings) : Prop where
  adds : env.Adds
  call : ∀ (q : Production) (s : ParserState), q.Fits s.token → (s.Clean → s.Fine env.file.text) →
    (Parser.parse q).Ends env s (Made env.file.text q.height s)

/-- Calls may be made from the state. -/
structure Surroundings.Apt (env : Surroundings) (s : ParserState) : Prop where
  serves : env.Serves
  fine : s.Clean → s.Fine env.file.text

theorem Surroundings.Apt.inScope {env : Surroundings} {s : ParserState} (h : env.Apt s) (scope : Scope) :
    env.Apt { s with scope } where
  serves := h.serves
  fine hclean :=
    have hfine := h.fine ⟨hclean.faultless, hclean.silent⟩
    ⟨hfine.token, hfine.regular⟩

/-! ## 4. Parsers -/

/-- The node is made, and more may be made from here. -/
theorem Made.apt {env : Surroundings} {k : Nat} {r s : ParserState} {id : NodeId}
    (h : Made env.file.text k r id s) (hserves : env.Serves) : env.Apt s :=
  ⟨hserves, fun hclean => (h.went hclean).fine⟩

namespace Orderly

variable {α : Type} {p : Parser α} {env : Surroundings} {moves : Bool} {s : ParserState}

/-- What has been reported stays reported. -/
theorem dirty (hp : Orderly moves p) (hadds : env.Adds) (h : ¬s.Clean) :
    p.Ends env s fun _ t => ¬t.Clean :=
  fun hclean => h ((hp.adds hadds s).clean hclean)

/-- A question leads nowhere, and the token stays as it is. -/
theorem went (hp : Orderly false p) (h : env.Apt s) :
    p.Ends env s fun _ t => Went env.file.text false 0 s t [] ∧ t.token = s.token :=
  have hstays := hp.stays rfl h.serves.adds s
  ⟨.of_stays h.fine (hp.adds h.serves.adds s) hstays, hstays.token⟩

end Orderly

namespace Parser

variable {α β σ : Type} {p : Parser α} {f : α → Parser β} {env : Surroundings} {took : Bool}
variable {k k' : Nat} {r s t : ParserState} {items : List Part}

/-- If the parser ends clean, it went from the state and hands over the parts of its result. -/
abbrev Goes [Held α] (p : Parser α) (env : Surroundings) (took : Bool) (k : Nat) (s : ParserState) :
    Prop :=
  p.Ends env s fun a t => Went env.file.text took k s t (held a)

/-- If the parser ends clean, it has read over a token and made a node since the earlier state. -/
abbrev Produces (p : Parser NodeId) (env : Surroundings) (k : Nat) (r s : ParserState) : Prop :=
  p.Ends env s (Made env.file.text k r)

theorem Goes.weaken [Held α] (h : p.Goes env took k s) : p.Goes env false k s :=
  h.mono fun _ _ ht => ht.weaken

theorem Goes.upTo [Held α] (h : p.Goes env took k s) [hle : AtMost k k'] : p.Goes env took k' s :=
  h.mono fun _ _ ht => ht.mono hle.le

theorem Produces.upTo {p : Parser NodeId} (h : p.Produces env k r s) [hle : AtMost k k'] :
    p.Produces env k' r s :=
  h.mono fun _ _ ht => ht.mono hle.le

theorem Produces.goes {p : Parser NodeId} (h : p.Produces env k s s) : p.Goes env true k s :=
  h.mono fun _ _ ht => ht.went

theorem Goes.withContext [Held α] {g : ContextFlags → ContextFlags} (h : env.Apt s)
    (hp : ∀ s, env.Apt s → p.Goes env took k s) : (Parser.withContext g p).Goes env took k s :=
  Ends.withContext ((hp _ (h.inScope _)).mono fun _ _ ht => ht.inScope (r := s) rfl rfl)

theorem Produces.withContext {p : Parser NodeId} {g : ContextFlags → ContextFlags} (h : env.Apt s)
    (hp : ∀ s, env.Apt s → p.Produces env k s s) : (Parser.withContext g p).Produces env k s s :=
  Ends.withContext ((hp _ (h.inScope _)).mono fun _ _ ht =>
    ⟨ht.went.inScope (r := s) rfl rfl, fun hclean => ht.begins ⟨hclean.faultless, hclean.silent⟩⟩)

/-- Nothing is left to be shown where the run is not clean any more. -/
theorem Produces.late {p : Parser NodeId} (hp : Orderly true p) (hadds : env.Adds) (h : ¬s.Clean) :
    p.Produces env k r s :=
  (hp.dirty hadds h).mono fun _ _ ht => .dirty ht

theorem parse_produces (q : Production) (h : env.Apt s) (hfits : q.Fits s.token) :
    (parse q).Produces env q.height s s :=
  h.serves.call q s hfits h.fine

/-! ### Trial runs -/

/-- A trial run is kept, or it leads nowhere. -/
theorem speculate_goes {keep : α → Bool} {P : α → ParserState → Prop} (h : env.Apt s)
    (hp : Orderly true p) (hkept : p.Ends env s fun a t => keep a = true → P a t) :
    (speculate keep p).Ends env s fun a t => (keep a = true ∧ P a t)
      ∨ (keep a = false ∧ Went env.file.text false 0 s t [] ∧ t.token = s.token) := by
  unfold Ends
  rw [speculate_eq]
  cases hkeep : keep (p env s).1 with
  | true => exact .inl ⟨hkeep, hkept hkeep⟩
  | false =>
    obtain ⟨hadds, hstays⟩ := (hp.adds h.serves.adds s).rewind
    exact .inr ⟨hkeep, .of_stays h.fine hadds hstays, hstays.token⟩

/-! ### Loops -/

/-- What comes of a turn of a loop: another turn, or the result. -/
def Turn.Comes {σ : Type} (P Q : σ → ParserState → Prop) : Turn σ → ParserState → Prop
  | .again b, t => P b t
  | .done b, t => Q b t

/-- What turns keep holds in the end. A loop that is cut short ends with a failure. -/
theorem repeating_comes {turn : σ → Parser (Turn σ)} {P Q : σ → ParserState → Prop} {a : σ} (h : P a s)
    (hdirty : ∀ a t, ¬t.Clean → Q a t) (hturn : ∀ a t, P a t → (turn a).Ends env t (Turn.Comes P Q)) :
    (repeating a turn).Ends env s Q := by
  have hrun (count : Nat) (a : σ) (s : ParserState) (h : P a s) :
      (repeatUpTo turn count a).Ends env s Q := by
    induction count generalizing a s with
    | zero =>
      refine hdirty a _ fun hclean => ?_
      have hnone : (s.fault <|> some Fault.outOfSteps) = none := hclean.faultless
      cases hfault : s.fault <;> simp [hfault] at hnone
    | succ count ih =>
      refine (hturn a s h).bind fun outcome t ht => ?_
      cases outcome with
      | again b => exact ih b t ht
      | done b => exact ht
  exact .read (hrun _ a s h)

/-- A loop that builds a node on the one before. -/
theorem repeating_produces {turn : NodeId → Parser (Turn NodeId)} {first : NodeId}
    (h : Made env.file.text k r first s)
    (hturn : ∀ left t, Made env.file.text k r left t →
      (turn left).Ends env t (Turn.Comes (Made env.file.text k r) (Made env.file.text k r))) :
    (repeating first turn).Produces env k r s :=
  repeating_comes h (fun _ _ => .dirty) hturn

end Parser

/-! ## 5. Steps -/

/-- The parser is on its way from an earlier state, and has handed over the given parts. -/
structure Going (env : Surroundings) (took : Bool) (k : Nat) (r s : ParserState) (items : List Part) :
    Prop where
  serves : env.Serves
  went : Went env.file.text took k r s items

namespace Going

open ScriptSyntax.Parser

variable {α β σ : Type} [Held α] {p : Parser α} {f : α → Parser β} {env : Surroundings}
variable {took took' : Bool} {k k' : Nat} {r s t : ParserState} {items items' : List Part}
variable {Q : β → ParserState → Prop}

theorem start (k : Nat) (h : env.Apt s) : Going env false k s s [] :=
  ⟨h.serves, fun hclean => Went.refl h.fine hclean⟩

theorem apt (g : Going env took k r s items) : env.Apt s :=
  ⟨g.serves, fun hclean => (g.went hclean).fine⟩

/-- Nothing is left to be shown of a run that does not end clean. -/
theorem dirty (g : Going env took k r s items) (h : ¬t.Clean) : Going env took' k' r t items' :=
  ⟨g.serves, .dirty h⟩

theorem parts (g : Going env took k r s items) (h : items = items') : Going env took k r s items' :=
  h ▸ g

theorem among (g : Going env took k r s items) (hsub : childrenOf items' ⊆ childrenOf items) :
    Going env took k r s items' :=
  ⟨g.serves, g.went.among hsub⟩

theorem upTo (g : Going env took k r s items) [hle : AtMost k k'] : Going env took k' r s items :=
  ⟨g.serves, g.went.mono hle.le⟩

theorem loosen (g : Going env true k r s items) : Going env took k r s items :=
  ⟨g.serves, g.went.loosen⟩

/-- On from here by a run. -/
theorem go (g : Going env took k r s items) (h : Went env.file.text took' k' s t items')
    (hle : k' ≤ k) : Going env took k r t (items ++ items') :=
  ⟨g.serves, g.went.go h hle⟩

/-- On from here by a run that reads over a token. -/
theorem goTook (g : Going env took k r s items) (h : Went env.file.text true k' s t items')
    (hle : k' ≤ k) : Going env true k r t (items ++ items') :=
  ⟨g.serves, g.went.goTook h hle⟩

/-- On from here by a run that hands over nothing. -/
theorem goOn (g : Going env took k r s items) (h : Went env.file.text took' 0 s t []) :
    Going env took k r t items := by
  simpa using g.go h (Nat.zero_le k)

theorem goOnTook (g : Going env took k r s items) (h : Went env.file.text true 0 s t []) :
    Going env true k r t items := by
  simpa using g.goTook h (Nat.zero_le k)

/-- A step that hands over the parts of its result. -/
theorem step (g : Going env took k r s items) (hp : p.Goes env took' k' s)
    [hle : AtMost k' k] (hf : ∀ a t, Going env took k r t (items ++ held a) → (f a).Ends env t Q) :
    (p >>= f).Ends env s Q :=
  hp.bind fun a t h => hf a t (g.go h hle.le)

/-- A step that reads over a token. -/
theorem stepTook (g : Going env took k r s items) (hp : p.Goes env true k' s)
    [hle : AtMost k' k] (hf : ∀ a t, Going env true k r t (items ++ held a) → (f a).Ends env t Q) :
    (p >>= f).Ends env s Q :=
  hp.bind fun a t h => hf a t (g.goTook h hle.le)

/-- A question. -/
theorem ask {γ : Type} {q : Parser γ} {f : γ → Parser β} (g : Going env took k r s items)
    (hq : Orderly false q) (hf : ∀ a t, Going env took k r t items → (f a).Ends env t Q) :
    (q >>= f).Ends env s Q :=
  (hq.went g.apt).bind fun a t ht => hf a t (g.goOn ht.1)

/-- A step that makes a node which is not handed over with the rest. -/
theorem past {q : Parser NodeId} {f : NodeId → Parser β} (g : Going env took k r s items)
    (hq : q.Produces env k' s s)
    (hf : ∀ id t, Made env.file.text k' s id t → Going env true k r t items → (f id).Ends env t Q) :
    (q >>= f).Ends env s Q :=
  hq.bind fun id t h => hf id t h (g.goOnTook h.went.past)

/-- Ways that part and meet again: the rest counts on what has been reached then, whichever was
taken. -/
theorem fork {γ : Type} [Held γ] (_g : Going env took k r s items) (rest : γ → Parser β)
    (hrest : ∀ c t, Going env took k r t (items ++ held c) → (rest c).Ends env t Q)
    {q : Parser β} (hq : (∀ c t, Going env took k r t (items ++ held c) → (rest c).Ends env t Q) →
      q.Ends env s Q) : q.Ends env s Q :=
  hq hrest

/-- The last step, before which nothing was handed over. -/
theorem only (g : Going env took k r s []) (hp : p.Goes env took' k' s) [hle : AtMost k' k] :
    p.Ends env s fun a t => Went env.file.text took k r t (held a) :=
  hp.mono fun _ _ h => (g.go h hle.le).went

/-- The end of the way. -/
theorem done {a : α} (g : Going env took k r s items) (h : items = held a) :
    (pure a : Parser α).Ends env s fun a t => Went env.file.text took k r t (held a) :=
  Ends.pure (h ▸ g.went)

/-- A loop whose turns hand over parts for the whole way. -/
theorem loop (parts : σ → List Part) {turn : σ → Parser (Turn σ)} {a : σ}
    (g : Going env took k r s (parts a))
    (hturn : ∀ a t, Going env took k r t (parts a) → (turn a).Ends env t
      (Turn.Comes (fun a t => Going env took k r t (parts a)) fun a t => Going env took k r t (parts a))) :
    (repeating a turn).Ends env s fun a t => Going env took k r t (parts a) :=
  repeating_comes g (fun _ _ => g.dirty) hturn

end Going

namespace Parser

variable {α β : Type} {q : Parser α} {env : Surroundings} {took : Bool} {k : Nat} {s : ParserState}

/-- A question before what is parsed. -/
theorem Produces.ask {f : α → Parser NodeId} (h : env.Apt s) (hq : Orderly false q)
    (hf : ∀ a t, t.token = s.token → env.Apt t → (f a).Produces env k t t) : (q >>= f).Produces env k s s := by
  refine (hq.went h).bind fun a t ht => ?_
  exact (hf a t ht.2 ((Going.start k h).goOn ht.1).apt).mono fun _ _ hu => ht.1.made ht.2 hu

theorem Goes.ask [Held β] {f : α → Parser β} (h : env.Apt s) (hq : Orderly false q)
    (hf : ∀ a t, t.token = s.token → env.Apt t → (f a).Goes env took k t) : (q >>= f).Goes env took k s := by
  refine (hq.went h).bind fun a t ht => ?_
  exact (hf a t ht.2 ((Going.start k h).goOn ht.1).apt).mono fun _ _ hu => ht.1.on hu

end Parser

end ScriptSyntax
