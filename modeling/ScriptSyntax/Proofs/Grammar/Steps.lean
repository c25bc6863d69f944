/-
  ScriptSyntax/Proofs/Grammar/Steps.lean
  ======================================
  Productions step by step.

  A statement about a production is proved along its text: each step has one
  rule, which says what the rest may count on.  What has been reached so far is
  kept in one fact, `Sofar`: the parts handed over since the production started,
  and which productions may be called from here.
-/
import ScriptSyntax.Proofs.Grammar.Run

namespace ScriptSyntax

/-! ## 1. Results -/

/-- The parts of a tree that a result holds, in the order of the source. -/
class Held (α : Type) where
  held : α → List Part

export Held (held)

instance : Held NodeId := ⟨fun id => [.node id]⟩
instance : Held NodeArray := ⟨fun list => [.array list]⟩
instance : Held Unit := ⟨fun _ => []⟩
instance : Held Bool := ⟨fun _ => []⟩

instance {α : Type} [Held α] : Held (Option α) where
  held
    | none => []
    | some a => held a

instance {α β : Type} [Held α] [Held β] : Held (α × β) := ⟨fun p => held p.1 ++ held p.2⟩

instance : Held DeclarationStart := ⟨fun start => held start.decorators ++ held start.modifiers⟩

instance : Held SignatureShape where
  held shape := held shape.typeParameters ++ held shape.parameters ++ held shape.type

instance : Held FunctionShape where
  held f := held f.asterisk ++ held f.name ++ held f.questionMark ++ held f.typeParameters
    ++ held f.parameters ++ held f.type ++ held f.arrow ++ held f.body

section

variable {α : Type} [Held α]

@[simp] theorem held_node (id : NodeId) : held id = [.node id] := rfl
@[simp] theorem held_array (list : NodeArray) : held list = [.array list] := rfl
@[simp] theorem held_unit (u : Unit) : held u = [] := rfl
@[simp] theorem held_bool (b : Bool) : held b = [] := rfl
@[simp] theorem held_none : held (none : Option α) = [] := rfl
@[simp] theorem held_some (a : α) : held (some a) = held a := rfl

@[simp] theorem held_pair {β : Type} [Held β] (a : α) (b : β) : held (a, b) = held a ++ held b := rfl

@[simp] theorem held_start (start : DeclarationStart) :
    held start = held start.decorators ++ held start.modifiers := rfl

@[simp] theorem held_signature (shape : SignatureShape) :
    held shape = held shape.typeParameters ++ (held shape.parameters ++ held shape.type) :=
  List.append_assoc _ _ _

@[simp] theorem held_function (f : FunctionShape) :
    held f = held f.asterisk ++ (held f.name ++ (held f.questionMark
      ++ (held f.typeParameters ++ (held f.parameters ++ (held f.type
        ++ (held f.arrow ++ held f.body)))))) := by
  simp [held]

end

/-- The parts among fields. -/
def partsOf (fields : List (String × Field)) : List Part :=
  fields.filterMap fun field => field.2.part?

section

variable (label : String) (fields fields' : List (String × Field))

@[simp] theorem partsOf_nil : partsOf [] = [] := rfl

@[simp] theorem partsOf_node (id : NodeId) :
    partsOf ((label, .node id) :: fields) = .node id :: partsOf fields := rfl

@[simp] theorem partsOf_array (list : NodeArray) :
    partsOf ((label, .array list) :: fields) = .array list :: partsOf fields := rfl

@[simp] theorem partsOf_kind (kind : Kind) :
    partsOf ((label, .kind kind) :: fields) = partsOf fields := rfl

@[simp] theorem partsOf_flag (value : Bool) :
    partsOf ((label, .flag value) :: fields) = partsOf fields := rfl

@[simp] theorem partsOf_append : partsOf (fields ++ fields') = partsOf fields ++ partsOf fields' :=
  List.filterMap_append

@[simp] theorem partsOf_optionalNode (id : Option NodeId) :
    partsOf (optionalNode label id) = held id := by
  cases id <;> rfl

@[simp] theorem partsOf_optionalArray (list : Option NodeArray) :
    partsOf (optionalArray label list) = held list := by
  cases list <;> rfl

end

@[simp] theorem partsOf_variableLike (v : VariableShape) :
    partsOf (Payload.variableLike v).fields = held v.propertyName ++ (held v.dots
      ++ (.node v.name :: (held v.questionMark ++ (held v.equalsSign ++ (held v.type
        ++ held v.initializer))))) := by
  simp [Payload.fields, Payload.variableFields]

@[simp] theorem partsOf_functionLike (f : FunctionShape) :
    partsOf (Payload.functionLike f).fields = held f := by
  simp [Payload.fields, Payload.functionFields]

@[simp] theorem partsOf_signature (shape : SignatureShape) :
    partsOf (Payload.signature shape).fields = held shape := by
  simp [Payload.fields]

@[simp] theorem partsOf_classLike (c : ClassShape) :
    partsOf (Payload.classLike c).fields = held c.name ++ (held c.typeParameters
      ++ (held c.heritage ++ [Part.array c.members])) := by
  simp [Payload.fields]

/-- The parts of a node: of its decorators, of its modifiers, and of its payload. -/
theorem Node.parts_eq (n : Node) :
    n.parts = held n.decorators ++ held n.modifiers ++ partsOf n.payload.fields := by
  show partsOf (optionalArray _ n.decorators ++ optionalArray _ n.modifiers ++ n.payload.fields) = _
  simp

/-! ## 2. Where a parser ends -/

/-- On the way from `r` the parser went on from `m` to `t`, and hands over parts for the whole way;
if so told, it read over a token since `m`. -/
structure Handed (text : Array Char) (took : Bool) (r m t : ParserState) (items : List Part) :
    Prop where
  run : Run text r t items
  forward : m.pos ≤ t.pos
  ahead : took = true → m.pos < t.pos

theorem Run.handed {text : Array Char} {s t : ParserState} {items : List Part}
    (h : Run text s t items) : Handed text false s s t items :=
  ⟨h, h.forward, nofun⟩

theorem Run.handedTook {text : Array Char} {s t : ParserState} {items : List Part}
    (h : Run text s t items) (htook : s.pos < t.pos) : Handed text true s s t items :=
  ⟨h, h.forward, fun _ => htook⟩

/-- What has been read over from somewhere, has been read over from any place before. -/
theorem Handed.back {text : Array Char} {took : Bool} {r m m' t : ParserState} {items : List Part}
    (h : Handed text took r m t items) (hle : m'.pos ≤ m.pos) : Handed text took r m' t items :=
  ⟨h.run, Nat.le_trans hle h.forward, fun htook => Nat.lt_of_le_of_lt hle (h.ahead htook)⟩

namespace Parser

/-- Started in the given state, the parser ends with a result and in a state that satisfy `Q`. -/
def Ends {α : Type} (p : Parser α) (env : Surroundings) (s : ParserState)
    (Q : α → ParserState → Prop) : Prop :=
  Q (p env s).1 (p env s).2

/-- The answer of a parser that is asked a question. -/
def answer {α : Type} (p : Parser α) (env : Surroundings) (s : ParserState) : α := (p env s).1

/-- The parser leaves the state as it was. -/
def Asks {α : Type} (p : Parser α) (env : Surroundings) (s : ParserState) : Prop :=
  (p env s).2 = s

/-- The parser is on its way from an earlier state `r`, and hands over the parts of its result for
the whole way; if so told, it reads over a token on the way. -/
abbrev Gives {α : Type} [Held α] (p : Parser α) (env : Surroundings) (took : Bool)
    (r s : ParserState) : Prop :=
  p.Ends env s fun a t => Handed env.file.text took r s t (held a)

section

variable {α β : Type} {p : Parser α} {f : α → Parser β} {env : Surroundings} {r s : ParserState}
variable {P : α → ParserState → Prop} {Q : β → ParserState → Prop}

theorem Ends.bind (hp : p.Ends env s P) (hf : ∀ a t, P a t → (f a).Ends env t Q) :
    (p >>= f).Ends env s Q :=
  hf _ _ hp

theorem Ends.mono {P' : α → ParserState → Prop} (hp : p.Ends env s P)
    (h : ∀ a t, P a t → P' a t) : p.Ends env s P' :=
  h _ _ hp

/-- What is known of one run in two ways. -/
theorem Ends.and {P' : α → ParserState → Prop} (hp : p.Ends env s P) (hp' : p.Ends env s P') :
    p.Ends env s fun a t => P a t ∧ P' a t :=
  ⟨hp, hp'⟩

theorem Ends.pure {a : α} (h : P a s) : (Pure.pure a : Parser α).Ends env s P := h

theorem Ends.pureThen {a : α} (h : (f a).Ends env s Q) :
    ((Pure.pure a : Parser α) >>= f).Ends env s Q := h

theorem Ends.ask (hp : p.Asks env s) (h : (f (p.answer env s)).Ends env s Q) :
    (p >>= f).Ends env s Q := by
  show (f (p env s).1).Ends env (p env s).2 Q
  rw [hp]
  exact h

theorem Ends.token {f : Token → Parser β} (h : (f s.token).Ends env s Q) :
    (Parser.token >>= f).Ends env s Q := h

theorem Ends.kind {f : Kind → Parser β} (h : (f s.token.kind).Ends env s Q) :
    (Parser.kind >>= f).Ends env s Q := h

theorem Ends.nodePos {f : Nat → Parser β} (h : (f s.pos).Ends env s Q) :
    (Parser.nodePos >>= f).Ends env s Q := h

theorem Ends.tokenPos {f : Nat → Parser β} (h : (f s.token.start).Ends env s Q) :
    (Parser.tokenPos >>= f).Ends env s Q := h

theorem Ends.isAt {k : Kind} {f : Bool → Parser β} (h : (f (s.token.kind == k)).Ends env s Q) :
    (Parser.isAt k >>= f).Ends env s Q := h

theorem Ends.kindIs {c : Kind → Bool} {f : Bool → Parser β}
    (h : (f (c s.token.kind)).Ends env s Q) : (Parser.kindIs c >>= f).Ends env s Q := h

theorem Ends.afterLineBreak {f : Bool → Parser β}
    (h : (f s.token.flags.precedingLineBreak).Ends env s Q) :
    (Parser.afterLineBreak >>= f).Ends env s Q := h

theorem Ends.context {f : ContextFlags → Parser β} (h : (f s.scope.context).Ends env s Q) :
    (Parser.context >>= f).Ends env s Q := h

theorem Ends.get {f : ParserState → Parser β} (h : (f s).Ends env s Q) :
    ((MonadStateOf.get : Parser ParserState) >>= f).Ends env s Q := h

theorem Ends.read {f : Surroundings → Parser β} (h : (f env).Ends env s Q) :
    ((MonadReader.read : Parser Surroundings) >>= f).Ends env s Q := h

/-- Another context ends with the part that it is for. -/
theorem Ends.withContext {g : ContextFlags → ContextFlags}
    (h : p.Ends env (s.inContext (g s.scope.context))
      fun a t => P a (t.inContext s.scope.context)) : (Parser.withContext g p).Ends env s P := h

/-- A list is open as long as it is read. -/
theorem Ends.inList {list : ListContext}
    (h : p.Ends env (s.withLists (list :: s.scope.openLists))
      fun a t => P a (t.withLists s.scope.openLists)) : (Parser.inList list p).Ends env s P := h

/-- Branches that meet again: what follows may count on what all of them come to. -/
theorem Ends.via {γ : Type} {P : γ → ParserState → Prop} (rest : γ → Parser β)
    (hrest : ∀ c t, P c t → (rest c).Ends env t Q) {q : Parser β}
    (hq : (∀ c t, P c t → (rest c).Ends env t Q) → q.Ends env s Q) : q.Ends env s Q :=
  hq hrest

/-- Of a choice, the branch that is taken counts. -/
theorem Ends.ite {c : Bool} {p q : Parser α} (hp : c = true → p.Ends env s P)
    (hq : c = false → q.Ends env s P) : (if c = true then p else q).Ends env s P := by
  cases c with
  | true => exact hp rfl
  | false => exact hq rfl

/-- Whatever holds of every result and state holds at the end. -/
theorem Ends.always (h : ∀ a t, P a t) : p.Ends env s P := h _ _

/-- What is found out holds although the parser is called back. -/
theorem Ends.peeked {P : α → Prop} (h : p.Ends env s fun a _ => P a) :
    (Parser.lookAhead p).Ends env s fun a _ => P a := h

theorem Asks.pure (a : α) : (Pure.pure a : Parser α).Asks env s := rfl

theorem Asks.bind (hp : p.Asks env s) (hf : ∀ a, (f a).Asks env s) : (p >>= f).Asks env s := by
  show (f (p env s).1 env (p env s).2).2 = s
  rw [hp]
  exact hf _

theorem Asks.kind {f : Kind → Parser β} (h : (f s.token.kind).Asks env s) :
    (Parser.kind >>= f).Asks env s := h

theorem Asks.ite {c : Bool} {p q : Parser α} (hp : p.Asks env s) (hq : q.Asks env s) :
    (if c = true then p else q).Asks env s := by
  cases c with
  | true => exact hp
  | false => exact hq

theorem Asks.or {p q : Parser Bool} (hp : p.Asks env s) (hq : q.Asks env s) :
    (p <||> q).Asks env s := by
  refine .bind hp fun b => ?_
  cases b with
  | true => exact .pure true
  | false => exact hq

/-- What follows a question is answered from the same state. -/
theorem answer_bind (hp : p.Asks env s) :
    (p >>= f).answer env s = (f (p.answer env s)).answer env s := by
  show (f (p env s).1 env (p env s).2).1 = _
  rw [hp]
  rfl

theorem answer_or {p q : Parser Bool} (h : (p <||> q).answer env s = true) (hp : p.Asks env s) :
    p.answer env s = true ∨ q.answer env s = true := by
  have hor : (p <||> q).Ends env s fun b _ =>
      b = true → p.answer env s = true ∨ q.answer env s = true := by
    refine .ask hp ?_
    cases p.answer env s with
    | true => exact .pure fun _ => .inl rfl
    | false => exact .inr
  exact hor h

theorem answer_and {p q : Parser Bool} (h : (p <&&> q).answer env s = true) (hp : p.Asks env s) :
    p.answer env s = true ∧ q.answer env s = true := by
  have hand : (p <&&> q).Ends env s fun b _ =>
      b = true → p.answer env s = true ∧ q.answer env s = true := by
    refine .ask hp ?_
    cases p.answer env s with
    | true => exact fun hq => ⟨rfl, hq⟩
    | false => exact .pure nofun
  exact hand h

theorem Asks.read {f : Surroundings → Parser β} (h : (f env).Asks env s) :
    ((MonadReader.read : Parser Surroundings) >>= f).Asks env s := h

theorem Asks.get {f : ParserState → Parser β} (h : (f s).Asks env s) :
    ((MonadStateOf.get : Parser ParserState) >>= f).Asks env s := h

/-- Questions asked in turn, until one is answered yes. -/
theorem Asks.anyM {f : α → Parser Bool} {as : List α} (hf : ∀ a ∈ as, (f a).Asks env s) :
    (as.anyM f).Asks env s := by
  induction as with
  | nil => rfl
  | cons a as ih =>
    refine .bind (hf a List.mem_cons_self) fun b => ?_
    cases b with
    | true => rfl
    | false => exact ih fun b hb => hf b (List.mem_cons_of_mem a hb)

/-- What a parser gives in another context, it gives there. -/
theorem Gives.withContext [Held α] {took : Bool} {g : ContextFlags → ContextFlags}
    (h : p.Gives env took (s.inContext (g s.scope.context)) (s.inContext (g s.scope.context))) :
    (Parser.withContext g p).Gives env took s s :=
  Ends.withContext (h.mono fun _ _ ht => ⟨ht.run.inContext, ht.forward, ht.ahead⟩)

theorem Gives.weaken [Held α] {took : Bool} (h : p.Gives env took r s) :
    p.Gives env false r s :=
  h.mono fun _ _ hrun => { hrun with ahead := nofun }

/-- That a token is read over may be forgotten. -/
theorem Gives.loosen [Held α] {took : Bool} (h : p.Gives env true r s) : p.Gives env took r s :=
  h.mono fun _ _ hrun => { hrun with ahead := fun _ => hrun.ahead rfl }

end

end Parser

/-! ## 3. Loops -/

namespace Parser

/-- What comes of a turn of a loop that started in the given state: another turn, further on, or
the result. -/
def Turn.Leads {σ : Type} (P Q : σ → ParserState → Prop) (s : ParserState) :
    Turn σ → ParserState → Prop
  | .again b, t => P b t ∧ s.pos < t.pos
  | .done b, t => Q b t ∧ s.pos ≤ t.pos

variable {σ : Type} {turn : σ → Parser (Turn σ)} {env : Surroundings} {P Q : σ → ParserState → Prop}

/-- A loop ends: its turns read on, and there is only so much text. -/
theorem repeatUpTo_ends (hsize : ∀ a s, P a s → s.pos ≤ env.file.text.size)
    (hturn : ∀ a s, P a s → (turn a).Ends env s (Turn.Leads P Q s)) (count : Nat) (a : σ)
    (s : ParserState) (h : P a s) (hcount : env.file.text.size - s.pos < count) :
    (repeatUpTo turn count a).Ends env s fun b t => Q b t ∧ s.pos ≤ t.pos := by
  induction count generalizing a s with
  | zero => exact absurd hcount (Nat.not_lt_zero _)
  | succ count ih =>
    refine (hturn a s h).bind fun o t ht => ?_
    cases o with
    | again b =>
      obtain ⟨hinv, hread⟩ := ht
      have := hsize b t hinv
      refine (ih b t hinv (by omega)).mono fun c u hu => ⟨hu.1, ?_⟩
      exact Nat.le_trans (Nat.le_of_lt hread) hu.2
    | done b => exact ht

theorem repeating_ends {start : σ} {s : ParserState} (h : P start s)
    (hsize : ∀ a s, P a s → s.pos ≤ env.file.text.size)
    (hturn : ∀ a s, P a s → (turn a).Ends env s (Turn.Leads P Q s)) :
    (repeating start turn).Ends env s fun b t => Q b t ∧ s.pos ≤ t.pos :=
  .read (repeatUpTo_ends hsize hturn _ start s h (by omega))

end Parser

/-! ## 4. Calls -/

namespace Production

/-- How far a production is from the first token that it reads: at one place, a production calls
only productions of lower rank. -/
def rank : Production → Nat
  | statement => 7
  | expression => 6
  | assignment => 5
  | binary _ => 4
  | simpleUnary => 3
  | leftHandSide | type => 2
  | primary | typeOperator | bindingName | jsxElement _ | namespaceDeclaration .. => 1

/-- The rank above all others. -/
abbrev topRank : Nat := 8

theorem rank_lt_topRank (q : Production) : q.rank < topRank := by
  cases q <;> simp [rank, topRank]

/-- Where a production may be called: an element at its opening bracket, and a part of a dotted
namespace where it starts, without the mark of an error. -/
def Admits : Production → Token → Prop
  | jsxElement _, t => t.kind = .punct .lessThan
  | namespaceDeclaration start flags, t =>
    start = { pos := t.fullStart } ∧ flags.hasError = false
  | _, _ => True

/-- The question whether the production surely takes a token. -/
def begins : Production → Parser Bool
  | statement => Parser.startsStatement
  | expression | assignment => Parser.startsExpression
  | leftHandSide => Parser.startsLeftHandSide
  | jsxElement _ => pure true
  | _ => pure false

/-- The productions that are expressions. -/
def isExpression : Production → Bool
  | expression | assignment | binary _ | simpleUnary | leftHandSide | primary | jsxElement _ => true
  | _ => false

/-- What a call of the production comes to: a run that hands over one node. It takes a token where
the production begins; and where a left-hand side takes none, it leaves the token as it is and is
an identifier that is missing. -/
structure Meets (q : Production) (env : Surroundings) (s : ParserState) (id : NodeId)
    (t : ParserState) : Prop where
  run : Run env.file.text s t [.node id]
  takes : q.begins.answer env s = true → s.pos < t.pos
  stays : q = leftHandSide →
    s.pos < t.pos ∨ (t.token = s.token ∧ t.arena.kindOf id = .identifier)

end Production

/-- Unless a failure has occurred, there is a node under the number, and it is no block. -/
def ParserState.HoldsExpression (s : ParserState) (id : NodeId) : Prop :=
  s.fault = none → ∃ n, s.arena.get? id = some n ∧ n.kind ≠ .node .block

/-- The state is sound, and from here on calls come to what they should: all of them once a token
has been read over, and those of lower rank before that. An expression never comes to a block. -/
structure Surroundings.Ready (env : Surroundings) (rank : Nat) (s : ParserState) : Prop where
  ok : s.Ok env.file.text
  expresses : ∀ q : Production, q.isExpression = true → ∀ t : ParserState,
    (env.call q t).2.HoldsExpression (env.call q t).1
  serves : ∀ (q : Production) (t : ParserState), t.Ok env.file.text →
    s.pos < t.pos ∨ (s.pos ≤ t.pos ∧ q.rank < rank) →
    q.Admits t.token → q.Meets env t (env.call q t).1 (env.call q t).2

namespace Surroundings.Ready

variable {env : Surroundings} {rank rank' : Nat} {s t : ParserState} {items : List Part}

/-- Where all productions may be called, those below any rank may. -/
theorem ofTop (h : env.Ready Production.topRank s) : env.Ready rank' s where
  ok := h.ok
  expresses := h.expresses
  serves q t ht hpos := h.serves q t ht (hpos.imp_right fun hle => ⟨hle.1, q.rank_lt_topRank⟩)

theorem later (h : env.Ready rank s) (ht : t.Ok env.file.text) (hle : s.pos ≤ t.pos) :
    env.Ready rank t where
  ok := ht
  expresses := h.expresses
  serves q u hu hpos := by
    refine h.serves q u hu ?_
    rcases hpos with hlt | ⟨hle', hrank⟩
    · exact .inl (Nat.lt_of_le_of_lt hle hlt)
    · exact .inr ⟨Nat.le_trans hle hle', hrank⟩

/-- Once a token has been read over, every production may be called. -/
theorem ofTook (h : env.Ready rank s) (ht : t.Ok env.file.text) (htook : s.pos < t.pos) :
    env.Ready rank' t where
  ok := ht
  expresses := h.expresses
  serves q u hu hpos := by
    refine h.serves q u hu (.inl (Nat.lt_of_lt_of_le htook ?_))
    rcases hpos with hlt | ⟨hle, -⟩
    · exact Nat.le_of_lt hlt
    · exact hle

theorem run (h : env.Ready rank s) (hrun : Run env.file.text s t items) :
    env.Ready rank t :=
  h.later hrun.ok hrun.forward

/-- The surroundings do not matter. -/
theorem inScope (h : env.Ready rank s) (scope : Scope) : env.Ready rank { s with scope } :=
  h.later (h.ok.inScope scope) (Nat.le_refl _)

theorem inContext (h : env.Ready rank s) (context : ContextFlags) :
    env.Ready rank (s.inContext context) :=
  h.inScope _

theorem withLists (h : env.Ready rank s) (openLists : List ListContext) :
    env.Ready rank (s.withLists openLists) :=
  h.inScope _

theorem atDepth (h : env.Ready rank s) (depth : Nat) : env.Ready rank (s.atDepth depth) :=
  h.inScope _

end Surroundings.Ready

/-! ## 5. What has been reached so far -/

/-- The parser is on its way from an earlier state `r`, has handed over the given parts, and may call
productions below the rank. What is under way now, a production or a turn of a loop, started at `m`;
if so told, a token has been read over since then. -/
structure Sofar (env : Surroundings) (rank : Nat) (took : Bool) (r m s : ParserState)
    (items : List Part) : Prop extends Handed env.file.text took r m s items where
  ready : env.Ready rank s

namespace Sofar

open ScriptSyntax.Parser

variable {α β σ : Type} [Held α] {p : Parser α} {f : α → Parser β} {env : Surroundings}
variable {rank rank' : Nat} {took took' : Bool} {r m s t : ParserState} {items items' : List Part}
variable {Q : β → ParserState → Prop}

theorem start (h : env.Ready rank s) : Sofar env rank false s s s [] where
  toHanded := (Run.refl h.ok).handed
  ready := h

theorem parts (g : Sofar env rank took r m s items) (h : items = items') :
    Sofar env rank took r m s items' := h ▸ g

/-- From here on something new is under way. -/
theorem mark (g : Sofar env rank took r m s items) : Sofar env rank false r s s items where
  run := g.run
  forward := Nat.le_refl _
  ahead := nofun
  ready := g.ready

/-- From here on something new is under way, which hands over parts of its own. -/
theorem here (g : Sofar env rank took r m s items) : Sofar env rank false s s s [] := start g.ready

/-- What was under way since `s` has ended. -/
theorem resume (g : Sofar env rank took r m s items) (h : Handed env.file.text took' r s t items') :
    Sofar env rank took r m t items' where
  run := h.run
  forward := Nat.le_trans g.forward h.forward
  ahead htook := Nat.lt_of_lt_of_le (g.ahead htook) h.forward
  ready := g.ready.later h.run.ok h.forward

/-- What was under way since `s` has ended, and has read over a token. -/
theorem resumeTook (g : Sofar env rank took r m s items)
    (h : Handed env.file.text true r s t items') :
    Sofar env Production.topRank true r m t items' where
  run := h.run
  forward := Nat.le_trans g.forward h.forward
  ahead _ := Nat.lt_of_le_of_lt g.forward (h.ahead rfl)
  ready := g.ready.ofTook h.run.ok (h.ahead rfl)

/-- That a token has been read over may be forgotten. -/
theorem loosen (g : Sofar env rank true r m s items) : Sofar env rank took r m s items where
  run := g.run
  forward := g.forward
  ahead _ := g.ahead rfl
  ready := g.ready

/-- After a token all productions may be called, whatever is asked for. -/
theorem weaken (g : Sofar env Production.topRank true r m s items) :
    Sofar env rank took r m s items where
  toHanded := g.loosen.toHanded
  ready := g.ready.ofTop

/-- On from here by a run. -/
theorem go (g : Sofar env rank took r m s items) (h : Run env.file.text s t items') :
    Sofar env rank took r m t (items ++ items') :=
  have h : Handed env.file.text false r s t (items ++ items') := ⟨g.run.trans h, h.forward, nofun⟩
  g.resume h

/-- On from here by a run that hands over nothing. -/
theorem goOn (g : Sofar env rank took r m s items) (h : Run env.file.text s t []) :
    Sofar env rank took r m t items := by
  simpa using g.go h

/-- On from here by a run that reads over a token. -/
theorem goTook (g : Sofar env rank took r m s items) (h : Run env.file.text s t items')
    (htook : s.pos < t.pos) : Sofar env Production.topRank true r m t (items ++ items') :=
  g.resumeTook ⟨g.run.trans h, h.forward, fun _ => htook⟩

theorem goOnTook (g : Sofar env rank took r m s items) (h : Run env.file.text s t [])
    (htook : s.pos < t.pos) : Sofar env Production.topRank true r m t items := by
  simpa using g.goTook h htook

/-! ### Steps -/

/-- A step that hands over the parts of its result. -/
theorem step (g : Sofar env rank took r m s items) (hp : p.Gives env false s s)
    (hf : ∀ a t, Sofar env rank took r m t (items ++ held a) → (f a).Ends env t Q) :
    (p >>= f).Ends env s Q :=
  hp.bind fun a t h => hf a t (g.go h.run)

/-- A step that reads over a token. -/
theorem stepTook (g : Sofar env rank took r m s items) (hp : p.Gives env true s s)
    (hf : ∀ a t, Sofar env Production.topRank true r m t (items ++ held a) → (f a).Ends env t Q) :
    (p >>= f).Ends env s Q :=
  hp.bind fun a t h => hf a t (g.goTook h.run (h.ahead rfl))

/-- The first step of what is under way. It reads over a token if it says so. -/
theorem stepFirst (g : Sofar env rank took r s s items) (hp : p.Gives env took' s s)
    (hf : ∀ a t, Sofar env rank took' r s t (items ++ held a) → (f a).Ends env t Q) :
    (p >>= f).Ends env s Q :=
  hp.bind fun a t h => hf a t
    ⟨⟨g.run.trans h.run, h.forward, h.ahead⟩, g.ready.run h.run⟩

/-- A step that hands over parts for the whole way. -/
theorem fold (g : Sofar env rank took r m s items) (hp : p.Gives env took' r s)
    (hf : ∀ a t, Sofar env rank took r m t (held a) → (f a).Ends env t Q) :
    (p >>= f).Ends env s Q :=
  hp.bind fun a t h => hf a t (g.resume h)

/-- Ways that part and meet again: the rest counts on what has been reached then, whichever was
taken. -/
theorem fork {γ : Type} [Held γ] (_g : Sofar env rank took r m s items) (rest : γ → Parser β)
    (hrest : ∀ c t, Sofar env rank took r m t (items ++ held c) → (rest c).Ends env t Q)
    {q : Parser β} (hq : (∀ c t, Sofar env rank took r m t (items ++ held c) →
      (rest c).Ends env t Q) → q.Ends env s Q) : q.Ends env s Q :=
  hq hrest

/-- The last step. -/
theorem last (g : Sofar env rank took r m s items) (hp : p.Gives env took' r s) :
    p.Ends env s fun a t => Handed env.file.text took r m t (held a) :=
  hp.mono fun _ _ h => (g.resume h).toHanded

/-- The last step, which reads over a token. -/
theorem lastTook (g : Sofar env rank took r m s items) (hp : p.Gives env true r s) :
    p.Ends env s fun a t => Handed env.file.text true r m t (held a) :=
  hp.mono fun _ _ h => (g.resumeTook h).toHanded

/-- The only step that hands over anything. -/
theorem only (g : Sofar env rank took r m s []) (hp : p.Gives env took' s s) :
    p.Ends env s fun a t => Handed env.file.text took r m t (held a) :=
  hp.mono fun _ _ h => (g.go h.run).toHanded

/-- The only step that hands over anything, which reads over a token. -/
theorem onlyTook (g : Sofar env rank took r m s []) (hp : p.Gives env true s s) :
    p.Ends env s fun a t => Handed env.file.text true r m t (held a) :=
  hp.mono fun _ _ h => (g.goTook h.run (h.ahead rfl)).toHanded

/-- The end of the way. -/
theorem done {a : α} (g : Sofar env rank took r m s items) (h : held a = items) :
    (pure a : Parser α).Ends env s fun a t => Handed env.file.text took r m t (held a) := by
  subst h
  exact Ends.pure g.toHanded

/-! ### Loops -/

/-- After a turn of a loop parts are handed over for the whole way. -/
abbrev Turns (env : Surroundings) (rank : Nat) (took : Bool) (r m : ParserState)
    (parts : σ → List Part) (s : ParserState) : Turn σ → ParserState → Prop :=
  Turn.Leads (fun b t => Sofar env rank took r m t (parts b))
    (fun b t => Sofar env rank took r m t (parts b)) s

/-- A loop whose turns hand over parts for the whole way. -/
theorem loop {k : σ → List Part} {turn : σ → Parser (Turn σ)} {a : σ}
    (g : Sofar env rank took r m s (k a))
    (hturn : ∀ a t, Sofar env rank took r m t (k a) →
      (turn a).Ends env t (Turns env rank took r m k t)) :
    (repeating a turn).Ends env s fun a t => Sofar env rank took r m t (k a) :=
  (repeating_ends (P := fun a t => Sofar env rank took r m t (k a)) g
    (fun _ _ g => g.ready.ok.pos_le_size) hturn).mono fun _ _ h => h.1

/-- The last turn of a loop. -/
theorem stop {parts : σ → List Part} {a : σ} (g : Sofar env rank took r m s (parts a)) :
    (pure (.done a) : Parser (Turn σ)).Ends env s (Turns env rank took r m parts s) :=
  ⟨g, Nat.le_refl _⟩

/-- A turn that has read over a token and made something to go on with. -/
theorem again [Held σ] {p : Parser σ} (g : Sofar env rank took r m s items)
    (hp : p.Ends env t fun a u => Handed env.file.text true r s u (held a)) :
    (p >>= fun a => pure (Turn.again a)).Ends env t (Turns env rank took r m held s) :=
  hp.bind fun _ _ h => ⟨g.resume h, h.ahead rfl⟩

end Sofar

end ScriptSyntax
