/-
  ScriptSyntax/Proofs/Grammar/Scouting.lean
  =========================================
  Questions about tokens.

  What a token may start is found out by reading tokens, of which those after
  the current one are then given back.  A parser that only reads tokens scouts:
  where it gets to is decided by the token it starts at, by the text, and by what
  the context says about `yield`, `await` and `in`.  One that also ends where it
  started asks.  Questions have the same answer in a production and in whoever
  calls it, since neither calls nor lists nor errors enter into them.
-/
import ScriptSyntax.Proofs.Grammar.Reading

namespace ScriptSyntax

/-! ## 1. Scouts -/

/-- States at the same token in which the same words are identifiers and, if so told, the same tokens
are operators. -/
structure Alike (operators : Bool) (env : Surroundings) (s : ParserState) (env' : Surroundings)
    (s' : ParserState) : Prop where
  file : env.file = env'.file
  token : s.token = s'.token
  yieldContext : s.scope.context.yieldContext = s'.scope.context.yieldContext
  awaitContext : s.scope.context.awaitContext = s'.scope.context.awaitContext
  disallowIn : operators = true →
    s.scope.context.disallowIn = s'.scope.context.disallowIn

theorem Alike.of_eq {operators : Bool} {env : Surroundings} {s t : ParserState}
    (htoken : t.token = s.token) (hscope : t.scope = s.scope) : Alike operators env s env t := by
  refine ⟨rfl, htoken.symm, ?_, ?_, fun _ => ?_⟩ <;> rw [hscope]

/-- The token that the parser starts at decides what it gives and where it gets to. -/
def Steady {α : Type} (operators : Bool) (p : Parser α) : Prop :=
  ∀ env env' s s', Alike operators env s env' s' →
    (p env s).1 = (p env' s').1 ∧ Alike operators env (p env s).2 env' (p env' s').2

/-- The parser reads tokens and does no more, and the token that it starts at decides how far it
gets. -/
structure Scouts {α : Type} (operators : Bool) (p : Parser α) : Prop where
  glance : ∀ {env s}, s.Ok env.file.text → p.Ends env s fun _ t => Glance env.file.text s t
  steady : Steady operators p

/-- The parser scouts, and ends where it started. -/
structure Inquires {α : Type} (operators : Bool) (p : Parser α) : Prop
    extends Scouts operators p where
  asks : ∀ {env s}, s.Ok env.file.text → p.Asks env s

section

variable {α β σ : Type} {o : Bool} {p q : Parser α} {f : α → Parser β}
variable {turn : σ → Parser (Parser.Turn σ)}

namespace Steady

theorem pure (a : α) : Steady o (Pure.pure a : Parser α) := fun _ _ _ _ hAlike => ⟨rfl, hAlike⟩

theorem bind (hp : Steady o p) (hf : ∀ a, Steady o (f a)) : Steady o (p >>= f) := by
  intro env env' s s' hAlike
  obtain ⟨hanswer, hnext⟩ := hp _ _ _ _ hAlike
  show (f (p env s).1 env _).1 = _ ∧ Alike o env (f (p env s).1 env _).2 env' _
  rw [hanswer]
  exact hf (p env' s').1 _ _ _ _ hnext

theorem repeatUpTo (hturn : ∀ a, Steady o (turn a)) (count : Nat) (start : σ) :
    Steady o (Parser.repeatUpTo turn count start) := by
  induction count generalizing start with
  | zero =>
    intro env env' s s' hAlike
    exact ⟨rfl, hAlike.file, hAlike.token, hAlike.yieldContext, hAlike.awaitContext, hAlike.disallowIn⟩
  | succ count ih =>
    refine Steady.bind (hturn start) fun outcome => ?_
    cases outcome with
    | again b => exact ih b
    | done b => exact .pure b

theorem repeating (hturn : ∀ a, Steady o (turn a)) (start : σ) :
    Steady o (Parser.repeating start turn) := by
  intro env env' s s' hAlike
  have hcount := repeatUpTo hturn (env.file.text.size + 2) start _ _ _ _ hAlike
  show _ = (Parser.repeatUpTo turn (env'.file.text.size + 2) start env' s').1 ∧ Alike o env _ env'
    (Parser.repeatUpTo turn (env'.file.text.size + 2) start env' s').2
  rw [← hAlike.file]
  exact hcount

end Steady

namespace Scouts

theorem bind (hp : Scouts o p) (hf : ∀ a, Scouts o (f a)) : Scouts o (p >>= f) where
  glance hok := (hp.glance hok).bind fun a _ ht =>
    ((hf a).glance ht.ok).mono fun _ _ hu => ht.trans hu
  steady := Steady.bind hp.steady fun a => (hf a).steady

theorem pure (a : α) : Scouts o (Pure.pure a : Parser α) := ⟨.refl, .pure a⟩

theorem ite {c : Bool} (hp : Scouts o p) (hq : Scouts o q) :
    Scouts o (if c = true then p else q) := by
  cases c with
  | true => exact hp
  | false => exact hq

theorem nextToken : Scouts o Parser.nextToken where
  glance hok := Parser.nextToken_glance hok
  steady env env' s s' hAlike := by
    refine ⟨rfl, hAlike.file, ?_, ?_, ?_, ?_⟩ <;>
      simp only [Parser.nextToken, Parser.token_advance, Parser.scope_advance]
    · rw [hAlike.file, hAlike.token]
    · exact hAlike.yieldContext
    · exact hAlike.awaitContext
    · exact hAlike.disallowIn

theorem afterNext (hp : Scouts o p) : Scouts o (Parser.afterNext p) :=
  nextToken.bind fun _ => hp

/-- A loop scouts, if its turns scout and read on. -/
theorem repeating (hturn : ∀ a, Scouts o (turn a))
    (hgain : ∀ {env s}, s.Ok env.file.text → ∀ a, (turn a).Ends env s fun outcome t =>
      ∀ b, outcome = .again b → s.pos < t.pos) (start : σ) :
    Scouts o (Parser.repeating start turn) where
  glance {env s} hok := by
    refine (Parser.repeating_ends (P := fun _ t => Glance env.file.text s t) (.refl hok)
      (fun _ _ ht => ht.ok.pos_le_size) fun a t ht => ?_).mono fun _ _ ht => ht.1
    have hglance := (hturn a).glance ht.ok
    have hread := hgain ht.ok a
    unfold Parser.Ends at hglance ⊢
    cases hresult : (turn a env t).1 with
    | again b => exact ⟨ht.trans hglance, hread b hresult⟩
    | done b => exact ⟨ht.trans hglance, hglance.forward⟩
  steady := Steady.repeating (fun a => (hturn a).steady) start

end Scouts

/-! ## 2. Questions -/

/-- What only reads tokens leaves no trace once it is called back. -/
theorem Parser.Ends.lookAhead {env : Surroundings} {s : ParserState}
    (h : p.Ends env s fun _ t => Glance env.file.text s t) :
    (lookAhead p).Asks env s := by
  have hglance : Glance env.file.text s (p env s).2 := h
  show (p env s).2.rewind s.snapshot = s
  rw [hglance.rewind_eq, hglance.names]

namespace Inquires

/-- The answer to a question is the same in surroundings that are alike. -/
theorem answer_eq (h : Inquires o p) {env env' : Surroundings} {s s' : ParserState}
    (hAlike : Alike o env s env' s') : p.answer env s = p.answer env' s' :=
  (h.steady _ _ _ _ hAlike).1

/-- Whatever leaves the state and is answered from the token asks. -/
theorem of_eq (hstate : ∀ env s, (p env s).2 = s)
    (hanswer : ∀ {env env' s s'}, Alike o env s env' s' → (p env s).1 = (p env' s').1) :
    Inquires o p where
  glance {env s} hok := by
    show Glance env.file.text s (p env s).2
    rw [hstate]
    exact .refl hok
  steady _ _ _ _ hAlike := by
    refine ⟨hanswer hAlike, ?_⟩
    rw [hstate, hstate]
    exact hAlike
  asks _ := hstate _ _

theorem pure (a : α) : Inquires o (Pure.pure a : Parser α) := of_eq (fun _ _ => rfl) fun _ => rfl

theorem kind : Inquires o Parser.kind := of_eq (fun _ _ => rfl) fun h => congrArg Token.kind h.token

theorem kindIs (c : Kind → Bool) : Inquires o (Parser.kindIs c) :=
  of_eq (fun _ _ => rfl) fun h => congrArg (fun t : Token => c t.kind) h.token

theorem isAt (k : Kind) : Inquires o (Parser.isAt k) := kindIs (· == k)

theorem isAtPunct (p : Punctuator) : Inquires o (Parser.isAtPunct p) := isAt _

theorem isAtKeyword (k : Keyword) : Inquires o (Parser.isAtKeyword k) := isAt _

theorem afterLineBreak : Inquires o Parser.afterLineBreak :=
  of_eq (fun _ _ => rfl) fun h => congrArg (fun t : Token => t.flags.precedingLineBreak) h.token

theorem bind (hp : Inquires o p) (hf : ∀ a, Inquires o (f a)) : Inquires o (p >>= f) where
  toScouts := hp.toScouts.bind fun a => (hf a).toScouts
  asks {env s} hok := by
    show (f (p env s).1 env (p env s).2).2 = s
    rw [hp.asks hok]
    exact (hf _).asks hok

theorem ite {c : Bool} (hp : Inquires o p) (hq : Inquires o q) :
    Inquires o (if c = true then p else q) := by
  cases c with
  | true => exact hp
  | false => exact hq

theorem or {p q : Parser Bool} (hp : Inquires o p) (hq : Inquires o q) :
    Inquires o (p <||> q) := by
  refine hp.bind fun b => ?_
  cases b with
  | true => exact .pure true
  | false => exact hq

theorem and {p q : Parser Bool} (hp : Inquires o p) (hq : Inquires o q) :
    Inquires o (p <&&> q) := by
  refine hp.bind fun b => ?_
  cases b with
  | true => exact hq
  | false => exact .pure false

theorem onSameLine {p : Parser Bool} (hp : Inquires o p) : Inquires o (Parser.onSameLine p) :=
  afterLineBreak.bind fun _ => .ite (.pure false) hp

/-- A scout that is called back asks. -/
theorem lookAhead (hp : Scouts o p) : Inquires o (Parser.lookAhead p) where
  asks hok := (hp.glance hok).lookAhead
  glance {env s} hok := by
    have hasks : (Parser.lookAhead p env s).2 = s := (hp.glance hok).lookAhead
    show Glance env.file.text s (Parser.lookAhead p env s).2
    rw [hasks]
    exact .refl hok
  steady _ _ _ _ hAlike := by
    refine ⟨(hp.steady _ _ _ _ hAlike).1, ?_⟩
    exact ⟨hAlike.file, hAlike.token, hAlike.yieldContext, hAlike.awaitContext, hAlike.disallowIn⟩

theorem peek (hp : Scouts o p) : Inquires o (Parser.peek p) := lookAhead hp.afterNext

/-- A question after a token that was read over reads over no other. -/
theorem skipped {env : Surroundings} {s t : ParserState} (hp : Inquires true p)
    (h : Parser.Skipped env.file.text s t) :
    p.Ends env t fun _ u => Parser.Skipped env.file.text s u := by
  have hstate : (p env t).2 = t := hp.asks h.ok
  unfold Parser.Ends
  rw [hstate]
  exact h

end Inquires

end

end ScriptSyntax
