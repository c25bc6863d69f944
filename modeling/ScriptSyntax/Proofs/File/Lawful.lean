/-
  ScriptSyntax/Proofs/File/Lawful.lean
  ====================================
  Declarations and functions of a parsed file.

  Whether a declaration or a member starts is decided by looking ahead, and what
  was found is then read by other rules.  Both agree: a declaration is missing only
  behind decorators, and a property has a name unless decorators or modifiers were
  read for it.  And what a function makes of `yield` and `await` inside its body is
  its own affair, whatever the function stands in.
-/
import ScriptSyntax.Proofs.File.Shape
import ScriptSyntax.Proofs.Tree.Falls

namespace ScriptSyntax

variable {a b : Arena} {m n : Node}

theorem Arena.SameNodes.mayBeBody (hsame : a.SameNodes b) {isGenerator isAsync : Bool} {id : NodeId}
    (h : a.MayBeBody isGenerator isAsync id) : b.MayBeBody isGenerator isAsync id := by
  obtain ⟨body, hbody, hcontext⟩ := h
  obtain ⟨_, hm, _, rfl⟩ := hsame.keeps id body hbody
  exact ⟨_, hm, hcontext⟩

theorem Arena.SameNodes.isAsync_eq (hsame : a.SameNodes b) (hmodifiers : n.modifiers = m.modifiers) :
    b.isAsync n = a.isAsync m := by
  have hlist : b.modifiersOf n = a.modifiersOf m := by
    rw [Arena.modifiersOf, Arena.modifiersOf, hmodifiers, hsame.kindOf_eq]
  rw [Arena.isAsync, Arena.isAsync, hlist]

/-- The rules are not about parents. -/
theorem Node.Lawful.sameNode (h : m.Lawful a) (hsame : a.SameNodes b) (hnode : Arena.SameNode m n) :
    n.Lawful b := by
  obtain ⟨parent, rfl⟩ := hnode
  constructor
  · exact h.decorated
  · intro hkind
    obtain ⟨shape, name, hpayload, hname, hmissing⟩ := h.named hkind
    obtain ⟨_, hm, _, rfl⟩ := hsame.keeps _ name hname
    exact ⟨shape, _, hpayload, hm, hmissing⟩
  · intro hkind
    obtain ⟨shape, hpayload, hbody⟩ := h.moded hkind
    refine ⟨shape, hpayload, fun body hid => ?_⟩
    rw [hsame.isAsync_eq rfl]
    exact hsame.mayBeBody (hbody body hid)
  · intro hkind
    obtain ⟨shape, hpayload, hbody⟩ := h.plain hkind
    exact ⟨shape, hpayload, fun body hid => hsame.mayBeBody (hbody body hid)⟩

theorem Rooted.lawful {text : Array Char} {context : ContextFlags} {root : NodeId} {s : ParserState}
    (h : Rooted text context root s) (id : NodeId) (hn : s.arena.get? id = some n) :
    n.Lawful s.arena :=
  h.run.lawful (isNode_scanAt text 0) id n (Nat.zero_le _) hn

/-- No node of a parsed file breaks a rule. -/
theorem exists_lawful (fileName : String) (text : SourceText) (options : ParseOptions) :
    ∃ f, parseText fileName text options = .ok f
      ∧ ∀ id n, f.arena.get? id = some n → n.Lawful f.arena := by
  obtain ⟨_, root, s, hrooted, hparse⟩ := exists_rooted fileName text options
  have hsame := sameNodes_completeFile fileName text options root s
  refine ⟨_, hparse, fun id n hn => ?_⟩
  obtain ⟨m, hm, hnode⟩ := hsame.get? hn
  exact (hrooted.lawful id hm).sameNode hsame hnode

/-- In every parsed file a declaration that is missing has decorators, and a property whose name is
missing has decorators or modifiers. -/
theorem parseText_declared (fileName : String) (text : SourceText) (options : ParseOptions) :
    ∃ f, parseText fileName text options = .ok f ∧ ∀ id n, f.arena.get? id = some n →
      (n.kind = .node .missingDeclaration → ∃ list, n.decorators = some list ∧ list.nodes ≠ [])
      ∧ (n.kind = .node .propertyDeclaration → ∃ shape name, n.payload = .variableLike shape
        ∧ f.arena.get? shape.name = some name
        ∧ (name.isMissing = true → n.decorators.isSome = true ∨ n.modifiers.isSome = true)) := by
  obtain ⟨f, hparse, hlawful⟩ := exists_lawful fileName text options
  exact ⟨f, hparse, fun id n hn => ⟨(hlawful id n hn).decorated, (hlawful id n hn).named⟩⟩

/-- In every parsed file the block that is the body of a function, a method or an arrow function carries
`yield` if there is an asterisk, `await` if `async` is among the modifiers, and never the context of a
decorator, whatever the function stands in. The bodies of constructors and accessors carry none of
these. -/
theorem parseText_bodies (fileName : String) (text : SourceText) (options : ParseOptions) :
    ∃ f, parseText fileName text options = .ok f ∧ ∀ id n, f.arena.get? id = some n →
      (n.kind.setsMode = true → ∃ shape, n.payload = .functionLike shape
        ∧ ∀ bodyId, shape.body = some bodyId → ∃ body, f.arena.get? bodyId = some body
          ∧ (body.kind = .node .block →
            (body.flags.context.yieldContext = true ↔ shape.asterisk.isSome = true)
            ∧ (body.flags.context.awaitContext = true ↔ Modifier.isAsync ∈ f.arena.modifiersOf n)
            ∧ body.flags.context.decoratorContext = false))
      ∧ (n.kind.hasNoMode = true → ∃ shape, n.payload = .functionLike shape
        ∧ ∀ bodyId, shape.body = some bodyId → ∃ body, f.arena.get? bodyId = some body
          ∧ (body.kind = .node .block → body.flags.context.yieldContext = false
            ∧ body.flags.context.awaitContext = false ∧ body.flags.context.decoratorContext = false)) := by
  obtain ⟨f, hparse, hlawful⟩ := exists_lawful fileName text options
  refine ⟨f, hparse, fun id n hn => ⟨fun hkind => ?_, fun hkind => ?_⟩⟩
  · obtain ⟨shape, hpayload, hbody⟩ := (hlawful id n hn).moded hkind
    refine ⟨shape, hpayload, fun bodyId hid => ?_⟩
    obtain ⟨body, hget, hinside⟩ := hbody bodyId hid
    refine ⟨body, hget, fun hblock => ⟨?_, ?_, (hinside hblock).decorator_eq⟩⟩
    · rw [(hinside hblock).yield_eq]
    · rw [(hinside hblock).await_eq]
      exact decide_eq_true_iff
  · obtain ⟨shape, hpayload, hbody⟩ := (hlawful id n hn).plain hkind
    refine ⟨shape, hpayload, fun bodyId hid => ?_⟩
    obtain ⟨body, hget, hinside⟩ := hbody bodyId hid
    exact ⟨body, hget, fun hblock =>
      ⟨(hinside hblock).yield_eq, (hinside hblock).await_eq, (hinside hblock).decorator_eq⟩⟩

end ScriptSyntax
