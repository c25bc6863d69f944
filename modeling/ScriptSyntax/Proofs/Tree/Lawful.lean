/-
  ScriptSyntax/Proofs/Tree/Lawful.lean
  ====================================
  What nodes of some kinds have to be.

  A declaration that was looked for and is not there has decorators, and a
  property without a name has decorators or modifiers: that much was read.  The
  block that is the body of a function carries what the function makes of `yield`
  and `await`, whatever surrounds the function.  All of this is about a node and
  its children, so it is kept when nodes are added.
-/
import ScriptSyntax.Proofs.Tree.Sound

namespace ScriptSyntax

variable {a b : Arena} {n : Node}

/-! ## 1. Bodies -/

/-- The context is the one inside a function that is a generator or asynchronous as told, and not the
one of a decorator. -/
structure ContextFlags.IsInside (c : ContextFlags) (isGenerator isAsync : Bool) : Prop where
  yield_eq : c.yieldContext = isGenerator
  await_eq : c.awaitContext = isAsync
  decorator_eq : c.decoratorContext = false

/-- The node may be the body of a function that is a generator or asynchronous as told: if it is a
block, it carries that context. -/
def Arena.MayBeBody (a : Arena) (isGenerator isAsync : Bool) (id : NodeId) : Prop :=
  ∃ body, a.get? id = some body
    ∧ (body.kind = .node .block → body.flags.context.IsInside isGenerator isAsync)

theorem Arena.MayBeBody.grows {isGenerator isAsync : Bool} {id : NodeId}
    (h : a.MayBeBody isGenerator isAsync id) (hab : a.Grows b) :
    b.MayBeBody isGenerator isAsync id := by
  obtain ⟨body, hbody, hcontext⟩ := h
  exact ⟨body, hab.get? hbody, hcontext⟩

/-- What is no block may be the body of any function. -/
theorem Arena.mayBeBody_of_ne {isGenerator isAsync : Bool} {id : NodeId} {body : Node}
    (hbody : a.get? id = some body) (h : body.kind ≠ .node .block) :
    a.MayBeBody isGenerator isAsync id :=
  ⟨body, hbody, fun hblock => absurd hblock h⟩

/-- Is `async` among the modifiers of the node? -/
def Arena.isAsync (a : Arena) (n : Node) : Bool := decide (Modifier.isAsync ∈ a.modifiersOf n)

theorem Modifier.ofKind?_eq_isAsync {k : Kind} :
    Modifier.ofKind? k = some .isAsync ↔ k = .keyword .asyncKw := by
  constructor
  · intro h
    unfold Modifier.ofKind? at h
    split at h
    · rename_i word
      cases word <;> cases h
      rfl
    · cases h
  · rintro rfl
    rfl

theorem Arena.isAsync_eq_true_iff : a.isAsync n = true ↔
    ∃ list, n.modifiers = some list ∧ ∃ id ∈ list.nodes, a.kindOf id = .keyword .asyncKw := by
  rw [isAsync, decide_eq_true_iff, modifiersOf]
  cases n.modifiers with
  | none => simp
  | some list => simp [Modifier.ofKind?_eq_isAsync]

theorem Node.mem_children_of_modifiers {list : NodeArray} {id : NodeId} (h : n.modifiers = some list)
    (hid : id ∈ list.nodes) : id ∈ n.children := by
  have hfield : ("modifiers", Field.array list) ∈ n.leadingFields ++ n.payload.fields := by
    simp [Node.leadingFields, optionalArray, h]
  have hpart : Part.array list ∈ n.parts := List.mem_filterMap.mpr ⟨_, hfield, rfl⟩
  exact List.mem_flatMap.mpr ⟨_, hpart, hid⟩

theorem Arena.Grows.isAsync_eq (hab : a.Grows b)
    (hin : ∀ list, n.modifiers = some list → ∀ id ∈ list.nodes, id.index < a.size) :
    b.isAsync n = a.isAsync n := by
  have hkind {list : NodeArray} (hlist : n.modifiers = some list) (id : NodeId)
      (hid : id ∈ list.nodes) : b.kindOf id = a.kindOf id := by
    rw [Arena.kindOf, hab.get?_eq id (hin list hlist id hid)]
    rfl
  refine Bool.eq_iff_iff.mpr (Arena.isAsync_eq_true_iff.trans (Iff.trans ?_ Arena.isAsync_eq_true_iff.symm))
  constructor
  · rintro ⟨list, hlist, id, hid, hasync⟩
    exact ⟨list, hlist, id, hid, (hkind hlist id hid).symm.trans hasync⟩
  · rintro ⟨list, hlist, id, hid, hasync⟩
    exact ⟨list, hlist, id, hid, (hkind hlist id hid).trans hasync⟩

/-! ## 2. Rules -/

namespace Kind

/-- Declarations and members that may be made where there is no name for them. -/
def mayLackName : Kind → Bool
  | .node .missingDeclaration | .node .propertyDeclaration => true
  | _ => false

/-- Functions that their asterisk and their modifiers make what they are. -/
def setsMode : Kind → Bool
  | .node .functionDeclaration | .node .functionExpression | .node .methodDeclaration
  | .node .arrowFunction => true
  | _ => false

/-- Functions that are neither generators nor asynchronous. -/
def hasNoMode : Kind → Bool
  | .node .constructorDecl | .node .getAccessor | .node .setAccessor => true
  | _ => false

theorem hasNoMode_of_setsMode {k : Kind} (h : k.setsMode = true) : k.hasNoMode = false := by
  unfold setsMode at h
  split at h
  all_goals first
    | rfl
    | cases h

/-- The kinds that there are rules for. -/
def isRuled (k : Kind) : Bool := k.mayLackName || k.setsMode || k.hasNoMode

end Kind

/-- Is there a rule for the kind, or does the payload have its parts in another order than the source? -/
def Kind.isSpecial (k : Kind) (p : Payload) : Bool := k.isRuled || p.spreadsProperty

theorem Kind.isSpecial_eq_false {k : Kind} {p : Payload} (hk : k.isRuled = false)
    (hp : p.spreadsProperty = false) : k.isSpecial p = false :=
  Bool.or_eq_false_iff.mpr ⟨hk, hp⟩

theorem Kind.not_isRuled {k : Kind} {p : Payload} (h : k.isSpecial p = false) : k.isRuled = false :=
  (Bool.or_eq_false_iff.mp h).1

theorem Kind.not_spreadsProperty {k : Kind} {p : Payload} (h : k.isSpecial p = false) :
    p.spreadsProperty = false :=
  (Bool.or_eq_false_iff.mp h).2

/-- The rules for a node of the arena. -/
structure Node.Lawful (a : Arena) (n : Node) : Prop where
  decorated : n.kind = .node .missingDeclaration →
    ∃ list, n.decorators = some list ∧ list.nodes ≠ []
  named : n.kind = .node .propertyDeclaration →
    ∃ shape name, n.payload = .variableLike shape ∧ a.get? shape.name = some name
      ∧ (name.isMissing = true → n.decorators.isSome = true ∨ n.modifiers.isSome = true)
  moded : n.kind.setsMode = true →
    ∃ shape, n.payload = .functionLike shape
      ∧ ∀ body, shape.body = some body → a.MayBeBody shape.asterisk.isSome (a.isAsync n) body
  plain : n.kind.hasNoMode = true →
    ∃ shape, n.payload = .functionLike shape
      ∧ ∀ body, shape.body = some body → a.MayBeBody false false body

namespace Node

theorem lawful_of_isRuled (h : n.kind.isRuled = false) : n.Lawful a := by
  simp only [Kind.isRuled, Bool.or_eq_false_iff] at h
  obtain ⟨⟨hname, hmode⟩, hplain⟩ := h
  constructor
  · intro hkind
    rw [hkind] at hname
    cases hname
  · intro hkind
    rw [hkind] at hname
    cases hname
  · intro hkind
    exact absurd (hmode.symm.trans hkind) Bool.false_ne_true
  · intro hkind
    exact absurd (hplain.symm.trans hkind) Bool.false_ne_true

/-- There are no rules for tokens. -/
theorem lawful_of_isNode (h : n.kind.isNode = false) : n.Lawful a := by
  refine lawful_of_isRuled ?_
  cases hkind : n.kind with
  | node k =>
    rw [hkind] at h
    cases h
  | _ => rfl

theorem lawful_of_decorators {list : NodeArray} (hkind : n.kind = .node .missingDeclaration)
    (hlist : n.decorators = some list) (hnodes : list.nodes ≠ []) : n.Lawful a where
  decorated _ := ⟨list, hlist, hnodes⟩
  named h := by
    rw [hkind] at h
    cases h
  moded h := by
    rw [hkind] at h
    cases h
  plain h := by
    rw [hkind] at h
    cases h

theorem lawful_of_name {shape : VariableShape} {name : Node}
    (hkind : n.kind = .node .propertyDeclaration) (hpayload : n.payload = .variableLike shape)
    (hname : a.get? shape.name = some name)
    (hmissing : name.isMissing = true → n.decorators.isSome = true ∨ n.modifiers.isSome = true) :
    n.Lawful a where
  decorated h := by
    rw [hkind] at h
    cases h
  named _ := ⟨shape, name, hpayload, hname, hmissing⟩
  moded h := by
    rw [hkind] at h
    cases h
  plain h := by
    rw [hkind] at h
    cases h

theorem lawful_of_setsMode {shape : FunctionShape} (hkind : n.kind.setsMode = true)
    (hpayload : n.payload = .functionLike shape)
    (hbody : ∀ body, shape.body = some body → a.MayBeBody shape.asterisk.isSome (a.isAsync n) body) :
    n.Lawful a where
  decorated h := by
    rw [h] at hkind
    cases hkind
  named h := by
    rw [h] at hkind
    cases hkind
  moded _ := ⟨shape, hpayload, hbody⟩
  plain h := absurd (h.symm.trans (Kind.hasNoMode_of_setsMode hkind)) Bool.false_ne_true.symm

theorem lawful_of_hasNoMode {shape : FunctionShape} (hkind : n.kind.hasNoMode = true)
    (hpayload : n.payload = .functionLike shape)
    (hbody : ∀ body, shape.body = some body → a.MayBeBody false false body) : n.Lawful a where
  decorated h := by
    rw [h] at hkind
    cases hkind
  named h := by
    rw [h] at hkind
    cases hkind
  moded h := absurd (hkind.symm.trans (Kind.hasNoMode_of_setsMode h)) Bool.false_ne_true.symm
  plain _ := ⟨shape, hpayload, hbody⟩

/-- Nodes that are added break no rule. -/
theorem Lawful.grows (h : n.Lawful a) (hab : a.Grows b) (hin : ∀ c ∈ n.children, c.index < a.size) :
    n.Lawful b where
  decorated := h.decorated
  named hkind := by
    obtain ⟨shape, name, hpayload, hname, hmissing⟩ := h.named hkind
    exact ⟨shape, name, hpayload, hab.get? hname, hmissing⟩
  moded hkind := by
    obtain ⟨shape, hpayload, hbody⟩ := h.moded hkind
    refine ⟨shape, hpayload, fun body hid => ?_⟩
    rw [hab.isAsync_eq fun list hlist id hid => hin id (mem_children_of_modifiers hlist hid)]
    exact (hbody body hid).grows hab
  plain hkind := by
    obtain ⟨shape, hpayload, hbody⟩ := h.plain hkind
    exact ⟨shape, hpayload, fun body hid => (hbody body hid).grows hab⟩

/-- The rules are about neither the range nor the flags of a node. -/
theorem Lawful.finished (h : n.Lawful a) (stop : Nat) (flags : NodeFlags) :
    Lawful a { n with stop, flags } :=
  ⟨h.decorated, h.named, h.moded, h.plain⟩

end Node

end ScriptSyntax
