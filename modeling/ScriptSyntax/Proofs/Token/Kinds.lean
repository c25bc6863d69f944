/-
  ScriptSyntax/Proofs/Token/Kinds.lean
  ====================================
  No token is of a kind that productions have.

  In whichever way a token is read, the lexeme that it is made from is a word, a
  literal, a punctuator, text between tags or a character that starts nothing.
  So a node of the kind of a production is never a token taken over as it is.
-/
import ScriptSyntax.Proofs.Token.Placed

namespace ScriptSyntax

variable {text : Array Char} {pos : Nat} {c : Char} {t u : Token} {tokens : List Token}

/-! ## 1. Lexemes -/

theorem Kind.isNode_of_isWordOrLiteral {k : Kind} (h : k.isWordOrLiteral = true) : k.isNode = false := by
  cases k with
  | node n => cases h
  | _ => rfl

theorem isNode_lexemeAt (text : Array Char) (pos : Nat) (c : Char) :
    (lexemeAt text pos c).kind.isNode = false := by
  unfold lexemeAt
  repeat' split
  all_goals first
    | exact Kind.isNode_of_isWordOrLiteral (isWordOrLiteral_readString _ _)
    | exact Kind.isNode_of_isWordOrLiteral (isWordOrLiteral_readTemplate _ _)
    | exact Kind.isNode_of_isWordOrLiteral (isWordOrLiteral_readNumber text pos)
    | exact Kind.isNode_of_isWordOrLiteral (isWordOrLiteral_readWordFrom _ _)
    | rfl

theorem isNode_jsxLexemeAt (text : Array Char) (pos : Nat) (c : Char) :
    (Token.jsxLexemeAt text pos c).kind.isNode = false := by
  unfold Token.jsxLexemeAt
  split
  · split <;> rfl
  · split
    · rfl
    · have htext : (Token.jsxTextFrom text false false [] pos).kind.isJsxText = true :=
        isJsxText_jsxTextFrom false false []
      show (Token.jsxTextFrom text false false [] pos).kind.isNode = false
      cases hkind : (Token.jsxTextFrom text false false [] pos).kind with
      | node n => simp [hkind, Kind.isJsxText] at htext
      | _ => rfl

/-! ## 2. Tokens -/

theorem isNode_scanAt (text : Array Char) (pos : Nat) :
    (scanAt text pos).1.kind.isNode = false := by
  unfold scanAt
  dsimp only
  split
  · exact isNode_lexemeAt _ _ _
  · rfl

theorem isNode_scanJsxAt (text : Array Char) (pos : Nat) :
    (Token.scanJsxAt text pos).1.kind.isNode = false := by
  unfold Token.scanJsxAt
  split
  · exact isNode_jsxLexemeAt _ _ _
  · rfl

/-- However a token is read, it is not of a kind of nodes, if the one before it is not. -/
theorem ReadingMode.isNode_read (mode : ReadingMode) (h : t.kind.isNode = false) :
    (mode.read text t).1.kind.isNode = false := by
  cases mode with
  | scan => exact isNode_scanAt text t.stop
  | rescanGreater =>
    show (t.rescanGreater text).1.kind.isNode = false
    unfold Token.rescanGreater
    split
    · rfl
    · exact h
  | rescanSlash =>
    show (t.rescanSlash text).1.kind.isNode = false
    unfold Token.rescanSlash
    split
    · rfl
    · exact h
  | rescanTemplate =>
    let first := hasCharAt text t.start '\x60'
    exact Kind.isNode_of_isWordOrLiteral (isWordOrLiteral_readTemplate first {})
  | rescanLess =>
    show t.rescanLess.1.kind.isNode = false
    unfold Token.rescanLess
    split
    · rfl
    · exact h
  | extendJsxName =>
    show (t.scanJsxName text).1.kind.isNode = false
    unfold Token.scanJsxName
    split <;> exact h
  | scanJsx => exact isNode_scanJsxAt text t.stop
  | scanJsxAttributeValue =>
    show (t.nextJsxAttributeValue text).1.kind.isNode = false
    unfold Token.nextJsxAttributeValue
    split
    · split
      · rfl
      · exact isNode_scanAt text t.stop
    · exact isNode_scanAt text t.stop
  | rescanJsx => exact isNode_scanJsxAt text t.fullStart

theorem ReadsOver.isNode_eq (h : ReadsOver text t tokens u) (ht : t.kind.isNode = false) :
    u.kind.isNode = false := by
  induction h with
  | here => exact ht
  | again mode _ _ _ ih => exact mode.isNode_read ih
  | on mode _ _ ih => exact mode.isNode_read ih

end ScriptSyntax
