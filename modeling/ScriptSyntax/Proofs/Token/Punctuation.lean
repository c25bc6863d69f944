/-
  ScriptSyntax/Proofs/Token/Punctuation.lean
  ==========================================
  Punctuation is read where it stands.

  In whichever way a token is read, if it is a punctuator then the text has the
  first character of that punctuator at its start.  So a text without a character
  has no token that starts with it.
-/
import ScriptSyntax.Proofs.Token.Placed

namespace ScriptSyntax

variable {text : Array Char} {pos : Nat} {c : Char} {t u : Token} {tokens : List Token}

/-- If the token is a punctuator, the text has its first character where the token starts. -/
def Token.Marked (text : Array Char) (t : Token) : Prop :=
  ∀ p, t.kind = .punct p → text[t.start]? = p.text.toList.head?

/-! ## 1. Lexemes -/

/-- A punctuator is written with the characters that it is recognized by. -/
theorem chars_of_punctuatorOf? {c₁ c₂ : Option Char} {p : Punctuator}
    (h : punctuatorOf? c c₁ c₂ = some p) :
    p.text.toList = [c]
      ∨ (∃ d, c₁ = some d ∧ p.text.toList = [c, d])
      ∨ (∃ d e, c₁ = some d ∧ c₂ = some e ∧ p.text.toList = [c, d, e]) := by
  unfold punctuatorOf? at h
  split at h <;> (repeat' split at h) <;> cases h <;> simp_all [Punctuator.text]

theorem head_of_punctuatorOf? {c₁ c₂ : Option Char} {p : Punctuator}
    (h : punctuatorOf? c c₁ c₂ = some p) : p.text.toList.head? = some c := by
  obtain hone | ⟨d, -, htwo⟩ | ⟨d, e, -, -, hthree⟩ := chars_of_punctuatorOf? h
  · rw [hone]
    rfl
  · rw [htwo]
    rfl
  · rw [hthree]
    rfl

/-- A lexeme is a punctuator only where the characters lead to one. -/
theorem lexemeAt_of_punct {p : Punctuator} (h : (lexemeAt text pos c).kind = .punct p) :
    punctuatorAt? text pos = some p ∧ lexemeAt text pos c = p.lexeme pos := by
  have hno {l : Lexeme} (hl : l.kind.isWordOrLiteral = true) : l.kind ≠ .punct p := by
    intro heq
    rw [heq] at hl
    cases hl
  have hinvalid : (invalidCharacter pos).kind ≠ .punct p := Kind.noConfusion
  unfold lexemeAt at h ⊢
  split at h
  · exact absurd h (hno (isWordOrLiteral_readString _ _))
  · split at h
    · exact absurd h (hno (isWordOrLiteral_readTemplate _ _))
    · split at h
      · exact absurd h (hno (isWordOrLiteral_readNumber text pos))
      · split at h
        · rename_i q hq
          obtain rfl : q = p := Kind.punct.inj h
          simp only [*, Bool.false_eq_true, if_false, true_and]
        · split at h
          · exact absurd h (hno (isWordOrLiteral_readWordFrom _ _))
          · split at h
            · split at h
              · exact absurd h (hno (isWordOrLiteral_readWordFrom _ _))
              · exact absurd h hinvalid
            · exact absurd h hinvalid

/-- A punctuator is recognized by the character that it starts with. -/
theorem head_of_lexemeAt {p : Punctuator} (hc : text[pos]? = some c)
    (h : (lexemeAt text pos c).kind = .punct p) : p.text.toList.head? = some c := by
  obtain ⟨d, hd, hpunct⟩ := Option.bind_eq_some_iff.mp (lexemeAt_of_punct h).1
  obtain rfl : c = d := Option.some.inj (hc.symm.trans hd)
  exact head_of_punctuatorOf? hpunct

/-! ## 2. Tokens -/

theorem scanAt_marked (text : Array Char) (pos : Nat) : (scanAt text pos).1.Marked text := by
  unfold scanAt
  intro p
  dsimp only
  split
  · rename_i c hc
    intro hp
    exact hc.trans (head_of_lexemeAt hc hp).symm
  · intro hp
    cases hp

theorem scanJsxAt_marked (text : Array Char) (pos : Nat) :
    (Token.scanJsxAt text pos).1.Marked text := by
  unfold Token.scanJsxAt
  intro p
  split
  · rename_i c hc
    intro hp
    refine hc.trans ?_
    change (Token.jsxLexemeAt text pos c).kind = .punct p at hp
    unfold Token.jsxLexemeAt at hp
    split at hp
    · rename_i hangle
      rw [beq_iff_eq.mp hangle]
      split at hp <;> cases hp <;> rfl
    · split at hp
      · rename_i hbrace
        rw [beq_iff_eq.mp hbrace]
        cases hp
        rfl
      · have htext : (Token.jsxTextFrom text false false [] pos).kind.isJsxText = true :=
          isJsxText_jsxTextFrom false false []
        rw [show (Token.jsxTextFrom text false false [] pos).kind = .punct p from hp] at htext
        cases htext
  · intro hp
    cases hp

theorem head_greaterThanOf (c c₁ c₂ : Option Char) :
    (greaterThanOf c c₁ c₂).text.toList.head? = some '>' := by
  unfold greaterThanOf
  repeat' split
  all_goals rfl

/-- However a token is read, it is a punctuator only where that stands. -/
theorem ReadingMode.read_marked (mode : ReadingMode) (h : t.Marked text) :
    (mode.read text t).1.Marked text := by
  cases mode with
  | scan => exact scanAt_marked text t.stop
  | rescanGreater =>
    show (t.rescanGreater text).1.Marked text
    unfold Token.rescanGreater
    split
    · rename_i hkind
      rintro p hp
      cases hp
      rw [head_greaterThanOf]
      exact h .greaterThan (beq_iff_eq.mp hkind)
    · exact h
  | rescanSlash =>
    show (t.rescanSlash text).1.Marked text
    unfold Token.rescanSlash
    split
    · intro p hp
      cases hp
    · exact h
  | rescanTemplate =>
    intro p hp
    let first := hasCharAt text t.start '\x60'
    have hkind : (readTemplate text first {} (t.start + 1)).kind.isWordOrLiteral = true :=
      isWordOrLiteral_readTemplate first {}
    rw [show (readTemplate text first {} (t.start + 1)).kind = .punct p from hp] at hkind
    cases hkind
  | rescanLess =>
    show t.rescanLess.1.Marked text
    unfold Token.rescanLess
    split
    · rename_i hkind
      rintro p hp
      cases hp
      exact h .lessThanLessThan (beq_iff_eq.mp hkind)
    · exact h
  | extendJsxName =>
    show (t.scanJsxName text).1.Marked text
    unfold Token.scanJsxName
    split <;> exact h
  | scanJsx => exact scanJsxAt_marked text t.stop
  | scanJsxAttributeValue =>
    show (t.nextJsxAttributeValue text).1.Marked text
    unfold Token.nextJsxAttributeValue
    split
    · split
      · intro p hp
        cases hp
      · exact scanAt_marked text t.stop
    · exact scanAt_marked text t.stop
  | rescanJsx => exact scanJsxAt_marked text t.fullStart

theorem ReadsOver.marked (h : ReadsOver text t tokens u) (ht : t.Marked text) : u.Marked text := by
  induction h with
  | here => exact ht
  | again mode _ _ _ ih => exact mode.read_marked ih
  | on mode _ _ ih => exact mode.read_marked ih

end ScriptSyntax
