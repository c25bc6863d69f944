/-
  ScriptSyntax/Proofs/Token/LoneToken.lean
  ========================================
  Texts that are one token.

  What a literal or a word may look like is said of texts that consist of nothing
  else: the token reaches from the start to the end, and nothing is wrong with it.
-/
import ScriptSyntax.Proofs.Token.Spelling
import ScriptSyntax.Text.Source
import ScriptSyntax.Token.Stream

namespace ScriptSyntax

variable {text : Array Char} {cs : List Char} {c : Char} {l : Lexeme}

namespace SourceText

/-- A text of the given characters. -/
def ofChars (cs : List Char) : SourceText := ⟨cs.toArray⟩

theorem textAt_ofChars (cs : List Char) : TextAt (ofChars cs).chars 0 cs := by
  simp [TextAt, ofChars]

@[simp] theorem length_ofChars (cs : List Char) : (ofChars cs).length = cs.length := by
  simp [ofChars, length]

/-- The text is one token from its start to its end, of the given kind and value and with just the given
flags, and the scan of the text meets no error. -/
structure IsToken (t : SourceText) (kind : Kind) (value : String) (flags : TokenFlags) : Prop where
  tokenize_eq : tokenize t.chars = [⟨0, 0, t.length, kind, value, flags⟩]
  noErrors : ∀ scanned ∈ scanTokens t.chars, scanned.2 = []

end SourceText

@[simp] theorem TokenFlags.join_empty (flags : TokenFlags) : ({} : TokenFlags).join flags = flags := by
  simp [TokenFlags.join]

/-- A token that reaches to the end of the text is followed by the end of the file alone. -/
theorem scanTokens_of_scanAt {t : Token} (ht : scanAt text 0 = (t, [])) (hkind : t.kind ≠ .endOfFile)
    (hstop : t.stop = text.size) :
    ∃ last : Token, scanTokens text = [(t, []), (last, [])] ∧ last.kind = .endOfFile := by
  have hend : TextAt text t.stop [] := by
    simp [TextAt, hstop]
  obtain ⟨last, hlast, hlastKind⟩ := scanAt_end hend
  have hsize : text.size ≠ 0 := by
    intro hzero
    have hin := @scanAt_inText text 0 (Nat.zero_le _)
    rw [ht] at hin
    have hroom := hin.token.fullStart_lt_stop hkind
    rw [hstop, hzero] at hroom
    exact absurd hroom (Nat.not_lt_zero _)
  obtain ⟨count, hcount⟩ := Nat.exists_eq_succ_of_ne_zero hsize
  refine ⟨last, ?_, hlastKind⟩
  rw [scanTokens, scanTokensFrom, ht]
  simp only [beq_iff_eq, hkind, if_false]
  rw [hcount, scanTokensFrom, hlast]
  simp [hlastKind]

/-- The lexeme that starts the text is its only token if it reaches to the end. -/
theorem SourceText.isToken_of_scanAt (hscan : scanAt (ofChars cs).chars 0 = l.toToken 0 ⟨0, {}, []⟩)
    (hstop : l.stop = cs.length) (hkind : l.kind ≠ .endOfFile) (herrors : l.errors = []) :
    (ofChars cs).IsToken l.kind l.value l.flags := by
  have hscan : scanAt (ofChars cs).chars 0
      = (⟨0, 0, (ofChars cs).length, l.kind, l.value, l.flags⟩, []) := by
    rw [hscan]
    simp [Lexeme.toToken, hstop, herrors]
  obtain ⟨last, htokens, hlast⟩ := scanTokens_of_scanAt hscan hkind rfl
  constructor
  · simp [tokenize, htokens, hkind, hlast]
  · rw [htokens]
    simp

end ScriptSyntax
