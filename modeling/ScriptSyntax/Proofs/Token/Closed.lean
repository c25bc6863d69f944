/-
  ScriptSyntax/Proofs/Token/Closed.lean
  =====================================
  Where a lexeme ends, no conflict marker stands.

  A marker stands at the start of a line.  Words, numbers and punctuation end within a line, and
  so does whatever ends with a quote, a brace or a slash.  A string that is not closed ends before
  a line break, and text between tags before a brace or a tag.
-/
import ScriptSyntax.Proofs.Token.Start

namespace ScriptSyntax

variable {text : Array Char} {pos : Nat} {c : Char}

/-! ## 1. Starts of lines -/

/-- Does a line start at the position? -/
def isLineStart (text : Array Char) (pos : Nat) : Bool :=
  pos == 0 || text[pos - 1]?.any isLineBreak

/-- A conflict marker stands at the start of a line. -/
theorem isConflictMarker_of_isLineStart (h : isLineStart text pos = false) :
    isConflictMarker text pos = false := by
  unfold isConflictMarker
  split
  · rfl
  · rw [show (pos == 0 || text[pos - 1]?.any isLineBreak) = false from h]
    rfl

theorem isConflictMarker_of_size_le (h : text.size ≤ pos) : isConflictMarker text pos = false := by
  simp [isConflictMarker, Array.getElem?_eq_none h]

theorem isLineStart_succ (text : Array Char) (pos : Nat) :
    isLineStart text (pos + 1) = text[pos]?.any isLineBreak := by
  simp [isLineStart]

theorem isLineStart_of_eq_some (hc : text[pos]? = some c) :
    isLineStart text (pos + 1) = isLineBreak c := by
  simp [isLineStart_succ, hc]

theorem isLineStart_of_lt (hlt : pos < text.size) :
    isLineStart text (pos + 1) = isLineBreak text[pos] :=
  isLineStart_of_eq_some (Array.getElem?_eq_getElem hlt)

theorem isLineStart_of_hasCharAt (h : hasCharAt text pos c = true) :
    isLineStart text (pos + 1) = isLineBreak c :=
  isLineStart_of_eq_some (beq_iff_eq.mp h)

/-- There are but four line breaks, so whether a class of characters has none is soon found out. -/
theorem isLineBreak_of_class {p : Char → Bool}
    (h : (p '\n' || p '\r' || p '\u2028' || p '\u2029') = false) (hc : p c = true) :
    isLineBreak c = false := by
  apply Bool.eq_false_iff.mpr
  intro hbreak
  simp only [Bool.or_eq_false_iff] at h
  simp only [isLineBreak, Bool.or_eq_true, beq_iff_eq] at hbreak
  rcases hbreak with ((rfl | rfl) | rfl) | rfl <;> simp_all

theorem isLineBreak_of_isIdentifierPart (h : isIdentifierPart c = true) : isLineBreak c = false :=
  isLineBreak_of_class (by decide) h

/-- No line starts where a walk ends that goes over no line breaks. -/
theorem isLineStart_scanWhile {p : Char → Bool} (hp : ∀ c, p c = true → isLineBreak c = false)
    (h : isLineStart text pos = false) : isLineStart text (scanWhile p text pos) = false := by
  fun_induction scanWhile p text pos with
  | case1 pos hlt hc ih =>
    apply ih
    rw [isLineStart_of_lt hlt]
    exact hp _ hc
  | case2 pos hlt hc => exact h
  | case3 pos hlt => exact h

/-- A walk ends at a character that it does not go over. -/
theorem scanWhile_stops {p : Char → Bool} (hc : text[scanWhile p text pos]? = some c) :
    p c = false := by
  fun_induction scanWhile p text pos with
  | case1 pos hlt hp ih => exact ih hc
  | case2 pos hlt hp =>
    rw [Array.getElem?_eq_getElem hlt] at hc
    cases hc
    simpa using hp
  | case3 pos hlt => exact absurd (lt_size_of_eq_some hc) hlt

/-- A walk goes over none but the characters of its class. -/
theorem of_mem_scanWhile {p : Char → Bool} {k : Nat} (hk : pos ≤ k) (hlt : k < scanWhile p text pos) :
    ∃ c, text[k]? = some c ∧ p c = true := by
  fun_induction scanWhile p text pos with
  | case1 pos hsize hp ih =>
    rcases Nat.eq_or_lt_of_le hk with rfl | hk
    · exact ⟨text[pos], Array.getElem?_eq_getElem hsize, hp⟩
    · exact ih hk hlt
  | case2 pos hsize hp => omega
  | case3 pos hsize => omega

/-! ## 2. Words -/

theorem isLineStart_exactHex {count value : Nat} (h : isLineStart text pos = false) :
    isLineStart text (Escape.exactHex text count pos value).1 = false := by
  induction count generalizing pos value with
  | zero => exact h
  | succ n ih =>
    unfold Escape.exactHex
    split
    · rename_i d hd
      obtain ⟨c, hc, hdigit⟩ := Option.bind_eq_some_iff.mp hd
      apply ih
      rw [isLineStart_of_eq_some hc]
      exact isLineBreak_of_class (p := isHexDigit) (by decide) (by simp [isHexDigit, hdigit])
    · exact h

/-- An escape ends with a digit or a brace. -/
theorem isLineStart_inIdentifier? {stop : Nat}
    (h : Escape.inIdentifier? text pos = some (c, stop)) : isLineStart text stop = false := by
  unfold Escape.inIdentifier? at h
  split at h
  · rename_i hmark
    simp only [Bool.and_eq_true] at hmark
    split at h
    · dsimp only at h
      split at h
      · cases h
      · rename_i hclose
        simp only [Bool.or_eq_true, Bool.not_eq_true', not_or, Bool.not_eq_false] at hclose
        split at h
        · obtain ⟨d, -, hd⟩ := Option.map_eq_some_iff.mp h
          cases hd
          exact isLineStart_of_hasCharAt hclose.2
        · cases h
    · have hmarked : isLineStart text (pos + 2) = false := isLineStart_of_hasCharAt hmark.2
      have hdigits : isLineStart text (Escape.exactHex text 4 (pos + 2) 0).1 = false :=
        isLineStart_exactHex hmarked
      split at h
      · rename_i heq
        obtain ⟨d, -, hd⟩ := Option.map_eq_some_iff.mp h
        cases hd
        rwa [heq] at hdigits
      · cases h
  · cases h

theorem isLineStart_readWordFrom (word : String) (escaped : Bool) (h : isLineStart text pos = false) :
    isLineStart text (readWordFrom text word escaped pos).stop = false := by
  fun_induction readWordFrom text word escaped pos with
  | case1 word escaped pos hlt c hc ih =>
    apply ih
    rw [isLineStart_of_lt hlt]
    exact isLineBreak_of_isIdentifierPart hc
  | case2 word escaped pos hlt c hc d stop he hd ih => exact ih (isLineStart_inIdentifier? he)
  | case3 word escaped pos hlt c hc d stop he hd => exact h
  | case4 word escaped pos hlt c hc he => exact h
  | case5 word escaped pos hlt => exact h

/-! ## 3. Numbers -/

theorem isLineStart_digitRunFrom {valid : Char → Bool} (hasDigit separated : Bool)
    (hvalid : ∀ c, valid c = true → isLineBreak c = false) (h : isLineStart text pos = false) :
    isLineStart text (digitRunFrom valid text hasDigit separated pos).stop = false := by
  fun_induction digitRunFrom valid text hasDigit separated pos with
  | case1 hasDigit separated pos hlt c hc ih =>
    apply ih
    rw [isLineStart_of_lt hlt]
    simp only [Bool.and_eq_true, beq_iff_eq] at hc
    rw [show text[pos] = '_' from hc.1.1]
    decide
  | case2 hasDigit separated pos hlt c hc hdigit ih =>
    apply ih
    rw [isLineStart_of_lt hlt]
    exact hvalid _ hdigit
  | case3 hasDigit separated pos hlt c hc hdigit => exact h
  | case4 hasDigit separated pos hlt => exact h

theorem isLineBreak_of_isDigit (c : Char) (h : isDigit c = true) : isLineBreak c = false :=
  isLineBreak_of_class (by decide) h

theorem isLineStart_finishNumber {start stop : Nat} (integer : Bool) (flags : TokenFlags)
    (errors : List ScanError) (h : isLineStart text stop = false) :
    isLineStart text (finishNumber text start stop integer flags errors).stop = false := by
  unfold finishNumber
  dsimp only
  split
  · rename_i hbig
    simp only [Bool.and_eq_true] at hbig
    exact isLineStart_of_hasCharAt hbig.2
  · exact h

theorem isLineStart_exponentRun? {r : DigitRun} (h : exponentRun? text pos = some r) :
    isLineStart text r.stop = false := by
  unfold exponentRun? at h
  split at h
  · rename_i hletter
    cases h
    apply isLineStart_digitRunFrom _ _ isLineBreak_of_isDigit
    split
    · rename_i hsign
      rcases Bool.or_eq_true_iff.mp hsign with hsign | hsign <;>
        exact isLineStart_of_hasCharAt hsign
    · rcases Bool.or_eq_true_iff.mp hletter with hletter | hletter <;>
        exact isLineStart_of_hasCharAt hletter
  · cases h

/-- The letter after a leading zero is no line break, and neither are the digits after it. -/
theorem isLineStart_readRadixNumber {r : Radix} {start : Nat}
    (h : text[start + 1]?.bind Radix.ofLetter? = some r) :
    isLineStart text (readRadixNumber text r start).stop = false := by
  obtain ⟨c, hc, hletter⟩ := Option.bind_eq_some_iff.mp h
  have hmarked : isLineStart text (start + 2) = false := by
    rw [isLineStart_of_eq_some hc]
    exact isLineBreak_of_class (p := fun c => (Radix.ofLetter? c).isSome) (by decide)
      (by simp [hletter])
  apply isLineStart_finishNumber
  apply isLineStart_digitRunFrom _ _ _ hmarked
  intro d hd
  cases r with
  | hex => exact isLineBreak_of_class (p := isHexDigit) (by decide) hd
  | binary => exact isLineBreak_of_class (p := isBinaryDigit) (by decide) hd
  | octal => exact isLineBreak_of_class (p := isOctalDigit) (by decide) hd

theorem isLineStart_readLegacyOctal {start : Nat} (h : hasCharAt text start '0' = true) :
    isLineStart text (readLegacyOctal text start).stop = false := by
  apply isLineStart_finishNumber
  apply isLineStart_digitRunFrom _ _ _ (isLineStart_of_hasCharAt h)
  intro d hd
  exact isLineBreak_of_class (p := isOctalDigit) (by decide) hd

/-- A row that starts with a digit does not end at the start of a line. -/
theorem isLineStart_digitRun (h : pos < text.size) (hdigit : isDigit text[pos] = true) :
    isLineStart text (digitRun isDigit text pos).stop = false := by
  unfold digitRun
  rw [digitRunFrom]
  simp only [h, ↓reduceDIte, Bool.and_false, Bool.false_and, Bool.false_eq_true, ↓reduceIte,
    hdigit]
  apply isLineStart_digitRunFrom _ _ isLineBreak_of_isDigit
  rw [isLineStart_of_lt h]
  exact isLineBreak_of_isDigit _ hdigit

theorem isLineStart_readDecimal (h : pos < text.size)
    (hc : isDigit text[pos] = true ∨ hasCharAt text pos '.' = true) :
    isLineStart text (readDecimal text pos).stop = false := by
  unfold readDecimal
  dsimp only
  generalize hw : (if hasCharAt text pos '.' then (⟨pos, false, false⟩ : DigitRun)
    else digitRun isDigit text pos) = whole
  -- a whole part that is empty has the point after it
  have hwhole : hasCharAt text whole.stop '.' = false → isLineStart text whole.stop = false := by
    intro hno
    subst hw
    split at hno
    · rename_i hpoint
      simp [hpoint] at hno
    · rename_i hpoint
      simp only [hpoint, Bool.false_eq_true, ↓reduceIte]
      exact isLineStart_digitRun h (hc.resolve_right hpoint)
  generalize hf : (if hasCharAt text whole.stop '.' then digitRun isDigit text (whole.stop + 1)
    else (⟨whole.stop, false, false⟩ : DigitRun)) = fraction
  have hfraction : isLineStart text fraction.stop = false := by
    subst hf
    split
    · rename_i hpoint
      exact isLineStart_digitRunFrom _ _ isLineBreak_of_isDigit (isLineStart_of_hasCharAt hpoint)
    · rename_i hpoint
      exact hwhole (by simpa using hpoint)
  split
  · exact isLineStart_finishNumber _ _ _ hfraction
  · rename_i exponent he
    exact isLineStart_finishNumber _ _ _ (isLineStart_exponentRun? he)

theorem isLineStart_readNumber (h : pos < text.size)
    (hc : isDigit text[pos] = true ∨ hasCharAt text pos '.' = true) :
    isLineStart text (readNumber text pos).stop = false := by
  unfold readNumber
  split
  · rename_i hzero
    split
    · rename_i r hr
      exact isLineStart_readRadixNumber hr
    · split
      · exact isLineStart_readLegacyOctal hzero
      · exact isLineStart_readDecimal h hc
  · exact isLineStart_readDecimal h hc

/-! ## 4. Punctuation -/

/-- The last character of a punctuator is one that it was recognized by, and no line break. -/
theorem last_of_punctuatorOf? {c₁ c₂ : Option Char} {p : Punctuator}
    (h : punctuatorOf? c c₁ c₂ = some p) :
    (p.text.length = 1 ∧ isLineBreak c = false)
      ∨ (p.text.length = 2 ∧ c₁.any isLineBreak = false)
      ∨ (p.text.length = 3 ∧ c₂.any isLineBreak = false) := by
  unfold punctuatorOf? at h
  split at h <;> (repeat' split at h) <;> cases h <;>
    first
    | exact .inl ⟨by decide, by decide⟩
    | exact .inr (.inl ⟨by decide, by simp_all; decide⟩)
    | exact .inr (.inr ⟨by decide, by simp_all; decide⟩)

theorem isLineStart_punctuator {p : Punctuator} (h : punctuatorAt? text pos = some p) :
    isLineStart text (p.lexeme pos).stop = false := by
  obtain ⟨c, hc, hp⟩ := Option.bind_eq_some_iff.mp h
  unfold Punctuator.lexeme
  dsimp only
  rcases last_of_punctuatorOf? hp with ⟨hlen, hlast⟩ | ⟨hlen, hlast⟩ | ⟨hlen, hlast⟩
  · rw [hlen, isLineStart_of_eq_some hc]
    exact hlast
  · rw [hlen, isLineStart_succ]
    exact hlast
  · rw [hlen, isLineStart_succ]
    exact hlast

/-- What is joined to a `>` ends with one more or with an equals sign. -/
theorem last_of_greaterThanOf (c c₁ c₂ : Option Char) :
    (greaterThanOf c c₁ c₂).text.length = 1
      ∨ ((greaterThanOf c c₁ c₂).text.length = 2 ∧ c.any isLineBreak = false)
      ∨ ((greaterThanOf c c₁ c₂).text.length = 3 ∧ c₁.any isLineBreak = false)
      ∨ ((greaterThanOf c c₁ c₂).text.length = 4 ∧ c₂.any isLineBreak = false) := by
  unfold greaterThanOf
  repeat' split
  all_goals
    first
    | exact .inl (by decide)
    | exact .inr (.inl ⟨by decide, by simp_all; decide⟩)
    | exact .inr (.inr (.inl ⟨by decide, by simp_all; decide⟩))
    | exact .inr (.inr (.inr ⟨by decide, by simp_all; decide⟩))

/-! ## 5. Kinds of lexemes -/

/-- Kinds of numbers and of what stands in quotes. -/
def Kind.isPlainLiteral : Kind → Bool
  | .literal .jsxText | .literal .jsxTextAllWhiteSpaces => false
  | .literal _ | .template _ => true
  | _ => false

theorem Kind.isName_of_isPlainLiteral {k : Kind} (h : k.isPlainLiteral = true) : k.isName = false := by
  cases k <;> first | rfl | cases h

/-- Kinds of words, of numbers and of what stands in quotes. -/
def Kind.isWordOrLiteral : Kind → Bool
  | .literal .jsxText | .literal .jsxTextAllWhiteSpaces => false
  | .identifier | .keyword _ | .literal _ | .template _ => true
  | _ => false

theorem Kind.isJsxText_of_isWordOrLiteral {k : Kind} (h : k.isWordOrLiteral = true) : k.isJsxText = false := by
  cases k with
  | literal l => cases l <;> first | rfl | cases h
  | _ => rfl

theorem Kind.isWordOrLiteral_of_isPlainLiteral {k : Kind} (h : k.isPlainLiteral = true) :
    k.isWordOrLiteral = true := by
  cases k with
  | literal l => cases l <;> first | rfl | cases h
  | template p => rfl
  | _ => cases h

theorem isPlainLiteral_readString (quote : Char) (k : Cooked) :
    (readString text quote k pos).kind.isPlainLiteral = true := by
  fun_induction readString text quote k pos <;>
    first | assumption | rfl

theorem isWordOrLiteral_readString (quote : Char) (k : Cooked) :
    (readString text quote k pos).kind.isWordOrLiteral = true :=
  Kind.isWordOrLiteral_of_isPlainLiteral (isPlainLiteral_readString quote k)

theorem isPlainLiteral_readTemplate (first : Bool) (k : Cooked) :
    (readTemplate text first k pos).kind.isPlainLiteral = true := by
  have hlast : (lastPieceKind first).isPlainLiteral = true := by cases first <;> rfl
  have hopen : (openPieceKind first).isPlainLiteral = true := by cases first <;> rfl
  fun_induction readTemplate text first k pos <;> assumption

theorem isWordOrLiteral_readTemplate (first : Bool) (k : Cooked) :
    (readTemplate text first k pos).kind.isWordOrLiteral = true :=
  Kind.isWordOrLiteral_of_isPlainLiteral (isPlainLiteral_readTemplate first k)

theorem isWordOrLiteral_readWordFrom (word : String) (escaped : Bool) :
    (readWordFrom text word escaped pos).kind.isWordOrLiteral = true := by
  have hword (word : String) : (wordKind word).isWordOrLiteral = true := by
    unfold wordKind
    split <;> rfl
  fun_induction readWordFrom text word escaped pos <;>
    first | assumption | exact hword _

theorem isPlainLiteral_readNumber (text : Array Char) (pos : Nat) :
    (readNumber text pos).kind.isPlainLiteral = true := by
  have hnumber (stop : Nat) (integer : Bool) (flags : TokenFlags) (errors : List ScanError) :
      (finishNumber text pos stop integer flags errors).kind.isPlainLiteral = true := by
    unfold finishNumber
    dsimp only
    split <;> rfl
  have hdecimal : (readDecimal text pos).kind.isPlainLiteral = true := by
    unfold readDecimal
    dsimp only
    split <;> exact hnumber _ _ _ _
  unfold readNumber
  split
  · split
    · exact hnumber _ _ _ _
    · split
      · exact hnumber _ _ _ _
      · exact hdecimal
  · exact hdecimal

theorem isWordOrLiteral_readNumber (text : Array Char) (pos : Nat) :
    (readNumber text pos).kind.isWordOrLiteral = true :=
  Kind.isWordOrLiteral_of_isPlainLiteral (isPlainLiteral_readNumber text pos)

/-! ## 6. Lexemes -/

/-- The lexeme is no text between tags, and no conflict marker stands behind it. -/
structure Lexeme.Closed (text : Array Char) (l : Lexeme) : Prop where
  kind : l.kind.isJsxText = false
  unmarked : isConflictMarker text l.stop = false

theorem readString_closed (quote : Char) (hquote : isLineBreak quote = false) (k : Cooked) (pos : Nat) :
    (readString text quote k pos).Closed text := by
  fun_induction readString text quote k pos with
  | case1 k pos hlt c hc =>
    refine ⟨rfl, isConflictMarker_of_isLineStart ?_⟩
    have hlast : isLineBreak c = false := by rwa [beq_iff_eq.mp hc]
    exact (isLineStart_of_lt hlt).trans hlast
  | case2 k pos hlt c hc hescape e ih => exact ih
  | case3 k pos hlt c hc hescape hbreak =>
    refine ⟨rfl, isConflictMarker_of_isWhiteSpaceLike hlt ?_⟩
    exact Bool.or_eq_true_iff.mpr (.inr hbreak)
  | case4 k pos hlt c hc hescape hbreak ih => exact ih
  | case5 k pos hlt => exact ⟨rfl, isConflictMarker_of_size_le (Nat.le_of_not_lt hlt)⟩

theorem readTemplate_closed (first : Bool) (k : Cooked) (pos : Nat) :
    (readTemplate text first k pos).Closed text := by
  fun_induction readTemplate text first k pos with
  | case1 k pos hlt c hc =>
    refine ⟨by cases first <;> rfl, isConflictMarker_of_isLineStart ?_⟩
    have hlast : isLineBreak c = false := by rw [beq_iff_eq.mp hc]; decide
    exact (isLineStart_of_lt hlt).trans hlast
  | case2 k pos hlt c hc hopen =>
    simp only [Bool.and_eq_true] at hopen
    refine ⟨by cases first <;> rfl, isConflictMarker_of_isLineStart ?_⟩
    exact isLineStart_of_hasCharAt hopen.2
  | case3 k pos hlt c hc hopen hescape e ih => exact ih
  | case4 k pos hlt c hc hopen hescape hreturn hfeed ih => exact ih
  | case5 k pos hlt c hc hopen hescape hreturn hfeed ih => exact ih
  | case6 k pos hlt c hc hopen hescape hreturn ih => exact ih
  | case7 k pos hlt =>
    exact ⟨by cases first <;> rfl, isConflictMarker_of_size_le (Nat.le_of_not_lt hlt)⟩

/-- A word starts with a character or an escape that may start one. -/
theorem isLineStart_readWord (h : pos < text.size)
    (hstart : isIdentifierStart text[pos] = true
      ∨ ∃ d stop, Escape.inIdentifier? text pos = some (d, stop) ∧ isIdentifierStart d = true) :
    isLineStart text (readWord text pos).stop = false := by
  unfold readWord
  rw [readWordFrom]
  simp only [h, ↓reduceDIte]
  split
  · rename_i hpart
    apply isLineStart_readWordFrom
    rw [isLineStart_of_lt h]
    exact isLineBreak_of_isIdentifierPart hpart
  · rename_i hpart
    obtain ⟨d, stop, he, hd⟩ := hstart.resolve_left
      fun hstart => hpart (isIdentifierPart_of_isIdentifierStart hstart)
    split
    · rename_i d' stop' he'
      rw [he] at he'
      cases he'
      simp only [isIdentifierPart_of_isIdentifierStart hd, ↓reduceIte]
      exact isLineStart_readWordFrom _ _ (isLineStart_inIdentifier? he)
    · rename_i he'
      rw [he] at he'
      cases he'

/-- What is not in quotes ends on its line. -/
theorem lexemeAt_inLine (hc : text[pos]? = some c) (hspace : isLineBreak c = false)
    (hquote : ¬(c == '\'' || c == '"') = true) (htick : ¬(c == '\x60') = true) :
    (lexemeAt text pos c).kind.isJsxText = false
      ∧ isLineStart text (lexemeAt text pos c).stop = false := by
  obtain ⟨h, rfl⟩ := Array.getElem?_eq_some_iff.mp hc
  have hinvalid : (invalidCharacter pos).kind.isJsxText = false
      ∧ isLineStart text (invalidCharacter pos).stop = false :=
    ⟨rfl, (isLineStart_of_eq_some hc).trans hspace⟩
  have hword (hstart : isIdentifierStart text[pos] = true
      ∨ ∃ d stop, Escape.inIdentifier? text pos = some (d, stop) ∧ isIdentifierStart d = true) :
      (readWord text pos).kind.isJsxText = false ∧ isLineStart text (readWord text pos).stop = false :=
    ⟨Kind.isJsxText_of_isWordOrLiteral (isWordOrLiteral_readWordFrom "" false), isLineStart_readWord h hstart⟩
  unfold lexemeAt
  rw [if_neg hquote, if_neg htick]
  split
  · rename_i hnumber
    refine ⟨Kind.isJsxText_of_isWordOrLiteral (isWordOrLiteral_readNumber text pos), isLineStart_readNumber h ?_⟩
    rcases Bool.or_eq_true_iff.mp hnumber with hdigit | hpoint
    · exact .inl hdigit
    · simp only [Bool.and_eq_true, beq_iff_eq] at hpoint
      exact .inr (by simp [hasCharAt, h, hpoint.1])
  · split
    · rename_i p hp
      exact ⟨rfl, isLineStart_punctuator hp⟩
    · split
      · rename_i hstart
        exact hword (.inl hstart)
      · split
        · rename_i d stop he
          split
          · rename_i hd
            exact hword (.inr ⟨d, stop, he, hd⟩)
          · exact hinvalid
        · exact hinvalid

theorem lexemeAt_closed (hc : text[pos]? = some c) (hspace : isLineBreak c = false) :
    (lexemeAt text pos c).Closed text := by
  by_cases hquote : (c == '\'' || c == '"') = true
  · rw [lexemeAt, if_pos hquote]
    exact readString_closed c hspace _ _
  · by_cases htick : (c == '\x60') = true
    · rw [lexemeAt, if_neg hquote, if_pos htick]
      exact readTemplate_closed _ _ _
    · obtain ⟨hkind, hline⟩ := lexemeAt_inLine hc hspace hquote htick
      exact ⟨hkind, isConflictMarker_of_isLineStart hline⟩

/-- Text between tags goes on over conflict markers, so none stands behind it. -/
theorem isConflictMarker_jsxTextFrom (seenText seenBreak : Bool) (errors : List ScanError) :
    isConflictMarker text (Token.jsxTextFrom text seenText seenBreak errors pos).stop = false := by
  fun_induction Token.jsxTextFrom text seenText seenBreak errors pos with
  | case1 seenText seenBreak errors pos hlt c hc =>
    apply isConflictMarker_of_isMarkerChar
    intro d hd
    have heq : c = d := Option.some.inj ((Array.getElem?_eq_getElem hlt).symm.trans hd)
    rw [← heq, beq_iff_eq.mp hc]
    decide
  | case2 seenText seenBreak errors pos hlt c hc hangle hmarker ih => exact ih
  | case3 seenText seenBreak errors pos hlt c hc hangle hmarker =>
    simpa [Token.jsxTextFrom.done] using hmarker
  | case4 seenText seenBreak errors pos hlt c hc hangle hbreak ih => exact ih
  | case5 seenText seenBreak errors pos hlt c hc hangle hbreak hspace ih => exact ih
  | case6 seenText seenBreak errors pos hlt c hc hangle hbreak hspace ih => exact ih
  | case7 seenText seenBreak errors pos hlt =>
    exact isConflictMarker_of_size_le (Nat.le_of_not_lt hlt)

end ScriptSyntax
