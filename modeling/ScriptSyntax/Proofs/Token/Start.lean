/-
  ScriptSyntax/Proofs/Token/Start.lean
  ====================================
  Where a token starts.

  The trivia before a token are skipped in two places.  The scanner does it on its way to the
  token and notes what it meets; whoever looks for the first token of a node does it again, by
  a loop of its own.  The two loops stop at the same character.
-/
import ScriptSyntax.Proofs.Token.Bounds

namespace ScriptSyntax

variable {text : Array Char} {pos : Nat}

/-! ## 1. Single steps -/

/-- An interpreter line starts nowhere but at the start of the text. -/
theorem isShebang_of_pos (h : 0 < pos) : isShebang text pos = false := by
  have hne : pos ≠ 0 := Nat.pos_iff_ne_zero.mp h
  simp [isShebang, hne]

/-- An interpreter line starts with a hash. -/
theorem isShebang_of_char {c : Char} (hc : text[pos]? = some c) (hne : c ≠ '#') :
    isShebang text pos = false := by
  apply Bool.eq_false_iff.mpr
  intro hshebang
  simp only [isShebang, hasCharAt, Bool.and_eq_true, beq_iff_eq] at hshebang
  obtain ⟨⟨rfl, hhash⟩, -⟩ := hshebang
  exact hne (Option.some.inj (hc.symm.trans hhash))

theorem isShebang_of_class {p : Char → Bool} {c : Char} (hp : p '#' = false) (hc : text[pos]? = some c)
    (h : p c = true) : isShebang text pos = false := by
  apply isShebang_of_char hc
  rintro rfl
  rw [hp] at h
  exact Bool.false_ne_true h

theorem skipTrivia_of_pos (stopAfterLineBreak stopAtComments : Bool) (h : 0 < pos) :
    skipTrivia text pos stopAfterLineBreak stopAtComments
      = skipTriviaFrom text stopAfterLineBreak stopAtComments pos := by
  simp [skipTrivia, isShebang_of_pos h]

/-- The characters that conflict markers are made of. -/
def isMarkerChar (c : Char) : Bool := c == '<' || c == '=' || c == '>' || c == '|'

theorem isMarkerChar_of_isConflictMarker (hlt : pos < text.size)
    (h : isConflictMarker text pos = true) : isMarkerChar text[pos] = true := by
  simp only [isConflictMarker, Array.getElem?_eq_getElem hlt, Bool.and_eq_true] at h
  exact h.1.1.2

theorem isWhiteSpaceLike_of_isMarkerChar {c : Char} (h : isMarkerChar c = true) :
    isWhiteSpaceLike c = false := by
  simp only [isMarkerChar, Bool.or_eq_true, beq_iff_eq] at h
  rcases h with ((rfl | rfl) | rfl) | rfl <;> decide

theorem isConflictMarker_of_isMarkerChar (h : ∀ c, text[pos]? = some c → isMarkerChar c = false) :
    isConflictMarker text pos = false := by
  unfold isConflictMarker
  split
  · rfl
  · rename_i c hc
    have hchar := h c hc
    unfold isMarkerChar at hchar
    simp [hchar]

/-- White space is no conflict marker. -/
theorem isConflictMarker_of_isWhiteSpaceLike (hlt : pos < text.size)
    (h : isWhiteSpaceLike text[pos] = true) : isConflictMarker text pos = false := by
  apply Bool.eq_false_iff.mpr
  intro hmarker
  have hchar := isMarkerChar_of_isConflictMarker hlt hmarker
  rw [isWhiteSpaceLike_of_isMarkerChar hchar] at h
  exact Bool.false_ne_true h

theorem ne_slash_of_isWhiteSpaceLike {c : Char} (h : isWhiteSpaceLike c = true) :
    (c == '/') = false := by
  apply Bool.eq_false_iff.mpr
  intro hslash
  rw [beq_iff_eq.mp hslash] at h
  exact absurd h (by decide)

variable {stopAfterLineBreak stopAtComments : Bool}

/-- White space is skipped character by character, but for line feeds and carriage returns. -/
theorem skipTriviaFrom_whiteSpace (hlt : pos < text.size) (h : isWhiteSpaceLike text[pos] = true)
    (hfeed : (text[pos] == '\r' || text[pos] == '\n') = false) :
    skipTriviaFrom text stopAfterLineBreak stopAtComments pos
      = skipTriviaFrom text stopAfterLineBreak stopAtComments (pos + 1) := by
  rw [skipTriviaFrom]
  simp [hlt, hfeed, ne_slash_of_isWhiteSpaceLike h, isConflictMarker_of_isWhiteSpaceLike hlt h, h]

/-- All line terminators are skipped alike, although two branches of the loop meet them. -/
theorem skipTriviaFrom_lineBreak (hlt : pos < text.size) (h : isLineBreak text[pos] = true) :
    skipTriviaFrom text false stopAtComments pos
      = skipTriviaFrom text false stopAtComments (lineBreakEnd text pos) := by
  by_cases hfeed : (text[pos] == '\r' || text[pos] == '\n') = true
  · rw [skipTriviaFrom]
    simp [hlt, hfeed]
  · have hreturn : hasCharAt text pos '\r' = false := by
      simp only [Bool.or_eq_true, beq_iff_eq, not_or] at hfeed
      simp [hasCharAt, hlt, hfeed.1]
    have hend : lineBreakEnd text pos = pos + 1 := by simp [lineBreakEnd, hreturn]
    rw [hend]
    exact skipTriviaFrom_whiteSpace hlt (by simp [isWhiteSpaceLike, h]) (Bool.eq_false_iff.mpr hfeed)

theorem skipTriviaFrom_space (hlt : pos < text.size) (h : isSingleLineSpace text[pos] = true)
    (hbreak : isLineBreak text[pos] = false) :
    skipTriviaFrom text stopAfterLineBreak stopAtComments pos
      = skipTriviaFrom text stopAfterLineBreak stopAtComments (pos + 1) := by
  refine skipTriviaFrom_whiteSpace hlt (by simp [isWhiteSpaceLike, h]) ?_
  simp only [isLineBreak, Bool.or_eq_false_iff] at hbreak
  simp [hbreak]

theorem skipTriviaFrom_lineComment (hlt : pos < text.size)
    (h : (text[pos] == '/' && hasCharAt text (pos + 1) '/') = true) :
    skipTriviaFrom text stopAfterLineBreak false pos
      = skipTriviaFrom text stopAfterLineBreak false (lineEnd text (pos + 2)) := by
  simp only [Bool.and_eq_true, beq_iff_eq] at h
  rw [skipTriviaFrom]
  simp [hlt, h]

theorem skipTriviaFrom_blockComment (hlt : pos < text.size)
    (h : (text[pos] == '/' && hasCharAt text (pos + 1) '*') = true) :
    skipTriviaFrom text stopAfterLineBreak false pos
      = skipTriviaFrom text stopAfterLineBreak false (blockCommentEnd text (pos + 2)) := by
  simp only [Bool.and_eq_true, beq_iff_eq] at h
  have hline : hasCharAt text (pos + 1) '/' = false := by
    simp [hasCharAt, beq_iff_eq.mp h.2]
  rw [skipTriviaFrom]
  simp [hlt, h, hline]

theorem skipTriviaFrom_conflictMarker (hlt : pos < text.size)
    (h : isConflictMarker text pos = true) :
    skipTriviaFrom text stopAfterLineBreak stopAtComments pos
      = skipTriviaFrom text stopAfterLineBreak stopAtComments (conflictMarkerEnd text pos) := by
  have hchar := isMarkerChar_of_isConflictMarker hlt h
  have hspace := isWhiteSpaceLike_of_isMarkerChar hchar
  have hslash : text[pos] ≠ '/' := by
    intro heq
    rw [heq] at hchar
    exact absurd hchar (by decide)
  simp only [isWhiteSpaceLike, isLineBreak, Bool.or_eq_false_iff] at hspace
  rw [skipTriviaFrom]
  simp [hlt, h, hslash, hspace]

/-! ## 2. Both loops -/

/-- The character at the position is none of those that trivia start with: it is no white space, and
neither a comment nor a conflict marker starts there. -/
structure NoTrivia (text : Array Char) (pos : Nat) : Prop where
  space : ∀ c, text[pos]? = some c → isWhiteSpaceLike c = false
  comment : hasCharAt text pos '/' = true →
    hasCharAt text (pos + 1) '/' = false ∧ hasCharAt text (pos + 1) '*' = false
  marker : isConflictMarker text pos = false

/-- Nothing is skipped where no trivia start. -/
theorem skipTriviaFrom_of_noTrivia (h : NoTrivia text pos) :
    skipTriviaFrom text stopAfterLineBreak stopAtComments pos = pos := by
  rw [skipTriviaFrom]
  by_cases hlt : pos < text.size
  · have hspace := h.space text[pos] (Array.getElem?_eq_getElem hlt)
    have hcomment : text[pos] = '/' →
        hasCharAt text (pos + 1) '/' = false ∧ hasCharAt text (pos + 1) '*' = false := by
      intro hslash
      exact h.comment (by simp [hasCharAt, hlt, hslash])
    have hfeed : text[pos] ≠ '\r' ∧ text[pos] ≠ '\n' := by
      constructor <;> intro heq <;> rw [heq] at hspace <;> exact absurd hspace (by decide)
    by_cases hslash : text[pos] = '/'
    · simp [hlt, hslash, hcomment hslash, h.marker, show isWhiteSpaceLike '/' = false by decide]
    · simp [hlt, hfeed, hslash, h.marker, hspace]
  · simp [hlt]

/-- Where no trivia start, a run over trivia has nothing to note. -/
theorem triviaRunFrom_of_noTrivia (h : NoTrivia text pos) (hshebang : isShebang text pos = false)
    (flags : TokenFlags) (errors : List ScanError) :
    triviaRunFrom text flags errors pos = ⟨pos, flags, errors⟩ := by
  rw [triviaRunFrom]
  by_cases hlt : pos < text.size
  · have hspace := h.space text[pos] (Array.getElem?_eq_getElem hlt)
    simp only [isWhiteSpaceLike, Bool.or_eq_false_iff] at hspace
    by_cases hslash : text[pos] = '/'
    · have hcomment := h.comment (by simp [hasCharAt, hlt, hslash])
      simp only [hslash] at hspace
      simp [hlt, hshebang, hslash, hspace, hcomment, h.marker]
    · simp [hlt, hshebang, hslash, hspace, h.marker]
  · simp [hlt]

/-- Where no interpreter line stands, skipping goes on from where a single step leads. -/
theorem skipTrivia_step {next : Nat} (hshebang : ¬isShebang text pos = true) (hnext : 0 < next)
    (hstep : skipTriviaFrom text stopAfterLineBreak stopAtComments pos
      = skipTriviaFrom text stopAfterLineBreak stopAtComments next) :
    skipTrivia text pos stopAfterLineBreak stopAtComments
      = skipTrivia text next stopAfterLineBreak stopAtComments := by
  rw [skipTrivia_of_pos _ _ hnext, ← hstep]
  simp [skipTrivia, hshebang]

/-- The scanner skips the same trivia as the search for the first token does, and stops where none
start. -/
theorem stop_triviaRunFrom (flags : TokenFlags) (errors : List ScanError) :
    (triviaRunFrom text flags errors pos).stop = skipTrivia text pos false false
      ∧ NoTrivia text (triviaRunFrom text flags errors pos).stop := by
  fun_induction triviaRunFrom text flags errors pos with
  | case1 flags errors pos hlt hshebang ih =>
    have hpos : 0 < shebangEnd text pos :=
      Nat.lt_of_lt_of_le (Nat.succ_pos (pos + 1)) (le_lineEnd text (pos + 2))
    rw [skipTrivia_of_pos false false hpos] at ih
    simpa [skipTrivia, hshebang] using ih
  | case2 flags errors pos hlt c hshebang hbreak ih =>
    have hpos : 0 < lineBreakEnd text pos := Nat.zero_lt_of_lt (lt_lineBreakEnd text pos)
    rw [skipTrivia_step hshebang hpos (skipTriviaFrom_lineBreak hlt hbreak)]
    exact ih
  | case3 flags errors pos hlt c hshebang hbreak hspace ih =>
    have hstep : skipTriviaFrom text false false pos = skipTriviaFrom text false false (pos + 1) :=
      skipTriviaFrom_space hlt hspace (by simpa using hbreak)
    rw [skipTrivia_step hshebang (Nat.succ_pos pos) hstep]
    exact ih
  | case4 flags errors pos hlt c hshebang hbreak hspace hline ih =>
    have hpos : 0 < lineEnd text (pos + 2) :=
      Nat.lt_of_lt_of_le (Nat.succ_pos (pos + 1)) (le_lineEnd text (pos + 2))
    rw [skipTrivia_step hshebang hpos (skipTriviaFrom_lineComment hlt hline)]
    exact ih
  | case5 flags errors pos hlt c hshebang hbreak hspace hline hblock stop ih =>
    have hpos : 0 < blockCommentEnd text (pos + 2) :=
      Nat.lt_of_lt_of_le (Nat.succ_pos (pos + 1)) (le_blockCommentEnd text (pos + 2))
    rw [skipTrivia_step hshebang hpos (skipTriviaFrom_blockComment hlt hblock)]
    exact ih
  | case6 flags errors pos hlt c hshebang hbreak hspace hline hblock hmarker ih =>
    have hpos : 0 < conflictMarkerEnd text pos := Nat.zero_lt_of_lt (lt_conflictMarkerEnd text pos)
    rw [skipTrivia_step hshebang hpos (skipTriviaFrom_conflictMarker hlt hmarker)]
    exact ih
  | case7 flags errors pos hlt c hshebang hbreak hspace hline hblock hmarker =>
    have hstop : NoTrivia text pos := by
      constructor
      · intro d hd
        obtain rfl : c = d := by simpa [hlt] using hd
        simp [isWhiteSpaceLike, hspace, hbreak]
      · intro hslash
        have hslash : c = '/' := by simpa [hasCharAt, hlt] using hslash
        simpa [hslash] using And.intro hline hblock
      · simpa using hmarker
    simp [skipTrivia, hshebang, skipTriviaFrom_of_noTrivia hstop, hstop]
  | case8 flags errors pos hlt =>
    have hnone : text[pos]? = none := Array.getElem?_eq_none (Nat.le_of_not_lt hlt)
    have hstop : NoTrivia text pos := by
      constructor <;> simp [hasCharAt, isConflictMarker, hnone]
    have hshebang : isShebang text pos = false := by
      apply Bool.eq_false_iff.mpr
      intro hshebang
      simp only [isShebang, Bool.and_eq_true, beq_iff_eq] at hshebang
      rw [hshebang.1.1] at hlt
      exact hlt (lt_size_of_hasCharAt hshebang.1.2)
    simp [skipTrivia, hshebang, skipTriviaFrom_of_noTrivia hstop, hstop]

/-! ## 3. Scanned tokens -/

@[simp] theorem start_scanAt (text : Array Char) (pos : Nat) :
    (scanAt text pos).1.start = tokenStartAt text pos := by
  have hstop : (triviaRunFrom text {} [] pos).stop = tokenStartAt text pos :=
    (stop_triviaRunFrom {} []).1
  unfold scanAt
  dsimp only
  split
  · exact hstop
  · exact hstop

/-- Whatever a scanner has done before, the token that it scans next starts where the search for a
first token finds one, if it is started at the trivia before that token. -/
theorem Scanner.start_scan (s : Scanner) :
    let t := (s.read .scan).1.token
    t.fullStart = s.token.stop ∧ t.start = skipTrivia s.text t.fullStart false false := by
  intro t
  have ht : t = (scanAt s.text s.token.stop).1 := s.token_read .scan
  have hfull : t.fullStart = s.token.stop := by rw [ht, fullStart_scanAt]
  have hstart : t.start = tokenStartAt s.text s.token.stop := by rw [ht, start_scanAt]
  constructor
  · exact hfull
  · rw [hfull]
    exact hstart

end ScriptSyntax
