/-
  ScriptSyntax/Proofs/Token/Extent.lean
  =====================================
  Trivia and escapes stay in the text, and so does what is wrong with them.

  Each function that says how far something reaches was given the lemma that it
  never goes back.  Here they get the other bound: none of them leaves the text.
  Errors are reported at places that were reached, so they stay in the text too.
-/
import ScriptSyntax.Token.Scanner
import ScriptSyntax.Trivia.Skip

namespace ScriptSyntax

variable {text : Array Char} {pos : Nat}

/-! ## 1. Errors -/

/-- The errors are about places in the text. -/
def ErrorsIn (text : Array Char) (errors : List ScanError) : Prop :=
  ∀ e ∈ errors, e.start + e.length ≤ text.size

@[simp] theorem errorsIn_nil : ErrorsIn text [] := by simp [ErrorsIn]

@[simp] theorem errorsIn_singleton {e : ScanError} :
    ErrorsIn text [e] ↔ e.start + e.length ≤ text.size := by
  simp [ErrorsIn]

@[simp] theorem errorsIn_append {es es' : List ScanError} :
    ErrorsIn text (es ++ es') ↔ ErrorsIn text es ∧ ErrorsIn text es' := by
  simp [ErrorsIn, or_imp, forall_and]

/-! ## 2. Trivia -/

theorem length_sliceOf {stop : Nat} (h : stop ≤ text.size) :
    (sliceOf text pos stop).length = stop - pos := by
  have hmin : min (stop - pos) (text.size - pos) = stop - pos :=
    Nat.min_eq_left (Nat.sub_le_sub_right h pos)
  simp [sliceOf, hmin]

theorem lt_size_of_eq_some {c : Char} (h : text[pos]? = some c) : pos < text.size :=
  (Array.getElem?_eq_some_iff.mp h).1

theorem lt_size_of_hasCharAt {c : Char} (h : hasCharAt text pos c = true) : pos < text.size :=
  lt_size_of_eq_some (beq_iff_eq.mp h)

theorem lineEnd_le_size (h : pos ≤ text.size) : lineEnd text pos ≤ text.size :=
  scanWhile_le_size _ text pos h

theorem lineBreakEnd_le_size (h : pos < text.size) : lineBreakEnd text pos ≤ text.size := by
  unfold lineBreakEnd
  split
  · rename_i hc
    have hnext : pos + 1 < text.size := by
      simp only [Bool.and_eq_true] at hc
      exact lt_size_of_hasCharAt hc.2
    omega
  · exact h

theorem blockCommentEnd?_le_size {stop : Nat} (h : blockCommentEnd? text pos = some stop) :
    stop ≤ text.size := by
  fun_induction blockCommentEnd? text pos with
  | case1 pos hlt hc =>
    cases h
    simp only [Bool.and_eq_true] at hc
    exact lt_size_of_hasCharAt hc.2
  | case2 pos hlt hc ih => exact ih h
  | case3 pos hlt => cases h

/-- A block comment that is closed ends with a slash. -/
theorem hasCharAt_blockCommentEnd? {stop : Nat} (h : blockCommentEnd? text pos = some stop) :
    hasCharAt text (stop - 1) '/' = true := by
  fun_induction blockCommentEnd? text pos with
  | case1 pos hlt hc =>
    cases h
    simp only [Bool.and_eq_true] at hc
    exact hc.2
  | case2 pos hlt hc ih => exact ih h
  | case3 pos hlt => cases h

theorem blockCommentEnd_le_size (h : pos ≤ text.size) : blockCommentEnd text pos ≤ text.size := by
  unfold blockCommentEnd
  cases hstop : blockCommentEnd? text pos with
  | none => exact Nat.max_le.mpr ⟨h, Nat.le_refl _⟩
  | some stop => exact blockCommentEnd?_le_size hstop

theorem shebangEnd_le_size (h : isShebang text pos = true) : shebangEnd text pos ≤ text.size := by
  simp only [isShebang, Bool.and_eq_true, beq_iff_eq] at h
  obtain ⟨⟨rfl, -⟩, hmark⟩ := h
  exact lineEnd_le_size (lt_size_of_hasCharAt hmark)

theorem conflictRegionEnd_le_size {c : Char} (h : pos ≤ text.size) :
    conflictRegionEnd text c pos ≤ text.size := by
  fun_induction conflictRegionEnd text c pos with
  | case1 pos hlt d hc => exact h
  | case2 pos hlt d hc ih => exact ih hlt
  | case3 pos hlt => exact h

theorem conflictMarkerEnd_le_size (h : pos < text.size) :
    conflictMarkerEnd text pos ≤ text.size := by
  unfold conflictMarkerEnd
  split
  · exact lineEnd_le_size h
  · exact lineEnd_le_size h
  · exact conflictRegionEnd_le_size h
  · exact h

/-- The trivia before a token end in the text, and not before they start. -/
theorem stop_triviaRunFrom_bounds (flags : TokenFlags) (errors : List ScanError)
    (h : pos ≤ text.size) :
    pos ≤ (triviaRunFrom text flags errors pos).stop
      ∧ (triviaRunFrom text flags errors pos).stop ≤ text.size := by
  fun_induction triviaRunFrom text flags errors pos with
  | case1 flags errors pos hlt hshebang ih =>
    have hstop := shebangEnd_le_size hshebang
    have hle : pos + 2 ≤ shebangEnd text pos := le_lineEnd text (pos + 2)
    exact ⟨by have := (ih hstop).1; omega, (ih hstop).2⟩
  | case2 flags errors pos hlt c hshebang hbreak ih =>
    have hstop := lineBreakEnd_le_size hlt
    have hle := lt_lineBreakEnd text pos
    exact ⟨by have := (ih hstop).1; omega, (ih hstop).2⟩
  | case3 flags errors pos hlt c hshebang hbreak hspace ih =>
    exact ⟨by have := (ih hlt).1; omega, (ih hlt).2⟩
  | case4 flags errors pos hlt c hshebang hbreak hspace hslash ih =>
    simp only [Bool.and_eq_true] at hslash
    have hstop := lineEnd_le_size (lt_size_of_hasCharAt hslash.2)
    have hle := le_lineEnd text (pos + 2)
    exact ⟨by have := (ih hstop).1; omega, (ih hstop).2⟩
  | case5 flags errors pos hlt c hshebang hbreak hspace hslash hstar stop ih =>
    simp only [Bool.and_eq_true] at hstar
    have hstop : stop ≤ text.size := blockCommentEnd_le_size (lt_size_of_hasCharAt hstar.2)
    have hle : pos + 2 ≤ stop := le_blockCommentEnd text (pos + 2)
    exact ⟨by have := (ih hstop).1; omega, (ih hstop).2⟩
  | case6 flags errors pos hlt c hshebang hbreak hspace hslash hstar hmarker ih =>
    have hstop := conflictMarkerEnd_le_size hlt
    have hle := lt_conflictMarkerEnd text pos
    exact ⟨by have := (ih hstop).1; omega, (ih hstop).2⟩
  | case7 flags errors pos hlt => exact ⟨Nat.le_refl _, h⟩
  | case8 flags errors pos hlt => exact ⟨Nat.le_refl _, h⟩

/-- What follows trivia is in the text, or is its end. -/
theorem skipTriviaFrom_le_size (stopAfterLineBreak stopAtComments : Bool) (h : pos ≤ text.size) :
    skipTriviaFrom text stopAfterLineBreak stopAtComments pos ≤ text.size := by
  fun_induction skipTriviaFrom text stopAfterLineBreak stopAtComments pos with
  | case1 pos hlt => exact lineBreakEnd_le_size hlt
  | case2 pos hlt c hbreak hstop ih => exact ih (lineBreakEnd_le_size hlt)
  | case3 pos hlt c hbreak hslash ih =>
    simp only [Bool.and_eq_true] at hslash
    exact ih (lineEnd_le_size (lt_size_of_hasCharAt hslash.2))
  | case4 pos hlt c hbreak hslash hstar ih =>
    simp only [Bool.and_eq_true] at hstar
    exact ih (blockCommentEnd_le_size (lt_size_of_hasCharAt hstar.2))
  | case5 pos hlt c hbreak hslash hstar hmarker ih => exact ih (conflictMarkerEnd_le_size hlt)
  | case6 pos hlt c hbreak hslash hstar hmarker hspace ih => exact ih hlt
  | case7 => exact h
  | case8 => exact h

theorem tokenStartAt_le_size (h : pos ≤ text.size) : tokenStartAt text pos ≤ text.size := by
  refine skipTriviaFrom_le_size false false ?_
  split
  · exact shebangEnd_le_size ‹_›
  · exact h

theorem errorsIn_blockCommentErrors (h : pos ≤ text.size) :
    ErrorsIn text (blockCommentErrors text pos) := by
  unfold blockCommentErrors
  split
  · exact errorsIn_nil
  · exact errorsIn_singleton.mpr (blockCommentEnd_le_size h)

/-- All characters of a conflict marker are there. -/
theorem le_size_of_isConflictMarker (h : isConflictMarker text pos = true) :
    pos + conflictMarkerLength ≤ text.size := by
  unfold isConflictMarker at h
  split at h
  · cases h
  · simp only [Bool.and_eq_true, List.all_eq_true, List.mem_range] at h
    exact lt_size_of_hasCharAt (h.1.2 6 (by decide))

theorem errorsIn_triviaRunFrom (flags : TokenFlags) {errors : List ScanError}
    (herrors : ErrorsIn text errors) (h : pos ≤ text.size) :
    ErrorsIn text (triviaRunFrom text flags errors pos).errors := by
  fun_induction triviaRunFrom text flags errors pos with
  | case1 flags errors pos hlt hshebang ih => exact ih herrors (shebangEnd_le_size hshebang)
  | case2 flags errors pos hlt c hshebang hbreak ih => exact ih herrors (lineBreakEnd_le_size hlt)
  | case3 flags errors pos hlt c hshebang hbreak hspace ih => exact ih herrors hlt
  | case4 flags errors pos hlt c hshebang hbreak hspace hslash ih =>
    simp only [Bool.and_eq_true] at hslash
    exact ih herrors (lineEnd_le_size (lt_size_of_hasCharAt hslash.2))
  | case5 flags errors pos hlt c hshebang hbreak hspace hslash hstar stop ih =>
    simp only [Bool.and_eq_true] at hstar
    have hinside : pos + 2 ≤ text.size := lt_size_of_hasCharAt hstar.2
    have hcomment := errorsIn_blockCommentErrors hinside
    exact ih (errorsIn_append.mpr ⟨herrors, hcomment⟩) (blockCommentEnd_le_size hinside)
  | case6 flags errors pos hlt c hshebang hbreak hspace hslash hstar hmarker ih =>
    have hinside := errorsIn_singleton (e := ⟨.mergeConflictMarker, pos, conflictMarkerLength⟩).mpr
      (le_size_of_isConflictMarker hmarker)
    exact ih (errorsIn_append.mpr ⟨herrors, hinside⟩) (conflictMarkerEnd_le_size hlt)
  | case7 flags errors pos hlt => exact herrors
  | case8 flags errors pos hlt => exact herrors

/-! ## 3. Escapes -/

theorem exactHex_le_size {count value : Nat} (h : pos ≤ text.size) :
    (Escape.exactHex text count pos value).1 ≤ text.size := by
  induction count generalizing pos value with
  | zero => exact h
  | succ n ih =>
    unfold Escape.exactHex
    split
    · rename_i d hd
      obtain ⟨c, hc, -⟩ := Option.bind_eq_some_iff.mp hd
      exact ih (lt_size_of_eq_some hc)
    · exact h

theorem stop_byteForm_le_size (h : pos ≤ text.size) :
    (Escape.byteForm text pos).stop ≤ text.size := by
  have hle : (Escape.exactHex text 2 pos 0).1 ≤ text.size := exactHex_le_size h
  unfold Escape.byteForm
  split <;> rename_i heq <;> simpa [heq] using hle

theorem errorsIn_byteForm (h : pos ≤ text.size) :
    ErrorsIn text (Escape.byteForm text pos).errors := by
  have hle : (Escape.exactHex text 2 pos 0).1 ≤ text.size := exactHex_le_size h
  unfold Escape.byteForm
  split
  · exact errorsIn_nil
  · rename_i heq
    exact errorsIn_singleton.mpr (by simpa [heq] using hle)

theorem lowHalf?_le_size {low stop : Nat} (h : Escape.lowHalf? text pos = some (low, stop)) :
    stop ≤ text.size := by
  unfold Escape.lowHalf? at h
  split at h
  · rename_i hmark
    simp only [Bool.and_eq_true] at hmark
    have hle : (Escape.exactHex text 4 (pos + 2) 0).1 ≤ text.size :=
      exactHex_le_size (lt_size_of_hasCharAt hmark.2)
    split at h
    · rename_i heq
      split at h
      · cases h
        simpa [heq] using hle
      · cases h
    · cases h
  · cases h

theorem stop_unitForm_le_size (h : pos ≤ text.size) :
    (Escape.unitForm text pos).stop ≤ text.size := by
  have hle : (Escape.exactHex text 4 pos 0).1 ≤ text.size := exactHex_le_size h
  unfold Escape.unitForm
  split
  · rename_i heq
    simpa [heq] using hle
  · rename_i stop n heq
    simp only [heq] at hle
    dsimp only
    split
    · rename_i low stop' hpair
      split at hpair
      · exact lowHalf?_le_size hpair
      · cases hpair
    · exact hle

theorem errorsIn_unitForm (h : pos ≤ text.size) :
    ErrorsIn text (Escape.unitForm text pos).errors := by
  have hle : (Escape.exactHex text 4 pos 0).1 ≤ text.size := exactHex_le_size h
  unfold Escape.unitForm
  split
  · rename_i heq
    exact errorsIn_singleton.mpr (by simpa [heq] using hle)
  · dsimp only
    split
    · exact errorsIn_nil
    · exact errorsIn_nil

theorem stop_bracedForm_le_size (h : pos ≤ text.size) :
    (Escape.bracedForm text pos).stop ≤ text.size := by
  have hle := scanWhile_le_size isHexDigit text pos h
  unfold Escape.bracedForm
  dsimp only
  split
  · rename_i hclose
    exact lt_size_of_hasCharAt hclose
  · exact hle

theorem errorsIn_bracedForm (h : pos ≤ text.size) :
    ErrorsIn text (Escape.bracedForm text pos).errors := by
  have hle := scanWhile_le_size isHexDigit text pos h
  have hstart := le_scanWhile isHexDigit text pos
  have hdigits (n : Nat) : ErrorsIn text
      (if scanWhile isHexDigit text pos == pos then
        [⟨.hexDigitExpected, scanWhile isHexDigit text pos, 0⟩]
      else if 0x10FFFF < n then
        [⟨.codePointOutOfRange, pos, scanWhile isHexDigit text pos - pos⟩]
      else []) := by
    split
    · exact errorsIn_singleton.mpr hle
    · split
      · exact errorsIn_singleton.mpr (by dsimp only; omega)
      · exact errorsIn_nil
  unfold Escape.bracedForm
  dsimp only
  split
  · exact hdigits _
  · exact errorsIn_append.mpr ⟨hdigits _, errorsIn_singleton.mpr hle⟩

/-- An escape in a string or a template ends in the text. -/
theorem stop_escape_le_size (h : pos < text.size) : (Escape.read text pos).stop ≤ text.size := by
  cases hnext : text[pos + 1]? with
  | none =>
    unfold Escape.read
    rw [hnext]
    exact h
  | some c =>
    have hstop : pos + 2 ≤ text.size := lt_size_of_eq_some hnext
    obtain heq | heq | ⟨hbrace, heq⟩ | ⟨-, heq | ⟨hfeed, heq⟩⟩ := Escape.read_cases hnext
    · exact heq ▸ stop_byteForm_le_size hstop
    · exact heq ▸ stop_unitForm_le_size hstop
    · exact heq ▸ stop_bracedForm_le_size (lt_size_of_hasCharAt hbrace)
    · exact heq ▸ hstop
    · exact heq ▸ lt_size_of_hasCharAt hfeed

theorem errorsIn_escape (h : pos < text.size) : ErrorsIn text (Escape.read text pos).errors := by
  cases hnext : text[pos + 1]? with
  | none =>
    unfold Escape.read
    rw [hnext]
    exact errorsIn_singleton.mpr h
  | some c =>
    have hstop : pos + 2 ≤ text.size := lt_size_of_eq_some hnext
    obtain heq | heq | ⟨hbrace, heq⟩ | ⟨heq, -⟩ := Escape.read_cases hnext
    · exact heq ▸ errorsIn_byteForm hstop
    · exact heq ▸ errorsIn_unitForm hstop
    · exact heq ▸ errorsIn_bracedForm (lt_size_of_hasCharAt hbrace)
    · exact heq ▸ errorsIn_nil

theorem inIdentifier?_le_size {c : Char} {stop : Nat}
    (h : Escape.inIdentifier? text pos = some (c, stop)) : stop ≤ text.size := by
  unfold Escape.inIdentifier? at h
  split at h
  · rename_i hmark
    simp only [Bool.and_eq_true] at hmark
    split at h
    · dsimp only at h
      split at h
      · cases h
      · rename_i hclose
        simp only [Bool.or_eq_true, Bool.not_eq_true', not_or, Bool.not_eq_false] at hclose
        split at h
        · obtain ⟨d, -, hd⟩ := Option.map_eq_some_iff.mp h
          cases hd
          exact lt_size_of_hasCharAt hclose.2
        · cases h
    · have hle : (Escape.exactHex text 4 (pos + 2) 0).1 ≤ text.size :=
        exactHex_le_size (lt_size_of_hasCharAt hmark.2)
      split at h
      · rename_i heq
        obtain ⟨d, -, hd⟩ := Option.map_eq_some_iff.mp h
        cases hd
        simpa [heq] using hle
      · cases h
  · cases h

end ScriptSyntax
