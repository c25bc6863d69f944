/-
  ScriptSyntax/Proofs/Token/LineBreak.lean
  ========================================
  The line break before a token.

  On its way to a token the scanner notes whether it went over a line break.  The note is made in
  two places only, at a line break and at a block comment; what a conflict marker hides is gone over
  without one.  Still the note says the same as the line map does: a hidden stretch ends with a line
  break or with the text, so a token after it has the note from there.
-/
import ScriptSyntax.Proofs.Text.Lines
import ScriptSyntax.Proofs.Token.Closed

namespace ScriptSyntax

variable {text : Array Char} {pos : Nat} {c : Char}

/-! ## 1. Pieces of trivia -/

/-- A stretch without line terminators is on one line. -/
theorem not_breakBetween {a b : Nat}
    (h : ∀ k, a ≤ k → k < b → text[k]?.any isLineBreak = false) : ¬BreakBetween text a b := by
  intro hbetween
  obtain ⟨k, hak, hkb, hk⟩ := hbetween.exists_isLineBreak
  rw [h k hak hkb] at hk
  exact Bool.false_ne_true hk

/-- The rest of a line after two characters that are no line terminators is on the line too. -/
theorem not_breakBetween_lineEnd {d : Char} (hc : text[pos]? = some c) (hd : text[pos + 1]? = some d)
    (hcd : isLineBreak c = false ∧ isLineBreak d = false) :
    ¬BreakBetween text pos (lineEnd text (pos + 2)) := by
  apply not_breakBetween
  intro k hk hlt
  by_cases hfirst : k = pos
  · rw [hfirst, hc]
    exact hcd.1
  · by_cases hsecond : k = pos + 1
    · rw [hsecond, hd]
      exact hcd.2
    · obtain ⟨e, he, hline⟩ := of_mem_scanWhile (by omega : pos + 2 ≤ k) hlt
      rw [he]
      exact Bool.not_eq_true' _ |>.mp hline

theorem breakBetween_lineBreakEnd (hlt : pos < text.size) (h : isLineBreak text[pos] = true) :
    BreakBetween text pos (lineBreakEnd text pos) := by
  apply breakBetween_of_isLineBreak
  · simp [hlt, h]
  · intro hreturn hfeed
    simp [lineBreakEnd, hreturn, hfeed]
  · exact lt_lineBreakEnd text pos

theorem any_extract_iff {p : Char → Bool} {a b : Nat} :
    (text.extract a b).any p = true ↔ ∃ k, a ≤ k ∧ k < b ∧ text[k]?.any p = true := by
  rw [Array.any_eq_true]
  constructor
  · rintro ⟨i, hi, hp⟩
    rw [Array.size_extract] at hi
    rw [Array.getElem_extract] at hp
    have hsize : a + i < text.size := by omega
    refine ⟨a + i, Nat.le_add_right a i, by omega, ?_⟩
    rwa [Array.getElem?_eq_getElem hsize]
  · rintro ⟨k, hak, hkb, hp⟩
    have hsize : k < text.size := by
      apply Nat.lt_of_not_le
      intro hle
      simp [Array.getElem?_eq_none hle] at hp
    rw [Array.getElem?_eq_getElem hsize] at hp
    refine ⟨k - a, by rw [Array.size_extract]; omega, ?_⟩
    simpa [Nat.add_sub_cancel' hak] using hp

/-- A line break ends within a closed block comment if a line terminator stands inside. -/
theorem breakBetween_blockCommentEnd (hslash : hasCharAt text pos '/' = true)
    (hstar : hasCharAt text (pos + 1) '*' = true) (hlt : blockCommentEnd text (pos + 2) < text.size) :
    BreakBetween text pos (blockCommentEnd text (pos + 2)) ↔
      (text.extract (pos + 2) (blockCommentEnd text (pos + 2))).any isLineBreak = true := by
  obtain ⟨stop, hclosed⟩ : ∃ stop, blockCommentEnd? text (pos + 2) = some stop := by
    cases hclosed : blockCommentEnd? text (pos + 2) with
    | some stop => exact ⟨stop, rfl⟩
    | none =>
      rw [blockCommentEnd, hclosed] at hlt
      exact absurd hlt (Nat.not_lt_of_le (Nat.le_max_right _ _))
  have hstop : blockCommentEnd text (pos + 2) = stop := by rw [blockCommentEnd, hclosed, Option.getD_some]
  have hinside := lt_of_blockCommentEnd? hclosed
  have hlast := hasCharAt_blockCommentEnd? hclosed
  have hne {k : Nat} {d : Char} (hd : isLineBreak d = false) (hat : hasCharAt text k d = true) :
      ¬text[k]?.any isLineBreak = true := by
    rw [beq_iff_eq.mp hat]
    simp [hd]
  rw [hstop, any_extract_iff]
  constructor
  · intro hbetween
    obtain ⟨k, hk, hks, hbreak⟩ := hbetween.exists_isLineBreak
    have hfirst : k ≠ pos := by
      rintro rfl
      exact hne (by decide) hslash hbreak
    have hsecond : k ≠ pos + 1 := by
      rintro rfl
      exact hne (by decide) hstar hbreak
    exact ⟨k, by omega, hks, hbreak⟩
  · rintro ⟨k, hk, hks, hbreak⟩
    -- the break is not the last character of the comment, and neither is its line feed
    have hbefore : k ≠ stop - 1 := by
      rintro rfl
      exact hne (by decide) hlast hbreak
    refine BreakBetween.mono (breakBetween_of_isLineBreak hbreak ?_ hks) (by omega) (Nat.le_refl stop)
    intro _ hfeed
    have hfeedBefore : k + 1 ≠ stop - 1 := by
      intro heq
      rw [heq, hasCharAt, beq_iff_eq.mp hlast] at hfeed
      exact absurd hfeed (by decide)
    omega

/-- What a conflict marker hides ends at a line break, at another marker, or with the text. -/
theorem conflictMarkerEnd_cases (h : isConflictMarker text pos = true) :
    text.size ≤ conflictMarkerEnd text pos
      ∨ text[conflictMarkerEnd text pos]?.any isLineBreak = true
      ∨ isConflictMarker text (conflictMarkerEnd text pos) = true := by
  have hline (start : Nat) : text.size ≤ lineEnd text start
      ∨ text[lineEnd text start]?.any isLineBreak = true := by
    cases hc : text[lineEnd text start]? with
    | none => exact .inl (Array.getElem?_eq_none_iff.mp hc)
    | some c => exact .inr (by simpa using scanWhile_stops hc)
  have hregion (opening : Char) (start : Nat) : text.size ≤ conflictRegionEnd text opening start
      ∨ isConflictMarker text (conflictRegionEnd text opening start) = true := by
    fun_induction conflictRegionEnd text opening start with
    | case1 start hlt d hmarker =>
      simp only [Bool.and_eq_true] at hmarker
      exact .inr hmarker.2
    | case2 start hlt d hmarker ih => exact ih
    | case3 start hlt => exact .inl (Nat.le_of_not_lt hlt)
  unfold conflictMarkerEnd
  split
  · exact (hline _).imp_right .inl
  · exact (hline _).imp_right .inl
  · exact (hregion _ _).imp_right .inr
  · rename_i hnone
    simp [isConflictMarker, hnone] at h

/-! ## 2. The run over trivia -/

/-- A line break that was noted stays noted. -/
theorem precedingLineBreak_triviaRunFrom {flags : TokenFlags} (errors : List ScanError)
    (h : flags.precedingLineBreak = true) :
    (triviaRunFrom text flags errors pos).flags.precedingLineBreak = true := by
  fun_induction triviaRunFrom text flags errors pos with
  | case1 flags errors pos hlt hshebang ih => exact ih h
  | case2 flags errors pos hlt c hshebang hbreak ih => exact ih rfl
  | case3 flags errors pos hlt c hshebang hbreak hspace ih => exact ih h
  | case4 flags errors pos hlt c hshebang hbreak hspace hline ih => exact ih h
  | case5 flags errors pos hlt c hshebang hbreak hspace hline hblock stop ih =>
    apply ih
    simp [blockCommentFlags, h]
  | case6 flags errors pos hlt c hshebang hbreak hspace hline hblock hmarker ih => exact ih h
  | case7 flags errors pos hlt => exact h
  | case8 flags errors pos hlt => exact h

/-- A line terminator stands at the position, or a conflict marker does. -/
def StartsHidden (text : Array Char) (pos : Nat) : Prop :=
  text[pos]?.any isLineBreak = true ∨ isConflictMarker text pos = true

theorem not_startsHidden (hc : text[pos]? = some c) (hbreak : isLineBreak c = false)
    (hmarker : isMarkerChar c = false) : ¬StartsHidden text pos := by
  rintro (hat | hat)
  · simp [hc, hbreak] at hat
  · have hno : isConflictMarker text pos = false := by
      apply isConflictMarker_of_isMarkerChar
      intro d hd
      obtain rfl : c = d := Option.some.inj (hc.symm.trans hd)
      exact hmarker
    exact Bool.false_ne_true (hno.symm.trans hat)

/-- Where a token follows, what a marker hides ends at a line break or at another marker. -/
theorem startsHidden_conflictMarkerEnd (flags : TokenFlags) (errors : List ScanError) (hlt : pos < text.size)
    (hmarker : isConflictMarker text pos = true)
    (hstop : (triviaRunFrom text flags errors (conflictMarkerEnd text pos)).stop < text.size) :
    StartsHidden text (conflictMarkerEnd text pos) := by
  rcases conflictMarkerEnd_cases hmarker with hend | hrest
  · have hbounds := stop_triviaRunFrom_bounds flags errors (conflictMarkerEnd_le_size hlt)
    exact absurd hstop (Nat.not_lt_of_le (Nat.le_trans hend hbounds.1))
  · exact hrest

/-- A token that comes after a hidden stretch comes after a line break, and that has been noted: there is
a line break behind the last of the markers. -/
theorem breakBetween_of_startsHidden (flags : TokenFlags) (errors : List ScanError)
    (h : StartsHidden text pos) (hstop : (triviaRunFrom text flags errors pos).stop < text.size) :
    (triviaRunFrom text flags errors pos).flags.precedingLineBreak = true
      ∧ BreakBetween text pos (triviaRunFrom text flags errors pos).stop := by
  fun_induction triviaRunFrom text flags errors pos with
  | case1 flags errors pos hlt hshebang ih =>
    simp only [isShebang, Bool.and_eq_true, beq_iff_eq] at hshebang
    obtain ⟨⟨rfl, hhash⟩, -⟩ := hshebang
    exact absurd h (not_startsHidden (beq_iff_eq.mp hhash) (by decide) (by decide))
  | case2 flags errors pos hlt c hshebang hbreak ih =>
    have hnext := lineBreakEnd_le_size hlt
    have hbounds := stop_triviaRunFrom_bounds { flags with precedingLineBreak := true } errors hnext
    constructor
    · exact precedingLineBreak_triviaRunFrom errors rfl
    · exact (breakBetween_lineBreakEnd hlt hbreak).mono (Nat.le_refl pos) hbounds.1
  | case3 flags errors pos hlt c hshebang hbreak hspace ih =>
    have hno : isMarkerChar c = false := by
      apply Bool.eq_false_iff.mpr
      intro hchar
      have hlike := isWhiteSpaceLike_of_isMarkerChar hchar
      simp [isWhiteSpaceLike, hspace] at hlike
    exact absurd h (not_startsHidden (Array.getElem?_eq_getElem hlt) (by simpa using hbreak) hno)
  | case4 flags errors pos hlt c hshebang hbreak hspace hline ih =>
    have hslash : text[pos]? = some '/' := by
      simp only [Bool.and_eq_true, beq_iff_eq] at hline
      exact (Array.getElem?_eq_getElem hlt).trans (congrArg some hline.1)
    exact absurd h (not_startsHidden hslash (by decide) (by decide))
  | case5 flags errors pos hlt c hshebang hbreak hspace hline hblock stop ih =>
    have hslash : text[pos]? = some '/' := by
      simp only [Bool.and_eq_true, beq_iff_eq] at hblock
      exact (Array.getElem?_eq_getElem hlt).trans (congrArg some hblock.1)
    exact absurd h (not_startsHidden hslash (by decide) (by decide))
  | case6 flags errors pos hlt c hshebang hbreak hspace hline hblock hmarker ih =>
    have hhidden := startsHidden_conflictMarkerEnd flags _ hlt hmarker hstop
    obtain ⟨hflag, hbetween⟩ := ih hhidden hstop
    exact ⟨hflag, hbetween.mono (Nat.le_of_lt (lt_conflictMarkerEnd text pos)) (Nat.le_refl _)⟩
  | case7 flags errors pos hlt c hshebang hbreak hspace hline hblock hmarker =>
    rcases h with hhidden | hhidden
    · exact absurd (by simpa [hlt] using hhidden) hbreak
    · exact absurd hhidden hmarker
  | case8 flags errors pos hlt => exact absurd hstop hlt

/-- The run notes a line break if one ends where it goes, provided that a token follows. -/
theorem precedingLineBreak_triviaRunFrom_iff (flags : TokenFlags) (errors : List ScanError)
    (h : pos ≤ text.size) (hstop : (triviaRunFrom text flags errors pos).stop < text.size) :
    (triviaRunFrom text flags errors pos).flags.precedingLineBreak = true ↔
      flags.precedingLineBreak = true
        ∨ BreakBetween text pos (triviaRunFrom text flags errors pos).stop := by
  -- one piece, and what the run notes behind it
  have hstep {noted : Prop} {next : Nat} {flags flags' : TokenFlags} {errors : List ScanError} {pos : Nat}
      (hle : pos ≤ next) (hnext : next ≤ text.size)
      (hrest : noted ↔ flags'.precedingLineBreak = true
        ∨ BreakBetween text next (triviaRunFrom text flags' errors next).stop)
      (hpiece : flags'.precedingLineBreak = true ↔
        flags.precedingLineBreak = true ∨ BreakBetween text pos next) :
      noted ↔ flags.precedingLineBreak = true
        ∨ BreakBetween text pos (triviaRunFrom text flags' errors next).stop := by
    have hstop := (stop_triviaRunFrom_bounds flags' errors hnext).1
    rw [hrest, hpiece, or_assoc, ← breakBetween_iff_or hle hstop]
  fun_induction triviaRunFrom text flags errors pos with
  | case1 flags errors pos hlt hshebang ih =>
    have hnext := shebangEnd_le_size hshebang
    simp only [isShebang, Bool.and_eq_true, beq_iff_eq] at hshebang
    obtain ⟨⟨rfl, hhash⟩, hmark⟩ := hshebang
    have hno : ¬BreakBetween text 0 (shebangEnd text 0) :=
      not_breakBetween_lineEnd (beq_iff_eq.mp hhash) (beq_iff_eq.mp hmark) (by decide)
    exact hstep (Nat.zero_le _) hnext (ih hnext hstop) (or_iff_left hno).symm
  | case2 flags errors pos hlt c hshebang hbreak ih =>
    have hnext := lineBreakEnd_le_size hlt
    have hbetween := breakBetween_lineBreakEnd hlt hbreak
    exact hstep (Nat.le_of_lt (lt_lineBreakEnd text pos)) hnext (ih hnext hstop)
      (iff_of_true rfl (.inr hbetween))
  | case3 flags errors pos hlt c hshebang hbreak hspace ih =>
    have hno : ¬BreakBetween text pos (pos + 1) := by
      apply not_breakBetween
      intro k hk hlt'
      obtain rfl : k = pos := by omega
      simpa [hlt] using hbreak
    exact hstep (Nat.le_succ pos) hlt (ih hlt hstop) (or_iff_left hno).symm
  | case4 flags errors pos hlt c hshebang hbreak hspace hline ih =>
    simp only [Bool.and_eq_true, beq_iff_eq] at hline
    have hslash : text[pos]? = some '/' := (Array.getElem?_eq_getElem hlt).trans (congrArg some hline.1)
    have hnext := lineEnd_le_size (lt_size_of_hasCharAt hline.2)
    have hno : ¬BreakBetween text pos (lineEnd text (pos + 2)) :=
      not_breakBetween_lineEnd hslash (beq_iff_eq.mp hline.2) (by decide)
    exact hstep (Nat.le_trans (Nat.le_add_right pos 2) (le_lineEnd text (pos + 2))) hnext (ih hnext hstop)
      (or_iff_left hno).symm
  | case5 flags errors pos hlt c hshebang hbreak hspace hline hblock stop ih =>
    simp only [Bool.and_eq_true, beq_iff_eq] at hblock
    have hslash : hasCharAt text pos '/' = true := by simp [hasCharAt, hlt, show text[pos] = '/' from hblock.1]
    have hnext : stop ≤ text.size := blockCommentEnd_le_size (lt_size_of_hasCharAt hblock.2)
    have hbounds := stop_triviaRunFrom_bounds (blockCommentFlags text pos stop flags)
      (errors ++ blockCommentErrors text (pos + 2)) hnext
    have hpiece := breakBetween_blockCommentEnd hslash hblock.2 (Nat.lt_of_le_of_lt hbounds.1 hstop)
    refine hstep (Nat.le_trans (Nat.le_add_right pos 2) (le_blockCommentEnd text (pos + 2))) hnext
      (ih hnext hstop) ?_
    rw [hpiece, blockCommentFlags, Bool.or_eq_true]
  | case6 flags errors pos hlt c hshebang hbreak hspace hline hblock hmarker ih =>
    -- nothing is noted at the marker itself, but a line break behind it is
    have hhidden := startsHidden_conflictMarkerEnd flags _ hlt hmarker hstop
    obtain ⟨hflag, hbetween⟩ := breakBetween_of_startsHidden flags _ hhidden hstop
    have hle := Nat.le_of_lt (lt_conflictMarkerEnd text pos)
    exact iff_of_true hflag (.inr (hbetween.mono hle (Nat.le_refl _)))
  | case7 flags errors pos hlt c hshebang hbreak hspace hline hblock hmarker =>
    have hno : ¬BreakBetween text pos pos := by
      rintro ⟨s, hlt, hle, -⟩
      omega
    exact (or_iff_left hno).symm
  | case8 flags errors pos hlt => exact absurd hstop hlt

/-! ## 3. Tokens -/

theorem precedingLineBreak_pushEscape (k : Cooked) (e : Escape) :
    (k.pushEscape e).flags.precedingLineBreak = k.flags.precedingLineBreak := by
  unfold Cooked.pushEscape
  dsimp only
  split <;> rfl

theorem precedingLineBreak_readString (quote : Char) (k : Cooked) :
    (readString text quote k pos).flags.precedingLineBreak = k.flags.precedingLineBreak := by
  fun_induction readString text quote k pos with
  | case2 k pos hlt c hquote hescape e ih => rw [ih, precedingLineBreak_pushEscape]
  | case4 k pos hlt c hquote hescape hbreak ih => exact ih
  | _ => rfl

theorem precedingLineBreak_readTemplate (first : Bool) (k : Cooked) :
    (readTemplate text first k pos).flags.precedingLineBreak = k.flags.precedingLineBreak := by
  fun_induction readTemplate text first k pos with
  | case3 k pos hlt c hclose hopen hescape e ih => rw [ih, precedingLineBreak_pushEscape]
  | case4 k pos hlt c hclose hopen hescape hreturn hfeed ih => exact ih
  | case5 k pos hlt c hclose hopen hescape hreturn hfeed ih => exact ih
  | case6 k pos hlt c hclose hopen hescape hreturn ih => exact ih
  | _ => rfl

theorem precedingLineBreak_readWordFrom (word : String) (escaped : Bool) :
    (readWordFrom text word escaped pos).flags.precedingLineBreak = false := by
  fun_induction readWordFrom text word escaped pos with
  | case1 word escaped pos hlt c hpart ih => exact ih
  | case2 word escaped pos hlt c hpart d stop he hd ih => exact ih
  | _ => rfl

theorem precedingLineBreak_readNumber (text : Array Char) (pos : Nat) :
    (readNumber text pos).flags.precedingLineBreak = false := by
  have hdecimal : (readDecimal text pos).flags.precedingLineBreak = false := by
    unfold readDecimal
    dsimp only
    split <;> rfl
  have hradix (r : Radix) : (readRadixNumber text r pos).flags.precedingLineBreak = false := by
    cases r <;> rfl
  unfold readNumber
  split
  · split
    · exact hradix _
    · split
      · rfl
      · exact hdecimal
  · exact hdecimal

/-- A lexeme notes nothing about what stands before it. -/
theorem precedingLineBreak_lexemeAt (text : Array Char) (pos : Nat) (c : Char) :
    (lexemeAt text pos c).flags.precedingLineBreak = false := by
  unfold lexemeAt
  repeat' split
  all_goals first
    | exact precedingLineBreak_readString _ {}
    | exact precedingLineBreak_readTemplate _ {}
    | exact precedingLineBreak_readNumber text pos
    | exact precedingLineBreak_readWordFrom "" false
    | rfl

/-- What a token that is not the end of the file is made of. -/
theorem scanAt_of_kind_ne (hkind : (scanAt text pos).1.kind ≠ .endOfFile) :
    ∃ c, text[(triviaRun text pos).stop]? = some c
      ∧ scanAt text pos
        = (lexemeAt text (triviaRun text pos).stop c).toToken pos (triviaRun text pos) := by
  unfold scanAt at hkind ⊢
  dsimp only at hkind ⊢
  split at hkind
  · rename_i c hc
    exact ⟨c, hc, rfl⟩
  · exact absurd rfl hkind

/-- Whatever a scanner has done before, the token that it scans next has a line break noted before it
exactly if the line map has its start on a later line than the end of the token before. -/
theorem Scanner.precedingLineBreak_read_scan (s : Scanner) :
    let t := (s.read .scan).1.token
    t.kind ≠ .endOfFile →
      (t.flags.precedingLineBreak = true ↔
        (LineMap.ofChars s.text.toList).lineOf t.fullStart
          < (LineMap.ofChars s.text.toList).lineOf t.start) := by
  intro t hkind
  have ht : t = (scanAt s.text s.token.stop).1 := s.token_read .scan
  rw [ht] at hkind ⊢
  obtain ⟨c, hc, hscan⟩ := scanAt_of_kind_ne hkind
  have hstop := lt_size_of_eq_some hc
  have hpos : s.token.stop ≤ s.text.size := by
    apply Nat.le_of_not_lt
    intro hlt
    have hrun : (triviaRun s.text s.token.stop).stop = s.token.stop := by
      rw [triviaRun, triviaRunFrom, dif_neg (Nat.not_lt_of_lt hlt)]
    rw [hrun] at hstop
    exact Nat.lt_asymm hlt hstop
  have hle := (stop_triviaRunFrom_bounds {} [] hpos).1
  rw [hscan]
  show (_ || (lexemeAt s.text _ c).flags.precedingLineBreak) = true ↔ _
  rw [precedingLineBreak_lexemeAt, Bool.or_false]
  refine (precedingLineBreak_triviaRunFrom_iff {} [] hpos hstop).trans ?_
  refine (or_iff_right Bool.false_ne_true).trans ?_
  exact (LineMap.lineOf_lt_lineOf_iff hle).symm

/-- The `b` on the line after a comment is on a later line than the end of the `a` before it, and so
it is noted. -/
theorem Scanner.precedingLineBreak_read_scan_comment :
    let s := ((ofText #['a', '/', '*', '\r', '\n', '*', '/', 'b']).read .scan).1
    let t := (s.read .scan).1.token
    t.kind ≠ .endOfFile ∧ t.flags.precedingLineBreak = true
      ∧ (LineMap.ofChars s.text.toList).lineOf t.fullStart
        < (LineMap.ofChars s.text.toList).lineOf t.start := by
  let s := ((ofText #['a', '/', '*', '\r', '\n', '*', '/', 'b']).read .scan).1
  have hkind : (s.read .scan).1.token.kind ≠ .endOfFile := by decide +kernel
  have hflag : (s.read .scan).1.token.flags.precedingLineBreak = true := by decide +kernel
  exact ⟨hkind, hflag, (precedingLineBreak_read_scan s hkind).mp hflag⟩

end ScriptSyntax
