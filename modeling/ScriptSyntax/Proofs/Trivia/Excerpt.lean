/-
  ScriptSyntax/Proofs/Trivia/Excerpt.lean
  =======================================
  A text that stands inside of another one.

  An excerpt is a text that another one has lines of, some way from its start.  What is read of
  the excerpt is read there too, at the same distance, as long as it ends before the excerpt does:
  hardly anything looks further than the end of a line.  Here this is said of the pieces of trivia.
-/
import ScriptSyntax.Proofs.Trivia.Path

namespace ScriptSyntax

/-! ## 1. Excerpts -/

/-- The error, so many characters later. -/
def ScanError.shift (e : ScanError) (d : Nat) : ScanError := { e with start := e.start + d }

/-- The excerpt stands in the text from position `d` on, and the two agree before position `n` of the
excerpt.  It starts a line there, and it is over at `n`: with a line break that nothing belongs to any
more, or because the text ends as well. -/
structure Excerpt (part text : Array Char) (n d : Nat) : Prop where
  size_le : part.size ≤ n
  offset_le : d ≤ text.size
  offset_pos : 0 < d
  getElem?_eq : ∀ i < n, text[i + d]? = part[i]?
  edge : ∀ i c, i + 1 = n → part[i]? = some c → isLineBreak c = true
  noFeed : hasCharAt text (n + d) '\n' = false
  lineStart : isLineStart text d = true
  noShebang : isShebang part 0 = false

namespace Excerpt

variable {part text : Array Char} {n d pos q : Nat} {c : Char} {p : Char → Bool}

theorem char (h : Excerpt part text n d) (hpos : pos < n) (hq : q = pos + d) : text[q]? = part[pos]? :=
  hq ▸ h.getElem?_eq pos hpos

theorem hasCharAt_eq (h : Excerpt part text n d) (hpos : pos < n) (hq : q = pos + d) (c : Char) :
    hasCharAt text q c = hasCharAt part pos c := by
  rw [hasCharAt, h.char hpos hq, hasCharAt]

/-- Only a line break is the last character. -/
theorem next (h : Excerpt part text n d) (hpos : pos < n) (hc : part[pos]? = some c)
    (hbreak : isLineBreak c = false) : pos + 1 < n := by
  apply Nat.lt_of_le_of_ne hpos
  intro hlast
  rw [h.edge pos c hlast hc] at hbreak
  cases hbreak

theorem next_of_hasCharAt (h : Excerpt part text n d) (hpos : pos < n) (hc : hasCharAt part pos c = true)
    (hbreak : isLineBreak c = false) : pos + 1 < n :=
  h.next hpos (beq_iff_eq.mp hc) hbreak

theorem get (h : Excerpt part text n d) (hlt : pos < part.size) (hq : q = pos + d) :
    ∃ hlt' : q < text.size, text[q] = part[pos] := by
  have hchar := h.char (Nat.lt_of_lt_of_le hlt h.size_le) hq
  rw [Array.getElem?_eq_getElem hlt] at hchar
  exact Array.getElem?_eq_some_iff.mp hchar

theorem not_lt_size (h : Excerpt part text n d) (hpos : pos < n) (hlt : ¬pos < part.size) (hq : q = pos + d) :
    ¬q < text.size := by
  have hchar := h.char hpos hq
  rw [Array.getElem?_eq_none (Nat.le_of_not_lt hlt)] at hchar
  exact Nat.not_lt_of_le (Array.getElem?_eq_none_iff.mp hchar)

/-- An excerpt that does not reach as far as it may is the rest of the text. -/
theorem size_eq (h : Excerpt part text n d) (hsize : part.size < n) : text.size = part.size + d := by
  have hle : text.size ≤ part.size + d := Nat.le_of_not_lt (h.not_lt_size hsize (Nat.lt_irrefl _) rfl)
  by_cases hzero : part.size = 0
  · have hoffset := h.offset_le
    omega
  · obtain ⟨hlast, -⟩ := h.get (Nat.sub_one_lt hzero) rfl
    omega

/-- No line feed stands just behind the excerpt, to make a pair with its last character. -/
theorem feed_eq (h : Excerpt part text n d) (hpos : pos ≤ n) (hq : q = pos + d) :
    hasCharAt text q '\n' = hasCharAt part pos '\n' := by
  rcases Nat.eq_or_lt_of_le hpos with rfl | hlt
  · rw [hq, h.noFeed, hasCharAt, Array.getElem?_eq_none h.size_le]
    rfl
  · exact h.hasCharAt_eq hlt hq '\n'

theorem extract_eq (h : Excerpt part text n d) {a b : Nat} (hb : b ≤ n) :
    text.extract (a + d) (b + d) = part.extract a b := by
  have hpiece (xs : Array Char) (a b i : Nat) :
      (xs.extract a b)[i]? = if a + i < b then xs[a + i]? else none := by
    rw [Array.getElem?_extract]
    by_cases hsize : a + i < xs.size
    · congr 1
      exact propext (by omega)
    · rw [Array.getElem?_eq_none (Nat.le_of_not_lt hsize)]
      simp
  apply Array.ext_getElem?
  intro i
  rw [hpiece, hpiece]
  by_cases hi : a + i < b
  · have hi' : a + d + i < b + d := by omega
    rw [if_pos hi, if_pos hi', h.char (Nat.lt_of_lt_of_le hi hb) (by omega)]
  · have hi' : ¬a + d + i < b + d := by omega
    rw [if_neg hi, if_neg hi']

/-! ## 2. How far pieces reach -/

theorem scanWhile_eq (h : Excerpt part text n d) (hq : q = pos + d) (hstop : scanWhile p part pos < n) :
    scanWhile p text q = scanWhile p part pos + d := by
  fun_induction scanWhile p part pos generalizing q with
  | case1 pos hlt hp ih =>
    obtain ⟨hlt', hget⟩ := h.get hlt hq
    rw [scanWhile, dif_pos hlt', hget, if_pos hp]
    exact ih (by omega) hstop
  | case2 pos hlt hp =>
    obtain ⟨hlt', hget⟩ := h.get hlt hq
    rw [scanWhile, dif_pos hlt', hget, if_neg hp]
    exact hq
  | case3 pos hlt =>
    rw [scanWhile, dif_neg (h.not_lt_size hstop hlt hq)]
    exact hq

/-- A walk that stays on its line stays in the excerpt. -/
theorem scanWhile_lt (h : Excerpt part text n d) (hp : ∀ c, p c = true → isLineBreak c = false)
    (hpos : pos < n) : scanWhile p part pos < n := by
  fun_induction scanWhile p part pos with
  | case1 pos hlt hc ih => exact ih (h.next hpos (Array.getElem?_eq_getElem hlt) (hp _ hc))
  | case2 pos hlt hc => exact hpos
  | case3 pos hlt => exact hpos

theorem lineEnd_lt (h : Excerpt part text n d) (hpos : pos < n) : lineEnd part pos < n := by
  apply h.scanWhile_lt _ hpos
  intro c hc
  simpa using hc

theorem lineBreakEnd_eq (h : Excerpt part text n d) (hpos : pos < n) (hq : q = pos + d) :
    lineBreakEnd text q = lineBreakEnd part pos + d := by
  have hnext : hasCharAt text (q + 1) '\n' = hasCharAt part (pos + 1) '\n' := h.feed_eq hpos (by omega)
  unfold lineBreakEnd
  rw [h.hasCharAt_eq hpos hq, hnext]
  split <;> omega

theorem blockCommentEnd?_some (h : Excerpt part text n d) {stop : Nat} (hq : q = pos + d)
    (hend : blockCommentEnd? part pos = some stop) (hstop : stop < n) :
    blockCommentEnd? text q = some (stop + d) := by
  fun_induction blockCommentEnd? part pos generalizing q with
  | case1 pos hlt hmark =>
    cases hend
    have hnext : pos + 1 < n := Nat.lt_of_succ_lt hstop
    obtain ⟨hlt', hget⟩ := h.get hlt hq
    rw [blockCommentEnd?, dif_pos hlt', hget, h.hasCharAt_eq hnext (by omega), if_pos hmark, hq,
      Nat.add_right_comm]
  | case2 pos hlt hmark ih =>
    have hnext : pos + 1 < n := Nat.lt_trans (lt_of_blockCommentEnd? hend) hstop
    obtain ⟨hlt', hget⟩ := h.get hlt hq
    rw [blockCommentEnd?, dif_pos hlt', hget, h.hasCharAt_eq hnext (by omega), if_neg hmark]
    exact ih (by omega) hend
  | case3 pos hlt => cases hend

theorem blockCommentEnd?_none (h : Excerpt part text n d) (hq : q = pos + d)
    (hend : blockCommentEnd? part pos = none) (hsize : part.size < n) (hpos : pos < n) :
    blockCommentEnd? text q = none := by
  fun_induction blockCommentEnd? part pos generalizing q with
  | case1 pos hlt hmark => cases hend
  | case2 pos hlt hmark ih =>
    have hnext : pos + 1 < n := Nat.lt_of_le_of_lt hlt hsize
    obtain ⟨hlt', hget⟩ := h.get hlt hq
    rw [blockCommentEnd?, dif_pos hlt', hget, h.hasCharAt_eq hnext (by omega), if_neg hmark]
    exact ih (by omega) hend hnext
  | case3 pos hlt => rw [blockCommentEnd?, dif_neg (h.not_lt_size hpos hlt hq)]

/-- A block comment that ends in the excerpt, or that ends with the text. -/
theorem blockComment_eq (h : Excerpt part text n d) (hq : q = pos + d)
    (hstop : blockCommentEnd part pos < n) :
    blockCommentEnd text q = blockCommentEnd part pos + d
      ∧ blockCommentErrors text q = (blockCommentErrors part pos).map (·.shift d) := by
  unfold blockCommentErrors
  unfold blockCommentEnd at hstop ⊢
  cases hend : blockCommentEnd? part pos with
  | some stop =>
    rw [hend] at hstop
    rw [h.blockCommentEnd?_some hq hend hstop]
    exact ⟨rfl, rfl⟩
  | none =>
    rw [hend, Option.getD_none] at hstop
    have hpos : pos < n := Nat.lt_of_le_of_lt (Nat.le_max_left _ _) hstop
    have hsize : part.size < n := Nat.lt_of_le_of_lt (Nat.le_max_right _ _) hstop
    have hmax : max q text.size = max pos part.size + d := by
      rw [h.size_eq hsize, hq, Nat.add_max_add_right]
    rw [h.blockCommentEnd?_none hq hend hsize hpos, Option.getD_none]
    refine ⟨hmax, ?_⟩
    simp [hmax, ScanError.shift]

/-- A closed block comment ends with no line break, so it ends before the excerpt does. -/
theorem blockCommentEnd_lt (h : Excerpt part text n d) (hquiet : blockCommentErrors part pos = []) :
    blockCommentEnd part pos < n := by
  unfold blockCommentErrors at hquiet
  split at hquiet
  · rename_i stop hend
    have hslash := hasCharAt_blockCommentEnd? hend
    have hinside := lt_of_blockCommentEnd? hend
    have hlast := h.next_of_hasCharAt (Nat.lt_of_lt_of_le (lt_size_of_hasCharAt hslash) h.size_le) hslash
      (by decide)
    rw [blockCommentEnd, hend, Option.getD_some]
    omega
  · cases hquiet

/-! ## 3. Conflict markers -/

theorem isLineStart_eq (h : Excerpt part text n d) (hpos : pos < n) (hq : q = pos + d) :
    isLineStart text q = isLineStart part pos := by
  cases pos with
  | zero =>
    rw [hq, Nat.zero_add, h.lineStart]
    rfl
  | succ pos =>
    have hlast : q = pos + d + 1 := by omega
    rw [hlast, isLineStart_succ, isLineStart_succ, h.char (Nat.lt_of_succ_lt hpos) rfl]

/-- A row of one character, which is no line break, ends in the excerpt if it starts there. -/
theorem row_eq (h : Excerpt part text n d) (hbreak : isLineBreak c = false) (hpos : pos < n)
    (hq : q = pos + d) (count : Nat) :
    (List.range count).all (fun i => hasCharAt text (q + i) c)
        = (List.range count).all (fun i => hasCharAt part (pos + i) c)
      ∧ ((List.range count).all (fun i => hasCharAt part (pos + i) c) = true → pos + count < n) := by
  induction count with
  | zero => exact ⟨rfl, fun _ => hpos⟩
  | succ count ih =>
    obtain ⟨hrow, hlt⟩ := ih
    rw [List.range_succ, List.all_append, List.all_append, hrow, Bool.and_eq_true]
    by_cases hall : (List.range count).all (fun i => hasCharAt part (pos + i) c) = true
    · have hchar : hasCharAt text (q + count) c = hasCharAt part (pos + count) c :=
        h.hasCharAt_eq (hlt hall) (by omega) c
      refine ⟨by simp [hchar], ?_⟩
      rintro ⟨-, hlast⟩
      exact h.next_of_hasCharAt (hlt hall) (by simpa using hlast) hbreak
    · exact ⟨by simp [Bool.eq_false_iff.mpr hall], fun hboth => absurd hboth.1 hall⟩

theorem isConflictMarker_eq (h : Excerpt part text n d) (hpos : pos < n) (hq : q = pos + d) :
    isConflictMarker text q = isConflictMarker part pos := by
  have hline := h.isLineStart_eq hpos hq
  unfold isLineStart at hline
  unfold isConflictMarker
  rw [h.char hpos hq]
  cases hc : part[pos]? with
  | none => rfl
  | some c =>
    dsimp only
    rw [hline]
    by_cases hmarker : isMarkerChar c = true
    · have hspace := isWhiteSpaceLike_of_isMarkerChar hmarker
      simp only [isWhiteSpaceLike, Bool.or_eq_false_iff] at hspace
      obtain ⟨hrow, hlt⟩ := h.row_eq hspace.2 hpos hq conflictMarkerLength
      rw [hrow]
      by_cases hall : (List.range conflictMarkerLength).all (fun i => hasCharAt part (pos + i) c) = true
      · rw [h.hasCharAt_eq (hlt hall) (by omega)]
      · simp [Bool.eq_false_iff.mpr hall]
    · unfold isMarkerChar at hmarker
      simp [Bool.eq_false_iff.mpr hmarker]

theorem conflictRegionEnd_eq (h : Excerpt part text n d) {opening : Char} (hq : q = pos + d)
    (hstop : conflictRegionEnd part opening pos < n) :
    conflictRegionEnd text opening q = conflictRegionEnd part opening pos + d := by
  fun_induction conflictRegionEnd part opening pos generalizing q with
  | case1 pos hlt c =>
    rename_i hmarker
    obtain ⟨hlt', hget⟩ := h.get hlt hq
    rw [conflictRegionEnd, dif_pos hlt']
    dsimp only
    rw [hget, h.isConflictMarker_eq hstop hq, if_pos hmarker]
    exact hq
  | case2 pos hlt c hmarker =>
    rename_i ih
    obtain ⟨hlt', hget⟩ := h.get hlt hq
    rw [conflictRegionEnd, dif_pos hlt']
    dsimp only
    rw [hget, h.isConflictMarker_eq (Nat.lt_of_lt_of_le hlt h.size_le) hq, if_neg hmarker]
    exact ih (by omega) hstop
  | case3 pos hlt =>
    rw [conflictRegionEnd, dif_neg (h.not_lt_size hstop hlt hq)]
    exact hq

theorem conflictMarkerEnd_eq (h : Excerpt part text n d) (hq : q = pos + d)
    (hstop : conflictMarkerEnd part pos < n) :
    conflictMarkerEnd text q = conflictMarkerEnd part pos + d := by
  have hpos : pos < n := Nat.lt_trans (lt_conflictMarkerEnd part pos) hstop
  have hnext : q + 1 = pos + 1 + d := by omega
  unfold conflictMarkerEnd at hstop ⊢
  rw [h.char hpos hq]
  split
  · rename_i hc
    simp only [hc] at hstop
    exact h.scanWhile_eq hnext hstop
  · rename_i hc
    simp only [hc] at hstop
    exact h.scanWhile_eq hnext hstop
  · rename_i c hleft hright hc
    rw [hc] at hstop
    split at hstop
    · rename_i heq
      exact (hleft (Option.some.inj heq)).elim
    · rename_i heq
      exact (hright (Option.some.inj heq)).elim
    · rename_i heq
      obtain rfl := Option.some.inj heq
      exact h.conflictRegionEnd_eq hnext hstop
    · rename_i heq
      cases heq
  · exact hnext

/-! ## 4. Trivia -/

theorem isShebang_eq (h : Excerpt part text n d) (hq : q = pos + d) :
    isShebang part pos = false ∧ isShebang text q = false := by
  have hpos : 0 < q := by
    have hoffset := h.offset_pos
    omega
  refine ⟨?_, isShebang_of_pos hpos⟩
  cases pos with
  | zero => exact h.noShebang
  | succ pos => exact isShebang_of_pos (Nat.succ_pos pos)

/-- A piece of trivia in the excerpt is one of the text.  It ends before the excerpt does, or at least it
does not end for want of characters. -/
theorem step (h : Excerpt part text n d) {r : Nat} {errors : List ScanError}
    (hstep : TriviaStep part pos errors r) (hr : r < n ∨ errors = []) :
    TriviaStep text (pos + d) (errors.map (·.shift d)) (r + d) := by
  have hpos : pos < n := Nat.lt_of_lt_of_le hstep.bounds.2.1 h.size_le
  have hnext : pos + d + 1 = pos + 1 + d := Nat.add_right_comm pos d 1
  have htwo : pos + d + 2 = pos + 2 + d := Nat.add_right_comm pos d 2
  cases hstep with
  | shebang line =>
    rw [(h.isShebang_eq rfl).1] at line
    cases line
  | lineBreak char terminator =>
    rw [← h.lineBreakEnd_eq hpos rfl]
    exact .lineBreak ((h.char hpos rfl).trans char) terminator
  | space char white =>
    rw [← hnext]
    exact .space ((h.char hpos rfl).trans char) white
  | lineComment slash second =>
    have hone : pos + 1 < n := h.next_of_hasCharAt hpos slash (by decide)
    have hinside : pos + 2 < n := h.next_of_hasCharAt hone second (by decide)
    have hend : lineEnd text (pos + d + 2) = lineEnd part (pos + 2) + d :=
      h.scanWhile_eq htwo (h.lineEnd_lt hinside)
    rw [← hend]
    exact .lineComment ((h.hasCharAt_eq hpos rfl _).trans slash) ((h.hasCharAt_eq hone hnext _).trans second)
  | blockComment slash star =>
    have hone : pos + 1 < n := h.next_of_hasCharAt hpos slash (by decide)
    have hblock : blockCommentEnd text (pos + d + 2) = blockCommentEnd part (pos + 2) + d
        ∧ blockCommentErrors text (pos + d + 2) = (blockCommentErrors part (pos + 2)).map (·.shift d) := by
      apply h.blockComment_eq htwo
      rcases hr with hlt | hquiet
      · exact hlt
      · exact h.blockCommentEnd_lt hquiet
    rw [← hblock.1, ← hblock.2]
    exact .blockComment ((h.hasCharAt_eq hpos rfl _).trans slash) ((h.hasCharAt_eq hone hnext _).trans star)
  | conflictMarker marker =>
    have hend : conflictMarkerEnd part pos < n := hr.resolve_right (List.cons_ne_nil _ _)
    rw [← h.conflictMarkerEnd_eq rfl hend]
    exact .conflictMarker ((h.isConflictMarker_eq hpos rfl).trans marker)

/-- So is a row of pieces. -/
theorem path (h : Excerpt part text n d) {r : Nat} {errors : List ScanError}
    (hpath : TriviaPath part pos errors r) (hr : r < n ∨ errors = []) :
    TriviaPath text (pos + d) (errors.map (·.shift d)) (r + d) := by
  induction hpath with
  | refl => exact .refl
  | @step p q r errors later first rest ih =>
    have hle := rest.le
    have hfirst : q < n ∨ errors = [] := hr.imp (Nat.lt_of_le_of_lt hle) fun hnil => (List.append_eq_nil_iff.mp hnil).1
    have hrest : r < n ∨ later = [] := hr.imp_right fun hnil => (List.append_eq_nil_iff.mp hnil).2
    rw [List.map_append]
    exact .step (h.step first hfirst) (ih hrest)

theorem noTrivia (h : Excerpt part text n d) (hpos : pos < n) (hno : NoTrivia part pos) :
    NoTrivia text (pos + d) where
  space c hc := hno.space c ((h.char hpos rfl).symm.trans hc)
  comment hslash := by
    rw [h.hasCharAt_eq hpos rfl] at hslash
    have hone : pos + 1 < n := h.next_of_hasCharAt hpos hslash (by decide)
    have hnext : pos + d + 1 = pos + 1 + d := Nat.add_right_comm pos d 1
    rw [h.hasCharAt_eq hone hnext, h.hasCharAt_eq hone hnext]
    exact hno.comment hslash
  marker := (h.isConflictMarker_eq hpos rfl).trans hno.marker

end Excerpt

end ScriptSyntax
