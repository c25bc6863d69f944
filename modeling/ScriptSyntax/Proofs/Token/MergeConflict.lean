/-
  ScriptSyntax/Proofs/Token/MergeConflict.lean
  ============================================
  A merge conflict is scanned as its first side.

  A version control system leaves both sides of a conflict in a file, with a line of marks before
  each of them and one behind.  The lines before and behind hide themselves; the line in the middle
  hides the second side too.  So the tokens are those of the first side and of the rest of the
  file, and the only errors that the conflict adds are its markers.
-/
import ScriptSyntax.Proofs.Token.Scans

namespace ScriptSyntax

variable {text : Array Char} {p q : Nat} {c : Char} {cs label : List Char}

/-! ## 1. Lines of characters -/

/-- The characters end with a line terminator, or there are none. -/
def EndsLine (cs : List Char) : Prop := ∀ c ∈ cs.getLast?, isLineBreak c = true

theorem endsLine_feed (cs : List Char) : EndsLine (cs ++ ['\n']) := by
  intro c hc
  obtain rfl : '\n' = c := by simpa using hc
  decide

theorem textAt_append (before rest : List Char) : TextAt (before ++ rest).toArray before.length rest := by
  simp [TextAt]

/-- A line starts behind characters that end one, and only there. -/
theorem isLineStart_skip_iff {w : List Char} (h : TextAt text p (w ++ cs)) (hline : isLineStart text p = true) :
    isLineStart text (p + w.length) = true ↔ EndsLine w := by
  rcases List.eq_nil_or_concat w with rfl | ⟨front, last, rfl⟩
  · exact iff_of_true hline (by simp [EndsLine])
  · have hlast : text[p + front.length]? = some last := by
      rw [h.getElem?]
      simp
    rw [List.concat_eq_append, List.length_append, List.length_singleton, ← Nat.add_assoc,
      isLineStart_of_eq_some hlast]
    simp [EndsLine]

theorem isLineStart_append {before : List Char} (h : EndsLine before) (rest : List Char) :
    isLineStart (before ++ rest).toArray before.length = true := by
  have hall : TextAt (before ++ rest).toArray 0 (before ++ rest) := by simp [TextAt]
  simpa using (isLineStart_skip_iff hall rfl).mpr h

/-- Marks that stand in front of whole lines stand in the first of them. -/
theorem prefix_of_endsLine {marks w rest : List Char} (hw : EndsLine w) (hne : w ≠ [])
    (hmarks : ∀ c ∈ marks, isLineBreak c = false) (h : marks <+: w ++ rest) : marks <+: w := by
  rcases List.prefix_or_prefix_of_prefix h (List.prefix_append w rest) with hin | hover
  · exact hin
  · have hlast := hw _ (List.getLast?_eq_some_getLast hne)
    rw [hmarks _ (hover.subset (List.getLast_mem hne))] at hlast
    cases hlast

/-- A line ends where its characters do. -/
theorem TextAt.lineEnd_eq {line rest : List Char} (h : TextAt text p (line ++ rest))
    (hline : ∀ c ∈ line, isLineBreak c = false) (hrest : ∀ c ∈ rest.head?, isLineBreak c = true) :
    lineEnd text p = p + line.length := by
  apply h.scanWhile_eq
  · intro c hc
    simp [hline c hc]
  · intro c hc
    simp [hrest c hc]

/-- The end of a line is the same from each of its characters. -/
theorem lineEnd_succ (hc : text[p]? = some c) (hline : isLineBreak c = false) :
    lineEnd text (p + 1) = lineEnd text p := by
  obtain ⟨hlt, rfl⟩ := Array.getElem?_eq_some_iff.mp hc
  have hstep : lineEnd text p = scanWhile (fun c => !isLineBreak c) text (p + 1) := by
    rw [lineEnd, scanWhile]
    simp [hlt, hline]
  rw [hstep, lineEnd]

theorem isShebang_of_not_prefix {part : List Char} (h : ¬['#', '!'] <+: part) :
    isShebang part.toArray 0 = false := by
  apply Bool.eq_false_iff.mpr
  intro hshebang
  simp only [isShebang, hasCharAt, Bool.and_eq_true, beq_iff_eq] at hshebang
  rcases part with _ | ⟨c, _ | ⟨e, rest⟩⟩
  · cases hshebang.2
  · cases hshebang.2
  · obtain rfl : c = '#' := by simpa using hshebang.1
    obtain rfl : e = '!' := by simpa using hshebang.2
    exact h ⟨rest, rfl⟩

/-- Whole lines inside of a text are an excerpt of it. -/
theorem excerpt_inside {before part after : List Char} (hpos : before ≠ []) (hbefore : EndsLine before)
    (hpart : EndsLine part) (hafter : after.head? ≠ some '\n') (hshebang : ¬['#', '!'] <+: part) :
    Excerpt part.toArray (before ++ (part ++ after)).toArray part.length before.length where
  size_le := by simp
  offset_le := by simp
  offset_pos := List.length_pos_iff.mpr hpos
  getElem?_eq i hi := by
    simp [List.getElem?_append_right, List.getElem?_append_left hi]
  edge i c hi hc := by
    apply hpart c
    rw [List.getLast?_eq_getElem?]
    simpa [← hi] using hc
  noFeed := by
    have hat : TextAt (before ++ (part ++ after)).toArray (part.length + before.length) after := by
      rw [Nat.add_comm]
      exact (textAt_append before (part ++ after)).skip
    exact hat.hasCharAt_eq_false hafter
  lineStart := isLineStart_append hbefore _
  noShebang := isShebang_of_not_prefix hshebang

/-- What is left of a text from the start of a line on is an excerpt of it. -/
theorem excerpt_rest {before part : List Char} (hpos : before ≠ []) (hbefore : EndsLine before)
    (hshebang : ¬['#', '!'] <+: part) :
    Excerpt part.toArray (before ++ part).toArray (part.length + 1) before.length where
  size_le := by simp
  offset_le := by simp
  offset_pos := List.length_pos_iff.mpr hpos
  getElem?_eq i hi := by
    simp [List.getElem?_append_right]
  edge i c hi hc := by
    have hlt := lt_size_of_eq_some hc
    rw [List.size_toArray] at hlt
    omega
  noFeed := by
    have hnone : (before ++ part).toArray[part.length + 1 + before.length]? = none := by
      apply Array.getElem?_eq_none
      simp only [List.size_toArray, List.length_append]
      omega
    rw [hasCharAt, hnone]
    rfl
  lineStart := isLineStart_append hbefore _
  noShebang := isShebang_of_not_prefix hshebang

/-! ## 2. Markers -/

theorem isConflictMarker_of_textAt (h : TextAt text p (List.replicate conflictMarkerLength c ++ cs))
    (hline : isLineStart text p = true) (hc : isMarkerChar c = true) (hspace : c = '=' ∨ cs.head? = some ' ') :
    isConflictMarker text p = true := by
  have hat (i : Nat) (hi : i < conflictMarkerLength) : hasCharAt text (p + i) c = true := by
    rw [hasCharAt, h.getElem? i, List.getElem?_append_left (by simpa using hi)]
    simp [hi]
  have hhead : text[p]? = some c := beq_iff_eq.mp (hat 0 (by decide))
  have hlast : (c == '=' || hasCharAt text (p + conflictMarkerLength) ' ') = true := by
    rcases hspace with rfl | hspace
    · rfl
    · have hskip := h.skip
      rw [List.length_replicate] at hskip
      rw [Bool.or_eq_true, hasCharAt, hskip.head?, hspace]
      exact .inr (beq_self_eq_true _)
  unfold isLineStart at hline
  unfold isMarkerChar at hc
  unfold isConflictMarker
  rw [hhead]
  dsimp only
  rw [hline, hc, hlast, Bool.and_true, Bool.true_and, Bool.true_and, List.all_eq_true]
  intro i hi
  exact hat i (List.mem_range.mp hi)

theorem isLineBreak_of_mem_marks {e : Char} (hmark : isLineBreak c = false)
    (he : e ∈ List.replicate conflictMarkerLength c ++ [' ']) : isLineBreak e = false := by
  rcases List.mem_append.mp he with he | he
  · rw [List.eq_of_mem_replicate he, hmark]
  · rw [List.mem_singleton.mp he]
    decide

/-- The line of an outer marker goes on to its line feed. -/
theorem lineEnd_outerMarker (hmark : isLineBreak c = false)
    (h : TextAt text p (List.replicate conflictMarkerLength c ++ ' ' :: (label ++ '\n' :: cs)))
    (hlabel : ∀ e ∈ label, isLineBreak e = false) :
    lineEnd text (p + 1) = p + (conflictMarkerLength + 1 + label.length)
      ∧ TextAt text (p + (conflictMarkerLength + 1 + label.length)) ('\n' :: cs) := by
  have hwhole : TextAt text p ((List.replicate conflictMarkerLength c ++ ' ' :: label) ++ '\n' :: cs) := by
    simpa using h
  have hover : ∀ e ∈ List.replicate conflictMarkerLength c ++ ' ' :: label, isLineBreak e = false := by
    intro e he
    rw [List.append_cons, List.mem_append] at he
    rcases he with he | he
    · exact isLineBreak_of_mem_marks hmark he
    · exact hlabel e he
  have hlength : (List.replicate conflictMarkerLength c ++ ' ' :: label).length
      = conflictMarkerLength + 1 + label.length := by
    simp only [List.length_append, List.length_replicate, List.length_cons]
    omega
  rw [lineEnd_succ h.head hmark, hwhole.lineEnd_eq hover (by simp; decide), ← hlength]
  exact ⟨rfl, hwhole.skip⟩

/-- An outer marker hides its line. -/
theorem path_outerMarker (hc : c = '<' ∨ c = '>')
    (h : TextAt text p (List.replicate conflictMarkerLength c ++ ' ' :: (label ++ '\n' :: cs)))
    (hline : isLineStart text p = true) (hlabel : ∀ e ∈ label, isLineBreak e = false) :
    TriviaPath text p [⟨.mergeConflictMarker, p, conflictMarkerLength⟩]
      (p + (conflictMarkerLength + 1 + label.length + 1)) := by
  have hmarker : isConflictMarker text p = true := by
    apply isConflictMarker_of_textAt h hline _ (.inr rfl)
    rcases hc with rfl | rfl <;> decide
  have hmark : isLineBreak c = false := by rcases hc with rfl | rfl <;> decide
  obtain ⟨hend, hfeed⟩ := lineEnd_outerMarker hmark h hlabel
  have hhides : conflictMarkerEnd text p = p + (conflictMarkerLength + 1 + label.length) := by
    have hhead : text[p]? = some c := h.head
    rcases hc with rfl | rfl <;> simp only [conflictMarkerEnd, hhead, hend]
  have hlineEnd : lineBreakEnd text (p + (conflictMarkerLength + 1 + label.length))
      = p + (conflictMarkerLength + 1 + label.length + 1) := by
    have hreturn : hasCharAt text _ '\r' = false := hfeed.hasCharAt_eq '\r'
    rw [lineBreakEnd, hreturn]
    rfl
  have first : TriviaStep text p [⟨.mergeConflictMarker, p, conflictMarkerLength⟩]
      (p + (conflictMarkerLength + 1 + label.length)) := by
    rw [← hhides]
    exact .conflictMarker hmarker
  have second : TriviaStep text (p + (conflictMarkerLength + 1 + label.length)) []
      (p + (conflictMarkerLength + 1 + label.length + 1)) := by
    rw [← hlineEnd]
    exact .lineBreak hfeed.head (by decide)
  exact .step first (.of_step second)

/-- What a closing marker consists of. -/
def closingMarks : List Char := List.replicate conflictMarkerLength '>' ++ [' ']

theorem isLineBreak_of_mem_closingMarks (h : c ∈ closingMarks) : isLineBreak c = false :=
  isLineBreak_of_mem_marks (by decide) h

/-- An outer marker stands at the start of a line, and its marks are there. -/
theorem prefix_of_isConflictMarker (h : TextAt text p cs) (hc : text[p]? = some c) (houter : c ≠ '=')
    (hmarker : isConflictMarker text p = true) :
    isLineStart text p = true ∧ List.replicate conflictMarkerLength c ++ [' '] <+: cs := by
  unfold isConflictMarker at hmarker
  rw [hc] at hmarker
  simp only [Bool.and_eq_true, List.all_eq_true, List.mem_range] at hmarker
  obtain ⟨⟨⟨hline, -⟩, hrow⟩, hlast⟩ := hmarker
  refine ⟨hline, ?_⟩
  have hat (i : Nat) (hi : i < conflictMarkerLength) : cs[i]? = some c := by
    rw [← h.getElem? i]
    exact beq_iff_eq.mp (hrow i hi)
  have hspace : cs[conflictMarkerLength]? = some ' ' := by
    rw [← h.getElem? conflictMarkerLength]
    exact beq_iff_eq.mp (Bool.or_eq_true_iff.mp hlast |>.resolve_left (by simpa using houter))
  rw [List.prefix_iff_getElem?]
  intro i hi
  by_cases hlt : i < conflictMarkerLength
  · rw [hat i hlt, List.getElem_append_left (by simpa using hlt), List.getElem_replicate]
  · obtain rfl : i = conflictMarkerLength := by
      simp only [List.length_append, List.length_replicate, List.length_singleton] at hi
      omega
    rw [hspace]
    simp

/-- A region whose opening is a middle marker ends at the first closing one. -/
theorem conflictRegionEnd_eq_of {start stop : Nat} (hle : start ≤ stop)
    (hno : ∀ i, start ≤ i → i < stop → text[i]? = some '>' → isConflictMarker text i = false)
    (hat : text[stop]? = some '>') (hmarker : isConflictMarker text stop = true) :
    conflictRegionEnd text '=' start = stop := by
  fun_induction conflictRegionEnd text '=' start with
  | case1 start hlt c hc =>
    simp only [Bool.and_eq_true, Bool.or_eq_true, beq_iff_eq, bne_iff_ne] at hc
    obtain ⟨⟨hchar, hne⟩, hhere⟩ := hc
    have hclosing : text[start]? = some '>' := by
      rw [Array.getElem?_eq_getElem hlt]
      exact congrArg some (hchar.resolve_left hne)
    rcases Nat.eq_or_lt_of_le hle with heq | hbefore
    · exact heq
    · rw [hno start (Nat.le_refl start) hbefore hclosing] at hhere
      cases hhere
  | case2 start hlt c hc ih =>
    have hbefore : start ≠ stop := by
      rintro rfl
      have hchar : text[start] = '>' := by simpa [hlt] using hat
      exact hc (by simp [c, hchar, hmarker])
    apply ih (by omega)
    intro i hi hstop
    exact hno i (by omega) hstop
  | case3 start hlt =>
    have hsize := lt_size_of_eq_some hat
    omega

/-- No closing marker stands inside of lines that do not start like one. -/
theorem isConflictMarker_eq_false {lines closing : List Char} {i : Nat} (h : TextAt text p (lines ++ closing))
    (hline : isLineStart text p = true) (hlines : EndsLine lines)
    (hunclosed : ∀ before after, lines = before ++ after → EndsLine before → ¬closingMarks <+: after)
    (hi : i < lines.length) (hc : text[p + i]? = some '>') : isConflictMarker text (p + i) = false := by
  apply Bool.eq_false_iff.mpr
  intro hclose
  have hsplit : TextAt text p (lines.take i ++ (lines.drop i ++ closing)) := by
    rwa [← List.append_assoc, List.take_append_drop]
  have hlength : (lines.take i).length = i := List.length_take_of_le (Nat.le_of_lt hi)
  have hat := hsplit.skip
  rw [hlength] at hat
  obtain ⟨hstarts, hprefix⟩ := prefix_of_isConflictMarker hat hc (by decide) hclose
  rw [← hlength] at hstarts
  have hbefore : EndsLine (lines.take i) := (isLineStart_skip_iff hsplit hline).mp hstarts
  have hafter : EndsLine (lines.drop i) := by
    intro e he
    rw [List.getLast?_drop, if_neg (Nat.not_le_of_lt hi)] at he
    exact hlines e he
  have hne : lines.drop i ≠ [] := by
    simpa using hi
  apply hunclosed (lines.take i) (lines.drop i) (List.take_append_drop i lines).symm hbefore
  exact prefix_of_endsLine hafter hne (fun c => isLineBreak_of_mem_closingMarks) hprefix

/-- A middle marker hides what stands behind it up to the closing one. -/
theorem step_middleMarker {second closing : List Char}
    (h : TextAt text p (List.replicate conflictMarkerLength '=' ++ '\n' :: (second ++ closing)))
    (hline : isLineStart text p = true) (hsecond : EndsLine second)
    (hunclosed : ∀ before after, second = before ++ after → EndsLine before → ¬closingMarks <+: after)
    (hclosing : closingMarks <+: closing) :
    TriviaStep text p [⟨.mergeConflictMarker, p, conflictMarkerLength⟩]
      (p + (conflictMarkerLength + 1) + second.length) := by
  have hmarker : isConflictMarker text p = true := isConflictMarker_of_textAt h hline (by decide) (.inl rfl)
  -- the line of the marker, and the side behind it
  have hwhole : TextAt text p ((List.replicate conflictMarkerLength '=' ++ ['\n']) ++ (second ++ closing)) := by
    simpa using h
  have hside : TextAt text (p + (conflictMarkerLength + 1)) (second ++ closing) := by
    simpa using hwhole.skip
  have hstart : isLineStart text (p + (conflictMarkerLength + 1)) = true := by
    simpa using (isLineStart_skip_iff hwhole hline).mpr (endsLine_feed _)
  have hopen : ∀ i, p + 1 ≤ i → i < p + (conflictMarkerLength + 1) + second.length → text[i]? = some '>' →
      isConflictMarker text i = false := by
    intro i hi hstop hc
    obtain ⟨k, rfl⟩ := Nat.exists_eq_add_of_le (Nat.le_of_succ_le hi)
    by_cases hmarks : k < conflictMarkerLength + 1
    · have hown : (List.replicate conflictMarkerLength '=' ++ ['\n'])[k]? = some '>' := by
        rw [← List.getElem?_append_left (by simpa using hmarks), ← hwhole.getElem? k]
        exact hc
      exact absurd (List.mem_of_getElem? hown) (by decide)
    · obtain ⟨j, rfl⟩ := Nat.exists_eq_add_of_le (Nat.le_of_not_lt hmarks)
      rw [← Nat.add_assoc] at hstop hc ⊢
      exact isConflictMarker_eq_false hside hstart hsecond hunclosed (by omega) hc
  obtain ⟨tail, rfl⟩ := hclosing
  have hclose : TextAt text (p + (conflictMarkerLength + 1) + second.length)
      (List.replicate conflictMarkerLength '>' ++ ' ' :: tail) := hside.skip
  have hend : conflictMarkerEnd text p = p + (conflictMarkerLength + 1) + second.length := by
    have hhead : text[p]? = some '=' := h.head
    have hregion : conflictMarkerEnd text p = conflictRegionEnd text '=' (p + 1) := by
      unfold conflictMarkerEnd
      rw [hhead]
      rfl
    rw [hregion]
    apply conflictRegionEnd_eq_of (by omega) hopen hclose.head
    exact isConflictMarker_of_textAt hclose ((isLineStart_skip_iff hside hstart).mpr hsecond) (by decide)
      (.inr rfl)
  rw [← hend]
  exact .conflictMarker hmarker

/-! ## 3. Conflicts -/

/-- A merge conflict in a text: what stands between its markers and behind them. -/
structure MergeConflict where
  label : List Char
  first : List Char
  second : List Char
  secondLabel : List Char
  rest : List Char
  deriving Repr

namespace MergeConflict

def opening (m : MergeConflict) : List Char :=
  List.replicate conflictMarkerLength '<' ++ ' ' :: (m.label ++ ['\n'])

def middle : List Char := List.replicate conflictMarkerLength '=' ++ ['\n']

def closing (m : MergeConflict) : List Char := closingMarks ++ (m.secondLabel ++ ['\n'])

example : (⟨['H', 'E', 'A', 'D'], [], [], [], []⟩ : MergeConflict).opening = "<<<<<<< HEAD\n".toList := by
  decide

/-- The text with the conflict in it. -/
def chars (m : MergeConflict) : List Char :=
  m.opening ++ (m.first ++ (middle ++ (m.second ++ (m.closing ++ m.rest))))

/-- Where the middle marker stands. -/
def middleAt (m : MergeConflict) : Nat := m.opening.length + m.first.length

/-- Where the closing marker stands. -/
def closingAt (m : MergeConflict) : Nat := m.middleAt + middle.length + m.second.length

/-- Where the rest of the text starts. -/
def restAt (m : MergeConflict) : Nat := m.closingAt + m.closing.length

/-- Both sides are whole lines, the first one is scanned without errors, and no line of the second one
looks like the closing marker. The labels stay on their lines. -/
structure Clean (m : MergeConflict) : Prop where
  label : ∀ c ∈ m.label, isLineBreak c = false
  secondLabel : ∀ c ∈ m.secondLabel, isLineBreak c = false
  first : EndsLine m.first
  second : EndsLine m.second
  firstStart : ¬['#', '!'] <+: m.first
  restStart : ¬['#', '!'] <+: m.rest
  quiet : ∀ s ∈ scanTokens m.first.toArray, s.2 = []
  unclosed : ∀ before after, m.second = before ++ after → EndsLine before → ¬closingMarks <+: after

def markerError (pos : Nat) : ScanError := ⟨.mergeConflictMarker, pos, conflictMarkerLength⟩

variable {m : MergeConflict}

theorem endsLine_opening (m : MergeConflict) : EndsLine m.opening := by
  have hline := endsLine_feed (List.replicate conflictMarkerLength '<' ++ ' ' :: m.label)
  simpa [opening] using hline

/-- Everything before the rest of the text. -/
def beforeRest (m : MergeConflict) : List Char :=
  m.opening ++ (m.first ++ (middle ++ (m.second ++ m.closing)))

theorem chars_eq (m : MergeConflict) : m.chars = m.beforeRest ++ m.rest := by
  simp [chars, beforeRest]

theorem length_beforeRest (m : MergeConflict) : m.beforeRest.length = m.restAt := by
  simp [beforeRest, restAt, closingAt, middleAt, Nat.add_assoc]

/-- The first line leads to the first side. -/
theorem path_opening (h : m.Clean) :
    TriviaPath m.chars.toArray 0 [markerError 0] m.opening.length := by
  have hat : TextAt m.chars.toArray 0 (List.replicate conflictMarkerLength '<' ++ ' ' :: (m.label ++ '\n'
      :: (m.first ++ (middle ++ (m.second ++ (m.closing ++ m.rest)))))) := by
    simp [TextAt, chars, opening]
  have hpath := path_outerMarker (.inl rfl) hat rfl h.label
  have hlength : m.opening.length = 0 + (conflictMarkerLength + 1 + m.label.length + 1) := by
    simp only [opening, List.length_append, List.length_replicate, List.length_cons, List.length_nil]
    omega
  rw [hlength]
  exact hpath

/-- The middle marker leads to the closing one, and that to the rest of the text. -/
theorem path_middle (h : m.Clean) :
    TriviaPath m.chars.toArray m.middleAt [markerError m.middleAt, markerError m.closingAt] m.restAt := by
  have hfirst : TextAt m.chars.toArray m.opening.length
      (m.first ++ (middle ++ (m.second ++ (m.closing ++ m.rest)))) := textAt_append m.opening _
  have hmiddle : TextAt m.chars.toArray m.middleAt (middle ++ (m.second ++ (m.closing ++ m.rest))) :=
    hfirst.skip
  have hsecond : TextAt m.chars.toArray (m.middleAt + middle.length) (m.second ++ (m.closing ++ m.rest)) :=
    hmiddle.skip
  have hclosing : TextAt m.chars.toArray m.closingAt (m.closing ++ m.rest) := hsecond.skip
  -- lines start at both markers
  have hstart : isLineStart m.chars.toArray m.opening.length = true :=
    isLineStart_append m.endsLine_opening _
  have hmiddleStart : isLineStart m.chars.toArray m.middleAt = true :=
    (isLineStart_skip_iff hfirst hstart).mpr h.first
  have hsecondStart : isLineStart m.chars.toArray (m.middleAt + middle.length) = true :=
    (isLineStart_skip_iff hmiddle hmiddleStart).mpr (endsLine_feed _)
  have hclosingStart : isLineStart m.chars.toArray m.closingAt = true :=
    (isLineStart_skip_iff hsecond hsecondStart).mpr h.second
  have first : TriviaStep m.chars.toArray m.middleAt [markerError m.middleAt] m.closingAt :=
    step_middleMarker hmiddle hmiddleStart h.second h.unclosed ⟨m.secondLabel ++ ['\n'] ++ m.rest, by simp [closing]⟩
  have hat : TextAt m.chars.toArray m.closingAt (List.replicate conflictMarkerLength '>' ++ ' '
      :: (m.secondLabel ++ '\n' :: m.rest)) := by
    simpa [closing, closingMarks] using hclosing
  have hpath := path_outerMarker (.inr rfl) hat hclosingStart h.secondLabel
  have hrest : m.restAt = m.closingAt + (conflictMarkerLength + 1 + m.secondLabel.length + 1) := by
    simp only [restAt, closing, closingMarks, List.length_append, List.length_replicate, List.length_singleton]
    omega
  rw [hrest]
  exact .step first hpath

/-- Scanned with a conflict in it, a text has the tokens of the first side and then those of the rest. The
errors are one at each marker and those of the rest. -/
theorem tokens_and_errors (h : m.Clean) :
    (tokenize m.chars.toArray).map Token.word
        = (tokenize m.first.toArray).map Token.word ++ (tokenize m.rest.toArray).map Token.word
      ∧ (scanTokens m.chars.toArray).flatMap Prod.snd
        = markerError 0 :: markerError m.middleAt :: markerError m.closingAt
          :: ((scanTokens m.rest.toArray).flatMap Prod.snd).map (·.shift m.restAt) := by
  have hopening : m.opening ≠ [] := by simp [opening]
  have hmarks : (middle ++ (m.second ++ (m.closing ++ m.rest))).head? ≠ some '\n' := by
    simp [middle, conflictMarkerLength, List.replicate_succ]
  have hfirst : Excerpt m.first.toArray m.chars.toArray m.first.length m.opening.length :=
    excerpt_inside hopening m.endsLine_opening h.first hmarks h.firstStart
  have hrest : Excerpt m.rest.toArray m.chars.toArray (m.rest.length + 1) m.restAt := by
    rw [chars_eq, ← length_beforeRest]
    apply excerpt_rest _ _ h.restStart
    · simp [beforeRest, opening]
    · have hline := endsLine_feed (m.opening ++ (m.first ++ (middle ++ (m.second ++ (closingMarks ++ m.secondLabel)))))
      simpa [beforeRest, closing] using hline
  have hquiet : (scanTokens m.first.toArray).flatMap Prod.snd = [] :=
    List.flatMap_eq_nil_iff.mpr h.quiet
  -- from the back to the front
  have hscanRest : Scans m.chars.toArray m.restAt ((tokenize m.rest.toArray).map Token.word)
      (((scanTokens m.rest.toArray).flatMap Prod.snd).map (·.shift m.restAt)) := by
    have hscan := hrest.scans (by simp) (Nat.zero_le _) (scans_scanTokens m.rest.toArray)
    rwa [Nat.zero_add] at hscan
  have hscanMiddle := Scans.behind (path_middle h) hscanRest
  have hmiddleAt : m.first.length + m.opening.length = m.middleAt := Nat.add_comm _ _
  have hscanFirst := hfirst.scans_append (by simp) (Nat.zero_le _) (scans_scanTokens m.first.toArray) hquiet
    (by rw [hmiddleAt]; exact hscanMiddle)
  rw [Nat.zero_add] at hscanFirst
  exact (Scans.behind (path_opening h) hscanFirst).scanTokens_eq

/-- A conflict whose second side is just another row of marks: the tokens are `x` and `z`, and only the
markers are wrong. -/
theorem tokens_and_errors_marks :
    let m : MergeConflict := ⟨['a'], ['x', '\n'], ['=', '=', '=', '=', '=', '=', '=', '\n'], ['b'], ['z']⟩
    m.Clean
      ∧ ((tokenize m.chars.toArray).map Token.word).map (fun w => (w.kind, w.value))
        = [(.identifier, "x"), (.identifier, "z")]
      ∧ (scanTokens m.chars.toArray).flatMap Prod.snd = [markerError 0, markerError 12, markerError 28] := by
  intro m
  have hclean : m.Clean := by
    refine ⟨?_, ?_, ?_, ?_, ?_, ?_, ?_, ?_⟩
    · exact List.forall_mem_singleton.mpr (by decide)
    · exact List.forall_mem_singleton.mpr (by decide)
    · exact endsLine_feed ['x']
    · exact endsLine_feed ['=', '=', '=', '=', '=', '=', '=']
    · decide
    · decide
    · decide +kernel
    · intro before after hsplit _ hmarks
      have hmark : '>' ∈ m.second := by
        rw [hsplit]
        exact List.mem_append_right before (hmarks.subset (by decide))
      exact absurd hmark (by decide)
  have htokens := (tokens_and_errors hclean).1
  have herrors := (tokens_and_errors hclean).2
  refine ⟨hclean, ?_, ?_⟩
  · rw [htokens]
    decide +kernel
  · rw [herrors]
    decide +kernel

end MergeConflict

end ScriptSyntax
