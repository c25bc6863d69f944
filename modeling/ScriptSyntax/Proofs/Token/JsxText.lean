/-
  ScriptSyntax/Proofs/Token/JsxText.lean
  ======================================
  White space between tags.

  Text between tags is all white space if it has a line break and nothing but white space.  It goes on
  over the lines that open a merge conflict: they belong to the text, but they are errors, and what
  stands on them does not count.  So the text is white space if it is without those lines.
-/
import Mathlib.Data.List.TakeWhile
import ScriptSyntax.Proofs.Token.MergeConflict

namespace ScriptSyntax

variable {text : Array Char} {pos : Nat} {c : Char} {cs line rest v : List Char} {seenText seenBreak : Bool}

/-! ## 1. Lines that open a conflict -/

/-- What a line that opens a conflict starts with. -/
def openingMarks : List Char := List.replicate conflictMarkerLength '<' ++ [' ']

/-- The characters that stand on no line that opens a conflict, where `hidden` says whether the first
ones do. Such a line starts with the marks behind a line terminator, and its own terminator is not on it. -/
def withoutMarkers (hidden : Bool) : List Char → List Char
  | [] => []
  | c :: cs =>
    if isLineBreak c then c :: withoutMarkers (openingMarks.isPrefixOf cs) cs
    else if hidden then withoutMarkers true cs
    else c :: withoutMarkers false cs

theorem isLineBreak_of_mem_openingMarks (h : c ∈ openingMarks) : isLineBreak c = false :=
  isLineBreak_of_mem_marks (by decide) h

theorem withoutMarkers_cons (c : Char) (cs : List Char) :
    withoutMarkers false (c :: cs) = c :: withoutMarkers (isLineBreak c && openingMarks.isPrefixOf cs) cs := by
  cases hc : isLineBreak c <;> simp [withoutMarkers, hc]

/-- The rest of a hidden line is left out. -/
theorem withoutMarkers_append (hline : ∀ c ∈ line, isLineBreak c = false) (cs : List Char) :
    withoutMarkers true (line ++ cs) = withoutMarkers true cs := by
  induction line with
  | nil => rfl
  | cons c line ih =>
    obtain ⟨hc, hline⟩ := List.forall_mem_cons.mp hline
    simp [withoutMarkers, hc, ih hline]

/-- At the end of a line it makes no difference whether the line was hidden. -/
theorem withoutMarkers_lineEnd (h : ∀ c ∈ cs.head?, isLineBreak c = true) (hidden : Bool) :
    withoutMarkers true cs = withoutMarkers hidden cs := by
  cases cs with
  | nil => rfl
  | cons c cs =>
    have hc : isLineBreak c = true := h c rfl
    simp [withoutMarkers, hc]

/-- Where no tag opens, no conflict does. -/
theorem withoutMarkers_of_notMem (h : '<' ∉ cs) : withoutMarkers false cs = cs := by
  induction cs with
  | nil => rfl
  | cons c cs ih =>
    have hmore := List.not_mem_of_not_mem_cons h
    have hmarks : openingMarks.isPrefixOf cs = false := by
      apply Bool.eq_false_iff.mpr
      intro hmarks
      exact hmore ((List.isPrefixOf_iff_prefix.mp hmarks).subset (by simp [openingMarks, conflictMarkerLength]))
    rw [withoutMarkers_cons, hmarks, Bool.and_false, ih hmore]

/-- A marker that opens a conflict stands at the position. -/
def opensConflict (text : Array Char) (pos : Nat) : Bool := hasCharAt text pos '<' && isConflictMarker text pos

theorem opensConflict_eq (h : TextAt text pos cs) :
    opensConflict text pos = (isLineStart text pos && openingMarks.isPrefixOf cs) := by
  rw [Bool.eq_iff_iff, opensConflict, Bool.and_eq_true, Bool.and_eq_true, List.isPrefixOf_iff_prefix]
  constructor
  · rintro ⟨hangle, hmarker⟩
    exact prefix_of_isConflictMarker h (beq_iff_eq.mp hangle) (by decide) hmarker
  · rintro ⟨hline, rest, rfl⟩
    rw [openingMarks, List.append_assoc] at h
    refine ⟨?_, isConflictMarker_of_textAt h hline (by decide) (.inr rfl)⟩
    rw [hasCharAt, h.head?]
    rfl

/-- A marker that opens a conflict hides the line that it starts. -/
theorem conflictMarkerEnd_of_opensConflict (h : opensConflict text pos = true) :
    conflictMarkerEnd text pos = lineEnd text pos := by
  have hangle : text[pos]? = some '<' := beq_iff_eq.mp (Bool.and_eq_true_iff.mp h).1
  simp only [conflictMarkerEnd, hangle]
  exact lineEnd_succ hangle (by decide)

/-- The line that a marker hides: the marks are on it, and it goes on up to a line terminator. -/
theorem exists_hiddenLine (h : TextAt text pos cs) (hopens : opensConflict text pos = true) :
    ∃ line rest, cs = line ++ rest ∧ openingMarks <+: line ∧ (∀ c ∈ line, isLineBreak c = false)
      ∧ (∀ c ∈ rest.head?, isLineBreak c = true) ∧ conflictMarkerEnd text pos = pos + line.length := by
  have hhides := conflictMarkerEnd_of_opensConflict hopens
  rw [opensConflict_eq h, Bool.and_eq_true, List.isPrefixOf_iff_prefix] at hopens
  obtain ⟨-, more, rfl⟩ := hopens
  let onLine (c : Char) : Bool := !isLineBreak c
  have hmarks : (openingMarks ++ more).takeWhile onLine = openingMarks ++ more.takeWhile onLine := by
    apply List.takeWhile_append_of_pos
    intro c hc
    simp [onLine, isLineBreak_of_mem_openingMarks hc]
  have hline : ∀ c ∈ openingMarks ++ more.takeWhile onLine, isLineBreak c = false := by
    intro c hc
    rw [← hmarks] at hc
    simpa [onLine] using List.mem_takeWhile_imp hc
  have hrest : ∀ c ∈ (more.dropWhile onLine).head?, isLineBreak c = true := by
    intro c hc
    have hstop := List.head?_dropWhile_not onLine more
    rw [hc] at hstop
    simpa [onLine] using hstop
  have hcut : openingMarks ++ more = (openingMarks ++ more.takeWhile onLine) ++ more.dropWhile onLine := by
    rw [List.append_assoc, List.takeWhile_append_dropWhile]
  rw [hcut] at h ⊢
  refine ⟨_, _, rfl, List.prefix_append _ _, hline, hrest, ?_⟩
  rw [hhides, h.lineEnd_eq hline hrest]

/-! ## 2. White space -/

/-- White space with a line break in it. -/
structure WhiteAcrossLines (cs : List Char) : Prop where
  white : ∀ c ∈ cs, isWhiteSpaceLike c = true
  acrossLines : ∃ c ∈ cs, isLineBreak c = true

/-- What is met by then and the characters that follow are white space with a line break in it. -/
def WhiteBehind (seenText seenBreak : Bool) (cs : List Char) : Prop :=
  seenText = false ∧ (∀ c ∈ cs, isWhiteSpaceLike c = true) ∧ (seenBreak = true ∨ ∃ c ∈ cs, isLineBreak c = true)

theorem whiteBehind_start : WhiteBehind false false cs ↔ WhiteAcrossLines cs := by
  constructor
  · rintro ⟨-, hwhite, hbreak⟩
    exact ⟨hwhite, hbreak.resolve_left Bool.false_ne_true⟩
  · intro h
    exact ⟨rfl, h.white, .inr h.acrossLines⟩

theorem whiteBehind_nil (seen : seenText = true → seenBreak = false) :
    WhiteBehind seenText seenBreak [] ↔ seenBreak = true := by
  cases seenText <;> simp_all [WhiteBehind]

theorem whiteBehind_break (hc : isLineBreak c = true) (cs : List Char) :
    WhiteBehind false seenBreak (c :: cs) ↔ WhiteBehind false true cs := by
  simp [WhiteBehind, isWhiteSpaceLike, hc]

theorem whiteBehind_text (hc : isWhiteSpaceLike c = false) (seenText seenBreak : Bool) (cs : List Char) :
    WhiteBehind seenText seenBreak (c :: cs) ↔ WhiteBehind true false cs := by
  simp [WhiteBehind, hc]

theorem whiteBehind_space (hc : isWhiteSpaceLike c = true) (hbreak : isLineBreak c = true → seenText = true)
    (cs : List Char) : WhiteBehind seenText seenBreak (c :: cs) ↔ WhiteBehind seenText seenBreak cs := by
  cases seenText with
  | true => simp [WhiteBehind]
  | false =>
    have hnone : isLineBreak c = false := by simpa using hbreak
    simp [WhiteBehind, hc, hnone]

namespace Token

/-- The text goes on over a line that opens a conflict. -/
theorem le_stop_jsxTextFrom (seenText seenBreak : Bool) (errors : List ScanError) (h : opensConflict text pos = true) :
    conflictMarkerEnd text pos ≤ (jsxTextFrom text seenText seenBreak errors pos).stop := by
  obtain ⟨hangle, hmarker⟩ := Bool.and_eq_true_iff.mp h
  have hlt := lt_size_of_hasCharAt hangle
  have hc : text[pos] = '<' := (Array.getElem?_eq_some_iff.mp (beq_iff_eq.mp hangle)).2
  rw [jsxTextFrom]
  simp only [hlt, ↓reduceDIte, hc, hmarker]
  exact (jsxTextFrom_bounds _ _ _ (conflictMarkerEnd_le_size hlt)).1

/-- One character more. -/
theorem withoutMarkers_step (h : TextAt text pos (c :: (v ++ rest))) (hc : c ≠ '<') {errors : List ScanError}
    (hstop : (jsxTextFrom text seenText seenBreak errors (pos + 1)).stop = pos + 1 + v.length) :
    withoutMarkers (opensConflict text pos) (c :: v) = c :: withoutMarkers (opensConflict text (pos + 1)) v := by
  have hnone : opensConflict text pos = false := by
    simp [opensConflict, h.hasCharAt_eq, hc]
  have hnext : opensConflict text (pos + 1) = (isLineBreak c && openingMarks.isPrefixOf v) := by
    have hline : isLineStart text (pos + 1) = isLineBreak c := isLineStart_of_eq_some h.head
    rw [Bool.eq_iff_iff, Bool.and_eq_true, List.isPrefixOf_iff_prefix]
    constructor
    · intro hopens
      -- the text goes on over the line of the marker, so all of the marks are in it
      obtain ⟨line, behind, hcs, hmarks, -, -, hend⟩ := exists_hiddenLine h.tail hopens
      have hle := le_stop_jsxTextFrom seenText seenBreak errors hopens
      rw [opensConflict_eq h.tail, hline, Bool.and_eq_true] at hopens
      refine ⟨hopens.1, hmarks.trans ?_⟩
      apply List.prefix_of_prefix_length_le _ (List.prefix_append v rest) (by omega)
      rw [hcs]
      exact List.prefix_append line behind
    · rintro ⟨hbreak, hmarks⟩
      rw [opensConflict_eq h.tail, hline, hbreak, Bool.true_and, List.isPrefixOf_iff_prefix]
      exact hmarks.trans (List.prefix_append v rest)
  rw [hnone, hnext, withoutMarkers_cons]

end Token

/-- The lexeme is a stretch of text, and its kind says whether that and what was met before are white space
with a line break, the lines apart that open a conflict. -/
def Lexeme.TellsWhite (text : Array Char) (seenText seenBreak : Bool) (pos : Nat) (l : Lexeme) : Prop :=
  ∃ v rest, TextAt text pos (v ++ rest) ∧ l.stop = pos + v.length
    ∧ (l.kind = .literal .jsxTextAllWhiteSpaces
      ↔ WhiteBehind seenText seenBreak (withoutMarkers (opensConflict text pos) v))

namespace Token

variable {errors : List ScanError}

theorem tellsWhite_done (seen : seenText = true → seenBreak = false) (errors : List ScanError) (pos : Nat) :
    (jsxTextFrom.done seenBreak errors pos).TellsWhite text seenText seenBreak pos := by
  refine ⟨[], text.toList.drop pos, rfl, rfl, ?_⟩
  rw [withoutMarkers, whiteBehind_nil seen]
  cases seenBreak <;> simp [jsxTextFrom.done]

/-- A character that opens no tag is taken into account with what was met before. -/
theorem tellsWhite_char {seenText' seenBreak' : Bool} (hlt : pos < text.size) (hc : text[pos] ≠ '<')
    (hmet : ∀ cs, WhiteBehind seenText seenBreak (text[pos] :: cs) ↔ WhiteBehind seenText' seenBreak' cs)
    (h : (jsxTextFrom text seenText' seenBreak' errors (pos + 1)).TellsWhite text seenText' seenBreak' (pos + 1)) :
    (jsxTextFrom text seenText' seenBreak' errors (pos + 1)).TellsWhite text seenText seenBreak pos := by
  obtain ⟨v, rest, hat, hstop, hkind⟩ := h
  have hwhole : TextAt text pos (text[pos] :: (v ++ rest)) := by
    rw [TextAt, ← hat, ← Array.getElem_toList, ← List.drop_eq_getElem_cons]
  refine ⟨text[pos] :: v, rest, hwhole, ?_, ?_⟩
  · rw [hstop, List.length_cons]
    omega
  · rw [withoutMarkers_step hwhole hc hstop, hmet]
    exact hkind

/-- A line that opens a conflict is not taken into account. -/
theorem tellsWhite_marker {l : Lexeme} (hopens : opensConflict text pos = true)
    (h : l.TellsWhite text seenText seenBreak (conflictMarkerEnd text pos)) :
    l.TellsWhite text seenText seenBreak pos := by
  obtain ⟨line, rest, hcs, -, hline, hrest, hend⟩ := exists_hiddenLine (rfl : TextAt text pos _) hopens
  obtain ⟨v, more, hat, hstop, hkind⟩ := h
  have hwhole : TextAt text pos (line ++ rest) := hcs
  rw [hend] at hat
  obtain rfl : rest = v ++ more := hwhole.skip.symm.trans hat
  refine ⟨line ++ v, more, ?_, ?_, ?_⟩
  · rwa [List.append_assoc]
  · rw [hstop, hend, List.length_append, Nat.add_assoc]
  · have hbreak : ∀ c ∈ v.head?, isLineBreak c = true := by
      intro c hc
      apply hrest c
      simp [Option.mem_def.mp hc]
    rw [hopens, withoutMarkers_append hline, withoutMarkers_lineEnd hbreak]
    exact hkind

theorem tellsWhite_jsxTextFrom (seen : seenText = true → seenBreak = false) (errors : List ScanError) (pos : Nat) :
    (jsxTextFrom text seenText seenBreak errors pos).TellsWhite text seenText seenBreak pos := by
  fun_induction jsxTextFrom text seenText seenBreak errors pos with
  | case1 seenText seenBreak errors pos hlt c hc => exact tellsWhite_done seen errors pos
  | case2 seenText seenBreak errors pos hlt c hc hangle hmarker ih =>
    refine tellsWhite_marker ?_ (ih seen)
    simpa [opensConflict, hasCharAt, hlt, hmarker] using hangle
  | case3 seenText seenBreak errors pos hlt c hc hangle hmarker => exact tellsWhite_done seen errors pos
  | case4 seenText seenBreak errors pos hlt c hc hangle hbreak ih =>
    obtain ⟨hline, hnone⟩ := Bool.and_eq_true_iff.mp hbreak
    obtain rfl : seenText = false := by simpa using hnone
    refine tellsWhite_char hlt (by simpa using hangle) (whiteBehind_break hline) (ih ?_)
    intro htext
    cases htext
  | case5 seenText seenBreak errors pos hlt c hc hangle hbreak htext ih =>
    have htext : isWhiteSpaceLike c = false := by simpa using htext
    exact tellsWhite_char hlt (by simpa using hangle) (whiteBehind_text htext _ _) (ih fun _ => rfl)
  | case6 seenText seenBreak errors pos hlt c hc hangle hbreak hspace ih =>
    have hspace : isWhiteSpaceLike c = true := by simpa using hspace
    have hseen : isLineBreak c = true → seenText = true := by
      intro hline
      simpa [hline] using hbreak
    exact tellsWhite_char hlt (by simpa using hangle) (whiteBehind_space hspace hseen) (ih seen)
  | case7 seenText seenBreak errors pos hlt => exact tellsWhite_done seen errors pos

/-! ## 3. Tokens -/

/-- A token of text starts with neither a tag nor a brace, and its value is all that it stands for. -/
theorem scanJsxAt_of_isJsxText (h : (scanJsxAt text pos).1.kind.isJsxText = true) :
    opensConflict text pos = false
      ∧ (scanJsxAt text pos).1.kind = (jsxTextFrom text false false [] pos).kind
      ∧ (scanJsxAt text pos).1.value = sliceOf text pos (jsxTextFrom text false false [] pos).stop := by
  cases hat : text[pos]? with
  | none => simp [scanJsxAt, hat, Kind.isJsxText] at h
  | some c =>
    have hscan : (scanJsxAt text pos).1.kind = (jsxLexemeAt text pos c).kind
        ∧ (scanJsxAt text pos).1.value = (jsxLexemeAt text pos c).value := by
      simp [scanJsxAt, hat, Lexeme.toToken]
    rw [hscan.1] at h
    by_cases hangle : c = '<'
    · subst hangle
      simp only [jsxLexemeAt, beq_self_eq_true, if_true] at h
      split at h <;> cases h
    by_cases hbrace : c = '{'
    · subst hbrace
      cases h
    · have hlexeme : jsxLexemeAt text pos c = { jsxTextFrom text false false [] pos with
          value := sliceOf text pos (jsxTextFrom text false false [] pos).stop } := by
        simp [jsxLexemeAt, hangle, hbrace]
      refine ⟨?_, ?_, ?_⟩
      · simp [opensConflict, hasCharAt, hat, hangle]
      · rw [hscan.1, hlexeme]
      · rw [hscan.2, hlexeme]

theorem kind_scanJsxAt_iff (h : (scanJsxAt text pos).1.kind.isJsxText = true) :
    (scanJsxAt text pos).1.kind = .literal .jsxTextAllWhiteSpaces
      ↔ WhiteAcrossLines (withoutMarkers false (scanJsxAt text pos).1.value.toList) := by
  obtain ⟨hopens, hkind, hvalue⟩ := scanJsxAt_of_isJsxText h
  obtain ⟨v, rest, hat, hstop, hwhite⟩ := tellsWhite_jsxTextFrom (fun _ => rfl) [] pos
  have hchars : (scanJsxAt text pos).1.value.toList = v := by
    rw [hvalue, hstop, hat.slice, String.toList_ofList]
  rw [hkind, hwhite, hopens, hchars]
  exact whiteBehind_start

/-- Where no tag opens, the value is taken as it stands. -/
theorem kind_scanJsxAt_of_notMem (h : (scanJsxAt text pos).1.kind.isJsxText = true)
    (hangle : '<' ∉ (scanJsxAt text pos).1.value.toList) :
    (scanJsxAt text pos).1.kind = .literal .jsxTextAllWhiteSpaces
      ↔ WhiteAcrossLines (scanJsxAt text pos).1.value.toList := by
  rw [kind_scanJsxAt_iff h, withoutMarkers_of_notMem hangle]

/-- **White space between tags.**  A token of text is all white space exactly if its value is white space
with a line break in it once the lines that open a conflict are left out. Otherwise it is text. -/
theorem kind_scanJsxAt_of_isJsxText (text : Array Char) (pos : Nat)
    (h : (scanJsxAt text pos).1.kind.isJsxText = true) :
    ((scanJsxAt text pos).1.kind = .literal .jsxTextAllWhiteSpaces
        ↔ WhiteAcrossLines (withoutMarkers false (scanJsxAt text pos).1.value.toList))
      ∧ ((scanJsxAt text pos).1.kind = .literal .jsxText
        ↔ ¬WhiteAcrossLines (withoutMarkers false (scanJsxAt text pos).1.value.toList)) := by
  refine ⟨kind_scanJsxAt_iff h, ?_⟩
  rw [← kind_scanJsxAt_iff h]
  rcases Kind.eq_of_isJsxText h with htext | hwhite
  · simp [htext]
  · simp [hwhite]

/-- What opens a conflict, with a brace on its line, between two line breaks. -/
def conflictLine : Array Char := ('\n' :: openingMarks ++ ['{', '\n']).toArray

/-- Marks are no text, and neither is the brace on their line. -/
theorem kind_scanJsxAt_conflictLine : (scanJsxAt conflictLine 0).1.kind.isJsxText = true
    ∧ (scanJsxAt conflictLine 0).1.kind = .literal .jsxTextAllWhiteSpaces := by
  have htext : (scanJsxAt conflictLine 0).1.kind.isJsxText = true := by decide +kernel
  have hleft : withoutMarkers false (scanJsxAt conflictLine 0).1.value.toList = ['\n', '\n'] := by decide +kernel
  refine ⟨htext, (kind_scanJsxAt_of_isJsxText conflictLine 0 htext).1.mpr ?_⟩
  rw [hleft]
  constructor
  · intro c hc
    obtain rfl : c = '\n' := by simpa using hc
    decide
  · exact ⟨'\n', List.mem_cons_self, by decide⟩

/-- The value as it stands does not tell what kind it is: marks are in it, and they are not white. -/
theorem not_whiteAcrossLines_conflictLine : (scanJsxAt conflictLine 0).1.kind.isJsxText = true
    ∧ ¬((scanJsxAt conflictLine 0).1.kind = .literal .jsxTextAllWhiteSpaces
      ↔ WhiteAcrossLines (scanJsxAt conflictLine 0).1.value.toList) := by
  have hkind : (scanJsxAt conflictLine 0).1.kind = .literal .jsxTextAllWhiteSpaces := by decide +kernel
  have hangle : '<' ∈ (scanJsxAt conflictLine 0).1.value.toList := by decide +kernel
  constructor
  · rw [hkind]
    rfl
  · intro hiff
    have hwhite := (hiff.mp hkind).white '<' hangle
    exact absurd hwhite (by decide)

end Token

end ScriptSyntax
