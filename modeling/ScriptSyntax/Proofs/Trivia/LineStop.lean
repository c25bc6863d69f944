/-
  ScriptSyntax/Proofs/Trivia/LineStop.lean
  ========================================
  Skipping trivia up to the end of a line.

  A search for the next token goes over pieces of trivia, and it can be told to stop behind the
  first line break.  It does so at line feeds and carriage returns only: the separators U+2028 and
  U+2029, which end lines too, are gone over as white space is.  So it stops where it is told to
  unless the first line break on its way is a separator with more trivia behind it.
-/
import Mathlib.Data.List.Chain
import ScriptSyntax.Proofs.Trivia.Gap
import ScriptSyntax.Proofs.Trivia.Path

namespace ScriptSyntax

variable {text : Array Char} {stopAfterLineBreak stopAtComments : Bool} {pos next k : Nat} {c : Char}

/-! ## 1. Line breaks -/

/-- Line feeds and carriage returns, the line breaks at which a search can be told to stop. -/
def isFeed (c : Char) : Bool := c == '\r' || c == '\n'

/-- The other line breaks. -/
def isSeparator (c : Char) : Bool := c == '\u2028' || c == '\u2029'

theorem isLineBreak_eq (c : Char) : isLineBreak c = (isFeed c || isSeparator c) := by
  simp only [isLineBreak, isFeed, isSeparator]
  grind

theorem isLineBreak_of_isFeed (c : Char) (h : isFeed c = true) : isLineBreak c = true := by
  simp [isLineBreak_eq, h]

theorem lineBreakEnd_of_not_feed (hc : text[pos]? = some c) (h : isFeed c = false) :
    lineBreakEnd text pos = pos + 1 := by
  refine lineBreakEnd_of_single hc ?_
  rintro rfl
  cases h

/-! ## 2. Pieces -/

/-- Where the piece of trivia ends that starts at the position, if one does. -/
def triviaEnd? (text : Array Char) (pos : Nat) : Option Nat :=
  if isShebang text pos then some (shebangEnd text pos)
  else if text[pos]?.any isLineBreak then some (lineBreakEnd text pos)
  else if text[pos]?.any isSingleLineSpace then some (pos + 1)
  else if hasCharAt text pos '/' && hasCharAt text (pos + 1) '/' then some (lineEnd text (pos + 2))
  else if hasCharAt text pos '/' && hasCharAt text (pos + 1) '*' then
    some (blockCommentEnd text (pos + 2))
  else if isConflictMarker text pos then some (conflictMarkerEnd text pos)
  else none

/-- Comments are no pieces for a search that stops at them. -/
def pieceEnd? (text : Array Char) (stopAtComments : Bool) (pos : Nat) : Option Nat :=
  if stopAtComments && hasCharAt text pos '/' then none else triviaEnd? text pos

theorem pieceEnd?_eq_some_iff : pieceEnd? text stopAtComments pos = some next
    ↔ (stopAtComments && hasCharAt text pos '/') = false ∧ triviaEnd? text pos = some next := by
  simp [pieceEnd?]

theorem pieceEnd?_eq_none_iff : pieceEnd? text stopAtComments pos = none
    ↔ (stopAtComments && hasCharAt text pos '/') = true ∨ triviaEnd? text pos = none := by
  unfold pieceEnd?
  split <;> simp [*]

/-- The pieces are those that a run over trivia goes over. -/
theorem triviaStep_of_triviaEnd? (h : triviaEnd? text pos = some next) :
    ∃ errors, TriviaStep text pos errors next := by
  revert h
  fun_cases triviaEnd? text pos with
  | case1 shebang =>
    rintro ⟨⟩
    exact ⟨_, .shebang shebang⟩
  | case2 _ lineBreak =>
    rintro ⟨⟩
    obtain ⟨c, hc, hbreak⟩ := (Option.any_eq_true _ _).mp lineBreak
    exact ⟨_, .lineBreak hc hbreak⟩
  | case3 _ _ space =>
    rintro ⟨⟩
    obtain ⟨c, hc, hspace⟩ := (Option.any_eq_true _ _).mp space
    exact ⟨_, .space hc hspace⟩
  | case4 _ _ _ line =>
    rintro ⟨⟩
    obtain ⟨slash, second⟩ := Bool.and_eq_true_iff.mp line
    exact ⟨_, .lineComment slash second⟩
  | case5 _ _ _ _ block =>
    rintro ⟨⟩
    obtain ⟨slash, star⟩ := Bool.and_eq_true_iff.mp block
    exact ⟨_, .blockComment slash star⟩
  | case6 _ _ _ _ _ marker =>
    rintro ⟨⟩
    exact ⟨_, .conflictMarker marker⟩
  | case7 => rintro ⟨⟩

theorem noTrivia_of_triviaEnd? (h : triviaEnd? text pos = none) :
    isShebang text pos = false ∧ NoTrivia text pos := by
  revert h
  fun_cases triviaEnd? text pos with
  | case7 noShebang noBreak noSpace noLine noBlock noMarker =>
    intro
    refine ⟨by simpa using noShebang, ?_, ?_, by simpa using noMarker⟩
    · intro c hc
      simp only [hc, Option.any_some, Bool.not_eq_true] at noBreak noSpace
      simp [isWhiteSpaceLike, noBreak, noSpace]
    · intro hslash
      simpa [hslash] using And.intro noLine noBlock
  | _ => rintro ⟨⟩

theorem pieceEnd?_bounds (h : pieceEnd? text stopAtComments pos = some next) :
    pos < next ∧ pos < text.size ∧ next ≤ text.size := by
  obtain ⟨errors, hpiece⟩ := triviaStep_of_triviaEnd? (pieceEnd?_eq_some_iff.mp h).2
  exact hpiece.bounds

/-! ## 3. Single steps -/

/-- Where no piece starts, a search is at its end. -/
theorem skipTrivia_of_pieceEnd?_eq_none (h : pieceEnd? text stopAtComments pos = none) :
    skipTrivia text pos stopAfterLineBreak stopAtComments = pos := by
  rcases pieceEnd?_eq_none_iff.mp h with hcomment | hnone
  · obtain ⟨rfl, hslash⟩ := Bool.and_eq_true_iff.mp hcomment
    have hc : text[pos]? = some '/' := beq_iff_eq.mp hslash
    have hshebang := isShebang_of_char hc (by decide)
    have hmarker : isConflictMarker text pos = false := by
      apply isConflictMarker_of_isMarkerChar
      intro d hd
      obtain rfl : '/' = d := Option.some.inj (hc.symm.trans hd)
      decide
    obtain ⟨hlt, hat⟩ := Array.getElem?_eq_some_iff.mp hc
    rw [skipTrivia, if_neg (by simp [hshebang]), skipTriviaFrom, dif_pos hlt]
    simp [hat, hmarker, show isWhiteSpaceLike '/' = false by decide]
  · obtain ⟨hshebang, hnone⟩ := noTrivia_of_triviaEnd? hnone
    simp [skipTrivia, hshebang, skipTriviaFrom_of_noTrivia hnone]

/-- A search that stops behind line breaks does so at line feeds and carriage returns. -/
theorem skipTrivia_of_feed (h : text[pos]?.any isFeed = true) :
    skipTrivia text pos true stopAtComments = lineBreakEnd text pos := by
  obtain ⟨c, hc, hfeed⟩ := (Option.any_eq_true _ _).mp h
  have hshebang : isShebang text pos = false := isShebang_of_class (by decide) hc hfeed
  obtain ⟨hlt, rfl⟩ := Array.getElem?_eq_some_iff.mp hc
  rw [skipTrivia, if_neg (by simp [hshebang]), skipTriviaFrom, dif_pos hlt]
  simp only [isFeed] at hfeed
  simp [hfeed]

/-- Any other piece is gone over. -/
theorem skipTrivia_of_pieceEnd? (h : pieceEnd? text stopAtComments pos = some next)
    (hfeed : stopAfterLineBreak = true → text[pos]?.any isFeed = false) :
    skipTrivia text pos stopAfterLineBreak stopAtComments
      = skipTrivia text next stopAfterLineBreak stopAtComments := by
  obtain ⟨hcomment, hend⟩ := pieceEnd?_eq_some_iff.mp h
  obtain ⟨errors, hpiece⟩ := triviaStep_of_triviaEnd? hend
  obtain ⟨hlt, hsize, -⟩ := hpiece.bounds
  have hnext : 0 < next := Nat.zero_lt_of_lt hlt
  have hat {c : Char} (hc : text[pos]? = some c) : text[pos] = c :=
    (Array.getElem?_eq_some_iff.mp hc).2
  cases hpiece with
  | shebang line =>
    rw [skipTrivia_of_pos _ _ hnext]
    simp [skipTrivia, line]
  | lineBreak char terminator =>
    have hshebang := isShebang_of_class (by decide) char terminator
    refine skipTrivia_step (by simp [hshebang]) hnext ?_
    obtain rfl := hat char
    cases feed : isFeed text[pos] with
    | true =>
      -- a search that goes on here is none that stops behind line breaks
      obtain rfl : stopAfterLineBreak = false := by simpa [char, feed] using hfeed
      exact skipTriviaFrom_lineBreak hsize terminator
    | false =>
      rw [lineBreakEnd_of_not_feed char feed]
      exact skipTriviaFrom_whiteSpace hsize (by simp [isWhiteSpaceLike, terminator]) feed
  | space char white =>
    have hshebang := isShebang_of_class (by decide) char white
    obtain rfl := hat char
    refine skipTrivia_step (by simp [hshebang]) hnext (skipTriviaFrom_space hsize white ?_)
    exact isLineBreak_of_class (by decide) white
  | lineComment slash second =>
    obtain rfl : stopAtComments = false := by simpa [slash] using hcomment
    have hslash : text[pos]? = some '/' := beq_iff_eq.mp slash
    have hshebang := isShebang_of_char hslash (by decide)
    refine skipTrivia_step (by simp [hshebang]) hnext (skipTriviaFrom_lineComment hsize ?_)
    simp [hat hslash, second]
  | blockComment slash star =>
    obtain rfl : stopAtComments = false := by simpa [slash] using hcomment
    have hslash : text[pos]? = some '/' := beq_iff_eq.mp slash
    have hshebang := isShebang_of_char hslash (by decide)
    refine skipTrivia_step (by simp [hshebang]) hnext (skipTriviaFrom_blockComment hsize ?_)
    simp [hat hslash, star]
  | conflictMarker marker =>
    have hchar := isMarkerChar_of_isConflictMarker hsize marker
    have hshebang := isShebang_of_class (by decide) (Array.getElem?_eq_getElem hsize) hchar
    exact skipTrivia_step (by simp [hshebang]) hnext (skipTriviaFrom_conflictMarker hsize marker)

/-- A search that nothing stops goes over every piece. -/
theorem skipTrivia_next (h : pieceEnd? text stopAtComments pos = some next) :
    skipTrivia text pos false stopAtComments = skipTrivia text next false stopAtComments :=
  skipTrivia_of_pieceEnd? h fun hstop => absurd hstop Bool.false_ne_true

/-- A search gets behind the start of a piece. -/
theorem lt_skipTrivia_of_pieceEnd? (h : pieceEnd? text stopAtComments pos = some next) :
    pos < skipTrivia text pos true stopAtComments := by
  cases hfeed : text[pos]?.any isFeed with
  | true =>
    rw [skipTrivia_of_feed hfeed]
    exact lt_lineBreakEnd text pos
  | false =>
    rw [skipTrivia_of_pieceEnd? h (fun _ => hfeed)]
    exact Nat.lt_of_lt_of_le (pieceEnd?_bounds h).1 (le_skipTrivia true stopAtComments)

/-! ## 4. The walk -/

/-- Where the pieces start, from the position on. -/
def pieceStarts (text : Array Char) (stopAtComments : Bool) (pos : Nat) : List Nat :=
  match h : pieceEnd? text stopAtComments pos with
  | none => []
  | some next =>
    have := pieceEnd?_bounds h
    pos :: pieceStarts text stopAtComments next
termination_by text.size - pos

/-- Pieces stand one behind the other, from the position to one where none starts. -/
structure IsWalk (text : Array Char) (stopAtComments : Bool) (pos : Nat) (starts : List Nat) (stop : Nat) :
    Prop where
  head : (starts ++ [stop]).head? = some pos
  pieces : (starts ++ [stop]).IsChain (fun k next => pieceEnd? text stopAtComments k = some next)
  halts : pieceEnd? text stopAtComments stop = none

/-- A search that nothing stops walks over the pieces to their end. -/
theorem isWalk_pieceStarts (text : Array Char) (stopAtComments : Bool) (pos : Nat) :
    IsWalk text stopAtComments pos (pieceStarts text stopAtComments pos)
      (skipTrivia text pos false stopAtComments) := by
  fun_induction pieceStarts text stopAtComments pos with
  | case1 pos h =>
    rw [skipTrivia_of_pieceEnd?_eq_none h]
    exact ⟨rfl, .singleton _, h⟩
  | case2 pos next h bounds ih =>
    rw [skipTrivia_next h]
    refine ⟨rfl, List.isChain_cons.mpr ⟨?_, ih.pieces⟩, ih.halts⟩
    intro k hk
    obtain rfl : next = k := Option.some.inj (ih.head.symm.trans hk)
    exact h

/-- The first piece on the way of a search that starts with a character of the class. -/
def firstPiece? (text : Array Char) (stopAtComments : Bool) (isStart : Char → Bool) (pos : Nat) :
    Option Nat :=
  (pieceStarts text stopAtComments pos).find? (fun k => text[k]?.any isStart)

/-- Where a search comes to that stops behind the first line break of the class, and at its end if it
meets none. -/
def stopBehindFirst (text : Array Char) (stopAtComments : Bool) (isStop : Char → Bool) (pos : Nat) :
    Nat :=
  match firstPiece? text stopAtComments isStop pos with
  | some k => lineBreakEnd text k
  | none => skipTrivia text pos false stopAtComments

/-- Up to the first piece that starts with one of some characters, feeds among them, it makes no
difference whether a search stops behind line breaks. -/
theorem skipTrivia_firstPiece? (text : Array Char) (stopAtComments : Bool) {isStart : Char → Bool}
    (hstart : ∀ c, isFeed c = true → isStart c = true) (pos : Nat) :
    skipTrivia text pos true stopAtComments
      = match firstPiece? text stopAtComments isStart pos with
        | some k => skipTrivia text k true stopAtComments
        | none => skipTrivia text pos false stopAtComments := by
  unfold firstPiece?
  fun_induction pieceStarts text stopAtComments pos with
  | case1 pos h => simp [skipTrivia_of_pieceEnd?_eq_none h]
  | case2 pos next h bounds ih =>
    cases hat : text[pos]?.any isStart with
    | true => simp [hat]
    | false =>
      have hfeed : text[pos]?.any isFeed = false := by
        apply Bool.eq_false_iff.mpr
        intro hfeed
        obtain ⟨c, hc, hfeed⟩ := (Option.any_eq_true _ _).mp hfeed
        simp [hc, hstart c hfeed] at hat
      simp only [List.find?_cons, hat]
      rw [skipTrivia_next h, skipTrivia_of_pieceEnd? h (fun _ => hfeed)]
      exact ih

theorem any_of_firstPiece? {isStart : Char → Bool}
    (h : firstPiece? text stopAtComments isStart pos = some k) : text[k]?.any isStart = true := by
  simpa using List.find?_some h

/-- Behind a separator a search goes on, as far as there are pieces. -/
theorem skipTrivia_of_separator (h : text[pos]?.any isSeparator = true) :
    skipTrivia text pos true stopAtComments = lineBreakEnd text pos
      ↔ pieceEnd? text stopAtComments (pos + 1) = none := by
  obtain ⟨c, hc, hseparator⟩ := (Option.any_eq_true _ _).mp h
  have hfeed : isFeed c = false := by
    simp only [isSeparator, Bool.or_eq_true, beq_iff_eq] at hseparator
    rcases hseparator with rfl | rfl <;> decide
  have hpiece : pieceEnd? text stopAtComments pos = some (pos + 1) := by
    have hbreak : isLineBreak c = true := by simp [isLineBreak_eq, hseparator]
    have hslash : hasCharAt text pos '/' = false := by
      simp only [hasCharAt, hc, beq_eq_false_iff_ne, ne_eq, Option.some_inj]
      rintro rfl
      cases hseparator
    have hshebang := isShebang_of_class (by decide) hc hseparator
    simp [pieceEnd?, triviaEnd?, hslash, hshebang, hc, hbreak, lineBreakEnd_of_not_feed hc hfeed]
  rw [skipTrivia_of_pieceEnd? hpiece (by simp [hc, hfeed]), lineBreakEnd_of_not_feed hc hfeed]
  cases hnext : pieceEnd? text stopAtComments (pos + 1) with
  | none => simp [skipTrivia_of_pieceEnd?_eq_none hnext]
  | some next => simp [Nat.ne_of_gt (lt_skipTrivia_of_pieceEnd? hnext)]

/-- **Stopping behind line breaks.**  Where a search that nothing stops walks over pieces of trivia, one
that is told to stop behind the first line break stops behind the first line feed or carriage return
that starts a piece on the walk, and at the end of the walk if there is none.  So it stops behind the
first line break of any kind exactly unless that is one of the separators and a further piece starts
behind it. -/
theorem skipTrivia_stopBehindFirst (text : Array Char) (pos : Nat) (stopAtComments : Bool) :
    IsWalk text stopAtComments pos (pieceStarts text stopAtComments pos)
        (skipTrivia text pos false stopAtComments)
      ∧ skipTrivia text pos true stopAtComments = stopBehindFirst text stopAtComments isFeed pos
      ∧ (skipTrivia text pos true stopAtComments = stopBehindFirst text stopAtComments isLineBreak pos
        ↔ ∀ k, firstPiece? text stopAtComments isLineBreak pos = some k →
            text[k]?.any isSeparator = true → pieceEnd? text stopAtComments (k + 1) = none) := by
  have hfeeds := skipTrivia_firstPiece? text stopAtComments (fun _ hfeed => hfeed) pos
  have hbreaks := skipTrivia_firstPiece? text stopAtComments isLineBreak_of_isFeed pos
  refine ⟨isWalk_pieceStarts text stopAtComments pos, ?_, ?_⟩
  · rw [hfeeds, stopBehindFirst]
    cases hfirst : firstPiece? text stopAtComments isFeed pos with
    | none => rfl
    | some k => exact skipTrivia_of_feed (any_of_firstPiece? hfirst)
  · rw [hbreaks, stopBehindFirst]
    cases hfirst : firstPiece? text stopAtComments isLineBreak pos with
    | none => simp
    | some k =>
      cases hseparator : text[k]?.any isSeparator with
      | true => simp [skipTrivia_of_separator hseparator, hseparator]
      | false =>
        have hfeed : text[k]?.any isFeed = true := by
          obtain ⟨c, hc, hbreak⟩ := (Option.any_eq_true _ _).mp (any_of_firstPiece? hfirst)
          rw [hc, Option.any_some] at hseparator ⊢
          simpa [isLineBreak_eq, hseparator] using hbreak
        simp [skipTrivia_of_feed hfeed, hseparator]

end ScriptSyntax
