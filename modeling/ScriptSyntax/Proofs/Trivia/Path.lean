/-
  ScriptSyntax/Proofs/Trivia/Path.lean
  ====================================
  Trivia before a token, one piece after the other.

  A run over trivia goes over one piece at a time and keeps what it has noted.  Where its pieces
  are known, so is where it stops and which errors it meets, whatever was noted before it.
-/
import ScriptSyntax.Proofs.Token.Closed

namespace ScriptSyntax

variable {text : Array Char} {p q r : Nat} {c : Char} {errors later : List ScanError}

/-! ## 1. Steps -/

/-- A piece of trivia starts at the first position and ends at the second one, with the given errors. -/
inductive TriviaStep (text : Array Char) : Nat → List ScanError → Nat → Prop
  | shebang {p : Nat} (line : isShebang text p = true) : TriviaStep text p [] (shebangEnd text p)
  | lineBreak {p : Nat} {c : Char} (char : text[p]? = some c) (terminator : isLineBreak c = true) :
      TriviaStep text p [] (lineBreakEnd text p)
  | space {p : Nat} {c : Char} (char : text[p]? = some c) (white : isSingleLineSpace c = true) :
      TriviaStep text p [] (p + 1)
  | lineComment {p : Nat} (slash : hasCharAt text p '/' = true)
      (second : hasCharAt text (p + 1) '/' = true) : TriviaStep text p [] (lineEnd text (p + 2))
  | blockComment {p : Nat} (slash : hasCharAt text p '/' = true)
      (star : hasCharAt text (p + 1) '*' = true) :
      TriviaStep text p (blockCommentErrors text (p + 2)) (blockCommentEnd text (p + 2))
  | conflictMarker {p : Nat} (marker : isConflictMarker text p = true) :
      TriviaStep text p [⟨.mergeConflictMarker, p, conflictMarkerLength⟩] (conflictMarkerEnd text p)

/-- A piece takes room, and it starts in the text. -/
theorem TriviaStep.bounds (h : TriviaStep text p errors q) :
    p < q ∧ p < text.size ∧ q ≤ text.size := by
  cases h with
  | shebang line =>
    have hend := shebangEnd_le_size line
    have hle : p + 2 ≤ shebangEnd text p := le_lineEnd text (p + 2)
    omega
  | lineBreak char terminator =>
    have hlt := lt_size_of_eq_some char
    exact ⟨lt_lineBreakEnd text p, hlt, lineBreakEnd_le_size hlt⟩
  | space char white =>
    have hlt := lt_size_of_eq_some char
    exact ⟨Nat.lt_succ_self p, hlt, hlt⟩
  | lineComment slash second =>
    have hend : lineEnd text (p + 2) ≤ text.size := lineEnd_le_size (lt_size_of_hasCharAt second)
    have hle := le_lineEnd text (p + 2)
    omega
  | blockComment slash star =>
    have hend : blockCommentEnd text (p + 2) ≤ text.size :=
      blockCommentEnd_le_size (lt_size_of_hasCharAt star)
    have hle := le_blockCommentEnd text (p + 2)
    omega
  | conflictMarker marker =>
    have hlt : p < text.size := by
      have hsize := le_size_of_isConflictMarker marker
      exact Nat.lt_of_lt_of_le (Nat.lt_add_of_pos_right (by decide)) hsize
    exact ⟨lt_conflictMarkerEnd text p, hlt, conflictMarkerEnd_le_size hlt⟩

/-- The run goes over a piece and adds its errors to those noted before. -/
theorem TriviaStep.run_eq (h : TriviaStep text p errors q) (flags : TokenFlags) (noted : List ScanError) :
    ∃ flags', triviaRunFrom text flags noted p = triviaRunFrom text flags' (noted ++ errors) q := by
  have hlt := h.bounds.2.1
  have hat {c : Char} (hc : text[p]? = some c) : text[p] = c := by
    rwa [Array.getElem?_eq_getElem hlt, Option.some_inj] at hc
  rw [triviaRunFrom, dif_pos hlt]
  dsimp only
  cases h with
  | shebang line =>
    rw [if_pos line, List.append_nil]
    exact ⟨flags, rfl⟩
  | lineBreak char terminator =>
    have hshebang := isShebang_of_class (by decide) char terminator
    rw [hat char, if_neg (by simp [hshebang]), if_pos terminator, List.append_nil]
    exact ⟨_, rfl⟩
  | space char white =>
    have hshebang := isShebang_of_class (by decide) char white
    have hbreak := isLineBreak_of_class (p := isSingleLineSpace) (by decide) white
    rw [hat char, if_neg (by simp [hshebang]), if_neg (by simp [hbreak]), if_pos white, List.append_nil]
    exact ⟨_, rfl⟩
  | lineComment slash second =>
    have hslash : text[p]? = some '/' := beq_iff_eq.mp slash
    have hshebang : isShebang text p = false := isShebang_of_char hslash (by decide)
    rw [hat hslash, if_neg (by simp [hshebang]), if_neg (by decide), if_neg (by decide),
      if_pos (by simp [second]), List.append_nil]
    exact ⟨_, rfl⟩
  | blockComment slash star =>
    have hslash : text[p]? = some '/' := beq_iff_eq.mp slash
    have hshebang : isShebang text p = false := isShebang_of_char hslash (by decide)
    have hline : hasCharAt text (p + 1) '/' = false := by
      simp [hasCharAt, beq_iff_eq.mp star]
    rw [hat hslash, if_neg (by simp [hshebang]), if_neg (by decide), if_neg (by decide),
      if_neg (by simp [hline]), if_pos (by simp [star])]
    exact ⟨_, rfl⟩
  | conflictMarker marker =>
    have hchar := isMarkerChar_of_isConflictMarker hlt marker
    have hspace := isWhiteSpaceLike_of_isMarkerChar hchar
    simp only [isWhiteSpaceLike, Bool.or_eq_false_iff] at hspace
    have hne {c : Char} (hc : isMarkerChar c = false) : text[p] ≠ c := by
      rintro rfl
      rw [hchar] at hc
      cases hc
    have hshebang := isShebang_of_class (by decide) (Array.getElem?_eq_getElem hlt) hchar
    have hslash : text[p] ≠ '/' := hne (by decide)
    rw [if_neg (by simp [hshebang]), if_neg (by simp [hspace.2]), if_neg (by simp [hspace.1]),
      if_neg (by simp [hslash]), if_neg (by simp [hslash]), if_pos marker]
    exact ⟨_, rfl⟩

/-! ## 2. Paths -/

/-- Pieces of trivia reach from the first position to the second one, with the given errors. -/
inductive TriviaPath (text : Array Char) : Nat → List ScanError → Nat → Prop
  | refl {p : Nat} : TriviaPath text p [] p
  | step {p q r : Nat} {errors later : List ScanError} (first : TriviaStep text p errors q)
      (rest : TriviaPath text q later r) : TriviaPath text p (errors ++ later) r

namespace TriviaPath

theorem of_step (h : TriviaStep text p errors q) : TriviaPath text p errors q := by
  have hpath := TriviaPath.step h .refl
  rwa [List.append_nil] at hpath

theorem trans (h : TriviaPath text p errors q) (h' : TriviaPath text q later r) :
    TriviaPath text p (errors ++ later) r := by
  induction h with
  | refl => exact h'
  | step first rest ih =>
    rw [List.append_assoc]
    exact .step first (ih h')

theorem le (h : TriviaPath text p errors q) : p ≤ q := by
  induction h with
  | refl => exact Nat.le_refl _
  | step first rest ih => exact Nat.le_trans (Nat.le_of_lt first.bounds.1) ih

theorem le_size (h : TriviaPath text p errors q) (hp : p ≤ text.size) : q ≤ text.size := by
  induction h with
  | refl => exact hp
  | step first rest ih => exact ih first.bounds.2.2

/-- The run goes over all pieces of a path. -/
theorem run_eq (h : TriviaPath text p errors q) (flags : TokenFlags) (noted : List ScanError) :
    ∃ flags', triviaRunFrom text flags noted p = triviaRunFrom text flags' (noted ++ errors) q := by
  induction h generalizing flags noted with
  | refl => exact ⟨flags, by rw [List.append_nil]⟩
  | @step p q r errors later first rest ih =>
    obtain ⟨flags₁, hfirst⟩ := first.run_eq flags noted
    obtain ⟨flags₂, hrest⟩ := ih flags₁ (noted ++ errors)
    exact ⟨flags₂, by rw [hfirst, hrest, List.append_assoc]⟩

end TriviaPath

/-- What a run goes over is a path. -/
theorem triviaPath_of_run (flags : TokenFlags) (noted : List ScanError) :
    ∃ errors, TriviaPath text p errors (triviaRunFrom text flags noted p).stop
      ∧ (triviaRunFrom text flags noted p).errors = noted ++ errors := by
  have hstep {q : Nat} {errors noted : List ScanError} {run : TriviaRun} {p : Nat}
      (first : TriviaStep text p errors q)
      (hrest : ∃ later, TriviaPath text q later run.stop ∧ run.errors = noted ++ errors ++ later) :
      ∃ errors, TriviaPath text p errors run.stop ∧ run.errors = noted ++ errors := by
    obtain ⟨later, hpath, herrors⟩ := hrest
    exact ⟨errors ++ later, .step first hpath, by rw [herrors, List.append_assoc]⟩
  have hquiet {q : Nat} {noted : List ScanError} {run : TriviaRun} {p : Nat}
      (first : TriviaStep text p [] q)
      (hrest : ∃ later, TriviaPath text q later run.stop ∧ run.errors = noted ++ later) :
      ∃ errors, TriviaPath text p errors run.stop ∧ run.errors = noted ++ errors := by
    apply hstep first
    rwa [List.append_nil]
  fun_induction triviaRunFrom text flags noted p with
  | case1 flags noted p hlt hshebang ih => exact hquiet (.shebang hshebang) ih
  | case2 flags noted p hlt c hshebang hbreak ih =>
    exact hquiet (.lineBreak (Array.getElem?_eq_getElem hlt) hbreak) ih
  | case3 flags noted p hlt c hshebang hbreak hspace ih =>
    exact hquiet (.space (Array.getElem?_eq_getElem hlt) hspace) ih
  | case4 flags noted p hlt c hshebang hbreak hspace hline ih =>
    simp only [Bool.and_eq_true] at hline
    have hslash : hasCharAt text p '/' = true := by simpa [hasCharAt, hlt] using hline.1
    exact hquiet (.lineComment hslash hline.2) ih
  | case5 flags noted p hlt c hshebang hbreak hspace hline hblock stop ih =>
    simp only [Bool.and_eq_true] at hblock
    have hslash : hasCharAt text p '/' = true := by simpa [hasCharAt, hlt] using hblock.1
    exact hstep (.blockComment hslash hblock.2) ih
  | case6 flags noted p hlt c hshebang hbreak hspace hline hblock hmarker ih =>
    exact hstep (.conflictMarker hmarker) ih
  | case7 flags noted p hlt => exact ⟨[], .refl, (List.append_nil noted).symm⟩
  | case8 flags noted p hlt => exact ⟨[], .refl, (List.append_nil noted).symm⟩

/-! ## 3. Where runs stop -/

theorem noTrivia_of_size_le (h : text.size ≤ q) : NoTrivia text q ∧ isShebang text q = false := by
  have hnone : text[q]? = none := Array.getElem?_eq_none h
  refine ⟨?_, ?_⟩
  · constructor <;> simp [hasCharAt, isConflictMarker, hnone]
  · apply Bool.eq_false_iff.mpr
    intro hshebang
    simp only [isShebang, Bool.and_eq_true, beq_iff_eq] at hshebang
    obtain ⟨⟨rfl, hhash⟩, -⟩ := hshebang
    exact absurd (lt_size_of_hasCharAt hhash) (Nat.not_lt_of_le h)

/-- A path to where no more trivia start is the whole run. -/
theorem TriviaPath.run_of_halts (h : TriviaPath text p errors q) (halts : NoTrivia text q)
    (noShebang : isShebang text q = false) : ∃ flags, triviaRun text p = ⟨q, flags, errors⟩ := by
  obtain ⟨flags, hrun⟩ := h.run_eq {} []
  refine ⟨flags, ?_⟩
  rw [triviaRun, hrun, triviaRunFrom_of_noTrivia halts noShebang, List.nil_append]

/-- An interpreter line is gone over, so no run stops before one. -/
theorem isShebang_stop (flags : TokenFlags) (noted : List ScanError) (hp : p ≤ text.size) :
    isShebang text (triviaRunFrom text flags noted p).stop = false := by
  apply Bool.eq_false_iff.mpr
  intro hshebang
  have hzero : (triviaRunFrom text flags noted p).stop = 0 := by
    simp only [isShebang, Bool.and_eq_true, beq_iff_eq] at hshebang
    exact hshebang.1.1
  obtain rfl : p = 0 := by
    have hle := (stop_triviaRunFrom_bounds flags noted hp).1
    omega
  rw [hzero] at hshebang
  have first : TriviaStep text 0 [] (shebangEnd text 0) := .shebang hshebang
  obtain ⟨flags', hrun⟩ := first.run_eq flags noted
  rw [hrun] at hzero
  have hbehind := (stop_triviaRunFrom_bounds flags' (noted ++ []) first.bounds.2.2).1
  have hroom := first.bounds.1
  omega

end ScriptSyntax
