/-
  ScriptSyntax/Proofs/Trivia/Gap.lean
  ===================================
  White space and comments between two tokens, piece by piece.

  Each piece is described by the characters that it consists of, and a gap is as many of them as
  stand one after the other.  The functions that say how far a piece reaches find just these
  pieces, and a search for the next token goes over them.
-/
import ScriptSyntax.Kind.Basic
import ScriptSyntax.Proofs.Token.Closed

namespace ScriptSyntax

variable {text : Array Char} {pos stop a b : Nat} {c : Char}

/-! ## 1. How far pieces reach -/

/-- From the first position to the second one the text stays on a line, and the line ends there. -/
structure RestOfLine (text : Array Char) (a b : Nat) : Prop where
  le : a ≤ b
  le_size : b ≤ text.size
  onLine : ∀ k c, a ≤ k → k < b → text[k]? = some c → isLineBreak c = false
  ends : ∀ c, text[b]? = some c → isLineBreak c = true

theorem RestOfLine.unique {b' : Nat} (h : RestOfLine text a b) (h' : RestOfLine text a b') : b = b' := by
  have hle {b b' : Nat} (h : RestOfLine text a b) (h' : RestOfLine text a b') : ¬b < b' := by
    intro hlt
    have hsize : b < text.size := Nat.lt_of_lt_of_le hlt h'.le_size
    have hc : text[b]? = some text[b] := Array.getElem?_eq_getElem hsize
    exact absurd ((h'.onLine b _ h.le hlt hc).symm.trans (h.ends _ hc)) Bool.false_ne_true
  exact Nat.le_antisymm (Nat.le_of_not_lt (hle h' h)) (Nat.le_of_not_lt (hle h h'))

theorem restOfLine_lineEnd (h : a ≤ text.size) : RestOfLine text a (lineEnd text a) where
  le := le_lineEnd text a
  le_size := lineEnd_le_size h
  onLine k c hak hk hc := by
    obtain ⟨d, hd, hline⟩ := of_mem_scanWhile hak hk
    obtain rfl : c = d := Option.some.inj (hc.symm.trans hd)
    simpa using hline
  ends c hc := by simpa using scanWhile_stops hc

/-- A closing mark of block comments stands at the position. -/
def ClosingMark (text : Array Char) (k : Nat) : Prop := text[k]? = some '*' ∧ text[k + 1]? = some '/'

/-- The inside of a block comment starts at the first position, and the comment ends at the second one:
just behind the first closing mark, or with the text if there is none. -/
inductive RestOfBlock (text : Array Char) (a : Nat) : Nat → Prop
  | closed {k : Nat} (mark : ClosingMark text k) (after : a ≤ k)
      (first : ∀ j, a ≤ j → j < k → ¬ClosingMark text j) : RestOfBlock text a (k + 2)
  | unclosed (inside : a ≤ text.size) (no : ∀ j, a ≤ j → ¬ClosingMark text j) :
      RestOfBlock text a text.size

theorem RestOfBlock.unique {b' : Nat} (h : RestOfBlock text a b) (h' : RestOfBlock text a b') :
    b = b' := by
  cases h with
  | closed mark after first =>
    cases h' with
    | closed mark' after' first' =>
      rename_i k k'
      have hle : ¬k < k' := fun hlt => first' k after hlt mark
      have hge : ¬k' < k := fun hlt => first k' after' hlt mark'
      omega
    | unclosed inside' no' => exact absurd mark (no' _ after)
  | unclosed inside no =>
    cases h' with
    | closed mark' after' first' => exact absurd mark' (no _ after')
    | unclosed inside' no' => rfl

theorem RestOfBlock.bounds (h : RestOfBlock text a b) : a ≤ b ∧ b ≤ text.size := by
  cases h with
  | closed mark after first => exact ⟨by omega, lt_size_of_eq_some mark.2⟩
  | unclosed inside no => exact ⟨inside, Nat.le_refl _⟩

theorem closingMark_iff (hlt : a < text.size) :
    (text[a] == '*' && hasCharAt text (a + 1) '/') = true ↔ ClosingMark text a := by
  simp [ClosingMark, hasCharAt, hlt]

theorem restOfBlock_blockCommentEnd (h : a ≤ text.size) :
    RestOfBlock text a (blockCommentEnd text a) := by
  have hsearch : (∃ k, blockCommentEnd? text a = some (k + 2) ∧ ClosingMark text k ∧ a ≤ k
        ∧ ∀ j, a ≤ j → j < k → ¬ClosingMark text j)
      ∨ blockCommentEnd? text a = none ∧ ∀ j, a ≤ j → ¬ClosingMark text j := by
    clear h
    fun_induction blockCommentEnd? text a with
    | case1 a hlt hmark =>
      refine .inl ⟨a, rfl, (closingMark_iff hlt).mp hmark, Nat.le_refl a, ?_⟩
      intro j haj hja
      omega
    | case2 a hlt hmark ih =>
      have hno : ¬ClosingMark text a := (not_congr (closingMark_iff hlt)).mp hmark
      have hskip {j : Nat} (haj : a ≤ j) (hnext : a + 1 ≤ j → ¬ClosingMark text j) :
          ¬ClosingMark text j := by
        rcases Nat.eq_or_lt_of_le haj with rfl | haj
        · exact hno
        · exact hnext haj
      rcases ih with ⟨k, hk, mark, after, first⟩ | ⟨hnone, no⟩
      · refine .inl ⟨k, hk, mark, by omega, ?_⟩
        intro j haj hjk
        exact hskip haj (fun hle => first j hle hjk)
      · refine .inr ⟨hnone, ?_⟩
        intro j haj
        exact hskip haj (no j)
    | case3 a hlt =>
      refine .inr ⟨rfl, ?_⟩
      intro j haj hmark
      exact hlt (Nat.lt_of_le_of_lt haj (lt_size_of_eq_some hmark.1))
  unfold blockCommentEnd
  rcases hsearch with ⟨k, hk, mark, after, first⟩ | ⟨hnone, no⟩
  · rw [hk]
    exact .closed mark after first
  · rw [hnone, Option.getD_none, Nat.max_eq_right h]
    exact .unclosed h no

theorem lineBreakEnd_of_single (hc : text[pos]? = some c) (h : c = '\r' → text[pos + 1]? ≠ some '\n') :
    lineBreakEnd text pos = pos + 1 := by
  have hno : ¬(hasCharAt text pos '\r' && hasCharAt text (pos + 1) '\n') = true := by
    simpa [hasCharAt, hc] using h
  rw [lineBreakEnd, if_neg hno]

theorem lineBreakEnd_of_pair (hcarriage : text[pos]? = some '\r') (hfeed : text[pos + 1]? = some '\n') :
    lineBreakEnd text pos = pos + 2 := by
  simp [lineBreakEnd, hasCharAt, hcarriage, hfeed]

/-! ## 2. Pieces -/

/-- A piece of white space or a comment, and where it stands. -/
structure TriviaPiece where
  kind : TriviaKind
  pos : Nat
  stop : Nat
  deriving DecidableEq, Repr

namespace TriviaPiece

variable {p q : TriviaPiece}

def isComment (p : TriviaPiece) : Bool :=
  p.kind == .singleLineComment || p.kind == .multiLineComment

def isNewLine (p : TriviaPiece) : Bool := p.kind == .newLine

/-- The piece stands in the text: it consists of the characters that pieces of its kind consist of. -/
inductive Stands (text : Array Char) : TriviaPiece → Prop
  | shebang {stop : Nat} (hash : text[0]? = some '#') (mark : text[1]? = some '!')
      (line : RestOfLine text 2 stop) : Stands text ⟨.shebang, 0, stop⟩
  | whitespace {pos : Nat} {c : Char} (char : text[pos]? = some c)
      (space : isSingleLineSpace c = true) : Stands text ⟨.whitespace, pos, pos + 1⟩
  | newLine {pos : Nat} {c : Char} (char : text[pos]? = some c) (terminator : isLineBreak c = true)
      (single : c = '\r' → text[pos + 1]? ≠ some '\n') : Stands text ⟨.newLine, pos, pos + 1⟩
  | newLinePair {pos : Nat} (carriage : text[pos]? = some '\r') (feed : text[pos + 1]? = some '\n') :
      Stands text ⟨.newLine, pos, pos + 2⟩
  | singleLineComment {pos stop : Nat} (slash : text[pos]? = some '/')
      (second : text[pos + 1]? = some '/') (line : RestOfLine text (pos + 2) stop) :
      Stands text ⟨.singleLineComment, pos, stop⟩
  | multiLineComment {pos stop : Nat} (slash : text[pos]? = some '/')
      (star : text[pos + 1]? = some '*') (block : RestOfBlock text (pos + 2) stop) :
      Stands text ⟨.multiLineComment, pos, stop⟩

/-- A piece is not empty, and it ends in the text. -/
theorem Stands.bounds (h : p.Stands text) : p.pos < p.stop ∧ p.stop ≤ text.size := by
  cases h with
  | shebang hash mark line => exact ⟨Nat.lt_of_lt_of_le Nat.two_pos line.le, line.le_size⟩
  | whitespace char space => exact ⟨Nat.lt_succ_self _, lt_size_of_eq_some char⟩
  | newLine char terminator single => exact ⟨Nat.lt_succ_self _, lt_size_of_eq_some char⟩
  | newLinePair carriage feed =>
    exact ⟨Nat.lt_add_of_pos_right (by decide), lt_size_of_eq_some feed⟩
  | singleLineComment slash second line =>
    exact ⟨Nat.lt_of_lt_of_le (Nat.lt_add_of_pos_right (by decide)) line.le, line.le_size⟩
  | multiLineComment slash star block =>
    exact ⟨Nat.lt_of_lt_of_le (Nat.lt_add_of_pos_right (by decide)) block.bounds.1, block.bounds.2⟩

/-- Every line terminator belongs to a line break: one that is followed by a line feed may make a pair
with it. -/
theorem exists_stands_of_isLineBreak (hc : text[pos]? = some c) (h : isLineBreak c = true) :
    ∃ p : TriviaPiece, p.Stands text ∧ p.pos = pos := by
  by_cases hpair : c = '\r' ∧ text[pos + 1]? = some '\n'
  · exact ⟨_, .newLinePair (hpair.1 ▸ hc) hpair.2, rfl⟩
  · exact ⟨_, .newLine hc h (not_and.mp hpair), rfl⟩

/-- Only an interpreter line is of its kind, and none but the first line is one. -/
theorem Stands.isShebang (h : p.Stands text) :
    ScriptSyntax.isShebang text p.pos = decide (p.kind = .shebang) := by
  cases h with
  | shebang hash mark line => simp [ScriptSyntax.isShebang, hasCharAt, hash, mark]
  | whitespace char space => exact isShebang_of_class (by decide) char space
  | newLine char terminator single => exact isShebang_of_class (by decide) char terminator
  | newLinePair carriage feed => exact isShebang_of_char carriage (by decide)
  | singleLineComment slash second line => exact isShebang_of_char slash (by decide)
  | multiLineComment slash star block => exact isShebang_of_char slash (by decide)

/-- The search for the next token goes over pieces. -/
theorem Stands.skipTrivia_stop (h : p.Stands text) :
    skipTrivia text p.pos false false = skipTrivia text p.stop false false := by
  have hshebang := h.isShebang
  have hnext : 0 < p.stop := Nat.zero_lt_of_lt h.bounds.1
  have hat {pos : Nat} {c : Char} (hc : text[pos]? = some c) :
      ∃ hlt : pos < text.size, text[pos] = c := Array.getElem?_eq_some_iff.mp hc
  cases h with
  | shebang hash mark line =>
    rw [skipTrivia_of_pos false false hnext]
    obtain rfl := line.unique (restOfLine_lineEnd (lt_size_of_eq_some mark))
    simp [skipTrivia, hshebang, shebangEnd]
  | whitespace char space =>
    obtain ⟨hlt, rfl⟩ := hat char
    refine skipTrivia_step (by simp [hshebang]) hnext (skipTriviaFrom_space hlt space ?_)
    exact isLineBreak_of_class (p := isSingleLineSpace) (by decide) space
  | newLine char terminator single =>
    obtain ⟨hlt, rfl⟩ := hat char
    have hend : lineBreakEnd text _ = _ + 1 := lineBreakEnd_of_single char single
    refine skipTrivia_step (by simp [hshebang]) hnext ?_
    rw [skipTriviaFrom_lineBreak hlt terminator, hend]
  | newLinePair carriage feed =>
    obtain ⟨hlt, hcarriage⟩ := hat carriage
    refine skipTrivia_step (by simp [hshebang]) hnext ?_
    rw [skipTriviaFrom_lineBreak hlt (by rw [hcarriage]; decide), lineBreakEnd_of_pair carriage feed]
  | singleLineComment slash second line =>
    obtain ⟨hlt, hslash⟩ := hat slash
    obtain rfl := line.unique (restOfLine_lineEnd (lt_size_of_eq_some second))
    refine skipTrivia_step (by simp [hshebang]) hnext (skipTriviaFrom_lineComment hlt ?_)
    simp [hslash, hasCharAt, second]
  | multiLineComment slash star block =>
    obtain ⟨hlt, hslash⟩ := hat slash
    obtain rfl := block.unique (restOfBlock_blockCommentEnd (lt_size_of_eq_some star))
    refine skipTrivia_step (by simp [hshebang]) hnext (skipTriviaFrom_blockComment hlt ?_)
    simp [hslash, hasCharAt, star]

end TriviaPiece

/-! ## 3. Gaps -/

theorem le_skipTriviaFrom (stopAfterLineBreak stopAtComments : Bool) :
    pos ≤ skipTriviaFrom text stopAfterLineBreak stopAtComments pos := by
  fun_induction skipTriviaFrom text stopAfterLineBreak stopAtComments pos with
  | case1 pos hlt => exact Nat.le_of_lt (lt_lineBreakEnd text pos)
  | case2 pos hlt c hbreak hstop ih => exact Nat.le_trans (Nat.le_of_lt (lt_lineBreakEnd text pos)) ih
  | case3 pos hlt c hbreak hslash ih =>
    exact Nat.le_trans (Nat.le_trans (Nat.le_add_right pos 2) (le_lineEnd text (pos + 2))) ih
  | case4 pos hlt c hbreak hslash hstar ih =>
    exact Nat.le_trans (Nat.le_trans (Nat.le_add_right pos 2) (le_blockCommentEnd text (pos + 2))) ih
  | case5 pos hlt c hbreak hslash hstar hmarker ih =>
    exact Nat.le_trans (Nat.le_of_lt (lt_conflictMarkerEnd text pos)) ih
  | case6 pos hlt c hbreak hslash hstar hmarker hspace ih => exact Nat.le_trans (Nat.le_succ pos) ih
  | case7 => exact Nat.le_refl _
  | case8 => exact Nat.le_refl _

theorem le_skipTrivia (stopAfterLineBreak stopAtComments : Bool) :
    pos ≤ skipTrivia text pos stopAfterLineBreak stopAtComments := by
  unfold skipTrivia
  split
  · have hshebang : pos ≤ shebangEnd text pos :=
      Nat.le_trans (Nat.le_add_right pos 2) (le_lineEnd text (pos + 2))
    exact Nat.le_trans hshebang (le_skipTriviaFrom _ _)
  · exact le_skipTriviaFrom _ _

/-- The pieces stand one after the other, from the first position to the second one, and no further
piece stands there. -/
inductive Gap (text : Array Char) : Nat → List TriviaPiece → Nat → Prop
  | done {pos : Nat} (no : ∀ p : TriviaPiece, p.Stands text → p.pos ≠ pos) : Gap text pos [] pos
  | piece {p : TriviaPiece} {pieces : List TriviaPiece} {stop : Nat} (stands : p.Stands text)
      (rest : Gap text p.stop pieces stop) : Gap text p.pos (p :: pieces) stop

/-- A gap, maybe an empty one, starts at every position. -/
theorem exists_gap (text : Array Char) (pos : Nat) : ∃ pieces stop, Gap text pos pieces stop := by
  by_cases h : ∃ p : TriviaPiece, p.Stands text ∧ p.pos = pos
  · obtain ⟨p, hp, rfl⟩ := h
    obtain ⟨pieces, stop, hrest⟩ := exists_gap text p.stop
    exact ⟨p :: pieces, stop, .piece hp hrest⟩
  · refine ⟨[], pos, .done ?_⟩
    intro p hp heq
    exact h ⟨p, hp, heq⟩
termination_by text.size - pos
decreasing_by
  have := hp.bounds
  omega

namespace Gap

variable {pieces : List TriviaPiece}

theorem le (h : Gap text pos pieces stop) : pos ≤ stop := by
  induction h with
  | done no => exact Nat.le_refl _
  | piece stands rest ih => exact Nat.le_trans (Nat.le_of_lt stands.bounds.1) ih

theorem of_mem (h : Gap text pos pieces stop) {p : TriviaPiece} (hp : p ∈ pieces) :
    p.Stands text ∧ pos ≤ p.pos ∧ p.stop ≤ stop := by
  induction h with
  | done no => cases hp
  | piece stands rest ih =>
    rcases List.mem_cons.mp hp with rfl | hp
    · exact ⟨stands, Nat.le_refl _, rest.le⟩
    · obtain ⟨hstands, hle, hstop⟩ := ih hp
      exact ⟨hstands, Nat.le_trans (Nat.le_of_lt stands.bounds.1) hle, hstop⟩

/-- The pieces of a gap are in order, and they do not overlap. -/
theorem pairwise (h : Gap text pos pieces stop) :
    pieces.Pairwise (fun p q => p.stop ≤ q.pos) := by
  induction h with
  | done no => exact .nil
  | piece stands rest ih =>
    refine .cons ?_ ih
    intro q hq
    exact (rest.of_mem hq).2.1

/-- Where a search for the next token starts, it goes over the whole gap. -/
theorem stop_le_skipTrivia (h : Gap text pos pieces stop) :
    stop ≤ skipTrivia text pos false false := by
  induction h with
  | done no => exact le_skipTrivia _ _
  | piece stands rest ih => rwa [stands.skipTrivia_stop]

end Gap

end ScriptSyntax
