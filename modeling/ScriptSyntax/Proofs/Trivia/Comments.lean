/-
  ScriptSyntax/Proofs/Trivia/Comments.lean
  ========================================
  Leading and trailing comments share out the comments of a gap.

  One walk finds both kinds, by when it starts to keep comments and where it ends.  Over the pieces
  of a gap it is a short recursion: trailing comments are those before the first line break, leading
  ones those behind it, and at the start of a text all comments lead.
-/
import ScriptSyntax.Proofs.Trivia.Gap
import ScriptSyntax.Trivia.Comment

namespace ScriptSyntax

variable {text : Array Char} {pos stop : Nat} {p : TriviaPiece} {pieces : List TriviaPiece}

/-! ## 1. Comments among pieces -/

namespace TriviaPiece

def toComment (p : TriviaPiece) (endsLine : Bool) : Comment := ⟨p.kind, p.pos, p.stop, endsLine⟩

/-- Does a line break come before the next comment? -/
def breakFollows : List TriviaPiece → Bool
  | [] => false
  | p :: ps => p.isNewLine || (!p.isComment && breakFollows ps)

/-- The comments among the pieces, each with the note whether it ends its line. -/
def comments : List TriviaPiece → List Comment
  | [] => []
  | p :: ps => if p.isComment then p.toComment (breakFollows ps) :: comments ps else comments ps

/-- The pieces from the first line break on. -/
def fromBreak (pieces : List TriviaPiece) : List TriviaPiece := pieces.dropWhile (!·.isNewLine)

/-- The pieces before the first line break. -/
def beforeBreak (pieces : List TriviaPiece) : List TriviaPiece := pieces.takeWhile (!·.isNewLine)

theorem isComment_of_isNewLine (h : p.isNewLine = true) : p.isComment = false := by
  have hkind : p.kind = .newLine := beq_iff_eq.mp h
  simp [isComment, hkind]

theorem comments_cons_of_not (h : p.isComment = false) : comments (p :: pieces) = comments pieces := by
  simp [comments, h]

end TriviaPiece

/-- The comment as a piece of its gap. -/
def Comment.toPiece (c : Comment) : TriviaPiece := ⟨c.kind, c.pos, c.stop⟩

@[simp] theorem TriviaPiece.toPiece_toComment (p : TriviaPiece) (endsLine : Bool) :
    (p.toComment endsLine).toPiece = p := rfl

open TriviaPiece

theorem map_toPiece_comments (pieces : List TriviaPiece) :
    (comments pieces).map Comment.toPiece = pieces.filter (·.isComment) := by
  induction pieces with
  | nil => rfl
  | cons p pieces ih =>
    by_cases hcomment : p.isComment = true
    · simp [comments, hcomment, ih]
    · simp [comments, hcomment, ih]

theorem exists_of_mem_comments {c : Comment} (h : c ∈ comments pieces) :
    ∃ front p rest, pieces = front ++ p :: rest ∧ c = p.toComment (breakFollows rest) := by
  induction pieces with
  | nil => cases h
  | cons q pieces ih =>
    have hlater (hc : c ∈ comments pieces) :
        ∃ front p rest, q :: pieces = front ++ p :: rest ∧ c = p.toComment (breakFollows rest) := by
      obtain ⟨front, p, rest, rfl, heq⟩ := ih hc
      exact ⟨q :: front, p, rest, rfl, heq⟩
    unfold comments at h
    split at h
    · rcases List.mem_cons.mp h with hc | hc
      · exact ⟨[], q, pieces, rfl, hc⟩
      · exact hlater hc
    · exact hlater h

/-- In a gap the note is about the line break that stands nearest. -/
theorem Gap.breakFollows_iff (h : Gap text pos pieces stop) :
    breakFollows pieces = true ↔
      ∃ b ∈ pieces, b.isNewLine = true ∧ ∀ d ∈ pieces, d.isComment = true → b.pos < d.pos := by
  induction h with
  | done no => simp [breakFollows]
  | @piece p pieces stop stands rest ih =>
    have hbehind {q : TriviaPiece} (hq : q ∈ pieces) : p.pos < q.pos :=
      Nat.lt_of_lt_of_le stands.bounds.1 (rest.of_mem hq).2.1
    by_cases hbreak : p.isNewLine = true
    · refine iff_of_true (by simp [breakFollows, hbreak]) ⟨p, List.mem_cons_self, hbreak, ?_⟩
      intro d hd hcomment
      rcases List.mem_cons.mp hd with rfl | hd
      · rw [isComment_of_isNewLine hbreak] at hcomment
        exact absurd hcomment Bool.false_ne_true
      · exact hbehind hd
    · by_cases hcomment : p.isComment = true
      · refine iff_of_false (by simp [breakFollows, hbreak, hcomment]) ?_
        rintro ⟨b, hb, hnew, hbefore⟩
        have hlt := hbefore p List.mem_cons_self hcomment
        rcases List.mem_cons.mp hb with rfl | hb
        · exact Nat.lt_irrefl _ hlt
        · exact Nat.lt_asymm hlt (hbehind hb)
      · have hskip : breakFollows (p :: pieces) = breakFollows pieces := by
          simp [breakFollows, hbreak, hcomment]
        rw [hskip, ih]
        simp [hbreak, hcomment]

/-- What stands behind a piece of a gap is what the gap goes on with there. -/
theorem Gap.behind {front rest : List TriviaPiece} (h : Gap text pos (front ++ p :: rest) stop) :
    Gap text p.stop rest stop ∧ ∀ q, (q ∈ front ++ p :: rest ∧ p.stop ≤ q.pos) ↔ q ∈ rest := by
  induction front generalizing pos with
  | nil =>
    cases h with
    | piece stands rest =>
      refine ⟨rest, ?_⟩
      intro q
      constructor
      · rintro ⟨hq, hle⟩
        rcases List.mem_cons.mp hq with rfl | hq
        · exact absurd stands.bounds.1 (Nat.not_lt_of_le hle)
        · exact hq
      · intro hq
        exact ⟨List.mem_cons_of_mem _ hq, (rest.of_mem hq).2.1⟩
  | cons r front ih =>
    cases h with
    | piece stands later =>
      obtain ⟨hgap, hmem⟩ := ih later
      refine ⟨hgap, ?_⟩
      intro q
      rw [← hmem q]
      have hlt : r.pos < p.stop := by
        obtain ⟨hstands, hle, -⟩ := later.of_mem (List.mem_append_right front List.mem_cons_self)
        have hr := stands.bounds.1
        have hp := hstands.bounds.1
        omega
      constructor
      · rintro ⟨hq, hle⟩
        rcases List.mem_cons.mp hq with rfl | hq
        · exact absurd hlt (Nat.not_lt_of_le hle)
        · exact ⟨hq, hle⟩
      · rintro ⟨hq, hle⟩
        exact ⟨List.mem_cons_of_mem _ hq, hle⟩

/-- A comment of a gap ends its line if a line break stands behind it and before the next comment. -/
theorem Gap.endsLine_iff (h : Gap text pos pieces stop) {c : Comment} {front back : List TriviaPiece}
    (hpieces : pieces = front ++ back) (hc : c ∈ comments back) :
    c.endsLine = true ↔ ∃ b ∈ pieces, b.isNewLine = true ∧ c.stop ≤ b.pos
      ∧ ∀ d ∈ pieces.filter (·.isComment), c.stop ≤ d.pos → b.pos < d.pos := by
  obtain ⟨between, p, rest, rfl, rfl⟩ := exists_of_mem_comments hc
  rw [← List.append_assoc] at hpieces
  subst hpieces
  obtain ⟨hgap, hmem⟩ := h.behind
  have hends : (p.toComment (breakFollows rest)).endsLine = breakFollows rest := rfl
  have hstop : (p.toComment (breakFollows rest)).stop = p.stop := rfl
  rw [hends, hstop, hgap.breakFollows_iff]
  constructor
  · rintro ⟨b, hb, hnew, hbefore⟩
    obtain ⟨hin, hle⟩ := (hmem b).mpr hb
    refine ⟨b, hin, hnew, hle, ?_⟩
    intro d hd hbehind
    obtain ⟨hd, hcomment⟩ := List.mem_filter.mp hd
    exact hbefore d ((hmem d).mp ⟨hd, hbehind⟩) hcomment
  · rintro ⟨b, hb, hnew, hle, hbefore⟩
    refine ⟨b, (hmem b).mp ⟨hb, hle⟩, hnew, ?_⟩
    intro d hd hcomment
    obtain ⟨hin, hbehind⟩ := (hmem d).mpr hd
    exact hbefore d (List.mem_filter.mpr ⟨hin, hcomment⟩) hbehind

/-! ## 2. The walk -/

open Comment

/-- Where no piece stands the walk ends. -/
theorem walk_of_no (no : ∀ p : TriviaPiece, p.Stands text → p.pos ≠ pos) (trailing collecting : Bool)
    (found : List Comment) : walk text trailing collecting found pos = found := by
  by_cases hlt : pos < text.size
  · have hc : text[pos]? = some text[pos] := Array.getElem?_eq_getElem hlt
    have hspace : ¬isSingleLineSpace text[pos] = true := by
      intro hspace
      exact no _ (.whitespace hc hspace) rfl
    have hbreak : ¬isLineBreak text[pos] = true := by
      intro hbreak
      obtain ⟨p, hp, heq⟩ := exists_stands_of_isLineBreak hc hbreak
      exact no p hp heq
    have hline : ¬(text[pos] == '/' && hasCharAt text (pos + 1) '/') = true := by
      intro hline
      simp only [hasCharAt, Bool.and_eq_true, beq_iff_eq] at hline
      exact no _ (.singleLineComment (hline.1 ▸ hc) hline.2
        (restOfLine_lineEnd (lt_size_of_eq_some hline.2))) rfl
    have hblock : ¬(text[pos] == '/' && hasCharAt text (pos + 1) '*') = true := by
      intro hblock
      simp only [hasCharAt, Bool.and_eq_true, beq_iff_eq] at hblock
      exact no _ (.multiLineComment (hblock.1 ▸ hc) hblock.2
        (restOfBlock_blockCommentEnd (lt_size_of_eq_some hblock.2))) rfl
    rw [walk]
    simp only [hlt, ↓reduceDIte, if_neg hbreak, if_neg hline, if_neg hblock, if_neg hspace]
  · rw [walk]
    simp only [hlt, ↓reduceDIte]

/-- One step of the walk: a line break ends it or makes it keep comments, a comment is kept or not. A
line comment knows already whether a line break follows. -/
theorem walk_of_stands (h : p.Stands text) (hkind : p.kind ≠ .shebang) (trailing collecting : Bool)
    (found : List Comment) :
    walk text trailing collecting found p.pos =
      if p.isNewLine then
        if trailing then found else walk text trailing true (markLineBreak found) p.stop
      else if p.isComment && collecting then
        walk text trailing collecting
          (p.toComment (p.kind == .singleLineComment && p.stop < text.size) :: found) p.stop
      else walk text trailing collecting found p.stop := by
  have hat {pos : Nat} {c : Char} (hc : text[pos]? = some c) :
      ∃ hlt : pos < text.size, text[pos] = c := Array.getElem?_eq_some_iff.mp hc
  rw [walk]
  cases h with
  | shebang hash mark line => exact absurd rfl hkind
  | whitespace char space =>
    obtain ⟨hlt, rfl⟩ := hat char
    have hbreak := isLineBreak_of_class (p := isSingleLineSpace) (by decide) space
    have hslash := ne_slash_of_isWhiteSpaceLike ((Bool.or_eq_true _ _).mpr (.inl space))
    simp [hlt, hbreak, hslash, space, isNewLine, isComment]
  | newLine char terminator single =>
    obtain ⟨hlt, rfl⟩ := hat char
    simp [hlt, terminator, isNewLine, lineBreakEnd_of_single char single]
  | newLinePair carriage feed =>
    obtain ⟨hlt, hcarriage⟩ := hat carriage
    have hbreak : isLineBreak '\r' = true := by decide
    simp [hlt, hcarriage, hbreak, isNewLine, lineBreakEnd_of_pair carriage feed]
  | singleLineComment slash second line =>
    obtain ⟨hlt, hslash⟩ := hat slash
    have hbreak : isLineBreak '/' = false := by decide
    obtain rfl := line.unique (restOfLine_lineEnd (lt_size_of_eq_some second))
    cases collecting <;> simp [hlt, hslash, hbreak, hasCharAt, second, isNewLine, isComment, toComment]
  | multiLineComment slash star block =>
    obtain ⟨hlt, hslash⟩ := hat slash
    have hbreak : isLineBreak '/' = false := by decide
    have hblock : (TriviaKind.multiLineComment == .singleLineComment) = false := by decide
    obtain rfl := block.unique (restOfBlock_blockCommentEnd (lt_size_of_eq_some star))
    cases collecting <;>
      simp [hlt, hslash, hbreak, hasCharAt, star, isNewLine, isComment, toComment, hblock]

/-- Where a line ends, a line break follows unless the text ends there too. -/
theorem Gap.breakFollows_of_ends (h : Gap text pos pieces stop)
    (hends : ∀ c, text[pos]? = some c → isLineBreak c = true) :
    breakFollows pieces = decide (pos < text.size) := by
  cases h with
  | done no =>
    have hend : ¬pos < text.size := by
      intro hlt
      have hc : text[pos]? = some text[pos] := Array.getElem?_eq_getElem hlt
      obtain ⟨p, hp, heq⟩ := exists_stands_of_isLineBreak hc (hends _ hc)
      exact no p hp heq
    exact (decide_eq_false hend).symm
  | @piece p pieces stop stands rest =>
    have hlt : p.pos < text.size := Nat.lt_of_lt_of_le stands.bounds.1 stands.bounds.2
    have hnew : p.isNewLine = true := by
      cases stands with
      | shebang hash mark line => exact absurd (hends _ hash) (by decide)
      | whitespace char space =>
        have hbreak := isLineBreak_of_class (p := isSingleLineSpace) (by decide) space
        exact absurd (hbreak.symm.trans (hends _ char)) Bool.false_ne_true
      | newLine char terminator single => rfl
      | newLinePair carriage feed => rfl
      | singleLineComment slash second line => exact absurd (hends _ slash) (by decide)
      | multiLineComment slash star block => exact absurd (hends _ slash) (by decide)
    simp [breakFollows, hnew, hlt]

/-- What a line comment says of itself agrees with the pieces behind it. -/
theorem Gap.breakFollows_of_line (h : Gap text p.stop pieces stop) (hp : p.Stands text)
    (hline : (p.kind == .singleLineComment && p.stop < text.size) = true) : breakFollows pieces = true := by
  simp only [Bool.and_eq_true, beq_iff_eq] at hline
  have hends : ∀ c, text[p.stop]? = some c → isLineBreak c = true := by
    cases hp with
    | singleLineComment slash second line => exact line.ends
    | _ => cases hline.1
  rw [h.breakFollows_of_ends hends]
  exact hline.2

theorem markLineBreak_markLineBreak (found : List Comment) :
    markLineBreak (markLineBreak found) = markLineBreak found := by
  cases found <;> rfl

/-- The walk keeps all comments of a gap once it keeps comments, and it does not end at line breaks. -/
theorem walk_of_gap (h : Gap text pos pieces stop) (hkind : ∀ p ∈ pieces, p.kind ≠ .shebang)
    (found : List Comment) :
    walk text false true found pos =
      (comments pieces).reverse ++ (if breakFollows pieces then markLineBreak found else found) := by
  induction h generalizing found with
  | done no => simp [walk_of_no no, comments, breakFollows]
  | @piece p pieces stop stands rest ih =>
    obtain ⟨hhead, htail⟩ := List.forall_mem_cons.mp hkind
    rw [walk_of_stands stands hhead]
    by_cases hnew : p.isNewLine = true
    · have hcomment := isComment_of_isNewLine hnew
      simp [hnew, ih htail, breakFollows, comments, hcomment, markLineBreak_markLineBreak]
    · by_cases hcomment : p.isComment = true
      · have hline := rest.breakFollows_of_line stands
        have hkept : (if breakFollows pieces then
              markLineBreak (p.toComment (p.kind == .singleLineComment && p.stop < text.size) :: found)
            else p.toComment (p.kind == .singleLineComment && p.stop < text.size) :: found)
            = p.toComment (breakFollows pieces) :: found := by
          by_cases hfollows : breakFollows pieces = true
          · rw [if_pos hfollows, hfollows]
            rfl
          · have hopen := Bool.eq_false_iff.mpr (mt hline hfollows)
            rw [if_neg hfollows, hopen, Bool.eq_false_iff.mpr hfollows]
        simp [hnew, hcomment, ih htail, hkept, breakFollows, comments]
      · simp [hnew, hcomment, ih htail, breakFollows, comments]

/-- A walk that waits for a line break keeps the comments behind it. -/
theorem walk_waiting (h : Gap text pos pieces stop) (hkind : ∀ p ∈ pieces, p.kind ≠ .shebang) :
    walk text false false [] pos = (comments (fromBreak pieces)).reverse := by
  induction h with
  | done no => simp [walk_of_no no, comments, fromBreak]
  | @piece p pieces stop stands rest ih =>
    obtain ⟨hhead, htail⟩ := List.forall_mem_cons.mp hkind
    rw [walk_of_stands stands hhead]
    by_cases hnew : p.isNewLine = true
    · have hfrom : fromBreak (p :: pieces) = p :: pieces := by simp [fromBreak, hnew]
      rw [hfrom, comments_cons_of_not (isComment_of_isNewLine hnew)]
      simp [hnew, walk_of_gap rest htail, markLineBreak]
    · have hfrom : fromBreak (p :: pieces) = fromBreak pieces := by simp [fromBreak, hnew]
      rw [hfrom, ← ih htail]
      simp [hnew]

/-- A walk that line breaks end keeps the comments before the first one. -/
theorem walk_trailing (h : Gap text pos pieces stop) (hkind : ∀ p ∈ pieces, p.kind ≠ .shebang)
    (found : List Comment) :
    (walk text true true found pos).map Comment.toPiece =
      ((beforeBreak pieces).filter (·.isComment)).reverse ++ found.map Comment.toPiece := by
  induction h generalizing found with
  | done no => simp [walk_of_no no, beforeBreak]
  | @piece p pieces stop stands rest ih =>
    obtain ⟨hhead, htail⟩ := List.forall_mem_cons.mp hkind
    rw [walk_of_stands stands hhead]
    by_cases hnew : p.isNewLine = true
    · simp [hnew, beforeBreak]
    · have hbefore : beforeBreak (p :: pieces) = p :: beforeBreak pieces := by simp [beforeBreak, hnew]
      rw [hbefore]
      by_cases hcomment : p.isComment = true
      · simp [hnew, hcomment, ih htail]
      · simp [hnew, hcomment, ih htail]

/-! ## 3. Leading and trailing comments -/

/-- Behind an interpreter line a gap goes on without another one, and where there is none, a walk over its
comments starts where the gap does. -/
theorem Gap.behindShebang (h : Gap text pos pieces stop) :
    ∃ rest, Gap text (if isShebang text pos then shebangEnd text pos else pos) rest stop
      ∧ (∀ p ∈ rest, p.kind ≠ .shebang)
      ∧ (rest = pieces ∨ ∃ p, pieces = p :: rest ∧ p.kind = .shebang) := by
  have hlater {p : TriviaPiece} {rest : List TriviaPiece} (hp : p.Stands text)
      (hrest : Gap text p.stop rest stop) : ∀ q ∈ rest, q.kind ≠ .shebang := by
    intro q hq
    obtain ⟨hstands, hle, -⟩ := hrest.of_mem hq
    have hpos : 0 < q.pos := Nat.lt_of_lt_of_le (Nat.zero_lt_of_lt hp.bounds.1) hle
    have hno := hstands.isShebang
    rw [isShebang_of_pos hpos] at hno
    simpa using hno.symm
  cases h with
  | done no =>
    have hshebang : isShebang text pos = false := by
      apply Bool.eq_false_iff.mpr
      intro hshebang
      simp only [isShebang, hasCharAt, Bool.and_eq_true, beq_iff_eq] at hshebang
      obtain ⟨⟨rfl, hhash⟩, hmark⟩ := hshebang
      exact no _ (.shebang hhash hmark (restOfLine_lineEnd (lt_size_of_eq_some hmark))) rfl
    refine ⟨[], ?_, List.forall_mem_nil _, .inl rfl⟩
    simpa [hshebang] using Gap.done no
  | @piece p rest stop stands later =>
    have hshebang := stands.isShebang
    by_cases hkind : p.kind = .shebang
    · refine ⟨rest, ?_, hlater stands later, .inr ⟨p, rfl, hkind⟩⟩
      have hstop : shebangEnd text p.pos = p.stop := by
        cases stands with
        | shebang hash mark line => exact (line.unique (restOfLine_lineEnd (lt_size_of_eq_some mark))).symm
        | _ => cases hkind
      simpa [hshebang, hkind, hstop] using later
    · refine ⟨p :: rest, ?_, List.forall_mem_cons.mpr ⟨hkind, hlater stands later⟩, .inl rfl⟩
      simpa [hshebang, hkind] using Gap.piece stands later

/-- An interpreter line is no comment, and no line break either. -/
theorem TriviaPiece.of_shebang (h : p.kind = .shebang) : p.isComment = false ∧ p.isNewLine = false := by
  simp [isComment, isNewLine, h]

theorem leading_of_gap (h : Gap text pos pieces stop) :
    leading text pos = comments (if pos = 0 then pieces else fromBreak pieces) := by
  obtain ⟨rest, hgap, hkind, hrest⟩ := h.behindShebang
  have hcomments : comments rest = comments pieces ∧ comments (fromBreak rest) = comments (fromBreak pieces) := by
    rcases hrest with rfl | ⟨p, rfl, hp⟩
    · exact ⟨rfl, rfl⟩
    · obtain ⟨hcomment, hnew⟩ := of_shebang hp
      simp [comments_cons_of_not hcomment, fromBreak, hnew]
  unfold leading ranges
  by_cases hpos : pos = 0
  · subst hpos
    have hnone : (if breakFollows rest then markLineBreak [] else []) = [] := by split <;> rfl
    simp [walk_of_gap hgap hkind, hnone, hcomments.1]
  · have hwaits : (pos == 0) = false := beq_false_of_ne hpos
    simp [hpos, hwaits, walk_waiting hgap hkind, hcomments.2]

theorem trailing_of_gap (h : Gap text pos pieces stop) :
    (trailing text pos).map Comment.toPiece = (beforeBreak pieces).filter (·.isComment) := by
  obtain ⟨rest, hgap, hkind, hrest⟩ := h.behindShebang
  have hbefore : (beforeBreak rest).filter (·.isComment) = (beforeBreak pieces).filter (·.isComment) := by
    rcases hrest with rfl | ⟨p, rfl, hp⟩
    · rfl
    · obtain ⟨hcomment, hnew⟩ := of_shebang hp
      simp [beforeBreak, hnew, hcomment]
  unfold trailing ranges
  simp [walk_trailing hgap hkind, hbefore]

/-- From every position a gap starts, and the leading and the trailing comments there are the comments of
the gap: trailing ones are those before the first line break, and the leading ones are the rest, or all of
them at the start of the text.  They are stretches of the text in order, before the next token, and a
leading comment ends its line if a line break stands between it and the next comment. -/
theorem Comment.trailing_append_leading (text : Array Char) (pos : Nat) :
    (∃ pieces stop, Gap text pos pieces stop) ∧ ∀ pieces stop, Gap text pos pieces stop →
      let met := pieces.filter (·.isComment)
      (trailing text pos).map toPiece = (beforeBreak pieces).filter (·.isComment)
        ∧ (0 < pos → (trailing text pos ++ leading text pos).map toPiece = met)
        ∧ (pos = 0 → (leading text pos).map toPiece = met)
        ∧ met.Pairwise (fun c d => c.stop ≤ d.pos)
        ∧ (∀ c ∈ met, pos ≤ c.pos ∧ c.pos < c.stop ∧ c.stop ≤ text.size
            ∧ c.stop ≤ skipTrivia text pos false false)
        ∧ ∀ c ∈ leading text pos, c.endsLine = true ↔ ∃ b ∈ pieces, b.isNewLine = true ∧ c.stop ≤ b.pos
            ∧ ∀ d ∈ met, c.stop ≤ d.pos → b.pos < d.pos := by
  refine ⟨exists_gap text pos, ?_⟩
  intro pieces stop h met
  have htrailing := trailing_of_gap h
  have hleading := leading_of_gap h
  have hsplit : beforeBreak pieces ++ fromBreak pieces = pieces := List.takeWhile_append_dropWhile
  refine ⟨htrailing, ?_, ?_, h.pairwise.filter _, ?_, ?_⟩
  · intro hpos
    rw [List.map_append, htrailing, hleading, if_neg (Nat.ne_of_gt hpos), map_toPiece_comments,
      ← List.filter_append, hsplit]
  · intro hpos
    rw [hleading, if_pos hpos, map_toPiece_comments]
  · intro c hc
    obtain ⟨hstands, hle, hstop⟩ := h.of_mem (List.mem_filter.mp hc).1
    obtain ⟨hlt, hsize⟩ := hstands.bounds
    exact ⟨hle, hlt, hsize, Nat.le_trans hstop h.stop_le_skipTrivia⟩
  · intro c hc
    rw [hleading] at hc
    by_cases hpos : pos = 0
    · rw [if_pos hpos] at hc
      exact h.endsLine_iff (List.nil_append pieces).symm hc
    · rw [if_neg hpos] at hc
      exact h.endsLine_iff hsplit.symm hc

/-- Behind the `a` one comment trails, and one leads from the next line on. -/
theorem Comment.trailing_append_leading_two :
    let text := #['a', '/', '/', '\n', '/', '*', '*', '/']
    let pieces : List TriviaPiece :=
      [⟨.singleLineComment, 1, 3⟩, ⟨.newLine, 3, 4⟩, ⟨.multiLineComment, 4, 8⟩]
    Gap text 1 pieces 8 ∧ 0 < 1 ∧ (trailing text 1 ++ leading text 1).map toPiece
      = [⟨.singleLineComment, 1, 3⟩, ⟨.multiLineComment, 4, 8⟩] := by
  intro text pieces
  have hline : RestOfLine text 3 3 := by
    refine ⟨Nat.le_refl 3, by decide, ?_, ?_⟩
    · intro k c hle hlt
      omega
    · intro c hc
      obtain rfl : '\n' = c := Option.some.inj hc
      decide
  have hblock : RestOfBlock text 6 8 := by
    refine .closed (k := 6) ⟨rfl, rfl⟩ (Nat.le_refl 6) ?_
    intro j hle hlt
    omega
  have hend : Gap text 8 [] 8 := by
    refine .done ?_
    intro p hp heq
    have hlt : p.pos < 8 := Nat.lt_of_lt_of_le hp.bounds.1 hp.bounds.2
    omega
  have hgap : Gap text 1 pieces 8 :=
    .piece (.singleLineComment rfl rfl hline)
      (.piece (.newLine (c := '\n') rfl (by decide) (by decide))
        (.piece (.multiLineComment rfl rfl hblock) hend))
  exact ⟨hgap, Nat.one_pos, ((trailing_append_leading text 1).2 pieces 8 hgap).2.1 Nat.one_pos⟩

end ScriptSyntax
