/-
  ScriptSyntax/Proofs/Token/Placed.lean
  =====================================
  Where a token starts, in whichever way it is read.

  A node keeps the place where the trivia before its first token start, and the start of the token
  is looked for later, by skipping trivia.  Scanned tokens are found that way.  So are tokens that
  are read between tags or as the value of an attribute, where no trivia are skipped: they start
  with a character that starts no trivia, for no token ends where a conflict marker stands.  What
  is not found is the start of text between tags, if the text starts like trivia do.
-/
import ScriptSyntax.Proofs.Token.Closed

namespace ScriptSyntax

variable {text : Array Char} {pos : Nat} {c : Char}

/-! ## 1. Starts of tokens -/

/-- Where no trivia start, the first token starts. -/
theorem tokenStartAt_of_noTrivia (h : NoTrivia text pos) (hash : hasCharAt text pos '#' = false) :
    tokenStartAt text pos = pos := by
  have hshebang : isShebang text pos = false := by
    apply Bool.eq_false_iff.mpr
    intro hshebang
    simp only [isShebang, Bool.and_eq_true, beq_iff_eq] at hshebang
    rw [hshebang.1.1, hshebang.1.2] at hash
    exact Bool.noConfusion hash
  simp [tokenStartAt, skipTrivia, hshebang, skipTriviaFrom_of_noTrivia h]

theorem noTrivia_tokenStartAt (text : Array Char) (pos : Nat) :
    NoTrivia text (tokenStartAt text pos) := by
  have hno : NoTrivia text (triviaRunFrom text {} [] pos).stop := (stop_triviaRunFrom {} []).2
  rwa [(stop_triviaRunFrom {} []).1] at hno

/-- The token starts where the trivia before it end, or, if it is text between tags, where the token
before it ends. Where one token ends and the next one starts there is no conflict marker. -/
structure Token.Placed (text : Array Char) (t : Token) : Prop extends t.InText text where
  start_eq : t.start =
    if t.kind.isJsxText = true then t.fullStart else tokenStartAt text t.fullStart
  pos_of_isJsxText : t.kind.isJsxText = true → 0 < t.fullStart
  unmarkedBefore : 0 < t.fullStart → isConflictMarker text t.fullStart = false
  unmarkedAfter : isConflictMarker text t.stop = false

theorem scanAt_placed (h : pos ≤ text.size)
    (hunmarked : 0 < pos → isConflictMarker text pos = false) :
    (scanAt text pos).1.Placed text := by
  have hlexeme : (scanAt text pos).1.kind.isJsxText = false
      ∧ isConflictMarker text (scanAt text pos).1.stop = false := by
    have hno : NoTrivia text (triviaRun text pos).stop := (stop_triviaRunFrom {} []).2
    unfold scanAt
    dsimp only
    split
    · rename_i c hc
      have hspace := hno.space c hc
      simp only [isWhiteSpaceLike, Bool.or_eq_false_iff] at hspace
      have hclosed := lexemeAt_closed hc hspace.2
      exact ⟨hclosed.kind, hclosed.unmarked⟩
    · rename_i hnone
      exact ⟨rfl, isConflictMarker_of_size_le (Array.getElem?_eq_none_iff.mp hnone)⟩
  constructor
  · exact (scanAt_inText h).token
  · simp [hlexeme.1]
  · simp [hlexeme.1]
  · simpa using hunmarked
  · exact hlexeme.2

/-- A character that starts no trivia, unless as the first one of a conflict marker. -/
theorem tokenStartAt_of_char (hc : text[pos]? = some c)
    (hchar : (isWhiteSpaceLike c || c == '/' || c == '#') = false)
    (hmarker : isConflictMarker text pos = false) : tokenStartAt text pos = pos := by
  simp only [Bool.or_eq_false_iff] at hchar
  apply tokenStartAt_of_noTrivia
  · constructor
    · intro d hd
      rw [hc] at hd
      cases hd
      exact hchar.1.1
    · intro hslash
      rw [hasCharAt, hc] at hslash
      simp_all
    · exact hmarker
  · simp [hasCharAt, hc, hchar.2]

theorem tokenStartAt_of_size_le (h : text.size ≤ pos) : tokenStartAt text pos = pos := by
  have hnone : text[pos]? = none := Array.getElem?_eq_none h
  apply tokenStartAt_of_noTrivia
  · constructor
    · simp [hnone]
    · simp [hasCharAt, hnone]
    · exact isConflictMarker_of_size_le h
  · simp [hasCharAt, hnone]

/-- Between tags a lexeme is text, or it starts with an angle or a brace. -/
theorem jsxLexemeAt_cases (text : Array Char) (pos : Nat) (hc : text[pos]? = some c) :
    isConflictMarker text (Token.jsxLexemeAt text pos c).stop = false
      ∧ ((Token.jsxLexemeAt text pos c).kind.isJsxText = true
        ∨ ((Token.jsxLexemeAt text pos c).kind.isJsxText = false
          ∧ (isWhiteSpaceLike c || c == '/' || c == '#') = false)) := by
  unfold Token.jsxLexemeAt
  split
  · rename_i hangle
    obtain rfl : c = '<' := beq_iff_eq.mp hangle
    refine ⟨isConflictMarker_of_isLineStart ?_, .inr ⟨rfl, by decide⟩⟩
    split
    · rename_i hslash
      exact isLineStart_of_hasCharAt hslash
    · exact isLineStart_of_eq_some hc
  · split
    · rename_i hbrace
      obtain rfl : c = '{' := beq_iff_eq.mp hbrace
      exact ⟨isConflictMarker_of_isLineStart (isLineStart_of_eq_some hc), .inr ⟨rfl, by decide⟩⟩
    · exact ⟨isConflictMarker_jsxTextFrom _ _ _, .inl (isJsxText_jsxTextFrom _ _ _)⟩

theorem scanJsxAt_placed (h : pos ≤ text.size) (hpos : pos < text.size → 0 < pos)
    (hunmarked : isConflictMarker text pos = false) :
    (Token.scanJsxAt text pos).1.Placed text := by
  constructor
  · exact (scanJsxAt_inText h).token
  · unfold Token.scanJsxAt
    split
    · rename_i c hc
      rcases (jsxLexemeAt_cases text pos hc).2 with hkind | ⟨hkind, hchar⟩
      · simp [Lexeme.toToken, hkind]
      · simp [Lexeme.toToken, hkind, tokenStartAt_of_char hc hchar hunmarked]
    · rename_i hnone
      simp [tokenStartAt_of_size_le (Array.getElem?_eq_none_iff.mp hnone)]
  · unfold Token.scanJsxAt
    split
    · rename_i c hc
      exact fun _ => hpos (lt_size_of_eq_some hc)
    · exact nofun
  · intro _
    simpa using hunmarked
  · unfold Token.scanJsxAt
    split
    · rename_i c hc
      exact (jsxLexemeAt_cases text pos hc).1
    · exact hunmarked

theorem nextJsxAttributeValue_placed {t : Token} (h : t.stop ≤ text.size)
    (hunmarked : isConflictMarker text t.stop = false) :
    (t.nextJsxAttributeValue text).1.Placed text := by
  have hscan : (t.next text).1.Placed text := scanAt_placed h fun _ => hunmarked
  have hin := (nextJsxAttributeValue_inText h).token
  unfold Token.nextJsxAttributeValue at hin ⊢
  split
  · rename_i c hc
    split
    · rename_i hquote
      have hchar : (isWhiteSpaceLike c || c == '/' || c == '#') = false ∧ isLineBreak c = false := by
        rcases Bool.or_eq_true_iff.mp hquote with hq | hq <;> rw [beq_iff_eq.mp hq] <;> decide
      constructor
      · simpa [hc, hquote] using hin
      · simp [Kind.isJsxText, tokenStartAt_of_char hc hchar.1 hunmarked]
      · exact nofun
      · exact fun _ => hunmarked
      · dsimp only
        split
        · rename_i hlt
          have hlast : text[scanWhile (fun d => d != c) text (t.stop + 1)] = c := by
            simpa using scanWhile_stops (Array.getElem?_eq_getElem hlt)
          apply isConflictMarker_of_isLineStart
          rw [isLineStart_of_lt hlt, hlast]
          exact hchar.2
        · rename_i hclosed
          exact isConflictMarker_of_size_le (Nat.le_of_not_lt hclosed)
    · exact hscan
  · exact hscan

/-! ## 2. Reading on, and reading again -/

variable {t : Token}

/-- A token that is read again as another one from the same place on. -/
theorem Token.Placed.reread {t' : Token} (h : t.Placed text) (hin : t'.InText text)
    (hfull : t'.fullStart = t.fullStart) (hstart : t'.start = t.start)
    (hkind : t'.kind.isJsxText = t.kind.isJsxText) (hafter : isConflictMarker text t'.stop = false) :
    t'.Placed text where
  toInText := hin
  start_eq := by
    rw [hstart, hkind, hfull]
    exact h.start_eq
  pos_of_isJsxText := by
    rw [hkind, hfull]
    exact h.pos_of_isJsxText
  unmarkedBefore := by
    rw [hfull]
    exact h.unmarkedBefore
  unmarkedAfter := hafter

theorem rescanGreater_placed (h : t.Placed text) : (t.rescanGreater text).1.Placed text := by
  have hin := (rescanGreater_inText h.toInText).token
  unfold Token.rescanGreater at hin ⊢
  split
  · rename_i hkind
    rw [if_pos hkind] at hin
    refine h.reread hin rfl rfl (by rw [beq_iff_eq.mp hkind]; rfl) ?_
    dsimp only
    rcases last_of_greaterThanOf text[t.stop]? text[t.stop + 1]? text[t.stop + 2]?
      with hlen | ⟨hlen, hlast⟩ | ⟨hlen, hlast⟩ | ⟨hlen, hlast⟩
    · rw [hlen]
      exact h.unmarkedAfter
    · rw [hlen]
      exact isConflictMarker_of_isLineStart ((isLineStart_succ _ _).trans hlast)
    · rw [hlen]
      exact isConflictMarker_of_isLineStart ((isLineStart_succ _ _).trans hlast)
    · rw [hlen]
      exact isConflictMarker_of_isLineStart ((isLineStart_succ _ _).trans hlast)
  · exact h

theorem rescanLess_placed (h : t.Placed text) : t.rescanLess.1.Placed text := by
  have hin := (rescanLess_inText h.toInText).token
  unfold Token.rescanLess at hin ⊢
  split
  · rename_i hkind
    rw [if_pos hkind] at hin
    have hkind := beq_iff_eq.mp hkind
    refine h.reread hin rfl rfl (by rw [hkind]; rfl) ?_
    -- the first character of a token starts no trivia, so it is no line break
    have hno : NoTrivia text t.start := by
      rw [h.start_eq, hkind]
      exact noTrivia_tokenStartAt text t.fullStart
    have hlt := h.start_lt_size (by simp [hkind])
    have hspace := hno.space text[t.start] (Array.getElem?_eq_getElem hlt)
    simp only [isWhiteSpaceLike, Bool.or_eq_false_iff] at hspace
    apply isConflictMarker_of_isLineStart
    exact (isLineStart_of_lt hlt).trans hspace.2
  · exact h

theorem isConflictMarker_scanWhile {p : Char → Bool} (hp : ∀ c, p c = true → isLineBreak c = false)
    (h : isConflictMarker text pos = false) :
    isConflictMarker text (scanWhile p text pos) = false := by
  rw [scanWhile]
  split
  · rename_i hlt
    split
    · rename_i hfirst
      apply isConflictMarker_of_isLineStart
      apply isLineStart_scanWhile hp
      exact (isLineStart_of_lt hlt).trans (hp _ hfirst)
    · exact h
  · exact h

/-- The body of a regular expression ends with a slash, before a line break, or with the text. -/
theorem isConflictMarker_regexBodyEnd (escaped inClass : Bool) (pos : Nat) :
    isConflictMarker text (Token.regexBodyEnd text escaped inClass pos).1 = false := by
  fun_induction Token.regexBodyEnd text escaped inClass pos with
  | case1 escaped inClass pos hlt c hbreak =>
    apply isConflictMarker_of_isWhiteSpaceLike hlt
    exact Bool.or_eq_true_iff.mpr (.inr hbreak)
  | case2 inClass pos hlt c hbreak ih => exact ih
  | case3 escaped inClass pos hlt c hbreak hescaped hclose =>
    apply isConflictMarker_of_isLineStart
    exact (isLineStart_of_lt hlt).trans (by simpa using hbreak)
  | case4 escaped inClass pos hlt c hbreak hescaped hclose ih => exact ih
  | case5 escaped inClass pos hlt => exact isConflictMarker_of_size_le (Nat.le_of_not_lt hlt)

theorem rescanSlash_placed (h : t.Placed text) : (t.rescanSlash text).1.Placed text := by
  have hin := (rescanSlash_inText h.toInText).token
  unfold Token.rescanSlash at hin ⊢
  split
  · rename_i hkind
    rw [if_pos hkind] at hin
    have hplain : t.kind.isJsxText = false := by
      rcases Bool.or_eq_true_iff.mp hkind with hk | hk <;> rw [beq_iff_eq.mp hk] <;> rfl
    refine h.reread hin rfl rfl hplain.symm ?_
    exact isConflictMarker_scanWhile (fun _ => isLineBreak_of_isIdentifierPart)
      (isConflictMarker_regexBodyEnd _ _ _)
  · exact h

theorem rescanTemplate_placed (h : t.Placed text) (hkind : t.kind = .punct .closeBrace) :
    (t.rescanTemplate text).1.Placed text := by
  have hin := (rescanTemplate_inText h.toInText (by simp [hkind])).token
  have hclosed : (readTemplate text (hasCharAt text t.start '\x60') {} (t.start + 1)).Closed text :=
    readTemplate_closed _ {} (t.start + 1)
  refine h.reread hin rfl rfl ?_ hclosed.unmarked
  rw [hkind]
  exact hclosed.kind

theorem scanJsxName_placed (h : t.Placed text) : (t.scanJsxName text).1.Placed text := by
  have hin := (scanJsxName_inText h.toInText).token
  unfold Token.scanJsxName at hin ⊢
  split
  · rename_i hname
    rw [if_pos hname] at hin
    refine h.reread hin rfl rfl rfl (isConflictMarker_scanWhile ?_ h.unmarkedAfter)
    intro c hc
    rcases Bool.or_eq_true_iff.mp hc with hc | hc
    · rw [beq_iff_eq.mp hc]
      decide
    · exact isLineBreak_of_isIdentifierPart hc
  · exact h

/-- Where the grammar reads a token again: as the rest of a template if it is a closing brace, and as
one between tags if something comes before it. -/
structure ReadingMode.FitsAt (mode : ReadingMode) (t : Token) : Prop where
  template : mode.FitsToken t
  jsx : mode = .rescanJsx → 0 < t.fullStart

/-- Only two ways of reading ask for anything. -/
theorem ReadingMode.FitsAt.of_ne {mode : ReadingMode} (htemplate : mode ≠ .rescanTemplate)
    (hjsx : mode ≠ .rescanJsx) : mode.FitsAt t where
  template h := absurd h htemplate
  jsx h := absurd h hjsx

theorem ReadingMode.FitsAt.of_closeBrace (h : t.kind = .punct .closeBrace) :
    ReadingMode.rescanTemplate.FitsAt t where
  template _ := h
  jsx hjsx := absurd hjsx (by decide)

theorem ReadingMode.fitsAt_of_movesOn {mode : ReadingMode} (h : mode.movesOn = true) :
    mode.FitsAt t := by
  apply FitsAt.of_ne
  · rintro rfl
    cases h
  · rintro rfl
    cases h

theorem ReadingMode.read_placed (mode : ReadingMode) (h : t.Placed text) (hfits : mode.FitsAt t) :
    (mode.read text t).1.Placed text := by
  cases mode with
  | scan => exact scanAt_placed h.stop_le fun _ => h.unmarkedAfter
  | rescanGreater => exact rescanGreater_placed h
  | rescanSlash => exact rescanSlash_placed h
  | rescanTemplate => exact rescanTemplate_placed h (hfits.template rfl)
  | rescanLess => exact rescanLess_placed h
  | extendJsxName => exact scanJsxName_placed h
  | scanJsx =>
    refine scanJsxAt_placed h.stop_le (fun hlt => ?_) h.unmarkedAfter
    have hkind : t.kind ≠ .endOfFile := fun hend => Nat.ne_of_lt hlt (h.atEnd hend)
    exact Nat.zero_lt_of_lt (h.fullStart_lt_stop hkind)
  | scanJsxAttributeValue => exact nextJsxAttributeValue_placed h.stop_le h.unmarkedAfter
  | rescanJsx =>
    have hle : t.fullStart ≤ text.size := Nat.le_trans h.fullStart_le_stop h.stop_le
    exact scanJsxAt_placed hle (fun _ => hfits.jsx rfl) (h.unmarkedBefore (hfits.jsx rfl))

/-! ## 3. Tokens that are read over -/

/-- Reading leads from the first token to the last one. The tokens listed are those that are left
behind, each as it was read last. -/
inductive ReadsOver (text : Array Char) (first : Token) : List Token → Token → Prop
  | here : ReadsOver text first [] first
  | again {tokens : List Token} {t : Token} (mode : ReadingMode)
      (before : ReadsOver text first tokens t) (again : mode.movesOn = false)
      (fits : mode.FitsAt t) : ReadsOver text first tokens (mode.read text t).1
  | on {tokens : List Token} {t : Token} (mode : ReadingMode)
      (before : ReadsOver text first tokens t) (on : mode.movesOn = true) :
      ReadsOver text first (tokens ++ [t]) (mode.read text t).1

namespace ReadsOver

variable {t u v : Token} {tokens tokens' : List Token}

theorem trans (h : ReadsOver text t tokens u) (h' : ReadsOver text u tokens' v) :
    ReadsOver text t (tokens ++ tokens') v := by
  induction h' with
  | here => simpa using h
  | again mode _ again fits ih => exact .again mode ih again fits
  | on mode _ on ih =>
    rw [← List.append_assoc]
    exact .on mode ih on

/-- One step of reading leaves at most its own token behind. -/
theorem exists_step (mode : ReadingMode) (hfits : mode.FitsAt t) :
    ∃ tokens, ReadsOver text t tokens (mode.read text t).1 := by
  cases hon : mode.movesOn with
  | true => exact ⟨_, .on mode .here hon⟩
  | false => exact ⟨_, .again mode .here hon hfits⟩

/-- Reading keeps to places where tokens are found. -/
theorem placed (h : ReadsOver text t tokens u) (ht : t.Placed text) :
    u.Placed text ∧ ∀ k ∈ tokens, k.Placed text := by
  induction h with
  | here => exact ⟨ht, fun _ hk => absurd hk List.not_mem_nil⟩
  | again mode _ _ fits ih => exact ⟨mode.read_placed ih.1 fits, ih.2⟩
  | on mode _ on ih =>
    refine ⟨mode.read_placed ih.1 (ReadingMode.fitsAt_of_movesOn on), ?_⟩
    intro k hk
    rcases List.mem_append.mp hk with hk | hk
    · exact ih.2 k hk
    · rw [List.mem_singleton.mp hk]
      exact ih.1

end ReadsOver

end ScriptSyntax
