/-
  ScriptSyntax/Proofs/Token/Bounds.lean
  =====================================
  Every way of reading gives a token in the text.

  A token that is not the end of the file takes room, and reading on never goes
  back behind the start of the token before.  Rescans may shorten or lengthen a
  token, but they keep the place where its trivia start.
-/
import ScriptSyntax.Proofs.Token.Extent

namespace ScriptSyntax

variable {text : Array Char} {pos : Nat}

/-! ## 1. Lexemes -/

/-- The lexeme takes at least one character after `pos`, all of them are in the text, and so are the
places of its errors. -/
structure Lexeme.Within (text : Array Char) (pos : Nat) (l : Lexeme) : Prop where
  lt_stop : pos < l.stop
  stop_le : l.stop ≤ text.size
  kind_ne : l.kind ≠ .endOfFile
  errors : ErrorsIn text l.errors

theorem Cooked.errorsIn_pushEscape {k : Cooked} {e : Escape} (hk : ErrorsIn text k.errors)
    (he : ErrorsIn text e.errors) : ErrorsIn text (k.pushEscape e).errors :=
  errorsIn_append.mpr ⟨hk, he⟩

theorem Cooked.unterminated_within {k : Cooked} {kind : Kind} (m : Message) {start : Nat}
    (hk : ErrorsIn text k.errors) (hkind : kind ≠ .endOfFile) (hstart : start < pos)
    (h : pos ≤ text.size) : (k.unterminated kind m pos).Within text start :=
  ⟨hstart, h, hkind, errorsIn_append.mpr ⟨hk, errorsIn_singleton.mpr h⟩⟩

theorem readString_within (quote : Char) {k : Cooked} {start : Nat} (hk : ErrorsIn text k.errors)
    (hstart : start < pos) (h : pos ≤ text.size) : (readString text quote k pos).Within text start := by
  fun_induction readString text quote k pos with
  | case1 k pos hlt c hc => exact ⟨Nat.lt_succ_of_lt hstart, hlt, nofun, hk⟩
  | case2 k pos hlt c hc hescape e ih =>
    exact ih (k.errorsIn_pushEscape hk (errorsIn_escape hlt))
      (Nat.lt_trans hstart (Escape.lt_stop_read text pos)) (stop_escape_le_size hlt)
  | case3 k pos hlt c hc hescape hbreak => exact k.unterminated_within _ hk nofun hstart h
  | case4 k pos hlt c hc hescape hbreak ih => exact ih hk (Nat.lt_succ_of_lt hstart) hlt
  | case5 k pos hlt => exact k.unterminated_within _ hk nofun hstart h

theorem lastPieceKind_ne (first : Bool) : lastPieceKind first ≠ .endOfFile := by
  cases first <;> nofun

theorem openPieceKind_ne (first : Bool) : openPieceKind first ≠ .endOfFile := by
  cases first <;> nofun

theorem readTemplate_within (first : Bool) {k : Cooked} {start : Nat} (hk : ErrorsIn text k.errors)
    (hstart : start < pos) (h : pos ≤ text.size) : (readTemplate text first k pos).Within text start := by
  fun_induction readTemplate text first k pos with
  | case1 k pos hlt c hc => exact ⟨Nat.lt_succ_of_lt hstart, hlt, lastPieceKind_ne first, hk⟩
  | case2 k pos hlt c hc hopen =>
    simp only [Bool.and_eq_true] at hopen
    have hstop : pos + 1 < text.size := lt_size_of_hasCharAt hopen.2
    exact ⟨Nat.lt_add_right 2 hstart, hstop, openPieceKind_ne first, hk⟩
  | case3 k pos hlt c hc hopen hescape e ih =>
    exact ih (k.errorsIn_pushEscape hk (errorsIn_escape hlt))
      (Nat.lt_trans hstart (Escape.lt_stop_read text pos)) (stop_escape_le_size hlt)
  | case4 k pos hlt c hc hopen hescape hreturn hfeed ih =>
    exact ih hk (Nat.lt_add_right 2 hstart) (lt_size_of_hasCharAt hfeed)
  | case5 k pos hlt c hc hopen hescape hreturn hfeed ih => exact ih hk (Nat.lt_succ_of_lt hstart) hlt
  | case6 k pos hlt c hc hopen hescape hreturn ih => exact ih hk (Nat.lt_succ_of_lt hstart) hlt
  | case7 k pos hlt => exact k.unterminated_within _ hk (lastPieceKind_ne first) hstart h

theorem readTemplatePiece_within (h : pos < text.size) :
    (readTemplatePiece text pos).Within text pos :=
  readTemplate_within _ errorsIn_nil (Nat.lt_succ_self pos) h

theorem wordKind_ne (word : String) : wordKind word ≠ .endOfFile := by
  unfold wordKind
  split <;> nofun

theorem readWordFrom_within (word : String) (escaped : Bool) {start : Nat} (hstart : start < pos)
    (h : pos ≤ text.size) : (readWordFrom text word escaped pos).Within text start := by
  fun_induction readWordFrom text word escaped pos with
  | case1 word escaped pos hlt c hc ih => exact ih (Nat.lt_succ_of_lt hstart) hlt
  | case2 word escaped pos hlt c hc d stop he hd ih =>
    exact ih (Nat.lt_trans hstart (Escape.lt_of_inIdentifier? he)) (inIdentifier?_le_size he)
  | case3 word escaped pos hlt c hc d stop he hd => exact ⟨hstart, h, wordKind_ne word, errorsIn_nil⟩
  | case4 word escaped pos hlt c hc he => exact ⟨hstart, h, wordKind_ne word, errorsIn_nil⟩
  | case5 word escaped pos hlt => exact ⟨hstart, h, wordKind_ne word, errorsIn_nil⟩

/-- A word that starts with a character that may start one takes at least that character. -/
theorem readWord_within_of_start (h : pos < text.size) (hstart : isIdentifierStart text[pos]) :
    (readWord text pos).Within text pos := by
  unfold readWord
  rw [readWordFrom]
  simp only [h, ↓reduceDIte, isIdentifierPart_of_isIdentifierStart hstart, ↓reduceIte]
  exact readWordFrom_within _ _ (Nat.lt_succ_self pos) h

/-- A word that starts with an escape takes at least that escape. -/
theorem readWord_within_of_escape {d : Char} {stop : Nat} (h : pos < text.size)
    (he : Escape.inIdentifier? text pos = some (d, stop)) (hd : isIdentifierStart d) :
    (readWord text pos).Within text pos := by
  have hstop := Escape.lt_of_inIdentifier? he
  have hle := inIdentifier?_le_size he
  unfold readWord
  rw [readWordFrom]
  simp only [h, ↓reduceDIte]
  split
  · exact readWordFrom_within _ _ (Nat.lt_succ_self pos) h
  · split
    · rename_i d' stop' he'
      rw [he] at he'
      cases he'
      simp only [isIdentifierPart_of_isIdentifierStart hd, ↓reduceIte]
      exact readWordFrom_within _ _ hstop hle
    · rename_i he'
      rw [he] at he'
      cases he'

/-! ## 2. Numbers -/

theorem digitRunFrom_bounds (valid : Char → Bool) (hasDigit separated : Bool)
    (h : pos ≤ text.size) :
    pos ≤ (digitRunFrom valid text hasDigit separated pos).stop
      ∧ (digitRunFrom valid text hasDigit separated pos).stop ≤ text.size := by
  fun_induction digitRunFrom valid text hasDigit separated pos with
  | case1 hasDigit separated pos hlt c hc ih =>
    exact ⟨Nat.le_of_succ_le (ih hlt).1, (ih hlt).2⟩
  | case2 hasDigit separated pos hlt c hc hvalid ih =>
    exact ⟨Nat.le_of_succ_le (ih hlt).1, (ih hlt).2⟩
  | case3 hasDigit separated pos hlt c hc hvalid => exact ⟨Nat.le_refl _, h⟩
  | case4 hasDigit separated pos hlt => exact ⟨Nat.le_refl _, h⟩

theorem digitRun_bounds (valid : Char → Bool) (pos : Nat) (h : pos ≤ text.size) :
    pos ≤ (digitRun valid text pos).stop ∧ (digitRun valid text pos).stop ≤ text.size :=
  digitRunFrom_bounds valid false false h

/-- A row that starts with a digit holds it. -/
theorem lt_stop_digitRun {valid : Char → Bool} (h : pos < text.size) (hvalid : valid text[pos]) :
    pos < (digitRun valid text pos).stop := by
  unfold digitRun
  rw [digitRunFrom]
  simp only [h, ↓reduceDIte, Bool.and_false, Bool.false_and, Bool.false_eq_true, ↓reduceIte,
    hvalid]
  exact (digitRunFrom_bounds valid true false h).1

theorem DigitRun.errorsIn_missing {r : DigitRun} (m : Message) (h : r.stop ≤ text.size) :
    ErrorsIn text (r.missing m) := by
  unfold DigitRun.missing
  split
  · exact errorsIn_nil
  · exact errorsIn_singleton.mpr h

theorem errorsIn_identifierAfterNumber (h : pos ≤ text.size) :
    ErrorsIn text (identifierAfterNumber text pos) := by
  have hle := le_scanWhile isIdentifierPart text pos
  have hsize := scanWhile_le_size isIdentifierPart text pos h
  unfold identifierAfterNumber
  split
  · exact errorsIn_singleton.mpr (by dsimp only; omega)
  · exact errorsIn_nil

theorem finishNumber_within {stop : Nat} (integer : Bool) (flags : TokenFlags)
    {errors : List ScanError} (herrors : ErrorsIn text errors) (hlt : pos < stop)
    (hle : stop ≤ text.size) : (finishNumber text pos stop integer flags errors).Within text pos := by
  unfold finishNumber
  dsimp only
  split
  · rename_i hbig
    simp only [Bool.and_eq_true] at hbig
    have hsize : stop + 1 ≤ text.size := lt_size_of_hasCharAt hbig.2
    exact ⟨Nat.lt_succ_of_lt hlt, hsize, nofun,
      errorsIn_append.mpr ⟨herrors, errorsIn_identifierAfterNumber hsize⟩⟩
  · exact ⟨hlt, hle, nofun, errorsIn_append.mpr ⟨herrors, errorsIn_identifierAfterNumber hle⟩⟩

theorem readRadixNumber_within (r : Radix) (h : pos + 1 < text.size) :
    (readRadixNumber text r pos).Within text pos := by
  obtain ⟨hle, hsize⟩ := digitRun_bounds r.isDigit (pos + 2) h
  exact finishNumber_within _ _ (DigitRun.errorsIn_missing _ hsize)
    (Nat.lt_of_lt_of_le (Nat.lt_add_of_pos_right Nat.two_pos) hle) hsize

theorem readLegacyOctal_within (h : pos < text.size) :
    (readLegacyOctal text pos).Within text pos := by
  obtain ⟨hle, hsize⟩ := digitRun_bounds isOctalDigit (pos + 1) h
  exact finishNumber_within _ _ errorsIn_nil hle hsize

theorem exponentRun?_bounds {r : DigitRun} (h : exponentRun? text pos = some r) :
    pos ≤ r.stop ∧ r.stop ≤ text.size := by
  unfold exponentRun? at h
  split at h
  · rename_i hletter
    have hpos : pos < text.size := by
      rcases Bool.or_eq_true_iff.mp hletter with hc | hc <;> exact lt_size_of_hasCharAt hc
    dsimp only at h
    cases h
    split
    · rename_i hsign
      have hnext : pos + 1 < text.size := by
        rcases Bool.or_eq_true_iff.mp hsign with hc | hc <;> exact lt_size_of_hasCharAt hc
      have := digitRun_bounds isDigit (pos + 2) hnext
      exact ⟨by omega, this.2⟩
    · have := digitRun_bounds isDigit (pos + 1) hpos
      exact ⟨by omega, this.2⟩
  · cases h

/-- The digits of a decimal number up to its exponent: a digit or a point is among them. -/
theorem readDecimal_within (h : pos < text.size)
    (hc : isDigit text[pos] = true ∨ hasCharAt text pos '.' = true) :
    (readDecimal text pos).Within text pos := by
  -- the whole part takes the digit, or the point after it is taken with the fraction
  have hwhole : ∀ whole : DigitRun,
      whole = (if hasCharAt text pos '.' then ⟨pos, false, false⟩ else digitRun isDigit text pos) →
      pos ≤ whole.stop ∧ whole.stop ≤ text.size
        ∧ (hasCharAt text whole.stop '.' = false → pos < whole.stop) := by
    rintro whole rfl
    split
    · rename_i hpoint
      exact ⟨Nat.le_refl _, Nat.le_of_lt h, fun hno => by simp [hpoint] at hno⟩
    · rename_i hpoint
      have hb := digitRun_bounds isDigit pos (Nat.le_of_lt h)
      have hlt := lt_stop_digitRun h (hc.resolve_right hpoint)
      exact ⟨hb.1, hb.2, fun _ => hlt⟩
  unfold readDecimal
  dsimp only
  generalize hw : (if hasCharAt text pos '.' then (⟨pos, false, false⟩ : DigitRun)
    else digitRun isDigit text pos) = whole
  obtain ⟨hle, hsize, hlt⟩ := hwhole whole hw.symm
  generalize hf : (if hasCharAt text whole.stop '.' then digitRun isDigit text (whole.stop + 1)
    else (⟨whole.stop, false, false⟩ : DigitRun)) = fraction
  have hfraction : pos < fraction.stop ∧ fraction.stop ≤ text.size := by
    subst hf
    split
    · rename_i hpoint
      have := digitRun_bounds isDigit (whole.stop + 1) (lt_size_of_hasCharAt hpoint)
      exact ⟨by omega, this.2⟩
    · rename_i hpoint
      exact ⟨hlt (by simpa using hpoint), hsize⟩
  split
  · exact finishNumber_within _ _ errorsIn_nil hfraction.1 hfraction.2
  · rename_i exponent he
    have hb := exponentRun?_bounds he
    exact finishNumber_within _ _ (DigitRun.errorsIn_missing _ hb.2)
      (Nat.lt_of_lt_of_le hfraction.1 hb.1) hb.2

theorem readNumber_within (h : pos < text.size)
    (hc : isDigit text[pos] = true ∨ hasCharAt text pos '.' = true) :
    (readNumber text pos).Within text pos := by
  unfold readNumber
  split
  · split
    · rename_i r hr
      obtain ⟨c, hnext, -⟩ := Option.bind_eq_some_iff.mp hr
      exact readRadixNumber_within r (lt_size_of_eq_some hnext)
    · split
      · exact readLegacyOctal_within h
      · exact readDecimal_within h hc
  · exact readDecimal_within h hc

/-! ## 3. Punctuation -/

/-- A punctuator is as long as the characters that it was recognized by. -/
theorem length_of_punctuatorOf? {c : Char} {c₁ c₂ : Option Char} {p : Punctuator}
    (h : punctuatorOf? c c₁ c₂ = some p) :
    0 < p.text.length ∧ p.text.length ≤ 3 ∧ (1 < p.text.length → c₁.isSome)
      ∧ (2 < p.text.length → c₂.isSome) := by
  unfold punctuatorOf? at h
  split at h <;> (repeat' split at h) <;> cases h <;>
    refine ⟨by decide, by decide, fun hl => ?_, fun hl => ?_⟩ <;>
    first
    | exact absurd hl (by decide)
    | clear hl; simp_all

theorem punctuator_lexeme_within {p : Punctuator} (h : punctuatorAt? text pos = some p) :
    (p.lexeme pos).Within text pos := by
  obtain ⟨c, hc, hp⟩ := Option.bind_eq_some_iff.mp h
  have hpos := lt_size_of_eq_some hc
  obtain ⟨hlen, hmax, hone, htwo⟩ := length_of_punctuatorOf? hp
  have hnext : 1 < p.text.length → pos + 1 < text.size := fun hl => by
    obtain ⟨d, hd⟩ := Option.isSome_iff_exists.mp (hone hl)
    exact lt_size_of_eq_some hd
  have hlast : 2 < p.text.length → pos + 2 < text.size := fun hl => by
    obtain ⟨d, hd⟩ := Option.isSome_iff_exists.mp (htwo hl)
    exact lt_size_of_eq_some hd
  have hsize : pos + p.text.length ≤ text.size := by omega
  exact ⟨Nat.lt_add_of_pos_right hlen, hsize, nofun, errorsIn_nil⟩

/-- What is joined to a `>` is there to be joined. -/
theorem length_greaterThanOf (c c₁ c₂ : Option Char) :
    (1 < (greaterThanOf c c₁ c₂).text.length → c.isSome)
      ∧ (2 < (greaterThanOf c c₁ c₂).text.length → c₁.isSome)
      ∧ (3 < (greaterThanOf c c₁ c₂).text.length → c₂.isSome)
      ∧ (greaterThanOf c c₁ c₂).text.length ≤ 4 := by
  unfold greaterThanOf
  repeat' split
  all_goals
    refine ⟨fun hl => ?_, fun hl => ?_, fun hl => ?_, by decide⟩ <;>
      first
      | exact absurd hl (by decide)
      | clear hl; simp_all

/-! ## 4. Lexemes by their first character -/

theorem lexemeAt_within {c : Char} (hc : text[pos]? = some c) :
    (lexemeAt text pos c).Within text pos := by
  obtain ⟨h, rfl⟩ := Array.getElem?_eq_some_iff.mp hc
  have hinvalid : (invalidCharacter pos).Within text pos :=
    ⟨Nat.lt_succ_self pos, h, nofun, errorsIn_singleton.mpr h⟩
  unfold lexemeAt
  split
  · exact readString_within _ errorsIn_nil (Nat.lt_succ_self pos) h
  · split
    · exact readTemplatePiece_within h
    · split
      · rename_i hnumber
        refine readNumber_within h ?_
        rcases Bool.or_eq_true_iff.mp hnumber with hdigit | hpoint
        · exact .inl hdigit
        · simp only [Bool.and_eq_true, beq_iff_eq] at hpoint
          exact .inr (by simp [hasCharAt, h, hpoint.1])
      · split
        · rename_i p hp
          exact punctuator_lexeme_within hp
        · split
          · rename_i hstart
            exact readWord_within_of_start h hstart
          · split
            · rename_i d stop he
              split
              · rename_i hd
                exact readWord_within_of_escape h he hd
              · exact hinvalid
            · exact hinvalid

/-- Text between tags stays in the text, and goes on from where it starts. -/
theorem jsxTextFrom_bounds (seenText seenBreak : Bool) (errors : List ScanError)
    (h : pos ≤ text.size) :
    pos ≤ (Token.jsxTextFrom text seenText seenBreak errors pos).stop
      ∧ (Token.jsxTextFrom text seenText seenBreak errors pos).stop ≤ text.size := by
  fun_induction Token.jsxTextFrom text seenText seenBreak errors pos with
  | case1 seenText seenBreak errors pos hlt c hc => exact ⟨Nat.le_refl _, h⟩
  | case2 seenText seenBreak errors pos hlt c hc hangle hmarker ih =>
    have hle := lt_conflictMarkerEnd text pos
    have hstop := conflictMarkerEnd_le_size hlt
    exact ⟨by have := (ih hstop).1; omega, (ih hstop).2⟩
  | case3 seenText seenBreak errors pos hlt c hc hangle hmarker => exact ⟨Nat.le_refl _, h⟩
  | case4 seenText seenBreak errors pos hlt c hc hangle hbreak ih =>
    exact ⟨Nat.le_of_succ_le (ih hlt).1, (ih hlt).2⟩
  | case5 seenText seenBreak errors pos hlt c hc hangle hbreak hspace ih =>
    exact ⟨Nat.le_of_succ_le (ih hlt).1, (ih hlt).2⟩
  | case6 seenText seenBreak errors pos hlt c hc hangle hbreak hspace ih =>
    exact ⟨Nat.le_of_succ_le (ih hlt).1, (ih hlt).2⟩
  | case7 seenText seenBreak errors pos hlt => exact ⟨Nat.le_refl _, h⟩

/-- Text between tags that starts with neither a brace nor a tag takes its first character. -/
theorem lt_stop_jsxTextFrom {c : Char} (hc : text[pos]? = some c) (hangle : (c == '<') = false)
    (hbrace : (c == '{') = false) : pos < (Token.jsxTextFrom text false false [] pos).stop := by
  obtain ⟨h, rfl⟩ := Array.getElem?_eq_some_iff.mp hc
  rw [Token.jsxTextFrom]
  simp only [h, ↓reduceDIte, hbrace, hangle, Bool.false_eq_true, ↓reduceIte]
  repeat' split
  all_goals exact (jsxTextFrom_bounds _ _ _ h).1

/-- Text between tags. -/
def Kind.isJsxText : Kind → Bool
  | .literal .jsxText | .literal .jsxTextAllWhiteSpaces => true
  | _ => false

theorem Kind.eq_of_isJsxText {kind : Kind} (h : kind.isJsxText = true) :
    kind = .literal .jsxText ∨ kind = .literal .jsxTextAllWhiteSpaces := by
  unfold Kind.isJsxText at h
  split at h
  · exact .inl rfl
  · exact .inr rfl
  · cases h

theorem isJsxText_jsxTextFrom (seenText seenBreak : Bool) (errors : List ScanError) :
    (Token.jsxTextFrom text seenText seenBreak errors pos).kind.isJsxText = true := by
  have hdone (seenBreak : Bool) (errors : List ScanError) (pos : Nat) :
      (Token.jsxTextFrom.done seenBreak errors pos).kind.isJsxText = true := by
    cases seenBreak <;> rfl
  fun_induction Token.jsxTextFrom text seenText seenBreak errors pos <;>
    first | assumption | exact hdone _ _ _

theorem kind_jsxTextFrom_ne (seenText seenBreak : Bool) (errors : List ScanError) :
    (Token.jsxTextFrom text seenText seenBreak errors pos).kind ≠ .endOfFile := by
  intro hend
  have htext : (Token.jsxTextFrom text seenText seenBreak errors pos).kind.isJsxText = true :=
    isJsxText_jsxTextFrom seenText seenBreak errors
  rw [hend] at htext
  exact Bool.false_ne_true htext

theorem errorsIn_jsxTextFrom (seenText seenBreak : Bool) {errors : List ScanError}
    (herrors : ErrorsIn text errors) :
    ErrorsIn text (Token.jsxTextFrom text seenText seenBreak errors pos).errors := by
  fun_induction Token.jsxTextFrom text seenText seenBreak errors pos with
  | case2 seenText seenBreak errors pos hlt c hc hangle hmarker ih =>
    refine ih (errorsIn_append.mpr ⟨herrors, errorsIn_singleton.mpr ?_⟩)
    exact le_size_of_isConflictMarker hmarker
  | case1 => exact herrors
  | case3 => exact herrors
  | case4 seenText seenBreak errors pos hlt c hc hangle hbreak ih => exact ih herrors
  | case5 seenText seenBreak errors pos hlt c hc hangle hbreak hspace ih => exact ih herrors
  | case6 seenText seenBreak errors pos hlt c hc hangle hbreak hspace ih => exact ih herrors
  | case7 => exact herrors

theorem jsxLexemeAt_within {c : Char} (hc : text[pos]? = some c) :
    (Token.jsxLexemeAt text pos c).Within text pos := by
  have h := lt_size_of_eq_some hc
  unfold Token.jsxLexemeAt
  split
  · split
    · rename_i hslash
      exact ⟨Nat.lt_add_of_pos_right (by decide), lt_size_of_hasCharAt hslash, nofun, errorsIn_nil⟩
    · exact ⟨Nat.lt_succ_self pos, h, nofun, errorsIn_nil⟩
  · split
    · exact ⟨Nat.lt_succ_self pos, h, nofun, errorsIn_nil⟩
    · rename_i hangle hbrace
      exact ⟨lt_stop_jsxTextFrom hc (by simpa using hangle) (by simpa using hbrace),
        (jsxTextFrom_bounds _ _ _ (Nat.le_of_lt h)).2, kind_jsxTextFrom_ne _ _ _,
        errorsIn_jsxTextFrom _ _ errorsIn_nil⟩

/-! ## 5. Tokens -/

/-- The token stands in the text, and takes room unless it is the end of the file; that stands at the
end of the text. -/
structure Token.InText (text : Array Char) (t : Token) : Prop where
  fullStart_le : t.fullStart ≤ t.start
  start_le : t.start ≤ t.stop
  stop_le : t.stop ≤ text.size
  takesRoom : t.kind ≠ .endOfFile → t.start < t.stop
  atEnd : t.kind = .endOfFile → t.stop = text.size

theorem Token.InText.fullStart_le_stop {t : Token} (h : t.InText text) : t.fullStart ≤ t.stop :=
  Nat.le_trans h.fullStart_le h.start_le

/-- What comes after a token that is not the end of the file starts behind it. -/
theorem Token.InText.fullStart_lt_stop {t : Token} (h : t.InText text)
    (hkind : t.kind ≠ .endOfFile) : t.fullStart < t.stop :=
  Nat.lt_of_le_of_lt h.fullStart_le (h.takesRoom hkind)

theorem Token.InText.start_lt_size {t : Token} (h : t.InText text) (hkind : t.kind ≠ .endOfFile) :
    t.start < text.size :=
  Nat.lt_of_lt_of_le (h.takesRoom hkind) h.stop_le

/-- The token is in the text, and so are the places of the errors met while it was read. -/
structure Scanned.InText (text : Array Char) (s : Scanned) : Prop where
  token : s.1.InText text
  errors : ErrorsIn text s.2

theorem Lexeme.Within.toToken_inText {l : Lexeme} {run : TriviaRun} (hrun : pos ≤ run.stop)
    (herrors : ErrorsIn text run.errors) (hl : l.Within text run.stop) :
    Scanned.InText text (l.toToken pos run) where
  token := ⟨hrun, Nat.le_of_lt hl.lt_stop, hl.stop_le, fun _ => hl.lt_stop,
    fun hkind => absurd hkind hl.kind_ne⟩
  errors := errorsIn_append.mpr ⟨herrors, hl.errors⟩

/-- A token without room at the end of the text. -/
theorem endOfFile_inText {start : Nat} {value : String} {flags : TokenFlags} (hpos : pos ≤ start)
    (hsize : start ≤ text.size) (hnone : text[start]? = none) :
    Token.InText text ⟨pos, start, start, .endOfFile, value, flags⟩ where
  fullStart_le := hpos
  start_le := Nat.le_refl _
  stop_le := hsize
  takesRoom hkind := absurd rfl hkind
  atEnd _ := Nat.le_antisymm hsize (Array.getElem?_eq_none_iff.mp hnone)

theorem scanAt_inText (h : pos ≤ text.size) : Scanned.InText text (scanAt text pos) := by
  obtain ⟨hle, hsize⟩ := stop_triviaRunFrom_bounds {} [] h
  have herrors := errorsIn_triviaRunFrom {} errorsIn_nil h
  unfold scanAt
  dsimp only
  split
  · rename_i c hc
    exact (lexemeAt_within hc).toToken_inText hle herrors
  · rename_i hnone
    exact ⟨endOfFile_inText hle hsize hnone, herrors⟩

@[simp] theorem fullStart_scanAt (text : Array Char) (pos : Nat) :
    (scanAt text pos).1.fullStart = pos := by
  unfold scanAt
  dsimp only
  split <;> rfl

theorem scanJsxAt_inText (h : pos ≤ text.size) : Scanned.InText text (Token.scanJsxAt text pos) := by
  unfold Token.scanJsxAt
  split
  · rename_i c hc
    exact (jsxLexemeAt_within hc).toToken_inText (Nat.le_refl _) errorsIn_nil
  · rename_i hnone
    exact ⟨endOfFile_inText (Nat.le_refl _) h hnone, errorsIn_nil⟩

@[simp] theorem fullStart_scanJsxAt (text : Array Char) (pos : Nat) :
    (Token.scanJsxAt text pos).1.fullStart = pos := by
  unfold Token.scanJsxAt
  split <;> rfl

/-! ## 6. Reading on, and reading again -/

variable {t : Token}

/-- A token that is read again as another one from the same place on. -/
theorem Token.InText.reread {t' : Token} (h : t.InText text) (hfull : t'.fullStart = t.fullStart)
    (hstart : t'.start = t.start) (hlt : t'.start < t'.stop) (hle : t'.stop ≤ text.size)
    (hkind : t'.kind ≠ .endOfFile) : t'.InText text where
  fullStart_le := by rw [hfull, hstart]; exact h.fullStart_le
  start_le := Nat.le_of_lt hlt
  stop_le := hle
  takesRoom _ := hlt
  atEnd hend := absurd hend hkind

theorem rescanGreater_inText (h : t.InText text) : Scanned.InText text (t.rescanGreater text) := by
  unfold Token.rescanGreater
  split
  · rename_i hkind
    obtain ⟨h₀, h₁, h₂, hmax⟩ :=
      length_greaterThanOf text[t.stop]? text[t.stop + 1]? text[t.stop + 2]?
    have hroom := h.takesRoom (by simp [beq_iff_eq.mp hkind])
    have hle := h.stop_le
    generalize greaterThanOf text[t.stop]? text[t.stop + 1]? text[t.stop + 2]? = p at *
    have there : ∀ {i : Nat}, text[i]?.isSome → i < text.size := fun hs => by
      obtain ⟨c, hc⟩ := Option.isSome_iff_exists.mp hs
      exact lt_size_of_eq_some hc
    have hsize : t.stop + (p.text.length - 1) ≤ text.size := by
      by_cases hfour : 3 < p.text.length
      · have := there (h₂ hfour); omega
      · by_cases hthree : 2 < p.text.length
        · have := there (h₁ hthree); omega
        · by_cases htwo : 1 < p.text.length
          · have := there (h₀ htwo); omega
          · omega
    exact ⟨h.reread rfl rfl (Nat.lt_add_right _ hroom) hsize nofun, errorsIn_nil⟩
  · exact ⟨h, errorsIn_nil⟩

theorem rescanLess_inText (h : t.InText text) : Scanned.InText text t.rescanLess := by
  unfold Token.rescanLess
  split
  · rename_i hkind
    have hroom := h.takesRoom (by simp [beq_iff_eq.mp hkind])
    exact ⟨h.reread rfl rfl (Nat.lt_succ_self _) (Nat.le_trans hroom h.stop_le) nofun, errorsIn_nil⟩
  · exact ⟨h, errorsIn_nil⟩

theorem regexBodyEnd_bounds (escaped inClass : Bool) (pos : Nat) (h : pos ≤ text.size) :
    pos ≤ (Token.regexBodyEnd text escaped inClass pos).1
      ∧ (Token.regexBodyEnd text escaped inClass pos).1 ≤ text.size := by
  fun_induction Token.regexBodyEnd text escaped inClass pos with
  | case1 escaped inClass pos hlt c hbreak => exact ⟨Nat.le_refl _, h⟩
  | case2 inClass pos hlt c hbreak ih =>
    exact ⟨Nat.le_of_succ_le (ih hlt).1, (ih hlt).2⟩
  | case3 escaped inClass pos hlt c hbreak hescaped hclose =>
    exact ⟨Nat.le_succ pos, hlt⟩
  | case4 escaped inClass pos hlt c hbreak hescaped hclose ih =>
    exact ⟨Nat.le_of_succ_le (ih hlt).1, (ih hlt).2⟩
  | case5 escaped inClass pos hlt => exact ⟨Nat.le_refl _, h⟩

theorem rescanSlash_inText (h : t.InText text) : Scanned.InText text (t.rescanSlash text) := by
  unfold Token.rescanSlash
  split
  · rename_i hkind
    have hroom := h.takesRoom fun hk => by simp [hk] at hkind
    have hbody := regexBodyEnd_bounds false false (t.start + 1)
      (Nat.le_trans hroom h.stop_le)
    have hle := le_scanWhile isIdentifierPart text
      (Token.regexBodyEnd text false false (t.start + 1)).1
    have hsize := scanWhile_le_size isIdentifierPart text _ hbody.2
    refine ⟨h.reread rfl rfl (by dsimp only; omega) hsize nofun, ?_⟩
    dsimp only
    split
    · exact errorsIn_nil
    · exact errorsIn_singleton.mpr hbody.2
  · exact ⟨h, errorsIn_nil⟩

theorem rescanTemplate_inText (h : t.InText text) (hkind : t.kind ≠ .endOfFile) :
    Scanned.InText text (t.rescanTemplate text) := by
  have hroom := h.takesRoom hkind
  have hpiece := readTemplatePiece_within (Nat.lt_of_lt_of_le hroom h.stop_le)
  exact ⟨h.reread rfl rfl hpiece.lt_stop hpiece.stop_le hpiece.kind_ne, hpiece.errors⟩

theorem scanJsxName_inText (h : t.InText text) : Scanned.InText text (t.scanJsxName text) := by
  unfold Token.scanJsxName
  split
  · rename_i hname
    have hkind : t.kind ≠ .endOfFile := fun hk => by simp [hk, Kind.isName] at hname
    have hle := le_scanWhile (fun c => c == '-' || isIdentifierPart c) text t.stop
    have hsize := scanWhile_le_size (fun c => c == '-' || isIdentifierPart c) text _ h.stop_le
    refine ⟨h.reread rfl rfl ?_ hsize hkind, errorsIn_nil⟩
    exact Nat.lt_of_lt_of_le (h.takesRoom hkind) hle
  · exact ⟨h, errorsIn_nil⟩

theorem nextJsxAttributeValue_inText (h : t.stop ≤ text.size) :
    Scanned.InText text (t.nextJsxAttributeValue text) := by
  unfold Token.nextJsxAttributeValue
  split
  · rename_i c hc
    split
    · have hlt := lt_size_of_eq_some hc
      have hle := le_scanWhile (fun d => d != c) text (t.stop + 1)
      have hsize := scanWhile_le_size (fun d => d != c) text (t.stop + 1) hlt
      dsimp only
      generalize scanWhile (fun d => d != c) text (t.stop + 1) = close at *
      by_cases hclosed : close < text.size
      · simp only [hclosed, decide_true, ↓reduceIte]
        have hroom : t.stop < close + 1 := by omega
        exact ⟨⟨Nat.le_refl _, Nat.le_of_lt hroom, hclosed, fun _ => hroom, nofun⟩, errorsIn_nil⟩
      · simp only [hclosed, decide_false, ↓reduceIte]
        have hroom : t.stop < close := by omega
        exact ⟨⟨Nat.le_refl _, Nat.le_of_lt hroom, hsize, fun _ => hroom, nofun⟩,
          errorsIn_singleton.mpr hsize⟩
    · exact scanAt_inText h
  · exact scanAt_inText h

namespace ReadingMode

/-- Ways of reading that leave the current token behind; the others read it again. -/
def movesOn : ReadingMode → Bool
  | .scan | .scanJsx | .scanJsxAttributeValue => true
  | _ => false

/-- The rest of a template is read at a closing brace only. -/
def FitsToken (mode : ReadingMode) (t : Token) : Prop :=
  mode = .rescanTemplate → t.kind = .punct .closeBrace

/-- Only a piece of a template is read again from a brace. -/
theorem FitsToken.of_ne {mode : ReadingMode} (h : mode ≠ .rescanTemplate) : mode.FitsToken t :=
  fun hmode => absurd hmode h

theorem FitsToken.kind_ne {mode : ReadingMode} (h : mode.FitsToken t) :
    mode = .rescanTemplate → t.kind ≠ .endOfFile := by
  intro hmode
  rw [h hmode]
  nofun

/-- Every way of reading gives a token in the text; only what is there can be read as the rest of
a template. -/
theorem read_inText (mode : ReadingMode) (h : t.InText text)
    (hkind : mode = .rescanTemplate → t.kind ≠ .endOfFile) :
    Scanned.InText text (mode.read text t) := by
  cases mode with
  | scan => exact scanAt_inText h.stop_le
  | rescanGreater => exact rescanGreater_inText h
  | rescanSlash => exact rescanSlash_inText h
  | rescanTemplate => exact rescanTemplate_inText h (hkind rfl)
  | rescanLess => exact rescanLess_inText h
  | extendJsxName => exact scanJsxName_inText h
  | scanJsx => exact scanJsxAt_inText h.stop_le
  | scanJsxAttributeValue => exact nextJsxAttributeValue_inText h.stop_le
  | rescanJsx => exact scanJsxAt_inText (Nat.le_trans h.fullStart_le_stop h.stop_le)

/-- The trivia of the token read start where the current token ends, or where its trivia start. -/
theorem fullStart_read (mode : ReadingMode) (text : Array Char) (t : Token) :
    (mode.read text t).1.fullStart = if mode.movesOn then t.stop else t.fullStart := by
  cases mode with
  | scan => exact fullStart_scanAt text t.stop
  | rescanGreater => simp only [read, Token.rescanGreater, movesOn]; split <;> rfl
  | rescanSlash => simp only [read, Token.rescanSlash, movesOn]; split <;> rfl
  | rescanTemplate => rfl
  | rescanLess => simp only [read, Token.rescanLess, movesOn]; split <;> rfl
  | extendJsxName => simp only [read, Token.scanJsxName, movesOn]; split <;> rfl
  | scanJsx => exact fullStart_scanJsxAt text t.stop
  | scanJsxAttributeValue =>
    simp only [read, Token.nextJsxAttributeValue, movesOn, ↓reduceIte]
    split
    · split
      · rfl
      · exact fullStart_scanAt text t.stop
    · exact fullStart_scanAt text t.stop
  | rescanJsx => exact fullStart_scanJsxAt text t.fullStart

/-- No way of reading goes back. -/
theorem fullStart_le_read (mode : ReadingMode) (h : t.InText text) :
    t.fullStart ≤ (mode.read text t).1.fullStart := by
  rw [fullStart_read]
  split
  · exact h.fullStart_le_stop
  · exact Nat.le_refl _

end ReadingMode

/-! ## 7. Scanners -/

namespace Scanner

variable (s : Scanner) (mode : ReadingMode)

theorem read_eq : s.read mode = if s.listening = true then
    ({ s with token := (mode.read s.text s.token).1 }, (mode.read s.text s.token).2)
  else ({ s with
    token := (mode.read s.text s.token).1
    queue := s.queue ++ (mode.read s.text s.token).2 }, []) := rfl

/-- A scanner comes to the token that the way of reading makes of its current one. -/
@[simp] theorem token_read : (s.read mode).1.token = (mode.read s.text s.token).1 := by
  rw [read_eq]
  split <;> rfl

@[simp] theorem text_read : (s.read mode).1.text = s.text := by
  rw [read_eq]
  split <;> rfl

@[simp] theorem listening_read : (s.read mode).1.listening = s.listening := by
  rw [read_eq]
  split <;> rfl

/-- Errors that nobody listens to join the queue at its end. -/
theorem queue_read (h : s.listening = false) :
    (s.read mode).1.queue = s.queue ++ (mode.read s.text s.token).2 := by
  simp [read_eq, h]

end Scanner

end ScriptSyntax
