/-
  ScriptSyntax/Proofs/Token/Excerpt.lean
  ======================================
  Lexemes of a text that stands inside of another one.

  A word, a number or a punctuator ends within its line, so an excerpt and the text around it read
  it alike.  Strings and templates may go on over line ends; they are read alike if they end before
  the excerpt does, and so do all lexemes with which nothing is wrong.
-/
import ScriptSyntax.Proofs.Trivia.Excerpt

namespace ScriptSyntax

/-! ## 1. The same, further on -/

def Escape.shift (e : Escape) (d : Nat) : Escape :=
  { e with stop := e.stop + d, errors := e.errors.map (·.shift d) }

def Cooked.shift (k : Cooked) (d : Nat) : Cooked := { k with errors := k.errors.map (·.shift d) }

def Lexeme.shift (l : Lexeme) (d : Nat) : Lexeme :=
  { l with stop := l.stop + d, errors := l.errors.map (·.shift d) }

def DigitRun.shift (r : DigitRun) (d : Nat) : DigitRun := { r with stop := r.stop + d }

namespace Excerpt

variable {part text : Array Char} {n d pos q : Nat} {c : Char}

/-- What does not end at the start of a line ends before the excerpt does. -/
theorem lt_of_inLine (h : Excerpt part text n d) {stop : Nat} (hsize : stop ≤ part.size)
    (hline : isLineStart part stop = false) : stop < n := by
  cases stop with
  | zero => cases hline
  | succ last =>
    have hc : part[last]? = some part[last] := Array.getElem?_eq_getElem hsize
    rw [isLineStart_of_eq_some hc] at hline
    exact h.next (Nat.lt_of_lt_of_le hsize h.size_le) hc hline

/-! ## 2. Escapes -/

theorem isLineBreak_of_isHexDigit (hc : isHexDigit c = true) : isLineBreak c = false :=
  isLineBreak_of_class (p := isHexDigit) (by decide) hc

theorem exactHex_eq (h : Excerpt part text n d) (count value : Nat) (hpos : pos < n) (hq : q = pos + d) :
    Escape.exactHex text count q value
        = ((Escape.exactHex part count pos value).1 + d, (Escape.exactHex part count pos value).2)
      ∧ (Escape.exactHex part count pos value).1 < n := by
  induction count generalizing pos q value with
  | zero => exact ⟨Prod.ext hq rfl, hpos⟩
  | succ count ih =>
    unfold Escape.exactHex
    rw [h.char hpos hq]
    split
    · rename_i digit hdigit
      obtain ⟨c, hc, hvalue⟩ := Option.bind_eq_some_iff.mp hdigit
      have hhex : isHexDigit c = true := by simp [isHexDigit, hvalue]
      exact ih _ (h.next hpos hc (isLineBreak_of_isHexDigit hhex)) (by omega)
    · exact ⟨Prod.ext hq rfl, hpos⟩

theorem byteForm_eq (h : Excerpt part text n d) (hpos : pos < n) (hq : q = pos + d) :
    Escape.byteForm text q = (Escape.byteForm part pos).shift d := by
  unfold Escape.byteForm
  rw [(h.exactHex_eq 2 0 hpos hq).1]
  rcases Escape.exactHex part 2 pos 0 with ⟨stop, _ | value⟩ <;> rfl

theorem lowHalf?_eq (h : Excerpt part text n d) (hpos : pos < n) (hq : q = pos + d) :
    Escape.lowHalf? text q = (Escape.lowHalf? part pos).map fun r => (r.1, r.2 + d) := by
  unfold Escape.lowHalf?
  rw [h.hasCharAt_eq hpos hq]
  by_cases hslash : hasCharAt part pos '\\' = true
  · have hone : pos + 1 < n := h.next_of_hasCharAt hpos hslash (by decide)
    rw [h.hasCharAt_eq hone (by omega)]
    by_cases hmark : hasCharAt part (pos + 1) 'u' = true
    · have htwo : pos + 2 < n := h.next_of_hasCharAt hone hmark (by decide)
      rw [(h.exactHex_eq 4 0 htwo (by omega)).1]
      rcases Escape.exactHex part 4 (pos + 2) 0 with ⟨stop, _ | value⟩
      · simp [hslash, hmark]
      · by_cases hlow : 0xDC00 ≤ value ∧ value ≤ 0xDFFF <;> simp [hslash, hmark, hlow]
    · simp [Bool.eq_false_iff.mpr hmark]
  · simp [Bool.eq_false_iff.mpr hslash]

theorem unitForm_eq (h : Excerpt part text n d) (hpos : pos < n) (hq : q = pos + d) :
    Escape.unitForm text q = (Escape.unitForm part pos).shift d := by
  obtain ⟨hdigits, hlt⟩ := h.exactHex_eq 4 0 hpos hq
  unfold Escape.unitForm
  rw [hdigits]
  rcases hpart : Escape.exactHex part 4 pos 0 with ⟨stop, _ | value⟩
  · rfl
  · rw [hpart] at hlt
    dsimp only
    rw [h.lowHalf?_eq hlt rfl]
    by_cases hhigh : (decide (0xD800 ≤ value) && decide (value < 0xDC00)) = true
    · rw [if_pos hhigh, if_pos hhigh]
      cases Escape.lowHalf? part stop <;> simp [Escape.shift]
    · rw [if_neg hhigh, if_neg hhigh]
      rfl

theorem bracedForm_eq (h : Excerpt part text n d) (hpos : pos < n) :
    Escape.bracedForm text (pos + d) = (Escape.bracedForm part pos).shift d := by
  have hlt : scanWhile isHexDigit part pos < n := h.scanWhile_lt (fun _ => isLineBreak_of_isHexDigit) hpos
  unfold Escape.bracedForm
  dsimp only
  rw [h.scanWhile_eq rfl hlt, h.extract_eq (Nat.le_of_lt hlt), h.hasCharAt_eq hlt rfl, Nat.add_sub_add_right]
  generalize scanWhile isHexDigit part pos = stop
  generalize (hexNumber? (part.extract pos stop).toList).getD 0 = value
  have herrors : (if stop + d == pos + d then [⟨.hexDigitExpected, stop + d, 0⟩]
        else if 0x10FFFF < value then [⟨.codePointOutOfRange, pos + d, stop - pos⟩] else [])
      = (if stop == pos then [⟨.hexDigitExpected, stop, 0⟩]
        else if 0x10FFFF < value then [⟨.codePointOutOfRange, pos, stop - pos⟩]
        else ([] : List ScanError)).map (·.shift d) := by
    by_cases hempty : stop = pos
    · simp [hempty, ScanError.shift]
    · by_cases hlarge : 0x10FFFF < value <;> simp [hempty, hlarge, ScanError.shift]
  rw [herrors, List.isEmpty_map]
  split
  · simp [Escape.shift, Nat.add_right_comm]
  · simp [Escape.shift, ScanError.shift]

/-- An escape in a string or a template. -/
theorem read_eq (h : Excerpt part text n d) (hpos : pos < n) (hslash : part[pos]? = some '\\') :
    Escape.read text (pos + d) = (Escape.read part pos).shift d := by
  have hone : pos + 1 < n := h.next hpos hslash (by decide)
  have hnext : pos + d + 1 = pos + 1 + d := Nat.add_right_comm pos d 1
  have hafter : pos + d + 2 = pos + 2 + d := Nat.add_right_comm pos d 2
  have hlast : pos + 2 + d + 1 = pos + 3 + d := Nat.add_right_comm (pos + 2) d 1
  unfold Escape.read
  dsimp only
  rw [hnext, h.char hone rfl, hafter]
  have htwo {c : Char} (hc : part[pos + 1]? = some c) (hbreak : isLineBreak c = false) : pos + 2 < n :=
    h.next hone hc hbreak
  split
  case h_1 => rfl
  case h_2 hc =>
    rw [h.char (htwo hc (by decide)) rfl]
    split <;> rfl
  case h_9 hc => exact h.byteForm_eq (htwo hc (by decide)) rfl
  case h_10 hc =>
    have htwo := htwo hc (by decide)
    rw [h.hasCharAt_eq htwo rfl, hlast]
    split
    · rename_i hbrace
      exact h.bracedForm_eq (h.next_of_hasCharAt htwo hbrace (by decide))
    · exact h.unitForm_eq htwo rfl
  case h_11 =>
    rw [h.feed_eq hone rfl, hlast]
    split <;> rfl
  -- the others are a letter or any other character by itself
  all_goals rfl

/-- Only a row of digits is a number. -/
theorem isHexDigit_of_hexNumber? {digits : List Char} {value : Nat} (hn : hexNumber? digits = some value) :
    ∀ c ∈ digits, isHexDigit c = true := by
  have hrow (read : Option Nat)
      (hrow : digits.foldl (fun acc c => acc.bind fun n => (hexValue? c).map (n * 16 + ·)) read = some value) :
      read.isSome = true ∧ ∀ c ∈ digits, isHexDigit c = true := by
    clear hn
    induction digits generalizing read with
    | nil => exact ⟨by simp_all, by simp⟩
    | cons c digits ih =>
      obtain ⟨hread, hdigits⟩ := ih _ hrow
      cases read with
      | none => cases hread
      | some m =>
        have hc : isHexDigit c = true := by simpa [isHexDigit] using hread
        exact ⟨rfl, List.forall_mem_cons.mpr ⟨hc, hdigits⟩⟩
  exact (hrow (some 0) hn).2

/-- A walk ends where its characters do. -/
theorem scanWhile_eq_of {p : Char → Bool} {first stop : Nat} (hle : first ≤ stop)
    (hover : ∀ i, first ≤ i → i < stop → ∃ c, text[i]? = some c ∧ p c = true)
    (hend : ∀ c, text[stop]? = some c → p c = false) : scanWhile p text first = stop := by
  have hfirst := le_scanWhile p text first
  rcases Nat.lt_trichotomy (scanWhile p text first) stop with hlt | heq | hlt
  · obtain ⟨c, hc, hp⟩ := hover _ hfirst hlt
    rw [scanWhile_stops hc] at hp
    cases hp
  · exact heq
  · obtain ⟨c, hc, hp⟩ := of_mem_scanWhile hle hlt
    rw [hend c hc] at hp
    cases hp

/-- The character that an escape names whose braces reach from before `first` to `close`. -/
def braceName? (text : Array Char) (first close : Nat) : Option (Char × Nat) :=
  if close == first || !hasCharAt text close '}' then none
  else (hexNumber? (text.extract first close).toList).bind fun v =>
    (charOfCodePoint? v).map fun c => (c, close + 1)

theorem braceName?_of_not_close {first close : Nat} (h : hasCharAt text close '}' = false) :
    braceName? text first close = none := by
  simp [braceName?, h]

/-- Between its braces an escape in a word holds digits alone, so it is all the same whether one looks for
the closing brace or for the end of the digits. -/
theorem inIdentifier?_braced (hslash : hasCharAt text pos '\\' = true)
    (hmark : hasCharAt text (pos + 1) 'u' = true) (hbrace : hasCharAt text (pos + 2) '{' = true) :
    Escape.inIdentifier? text pos = braceName? text (pos + 3) (scanWhile isHexDigit text (pos + 3)) := by
  have hunfold : Escape.inIdentifier? text pos
      = braceName? text (pos + 3) (scanWhile (fun c => c != '}') text (pos + 3)) := by
    unfold Escape.inIdentifier? braceName?
    simp only [hslash, hmark, hbrace, Bool.and_self, if_true]
    split
    · rfl
    · cases hexNumber? _ <;> rfl
  rw [hunfold]
  generalize hclose : scanWhile (fun c => c != '}') text (pos + 3) = close
  generalize hdigits : scanWhile isHexDigit text (pos + 3) = digits
  by_cases hclosed : hasCharAt text digits '}' = true
  · have hsame : scanWhile (fun c => c != '}') text (pos + 3) = digits := by
      apply scanWhile_eq_of (hdigits ▸ le_scanWhile _ _ _)
      · intro i hfirst hlt
        obtain ⟨c, hc, hhex⟩ := of_mem_scanWhile hfirst (hdigits ▸ hlt)
        refine ⟨c, hc, bne_iff_ne.mpr ?_⟩
        rintro rfl
        exact absurd hhex (by decide)
      · intro c hc
        obtain rfl := Option.some.inj ((beq_iff_eq.mp hclosed).symm.trans hc)
        rfl
    rw [← hclose, hsame]
  · rw [braceName?_of_not_close (Bool.eq_false_iff.mpr hclosed)]
    by_cases hother : hasCharAt text close '}' = true
    · have hnone : hexNumber? (text.extract (pos + 3) close).toList = none := by
        apply Option.eq_none_iff_forall_ne_some.mpr
        intro v hv
        have hsame : scanWhile isHexDigit text (pos + 3) = close := by
          apply scanWhile_eq_of (hclose ▸ le_scanWhile _ _ _)
          · intro i hfirst hlt
            obtain ⟨c, hc, -⟩ := of_mem_scanWhile hfirst (hclose ▸ hlt)
            refine ⟨c, hc, isHexDigit_of_hexNumber? hv c ?_⟩
            apply Array.mem_toList_iff.mpr
            apply Array.mem_of_getElem? (i := i - (pos + 3))
            rw [Array.getElem?_extract, if_pos, Nat.add_sub_cancel' hfirst, hc]
            have hsize := lt_size_of_eq_some hc
            omega
          · intro c hc
            obtain rfl := Option.some.inj ((beq_iff_eq.mp hother).symm.trans hc)
            decide
        rw [hdigits.symm.trans hsame] at hclosed
        exact hclosed hother
      unfold braceName?
      rw [hnone]
      split <;> rfl
    · exact braceName?_of_not_close (Bool.eq_false_iff.mpr hother)

theorem braceName?_eq (h : Excerpt part text n d) {first close : Nat} (hclose : close < n) :
    braceName? text (first + d) (close + d) = (braceName? part first close).map fun r => (r.1, r.2 + d) := by
  unfold braceName?
  rw [h.hasCharAt_eq hclose rfl, h.extract_eq (Nat.le_of_lt hclose)]
  have hempty : (close + d == first + d) = (close == first) := by
    rw [Bool.eq_iff_iff, beq_iff_eq, beq_iff_eq]
    exact Nat.add_right_cancel_iff
  rw [hempty]
  split
  · rfl
  · rcases hexNumber? (part.extract first close).toList with _ | v
    · rfl
    · rw [Option.bind_some, Option.bind_some]
      cases charOfCodePoint? v with
      | none => rfl
      | some c => exact congrArg some (Prod.ext rfl (Nat.add_right_comm close d 1))

theorem inIdentifier?_eq (h : Excerpt part text n d) (hpos : pos < n) (hq : q = pos + d) :
    Escape.inIdentifier? text q = (Escape.inIdentifier? part pos).map fun r => (r.1, r.2 + d) := by
  have hnone {text : Array Char} {pos : Nat}
      (hno : (hasCharAt text pos '\\' && hasCharAt text (pos + 1) 'u') = false) :
      Escape.inIdentifier? text pos = none := by
    unfold Escape.inIdentifier?
    rw [if_neg (by simp [hno])]
  by_cases hslash : hasCharAt part pos '\\' = true
  · have hone : pos + 1 < n := h.next_of_hasCharAt hpos hslash (by decide)
    have hslash' : hasCharAt text q '\\' = true := (h.hasCharAt_eq hpos hq _).trans hslash
    have hmark' : hasCharAt text (q + 1) 'u' = hasCharAt part (pos + 1) 'u' :=
      h.hasCharAt_eq hone (by omega) _
    by_cases hmark : hasCharAt part (pos + 1) 'u' = true
    · have htwo : pos + 2 < n := h.next_of_hasCharAt hone hmark (by decide)
      have hbrace' : hasCharAt text (q + 2) '{' = hasCharAt part (pos + 2) '{' :=
        h.hasCharAt_eq htwo (by omega) _
      by_cases hbrace : hasCharAt part (pos + 2) '{' = true
      · have hthree : pos + 3 < n := h.next_of_hasCharAt htwo hbrace (by decide)
        have hlt := h.scanWhile_lt (fun _ => isLineBreak_of_isHexDigit) hthree
        have hfirst : q + 3 = pos + 3 + d := by omega
        rw [inIdentifier?_braced hslash' (hmark'.trans hmark) (hbrace'.trans hbrace),
          inIdentifier?_braced hslash hmark hbrace, hfirst, h.scanWhile_eq rfl hlt, h.braceName?_eq hlt]
      · have hdigits := (h.exactHex_eq (q := q + 2) 4 0 htwo (by omega)).1
        unfold Escape.inIdentifier?
        simp only [hslash', hmark', hbrace', hslash, hmark, Bool.eq_false_iff.mpr hbrace, hdigits,
          Bool.and_self, if_true, Bool.false_eq_true, if_false]
        rcases Escape.exactHex part 4 (pos + 2) 0 with ⟨stop, _ | v⟩
        · rfl
        · dsimp only
          cases charOfCodePoint? v <;> rfl
    · rw [hnone (by simp [hmark', hmark]), hnone (by simp [hmark])]
      rfl
  · have hslash' : hasCharAt text q '\\' = false := (h.hasCharAt_eq hpos hq _).trans (Bool.eq_false_iff.mpr hslash)
    rw [hnone (by simp [hslash']), hnone (by simp [hslash])]
    rfl

theorem stop_inIdentifier?_lt (h : Excerpt part text n d) {stop : Nat}
    (hescape : Escape.inIdentifier? part pos = some (c, stop)) : stop < n :=
  h.lt_of_inLine (inIdentifier?_le_size hescape) (isLineStart_inIdentifier? hescape)

/-! ## 3. Words -/

/-- Where no character of a word stands, the word goes on with an escape for one, or it ends. -/
theorem readWordFrom_of_not_part (hc : text[pos]? = some c) (hpart : ¬isIdentifierPart c = true)
    (word : String) (escaped : Bool) :
    readWordFrom text word escaped pos =
      ((Escape.inIdentifier? text pos).filter (isIdentifierPart ·.1)).elim
        ⟨pos, wordKind word, word, { unicodeEscape := escaped }, []⟩
        (fun r => readWordFrom text (word.push r.1) true r.2) := by
  obtain ⟨hlt, rfl⟩ := Array.getElem?_eq_some_iff.mp hc
  rw [readWordFrom, dif_pos hlt]
  dsimp only
  rw [if_neg hpart]
  split
  · rename_i e stop he
    by_cases hd : isIdentifierPart e = true <;> simp [he, hd, Option.filter]
  · rename_i he
    simp [he]

theorem readWordFrom_eq (h : Excerpt part text n d) (word : String) (escaped : Bool) (hpos : pos < n)
    (hq : q = pos + d) :
    readWordFrom text word escaped q = (readWordFrom part word escaped pos).shift d := by
  have hat {pos q : Nat} (hlt : pos < part.size) (hq : q = pos + d) : text[q]? = some part[pos] := by
    rw [h.char (Nat.lt_of_lt_of_le hlt h.size_le) hq, Array.getElem?_eq_getElem hlt]
  fun_induction readWordFrom part word escaped pos generalizing q with
  | case1 word escaped pos hlt c hpart =>
    rename_i ih
    obtain ⟨hlt', hget⟩ := h.get hlt hq
    have hnext := h.next hpos (Array.getElem?_eq_getElem hlt) (isLineBreak_of_isIdentifierPart hpart)
    rw [readWordFrom, dif_pos hlt']
    dsimp only
    rw [hget, if_pos hpart]
    exact ih hnext (by omega)
  | case2 word escaped pos hlt c hpart e stop he hd =>
    rename_i ih
    rw [readWordFrom_of_not_part (hat hlt hq) hpart, h.inIdentifier?_eq hpos hq, he, ← ih (h.stop_inIdentifier?_lt he) rfl]
    simp [hd, Option.filter]
  | case3 word escaped pos hlt c hpart e stop he =>
    rename_i hd
    rw [readWordFrom_of_not_part (hat hlt hq) hpart, h.inIdentifier?_eq hpos hq, he, hq]
    simp [hd, Option.filter, Lexeme.shift]
  | case4 word escaped pos hlt c hpart =>
    rename_i he
    rw [readWordFrom_of_not_part (hat hlt hq) hpart, h.inIdentifier?_eq hpos hq, he, hq]
    rfl
  | case5 word escaped pos hlt =>
    rw [readWordFrom, dif_neg (h.not_lt_size hpos hlt hq), hq]
    rfl

/-! ## 4. Numbers -/

theorem digitRunFrom_eq (h : Excerpt part text n d) {valid : Char → Bool}
    (hvalid : ∀ c, valid c = true → isLineBreak c = false) (hasDigit separated : Bool) (hpos : pos < n)
    (hq : q = pos + d) :
    digitRunFrom valid text hasDigit separated q = (digitRunFrom valid part hasDigit separated pos).shift d
      ∧ (digitRunFrom valid part hasDigit separated pos).stop < n := by
  have hseparator {hasDigit : Bool} {pos q : Nat} (hlt : pos < part.size) (hq : q = pos + d) :
      (part[pos] == '_' && hasDigit && text[q + 1]?.any valid)
        = (part[pos] == '_' && hasDigit && part[pos + 1]?.any valid) := by
    by_cases hc : part[pos] = '_'
    · have hat : part[pos]? = some '_' := by rw [Array.getElem?_eq_getElem hlt, hc]
      have hnext : pos + 1 < n := h.next (Nat.lt_of_lt_of_le hlt h.size_le) hat (by decide)
      rw [h.char hnext (by omega)]
    · rw [beq_false_of_ne hc]
      rfl
  fun_induction digitRunFrom valid part hasDigit separated pos generalizing q with
  | case1 hasDigit separated pos hlt c hsep =>
    rename_i ih
    obtain ⟨hlt', hget⟩ := h.get hlt hq
    have hc : part[pos]? = some '_' := by
      simp only [Bool.and_eq_true, beq_iff_eq] at hsep
      rw [Array.getElem?_eq_getElem hlt, show part[pos] = '_' from hsep.1.1]
    rw [digitRunFrom, dif_pos hlt']
    dsimp only
    rw [hget, hseparator hlt hq, if_pos hsep]
    exact ih (h.next hpos hc (by decide)) (by omega)
  | case2 hasDigit separated pos hlt c hsep hdigit =>
    rename_i ih
    obtain ⟨hlt', hget⟩ := h.get hlt hq
    have hnext := h.next hpos (Array.getElem?_eq_getElem hlt) (hvalid _ hdigit)
    rw [digitRunFrom, dif_pos hlt']
    dsimp only
    rw [hget, hseparator hlt hq, if_neg hsep, if_pos hdigit]
    exact ih hnext (by omega)
  | case3 hasDigit separated pos hlt c hsep =>
    rename_i hdigit
    obtain ⟨hlt', hget⟩ := h.get hlt hq
    rw [digitRunFrom, dif_pos hlt']
    dsimp only
    rw [hget, hseparator hlt hq, if_neg hsep, if_neg hdigit, hq]
    exact ⟨rfl, hpos⟩
  | case4 hasDigit separated pos hlt =>
    rw [digitRunFrom, dif_neg (h.not_lt_size hpos hlt hq), hq]
    exact ⟨rfl, hpos⟩

theorem missing_shift (r : DigitRun) (m : Message) :
    (r.shift d).missing m = (r.missing m).map (·.shift d) := by
  unfold DigitRun.missing DigitRun.shift
  dsimp only
  split <;> rfl

theorem identifierAfterNumber_eq (h : Excerpt part text n d) (hpos : pos < n) :
    identifierAfterNumber text (pos + d) = (identifierAfterNumber part pos).map (·.shift d) := by
  have hlt := h.scanWhile_lt (fun _ => isLineBreak_of_isIdentifierPart) hpos
  unfold identifierAfterNumber
  rw [h.char hpos rfl, h.scanWhile_eq rfl hlt, Nat.add_sub_add_right]
  split <;> rfl

theorem finishNumber_eq (h : Excerpt part text n d) {start stop : Nat} (hstop : stop < n) (integer : Bool)
    (flags : TokenFlags) (errors : List ScanError) :
    finishNumber text (start + d) (stop + d) integer flags (errors.map (·.shift d))
      = (finishNumber part start stop integer flags errors).shift d := by
  unfold finishNumber
  dsimp only
  rw [h.hasCharAt_eq hstop rfl]
  have hlast : (if (integer && hasCharAt part stop 'n') = true then stop + d + 1 else stop + d)
      = (if (integer && hasCharAt part stop 'n') = true then stop + 1 else stop) + d := by
    split <;> omega
  have hlt : (if (integer && hasCharAt part stop 'n') = true then stop + 1 else stop) < n := by
    split
    · rename_i hbig
      simp only [Bool.and_eq_true] at hbig
      exact h.next_of_hasCharAt hstop hbig.2 (by decide)
    · exact hstop
  rw [hlast, h.extract_eq (Nat.le_of_lt hlt), h.identifierAfterNumber_eq hlt]
  simp [Lexeme.shift]

theorem readRadixNumber_eq (h : Excerpt part text n d) (r : Radix) (hpos : pos + 2 < n) :
    readRadixNumber text r (pos + d) = (readRadixNumber part r pos).shift d := by
  have hvalid : ∀ c, r.isDigit c = true → isLineBreak c = false := by
    intro c hc
    cases r <;> exact isLineBreak_of_class (p := Radix.isDigit _) (by decide) hc
  obtain ⟨hrun, hlt⟩ := h.digitRunFrom_eq hvalid false false hpos (Nat.add_right_comm pos d 2)
  unfold readRadixNumber digitRun
  dsimp only
  rw [hrun, missing_shift]
  exact h.finishNumber_eq hlt true _ _

theorem readLegacyOctal_eq (h : Excerpt part text n d) (hpos : pos + 1 < n) :
    readLegacyOctal text (pos + d) = (readLegacyOctal part pos).shift d := by
  have hvalid : ∀ c, isOctalDigit c = true → isLineBreak c = false := by
    intro c hc
    exact isLineBreak_of_class (p := isOctalDigit) (by decide) hc
  obtain ⟨hrun, hlt⟩ := h.digitRunFrom_eq hvalid false false hpos (Nat.add_right_comm pos d 1)
  unfold readLegacyOctal digitRun
  dsimp only
  rw [hrun]
  exact h.finishNumber_eq hlt false _ []

theorem isLegacyOctal_eq (h : Excerpt part text n d) (hpos : pos + 1 < n) :
    isLegacyOctal text (pos + d) = isLegacyOctal part pos := by
  have hlt := h.scanWhile_lt isLineBreak_of_isDigit hpos
  unfold isLegacyOctal
  dsimp only
  rw [Nat.add_right_comm pos d 1, h.scanWhile_eq rfl hlt, h.extract_eq (Nat.le_of_lt hlt)]
  simp

theorem exponentRun?_eq (h : Excerpt part text n d) (hpos : pos < n) :
    exponentRun? text (pos + d) = (exponentRun? part pos).map (·.shift d)
      ∧ ∀ r ∈ exponentRun? part pos, r.stop < n := by
  unfold exponentRun? digitRun
  dsimp only
  rw [h.hasCharAt_eq hpos rfl, h.hasCharAt_eq hpos rfl]
  by_cases hletter : (hasCharAt part pos 'e' || hasCharAt part pos 'E') = true
  · have hone : pos + 1 < n := by
      rcases Bool.or_eq_true_iff.mp hletter with he | he
      · exact h.next_of_hasCharAt hpos he (by decide)
      · exact h.next_of_hasCharAt hpos he (by decide)
    have hnext : pos + d + 1 = pos + 1 + d := Nat.add_right_comm pos d 1
    rw [if_pos hletter, if_pos hletter, h.hasCharAt_eq hone hnext, h.hasCharAt_eq hone hnext]
    by_cases hsigned : (hasCharAt part (pos + 1) '+' || hasCharAt part (pos + 1) '-') = true
    · have htwo : pos + 2 < n := by
        rcases Bool.or_eq_true_iff.mp hsigned with hs | hs
        · exact h.next_of_hasCharAt hone hs (by decide)
        · exact h.next_of_hasCharAt hone hs (by decide)
      obtain ⟨hrun, hlt⟩ :=
        h.digitRunFrom_eq isLineBreak_of_isDigit false false htwo (Nat.add_right_comm pos d 2)
      rw [if_pos hsigned, if_pos hsigned, hrun]
      exact ⟨rfl, by simpa using hlt⟩
    · obtain ⟨hrun, hlt⟩ := h.digitRunFrom_eq isLineBreak_of_isDigit false false hone hnext
      rw [if_neg hsigned, if_neg hsigned, hrun]
      exact ⟨rfl, by simpa using hlt⟩
  · rw [if_neg hletter, if_neg hletter]
    exact ⟨rfl, by simp⟩

theorem readDecimal_eq (h : Excerpt part text n d) (hpos : pos < n) :
    readDecimal text (pos + d) = (readDecimal part pos).shift d := by
  have hdigits {pos : Nat} (hpos : pos < n) : digitRun isDigit text (pos + d) = (digitRun isDigit part pos).shift d
      ∧ (digitRun isDigit part pos).stop < n :=
    h.digitRunFrom_eq isLineBreak_of_isDigit false false hpos rfl
  -- the digits before the point, unless the number starts with it
  have hwhole : (if hasCharAt text (pos + d) '.' = true then ⟨pos + d, false, false⟩
        else digitRun isDigit text (pos + d))
      = (if hasCharAt part pos '.' = true then ⟨pos, false, false⟩ else digitRun isDigit part pos).shift d
      ∧ (if hasCharAt part pos '.' = true then ⟨pos, false, false⟩ else digitRun isDigit part pos).stop < n := by
    rw [h.hasCharAt_eq hpos rfl]
    split
    · exact ⟨rfl, hpos⟩
    · exact hdigits hpos
  unfold readDecimal
  dsimp only
  rw [hwhole.1]
  generalize (if hasCharAt part pos '.' = true then (⟨pos, false, false⟩ : DigitRun)
    else digitRun isDigit part pos) = whole at hwhole ⊢
  have hstop : whole.stop < n := hwhole.2
  rw [show (whole.shift d).stop = whole.stop + d from rfl, h.hasCharAt_eq hstop rfl]
  have hfraction : (if hasCharAt part whole.stop '.' = true then digitRun isDigit text (whole.stop + d + 1)
        else ⟨whole.stop + d, false, false⟩)
      = (if hasCharAt part whole.stop '.' = true then digitRun isDigit part (whole.stop + 1)
        else ⟨whole.stop, false, false⟩).shift d
      ∧ (if hasCharAt part whole.stop '.' = true then digitRun isDigit part (whole.stop + 1)
        else ⟨whole.stop, false, false⟩).stop < n := by
    split
    · rename_i hpoint
      rw [Nat.add_right_comm]
      exact hdigits (h.next_of_hasCharAt hstop hpoint (by decide))
    · exact ⟨rfl, hstop⟩
  rw [hfraction.1]
  generalize (if hasCharAt part whole.stop '.' = true then digitRun isDigit part (whole.stop + 1)
    else ⟨whole.stop, false, false⟩) = fraction at hfraction ⊢
  have hend : fraction.stop < n := hfraction.2
  obtain ⟨hexponent, hlt⟩ := h.exponentRun?_eq hend
  rw [show (fraction.shift d).stop = fraction.stop + d from rfl, hexponent]
  cases hrun : exponentRun? part fraction.stop with
  | none => exact h.finishNumber_eq hend _ _ []
  | some exponent =>
    rw [Option.map_some]
    dsimp only
    rw [missing_shift]
    exact h.finishNumber_eq (hlt exponent hrun) false _ _

theorem readNumber_eq (h : Excerpt part text n d) (hpos : pos < n) :
    readNumber text (pos + d) = (readNumber part pos).shift d := by
  unfold readNumber
  rw [h.hasCharAt_eq hpos rfl]
  split
  · rename_i hzero
    have hone : pos + 1 < n := h.next_of_hasCharAt hpos hzero (by decide)
    rw [Nat.add_right_comm pos d 1, h.char hone rfl, h.isLegacyOctal_eq hone]
    split
    · rename_i r hr
      obtain ⟨c, hc, hletter⟩ := Option.bind_eq_some_iff.mp hr
      have hbreak : isLineBreak c = false :=
        isLineBreak_of_class (p := fun c => (Radix.ofLetter? c).isSome) (by decide) (by simp [hletter])
      exact h.readRadixNumber_eq r (h.next hone hc hbreak)
    · split
      · exact h.readLegacyOctal_eq hone
      · exact h.readDecimal_eq hpos
  · exact h.readDecimal_eq hpos

/-! ## 5. Punctuation -/

/-- At the end of a line a punctuator is over, whatever the next line starts with. -/
theorem punctuatorOf?_of_lineEnd {c₁ c₂ c₂' : Option Char} (hend : ∀ e, c₁ = some e → isLineBreak e = true) :
    punctuatorOf? c c₁ c₂ = punctuatorOf? c c₁ c₂' := by
  have hne {e : Char} (he : isLineBreak e = false) : (c₁ == some e) = false := by
    apply beq_false_of_ne
    intro heq
    rw [hend e heq] at he
    cases he
  unfold punctuatorOf?
  simp only [hne (e := '.') (by decide), hne (e := '?') (by decide), hne (e := '<') (by decide),
    hne (e := '=') (by decide), hne (e := '*') (by decide), hne (e := '&') (by decide),
    hne (e := '|') (by decide), Bool.false_and]
  rfl

theorem punctuatorOf?_of_isLineBreak {c₁ c₂ : Option Char} (hbreak : isLineBreak c = true) :
    punctuatorOf? c c₁ c₂ = none := by
  simp only [isLineBreak, Bool.or_eq_true, beq_iff_eq] at hbreak
  rcases hbreak with ((rfl | rfl) | rfl) | rfl <;> rfl

theorem punctuatorAt?_eq (h : Excerpt part text n d) (hpos : pos < n) :
    punctuatorAt? text (pos + d) = punctuatorAt? part pos := by
  unfold punctuatorAt?
  rw [h.char hpos rfl]
  cases hc : part[pos]? with
  | none => rfl
  | some c =>
    rw [Option.bind_some, Option.bind_some]
    by_cases hbreak : isLineBreak c = true
    · rw [punctuatorOf?_of_isLineBreak hbreak, punctuatorOf?_of_isLineBreak hbreak]
    · have hone : pos + 1 < n := h.next hpos hc (Bool.eq_false_iff.mpr hbreak)
      rw [Nat.add_right_comm pos d 1, h.char hone rfl]
      by_cases hend : ∀ e, part[pos + 1]? = some e → isLineBreak e = true
      · exact punctuatorOf?_of_lineEnd hend
      · obtain ⟨e, he, hinLine⟩ : ∃ e, part[pos + 1]? = some e ∧ isLineBreak e = false := by
          simpa using hend
        rw [Nat.add_right_comm pos d 2, h.char (h.next hone he hinLine) rfl]

/-! ## 6. Strings and templates -/

theorem pushEscape_shift (k : Cooked) (e : Escape) :
    (k.shift d).pushEscape (e.shift d) = (k.pushEscape e).shift d := by
  unfold Cooked.shift Cooked.pushEscape
  rw [List.map_append]
  rfl

theorem unterminated_shift (k : Cooked) (kind : Kind) (m : Message) (stop : Nat) :
    (k.shift d).unterminated kind m (stop + d) = (k.unterminated kind m stop).shift d := by
  simp [Cooked.unterminated, Cooked.shift, Lexeme.shift, ScanError.shift]

theorem readString_eq (h : Excerpt part text n d) (quote : Char) (k : Cooked) (hq : q = pos + d)
    (hstop : (readString part quote k pos).stop < n) :
    readString text quote (k.shift d) q = (readString part quote k pos).shift d := by
  fun_induction readString part quote k pos generalizing q with
  | case1 k pos hlt c =>
    rename_i hquote
    obtain ⟨hlt', hget⟩ := h.get hlt hq
    rw [readString, dif_pos hlt']
    dsimp only
    rw [hget, if_pos hquote, hq, Nat.add_right_comm]
    rfl
  | case2 k pos hlt c hquote hescape e =>
    rename_i ih
    obtain ⟨hlt', hget⟩ := h.get hlt hq
    have hslash : part[pos]? = some '\\' :=
      (Array.getElem?_eq_getElem hlt).trans (congrArg some (beq_iff_eq.mp hescape))
    have hread := h.read_eq (Nat.lt_of_lt_of_le hlt h.size_le) hslash
    rw [readString, dif_pos hlt']
    dsimp only
    rw [hget, if_neg hquote, if_pos hescape, hq, hread, pushEscape_shift]
    exact ih rfl hstop
  | case3 k pos hlt c hquote hescape =>
    rename_i hbreak
    obtain ⟨hlt', hget⟩ := h.get hlt hq
    rw [readString, dif_pos hlt']
    dsimp only
    rw [hget, if_neg hquote, if_neg hescape, if_pos hbreak, hq]
    exact unterminated_shift k _ _ _
  | case4 k pos hlt c hquote hescape hbreak =>
    rename_i ih
    obtain ⟨hlt', hget⟩ := h.get hlt hq
    rw [readString, dif_pos hlt']
    dsimp only
    rw [hget, if_neg hquote, if_neg hescape, if_neg hbreak]
    exact ih (by omega) hstop
  | case5 k pos hlt =>
    rw [readString, dif_neg (h.not_lt_size hstop hlt hq), hq]
    exact unterminated_shift k _ _ _

theorem readTemplate_eq (h : Excerpt part text n d) (first : Bool) (k : Cooked) (hq : q = pos + d)
    (hstop : (readTemplate part first k pos).stop < n) :
    readTemplate text first (k.shift d) q = (readTemplate part first k pos).shift d := by
  have hsubstitution {pos q : Nat} (hlt : pos < part.size) (hq : q = pos + d) :
      (part[pos] == '$' && hasCharAt text (q + 1) '{') = (part[pos] == '$' && hasCharAt part (pos + 1) '{') := by
    by_cases hc : part[pos] = '$'
    · have hat : part[pos]? = some '$' := by rw [Array.getElem?_eq_getElem hlt, hc]
      have hnext : pos + 1 < n := h.next (Nat.lt_of_lt_of_le hlt h.size_le) hat (by decide)
      rw [h.hasCharAt_eq hnext (by omega)]
    · rw [beq_false_of_ne hc]
      rfl
  fun_induction readTemplate part first k pos generalizing q with
  | case1 k pos hlt c =>
    rename_i hclose
    obtain ⟨hlt', hget⟩ := h.get hlt hq
    rw [readTemplate, dif_pos hlt']
    dsimp only
    rw [hget, if_pos hclose, hq, Nat.add_right_comm]
    rfl
  | case2 k pos hlt c hclose =>
    rename_i hopen
    obtain ⟨hlt', hget⟩ := h.get hlt hq
    rw [readTemplate, dif_pos hlt']
    dsimp only
    rw [hget, if_neg hclose, hsubstitution hlt hq, if_pos hopen, hq, Nat.add_right_comm pos d 2]
    rfl
  | case3 k pos hlt c hclose hopen hescape e =>
    rename_i ih
    obtain ⟨hlt', hget⟩ := h.get hlt hq
    have hslash : part[pos]? = some '\\' :=
      (Array.getElem?_eq_getElem hlt).trans (congrArg some (beq_iff_eq.mp hescape))
    have hread := h.read_eq (Nat.lt_of_lt_of_le hlt h.size_le) hslash
    rw [readTemplate, dif_pos hlt']
    dsimp only
    rw [hget, if_neg hclose, hsubstitution hlt hq, if_neg hopen, if_pos hescape, hq, hread, pushEscape_shift]
    exact ih rfl hstop
  | case4 k pos hlt c hclose hopen hescape hreturn hfeed =>
    rename_i ih
    obtain ⟨hlt', hget⟩ := h.get hlt hq
    have hfeed' : hasCharAt text (q + 1) '\n' = hasCharAt part (pos + 1) '\n' :=
      h.feed_eq (Nat.lt_of_lt_of_le hlt h.size_le) (by omega)
    rw [readTemplate, dif_pos hlt']
    dsimp only
    rw [hget, if_neg hclose, hsubstitution hlt hq, if_neg hopen, if_neg hescape, if_pos hreturn, hfeed',
      if_pos hfeed]
    exact ih (by omega) hstop
  | case5 k pos hlt c hclose hopen hescape hreturn hfeed =>
    rename_i ih
    obtain ⟨hlt', hget⟩ := h.get hlt hq
    have hfeed' : hasCharAt text (q + 1) '\n' = hasCharAt part (pos + 1) '\n' :=
      h.feed_eq (Nat.lt_of_lt_of_le hlt h.size_le) (by omega)
    rw [readTemplate, dif_pos hlt']
    dsimp only
    rw [hget, if_neg hclose, hsubstitution hlt hq, if_neg hopen, if_neg hescape, if_pos hreturn, hfeed',
      if_neg hfeed]
    exact ih (by omega) hstop
  | case6 k pos hlt c hclose hopen hescape hreturn =>
    rename_i ih
    obtain ⟨hlt', hget⟩ := h.get hlt hq
    rw [readTemplate, dif_pos hlt']
    dsimp only
    rw [hget, if_neg hclose, hsubstitution hlt hq, if_neg hopen, if_neg hescape, if_neg hreturn]
    exact ih (by omega) hstop
  | case7 k pos hlt =>
    rw [readTemplate, dif_neg (h.not_lt_size hstop hlt hq), hq]
    exact unterminated_shift k _ _ _

/-! ## 7. Lexemes -/

/-- A lexeme that ends before the excerpt does is a lexeme of the text. -/
theorem lexemeAt_eq (h : Excerpt part text n d) (hc : part[pos]? = some c) (hbreak : isLineBreak c = false)
    (hstop : (lexemeAt part pos c).stop < n) :
    lexemeAt text (pos + d) c = (lexemeAt part pos c).shift d := by
  have hpos : pos < n := Nat.lt_of_lt_of_le (lt_size_of_eq_some hc) h.size_le
  have hone : pos + 1 < n := h.next hpos hc hbreak
  have hnext : pos + d + 1 = pos + 1 + d := Nat.add_right_comm pos d 1
  have hinvalid : invalidCharacter (pos + d) = (invalidCharacter pos).shift d := by
    simp [invalidCharacter, Lexeme.shift, ScanError.shift, hnext]
  have hword : readWord text (pos + d) = (readWord part pos).shift d := h.readWordFrom_eq "" false hpos rfl
  unfold lexemeAt at hstop ⊢
  rw [h.char hone hnext, h.punctuatorAt?_eq hpos, h.inIdentifier?_eq hpos rfl]
  split
  · rename_i hquote
    rw [if_pos hquote] at hstop
    rw [hnext]
    exact h.readString_eq c {} rfl hstop
  · rename_i hquote
    rw [if_neg hquote] at hstop
    split
    · rename_i htick
      rw [if_pos htick] at hstop
      unfold readTemplatePiece at hstop ⊢
      rw [h.hasCharAt_eq hpos rfl, hnext]
      exact h.readTemplate_eq _ {} rfl hstop
    · split
      · exact h.readNumber_eq hpos
      · split
        · rename_i p hp
          simp [Punctuator.lexeme, Lexeme.shift, Nat.add_right_comm]
        · split
          · exact hword
          · cases hescape : Escape.inIdentifier? part pos with
            | none => exact hinvalid
            | some r =>
              rw [Option.map_some]
              dsimp only
              split
              · exact hword
              · exact hinvalid

/-- A string that is closed ends with its quote. -/
theorem isLineStart_readString {quote : Char} (hquote : isLineBreak quote = false) (k : Cooked)
    (hquiet : (readString text quote k pos).errors = []) :
    isLineStart text (readString text quote k pos).stop = false := by
  fun_induction readString text quote k pos with
  | case1 k pos hlt c hc =>
    have hlast : isLineBreak c = false := by rwa [beq_iff_eq.mp hc]
    exact (isLineStart_of_lt hlt).trans hlast
  | case2 k pos hlt c hc hescape e ih => exact ih hquiet
  | case3 k pos hlt c hc hescape hbreak => exact absurd hquiet (by simp [Cooked.unterminated])
  | case4 k pos hlt c hc hescape hbreak ih => exact ih hquiet
  | case5 k pos hlt => exact absurd hquiet (by simp [Cooked.unterminated])

theorem isLineStart_readTemplate (first : Bool) (k : Cooked)
    (hquiet : (readTemplate text first k pos).errors = []) :
    isLineStart text (readTemplate text first k pos).stop = false := by
  fun_induction readTemplate text first k pos with
  | case1 k pos hlt c hc =>
    have hlast : isLineBreak c = false := by rw [beq_iff_eq.mp hc]; decide
    exact (isLineStart_of_lt hlt).trans hlast
  | case2 k pos hlt c hc hopen =>
    simp only [Bool.and_eq_true] at hopen
    exact isLineStart_of_hasCharAt hopen.2
  | case3 k pos hlt c hc hopen hescape e ih => exact ih hquiet
  | case4 k pos hlt c hc hopen hescape hreturn hfeed ih => exact ih hquiet
  | case5 k pos hlt c hc hopen hescape hreturn hfeed ih => exact ih hquiet
  | case6 k pos hlt c hc hopen hescape hreturn ih => exact ih hquiet
  | case7 k pos hlt => exact absurd hquiet (by simp [Cooked.unterminated])

/-- A lexeme with which nothing is wrong ends before the excerpt does. -/
theorem stop_lexemeAt_lt (h : Excerpt part text n d) (hc : part[pos]? = some c) (hbreak : isLineBreak c = false)
    (hquiet : (lexemeAt part pos c).errors = []) : (lexemeAt part pos c).stop < n := by
  apply h.lt_of_inLine (lexemeAt_within hc).stop_le
  by_cases hquote : (c == '\'' || c == '"') = true
  · rw [lexemeAt, if_pos hquote] at hquiet ⊢
    exact isLineStart_readString hbreak {} hquiet
  · by_cases htick : (c == '\x60') = true
    · rw [lexemeAt, if_neg hquote, if_pos htick] at hquiet ⊢
      exact isLineStart_readTemplate _ {} hquiet
    · exact (lexemeAt_inLine hc hbreak hquote htick).2

end Excerpt

end ScriptSyntax
