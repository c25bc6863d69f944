/-
  ScriptSyntax/Proofs/Token/Numeral.lean
  ======================================
  Numbers are read as they are written, but for the separators.

  A number consists of rows of digits with something between them that is no digit.
  Each row ends where the next thing starts, so what is said of one row says what is
  read of the whole number.
-/
import ScriptSyntax.Proofs.Token.LoneToken

namespace ScriptSyntax

/-! ## 1. Numbers as they are written -/

/-- Digits, each after the first perhaps with a separator before it. -/
structure DigitRow (valid : Char → Bool) where
  first : Char
  more : List (Bool × Char)
  areDigits : valid first = true ∧ ∀ digit ∈ more, valid digit.2 = true

/-- A digit after the first of a row. -/
def separatedDigit : Bool × Char → List Char
  | (true, c) => ['_', c]
  | (false, c) => [c]

def DigitRow.chars {valid : Char → Bool} (row : DigitRow valid) : List Char :=
  row.first :: row.more.flatMap separatedDigit

/-- What stands before the point of a decimal number: zero, or digits that start with no zero. -/
structure Whole where
  row : DigitRow isDigit
  noLeadingZero : row.first = '0' → row.more = []

/-- A decimal number up to its exponent. -/
inductive Mantissa where
  | whole (w : Whole)
  | pointed (w : Whole) (fraction : Option (DigitRow isDigit))
  | fraction (row : DigitRow isDigit)

def Mantissa.chars : Mantissa → List Char
  | whole w => w.row.chars
  | pointed w row? => w.row.chars ++ '.' :: row?.elim [] DigitRow.chars
  | fraction row => '.' :: row.chars

def Mantissa.isWhole : Mantissa → Bool
  | whole _ => true
  | _ => false

structure Exponent where
  letter : Char
  isLetter : letter = 'e' ∨ letter = 'E'
  sign : List Char
  isSign : sign ∈ [[], ['+'], ['-']]
  row : DigitRow isDigit

def Exponent.chars (e : Exponent) : List Char := e.letter :: (e.sign ++ e.row.chars)

/-- A number in one of its forms. An integer may be a big one. -/
inductive Numeral where
  | decimal (m : Mantissa) (e : Option Exponent)
  | bigDecimal (w : Whole)
  | radix (r : Radix) (letter : Char) (announces : Radix.ofLetter? letter = some r) (row : DigitRow r.isDigit)
    (big : Bool)

namespace Numeral

/-- A number without the suffix of big integers. -/
def body : Numeral → List Char
  | decimal m e => m.chars ++ e.elim [] Exponent.chars
  | bigDecimal w => w.row.chars
  | radix _ letter _ row _ => '0' :: letter :: row.chars

def isBig : Numeral → Bool
  | decimal .. => false
  | bigDecimal _ => true
  | radix _ _ _ _ big => big

def chars (n : Numeral) : List Char := n.body ++ if n.isBig then ['n'] else []

/-- What is noted of a number: its base, whether it has an exponent, and whether it holds a separator. -/
def flags (n : Numeral) : TokenFlags :=
  match n with
  | decimal _ e => { scientific := e.isSome, containsSeparator := n.chars.contains '_' }
  | bigDecimal _ => { containsSeparator := n.chars.contains '_' }
  | radix r .. => { r.flags with containsSeparator := n.chars.contains '_' }

end Numeral

example : (Numeral.decimal (.pointed ⟨⟨'1', [(true, '0')], by decide⟩, by decide⟩ none)
    (some ⟨'e', by decide, ['-'], by decide, ⟨'5', [], by decide⟩⟩)).chars = "1_0.e-5".toList := by decide

variable {text : Array Char} {pos : Nat} {c : Char} {cs rest : List Char} {valid : Char → Bool}

/-! ## 2. Rows of digits -/

/-- No row of digits goes on with the first of the characters. -/
def EndsRow (valid : Char → Bool) (cs : List Char) : Prop := ∀ c ∈ cs.head?, valid c = false ∧ c ≠ '_'

theorem digitRunFrom_end (h : TextAt text pos rest) (hrest : EndsRow valid rest) (hasDigit separated : Bool) :
    digitRunFrom valid text hasDigit separated pos = ⟨pos, hasDigit, separated⟩ := by
  rw [digitRunFrom]
  cases rest with
  | nil => simp [Nat.not_lt.mpr h.size_le]
  | cons c cs =>
    have hlt := h.lt_size
    obtain ⟨hvalid, hseparator⟩ := hrest c rfl
    simp [hlt, h.getElem hlt, hvalid, beq_eq_false_iff_ne.mpr hseparator]

theorem ne_separator (hc : valid c = true) (hseparator : valid '_' = false) : c ≠ '_' := by
  rintro rfl
  exact Bool.false_ne_true (hseparator.symm.trans hc)

theorem digitRunFrom_digit (h : TextAt text pos (c :: cs)) (hc : valid c = true) (hseparator : valid '_' = false)
    (hasDigit separated : Bool) :
    digitRunFrom valid text hasDigit separated pos = digitRunFrom valid text true separated (pos + 1) := by
  have hlt := h.lt_size
  rw [digitRunFrom]
  simp [hlt, h.getElem hlt, beq_eq_false_iff_ne.mpr (ne_separator hc hseparator), hc]

/-- A separator is read over after a digit and before another. -/
theorem digitRunFrom_separator (h : TextAt text pos ('_' :: c :: cs)) (hc : valid c = true) (separated : Bool) :
    digitRunFrom valid text true separated pos = digitRunFrom valid text true true (pos + 1) := by
  have hlt := h.lt_size
  have hnext : text[pos + 1]? = some c := h.next
  rw [digitRunFrom]
  simp [hlt, h.getElem hlt, hnext, hc]

/-- The digits after the first are read to the last of them. -/
theorem digitRunFrom_more {more : List (Bool × Char)} (h : TextAt text pos (more.flatMap separatedDigit ++ rest))
    (hmore : ∀ digit ∈ more, valid digit.2 = true) (hseparator : valid '_' = false) (hrest : EndsRow valid rest)
    (separated : Bool) : digitRunFrom valid text true separated pos
      = ⟨pos + (more.flatMap separatedDigit).length, true, separated || more.any Prod.fst⟩ := by
  induction more generalizing pos separated with
  | nil => simpa using digitRunFrom_end h hrest true separated
  | cons digit more ih =>
    obtain ⟨marked, c⟩ := digit
    obtain ⟨hc, hlater⟩ := List.forall_mem_cons.mp hmore
    -- a separator before the digit takes a step of its own
    cases marked with
    | true =>
      rw [digitRunFrom_separator h hc, digitRunFrom_digit (TextAt.tail h) hc hseparator,
        ih (TextAt.tail (TextAt.tail h)) hlater]
      simp [separatedDigit]
      omega
    | false =>
      rw [digitRunFrom_digit h hc hseparator, ih (TextAt.tail h) hlater]
      simp [separatedDigit]
      omega

theorem contains_separatedDigits {more : List (Bool × Char)} (hmore : ∀ digit ∈ more, valid digit.2 = true)
    (hseparator : valid '_' = false) : (more.flatMap separatedDigit).contains '_' = more.any Prod.fst := by
  induction more with
  | nil => rfl
  | cons digit more ih =>
    obtain ⟨marked, c⟩ := digit
    obtain ⟨hc, hlater⟩ := List.forall_mem_cons.mp hmore
    have hne : '_' ≠ c := (ne_separator hc hseparator).symm
    rw [List.any_cons, ← ih hlater]
    cases marked <;> simp [separatedDigit, hne]

theorem digitRun_row (row : DigitRow valid) (h : TextAt text pos (row.chars ++ rest)) (hseparator : valid '_' = false)
    (hrest : EndsRow valid rest) :
    digitRun valid text pos = ⟨pos + row.chars.length, true, row.chars.contains '_'⟩ := by
  obtain ⟨first, more, hfirst, hmore⟩ := row
  have hne : '_' ≠ first := (ne_separator hfirst hseparator).symm
  rw [digitRun, digitRunFrom_digit h hfirst hseparator, digitRunFrom_more (TextAt.tail h) hmore hseparator hrest,
    ← contains_separatedDigits hmore hseparator]
  simp [DigitRow.chars, hne]
  omega

/-- There may be no digits behind a point. -/
theorem digitRun_row? (row? : Option (DigitRow valid)) (h : TextAt text pos (row?.elim [] DigitRow.chars ++ rest))
    (hseparator : valid '_' = false) (hrest : EndsRow valid rest) :
    digitRun valid text pos = ⟨pos + (row?.elim [] DigitRow.chars).length, row?.isSome,
      (row?.elim [] DigitRow.chars).contains '_'⟩ := by
  cases row? with
  | none => exact digitRunFrom_end h hrest false false
  | some row => exact digitRun_row row h hseparator hrest

/-! ## 3. Decimal numbers -/

/-- The characters may follow the digits before a point. -/
def EndsWhole (cs : List Char) : Prop := ∀ c ∈ cs.head?, c ∈ ['.', 'e', 'E', 'n']

/-- The characters may follow what stands before an exponent. -/
def EndsMantissa (cs : List Char) : Prop := ∀ c ∈ cs.head?, c ∈ ['e', 'E', 'n']

theorem EndsMantissa.endsWhole (h : EndsMantissa cs) : EndsWhole cs :=
  fun c hc => List.mem_cons_of_mem _ (h c hc)

theorem EndsWhole.endsRow (h : EndsWhole cs) : EndsRow isDigit cs := by
  intro c hc
  have hends := h c hc
  simp only [List.mem_cons, List.not_mem_nil, or_false] at hends
  rcases hends with rfl | rfl | rfl | rfl <;> decide

/-- The characters that may follow a mantissa go on with no point. -/
theorem EndsMantissa.hasCharAt_point (h : EndsMantissa cs) (hat : TextAt text pos cs) :
    hasCharAt text pos '.' = false := by
  refine hat.hasCharAt_eq_false fun hhead => ?_
  exact absurd (h '.' hhead) (by decide)

/-- What stands before a point starts with a digit. -/
theorem hasCharAt_row (row : DigitRow isDigit) (h : TextAt text pos (row.chars ++ rest)) (hc : isDigit c = false) :
    hasCharAt text pos c = false := by
  refine h.hasCharAt_eq_false fun hhead => ?_
  have hfirst : row.first = c := Option.some.inj hhead
  rw [← hfirst, row.areDigits.1] at hc
  cases hc

/-- The digits before a point. -/
def wholeRun (text : Array Char) (pos : Nat) : DigitRun :=
  if hasCharAt text pos '.' then ⟨pos, false, false⟩ else digitRun isDigit text pos

/-- A point and the digits behind it. -/
def fractionRun (text : Array Char) (pos : Nat) : DigitRun :=
  if hasCharAt text pos '.' then digitRun isDigit text (pos + 1) else ⟨pos, false, false⟩

theorem readDecimal_eq (text : Array Char) (pos : Nat) :
    readDecimal text pos = (exponentRun? text (fractionRun text (wholeRun text pos).stop).stop).elim
      (finishNumber text pos (fractionRun text (wholeRun text pos).stop).stop
        (!hasCharAt text (wholeRun text pos).stop '.')
        { containsSeparator := (wholeRun text pos).separated
          || (fractionRun text (wholeRun text pos).stop).separated } [])
      fun e => finishNumber text pos e.stop false
        { scientific := true, containsSeparator := (wholeRun text pos).separated
          || (fractionRun text (wholeRun text pos).stop).separated || e.separated }
        (e.missing .digitExpected) := by
  unfold readDecimal
  dsimp only
  split <;> rename_i hexponent <;> rw [fractionRun, wholeRun, hexponent] <;> rfl

theorem wholeRun_row (row : DigitRow isDigit) (h : TextAt text pos (row.chars ++ rest)) (hrest : EndsWhole rest) :
    wholeRun text pos = ⟨pos + row.chars.length, true, row.chars.contains '_'⟩ := by
  have hpoint := hasCharAt_row row h (by decide : isDigit '.' = false)
  simp only [wholeRun, hpoint, Bool.false_eq_true, if_false]
  exact digitRun_row row h (by decide) hrest.endsRow

theorem fractionRun_row? (row? : Option (DigitRow isDigit))
    (h : TextAt text pos ('.' :: (row?.elim [] DigitRow.chars ++ rest))) (hrest : EndsWhole rest) :
    fractionRun text pos = ⟨pos + 1 + (row?.elim [] DigitRow.chars).length, row?.isSome,
      (row?.elim [] DigitRow.chars).contains '_'⟩ := by
  simp only [fractionRun, h.hasCharAt_eq, beq_self_eq_true, if_true]
  exact digitRun_row? row? h.tail (by decide) hrest.endsRow

theorem readDecimal_mantissa (m : Mantissa) (h : TextAt text pos (m.chars ++ rest)) (hrest : EndsMantissa rest) :
    readDecimal text pos = (exponentRun? text (pos + m.chars.length)).elim
      (finishNumber text pos (pos + m.chars.length) m.isWhole { containsSeparator := m.chars.contains '_' } [])
      fun e => finishNumber text pos e.stop false
        { scientific := true, containsSeparator := m.chars.contains '_' || e.separated } (e.missing .digitExpected) := by
  rw [readDecimal_eq]
  cases m with
  | whole w =>
    have hskip : TextAt text (pos + w.row.chars.length) rest := TextAt.skip h
    have hnone := hrest.hasCharAt_point hskip
    rw [wholeRun_row w.row h hrest.endsWhole]
    simp [fractionRun, hnone, Mantissa.chars, Mantissa.isWhole]
  | pointed w row? =>
    have hwhole : TextAt text pos (w.row.chars ++ '.' :: (row?.elim [] DigitRow.chars ++ rest)) := by
      simpa [Mantissa.chars] using h
    have hskip := hwhole.skip
    -- the point ends the digits before it, and what follows the mantissa those behind it
    rw [wholeRun_row w.row hwhole (by rintro _ ⟨⟩; decide), fractionRun_row? row? hskip hrest.endsWhole]
    simp [hskip.hasCharAt_eq, Mantissa.chars, Mantissa.isWhole, Nat.add_assoc, Nat.add_comm 1]
  | fraction row =>
    have hpoint : wholeRun text pos = ⟨pos, false, false⟩ := by
      simp [wholeRun, TextAt.hasCharAt_eq h]
    rw [hpoint, fractionRun_row? (some row) h hrest.endsWhole]
    simp [TextAt.hasCharAt_eq h, Mantissa.chars, Mantissa.isWhole, Nat.add_assoc, Nat.add_comm 1]

theorem endsMantissa_exponent (e : Option Exponent) : EndsMantissa (e.elim [] Exponent.chars) := by
  cases e with
  | none => rintro _ ⟨⟩
  | some e =>
    rintro _ ⟨⟩
    rcases e.isLetter with h | h <;> simp [h]

theorem exponentRun?_eq (e : Exponent) (h : TextAt text pos (e.chars ++ rest)) (hrest : EndsRow isDigit rest) :
    exponentRun? text pos = some ⟨pos + e.chars.length, true, e.chars.contains '_'⟩ := by
  obtain ⟨letter, isLetter, sign, isSign, row⟩ := e
  have htail : TextAt text (pos + 1) (sign ++ (row.chars ++ rest)) := by
    simpa [Exponent.chars] using TextAt.tail h
  have hletter : (hasCharAt text pos 'e' || hasCharAt text pos 'E') = true ∧ '_' ≠ letter := by
    rw [TextAt.hasCharAt_eq h, TextAt.hasCharAt_eq h]
    rcases isLetter with rfl | rfl <;> simp
  simp only [List.mem_cons, List.not_mem_nil, or_false] at isSign
  have hsign : (if (hasCharAt text (pos + 1) '+' || hasCharAt text (pos + 1) '-') = true then pos + 2 else pos + 1)
      = pos + 1 + sign.length ∧ '_' ∉ sign := by
    rcases isSign with rfl | rfl | rfl
    · simp [hasCharAt_row row htail (by decide : isDigit '+' = false),
        hasCharAt_row row htail (by decide : isDigit '-' = false)]
    · simp [TextAt.hasCharAt_eq htail]
    · simp [TextAt.hasCharAt_eq htail]
  simp only [exponentRun?, hletter.1, if_true, hsign.1, digitRun_row row htail.skip (by decide) hrest]
  simp [Exponent.chars, hletter.2, hsign.2]
  omega

/-! ## 4. All numbers -/

/-- What is read of a number. -/
def Numeral.lexeme (n : Numeral) (pos : Nat) : Lexeme where
  stop := pos + n.chars.length
  kind := if n.isBig then .literal .bigInt else .literal .numeric
  value := String.ofList (n.chars.filter (· != '_'))
  flags := n.flags

/-- Behind its body a number is finished with the suffix of big integers or without it. -/
theorem Numeral.finish_eq (n : Numeral) (integer : Bool) (h : TextAt text pos n.chars)
    (hinteger : n.isBig = true → integer = true) :
    finishNumber text pos (pos + n.body.length) integer n.flags [] = n.lexeme pos := by
  have hsuffix : TextAt text (pos + n.body.length) (if n.isBig then ['n'] else []) := TextAt.skip h
  have hbig : (integer && hasCharAt text (pos + n.body.length) 'n') = n.isBig := by
    cases hn : n.isBig with
    | true =>
      rw [hn] at hsuffix
      simp [hinteger hn, TextAt.hasCharAt_eq hsuffix]
    | false =>
      rw [hn] at hsuffix
      simp [TextAt.hasCharAt_eq_false hsuffix]
  have hlast : (if n.isBig = true then pos + n.body.length + 1 else pos + n.body.length) = pos + n.chars.length := by
    rw [chars]
    cases n.isBig <;> simp [Nat.add_assoc]
  rw [← List.append_nil n.chars] at h
  have hend : text[pos + n.chars.length]? = none := h.skip.head?
  simp only [finishNumber, hbig, hlast, h.extract, identifierAfterNumber, hend]
  rfl

theorem Numeral.contains_chars (n : Numeral) : n.chars.contains '_' = n.body.contains '_' := by
  rw [chars]
  cases n.isBig <;> simp

theorem readRadixNumber_eq {r : Radix} {letter : Char} (announces : Radix.ofLetter? letter = some r)
    (row : DigitRow r.isDigit) (big : Bool) (h : TextAt text pos (Numeral.radix r letter announces row big).chars) :
    readRadixNumber text r pos = (Numeral.radix r letter announces row big).lexeme pos := by
  have hrow : TextAt text (pos + 2) (row.chars ++ if big then ['n'] else []) := TextAt.tail (TextAt.tail h)
  have hseparator : r.isDigit '_' = false := by cases r <;> decide
  have hrest : EndsRow r.isDigit (if big then ['n'] else []) := by
    cases big with
    | true =>
      rintro _ ⟨⟩
      cases r <;> decide
    | false => rintro _ ⟨⟩
  have hletter : '_' ≠ letter := by
    rintro rfl
    cases announces
  have hstop : pos + 2 + row.chars.length = pos + ('0' :: letter :: row.chars).length := by
    simp
    omega
  have hcontains : row.chars.contains '_' = ('0' :: letter :: row.chars).contains '_' := by
    simp [hletter]
  have hfinish := (Numeral.radix r letter announces row big).finish_eq true h (fun _ => rfl)
  rw [Numeral.flags, Numeral.contains_chars] at hfinish
  simp only [readRadixNumber, digitRun_row row hrow hseparator hrest, DigitRun.missing, if_true, hstop, hcontains]
  exact hfinish

theorem readDecimal_bigDecimal (w : Whole) (h : TextAt text pos (Numeral.bigDecimal w).chars) :
    readDecimal text pos = (Numeral.bigDecimal w).lexeme pos := by
  have hends : EndsMantissa ['n'] := by
    rintro _ ⟨⟩
    decide
  have hsuffix : TextAt text (pos + w.row.chars.length) ['n'] := TextAt.skip h
  have hexponent : exponentRun? text (pos + (Mantissa.whole w).chars.length) = none := by
    simp [Mantissa.chars, exponentRun?, hsuffix.hasCharAt_eq]
  have hfinish := (Numeral.bigDecimal w).finish_eq true h (fun _ => rfl)
  rw [Numeral.flags, Numeral.contains_chars] at hfinish
  rw [readDecimal_mantissa (.whole w) h hends, hexponent]
  exact hfinish

theorem readDecimal_decimal (m : Mantissa) (e : Option Exponent) (h : TextAt text pos (Numeral.decimal m e).chars) :
    readDecimal text pos = (Numeral.decimal m e).lexeme pos := by
  have hbody : TextAt text pos (m.chars ++ e.elim [] Exponent.chars) := by
    simpa [Numeral.chars, Numeral.body, Numeral.isBig] using h
  cases e with
  | none =>
    have hend : TextAt text (pos + m.chars.length) [] := hbody.skip
    have hexponent : exponentRun? text (pos + m.chars.length) = none := by
      simp [exponentRun?, hasCharAt, hend.head?]
    have hfinish := (Numeral.decimal m none).finish_eq m.isWhole h (by rintro ⟨⟩)
    rw [Numeral.flags, Numeral.contains_chars] at hfinish
    rw [readDecimal_mantissa m hbody (endsMantissa_exponent _), hexponent]
    simpa [Numeral.body] using hfinish
  | some e =>
    have hat : TextAt text (pos + m.chars.length) (e.chars ++ []) := by
      simpa using hbody.skip
    have hexponent := exponentRun?_eq e hat (by rintro _ ⟨⟩)
    have hfinish := (Numeral.decimal m (some e)).finish_eq false h (by rintro ⟨⟩)
    rw [Numeral.flags, Numeral.contains_chars] at hfinish
    rw [readDecimal_mantissa m hbody (endsMantissa_exponent _), hexponent]
    simpa [Numeral.body, DigitRun.missing, Nat.add_assoc] using hfinish

/-- Digits before a point announce no base, and they are not octal. -/
theorem readNumber_whole (w : Whole) (h : TextAt text pos (w.row.chars ++ rest)) (hrest : EndsWhole rest) :
    readNumber text pos = readDecimal text pos := by
  unfold readNumber
  by_cases hzero : w.row.first = '0'
  · -- nothing but the zero stands before what may follow
    have hnext : TextAt text (pos + 1) ([] ++ rest) := by
      simpa [DigitRow.chars, w.noLeadingZero hzero] using TextAt.tail h
    have hbase : text[pos + 1]?.bind Radix.ofLetter? = none := by
      rw [hnext.head?]
      cases rest with
      | nil => rfl
      | cons c cs =>
        have hc := hrest c rfl
        simp only [List.mem_cons, List.not_mem_nil, or_false] at hc
        rcases hc with rfl | rfl | rfl | rfl <;> rfl
    have hoctal : isLegacyOctal text pos = false := by
      have hwalk := hnext.scanWhile_eq (p := isDigit) (by simp) fun c hc => (hrest.endsRow c hc).1
      simp [isLegacyOctal, hwalk]
    simp [hbase, hoctal]
  · simp [TextAt.hasCharAt_eq h, hzero]

theorem Numeral.readNumber_eq (n : Numeral) (h : TextAt text pos n.chars) : readNumber text pos = n.lexeme pos := by
  cases n with
  | decimal m e =>
    have hexponent := endsMantissa_exponent e
    have hbody : TextAt text pos (m.chars ++ e.elim [] Exponent.chars) := by
      simpa [chars, body, isBig] using h
    rw [← readDecimal_decimal m e h]
    cases m with
    | whole w => exact readNumber_whole w hbody hexponent.endsWhole
    | pointed w row? =>
      rw [Mantissa.chars, List.append_assoc] at hbody
      refine readNumber_whole w hbody ?_
      rintro _ ⟨⟩
      decide
    | fraction row => simp [readNumber, TextAt.hasCharAt_eq hbody]
  | bigDecimal w =>
    rw [← readDecimal_bigDecimal w h]
    refine readNumber_whole w h ?_
    rintro _ ⟨⟩
    decide
  | radix r letter announces row big =>
    have hnext : text[pos + 1]? = some letter := TextAt.next h
    rw [← readRadixNumber_eq announces row big h]
    simp [readNumber, TextAt.hasCharAt_eq h, hnext, announces]

/-- A number starts with a digit or with a point before one. -/
def StartsNumber (cs : List Char) : Prop :=
  ∃ c rest, cs = c :: rest ∧ (isDigit c = true ∨ c = '.' ∧ rest.head?.any isDigit = true)

theorem scanAt_of_startsNumber (h : TextAt text pos cs) (hcs : StartsNumber cs) :
    scanAt text pos = (readNumber text pos).toToken pos ⟨pos, {}, []⟩ := by
  obtain ⟨c, rest, rfl, hc⟩ := hcs
  have hne (d : Char) (hd : isDigit d = false ∧ d ≠ '.') : c ≠ d := by
    rintro rfl
    rcases hc with hdigit | ⟨rfl, -⟩
    · exact Bool.false_ne_true (hd.1.symm.trans hdigit)
    · exact hd.2 rfl
  have hspace : isWhiteSpaceLike c = false := by
    rcases hc with hdigit | ⟨rfl, -⟩
    · have hpart : isIdentifierPart c = true := by
        simp [isIdentifierPart, hdigit]
      simp [isWhiteSpaceLike, isSingleLineSpace_of_isIdentifierPart hpart, isLineBreak_of_isIdentifierPart hpart]
    · decide
  have hmarker : isMarkerChar c = false := by
    simp [isMarkerChar, hne '<' (by decide), hne '=' (by decide), hne '>' (by decide), hne '|' (by decide)]
  have hlexeme : lexemeAt text pos c = readNumber text pos := by
    have hstarts : (isDigit c || (c == '.' && text[pos + 1]?.any isDigit)) = true := by
      rcases hc with hdigit | ⟨rfl, hdigit⟩
      · simp [hdigit]
      · simp [h.tail.head?, hdigit]
    unfold lexemeAt
    simp only [beq_eq_false_iff_ne.mpr (hne '\'' (by decide)), beq_eq_false_iff_ne.mpr (hne '"' (by decide)),
      beq_eq_false_iff_ne.mpr (hne '\x60' (by decide)), hstarts]
    rfl
  rw [← hlexeme]
  exact scanAt_of_char h hspace (hne '#' (by decide)) (fun hslash => absurd hslash (hne '/' (by decide))) hmarker

theorem DigitRow.startsNumber (row : DigitRow isDigit) (rest : List Char) : StartsNumber (row.chars ++ rest) :=
  ⟨row.first, _, rfl, .inl row.areDigits.1⟩

theorem Mantissa.startsNumber (m : Mantissa) (rest : List Char) : StartsNumber (m.chars ++ rest) := by
  cases m with
  | whole w => exact w.row.startsNumber rest
  | pointed w row? =>
    rw [chars, List.append_assoc]
    exact w.row.startsNumber _
  | fraction row =>
    refine ⟨'.', row.chars ++ rest, rfl, .inr ⟨rfl, ?_⟩⟩
    simp [DigitRow.chars, row.areDigits.1]

theorem Numeral.startsNumber (n : Numeral) : StartsNumber n.chars := by
  cases n with
  | decimal m e =>
    rw [chars, body, List.append_assoc]
    exact m.startsNumber _
  | bigDecimal w => exact w.row.startsNumber _
  | radix r letter announces row big => exact ⟨'0', _, rfl, .inl (by decide)⟩

/-- The text of a number is one token. Its value is the text without the separators, the suffix tells a big integer,
and it is noted whether there is a base, an exponent or a separator. -/
theorem isToken_numeral (n : Numeral) : (SourceText.ofChars n.chars).IsToken
    (if n.isBig then .literal .bigInt else .literal .numeric) (String.ofList (n.chars.filter (· != '_'))) n.flags := by
  have htext := SourceText.textAt_ofChars n.chars
  have hscan := scanAt_of_startsNumber htext n.startsNumber
  have hkind : (n.lexeme 0).kind ≠ .endOfFile := by
    rw [Numeral.lexeme]
    cases n.isBig <;> simp
  rw [n.readNumber_eq htext] at hscan
  exact SourceText.isToken_of_scanAt hscan (Nat.zero_add _) hkind rfl

end ScriptSyntax
