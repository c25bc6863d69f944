/-
  ScriptSyntax/Proofs/Token/StringLiteral.lean
  ============================================
  Strings are read as what they are written for.

  A character of a string may be written in several forms, and each may be followed
  by any other.  What two forms could take for their own is kept apart by what they
  start with: an escape starts with a backslash, and nothing starts with a line feed.
-/
import ScriptSyntax.Proofs.Token.EscapeForms
import ScriptSyntax.Proofs.Token.LoneToken

namespace ScriptSyntax

open HexDigit

/-! ## 1. Strings as they are written -/

/-- What a string stands between. -/
inductive QuoteMark where
  | single | double

def QuoteMark.char : QuoteMark → Char
  | single => '\''
  | double => '"'

/-- The letters that stand for control characters after a backslash, each with its character. -/
def controlLetters : List (Char × Char) :=
  [('b', '\x08'), ('t', '\t'), ('n', '\n'), ('v', '\x0b'), ('f', '\x0c'), ('r', '\r')]

/-- The ways to end a line. -/
def lineEnds : List (List Char) := [['\n'], ['\r'], ['\r', '\n'], ['\u2028'], ['\u2029']]

/-- A character in one of its written forms, or the end of a line within a string, which stands for nothing.
A pair of halves is the form of a character that is too large for four digits. -/
inductive StringItem (q : QuoteMark) where
  | verbatim (c : Char) (plain : c ≠ q.char ∧ c ≠ '\\' ∧ isLineBreak c = false)
  | escaped (c : Char) (special : c = q.char ∨ c = '\\')
  | control (letter c : Char) (named : (letter, c) ∈ controlLetters)
  | byte (c : Char) (digits : List HexDigit) (two : digits.length = 2) (written : number digits = c.toNat)
  | unicode (c : Char) (form : UnicodeEscape c)
  | pair (c : Char) (high low : List HexDigit) (four : high.length = 4 ∧ low.length = 4)
    (large : 0x10000 ≤ c.toNat) (writtenHigh : number high = 0xD800 + (c.toNat - 0x10000) / 0x400)
    (writtenLow : number low = 0xDC00 + (c.toNat - 0x10000) % 0x400)
  | continuation (lineEnd : List Char) (isEnd : lineEnd ∈ lineEnds)

namespace StringItem

variable {q : QuoteMark}

/-- The character that is meant. -/
def value? : StringItem q → Option Char
  | verbatim c _ | escaped c _ | control _ c _ | byte c .. | unicode c _ | pair c .. => some c
  | continuation .. => none

def chars : StringItem q → List Char
  | verbatim c _ => [c]
  | escaped c _ => ['\\', c]
  | control letter _ _ => ['\\', letter]
  | byte _ digits .. => '\\' :: 'x' :: digits.map char
  | unicode _ form => form.chars
  | pair _ high low .. => '\\' :: 'u' :: (high.map char ++ '\\' :: 'u' :: low.map char)
  | continuation lineEnd _ => '\\' :: lineEnd

/-- Is it of the form with braces? -/
def isBraced : StringItem q → Bool
  | unicode _ form => form.isBraced
  | _ => false

end StringItem

/-- The text of a string. -/
def stringText (q : QuoteMark) (items : List (StringItem q)) : SourceText :=
  .ofChars (q.char :: (items.flatMap StringItem.chars ++ [q.char]))

example : stringText .single [.verbatim 'a' (by decide), .escaped '\'' (by decide), .control 'n' '\n' (by decide),
    .continuation ['\r', '\n'] (by decide), .byte 'A' [⟨4, false⟩, ⟨1, false⟩] (by decide) (by decide),
    .unicode 'z' (.braced [⟨0, false⟩, ⟨7, false⟩, ⟨10, true⟩] (by decide) (by decide)),
    .pair '😀' [⟨13, true⟩, ⟨8, false⟩, ⟨3, false⟩, ⟨13, false⟩] [⟨13, true⟩, ⟨14, true⟩, ⟨0, false⟩, ⟨0, false⟩]
      (by decide) (by decide) (by decide) (by decide)]
    = .ofString "'a\\'\\n\\\r\n\\x41\\u\x7b07A\x7d\\uD83d\\uDE00'" := by decide

variable {text : Array Char} {pos : Nat} {q : QuoteMark} {item : StringItem q} {rest : List Char}

/-! ## 2. Single items -/

theorem QuoteMark.ne_backslash (q : QuoteMark) : q.char ≠ '\\' := by
  cases q <;> decide

/-- A quote, a backslash and the letter of a control character stand for one character after a backslash. -/
theorem read_escaped {letter c : Char} (h : TextAt text pos ('\\' :: letter :: rest))
    (hletter : (letter = c ∧ (c = q.char ∨ c = '\\')) ∨ (letter, c) ∈ controlLetters) :
    Escape.read text pos = ⟨pos + 2, some c, false, []⟩ := by
  have hnext : text[pos + 1]? = some letter := h.next
  unfold Escape.read
  rcases hletter with ⟨rfl, rfl | rfl⟩ | hnamed
  · cases q <;> simp [hnext, QuoteMark.char, isLineBreak]
  · simp [hnext, isLineBreak]
  · simp only [controlLetters, List.mem_cons, List.not_mem_nil, or_false, Prod.mk.injEq] at hnamed
    rcases hnamed with ⟨rfl, rfl⟩ | ⟨rfl, rfl⟩ | ⟨rfl, rfl⟩ | ⟨rfl, rfl⟩ | ⟨rfl, rfl⟩ | ⟨rfl, rfl⟩ <;> simp [hnext]

theorem read_byte {digits : List HexDigit} {c : Char} (h : TextAt text pos ('\\' :: 'x' :: (digits.map char ++ rest)))
    (htwo : digits.length = 2) (hc : number digits = c.toNat) :
    Escape.read text pos = ⟨pos + 4, some c, false, []⟩ := by
  have hnext : text[pos + 1]? = some 'x' := h.next
  have hread := exactHex_map_char (n := 0) h.tail.tail
  rw [htwo, show numberFrom 0 digits = c.toNat from hc] at hread
  unfold Escape.read
  simp [hnext, Escape.byteForm, hread]

/-- Two halves of a pair, one after the other, stand for one character. -/
theorem read_pair {high low : List HexDigit} {c : Char}
    (h : TextAt text pos ('\\' :: 'u' :: (high.map char ++ '\\' :: 'u' :: (low.map char ++ rest))))
    (hfour : high.length = 4 ∧ low.length = 4) (hhigh : 0xD800 ≤ number high ∧ number high < 0xDC00)
    (hlow : 0xDC00 ≤ number low ∧ number low ≤ 0xDFFF)
    (hc : 0x10000 + (number high - 0xD800) * 0x400 + (number low - 0xDC00) = c.toNat) :
    Escape.read text pos = ⟨pos + 12, some c, false, []⟩ := by
  have hnext : text[pos + 1]? = some 'u' := h.next
  have hbrace := UnicodeEscape.hasCharAt_brace h.tail.tail hfour.1
  have hsecond : TextAt text (pos + 6) ('\\' :: 'u' :: (low.map char ++ rest)) := by
    have hskip := h.tail.tail.skip
    rwa [List.length_map, hfour.1] at hskip
  have hreadHigh := exactHex_map_char (n := 0) h.tail.tail
  have hreadLow := exactHex_map_char (n := 0) hsecond.tail.tail
  rw [hfour.1, ← number] at hreadHigh
  rw [hfour.2, ← number] at hreadLow
  have hpair : Escape.lowHalf? text (pos + 6) = some (number low, pos + 12) := by
    unfold Escape.lowHalf?
    simp [hsecond.hasCharAt_eq, hsecond.tail.hasCharAt_eq, hreadLow, hlow]
  unfold Escape.read
  simp [hnext, hbrace, Escape.unitForm, hreadHigh, hhigh, hpair, hc]

/-- The end of a line after a backslash stands for nothing. -/
theorem read_lineEnd {lineEnd : List Char} (h : TextAt text pos ('\\' :: (lineEnd ++ rest)))
    (hend : lineEnd ∈ lineEnds) (hrest : rest.head? ≠ some '\n') :
    Escape.read text pos = ⟨pos + 1 + lineEnd.length, none, false, []⟩ := by
  simp only [lineEnds, List.mem_cons, List.not_mem_nil, or_false] at hend
  unfold Escape.read
  rcases hend with rfl | rfl | rfl | rfl | rfl
  · simp [h.next, isLineBreak]
  · have hskip : TextAt text (pos + 2) rest := TextAt.tail (TextAt.tail h)
    have hfeed : hasCharAt text (pos + 2) '\n' = false := hskip.hasCharAt_eq_false hrest
    simp [h.next, hfeed]
  · have hfeed : hasCharAt text (pos + 2) '\n' = true := TextAt.hasCharAt_eq (TextAt.tail (TextAt.tail h)) '\n'
    simp [h.next, hfeed]
  · simp [h.next, isLineBreak]
  · simp [h.next, isLineBreak]

namespace StringItem

/-- What is not written as it stands starts with a backslash. -/
theorem verbatim_or_escape (item : StringItem q) :
    (∃ c plain, item = verbatim c plain) ∨ ∃ cs, item.chars = '\\' :: cs := by
  cases item with
  | verbatim c plain => exact .inl ⟨c, plain, rfl⟩
  | unicode c form => exact .inr form.exists_cons
  | _ => exact .inr ⟨_, rfl⟩

/-- No item starts with a line feed, so a carriage return before it is a line end of its own. -/
theorem exists_cons (item : StringItem q) : ∃ c cs, item.chars = c :: cs ∧ c ≠ '\n' := by
  rcases item.verbatim_or_escape with ⟨c, plain, rfl⟩ | ⟨cs, hchars⟩
  · refine ⟨c, [], rfl, ?_⟩
    rintro rfl
    exact absurd plain.2.2 (by decide)
  · exact ⟨_, cs, hchars, by decide⟩

/-- An item that starts with a backslash is read as an escape of what it means. -/
theorem read_eq (h : TextAt text pos (item.chars ++ rest)) (hescape : item.chars.head? = some '\\')
    (hrest : rest.head? ≠ some '\n') :
    Escape.read text pos = ⟨pos + item.chars.length, item.value?, item.isBraced, []⟩ := by
  cases item with
  | verbatim c plain => exact absurd (Option.some.inj hescape) plain.2.1
  | escaped c special => exact read_escaped h (.inl ⟨rfl, special⟩)
  | control letter c named => exact read_escaped (q := q) h (.inr named)
  | byte c digits two written =>
    rw [read_byte h two written]
    simp [chars, value?, isBraced, two]
  | unicode c form => exact form.read_eq h
  | pair c high low four large writtenHigh writtenLow =>
    have hbounds := Char.toNat_bounds c
    have hpair : TextAt text pos ('\\' :: 'u' :: (high.map char ++ '\\' :: 'u' :: (low.map char ++ rest))) := by
      simpa [chars] using h
    rw [read_pair hpair four (c := c) (by omega) (by omega) (by omega)]
    simp [chars, value?, isBraced, four]
  | continuation lineEnd isEnd =>
    rw [read_lineEnd h isEnd hrest]
    simp [chars, value?, isBraced]
    omega

end StringItem

/-! ## 3. Strings -/

/-- What has been read of a string after one more item. -/
def Cooked.pushItem (k : Cooked) (item : StringItem q) : Cooked where
  value := k.value ++ String.ofList item.value?.toList
  flags := { k.flags with extendedEscape := k.flags.extendedEscape || item.isBraced }
  errors := k.errors

theorem Cooked.pushEscape_eq (k : Cooked) (item : StringItem q) (stop : Nat) :
    k.pushEscape ⟨stop, item.value?, item.isBraced, []⟩ = k.pushItem item := by
  have hflags (b : Bool) : (if b = true then { k.flags with extendedEscape := true } else k.flags)
      = { k.flags with extendedEscape := k.flags.extendedEscape || b } := by
    cases b <;> simp
  unfold pushEscape pushItem
  rw [hflags]
  cases item.value? <;> simp

/-- A string is read on over one item. -/
theorem readString_item (h : TextAt text pos (item.chars ++ rest)) (hrest : rest.head? ≠ some '\n') (k : Cooked) :
    readString text q.char k pos = readString text q.char (k.pushItem item) (pos + item.chars.length) := by
  rw [readString]
  rcases item.verbatim_or_escape with ⟨c, plain, rfl⟩ | ⟨cs, hchars⟩
  · have hlt := TextAt.lt_size h
    obtain ⟨hquote, hbackslash, hbreak⟩ := plain
    have hpush : k.push c = k.pushItem (.verbatim c ⟨hquote, hbackslash, hbreak⟩ : StringItem q) := by
      simp [Cooked.push, Cooked.pushItem, StringItem.value?, StringItem.isBraced]
    simp only [hlt, ↓reduceDIte, TextAt.getElem h hlt, beq_eq_false_iff_ne.mpr hquote,
      beq_eq_false_iff_ne.mpr hbackslash, hbreak, hpush]
    rfl
  · have hhead : TextAt text pos ('\\' :: (cs ++ rest)) := by
      rwa [hchars] at h
    have hlt := hhead.lt_size
    have hread := StringItem.read_eq h (by rw [hchars]; rfl) hrest
    simp only [hlt, ↓reduceDIte, hhead.getElem hlt, beq_eq_false_iff_ne.mpr q.ne_backslash.symm, hread,
      Cooked.pushEscape_eq]
    rfl

/-- A string is read up to the quote behind its last item. -/
theorem readString_items {items : List (StringItem q)}
    (h : TextAt text pos (items.flatMap StringItem.chars ++ q.char :: rest)) (k : Cooked) :
    readString text q.char k pos = ⟨pos + (items.flatMap StringItem.chars).length + 1, .literal .string,
      k.value ++ String.ofList (items.filterMap StringItem.value?),
      { k.flags with extendedEscape := k.flags.extendedEscape || items.any StringItem.isBraced }, k.errors⟩ := by
  induction items generalizing pos k with
  | nil =>
    have hlt := TextAt.lt_size h
    rw [readString]
    simp [hlt, TextAt.getElem h hlt, Cooked.finish]
  | cons item items ih =>
    have hitem : TextAt text pos (item.chars ++ (items.flatMap StringItem.chars ++ q.char :: rest)) := by
      simpa using h
    -- so a carriage return at the end of this item is not half of a line end
    have hrest : (items.flatMap StringItem.chars ++ q.char :: rest).head? ≠ some '\n' := by
      cases items with
      | nil => cases q <;> simp [QuoteMark.char]
      | cons next items =>
        obtain ⟨c, cs, hchars, hc⟩ := next.exists_cons
        simp [hchars, hc]
    have hvalue : item.value?.toList ++ items.filterMap StringItem.value?
        = (item :: items).filterMap StringItem.value? := by
      cases hvalue : item.value? <;> simp [hvalue]
    have hlength : pos + item.chars.length + (items.flatMap StringItem.chars).length
        = pos + ((item :: items).flatMap StringItem.chars).length := by
      rw [List.flatMap_cons, List.length_append, Nat.add_assoc]
    rw [readString_item hitem hrest, ih hitem.skip, hlength, ← hvalue]
    simp [Cooked.pushItem, String.append_assoc, Bool.or_assoc]

/-- The text of a string is one token. Its value is the sequence of the characters that are meant, however each of
them is written, and it is noted whether a form with braces is among them. -/
theorem isToken_stringText (q : QuoteMark) (items : List (StringItem q)) :
    (stringText q items).IsToken (.literal .string) (String.ofList (items.filterMap StringItem.value?))
      { extendedEscape := items.any StringItem.isBraced } := by
  have htext := SourceText.textAt_ofChars (q.char :: (items.flatMap StringItem.chars ++ [q.char]))
  have hspace : isWhiteSpaceLike q.char = false := by cases q <;> decide
  have hmarker : isMarkerChar q.char = false := by cases q <;> decide
  have hash : q.char ≠ '#' := by cases q <;> decide
  have hslash : q.char ≠ '/' := by cases q <;> decide
  have hscan := scanAt_of_char htext hspace hash (fun h => absurd h hslash) hmarker
  have hlexeme (text : Array Char) (pos : Nat) :
      lexemeAt text pos q.char = readString text q.char {} (pos + 1) := by
    cases q <;> rfl
  rw [hlexeme, readString_items htext.tail {}] at hscan
  have htoken := SourceText.isToken_of_scanAt hscan (by simp; omega) (by simp) rfl
  simpa [stringText] using htoken

end ScriptSyntax
