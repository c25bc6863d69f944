/-
  ScriptSyntax/Token/Escape.lean
  ==============================
  Escape sequences in strings, templates and identifiers.

  In strings and templates an escape stands for one character or, at the end of
  a line, for none, and a malformed one is an error that the scan survives.  In
  identifiers an escape either names a character or is no escape at all.
-/
import ScriptSyntax.Text.CharClass
import ScriptSyntax.Token.Basic

namespace ScriptSyntax

/-- What an escape sequence stands for, and where it ends. -/
structure Escape where
  stop : Nat
  char? : Option Char
  /-- Is it of the form with braces? -/
  extended : Bool := false
  errors : List ScanError := []
  deriving DecidableEq, Repr

namespace Escape

/-! ## 1. Hexadecimal digits -/

/-- Reads exactly `count` hexadecimal digits after those read so far, whose value is `value`. The
position is that of the first character not read; there is no value if a digit is missing. -/
def exactHex (text : Array Char) : Nat → Nat → Nat → Nat × Option Nat
  | 0, pos, value => (pos, some value)
  | count + 1, pos, value =>
    match text[pos]?.bind hexValue? with
    | some d => exactHex text count (pos + 1) (value * 16 + d)
    | none => (pos, none)

/-- Reading digits never goes back. -/
theorem le_exactHex (text : Array Char) (count pos value : Nat) :
    pos ≤ (exactHex text count pos value).1 := by
  induction count generalizing pos value with
  | zero => exact Nat.le_refl pos
  | succ n ih =>
    unfold exactHex
    split
    · exact Nat.le_of_succ_le (ih (pos + 1) _)
    · exact Nat.le_refl pos

/-- The character that stands in for what is no character. -/
def replacement : Char := '\ufffd'

/-! ## 2. The forms of an escape -/

/-- An escape of two digits, `pos` being that of the first. -/
def byteForm (text : Array Char) (pos : Nat) : Escape :=
  match exactHex text 2 pos 0 with
  | (stop, some n) => ⟨stop, charOfCodePoint? n, false, []⟩
  | (stop, none) => ⟨stop, none, false, [⟨.hexDigitExpected, stop, 0⟩]⟩

/-- The second half of a pair of escapes at `pos`, and where it ends. -/
def lowHalf? (text : Array Char) (pos : Nat) : Option (Nat × Nat) :=
  if hasCharAt text pos '\\' && hasCharAt text (pos + 1) 'u' then
    match exactHex text 4 (pos + 2) 0 with
    | (stop, some low) => if 0xDC00 ≤ low && low ≤ 0xDFFF then some (low, stop) else none
    | (_, none) => none
  else none

/-- An escape of four digits, `pos` being that of the first. Two halves of a pair, one after the
other, are one character; a half on its own is none. -/
def unitForm (text : Array Char) (pos : Nat) : Escape :=
  match exactHex text 4 pos 0 with
  | (stop, none) => ⟨stop, none, false, [⟨.hexDigitExpected, stop, 0⟩]⟩
  | (stop, some n) =>
    let pair := if 0xD800 ≤ n && n < 0xDC00 then lowHalf? text stop else none
    match pair with
    | some (low, stop') =>
      ⟨stop', charOfCodePoint? (0x10000 + (n - 0xD800) * 0x400 + (low - 0xDC00)), false, []⟩
    | none => ⟨stop, some ((charOfCodePoint? n).getD replacement), false, []⟩

/-- An escape with braces, `pos` being just after the opening one. -/
def bracedForm (text : Array Char) (pos : Nat) : Escape :=
  let stop := scanWhile isHexDigit text pos
  let n := (hexNumber? (text.extract pos stop).toList).getD 0
  let digitErrors : List ScanError :=
    if stop == pos then [⟨.hexDigitExpected, stop, 0⟩]
    else if 0x10FFFF < n then [⟨.codePointOutOfRange, pos, stop - pos⟩]
    else []
  if hasCharAt text stop '}' then
    ⟨stop + 1,
      if digitErrors.isEmpty then some ((charOfCodePoint? n).getD replacement) else none,
      true, digitErrors⟩
  else ⟨stop, none, true, digitErrors ++ [⟨.unterminatedUnicodeEscape, stop, 0⟩]⟩

/-- The escape whose backslash is at `pos`. -/
def read (text : Array Char) (pos : Nat) : Escape :=
  let next := pos + 2
  match text[pos + 1]? with
  | none => ⟨pos + 1, none, false, [⟨.unexpectedEndOfText, pos + 1, 0⟩]⟩
  | some '0' =>
    if text[next]?.any isDigit then ⟨next, some '0', false, []⟩ else ⟨next, some '\x00', false, []⟩
  | some 'b' => ⟨next, some '\x08', false, []⟩
  | some 't' => ⟨next, some '\t', false, []⟩
  | some 'n' => ⟨next, some '\n', false, []⟩
  | some 'v' => ⟨next, some '\x0b', false, []⟩
  | some 'f' => ⟨next, some '\x0c', false, []⟩
  | some 'r' => ⟨next, some '\r', false, []⟩
  | some 'x' => byteForm text next
  | some 'u' => if hasCharAt text next '{' then bracedForm text (next + 1) else unitForm text next
  | some '\r' => ⟨if hasCharAt text next '\n' then next + 1 else next, none, false, []⟩
  | some c => ⟨next, if isLineBreak c then none else some c, false, []⟩

/-! ## 3. An escape takes room -/

theorem le_stop_byteForm (text : Array Char) (pos : Nat) : pos ≤ (byteForm text pos).stop := by
  have h := le_exactHex text 2 pos 0
  unfold byteForm
  split <;> rename_i heq <;> simpa [heq] using h

theorem le_of_lowHalf? {text : Array Char} {pos low stop : Nat}
    (h : lowHalf? text pos = some (low, stop)) : pos ≤ stop := by
  have hle := le_exactHex text 4 (pos + 2) 0
  unfold lowHalf? at h
  split at h
  · split at h
    · rename_i heq
      split at h
      · cases h
        simp only [heq] at hle
        omega
      · cases h
    · cases h
  · cases h

theorem le_stop_unitForm (text : Array Char) (pos : Nat) : pos ≤ (unitForm text pos).stop := by
  have h := le_exactHex text 4 pos 0
  unfold unitForm
  split
  · rename_i heq
    simpa [heq] using h
  · rename_i stop n heq
    simp only [heq] at h
    dsimp only
    split
    · rename_i low stop' hp
      split at hp
      · exact Nat.le_trans h (le_of_lowHalf? hp)
      · cases hp
    · exact h

theorem le_stop_bracedForm (text : Array Char) (pos : Nat) : pos ≤ (bracedForm text pos).stop := by
  have h := le_scanWhile isHexDigit text pos
  unfold bracedForm
  dsimp only
  split
  · exact Nat.le_succ_of_le h
  · exact h

/-- After its backslash an escape is of one of the forms with digits, or it takes one character, or
a carriage return and a line feed. -/
theorem read_cases {text : Array Char} {pos : Nat} {c : Char} (h : text[pos + 1]? = some c) :
    read text pos = byteForm text (pos + 2)
      ∨ read text pos = unitForm text (pos + 2)
      ∨ (hasCharAt text (pos + 2) '{' = true ∧ read text pos = bracedForm text (pos + 3))
      ∨ ((read text pos).errors = [] ∧ ((read text pos).stop = pos + 2
        ∨ (hasCharAt text (pos + 2) '\n' = true ∧ (read text pos).stop = pos + 3))) := by
  unfold read
  rw [h]
  dsimp only
  split
  case h_1 hnone => cases hnone
  case h_2 => split <;> exact .inr (.inr (.inr ⟨rfl, .inl rfl⟩))
  case h_9 => exact .inl rfl
  case h_10 =>
    split
    case isTrue hbrace => exact .inr (.inr (.inl ⟨hbrace, rfl⟩))
    case isFalse => exact .inr (.inl rfl)
  case h_11 =>
    split
    case isTrue hfeed => exact .inr (.inr (.inr ⟨rfl, .inr ⟨hfeed, rfl⟩⟩))
    case isFalse => exact .inr (.inr (.inr ⟨rfl, .inl rfl⟩))
  -- the others are a letter or any other character by itself
  all_goals exact .inr (.inr (.inr ⟨rfl, .inl rfl⟩))

/-- An escape takes at least its backslash. -/
theorem lt_stop_read (text : Array Char) (pos : Nat) : pos < (read text pos).stop := by
  cases hnext : text[pos + 1]? with
  | none =>
    unfold read
    rw [hnext]
    exact Nat.lt_succ_self pos
  | some c =>
    obtain heq | heq | ⟨-, heq⟩ | ⟨-, heq | ⟨-, heq⟩⟩ := read_cases hnext
    · have hb := le_stop_byteForm text (pos + 2)
      rw [heq]
      omega
    · have hu := le_stop_unitForm text (pos + 2)
      rw [heq]
      omega
    · have hx := le_stop_bracedForm text (pos + 3)
      rw [heq]
      omega
    · omega
    · omega

/-! ## 4. Escapes in identifiers -/

/-- The character that a Unicode escape at `pos` names, and where the escape ends; nothing unless
the escape is complete and names a character. -/
def inIdentifier? (text : Array Char) (pos : Nat) : Option (Char × Nat) :=
  if hasCharAt text pos '\\' && hasCharAt text (pos + 1) 'u' then
    if hasCharAt text (pos + 2) '{' then
      let first := pos + 3
      let close := scanWhile (fun c => c != '}') text first
      if close == first || !hasCharAt text close '}' then none
      else
        match hexNumber? (text.extract first close).toList with
        | some n => (charOfCodePoint? n).map fun c => (c, close + 1)
        | none => none
    else
      match exactHex text 4 (pos + 2) 0 with
      | (stop, some n) => (charOfCodePoint? n).map fun c => (c, stop)
      | (_, none) => none
  else none

theorem lt_of_inIdentifier? {text : Array Char} {pos stop : Nat} {c : Char}
    (h : inIdentifier? text pos = some (c, stop)) : pos < stop := by
  have hc := le_scanWhile (fun c => c != '}') text (pos + 3)
  have hx := le_exactHex text 4 (pos + 2) 0
  unfold inIdentifier? at h
  split at h
  · split at h
    · dsimp only at h
      split at h
      · cases h
      · split at h
        · obtain ⟨d, _, hd⟩ := Option.map_eq_some_iff.mp h
          cases hd
          omega
        · cases h
    · split at h
      · rename_i heq
        simp only [heq] at hx
        obtain ⟨d, _, hd⟩ := Option.map_eq_some_iff.mp h
        cases hd
        omega
      · cases h
  · cases h

end Escape

end ScriptSyntax
