/-
  ScriptSyntax/Proofs/Token/EscapeForms.lean
  ==========================================
  Characters that are written by their numbers.

  An escape has the number of its character in hexadecimal digits: four of them,
  or any number of them between braces, with zeros in front and with letters of
  either case.  Strings and words decode such an escape each in a way of their own,
  and both find the character.
-/
import ScriptSyntax.Proofs.Token.Spelling

namespace ScriptSyntax

variable {text : Array Char} {pos n : Nat} {c : Char} {rest : List Char}

/-! ## 1. Hexadecimal digits -/

/-- A hexadecimal digit, and whether it is written as a capital if it is a letter. -/
structure HexDigit where
  value : Fin 16
  capital : Bool := false

namespace HexDigit

def char (d : HexDigit) : Char :=
  let c := Nat.digitChar d.value
  if d.capital then c.toUpper else c

/-- The number that digits write after those of the number `n`. -/
def numberFrom (n : Nat) (ds : List HexDigit) : Nat := ds.foldl (fun n d => n * 16 + d.value) n

/-- The number that a row of digits writes. -/
def number (ds : List HexDigit) : Nat := numberFrom 0 ds

theorem hexValue?_char (d : HexDigit) : hexValue? d.char = some d.value.val := by
  obtain ⟨value, capital⟩ := d
  revert value capital
  decide

theorem isHexDigit_char (d : HexDigit) : isHexDigit d.char = true := by
  simp [isHexDigit, hexValue?_char]

theorem char_ne (d : HexDigit) (hc : isHexDigit c = false) : d.char ≠ c := by
  rintro rfl
  exact Bool.false_ne_true (hc.symm.trans d.isHexDigit_char)

theorem isHexDigit_of_mem {ds : List HexDigit} : ∀ c ∈ ds.map char, isHexDigit c = true := by
  intro c hc
  obtain ⟨d, -, rfl⟩ := List.mem_map.mp hc
  exact d.isHexDigit_char

theorem hexNumber?_map_char (ds : List HexDigit) : hexNumber? (ds.map char) = some (number ds) := by
  have hfrom (n : Nat) : (ds.map char).foldl
      (fun acc c => acc.bind fun n => (hexValue? c).map (n * 16 + ·)) (some n) = some (numberFrom n ds) := by
    induction ds generalizing n with
    | nil => rfl
    | cons d ds ih =>
      simp only [List.map_cons, List.foldl_cons, Option.bind_some, hexValue?_char, Option.map_some]
      exact ih _
  exact hfrom 0

/-- As many digits as are asked for are read. -/
theorem exactHex_map_char {ds : List HexDigit} (h : TextAt text pos (ds.map char ++ rest)) :
    Escape.exactHex text ds.length pos n = (pos + ds.length, some (numberFrom n ds)) := by
  induction ds generalizing pos n with
  | nil => rfl
  | cons d ds ih =>
    have hd : text[pos]?.bind hexValue? = some d.value.val := by
      rw [TextAt.head h]
      exact d.hexValue?_char
    rw [List.length_cons, Escape.exactHex]
    simp only [hd]
    rw [ih (TextAt.tail h), Nat.add_assoc, Nat.add_comm 1]
    rfl

/-- Digits before a character that is none are read to the last one, and so is their number. -/
theorem scanWhile_map_char {ds : List HexDigit} (h : TextAt text pos (ds.map char ++ rest))
    (hrest : ∀ c ∈ rest.head?, isHexDigit c = false) :
    scanWhile isHexDigit text pos = pos + ds.length
      ∧ hexNumber? (text.extract pos (pos + ds.length)).toList = some (number ds) := by
  have hstop := h.scanWhile_eq isHexDigit_of_mem hrest
  have hextract := h.extract
  rw [List.length_map] at hstop hextract
  exact ⟨hstop, by rw [hextract, hexNumber?_map_char]⟩

end HexDigit

open HexDigit

/-! ## 2. Numbers of characters -/

theorem Char.toNat_bounds (c : Char) : c.toNat < 0xD800 ∨ (0xDFFF < c.toNat ∧ c.toNat < 0x110000) := c.valid

@[simp] theorem charOfCodePoint?_toNat (c : Char) : charOfCodePoint? c.toNat = some c := by
  have hvalid : c.toNat.isValidChar := c.valid
  simp [charOfCodePoint?, hvalid, Char.ofNat_toNat]

/-! ## 3. Escapes -/

/-- A character written as an escape by its number. -/
inductive UnicodeEscape (c : Char) where
  | unit (digits : List HexDigit) (four : digits.length = 4) (written : number digits = c.toNat)
  | braced (digits : List HexDigit) (nonempty : digits ≠ []) (written : number digits = c.toNat)

namespace UnicodeEscape

variable {e : UnicodeEscape c}

def chars : UnicodeEscape c → List Char
  | unit digits .. => '\\' :: 'u' :: digits.map char
  | braced digits .. => '\\' :: 'u' :: '{' :: (digits.map char ++ ['}'])

def isBraced : UnicodeEscape c → Bool
  | unit .. => false
  | braced .. => true

theorem hasCharAt_close {digits : List HexDigit} (h : TextAt text pos (digits.map char ++ '}' :: rest)) :
    hasCharAt text (pos + digits.length) '}' = true := by
  have hrest := h.skip
  rw [List.length_map] at hrest
  exact hrest.hasCharAt_eq '}'

/-- Four digits start with no brace. -/
theorem hasCharAt_brace {digits : List HexDigit} (h : TextAt text pos (digits.map char ++ rest))
    (hfour : digits.length = 4) : hasCharAt text pos '{' = false := by
  have hne : digits ≠ [] := List.ne_nil_of_length_pos (by omega)
  obtain ⟨d, ds, rfl⟩ := List.exists_cons_of_ne_nil hne
  rw [TextAt.hasCharAt_eq h]
  simpa using d.char_ne (c := '{') (by decide)

theorem bracedForm_eq {digits : List HexDigit} (h : TextAt text pos (digits.map char ++ '}' :: rest))
    (hne : digits ≠ []) (hc : number digits = c.toNat) :
    Escape.bracedForm text pos = ⟨pos + digits.length + 1, some c, true, []⟩ := by
  obtain ⟨hstop, hnumber⟩ := scanWhile_map_char h (by rintro _ ⟨⟩; decide)
  have hclose := hasCharAt_close h
  have hroom := List.length_pos_iff.mpr hne
  have hrange : ¬0x10FFFF < c.toNat := by
    have hbounds := Char.toNat_bounds c
    omega
  unfold Escape.bracedForm
  simp only [hstop, hnumber, hclose, hc, Option.getD_some]
  simp [hrange, hne]

theorem unitForm_eq {digits : List HexDigit} (h : TextAt text pos (digits.map char ++ rest))
    (hfour : digits.length = 4) (hc : number digits = c.toNat) :
    Escape.unitForm text pos = ⟨pos + 4, some c, false, []⟩ := by
  have hread := exactHex_map_char (n := 0) h
  rw [hfour, show numberFrom 0 digits = c.toNat from hc] at hread
  have hhalf : ¬(0xD800 ≤ c.toNat ∧ c.toNat < 0xDC00) := by
    have hbounds := Char.toNat_bounds c
    omega
  unfold Escape.unitForm
  simp [hread, hhalf]

theorem exists_cons (e : UnicodeEscape c) : ∃ cs, e.chars = '\\' :: cs := by
  cases e <;> exact ⟨_, rfl⟩

/-- In a string the escape stands for the character. -/
theorem read_eq (h : TextAt text pos (e.chars ++ rest)) :
    Escape.read text pos = ⟨pos + e.chars.length, some c, e.isBraced, []⟩ := by
  cases e with
  | unit digits four written =>
    have hletter : text[pos + 1]? = some 'u' := TextAt.next h
    have hdigits : TextAt text (pos + 2) (digits.map char ++ rest) := TextAt.tail (TextAt.tail h)
    have hbrace := hasCharAt_brace hdigits four
    unfold Escape.read
    simp [hletter, hbrace, unitForm_eq hdigits four written, chars, four, isBraced]
  | braced digits nonempty written =>
    have hletter : text[pos + 1]? = some 'u' := TextAt.next h
    have hbrace : hasCharAt text (pos + 2) '{' = true := TextAt.hasCharAt_eq (TextAt.tail (TextAt.tail h)) '{'
    have hdigits : TextAt text (pos + 3) (digits.map char ++ '}' :: rest) := by
      simpa [chars] using TextAt.tail (TextAt.tail (TextAt.tail h))
    unfold Escape.read
    simp [hletter, hbrace, bracedForm_eq hdigits nonempty written, chars, isBraced]
    omega

/-- In a word the escape names the character. -/
theorem inIdentifier?_eq (h : TextAt text pos (e.chars ++ rest)) :
    Escape.inIdentifier? text pos = some (c, pos + e.chars.length) := by
  cases e with
  | unit digits four written =>
    have hbackslash : hasCharAt text pos '\\' = true := TextAt.hasCharAt_eq h '\\'
    have hletter : hasCharAt text (pos + 1) 'u' = true := TextAt.hasCharAt_eq (TextAt.tail h) 'u'
    have hdigits : TextAt text (pos + 2) (digits.map char ++ rest) := TextAt.tail (TextAt.tail h)
    have hread := exactHex_map_char (n := 0) hdigits
    rw [four, show numberFrom 0 digits = c.toNat from written] at hread
    unfold Escape.inIdentifier?
    simp [hbackslash, hletter, hasCharAt_brace hdigits four, hread, chars, four]
  | braced digits nonempty written =>
    have hbackslash : hasCharAt text pos '\\' = true := TextAt.hasCharAt_eq h '\\'
    have hletter : hasCharAt text (pos + 1) 'u' = true := TextAt.hasCharAt_eq (TextAt.tail h) 'u'
    have hbrace : hasCharAt text (pos + 2) '{' = true := TextAt.hasCharAt_eq (TextAt.tail (TextAt.tail h)) '{'
    have hdigits : TextAt text (pos + 3) (digits.map char ++ '}' :: rest) := by
      simpa [chars] using TextAt.tail (TextAt.tail (TextAt.tail h))
    -- the search for the closing brace goes over the digits, none of which is one
    have hstop : scanWhile (fun c => c != '}') text (pos + 3) = pos + 3 + digits.length := by
      have hstop := hdigits.scanWhile_eq (p := fun c => c != '}') (fun d hd => ?_) (by rintro _ ⟨⟩; rfl)
      · rwa [List.length_map] at hstop
      · obtain ⟨d, -, rfl⟩ := List.mem_map.mp hd
        simpa using d.char_ne (c := '}') (by decide)
    have hclose := hasCharAt_close hdigits
    have hnumber := (scanWhile_map_char hdigits (by rintro _ ⟨⟩; decide)).2
    unfold Escape.inIdentifier?
    simp only [hbackslash, hletter, hbrace, hstop, hclose, hnumber, written, charOfCodePoint?_toNat]
    simp [chars, nonempty]
    omega

end UnicodeEscape

end ScriptSyntax
