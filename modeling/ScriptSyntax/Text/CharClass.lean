/-
  ScriptSyntax/Text/CharClass.lean
  ================================
  Classes of characters: line terminators, white space, digits, and the
  characters of identifiers.

  Three notions of white space are kept apart.  `isLineBreak` and
  `isSingleLineSpace` are the two halves of what the scanner skips
  (`isWhiteSpaceLike`); `isBlank` is the Unicode property White_Space, by which
  prose in comments is trimmed.
-/
import ScriptSyntax.Text.IdentifierRanges

namespace ScriptSyntax

/-! ## 1. Line breaks and white space -/

/-- Line terminators: line feed, carriage return, U+2028 and U+2029. -/
def isLineBreak (c : Char) : Bool :=
  c == '\n' || c == '\r' || c == '\u2028' || c == '\u2029'

/-- White space within a line, the byte order mark included. -/
def isSingleLineSpace (c : Char) : Bool :=
  c == ' ' || c == '\t' || c == '\x0b' || c == '\x0c' || c == '\x85' || c == '\xa0'
    || c == '\u1680' || ('\u2000' ≤ c && c ≤ '\u200b') || c == '\u202f' || c == '\u205f'
    || c == '\u3000' || c == '\ufeff'

/-- White space within a line, or a line terminator. -/
def isWhiteSpaceLike (c : Char) : Bool := isSingleLineSpace c || isLineBreak c

/-- The Unicode property White_Space. -/
def isBlank (c : Char) : Bool :=
  ('\t' ≤ c && c ≤ '\x0d') || c == ' ' || c == '\x85' || c == '\xa0' || c == '\u1680'
    || ('\u2000' ≤ c && c ≤ '\u200a') || c == '\u2028' || c == '\u2029' || c == '\u202f'
    || c == '\u205f' || c == '\u3000'

/-! ## 2. Digits -/

def isDigit (c : Char) : Bool := '0' ≤ c && c ≤ '9'

def isOctalDigit (c : Char) : Bool := '0' ≤ c && c ≤ '7'

def isBinaryDigit (c : Char) : Bool := c == '0' || c == '1'

/-- The value of a hexadecimal digit, in either case. -/
def hexValue? (c : Char) : Option Nat :=
  if '0' ≤ c && c ≤ '9' then some (c.toNat - '0'.toNat)
  else if 'a' ≤ c && c ≤ 'f' then some (c.toNat - 'a'.toNat + 10)
  else if 'A' ≤ c && c ≤ 'F' then some (c.toNat - 'A'.toNat + 10)
  else none

/-- Hexadecimal digits, in either case. -/
def isHexDigit (c : Char) : Bool := (hexValue? c).isSome

/-- The number that a row of hexadecimal digits writes, if all of it is such digits. -/
def hexNumber? (digits : List Char) : Option Nat :=
  digits.foldl (fun acc c => acc.bind fun n => (hexValue? c).map (n * 16 + ·)) (some 0)

/-- The character of a code point: surrogates and numbers beyond the last plane have none. -/
def charOfCodePoint? (n : Nat) : Option Char :=
  if n.isValidChar then some (Char.ofNat n) else none

/-! ## 3. Identifiers -/

def isAsciiLetter (c : Char) : Bool := ('a' ≤ c && c ≤ 'z') || ('A' ≤ c && c ≤ 'Z')

def isIdentifierStart (c : Char) : Bool :=
  c == '_' || c == '$' || isAsciiLetter c || (0x80 ≤ c.toNat && startsIdentifierAt c.toNat)

/-- May `c` stand in an identifier after its first character? -/
def isIdentifierPart (c : Char) : Bool :=
  isIdentifierStart c || isDigit c || (0x80 ≤ c.toNat && onlyContinuesIdentifierAt c.toNat)

/-- Whatever may start an identifier may also continue one. -/
theorem isIdentifierPart_of_isIdentifierStart {c : Char} (h : isIdentifierStart c = true) :
    isIdentifierPart c = true := by
  simp [isIdentifierPart, h]

/-- Is `word` one well-formed identifier? Keywords are. -/
def isIdentifierText (word : String) : Bool :=
  match word.toList with
  | [] => false
  | c :: rest => isIdentifierStart c && rest.all isIdentifierPart

end ScriptSyntax
