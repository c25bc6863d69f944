/-
  ScriptSyntax/Token/Number.lean
  ==============================
  Numeric literals: decimal numbers with fraction and exponent, numbers with a
  base, octal numbers by a leading zero, and the suffix of big integers.
-/
import ScriptSyntax.Text.CharClass
import ScriptSyntax.Token.Basic

namespace ScriptSyntax

/-! ## 1. Digits -/

/-- A row of digits: where it ends, whether it holds a digit, whether it holds a separator. -/
structure DigitRun where
  stop : Nat
  hasDigit : Bool
  separated : Bool
  deriving DecidableEq, Repr

/-- Reads digits and the separators between them. A separator stands after a digit and before
another; anything else ends the row. -/
def digitRunFrom (valid : Char → Bool) (text : Array Char) (hasDigit separated : Bool) (pos : Nat) :
    DigitRun :=
  if h : pos < text.size then
    let c := text[pos]
    if c == '_' && hasDigit && text[pos + 1]?.any valid then
      digitRunFrom valid text hasDigit true (pos + 1)
    else if valid c then digitRunFrom valid text true separated (pos + 1)
    else ⟨pos, hasDigit, separated⟩
  else ⟨pos, hasDigit, separated⟩
termination_by text.size - pos

def digitRun (valid : Char → Bool) (text : Array Char) (pos : Nat) : DigitRun :=
  digitRunFrom valid text false false pos

/-- An error if a row of digits holds none. -/
def DigitRun.missing (r : DigitRun) (m : Message) : List ScanError :=
  if r.hasDigit then [] else [⟨m, r.stop, 0⟩]

/-! ## 2. Ends of numbers -/

/-- An identifier may not follow a number directly. -/
def identifierAfterNumber (text : Array Char) (pos : Nat) : List ScanError :=
  if text[pos]?.any isIdentifierStart then
    [⟨.identifierAfterNumber, pos, scanWhile isIdentifierPart text pos - pos⟩]
  else []

/-- The lexeme of a number whose digits end at `stop`. An integer may carry the suffix of big
integers; the value is the source without separators. -/
def finishNumber (text : Array Char) (start stop : Nat) (integer : Bool) (flags : TokenFlags)
    (errors : List ScanError) : Lexeme :=
  let big := integer && hasCharAt text stop 'n'
  let last := if big then stop + 1 else stop
  { stop := last
    kind := if big then .literal .bigInt else .literal .numeric
    value := String.ofList ((text.extract start last).toList.filter fun c => c != '_')
    flags := flags
    errors := errors ++ identifierAfterNumber text last }

/-! ## 3. Forms of numbers -/

/-- A base that a letter after a leading zero announces. -/
inductive Radix where
  | hex | binary | octal
  deriving DecidableEq, Repr

namespace Radix

def ofLetter? (c : Char) : Option Radix :=
  if c == 'x' || c == 'X' then some .hex
  else if c == 'b' || c == 'B' then some .binary
  else if c == 'o' || c == 'O' then some .octal
  else none

def isDigit : Radix → Char → Bool
  | .hex => isHexDigit
  | .binary => isBinaryDigit
  | .octal => isOctalDigit

/-- The flag of a number in the base. -/
def flags : Radix → TokenFlags
  | .hex => { hexSpecifier := true }
  | .binary => { binarySpecifier := true }
  | .octal => { octalSpecifier := true }

/-- What is missing where no digit follows the letter. -/
def digitMissing : Radix → Message
  | .hex => .hexDigitExpected
  | .binary => .binaryDigitExpected
  | .octal => .octalDigitExpected

end Radix

/-- A number in the base `r`: digits follow the two characters that announce it. -/
def readRadixNumber (text : Array Char) (r : Radix) (start : Nat) : Lexeme :=
  let digits := digitRun r.isDigit text (start + 2)
  finishNumber text start digits.stop true
    { r.flags with containsSeparator := digits.separated } (digits.missing r.digitMissing)

/-- Is the number at `pos` a zero and then octal digits alone? -/
def isLegacyOctal (text : Array Char) (pos : Nat) : Bool :=
  let stop := scanWhile isDigit text (pos + 1)
  pos + 1 < stop && (text.extract (pos + 1) stop).toList.all isOctalDigit

/-- A number that is octal by its leading zero. -/
def readLegacyOctal (text : Array Char) (start : Nat) : Lexeme :=
  let digits := digitRun isOctalDigit text (start + 1)
  finishNumber text start digits.stop false
    { legacyOctal := true, containsSeparator := digits.separated } []

def exponentRun? (text : Array Char) (pos : Nat) : Option DigitRun :=
  if hasCharAt text pos 'e' || hasCharAt text pos 'E' then
    let signed := hasCharAt text (pos + 1) '+' || hasCharAt text (pos + 1) '-'
    some (digitRun isDigit text (if signed then pos + 2 else pos + 1))
  else none

/-- A decimal number: digits, then perhaps a point and more digits, then perhaps an exponent. -/
def readDecimal (text : Array Char) (start : Nat) : Lexeme :=
  let whole : DigitRun :=
    if hasCharAt text start '.' then ⟨start, false, false⟩ else digitRun isDigit text start
  let pointed := hasCharAt text whole.stop '.'
  let fraction : DigitRun :=
    if pointed then digitRun isDigit text (whole.stop + 1) else ⟨whole.stop, false, false⟩
  match exponentRun? text fraction.stop with
  | none =>
    finishNumber text start fraction.stop (!pointed)
      { containsSeparator := whole.separated || fraction.separated } []
  | some exponent =>
    finishNumber text start exponent.stop false
      { scientific := true
        containsSeparator := whole.separated || fraction.separated || exponent.separated }
      (exponent.missing .digitExpected)

/-- The number that starts at `pos` with a digit, or with a point before one. -/
def readNumber (text : Array Char) (pos : Nat) : Lexeme :=
  if hasCharAt text pos '0' then
    match text[pos + 1]?.bind Radix.ofLetter? with
    | some r => readRadixNumber text r pos
    | none => if isLegacyOctal text pos then readLegacyOctal text pos else readDecimal text pos
  else readDecimal text pos

end ScriptSyntax
