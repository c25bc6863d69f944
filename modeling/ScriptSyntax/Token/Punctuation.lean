/-
  ScriptSyntax/Token/Punctuation.lean
  ===================================
  Punctuation, read by longest match.

  Three rules depart from it.  A `>` is always read alone, since several may
  close several lists; `</` is read as two marks outside of JSX; and the mark of
  optional access does not stand before a digit, where a fraction follows a
  question mark.
-/
import ScriptSyntax.Kind.Spelling
import ScriptSyntax.Text.CharClass
import ScriptSyntax.Token.Basic

namespace ScriptSyntax

/-- The punctuator that starts with `c` when `c₁` and `c₂` are the characters after it. -/
def punctuatorOf? (c : Char) (c₁ c₂ : Option Char) : Option Punctuator :=
  match c with
  | '(' => some .openParen
  | ')' => some .closeParen
  | '{' => some .openBrace
  | '}' => some .closeBrace
  | '[' => some .openBracket
  | ']' => some .closeBracket
  | ';' => some .semicolon
  | ',' => some .comma
  | '~' => some .tilde
  | '@' => some .atSign
  | ':' => some .colon
  | '>' => some .greaterThan
  | '.' => some (if c₁ == some '.' && c₂ == some '.' then .dotDotDot else .dot)
  | '?' =>
    if c₁ == some '?' then some (if c₂ == some '=' then .questionQuestionEquals else .questionQuestion)
    else if c₁ == some '.' && !c₂.any isDigit then some .questionDot
    else some .question
  | '<' =>
    if c₁ == some '<' then some (if c₂ == some '=' then .lessThanLessThanEquals else .lessThanLessThan)
    else if c₁ == some '=' then some .lessThanEquals
    else some .lessThan
  | '=' =>
    if c₁ == some '=' then some (if c₂ == some '=' then .equalsEqualsEquals else .equalsEquals)
    else if c₁ == some '>' then some .equalsGreaterThan
    else some .equals
  | '!' =>
    if c₁ == some '=' then
      some (if c₂ == some '=' then .exclamationEqualsEquals else .exclamationEquals)
    else some .exclamation
  | '+' =>
    if c₁ == some '+' then some .plusPlus
    else if c₁ == some '=' then some .plusEquals
    else some .plus
  | '-' =>
    if c₁ == some '-' then some .minusMinus
    else if c₁ == some '=' then some .minusEquals
    else some .minus
  | '*' =>
    if c₁ == some '*' then
      some (if c₂ == some '=' then .asteriskAsteriskEquals else .asteriskAsterisk)
    else if c₁ == some '=' then some .asteriskEquals
    else some .asterisk
  | '/' => some (if c₁ == some '=' then .slashEquals else .slash)
  | '%' => some (if c₁ == some '=' then .percentEquals else .percent)
  | '&' =>
    if c₁ == some '&' then
      some (if c₂ == some '=' then .ampersandAmpersandEquals else .ampersandAmpersand)
    else if c₁ == some '=' then some .ampersandEquals
    else some .ampersand
  | '|' =>
    if c₁ == some '|' then some (if c₂ == some '=' then .barBarEquals else .barBar)
    else if c₁ == some '=' then some .barEquals
    else some .bar
  | '^' => some (if c₁ == some '=' then .caretEquals else .caret)
  | _ => none

def punctuatorAt? (text : Array Char) (pos : Nat) : Option Punctuator :=
  text[pos]?.bind fun c => punctuatorOf? c text[pos + 1]? text[pos + 2]?

/-- The punctuator that a `>` opens when `c`, `c₁` and `c₂` are the characters after it. -/
def greaterThanOf (c c₁ c₂ : Option Char) : Punctuator :=
  if c == some '>' then
    if c₁ == some '>' then
      if c₂ == some '=' then .greaterThanGreaterThanGreaterThanEquals
      else .greaterThanGreaterThanGreaterThan
    else if c₁ == some '=' then .greaterThanGreaterThanEquals
    else .greaterThanGreaterThan
  else if c == some '=' then .greaterThanEquals
  else .greaterThan

def Punctuator.lexeme (p : Punctuator) (pos : Nat) : Lexeme :=
  { stop := pos + p.text.length, kind := .punct p }

end ScriptSyntax
