/-
  ScriptSyntax/Token/Quoted.lean
  ==============================
  String literals and the pieces of template literals.

  Both are read character by character into a cooked value: escapes are
  resolved on the way, and in templates every line end becomes a line feed.
-/
import ScriptSyntax.Token.Escape

namespace ScriptSyntax

/-! ## 1. Cooked values -/

/-- What has been read of a quoted literal: its value so far, and what was noted on the way. -/
structure Cooked where
  value : String := ""
  flags : TokenFlags := {}
  errors : List ScanError := []
  deriving DecidableEq, Repr

namespace Cooked

/-- One more character of the value. -/
def push (k : Cooked) (c : Char) : Cooked := { k with value := k.value.push c }

/-- One more escape: its character, if it has one, and its errors. -/
def pushEscape (k : Cooked) (e : Escape) : Cooked where
  value := match e.char? with
    | some c => k.value.push c
    | none => k.value
  flags := if e.extended then { k.flags with extendedEscape := true } else k.flags
  errors := k.errors ++ e.errors

/-- The lexeme of a literal that ends at `stop`. -/
def finish (k : Cooked) (kind : Kind) (stop : Nat) : Lexeme :=
  ⟨stop, kind, k.value, k.flags, k.errors⟩

/-- The lexeme of a literal whose end is missing at `stop`. -/
def unterminated (k : Cooked) (kind : Kind) (m : Message) (stop : Nat) : Lexeme :=
  ⟨stop, kind, k.value, { k.flags with unterminated := true }, k.errors ++ [⟨m, stop, 0⟩]⟩

end Cooked

/-! ## 2. Strings -/

/-- Reads a string from `pos` on, up to its closing quote; a line end or the end of the text ends
it too early. -/
def readString (text : Array Char) (quote : Char) (k : Cooked) (pos : Nat) : Lexeme :=
  if h : pos < text.size then
    let c := text[pos]
    if c == quote then k.finish (.literal .string) (pos + 1)
    else if c == '\\' then
      let e := Escape.read text pos
      readString text quote (k.pushEscape e) e.stop
    else if isLineBreak c then k.unterminated (.literal .string) .unterminatedString pos
    else readString text quote (k.push c) (pos + 1)
  else k.unterminated (.literal .string) .unterminatedString pos
termination_by text.size - pos
decreasing_by
  · have := Escape.lt_stop_read text pos; omega
  · omega

/-! ## 3. Templates -/

/-- The kind of a piece that reaches to the end of its template. -/
def lastPieceKind (first : Bool) : Kind :=
  if first then .literal .noSubstitutionTemplate else .template .tail

/-- The kind of a piece that reaches to a substitution. -/
def openPieceKind (first : Bool) : Kind := if first then .template .head else .template .middle

/-- Reads a piece of a template from `pos` on, up to the closing quote or the next substitution.
`first` says that the piece is the one that opens the template. -/
def readTemplate (text : Array Char) (first : Bool) (k : Cooked) (pos : Nat) : Lexeme :=
  if h : pos < text.size then
    let c := text[pos]
    if c == '\x60' then k.finish (lastPieceKind first) (pos + 1)
    else if c == '$' && hasCharAt text (pos + 1) '{' then k.finish (openPieceKind first) (pos + 2)
    else if c == '\\' then
      let e := Escape.read text pos
      readTemplate text first (k.pushEscape e) e.stop
    else if c == '\r' then
      if hasCharAt text (pos + 1) '\n' then readTemplate text first (k.push '\n') (pos + 2)
      else readTemplate text first (k.push '\n') (pos + 1)
    else readTemplate text first (k.push c) (pos + 1)
  else k.unterminated (lastPieceKind first) .unterminatedTemplate pos
termination_by text.size - pos
decreasing_by
  · have := Escape.lt_stop_read text pos; omega
  · omega
  · omega
  · omega

/-- Reads the piece of a template that starts at `pos`, with its opening quote or with the brace
that closes a substitution. -/
def readTemplatePiece (text : Array Char) (pos : Nat) : Lexeme :=
  readTemplate text (hasCharAt text pos '\x60') {} (pos + 1)

end ScriptSyntax
