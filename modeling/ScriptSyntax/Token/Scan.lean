/-
  ScriptSyntax/Token/Scan.lean
  ============================
  Scanning: the token after a position, with the trivia before it.

  The scan depends on nothing but the text and the position.  Characters that
  mean different things in different places are read in their plainest way here
  and read again where the grammar asks for it (see `Token.Rescan`).
-/
import ScriptSyntax.Token.Number
import ScriptSyntax.Token.Punctuation
import ScriptSyntax.Token.Quoted
import ScriptSyntax.Token.Word
import ScriptSyntax.Trivia.Extent

namespace ScriptSyntax

/-! ## 1. Trivia before a token -/

/-- The trivia before a token: where it ends, and what was noted on the way. -/
structure TriviaRun where
  stop : Nat
  flags : TokenFlags := {}
  errors : List ScanError := []
  deriving DecidableEq, Repr

/-- What a block comment whose text reaches from `pos` to `stop` says about the token after it. -/
def blockCommentFlags (text : Array Char) (pos stop : Nat) (flags : TokenFlags) : TokenFlags :=
  { flags with
    precedingDocComment :=
      flags.precedingDocComment
        || (hasCharAt text (pos + 2) '*' && !hasCharAt text (pos + 3) '/')
    precedingLineBreak :=
      flags.precedingLineBreak || (text.extract (pos + 2) stop).any isLineBreak }

/-- An error if the block comment whose inside starts at `pos` has no end. -/
def blockCommentErrors (text : Array Char) (pos : Nat) : List ScanError :=
  match blockCommentEnd? text pos with
  | some _ => []
  | none => [⟨.commentEndExpected, blockCommentEnd text pos, 0⟩]

def triviaRunFrom (text : Array Char) (flags : TokenFlags) (errors : List ScanError) (pos : Nat) :
    TriviaRun :=
  if h : pos < text.size then
    let c := text[pos]
    if isShebang text pos then triviaRunFrom text flags errors (shebangEnd text pos)
    else if isLineBreak c then
      triviaRunFrom text { flags with precedingLineBreak := true } errors (lineBreakEnd text pos)
    else if isSingleLineSpace c then triviaRunFrom text flags errors (pos + 1)
    else if c == '/' && hasCharAt text (pos + 1) '/' then
      triviaRunFrom text flags errors (lineEnd text (pos + 2))
    else if c == '/' && hasCharAt text (pos + 1) '*' then
      let stop := blockCommentEnd text (pos + 2)
      triviaRunFrom text (blockCommentFlags text pos stop flags)
        (errors ++ blockCommentErrors text (pos + 2)) stop
    else if isConflictMarker text pos then
      triviaRunFrom text flags (errors ++ [⟨.mergeConflictMarker, pos, conflictMarkerLength⟩])
        (conflictMarkerEnd text pos)
    else ⟨pos, flags, errors⟩
  else ⟨pos, flags, errors⟩
termination_by text.size - pos
decreasing_by
  · have : pos + 2 ≤ shebangEnd text pos := le_lineEnd text (pos + 2)
    omega
  · have := lt_lineBreakEnd text pos; omega
  · omega
  · have := le_lineEnd text (pos + 2); omega
  · have := le_blockCommentEnd text (pos + 2); omega
  · have := lt_conflictMarkerEnd text pos; omega

/-- The trivia at `pos`. -/
def triviaRun (text : Array Char) (pos : Nat) : TriviaRun := triviaRunFrom text {} [] pos

/-! ## 2. Lexemes -/

/-- The lexeme of a character that starts no token. -/
def invalidCharacter (pos : Nat) : Lexeme :=
  { stop := pos + 1, kind := .unknown, errors := [⟨.invalidCharacter, pos, 1⟩] }

/-- The lexeme that starts with the character `c` at `pos`. -/
def lexemeAt (text : Array Char) (pos : Nat) (c : Char) : Lexeme :=
  if c == '\'' || c == '"' then readString text c {} (pos + 1)
  else if c == '\x60' then readTemplatePiece text pos
  else if isDigit c || (c == '.' && text[pos + 1]?.any isDigit) then readNumber text pos
  else
    match punctuatorAt? text pos with
    | some p => p.lexeme pos
    | none =>
      if isIdentifierStart c then readWord text pos
      else
        match Escape.inIdentifier? text pos with
        | some (d, _) => if isIdentifierStart d then readWord text pos else invalidCharacter pos
        | none => invalidCharacter pos

/-! ## 3. Tokens -/

/-- The token that a lexeme makes after the given trivia. -/
def Lexeme.toToken (l : Lexeme) (fullStart : Nat) (run : TriviaRun) : Scanned :=
  (⟨fullStart, run.stop, l.stop, l.kind, l.value, run.flags.join l.flags⟩, run.errors ++ l.errors)

def scanAt (text : Array Char) (pos : Nat) : Scanned :=
  let run := triviaRun text pos
  match text[run.stop]? with
  | some c => (lexemeAt text run.stop c).toToken pos run
  | none => (⟨pos, run.stop, run.stop, .endOfFile, "", run.flags⟩, run.errors)

def Token.next (text : Array Char) (t : Token) : Scanned := scanAt text t.stop

end ScriptSyntax
