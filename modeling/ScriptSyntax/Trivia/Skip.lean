/-
  ScriptSyntax/Trivia/Skip.lean
  =============================
  Skipping trivia in raw text, without scanning tokens: where the first token
  of a node starts.
-/
import ScriptSyntax.Trivia.Extent

namespace ScriptSyntax

/-- Skips white space, line breaks, comments and conflict markers from `pos` on. With
`stopAfterLineBreak` the walk ends just after the first line feed or carriage return; with
`stopAtComments` it ends where a comment starts. -/
def skipTriviaFrom (text : Array Char) (stopAfterLineBreak stopAtComments : Bool) (pos : Nat) :
    Nat :=
  if h : pos < text.size then
    let c := text[pos]
    if c == '\r' || c == '\n' then
      if stopAfterLineBreak then lineBreakEnd text pos
      else skipTriviaFrom text stopAfterLineBreak stopAtComments (lineBreakEnd text pos)
    else if c == '/' && !stopAtComments && hasCharAt text (pos + 1) '/' then
      skipTriviaFrom text stopAfterLineBreak stopAtComments (lineEnd text (pos + 2))
    else if c == '/' && !stopAtComments && hasCharAt text (pos + 1) '*' then
      skipTriviaFrom text stopAfterLineBreak stopAtComments (blockCommentEnd text (pos + 2))
    else if isConflictMarker text pos then
      skipTriviaFrom text stopAfterLineBreak stopAtComments (conflictMarkerEnd text pos)
    else if isWhiteSpaceLike c then
      skipTriviaFrom text stopAfterLineBreak stopAtComments (pos + 1)
    else pos
  else pos
termination_by text.size - pos
decreasing_by
  · have := lt_lineBreakEnd text pos; omega
  · have := le_lineEnd text (pos + 2); omega
  · have := le_blockCommentEnd text (pos + 2); omega
  · have := lt_conflictMarkerEnd text pos; omega
  · omega

/-- The position of the first character at or after `pos` that is not trivia. An interpreter line
at the start of the text is trivia too. -/
def skipTrivia (text : Array Char) (pos : Nat) (stopAfterLineBreak stopAtComments : Bool) : Nat :=
  skipTriviaFrom text stopAfterLineBreak stopAtComments
    (if isShebang text pos then shebangEnd text pos else pos)

/-- The first token at or after `pos` starts here. -/
def tokenStartAt (text : Array Char) (pos : Nat) : Nat := skipTrivia text pos false false

end ScriptSyntax
