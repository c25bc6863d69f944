/-
  ScriptSyntax/Trivia/Comment.lean
  ================================
  The comments around a token.

  Trailing comments follow a token on its own line; leading comments stand
  before the next token, on the lines after that.  At the start of a file there
  is no token before, so every comment there is a leading one.
-/
import ScriptSyntax.Kind.Basic
import ScriptSyntax.Trivia.Extent

namespace ScriptSyntax

/-- A comment, delimiters included. -/
structure Comment where
  kind : TriviaKind
  pos : Nat
  stop : Nat
  /-- Does a line break follow before anything but white space? -/
  endsLine : Bool
  deriving DecidableEq, Repr

namespace Comment

def source (c : Comment) (text : Array Char) : String := sliceOf text c.pos c.stop

/-- Notes a line break after the comment found last. -/
def markLineBreak : List Comment → List Comment
  | [] => []
  | c :: cs => { c with endsLine := true } :: cs

/-- Walks over white space and comments from `pos` on. Comments are kept, the last one first,
while `collecting`; a line break ends the walk for trailing comments and starts the collecting of
leading ones. -/
def walk (text : Array Char) (trailing collecting : Bool) (found : List Comment) (pos : Nat) :
    List Comment :=
  if h : pos < text.size then
    let c := text[pos]
    if isLineBreak c then
      if trailing then found
      else walk text trailing true (markLineBreak found) (lineBreakEnd text pos)
    else if c == '/' && hasCharAt text (pos + 1) '/' then
      let stop := lineEnd text (pos + 2)
      let comment := ⟨.singleLineComment, pos, stop, stop < text.size⟩
      walk text trailing collecting (if collecting then comment :: found else found) stop
    else if c == '/' && hasCharAt text (pos + 1) '*' then
      let stop := blockCommentEnd text (pos + 2)
      let comment := ⟨.multiLineComment, pos, stop, false⟩
      walk text trailing collecting (if collecting then comment :: found else found) stop
    else if isSingleLineSpace c then walk text trailing collecting found (pos + 1)
    else found
  else found
termination_by text.size - pos
decreasing_by
  · have := lt_lineBreakEnd text pos; omega
  · have := le_lineEnd text (pos + 2); omega
  · have := le_blockCommentEnd text (pos + 2); omega
  · omega

/-- The comments met by a walk from `pos`, an interpreter line at the start skipped. -/
def ranges (text : Array Char) (trailing : Bool) (pos : Nat) : List Comment :=
  let start := if isShebang text pos then shebangEnd text pos else pos
  (walk text trailing (trailing || pos == 0) [] start).reverse

/-- The comments before the token after `pos`, across line breaks. -/
def leading (text : Array Char) (pos : Nat) : List Comment := ranges text false pos

/-- The comments after `pos` up to the end of its line. -/
def trailing (text : Array Char) (pos : Nat) : List Comment := ranges text true pos

end Comment

end ScriptSyntax
