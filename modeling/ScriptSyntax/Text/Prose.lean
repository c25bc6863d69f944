/-
  ScriptSyntax/Text/Prose.lean
  ============================
  Prose, as it stands in comments: lines, and blanks around words.
-/
import ScriptSyntax.Text.CharClass

namespace ScriptSyntax

def dropBlanks (cs : List Char) : List Char := cs.dropWhile isBlank

def dropFinalBlanks (cs : List Char) : List Char := (cs.reverse.dropWhile isBlank).reverse

/-- Drops the blanks at both ends. -/
def trimBlanks (cs : List Char) : List Char := dropFinalBlanks (dropBlanks cs)

def dropOne (c : Char) : List Char → List Char
  | [] => []
  | d :: cs => if d == c then cs else d :: cs

/-- What follows `word` at the start of a text, if that is there. -/
def afterText? (word : String) (cs : List Char) : Option (List Char) :=
  word.toList.isPrefixOf? cs

/-- The lines of a text. A line feed ends a line, as does a carriage return with a line feed; no
line starts at the very end of the text. -/
def splitLines : List Char → List (List Char)
  | [] => []
  | '\n' :: cs => [] :: splitLines cs
  | '\r' :: '\n' :: cs => [] :: splitLines cs
  | c :: cs =>
    match splitLines cs with
    | [] => [[c]]
    | line :: lines => (c :: line) :: lines

def someText (cs : List Char) : Option String := if cs.isEmpty then none else some (String.ofList cs)

end ScriptSyntax
