/-
  ScriptSyntax/Token/Word.lean
  ============================
  Identifiers and keywords.

  A character of an identifier may be written as a Unicode escape.  Escapes
  change how a word is written and not which word it is, so an escaped keyword
  is a keyword.
-/
import ScriptSyntax.Kind.Spelling
import ScriptSyntax.Token.Escape

namespace ScriptSyntax

def wordKind (word : String) : Kind :=
  match Keyword.ofText? word with
  | some k => .keyword k
  | none => .identifier

def readWordFrom (text : Array Char) (word : String) (escaped : Bool) (pos : Nat) : Lexeme :=
  if h : pos < text.size then
    let c := text[pos]
    if isIdentifierPart c then readWordFrom text (word.push c) escaped (pos + 1)
    else
      match he : Escape.inIdentifier? text pos with
      | some (d, stop) =>
        if isIdentifierPart d then readWordFrom text (word.push d) true stop
        else ⟨pos, wordKind word, word, { unicodeEscape := escaped }, []⟩
      | none => ⟨pos, wordKind word, word, { unicodeEscape := escaped }, []⟩
  else ⟨pos, wordKind word, word, { unicodeEscape := escaped }, []⟩
termination_by text.size - pos
decreasing_by
  · omega
  · have := Escape.lt_of_inIdentifier? he; omega

def readWord (text : Array Char) (pos : Nat) : Lexeme := readWordFrom text "" false pos

end ScriptSyntax
