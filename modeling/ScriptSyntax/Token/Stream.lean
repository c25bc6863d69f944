/-
  ScriptSyntax/Token/Stream.lean
  ==============================
  All tokens of a text, from its start to its end.
-/
import ScriptSyntax.Token.Scan

namespace ScriptSyntax

/-- At most `count` tokens after position `pos`, up to and including the one at the end of the
file. -/
def scanTokensFrom (text : Array Char) : Nat → Nat → List Scanned
  | 0, _ => []
  | count + 1, pos =>
    let scanned := scanAt text pos
    if scanned.1.kind == .endOfFile then [scanned]
    else scanned :: scanTokensFrom text count scanned.1.stop

/-- The tokens of a text, the last of them at the end of the file. Every other token takes at
least one character, so there is at most one more of them than there are characters. -/
def scanTokens (text : Array Char) : List Scanned := scanTokensFrom text (text.size + 1) 0

/-- The tokens of a text without the one at the end of the file. -/
def tokenize (text : Array Char) : List Token :=
  (scanTokens text).filterMap fun s => if s.1.kind == .endOfFile then none else some s.1

end ScriptSyntax
