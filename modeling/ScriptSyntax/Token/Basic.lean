/-
  ScriptSyntax/Token/Basic.lean
  =============================
  Tokens, and the errors met while scanning them.
-/
import ScriptSyntax.Diagnostic.Message
import ScriptSyntax.Flags
import ScriptSyntax.Kind.Class
import ScriptSyntax.Text.Walk

namespace ScriptSyntax

/-! ## 1. Tokens -/

/-- A token: where it stands, what it is, and what it means.

`fullStart` is the end of the token before, `start` the first character after the trivia between
the two. `value` is what the token stands for once escapes are resolved: the name of an identifier,
the contents of a string, the digits of a number; it is empty for punctuation. -/
structure Token where
  fullStart : Nat
  start : Nat
  stop : Nat
  kind : Kind
  value : String
  flags : TokenFlags
  deriving DecidableEq, Repr

namespace Token

/-- The token before the first one at `pos`: nothing has been scanned yet. -/
def before (pos : Nat) : Token := ⟨pos, pos, pos, .unknown, "", {}⟩

instance : Inhabited Token := ⟨before 0⟩

def source (t : Token) (text : Array Char) : String := sliceOf text t.start t.stop

/-- May the token be used as an identifier, where no context forbids it? -/
def isIdentifier (t : Token) : Bool :=
  match t.kind with
  | .identifier => true
  | .keyword k => !k.isReserved
  | _ => false

end Token

/-! ## 2. Errors -/

/-- An error met while scanning, and where. -/
structure ScanError where
  message : Message
  start : Nat
  length : Nat
  deriving DecidableEq, Repr

/-- A token, and the errors met while scanning it, in the order in which they were met. -/
abbrev Scanned := Token × List ScanError

/-! ## 3. Lexemes -/

/-- What is read at the start of a token: everything about the token but its start. -/
structure Lexeme where
  stop : Nat
  kind : Kind
  value : String := ""
  flags : TokenFlags := {}
  errors : List ScanError := []
  deriving DecidableEq, Repr

end ScriptSyntax
