/-
  ScriptSyntax/Diagnostic/Basic.lean
  ==================================
  Diagnostics: a message with its arguments filled in, and where it applies.

  A diagnostic may carry notes about other places that explain it.  A note is
  shaped like a diagnostic and carries no notes of its own.
-/
import ScriptSyntax.Diagnostic.Message
import ScriptSyntax.Text.Span

namespace ScriptSyntax

/-! ## 1. Notes -/

/-- A message about a place: the file and the span are absent where it is about no place. -/
structure Note where
  file : Option String
  span : Option Span
  text : String
  code : Nat
  category : Category
  deriving DecidableEq, Repr

namespace Note

/-- The note of a message about no place. -/
def ofMessage (m : Message) (args : List String) : Note :=
  ⟨none, none, m.text args, m.code, m.category⟩

/-- The note of a message about a place. -/
def ofMessageAt (file : String) (span : Span) (m : Message) (args : List String) : Note :=
  ⟨some file, some span, m.text args, m.code, m.category⟩

/-- Where the note applies, 0 if it is about no place. -/
def start (n : Note) : Nat := (n.span.map Span.start).getD 0

def isError (n : Note) : Bool := n.category == .error

/-- Was the note made of the message `m`? -/
def isOf (n : Note) (m : Message) : Bool := n.code == m.code

/-- The note on one line: the place, if any, the category, the code and the text. -/
def describe (n : Note) : String :=
  let place := match n.file with
    | none => ""
    | some file => file ++ ((n.span.map fun s => "(" ++ toString s.start ++ ")").getD "") ++ ": "
  place ++ n.category.name ++ " TS" ++ toString n.code ++ ": " ++ n.text

end Note

/-! ## 2. Diagnostics -/

/-- A note together with the notes that explain it. -/
structure Diagnostic extends Note where
  related : List Note := []
  deriving DecidableEq, Repr

namespace Diagnostic

/-- The diagnostic of a message about a place, not yet explained. -/
def ofMessageAt (file : String) (span : Span) (m : Message) (args : List String) : Diagnostic :=
  ⟨Note.ofMessageAt file span m args, []⟩

end Diagnostic

end ScriptSyntax
