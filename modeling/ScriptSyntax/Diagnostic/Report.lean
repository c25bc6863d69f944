/-
  ScriptSyntax/Diagnostic/Report.lean
  ===================================
  Diagnostics as a printer of source excerpts wants them: places in bytes
  rather than in characters.
-/
import ScriptSyntax.Diagnostic.Basic
import ScriptSyntax.Text.Source

namespace ScriptSyntax

/-- How loudly a report is shown. -/
inductive Severity where
  | error | warning | advice
  deriving DecidableEq, Repr

def Severity.name : Severity → String
  | .error => "Error"
  | .warning => "Warning"
  | .advice => "Advice"

/-- The severity of a category: all that is neither error nor warning is advice. -/
def Category.severity : Category → Severity
  | .error => .error
  | .warning => .warning
  | .suggestion | .message => .advice

/-- A note with its place in bytes. -/
structure NoteReport where
  text : String
  code : Nat
  category : Category
  label : Option Span
  deriving DecidableEq, Repr

namespace NoteReport

def codeText (r : NoteReport) : String := "TS" ++ toString r.code

/-- How loudly the report is shown. -/
def severity (r : NoteReport) : Severity := r.category.severity

end NoteReport

/-- The bytes that the characters of a span take in a text. -/
def SourceText.byteSpan (t : SourceText) (s : Span) : Span :=
  Span.ofBounds (t.byteOffset s.start) (t.byteOffset s.stop)

/-- The report of a note against the text it is about. -/
def Note.report (n : Note) (t : SourceText) : NoteReport :=
  ⟨n.text, n.code, n.category, n.span.map t.byteSpan⟩

/-- A note with the notes that explain it, each of which may be explained by further ones. -/
structure NoteTree extends Note where
  related : List NoteTree
  deriving Repr

/-- A diagnostic is explained by notes that no further ones explain. -/
def Diagnostic.noteTree (d : Diagnostic) : NoteTree := ⟨d.toNote, d.related.map fun n => ⟨n, []⟩⟩

/-- A note and the notes that explain it, with all their places in bytes. -/
structure Report extends NoteReport where
  related : List Report
  deriving Repr

/-- The report of a note and of all that explains it, against the text they are about. -/
def NoteTree.report (t : SourceText) : NoteTree → Report
  | ⟨n, related⟩ => ⟨n.report t, related.map (NoteTree.report t)⟩

/-- The report of a diagnostic against the text it is about. -/
def Diagnostic.report (d : Diagnostic) (t : SourceText) : Report := d.noteTree.report t

end ScriptSyntax
