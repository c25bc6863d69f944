/-
  ScriptSyntax/Diagnostic/Log.lean
  ================================
  The diagnostics of one run, in the order in which they were found.
-/
import ScriptSyntax.Diagnostic.Basic

namespace ScriptSyntax

/-- Diagnostics in the order in which they were found. -/
structure DiagnosticLog where
  entries : Array Diagnostic
  deriving DecidableEq, Repr

namespace DiagnosticLog

def empty : DiagnosticLog := ⟨#[]⟩

instance : Inhabited DiagnosticLog := ⟨empty⟩

def size (l : DiagnosticLog) : Nat := l.entries.size

def isEmpty (l : DiagnosticLog) : Bool := l.entries.isEmpty

def last? (l : DiagnosticLog) : Option Diagnostic := l.entries.back?

def add (l : DiagnosticLog) (d : Diagnostic) : DiagnosticLog := ⟨l.entries.push d⟩

/-- Adds an entry, unless the entry found last starts at the same position. -/
def report (l : DiagnosticLog) (d : Diagnostic) : DiagnosticLog :=
  if l.last?.any fun e => e.start == d.start then l else l.add d

/-- Adds entries in order. -/
def extend (l : DiagnosticLog) (ds : List Diagnostic) : DiagnosticLog := ds.foldl add l

/-- Adds a note to the entry found last; without an entry there is nothing to explain. -/
def relateToLast (l : DiagnosticLog) (n : Note) : DiagnosticLog :=
  match l.entries.back? with
  | none => l
  | some d => ⟨l.entries.pop.push { d with related := d.related ++ [n] }⟩

/-- Keeps the first `count` entries. -/
def truncate (l : DiagnosticLog) (count : Nat) : DiagnosticLog := ⟨l.entries.shrink count⟩

def hasErrors (l : DiagnosticLog) : Bool := l.entries.any fun d => d.isError

def errorCount (l : DiagnosticLog) : Nat := l.entries.countP fun d => d.isError

/-- Does `a` come before `b`, or tie with it? Entries about no file come first, then files in the
order of their names, and within one file the entry that starts earlier. -/
def inOrder (a b : Diagnostic) : Bool :=
  match a.file, b.file with
  | none, some _ => true
  | some _, none => false
  | none, none => a.start ≤ b.start
  | some f, some g => if f = g then a.start ≤ b.start else f < g

/-- Sorts by file and start; entries that tie keep their order. -/
def sort (l : DiagnosticLog) : DiagnosticLog := ⟨(l.entries.toList.mergeSort inOrder).toArray⟩

end DiagnosticLog

end ScriptSyntax
