/-
  ScriptSyntax/Text/Span.lean
  ===========================
  Stretches of text, in characters.

  A range gives both ends, which is how nodes are placed; a span gives a start
  and a length, which is how diagnostics are.
-/

namespace ScriptSyntax

/-! ## 1. Spans -/

/-- A stretch of text given by its start and its length. -/
structure Span where
  start : Nat
  length : Nat
  deriving DecidableEq, Repr

namespace Span

/-- The span between two positions; empty when they are the wrong way round. -/
def ofBounds (start stop : Nat) : Span := ⟨start, stop - start⟩

/-- The position just after the span. -/
def stop (s : Span) : Nat := s.start + s.length

def isEmpty (s : Span) : Bool := s.length == 0

/-- Is `pos` the position of a character of the span? -/
def contains (s : Span) (pos : Nat) : Bool := s.start ≤ pos && pos < s.stop

/-- Both ends with two dots between. -/
def describe (s : Span) : String := toString s.start ++ ".." ++ toString s.stop

/-- As a half-open interval. -/
def describeInterval (s : Span) : String :=
  "[" ++ toString s.start ++ ", " ++ toString s.stop ++ ")"

end Span

/-! ## 2. Ranges -/

/-- A stretch of text given by its two ends. -/
structure Range where
  pos : Nat
  stop : Nat
  deriving DecidableEq, Repr

namespace Range

def empty (pos : Nat) : Range := ⟨pos, pos⟩

/-- The number of characters of the range, none when the ends are the wrong way round. -/
def length (r : Range) : Nat := r.stop - r.pos

/-- Do the two ends coincide? -/
def isEmpty (r : Range) : Bool := r.pos == r.stop

/-- Is `p` the position of a character of the range? -/
def contains (r : Range) (p : Nat) : Bool := r.pos ≤ p && p < r.stop

/-- Both ends with two dots between. -/
def describe (r : Range) : String := toString r.pos ++ ".." ++ toString r.stop

def toSpan (r : Range) : Span := Span.ofBounds r.pos r.stop

end Range

def Span.toRange (s : Span) : Range := ⟨s.start, s.stop⟩

/-- A range whose ends are in order comes back from its span. -/
theorem Range.toRange_toSpan {r : Range} (h : r.pos ≤ r.stop) : r.toSpan.toRange = r := by
  cases r with
  | mk pos stop =>
    have h' : pos + (stop - pos) = stop := Nat.add_sub_of_le h
    simp only [Range.toSpan, Span.toRange, Span.ofBounds, Span.stop, h']

end ScriptSyntax
