/-
  ScriptSyntax/Text/Source.lean
  =============================
  The text of one file, addressed by character.

  Positions count characters, not bytes.  Where bytes are wanted a position is
  translated by a table, which has one entry for each character and one for the
  end.  A text whose characters take one byte each needs no table.
-/
import ScriptSyntax.Text.LineMap

namespace ScriptSyntax

/-- The text of one file as an array of characters. -/
structure SourceText where
  chars : Array Char
  deriving DecidableEq, Repr

namespace SourceText

def ofString (s : String) : SourceText := ⟨s.toList.toArray⟩

/-- The text as a string. -/
def asString (t : SourceText) : String := String.ofList t.chars.toList

def length (t : SourceText) : Nat := t.chars.size

def isEmpty (t : SourceText) : Bool := t.chars.isEmpty

def charAt? (t : SourceText) (pos : Nat) : Option Char := t.chars[pos]?

/-! ## 1. Bytes -/

/-- Where characters start in bytes, the first of them at `start`, and where the last one ends. -/
def offsetsFrom : Nat → List Char → List Nat
  | start, [] => [start]
  | start, c :: cs => start :: offsetsFrom (start + c.utf8Size) cs

theorem length_offsetsFrom (start : Nat) (cs : List Char) :
    (offsetsFrom start cs).length = cs.length + 1 := by
  induction cs generalizing start with
  | nil => rfl
  | cons c cs ih => rw [offsetsFrom, List.length_cons, ih, List.length_cons]

/-- The byte offset of every character and of the end. There is no table where the text has as
many bytes as characters. -/
def offsetTable? (t : SourceText) : Option (Vector Nat (t.length + 1)) :=
  if t.length = t.asString.utf8ByteSize then none
  else some ⟨(offsetsFrom 0 t.chars.toList).toArray, by simp [length_offsetsFrom, length]⟩

/-- The number of bytes before a position, positions beyond the end counting as the end. -/
def byteOffset (t : SourceText) (pos : Nat) : Nat :=
  have hplace : min pos t.length < t.length + 1 := by omega
  match t.offsetTable? with
  | none => min pos t.length
  | some offsets => offsets[min pos t.length]

/-- The number of bytes of the whole text. -/
def byteLength (t : SourceText) : Nat := t.asString.utf8ByteSize

/-- The text from `pos` up to `stop`, both clamped to the text; it is empty when they are the wrong
way round. -/
def slice (t : SourceText) (pos stop : Nat) : String :=
  if stop ≤ pos then ""
  else String.Pos.Raw.extract t.asString ⟨t.byteOffset pos⟩ ⟨t.byteOffset stop⟩

/-! ## 2. Lines -/

def lineMap (t : SourceText) : LineMap := LineMap.ofChars t.chars.toList

/-- The sizes of the text, for inspection. -/
def describe (t : SourceText) : String :=
  "SourceText \x7b chars: " ++ toString t.length ++ ", bytes: " ++ toString t.byteLength ++ " \x7d"

end SourceText

end ScriptSyntax
