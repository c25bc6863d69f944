/-
  ScriptSyntax/Text/LineMap.lean
  ==============================
  Lines of a text and the places on them.

  A line ends with a line feed, a carriage return, the two together, U+2028 or
  U+2029.  The map keeps where each line starts; a position lies on the last
  line that starts at or before it, which a search by halves finds.
-/
import ScriptSyntax.Text.CharClass

namespace ScriptSyntax

/-- A place in a text: line and column, both counted from zero. -/
structure LineAndColumn where
  line : Nat
  column : Nat
  deriving DecidableEq, Repr

/-! ## 1. Searching -/

/-- What a search in an ascending row comes to: the number stands at an index, or it is missing
and would have to be put in at one. -/
inductive SearchResult where
  | found (index : Nat)
  | missing (index : Nat)
  deriving DecidableEq, Repr

/-- Searches an ascending row by halves, from one index up to another one. -/
def searchBetween (row : Array Nat) (x lo hi : Nat) (h : hi ≤ row.size) : SearchResult :=
  if hlt : lo < hi then
    let mid := lo + (hi - lo) / 2
    have hmid : mid < row.size := by omega
    if row[mid] = x then .found mid
    else if row[mid] < x then searchBetween row x (mid + 1) hi h
    else searchBetween row x lo mid (by omega)
  else .missing lo
termination_by hi - lo

/-! ## 2. Lines -/

/-- Where the lines of a text start. -/
structure LineMap where
  starts : Array Nat
  deriving DecidableEq, Repr

namespace LineMap

/-- The starts of the lines that begin after position `i`, where `i` is the position of the
first of the characters given. -/
def startsFrom : Nat → List Char → List Nat
  | _, [] => []
  | i, '\r' :: '\n' :: cs => (i + 2) :: startsFrom (i + 2) cs
  | i, c :: cs => if isLineBreak c then (i + 1) :: startsFrom (i + 1) cs else startsFrom (i + 1) cs

/-- The first line starts with the text. -/
def ofChars (chars : List Char) : LineMap := ⟨(0 :: startsFrom 0 chars).toArray⟩

/-- Searches for a line that starts at the position. -/
def search (m : LineMap) (pos : Nat) : SearchResult :=
  searchBetween m.starts pos 0 m.starts.size (Nat.le_refl m.starts.size)

/-- The line that a position lies on: where no line starts at the position, it is the one before
those that start later. -/
def lineOf (m : LineMap) (pos : Nat) : Nat :=
  match m.search pos with
  | .found line => line
  | .missing line => line - 1

def locate (m : LineMap) (pos : Nat) : LineAndColumn :=
  let line := m.lineOf pos
  ⟨line, pos - m.starts[line]?.getD 0⟩

end LineMap

end ScriptSyntax
