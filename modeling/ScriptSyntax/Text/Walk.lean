/-
  ScriptSyntax/Text/Walk.lean
  ===========================
  Walking over a text while a property of its characters lasts.

  `scanWhile` is the one loop behind most extents of tokens and trivia.  Its
  small lemmas say that it never walks back and never leaves the text.
-/

namespace ScriptSyntax

/-- The first position at or after `pos` whose character fails `p`, or the end of the text. -/
def scanWhile (p : Char → Bool) (text : Array Char) (pos : Nat) : Nat :=
  if h : pos < text.size then
    if p text[pos] then scanWhile p text (pos + 1) else pos
  else pos
termination_by text.size - pos

/-- The walk never goes back. -/
theorem le_scanWhile (p : Char → Bool) (text : Array Char) (pos : Nat) :
    pos ≤ scanWhile p text pos := by
  fun_induction scanWhile p text pos with
  | case1 pos h hp ih => omega
  | case2 pos h hp => exact Nat.le_refl pos
  | case3 pos h => exact Nat.le_refl pos

theorem scanWhile_le_size (p : Char → Bool) (text : Array Char) (pos : Nat)
    (h : pos ≤ text.size) : scanWhile p text pos ≤ text.size := by
  fun_induction scanWhile p text pos with
  | case1 pos hlt hp ih => exact ih (by omega)
  | case2 pos hlt hp => exact h
  | case3 pos hlt => exact h

/-- The characters between two positions, as a string. -/
def sliceOf (text : Array Char) (start stop : Nat) : String :=
  String.ofList (text.extract start stop).toList

/-- Is the character at `pos` equal to `c`? -/
def hasCharAt (text : Array Char) (pos : Nat) (c : Char) : Bool := text[pos]? == some c

end ScriptSyntax
