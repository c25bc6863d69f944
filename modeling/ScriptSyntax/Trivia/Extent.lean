/-
  ScriptSyntax/Trivia/Extent.lean
  ===============================
  How far a piece of trivia reaches: lines, line breaks, block comments, the
  interpreter line at the start of a file, and the markers that a version
  control system leaves where two sides of a merge conflict.
-/
import ScriptSyntax.Text.CharClass
import ScriptSyntax.Text.Walk

namespace ScriptSyntax

/-! ## 1. Lines -/

/-- The end of the line that `pos` lies on, its terminator not included. -/
def lineEnd (text : Array Char) (pos : Nat) : Nat := scanWhile (fun c => !isLineBreak c) text pos

/-- The position just after the line terminator at `pos`: a carriage return and a line feed are
one terminator. -/
def lineBreakEnd (text : Array Char) (pos : Nat) : Nat :=
  if hasCharAt text pos '\r' && hasCharAt text (pos + 1) '\n' then pos + 2 else pos + 1

/-- The end of a line lies at or after every position on it. -/
theorem le_lineEnd (text : Array Char) (pos : Nat) : pos ≤ lineEnd text pos :=
  le_scanWhile _ text pos

/-- A line terminator takes room. -/
theorem lt_lineBreakEnd (text : Array Char) (pos : Nat) : pos < lineBreakEnd text pos := by
  unfold lineBreakEnd
  split <;> omega

/-! ## 2. Block comments -/

/-- The position just after the first closing mark of a block comment at or after `pos`, if there
is one. -/
def blockCommentEnd? (text : Array Char) (pos : Nat) : Option Nat :=
  if h : pos < text.size then
    if text[pos] == '*' && hasCharAt text (pos + 1) '/' then some (pos + 2)
    else blockCommentEnd? text (pos + 1)
  else none
termination_by text.size - pos

/-- The end of a block comment whose inside starts at `pos`: one without a closing mark reaches to
the end of the text. -/
def blockCommentEnd (text : Array Char) (pos : Nat) : Nat :=
  (blockCommentEnd? text pos).getD (max pos text.size)

/-- A closing mark lies after the inside. -/
theorem lt_of_blockCommentEnd? {text : Array Char} {pos stop : Nat}
    (h : blockCommentEnd? text pos = some stop) : pos < stop := by
  fun_induction blockCommentEnd? text pos with
  | case1 pos hlt hc => cases h; omega
  | case2 pos hlt hc ih => exact Nat.lt_of_succ_lt (ih h)
  | case3 pos hlt => cases h

/-- A block comment ends at or after the start of its inside. -/
theorem le_blockCommentEnd (text : Array Char) (pos : Nat) : pos ≤ blockCommentEnd text pos := by
  unfold blockCommentEnd
  cases h : blockCommentEnd? text pos with
  | none => exact Nat.le_max_left pos text.size
  | some stop => exact Nat.le_of_lt (lt_of_blockCommentEnd? h)

/-! ## 3. The interpreter line -/

/-- Does a line that names an interpreter start at `pos`? Only the first line of a file may. -/
def isShebang (text : Array Char) (pos : Nat) : Bool :=
  pos == 0 && hasCharAt text 0 '#' && hasCharAt text 1 '!'

/-- The end of the interpreter line at `pos`, its terminator not included. -/
def shebangEnd (text : Array Char) (pos : Nat) : Nat := lineEnd text (pos + 2)

/-! ## 4. Conflict markers -/

def conflictMarkerLength : Nat := 7

/-- Does a conflict marker stand at `pos`? It is seven times the same of four characters, at the
start of a line, and all but the middle one are followed by a space. -/
def isConflictMarker (text : Array Char) (pos : Nat) : Bool :=
  match text[pos]? with
  | none => false
  | some c =>
    (pos == 0 || text[pos - 1]?.any isLineBreak)
      && (c == '<' || c == '=' || c == '>' || c == '|')
      && (List.range conflictMarkerLength).all (fun i => hasCharAt text (pos + i) c)
      && (c == '=' || hasCharAt text (pos + conflictMarkerLength) ' ')

/-- The end of the region that a middle marker opens: the next marker of another kind that can
end it, or the end of the text. -/
def conflictRegionEnd (text : Array Char) (opening : Char) (pos : Nat) : Nat :=
  if h : pos < text.size then
    let c := text[pos]
    if (c == '=' || c == '>') && c != opening && isConflictMarker text pos then pos
    else conflictRegionEnd text opening (pos + 1)
  else pos
termination_by text.size - pos

theorem le_conflictRegionEnd (text : Array Char) (opening : Char) (pos : Nat) :
    pos ≤ conflictRegionEnd text opening pos := by
  fun_induction conflictRegionEnd text opening pos with
  | case1 pos h c hc => exact Nat.le_refl pos
  | case2 pos h c hc ih => omega
  | case3 pos h => exact Nat.le_refl pos

/-- The end of what a conflict marker at `pos` hides: an outer marker hides its own line, a middle
one also the other side of the merge. -/
def conflictMarkerEnd (text : Array Char) (pos : Nat) : Nat :=
  match text[pos]? with
  | some '<' | some '>' => lineEnd text (pos + 1)
  | some c => conflictRegionEnd text c (pos + 1)
  | none => pos + 1

theorem lt_conflictMarkerEnd (text : Array Char) (pos : Nat) : pos < conflictMarkerEnd text pos := by
  unfold conflictMarkerEnd
  split
  · exact le_lineEnd text (pos + 1)
  · exact le_lineEnd text (pos + 1)
  · exact le_conflictRegionEnd text _ (pos + 1)
  · exact Nat.lt_succ_self pos

end ScriptSyntax
