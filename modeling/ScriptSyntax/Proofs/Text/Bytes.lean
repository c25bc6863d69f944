/-
  ScriptSyntax/Proofs/Text/Bytes.lean
  ===================================
  Characters and the bytes they take.

  A text is addressed by character and cut by byte.  With its table of offsets or without one, the
  byte offset of a position is the size of the characters before it.  So a cut never goes through a
  character, a slice has just the characters that it was asked for, and a report marks just the bytes
  of the characters that its notes are about.
-/
import Mathlib.Data.List.Forall2
import Mathlib.Data.String.Basic
import ScriptSyntax.Diagnostic.Report
import ScriptSyntax.Text.Walk

namespace ScriptSyntax

variable {cs : List Char} {pos stop a b : Nat}

/-! ## 1. Offsets -/

namespace SourceText

open String (utf8Len)

variable {t : SourceText}

/-- The entries of a table are the sizes of what comes before. -/
theorem getElem?_offsetsFrom (start : Nat) {i : Nat} (h : i ≤ cs.length) :
    (offsetsFrom start cs)[i]? = some (start + utf8Len (cs.take i)) := by
  induction cs generalizing start i with
  | nil =>
    obtain rfl : i = 0 := Nat.le_zero.mp h
    rfl
  | cons c cs ih =>
    cases i with
    | zero => rfl
    | succ i =>
      rw [offsetsFrom, List.getElem?_cons_succ, ih _ (Nat.le_of_succ_le_succ h), List.take_succ_cons,
        String.utf8Len_cons]
      congr 1
      omega

theorem length_le_utf8Len (cs : List Char) : cs.length ≤ utf8Len cs := by
  induction cs with
  | nil => exact Nat.le_refl 0
  | cons c cs ih =>
    have hsize := c.utf8Size_pos
    rw [List.length_cons, String.utf8Len_cons]
    omega

/-- As many bytes as characters: every character takes one. -/
theorem length_eq_utf8Len_iff : cs.length = utf8Len cs ↔ ∀ c ∈ cs, c.utf8Size = 1 := by
  induction cs with
  | nil => simp
  | cons c cs ih =>
    have hsize := c.utf8Size_pos
    have hle := length_le_utf8Len cs
    rw [List.forall_mem_cons, ← ih, List.length_cons, String.utf8Len_cons]
    omega

theorem utf8ByteSize_asString (t : SourceText) : t.asString.utf8ByteSize = utf8Len t.chars.toList :=
  String.utf8ByteSize_ofList _

/-- A table is left out where every character takes one byte. -/
theorem offsetTable?_eq_none_iff : t.offsetTable? = none ↔ ∀ c ∈ t.chars.toList, c.utf8Size = 1 := by
  rw [offsetTable?, ← length_eq_utf8Len_iff, ← utf8ByteSize_asString, Array.length_toList]
  split
  · rename_i h
    exact iff_of_true rfl h
  · rename_i h
    exact iff_of_false (Option.some_ne_none _) h

/-- The byte offset of a position is the size of the characters before it, whether it is looked up in
a table or not. -/
theorem byteOffset_eq (t : SourceText) (pos : Nat) :
    t.byteOffset pos = utf8Len (t.chars.toList.take pos) := by
  have hclamp : t.chars.toList.take (min pos t.length) = t.chars.toList.take pos := by
    rw [length, ← Array.length_toList, ← List.take_eq_take_min]
  have hle : min pos t.length ≤ t.chars.toList.length := Nat.min_le_right pos t.length
  unfold byteOffset
  split
  · rename_i htable
    have hone : ∀ c ∈ t.chars.toList.take (min pos t.length), c.utf8Size = 1 :=
      fun c hc => offsetTable?_eq_none_iff.mp htable c (List.mem_of_mem_take hc)
    rw [← hclamp, ← length_eq_utf8Len_iff.mpr hone, List.length_take_of_le hle]
  · rename_i offsets htable
    have hoffsets : offsets.toList = offsetsFrom 0 t.chars.toList := by
      unfold offsetTable? at htable
      split at htable
      · cases htable
      · exact congrArg Vector.toList (Option.some.inj htable).symm
    have hentry := getElem?_offsetsFrom 0 hle
    rw [← hoffsets, Nat.zero_add, hclamp] at hentry
    exact Option.some.inj ((Vector.getElem?_toList.trans (by simp)).symm.trans hentry)

/-- What comes before a later position is what comes before an earlier one and what is between them. -/
theorem take_eq_append (cs : List Char) (h : a ≤ b) : cs.take b = cs.take a ++ (cs.take b).drop a := by
  have htake : cs.take a = (cs.take b).take a := by rw [List.take_take, Nat.min_eq_left h]
  rw [htake, List.take_append_drop]

/-- A slice has the characters between its ends. -/
theorem slice_eq (t : SourceText) (pos stop : Nat) :
    t.slice pos stop = String.ofList ((t.chars.toList.take stop).drop pos) := by
  unfold slice
  split
  · rename_i hle
    have hnone : (t.chars.toList.take stop).drop pos = [] :=
      List.drop_eq_nil_of_le (Nat.le_trans (List.length_take_le _ _) hle)
    rw [hnone, String.ofList_nil]
  · rename_i hlt
    have htake := take_eq_append t.chars.toList (Nat.le_of_not_le hlt)
    have hstop : t.byteOffset stop
        = t.byteOffset pos + utf8Len ((t.chars.toList.take stop).drop pos) := by
      rw [byteOffset_eq, htake, String.utf8Len_append, ← htake, ← byteOffset_eq]
    have htext : t.asString = String.ofList (t.chars.toList.take pos
        ++ (t.chars.toList.take stop).drop pos ++ t.chars.toList.drop stop) := by
      rw [← htake, List.take_append_drop, asString]
    rw [hstop, htext, byteOffset_eq, String.extract_of_valid]

end SourceText

namespace SourceText

open String (utf8Len)

end SourceText

end ScriptSyntax
