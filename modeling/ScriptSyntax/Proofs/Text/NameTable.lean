/-
  ScriptSyntax/Proofs/Text/NameTable.lean
  =======================================
  The table of names as it grows.

  A name is entered once and keeps its number from then on.
-/
import Mathlib.Data.List.Nodup
import ScriptSyntax.Text.NameTable

namespace ScriptSyntax

namespace NameTable

variable {a b c : NameTable} {id : NameId} {name : String}

/-- The table has grown: the names that it had are there under their numbers. -/
def Grows (a b : NameTable) : Prop := a.toList <+: b.toList

theorem Grows.refl (a : NameTable) : a.Grows a := List.prefix_rfl

theorem Grows.trans (hab : a.Grows b) (hbc : b.Grows c) : a.Grows c := List.IsPrefix.trans hab hbc

theorem grows_intern (a : NameTable) (name : String) : a.Grows (a.intern name).2 := by
  unfold intern
  split
  · exact .refl a
  · simp [Grows, toList]

/-- A name keeps its number while the table grows. -/
theorem Grows.find?_eq (h : a.Grows b) (hid : a.find? name = some id) : b.find? name = some id := by
  obtain ⟨more, hmore⟩ := h
  obtain ⟨i, hi, rfl⟩ := Option.map_eq_some_iff.mp hid
  have hnames : b.names = a.names ++ more.toArray := by
    apply Array.toList_inj.mp
    simpa [toList] using hmore.symm
  unfold find?
  rw [hnames, Array.findIdx?_append, hi]
  rfl

/-- The number that a name gets is its number from then on. -/
theorem find?_intern (a : NameTable) (name : String) :
    (a.intern name).2.find? name = some (a.intern name).1 := by
  unfold intern
  split
  · rename_i id hid
    exact hid
  · rename_i hnone
    have hnone : a.names.findIdx? (· == name) = none := by simpa [find?] using hnone
    simp [find?, Array.findIdx?_push, hnone]

theorem resolve_of_find? (h : a.find? name = some id) : a.resolve id = name := by
  obtain ⟨i, hi, rfl⟩ := Option.map_eq_some_iff.mp h
  obtain ⟨hlt, hname, -⟩ := Array.findIdx?_eq_some_iff_getElem.mp hi
  simpa [resolve, hlt] using hname

theorem index_lt_of_find? (h : a.find? name = some id) : id.index < a.size := by
  obtain ⟨i, hi, rfl⟩ := Option.map_eq_some_iff.mp h
  exact (Array.findIdx?_eq_some_iff_getElem.mp hi).1

/-- A name that has a number is in the table. -/
theorem mem_of_find? (h : a.find? name = some id) : name ∈ a.toList := by
  obtain ⟨i, hi, rfl⟩ := Option.map_eq_some_iff.mp h
  obtain ⟨hlt, hname, -⟩ := Array.findIdx?_eq_some_iff_getElem.mp hi
  rw [toList, ← beq_iff_eq.mp hname]
  exact Array.getElem_mem_toList hlt

/-- A name that is there is not entered again. -/
theorem nodup_intern (h : a.toList.Nodup) (name : String) : (a.intern name).2.toList.Nodup := by
  unfold intern
  split
  · exact h
  · rename_i hnew
    have hnew : ∀ x ∈ a.toList, x ≠ name := by simpa [find?, toList] using hnew
    have hnodup : (a.toList ++ [name]).Nodup := by simpa [List.nodup_append] using ⟨h, hnew⟩
    simpa [toList] using hnodup

end NameTable

end ScriptSyntax
