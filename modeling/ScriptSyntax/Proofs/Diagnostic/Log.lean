/-
  ScriptSyntax/Proofs/Diagnostic/Log.lean
  =======================================
  Logs that grow at their end, and logs about a text.

  A log is cut back to what it was, as long as it has only grown since then.  A
  note joins the entry found last, so it must not join one that was there before.
-/
import Mathlib.Data.List.Chain
import ScriptSyntax.Diagnostic.Log

namespace ScriptSyntax

/-! ## 1. Growth -/

namespace DiagnosticLog

variable {a b c : DiagnosticLog}

/-- The log has grown: the entries that it had are there as they were, and new ones come after them. -/
def Grows (a b : DiagnosticLog) : Prop := a.entries.toList <+: b.entries.toList

theorem Grows.refl (a : DiagnosticLog) : a.Grows a := List.prefix_rfl

theorem Grows.trans (hab : a.Grows b) (hbc : b.Grows c) : a.Grows c :=
  List.IsPrefix.trans hab hbc

theorem Grows.size_le (h : a.Grows b) : a.size ≤ b.size := List.IsPrefix.length_le h

theorem Grows.mem (h : a.Grows b) {d : Diagnostic} (hd : d ∈ a.entries) : d ∈ b.entries :=
  Array.mem_toList_iff.mp (List.IsPrefix.mem (Array.mem_toList_iff.mpr hd) h)

/-- A log that has only grown is cut back to what it was. -/
theorem Grows.truncate_eq (h : a.Grows b) : b.truncate a.size = a := by
  have htake : b.entries.toList.take a.entries.toList.length = a.entries.toList :=
    (List.prefix_iff_eq_take.mp h).symm
  have hlist : (b.truncate a.size).entries.toList = a.entries.toList := by
    simpa [truncate, size] using htake
  have hentries : (b.truncate a.size).entries = a.entries := Array.toList_inj.mp hlist
  cases a with
  | mk entries => exact congrArg DiagnosticLog.mk hentries

theorem grows_add (a : DiagnosticLog) (d : Diagnostic) : a.Grows (a.add d) := by
  simp [Grows, add]

/-- A log without entries, or one that ends with some entry. -/
theorem eq_empty_or_add (a : DiagnosticLog) : a = empty ∨ ∃ (b : DiagnosticLog) (d : Diagnostic), a = b.add d := by
  cases hlast : a.entries.back? with
  | none =>
    rw [Array.back?_eq_none_iff] at hlast
    exact .inl (congrArg DiagnosticLog.mk hlast)
  | some d =>
    obtain ⟨entries, hentries⟩ := Array.back?_eq_some_iff.mp hlast
    exact .inr ⟨⟨entries⟩, d, congrArg DiagnosticLog.mk hentries⟩

@[simp] theorem last?_add (a : DiagnosticLog) (d : Diagnostic) : (a.add d).last? = some d := by
  simp [last?, add]

@[simp] theorem size_add (a : DiagnosticLog) (d : Diagnostic) : (a.add d).size = a.size + 1 := by
  simp [size, add]

@[simp] theorem relateToLast_add (a : DiagnosticLog) (d : Diagnostic) (n : Note) :
    (a.add d).relateToLast n = a.add { d with related := d.related ++ [n] } := by
  simp [relateToLast, add]

@[simp] theorem size_relateToLast (a : DiagnosticLog) (n : Note) :
    (a.relateToLast n).size = a.size := by
  rcases eq_empty_or_add a with rfl | ⟨b, d, rfl⟩
  · rfl
  · rw [relateToLast_add, size_add, size_add]

theorem grows_report (a : DiagnosticLog) (d : Diagnostic) : a.Grows (a.report d) := by
  unfold report
  split
  · exact .refl a
  · exact grows_add a d

/-- After a report the entry found last starts where the report does. -/
theorem exists_last?_report (a : DiagnosticLog) (d : Diagnostic) :
    ∃ e, (a.report d).last? = some e ∧ e.start = d.start := by
  unfold report
  split
  · rename_i hrepeated
    obtain ⟨e, he, hstart⟩ := (Option.any_eq_true _ _).mp hrepeated
    exact ⟨e, he, beq_iff_eq.mp hstart⟩
  · exact ⟨d, last?_add a d, rfl⟩

theorem size_pos_of_last? {e : Diagnostic} (h : a.last? = some e) : 0 < a.size := by
  have hlt : a.entries.size - 1 < a.entries.size := (Array.getElem?_eq_some_iff.mp h).1
  exact Nat.lt_of_le_of_lt (Nat.zero_le _) hlt

/-- A note that joins an entry of one's own leaves the older entries as they are. -/
theorem Grows.relateToLast (h : a.Grows b) (hsize : a.size < b.size) (n : Note) :
    a.Grows (b.relateToLast n) := by
  rcases eq_empty_or_add b with rfl | ⟨b, d, rfl⟩
  · exact absurd hsize (Nat.not_lt_zero _)
  · have hold : a.Grows b := by
      have hprefix : a.entries.toList <+: b.entries.toList ++ [d] := by simpa [Grows, add] using h
      have hlength : a.entries.toList.length ≤ b.entries.toList.length := by
        rw [size_add] at hsize
        exact Nat.le_of_lt_succ hsize
      exact List.prefix_of_prefix_length_le hprefix (List.prefix_append _ _) hlength
    rw [relateToLast_add]
    exact hold.trans (grows_add b _)

end DiagnosticLog

/-! ## 2. Places in a text -/

/-- The note is about a place in a text of the given size. -/
def Note.InText (size : Nat) (n : Note) : Prop := ∃ span, n.span = some span ∧ span.stop ≤ size

/-- The diagnostic and the notes that explain it are about places in a text of the given size. -/
structure Diagnostic.InText (size : Nat) (d : Diagnostic) : Prop where
  note : d.toNote.InText size
  related : ∀ n ∈ d.related, n.InText size

/-- All entries are about places in a text of the given size, and no two that follow each other
start at the same place. -/
structure DiagnosticLog.InText (size : Nat) (a : DiagnosticLog) : Prop where
  inside : ∀ d ∈ a.entries, d.InText size
  apart : a.entries.toList.IsChain fun d e => d.start ≠ e.start

theorem Note.ofMessageAt_inText {size : Nat} {file : String} {span : Span} {m : Message}
    {args : List String} (h : span.stop ≤ size) : (Note.ofMessageAt file span m args).InText size :=
  ⟨span, rfl, h⟩

theorem Diagnostic.ofMessageAt_inText {size : Nat} {file : String} {span : Span} {m : Message}
    {args : List String} (h : span.stop ≤ size) :
    (Diagnostic.ofMessageAt file span m args).InText size where
  note := Note.ofMessageAt_inText h
  related := by simp [Diagnostic.ofMessageAt]

namespace DiagnosticLog

variable {size : Nat} {a : DiagnosticLog}

theorem inText_empty (size : Nat) : empty.InText size where
  inside := by simp [empty]
  apart := .nil

/-- The starts of the entries of a log that ends with the given one differ where they should. -/
theorem apart_add_iff {d : Diagnostic} :
    (a.add d).entries.toList.IsChain (fun d e => d.start ≠ e.start)
      ↔ a.entries.toList.IsChain (fun d e => d.start ≠ e.start)
        ∧ ∀ e, a.last? = some e → e.start ≠ d.start := by
  simp [add, last?, List.isChain_append]

theorem InText.add {d : Diagnostic} (h : a.InText size) (hd : d.InText size)
    (hapart : ∀ e, a.last? = some e → e.start ≠ d.start) : (a.add d).InText size where
  inside e he := by
    rcases Array.mem_push.mp he with he | rfl
    · exact h.inside e he
    · exact hd
  apart := apart_add_iff.mpr ⟨h.apart, hapart⟩

/-- A report about the text keeps the log about the text. -/
theorem InText.report {d : Diagnostic} (h : a.InText size) (hd : d.InText size) :
    (a.report d).InText size := by
  unfold DiagnosticLog.report
  split
  · exact h
  · rename_i hnew
    refine h.add hd fun e he hsame => hnew ?_
    rw [he]
    exact beq_iff_eq.mpr hsame

theorem InText.relateToLast {n : Note} (h : a.InText size) (hn : n.InText size) :
    (a.relateToLast n).InText size := by
  rcases eq_empty_or_add a with rfl | ⟨b, d, rfl⟩
  · exact h
  · obtain ⟨hold, hlast⟩ := apart_add_iff.mp h.apart
    have hd : d.InText size := h.inside d (Array.mem_push.mpr (.inr rfl))
    have hb : b.InText size :=
      ⟨fun e he => h.inside e (Array.mem_push.mpr (.inl he)), hold⟩
    rw [relateToLast_add]
    refine hb.add ⟨hd.note, fun m hm => ?_⟩ hlast
    rcases List.mem_append.mp hm with hm | hm
    · exact hd.related m hm
    · rw [List.mem_singleton.mp hm]
      exact hn

end DiagnosticLog

end ScriptSyntax
