/-
  ScriptSyntax/Proofs/File/Diagnostics.lean
  =========================================
  The diagnostics of a file, and the marks in its tree.

  What the parser reports is about places in the text.  What is wrong with a
  directive is about the comment that holds it, and comments lie in the text too.
  So each place has its bytes, and no report counts back from its start.

  Every error that the parser reports is marked on a node, and there are no marks
  without a report.  The node that carries the mark is in the tree, unless it is
  the mark of optional access before a template, which is in no tree.
-/
import ScriptSyntax.Proofs.File.Shape
import ScriptSyntax.Proofs.Text.Bytes
import ScriptSyntax.Proofs.Token.Extent

namespace ScriptSyntax

/-! ## 1. Comments -/

/-- The comment lies in a text of the given size. -/
structure Comment.InText (size : Nat) (c : Comment) : Prop where
  pos_le_stop : c.pos ≤ c.stop
  stop_le : c.stop ≤ size

namespace Comment

variable {text : Array Char}

end Comment

/-! ## 2. Directives -/

namespace DirectiveReading

variable {size : Nat} {r : DirectiveReading} {c : Comment} {fileName : String}

/-- What is wrong with the directives is about places in a text of the given size. -/
def InText (size : Nat) (r : DirectiveReading) : Prop := ∀ d ∈ r.diagnostics, d.InText size

theorem InText.report {m : Message} (h : r.InText size) (hc : c.InText size) :
    (r.report fileName c m).InText size := by
  intro d hd
  rcases List.mem_append.mp hd with hd | hd
  · exact h d hd
  · rw [List.mem_singleton.mp hd]
    refine Diagnostic.ofMessageAt_inText ?_
    have hstop : (Span.ofBounds c.pos c.stop).stop = c.stop := Nat.add_sub_of_le hc.pos_le_stop
    exact hstop.trans_le hc.stop_le

theorem InText.addReference {form : ReferenceForm} (h : r.InText size) (hc : c.InText size) :
    (r.addReference fileName c form).InText size := by
  cases form with
  | invalid => exact h.report hc
  | _ => exact h

theorem InText.nameModule {name : String} (h : r.InText size) (hc : c.InText size) :
    (r.nameModule fileName c name).InText size := by
  unfold DirectiveReading.nameModule
  dsimp only
  split
  · exact h.report hc
  · exact h

/-- Taking in a comment of the text keeps all that is wrong in the text. -/
theorem InText.addComment {text : Array Char} (h : r.InText size) (hc : c.InText size) :
    (r.addComment fileName text c).InText size := by
  unfold DirectiveReading.addComment
  dsimp only
  split
  · exact h
  split
  · exact h.addReference hc
  · generalize (c.source text).toList = source
    have hnamed : (((moduleNameForm? source).map (r.nameModule fileName c)).getD r).InText size := by
      cases moduleNameForm? source with
      | none => exact h
      | some name => exact h.nameModule hc
    -- neither a dependency nor a check adds to what is wrong
    cases dependencyForm? source <;> cases checkForm? source <;> exact hnamed

end DirectiveReading

/-- Without directives, the diagnostics of a file are what the parser reported. -/
theorem diagnostics_completeFile {options : ParseOptions} (hread : options.readDirectives = false) (fileName : String)
    (text : SourceText) (root : NodeId) (s : ParserState) :
    (completeFile fileName text options root s).diagnostics = s.log.entries.toList := by
  simp [completeFile, hread]

theorem DiagnosticLog.entries_ne_nil_iff {log : DiagnosticLog} :
    log.entries.toList ≠ [] ↔ 0 < log.size := by
  rw [DiagnosticLog.size, ← Array.length_toList, List.length_pos_iff]

/-- A parsed text has been reported on if and only if a mark of an error is in its tree, or is on a
mark of optional access that the tree leaves out. -/
theorem Rooted.reported_iff {text : Array Char} {context : ContextFlags} {root : NodeId}
    {s : ParserState} (h : Rooted text context root s) : 0 < s.log.size ↔ s.arena.Marked root ∨ s.arena.StrayMark := by
  constructor
  · intro hlog
    have hempty : (ParserState.opened context text).log.size = 0 := rfl
    rcases h.run.told (.inr (hempty ▸ hlog)) with hpending | ⟨c, hc, hmarked⟩ | hstray
    · rw [h.due] at hpending
      cases hpending
    · obtain rfl : c = root := by simpa using hc
      exact .inl hmarked
    · exact .inr hstray
  · rintro (hmarked | ⟨id, n, hn, -, herror⟩)
    · obtain ⟨d, -, herror⟩ := Arena.marked_iff.mp hmarked
      exact h.run.ok.reported (.inr ⟨d, herror⟩)
    · exact h.run.ok.reported (.inr ⟨id, Arena.hasError_of_get? hn herror⟩)

namespace Arena

theorem SameNodes.strayMark_iff {a b : Arena} (h : a.SameNodes b) : b.StrayMark ↔ a.StrayMark := by
  constructor
  · rintro ⟨id, n, hn, hkind, herror⟩
    obtain ⟨m, hm, _, rfl⟩ := h.get? hn
    exact ⟨id, m, hm, hkind, herror⟩
  · rintro ⟨id, m, hm, hkind, herror⟩
    obtain ⟨_, hn, _, rfl⟩ := h.keeps id m hm
    exact ⟨id, _, hn, hkind, herror⟩

end Arena

/-- A file that is parsed without its directives has diagnostics if and only if its root contains the
mark of an error, or a mark of optional access carries one. -/
theorem parseText_diagnostics_iff (fileName : String) (text : SourceText) (options : ParseOptions) :
    ∃ f, parseText fileName text { options with readDirectives := false } = .ok f
      ∧ (f.diagnostics ≠ [] ↔ f.arena.containsError f.root = true ∨ f.arena.StrayMark) := by
  obtain ⟨_, root, s, hrooted, hparse⟩ :=
    exists_rooted fileName text { options with readDirectives := false }
  have hsame := sameNodes_completeFile fileName text { options with readDirectives := false } root s
  have hsound := hrooted.sound_completeFile fileName { options with readDirectives := false }
  refine ⟨_, hparse, ?_⟩
  rw [diagnostics_completeFile rfl, DiagnosticLog.entries_ne_nil_iff,
    hrooted.reported_iff, hsound.containsError_iff, hsame.strayMark_iff]
  exact or_congr_left hsame.marked_iff.symm

end ScriptSyntax
