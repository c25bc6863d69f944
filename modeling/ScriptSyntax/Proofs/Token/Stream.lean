/-
  ScriptSyntax/Proofs/Token/Stream.lean
  =====================================
  The tokens of a text, one scan after the other.

  Each scan goes on where the one before ended, and takes room unless it is at the end of the
  text.  So the scanner comes to the end of the file after no more scans than there are
  characters, and one.
-/
import ScriptSyntax.Proofs.Token.Bounds
import ScriptSyntax.Token.Stream

namespace ScriptSyntax

variable {text : Array Char}

namespace Scanner

/-- A scanner that has scanned the given number of tokens from the start of a text. -/
def afterScans (text : Array Char) : Nat → Scanner
  | 0 => ofText text
  | n + 1 => ((afterScans text n).read .scan).1

/-- The token of a text with the given number, the first of them having number 0. -/
def scanned (text : Array Char) (n : Nat) : Token := (afterScans text (n + 1)).token

/-- Where the scan with the given number starts. -/
def scanPos (text : Array Char) (n : Nat) : Nat := (afterScans text n).token.stop

theorem text_afterScans (text : Array Char) (n : Nat) : (afterScans text n).text = text := by
  induction n with
  | zero => rfl
  | succ n ih => simp [afterScans, ih]

theorem scanned_eq (text : Array Char) (n : Nat) :
    scanned text n = (scanAt text (scanPos text n)).1 := by
  simp [scanned, afterScans, text_afterScans, ReadingMode.read, Token.next, scanPos]

theorem scanPos_succ (text : Array Char) (n : Nat) : scanPos text (n + 1) = (scanned text n).stop :=
  rfl

theorem scanPos_le_size (text : Array Char) (n : Nat) : scanPos text n ≤ text.size := by
  induction n with
  | zero => exact Nat.zero_le _
  | succ n ih =>
    rw [scanPos_succ, scanned_eq]
    exact (scanAt_inText ih).token.stop_le

theorem inText_scanned (text : Array Char) (n : Nat) : (scanned text n).InText text := by
  rw [scanned_eq]
  exact (scanAt_inText (scanPos_le_size text n)).token

theorem fullStart_scanned (text : Array Char) (n : Nat) :
    (scanned text n).fullStart = scanPos text n := by
  rw [scanned_eq, fullStart_scanAt]

theorem scanPos_lt_succ {n : Nat} (h : (scanned text n).kind ≠ .endOfFile) :
    scanPos text n < scanPos text (n + 1) := by
  rw [scanPos_succ, ← fullStart_scanned]
  exact (inText_scanned text n).fullStart_lt_stop h

end Scanner

open Scanner

/-- The token at the end of the file has no room. -/
theorem start_eq_stop_of_endOfFile {pos : Nat} (h : (scanAt text pos).1.kind = .endOfFile) :
    (scanAt text pos).1.start = (scanAt text pos).1.stop := by
  unfold scanAt at h ⊢
  dsimp only at h ⊢
  split at h
  · rename_i c hc
    exact absurd h (lexemeAt_within hc).kind_ne
  · simp

theorem scanTokensFrom_succ (text : Array Char) (count n : Nat) :
    (scanTokensFrom text (count + 1) (scanPos text n)).map Prod.fst
      = if (scanned text n).kind = .endOfFile then [scanned text n]
        else scanned text n :: (scanTokensFrom text count (scanPos text (n + 1))).map Prod.fst := by
  rw [scanPos_succ, scanned_eq, scanTokensFrom]
  by_cases hend : (scanAt text (scanPos text n)).1.kind = .endOfFile <;> simp [hend]

/-- From the scan with the given number on, the tokens are listed up to the one at the end of the file,
if more of them are asked for than there are characters left. -/
theorem scanTokensFrom_eq (count n : Nat) (hcount : text.size - scanPos text n < count) :
    ∃ last, n ≤ last ∧ last ≤ n + (text.size - scanPos text n)
      ∧ (∀ m, n ≤ m → m < last → (scanned text m).kind ≠ .endOfFile)
      ∧ (scanned text last).kind = .endOfFile
      ∧ (scanTokensFrom text count (scanPos text n)).map Prod.fst
        = (List.range' n (last - n + 1)).map (scanned text) := by
  induction count generalizing n with
  | zero => exact absurd hcount (Nat.not_lt_zero _)
  | succ count ih =>
    rw [scanTokensFrom_succ]
    by_cases hend : (scanned text n).kind = .endOfFile
    · refine ⟨n, Nat.le_refl n, Nat.le_add_right _ _, ?_, hend, ?_⟩
      · intro m hle hlt
        exact absurd hle (Nat.not_le_of_lt hlt)
      · simp [hend]
    · have hroom := scanPos_lt_succ hend
      have hsize := scanPos_le_size text (n + 1)
      obtain ⟨last, hle, hmax, hbefore, hlast, hlist⟩ := ih (n + 1) (by omega)
      refine ⟨last, by omega, by omega, ?_, hlast, ?_⟩
      · intro m hm hlt
        rcases Nat.eq_or_lt_of_le hm with rfl | hm
        · exact hend
        · exact hbefore m hm hlt
      · have hcount : last - n = last - (n + 1) + 1 := by omega
        rw [if_neg hend, hlist, hcount]
        simp [List.range'_succ]

/-- The tokens of a text that stand before its end. -/
theorem tokenize_eq {last : Nat} (hbefore : ∀ m < last, (scanned text m).kind ≠ .endOfFile)
    (hlast : (scanned text last).kind = .endOfFile)
    (hlist : (scanTokens text).map Prod.fst = (List.range (last + 1)).map (scanned text)) :
    tokenize text = (List.range last).map (scanned text) := by
  have hfilter : tokenize text = ((scanTokens text).map Prod.fst).filter
      fun t => t.kind != .endOfFile := by
    unfold tokenize
    induction scanTokens text with
    | nil => rfl
    | cons s rest ih =>
      simp only [beq_iff_eq] at ih
      by_cases hend : s.1.kind = .endOfFile <;> simp [hend, ih]
  rw [hfilter, hlist, List.range_succ, List.map_append, List.filter_append]
  have hall : ((List.range last).map (scanned text)).filter (fun t => t.kind != .endOfFile)
      = (List.range last).map (scanned text) := by
    apply List.filter_eq_self.mpr
    intro t ht
    obtain ⟨m, hm, rfl⟩ := List.mem_map.mp ht
    simpa using hbefore m (List.mem_range.mp hm)
  simp [hall, hlast]

/-- Scanned one after the other, tokens tile the text up to the end of the file, and that is reached
after no more scans than there are characters, and one. -/
theorem scanned_tile (text : Array Char) :
    (scanned text 0).fullStart = 0
      ∧ (∀ n, (scanned text n).InText text
        ∧ (scanned text (n + 1)).fullStart = (scanned text n).stop)
      ∧ ∃ last ≤ text.size, (∀ m < last, (scanned text m).kind ≠ .endOfFile)
        ∧ (scanned text last).kind = .endOfFile
        ∧ (scanned text last).start = text.size ∧ (scanned text last).stop = text.size
        ∧ tokenize text = (List.range last).map (scanned text) := by
  refine ⟨fullStart_scanned text 0, ?_, ?_⟩
  · intro n
    exact ⟨inText_scanned text n, fullStart_scanned text (n + 1)⟩
  · have hcount : text.size - scanPos text 0 < text.size + 1 := Nat.lt_succ_of_le (Nat.sub_le _ _)
    obtain ⟨last, -, hmax, hbefore, hlast, hlist⟩ := scanTokensFrom_eq (text.size + 1) 0 hcount
    have hbefore : ∀ m < last, (scanned text m).kind ≠ .endOfFile := by
      intro m hm
      exact hbefore m (Nat.zero_le m) hm
    have hstop : (scanned text last).stop = text.size := (inText_scanned text last).atEnd hlast
    have hstart : (scanned text last).start = (scanned text last).stop := by
      rw [scanned_eq] at hlast ⊢
      exact start_eq_stop_of_endOfFile hlast
    refine ⟨last, ?_, hbefore, hlast, hstart.trans hstop, hstop, ?_⟩
    · simpa [scanPos, afterScans, ofText, Token.before] using hmax
    · apply tokenize_eq hbefore hlast
      rw [List.range_eq_range']
      exact hlist

end ScriptSyntax
