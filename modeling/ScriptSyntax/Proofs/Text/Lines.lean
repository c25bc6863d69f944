/-
  ScriptSyntax/Proofs/Text/Lines.lean
  ===================================
  Lines and the line breaks between them.

  A line map keeps where lines start and searches for the last one up to a position.  What it counts
  are line breaks: a line starts just where a line break ends, and the two characters of a carriage
  return with a line feed are one break.  So two positions lie on different lines exactly if a line
  break ends between them, and the column of a position counts from the last one before it.
-/
import Mathlib.Data.Nat.Count
import Mathlib.Data.Prod.Lex
import Mathlib.Order.Monotone.Basic
import ScriptSyntax.Text.LineMap
import ScriptSyntax.Text.Walk

namespace ScriptSyntax

variable {text : Array Char} {i pos a b s : Nat} {c : Char} {cs : List Char}

/-! ## 1. Where line breaks end -/

/-- A line break ends just before the position: the character there is a line terminator, and not a
carriage return that a line feed follows. -/
def BreakEnds (text : Array Char) (s : Nat) : Prop :=
  ∃ i c, s = i + 1 ∧ text[i]? = some c ∧ isLineBreak c = true ∧ ¬(c = '\r' ∧ text[s]? = some '\n')

instance (text : Array Char) : DecidablePred (BreakEnds text)
  | 0 => isFalse fun ⟨i, _, hzero, _⟩ => Nat.succ_ne_zero i hzero.symm
  | i + 1 => decidable_of_iff
      (text[i]?.any isLineBreak = true ∧ ¬(text[i]? = some '\r' ∧ text[i + 1]? = some '\n')) <| by
    cases hc : text[i]? <;> simp [BreakEnds, hc]

/-- A line break ends after the first position, and not after the second one. -/
def BreakBetween (text : Array Char) (a b : Nat) : Prop := ∃ s, a < s ∧ s ≤ b ∧ BreakEnds text s

theorem BreakBetween.mono {a' b' : Nat} (h : BreakBetween text a b) (ha : a' ≤ a) (hb : b ≤ b') :
    BreakBetween text a' b' := by
  obtain ⟨s, has, hsb, hs⟩ := h
  exact ⟨s, Nat.lt_of_le_of_lt ha has, Nat.le_trans hsb hb, hs⟩

theorem breakBetween_iff_or (hab : a ≤ s) (hbc : s ≤ b) :
    BreakBetween text a b ↔ BreakBetween text a s ∨ BreakBetween text s b := by
  constructor
  · rintro ⟨r, har, hrb, hr⟩
    by_cases hrs : r ≤ s
    · exact .inl ⟨r, har, hrs, hr⟩
    · exact .inr ⟨r, Nat.lt_of_not_le hrs, hrb, hr⟩
  · rintro (h | h)
    · exact h.mono (Nat.le_refl a) hbc
    · exact h.mono hab (Nat.le_refl b)

/-- A line break that ends between the positions has its last character there. -/
theorem BreakBetween.exists_isLineBreak (h : BreakBetween text a b) :
    ∃ k, a ≤ k ∧ k < b ∧ text[k]?.any isLineBreak = true := by
  obtain ⟨s, has, hsb, i, c, rfl, hc, hbreak, -⟩ := h
  refine ⟨i, Nat.le_of_lt_succ has, hsb, ?_⟩
  simp [hc, hbreak]

/-- A line terminator ends a line break, alone or with the line feed after it. -/
theorem breakBetween_of_isLineBreak (hc : text[pos]?.any isLineBreak = true)
    (hnext : hasCharAt text pos '\r' = true → hasCharAt text (pos + 1) '\n' = true → pos + 2 ≤ b)
    (hlt : pos < b) : BreakBetween text pos b := by
  obtain ⟨c, hc, hbreak⟩ : ∃ c, text[pos]? = some c ∧ isLineBreak c = true := by
    cases hat : text[pos]? with
    | none => simp [hat] at hc
    | some c => exact ⟨c, rfl, by simpa [hat] using hc⟩
  by_cases hfeed : c = '\r' ∧ text[pos + 1]? = some '\n'
  · have hb : pos + 2 ≤ b := by
      apply hnext
      · simp [hasCharAt, hc, hfeed.1]
      · simp [hasCharAt, hfeed.2]
    refine ⟨pos + 2, by omega, hb, pos + 1, '\n', rfl, hfeed.2, by decide, ?_⟩
    rintro ⟨hreturn, -⟩
    exact absurd hreturn (by decide)
  · exact ⟨pos + 1, Nat.lt_succ_self pos, hlt, pos, c, rfl, hc, hbreak, hfeed⟩

/-! ## 2. Searching -/

variable {row : Array Nat} {x lo hi k y : Nat}

/-- The index falls between the numbers of a row that are at most `x` and those that are greater. -/
structure SplitsAt (row : Array Nat) (x index : Nat) : Prop where
  le_size : index ≤ row.size
  upTo : ∀ k y, k < index → row[k]? = some y → y ≤ x
  behind : ∀ k y, index ≤ k → row[k]? = some y → x < y

/-- The index just behind the numbers that are at most the one that was searched for. -/
def SearchResult.split : SearchResult → Nat
  | .found index => index + 1
  | .missing index => index

theorem getElem?_lt_getElem? (hrow : row.toList.Pairwise (· < ·)) {i j y z : Nat} (hij : i < j)
    (hy : row[i]? = some y) (hz : row[j]? = some z) : y < z := by
  obtain ⟨hi, rfl⟩ := Array.getElem?_eq_some_iff.mp hy
  obtain ⟨hj, rfl⟩ := Array.getElem?_eq_some_iff.mp hz
  exact List.pairwise_iff_getElem.mp hrow i j hi hj hij

/-- A search that has all greater numbers behind its range, and all others before it, splits the row. -/
theorem splitsAt_searchBetween (hrow : row.toList.Pairwise (· < ·)) (h : hi ≤ row.size) (hle : lo ≤ hi)
    (hbefore : ∀ k y, k < lo → row[k]? = some y → y ≤ x)
    (hbehind : ∀ k y, hi ≤ k → row[k]? = some y → x < y) :
    SplitsAt row x (searchBetween row x lo hi h).split := by
  fun_induction searchBetween row x lo hi h with
  | case1 lo hi h hlt mid hmid heq =>
    have hat : row[mid]? = some x := heq ▸ Array.getElem?_eq_getElem hmid
    refine ⟨hmid, fun k y hk hy => ?_, fun k y hk hy => getElem?_lt_getElem? hrow hk hat hy⟩
    rcases Nat.eq_or_lt_of_le (Nat.le_of_lt_succ hk) with rfl | hk
    · exact Nat.le_of_eq (Option.some.inj (hy.symm.trans hat))
    · exact Nat.le_of_lt (getElem?_lt_getElem? hrow hk hy hat)
  | case2 lo hi h hlt mid hmid hne hless ih =>
    have hat : row[mid]? = some row[mid] := Array.getElem?_eq_getElem hmid
    have hmidhi : mid + 1 ≤ hi := by omega
    refine ih hmidhi (fun k y hk hy => ?_) hbehind
    rcases Nat.eq_or_lt_of_le (Nat.le_of_lt_succ hk) with rfl | hk
    · exact Option.some.inj (hat.symm.trans hy) ▸ Nat.le_of_lt hless
    · exact Nat.le_of_lt (Nat.lt_trans (getElem?_lt_getElem? hrow hk hy hat) hless)
  | case3 lo hi h hlt mid hmid hne hless ih =>
    have hat : row[mid]? = some row[mid] := Array.getElem?_eq_getElem hmid
    have hgreater : x < row[mid] := by omega
    have hlomid : lo ≤ mid := Nat.le_add_right lo _
    refine ih hlomid hbefore (fun k y hk hy => ?_)
    rcases Nat.eq_or_lt_of_le hk with rfl | hk
    · exact Option.some.inj (hat.symm.trans hy) ▸ hgreater
    · exact Nat.lt_trans hgreater (getElem?_lt_getElem? hrow hk hat hy)
  | case4 lo hi h hlt =>
    obtain rfl : lo = hi := Nat.le_antisymm hle (Nat.le_of_not_lt hlt)
    exact ⟨h, hbefore, hbehind⟩

/-- The index at which a row is split is the number of those that are at most `x`. -/
theorem SplitsAt.countP_eq {index : Nat} (h : SplitsAt row x index) :
    row.toList.countP (· ≤ x) = index := by
  have hbefore : (row.toList.take index).countP (· ≤ x) = (row.toList.take index).length := by
    refine List.countP_eq_length.mpr fun y hy => ?_
    obtain ⟨k, hk, rfl⟩ := List.mem_take_iff_getElem.mp hy
    have hsize : k < row.size := by simpa using (Nat.lt_min.mp hk).2
    simpa using h.upTo k row[k] (Nat.lt_min.mp hk).1 (Array.getElem?_eq_getElem hsize)
  have hbehind : (row.toList.drop index).countP (· ≤ x) = 0 := by
    refine List.countP_eq_zero.mpr fun y hy => ?_
    obtain ⟨k, hk, rfl⟩ := List.mem_drop_iff_getElem.mp hy
    have hsize : index + k < row.size := by simpa [Nat.add_comm] using hk
    simpa using h.behind (index + k) row[index + k] (Nat.le_add_right index k)
      (Array.getElem?_eq_getElem hsize)
  rw [← List.take_append_drop index row.toList, List.countP_append, hbefore, hbehind,
    List.length_take_of_le h.le_size, Nat.add_zero]

/-! ## 3. The map -/

namespace LineMap

/-- The lines after the first one start where line breaks end. -/
theorem mem_startsFrom : s ∈ startsFrom i cs ↔
    ∃ k c, s = i + k + 1 ∧ cs[k]? = some c ∧ isLineBreak c = true
      ∧ ¬(c = '\r' ∧ cs[k + 1]? = some '\n') := by
  fun_induction startsFrom i cs with
  | case1 i => simp
  | case2 i cs ih =>
    rw [List.mem_cons, ih]
    constructor
    · rintro (rfl | ⟨k, c, rfl, hc, hbreak, hfeed⟩)
      · exact ⟨1, '\n', rfl, rfl, by decide, by simp⟩
      · exact ⟨k + 2, c, by omega, hc, hbreak, hfeed⟩
    · rintro ⟨k, c, rfl, hc, hbreak, hfeed⟩
      match k with
      | 0 => exact absurd ⟨(Option.some.inj hc).symm, rfl⟩ hfeed
      | 1 => exact .inl rfl
      | k + 2 => exact .inr ⟨k, c, by omega, hc, hbreak, hfeed⟩
  | case3 i c cs hpair hbreak ih =>
    rw [List.mem_cons, ih]
    constructor
    · rintro (rfl | ⟨k, d, rfl, hd, hdbreak, hfeed⟩)
      · refine ⟨0, c, rfl, rfl, hbreak, ?_⟩
        rintro ⟨rfl, hnext⟩
        cases cs with
        | nil => cases hnext
        | cons d cs => exact hpair cs rfl (congrArg (· :: cs) (Option.some.inj hnext))
      · exact ⟨k + 1, d, by omega, hd, hdbreak, hfeed⟩
    · rintro ⟨k, d, rfl, hd, hdbreak, hfeed⟩
      cases k with
      | zero => exact .inl rfl
      | succ k => exact .inr ⟨k, d, by omega, hd, hdbreak, hfeed⟩
  | case4 i c cs hpair hbreak ih =>
    rw [ih]
    constructor
    · rintro ⟨k, d, rfl, hd, hdbreak, hfeed⟩
      exact ⟨k + 1, d, by omega, hd, hdbreak, hfeed⟩
    · rintro ⟨k, d, rfl, hd, hdbreak, hfeed⟩
      cases k with
      | zero =>
        cases hd
        exact absurd hdbreak hbreak
      | succ k => exact ⟨k, d, by omega, hd, hdbreak, hfeed⟩

theorem lt_of_mem_startsFrom (h : s ∈ startsFrom i cs) : i < s := by
  obtain ⟨k, c, rfl, -⟩ := mem_startsFrom.mp h
  omega

theorem pairwise_startsFrom (i : Nat) (cs : List Char) : (startsFrom i cs).Pairwise (· < ·) := by
  fun_induction startsFrom i cs with
  | case1 i => exact .nil
  | case2 i cs ih => exact .cons (fun _ => lt_of_mem_startsFrom) ih
  | case3 i c cs hpair hbreak ih => exact .cons (fun _ => lt_of_mem_startsFrom) ih
  | case4 i c cs hpair hbreak ih => exact ih

/-- The starts of all lines, the first one included. -/
theorem pairwise_starts (cs : List Char) : (ofChars cs).starts.toList.Pairwise (· < ·) :=
  .cons (fun _ => lt_of_mem_startsFrom) (pairwise_startsFrom 0 cs)

theorem splitsAt_search (cs : List Char) (pos : Nat) :
    SplitsAt (ofChars cs).starts pos ((ofChars cs).search pos).split := by
  refine splitsAt_searchBetween (pairwise_starts cs) (Nat.le_refl _) (Nat.zero_le _) ?_ ?_
  · intro k y hk
    exact absurd hk (Nat.not_lt_zero k)
  · intro k y hk hy
    exact absurd (Array.getElem?_eq_some_iff.mp hy).1 (Nat.not_lt_of_le hk)

/-- The line of a position is the one before the split, as the first line starts before all positions. -/
theorem split_search (cs : List Char) (pos : Nat) :
    ((ofChars cs).search pos).split = (ofChars cs).lineOf pos + 1 := by
  have hfirst : 0 < ((ofChars cs).search pos).split := by
    apply Nat.pos_of_ne_zero
    intro hzero
    exact Nat.not_lt_zero pos ((splitsAt_search cs pos).behind 0 0 (Nat.le_of_eq hzero) rfl)
  unfold lineOf
  split
  · rename_i line hline
    rw [hline]
    rfl
  · rename_i line hline
    rw [hline] at hfirst ⊢
    exact (Nat.sub_add_cancel hfirst).symm

/-- The line of a position is the number of lines that start up to it, the first one not counted. -/
theorem lineOf_eq_countP (cs : List Char) (pos : Nat) :
    (ofChars cs).lineOf pos = (startsFrom 0 cs).countP (· ≤ pos) := by
  have hcount := (splitsAt_search cs pos).countP_eq
  rw [split_search, ofChars, List.countP_cons_of_pos (by simp)] at hcount
  exact (Nat.succ.inj hcount).symm

theorem mem_startsFrom_zero : s ∈ startsFrom 0 text.toList ↔ BreakEnds text s := by
  rw [mem_startsFrom]
  constructor
  · rintro ⟨k, c, rfl, hc, hbreak, hfeed⟩
    refine ⟨k, c, by omega, by simpa using hc, hbreak, ?_⟩
    simpa using hfeed
  · rintro ⟨k, c, rfl, hc, hbreak, hfeed⟩
    refine ⟨k, c, by omega, by simpa using hc, hbreak, ?_⟩
    simpa using hfeed

theorem countP_add (h : a ≤ b) (starts : List Nat) :
    starts.countP (· ≤ b) = starts.countP (· ≤ a) + starts.countP (fun s => a < s ∧ s ≤ b) := by
  induction starts with
  | nil => rfl
  | cons s rest ih =>
    simp only [List.countP_cons, ih, decide_eq_true_eq]
    (repeat' split) <;> omega

/-- Two positions lie on different lines if a line break ends between them. -/
theorem lineOf_lt_lineOf_iff (h : a ≤ b) :
    (ofChars text.toList).lineOf a < (ofChars text.toList).lineOf b ↔ BreakBetween text a b := by
  rw [lineOf_eq_countP, lineOf_eq_countP, countP_add h, Nat.lt_add_right_iff_pos, List.countP_pos_iff]
  constructor
  · rintro ⟨s, hs, hbetween⟩
    rw [decide_eq_true_eq] at hbetween
    exact ⟨s, hbetween.1, hbetween.2, mem_startsFrom_zero.mp hs⟩
  · rintro ⟨s, has, hsb, hs⟩
    exact ⟨s, mem_startsFrom_zero.mpr hs, decide_eq_true ⟨has, hsb⟩⟩

/-! ## 4. Places -/

/-- The line of a position starts at a line break or with the text, and no line break ends between its
start and the position. -/
theorem exists_lineStart (text : Array Char) (pos : Nat) :
    ∃ start, (ofChars text.toList).starts[(ofChars text.toList).lineOf pos]? = some start
      ∧ start ≤ pos ∧ (start = 0 ∨ BreakEnds text start) ∧ ¬BreakBetween text start pos := by
  let m := ofChars text.toList
  have hsplits : SplitsAt m.starts pos (m.lineOf pos + 1) := by
    rw [← split_search]
    exact splitsAt_search text.toList pos
  have hlt : m.lineOf pos < m.starts.size := hsplits.le_size
  have hstart : m.starts[m.lineOf pos]? = some m.starts[m.lineOf pos] := Array.getElem?_eq_getElem hlt
  refine ⟨m.starts[m.lineOf pos], hstart, hsplits.upTo _ _ (Nat.lt_succ_self _) hstart, ?_, ?_⟩
  · have hmem : m.starts[m.lineOf pos] ∈ 0 :: startsFrom 0 text.toList :=
      List.mem_of_getElem? ((Array.getElem?_toList).trans hstart)
    exact (List.mem_cons.mp hmem).imp_right mem_startsFrom_zero.mp
  · rintro ⟨s, hlow, hhigh, hs⟩
    -- `s` starts a line that comes after the one of the position
    have hmem : s ∈ m.starts.toList := List.mem_cons_of_mem 0 (mem_startsFrom_zero.mpr hs)
    obtain ⟨k, hk⟩ := List.getElem?_of_mem hmem
    rw [Array.getElem?_toList] at hk
    have hafter : m.lineOf pos < k := by
      by_contra hle
      rcases Nat.eq_or_lt_of_le (Nat.le_of_not_lt hle) with rfl | hlt
      · exact absurd (Option.some.inj (hstart.symm.trans hk)) (Nat.ne_of_lt hlow)
      · have hless := getElem?_lt_getElem? (pairwise_starts text.toList) hlt hk hstart
        exact Nat.lt_asymm hlow hless
    exact absurd (hsplits.behind k s hafter hk) (Nat.not_lt_of_le hhigh)

/-- The column of a position is what lies between it and the start of its line. -/
theorem exists_locate (text : Array Char) (pos : Nat) :
    ∃ start, (ofChars text.toList).starts[((ofChars text.toList).locate pos).line]? = some start
      ∧ start + ((ofChars text.toList).locate pos).column = pos
      ∧ (start = 0 ∨ BreakEnds text start) ∧ ¬BreakBetween text start pos := by
  obtain ⟨start, hstart, hle, hbreak, hnone⟩ := exists_lineStart text pos
  refine ⟨start, hstart, ?_, hbreak, hnone⟩
  simp only [locate, hstart, Option.getD_some]
  exact Nat.add_sub_cancel' hle

/-- The line of a position is the number of line breaks that end up to it. -/
theorem lineOf_eq_count (text : Array Char) (pos : Nat) :
    (ofChars text.toList).lineOf pos = Nat.count (BreakEnds text) (pos + 1) := by
  rw [lineOf_eq_countP]
  induction pos with
  | zero =>
    have hnone : ¬BreakEnds text 0 := fun hzero => absurd (mem_startsFrom_zero.mpr hzero)
      (fun hmem => Nat.not_lt_zero 0 (lt_of_mem_startsFrom hmem))
    rw [Nat.count_succ, if_neg hnone, Nat.count_zero, List.countP_eq_zero]
    intro s hs
    simpa using Nat.ne_of_gt (lt_of_mem_startsFrom hs)
  | succ pos ih =>
    have hone : (startsFrom 0 text.toList).countP (fun s => pos < s ∧ s ≤ pos + 1)
        = (startsFrom 0 text.toList).count (pos + 1) := by
      refine List.countP_congr fun s _ => ?_
      simp only [decide_eq_true_eq, beq_iff_eq]
      omega
    have hnodup : (startsFrom 0 text.toList).Nodup := (pairwise_startsFrom 0 text.toList).imp Nat.ne_of_lt
    rw [Nat.count_succ, ← ih, countP_add (Nat.le_succ pos), hone, hnodup.count]
    simp only [mem_startsFrom_zero]

/-- A later position is on a later line, or further on the same line. -/
theorem strictMono_locate (text : Array Char) :
    StrictMono fun pos =>
      toLex (((ofChars text.toList).locate pos).line, ((ofChars text.toList).locate pos).column) := by
  intro p q hlt
  rw [Prod.Lex.toLex_lt_toLex]
  by_cases hbreak : BreakBetween text p q
  · exact .inl ((lineOf_lt_lineOf_iff (Nat.le_of_lt hlt)).mpr hbreak)
  · have hline : (ofChars text.toList).lineOf p = (ofChars text.toList).lineOf q := by
      refine Nat.le_antisymm ?_ (Nat.le_of_not_lt ((not_congr (lineOf_lt_lineOf_iff hlt.le)).mpr hbreak))
      rw [lineOf_eq_count, lineOf_eq_count]
      exact Nat.count_monotone _ (Nat.succ_le_succ hlt.le)
    obtain ⟨start, hp, hpcolumn, -⟩ := exists_locate text p
    obtain ⟨start', hq, hqcolumn, -⟩ := exists_locate text q
    obtain rfl : start = start' :=
      Option.some.inj (hp.symm.trans ((congrArg ((ofChars text.toList).starts[·]?) hline).trans hq))
    refine .inr ⟨hline, ?_⟩
    show ((ofChars text.toList).locate p).column < ((ofChars text.toList).locate q).column
    omega

/-- The line of a position is the number of line breaks that end at or before it, and its column is what
lies between it and the end of the last of them, or the start of the text if there is none. So the
position is the start of its line and the column, and later positions have greater lines and columns.
A position at which no line starts is found behind the start of the first one. -/
theorem locate_eq (text : Array Char) :
    (∀ pos, ((ofChars text.toList).locate pos).line = Nat.count (BreakEnds text) (pos + 1))
      ∧ (∀ pos, ∃ start, (ofChars text.toList).starts[((ofChars text.toList).locate pos).line]? = some start
        ∧ start + ((ofChars text.toList).locate pos).column = pos
        ∧ (start = 0 ∨ BreakEnds text start) ∧ ¬BreakBetween text start pos)
      ∧ (StrictMono fun pos =>
          toLex (((ofChars text.toList).locate pos).line, ((ofChars text.toList).locate pos).column))
      ∧ ∀ pos line, (ofChars text.toList).search pos = .missing line → 0 < line := by
  refine ⟨lineOf_eq_count text, exists_locate text, strictMono_locate text, fun pos line hline => ?_⟩
  have hsplit := split_search text.toList pos
  rw [hline] at hsplit
  exact Nat.lt_of_lt_of_eq (Nat.succ_pos _) hsplit.symm

end LineMap

end ScriptSyntax
