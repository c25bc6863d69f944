/-
  ScriptSyntax/Proofs/Diagnostic/Template.lean
  ============================================
  Filling the places of a template.

  Arguments are filled in one after the other: each takes the place of its number in the text made so
  far.  To fill them in at once is to look at the places of the template only.  Both come to the same
  as long as the arguments filled in make no place for a later one.
-/
import Mathlib.Data.List.Basic
import Mathlib.Data.List.Find
import Mathlib.Tactic.LinearCombination
import Mathlib.Tactic.Zify
import ScriptSyntax.Diagnostic.Message

namespace ScriptSyntax

/-! ## 1. Filling at once -/

/-- A word and what takes its place. -/
structure Filling where
  word : List Char
  value : List Char
  deriving DecidableEq, Repr

/-- The first of the fillings whose word the text starts with. -/
def fillingAt? (fillings : List Filling) (text : List Char) : Option Filling :=
  fillings.find? fun f => f.word.isPrefixOf text

/-- Fills a text, the first `skip` characters of which belong to a word that has been filled. -/
def fillFrom (fillings : List Filling) : Nat → List Char → List Char
  | _, [] => []
  | skip + 1, _ :: cs => fillFrom fillings skip cs
  | 0, c :: cs =>
    match fillingAt? fillings (c :: cs) with
    | some f => f.value ++ fillFrom fillings (f.word.length - 1) cs
    | none => c :: fillFrom fillings 0 cs

/-- Each argument takes the place of its number. -/
def argumentFillings (args : List String) : List Filling :=
  args.zipIdx.map fun arg => ⟨(placeholder arg.2).toList, arg.1.toList⟩

/-- Fills all places of a template at once, whatever stands in the arguments. -/
def fillAtOnce (template : String) (args : List String) : String :=
  String.ofList (fillFrom (argumentFillings args) 0 template.toList)

/-- How often a word stands in a text. -/
def occurrencesIn (word : List Char) : List Char → Nat
  | [] => 0
  | c :: cs => (if word.isPrefixOf (c :: cs) then 1 else 0) + occurrencesIn word cs

def occurrences (word text : String) : Nat := occurrencesIn word.toList text.toList

/-! ## 2. Marks -/

variable {w w' v y z text : List Char} {fillings : List Filling} {c : Char} {skip : Nat}

/-- A mark stands in braces and has no other braces. -/
def IsMark (w : List Char) : Prop := ∃ inside, w = '{' :: (inside ++ ['}']) ∧ '{' ∉ inside ∧ '}' ∉ inside

theorem IsMark.ne_nil (h : IsMark w) : w ≠ [] := by
  obtain ⟨inside, rfl, -⟩ := h
  exact List.cons_ne_nil _ _

/-- After its first character a mark has no opening brace. -/
theorem IsMark.notMem_of_append (h : IsMark w) (hw : w = v ++ z) (hv : v ≠ []) : '{' ∉ z := by
  obtain ⟨inside, hinside, hopen, -⟩ := h
  cases v with
  | nil => exact absurd rfl hv
  | cons c v =>
    have htail : inside ++ ['}'] = v ++ z := List.tail_eq_of_cons_eq (hinside.symm.trans hw)
    intro hz
    have hmem : '{' ∈ inside ++ ['}'] := htail ▸ List.mem_append_right v hz
    rcases List.mem_append.mp hmem with hmem | hmem
    · exact hopen hmem
    · exact absurd (List.mem_singleton.mp hmem) (by decide)

/-- Where a mark stands no other one does. -/
theorem IsMark.eq_of_isPrefix (h : IsMark w) (h' : IsMark w') (hw : w <+: text) (hw' : w' <+: text) :
    w = w' := by
  have hshort {w w' : List Char} (h : IsMark w) (h' : IsMark w') (hle : w <+: w') : w = w' := by
    obtain ⟨inside, rfl, -, -⟩ := h
    obtain ⟨inside', rfl, -, hclose⟩ := h'
    obtain ⟨rest, hrest⟩ := hle
    have hinside : inside' ++ '}' :: [] = inside ++ '}' :: rest := by simpa using hrest.symm
    rw [((List.append_cons_inj_of_notMem hclose List.not_mem_nil).mp hinside).1]
  rcases List.prefix_or_prefix_of_prefix hw hw' with hle | hle
  · exact hshort h h' hle
  · exact (hshort h' h hle).symm

/-- A mark that starts before another one ends before it. -/
theorem IsMark.isPrefix_append_iff (h : IsMark w) (h' : IsMark w') (hv : v ≠ []) :
    w <+: v ++ (w' ++ y) ↔ w <+: v := by
  constructor
  · intro hw
    rcases List.prefix_or_prefix_of_prefix hw (List.prefix_append v _) with hle | ⟨z, rfl⟩
    · exact hle
    · obtain ⟨inside, rfl, -⟩ := h'
      have hopen := h.notMem_of_append rfl hv
      rw [List.prefix_append_right_inj] at hw
      cases z with
      | nil => exact (List.append_nil v).symm ▸ List.prefix_rfl
      | cons c z =>
        obtain ⟨rest, hrest⟩ := hw
        obtain rfl : c = '{' := List.head_eq_of_cons_eq hrest
        exact absurd List.mem_cons_self hopen
  · exact fun hw => hw.trans (List.prefix_append v _)

/-! ## 3. Texts with marks -/

theorem isPrefixOf_append (h : IsMark w) (h' : IsMark w') (c : Char) (v y : List Char) :
    w.isPrefixOf (c :: (v ++ (w' ++ y))) = w.isPrefixOf (c :: v) := by
  have hiff := h.isPrefix_append_iff (y := y) h' (List.cons_ne_nil c v)
  rwa [← List.isPrefixOf_iff_prefix, ← List.isPrefixOf_iff_prefix, ← Bool.eq_iff_iff] at hiff

/-- No mark starts at a character that is no opening brace. -/
theorem isPrefixOf_of_ne (h : IsMark w) (hc : c ≠ '{') (cs : List Char) : w.isPrefixOf (c :: cs) = false := by
  obtain ⟨inside, rfl, -⟩ := h
  simp [List.isPrefixOf, hc.symm]

theorem occurrencesIn_append (h : IsMark w) (h' : IsMark w') (v y : List Char) :
    occurrencesIn w (v ++ (w' ++ y)) = occurrencesIn w v + occurrencesIn w (w' ++ y) := by
  induction v with
  | nil => simp [occurrencesIn]
  | cons c v ih =>
    rw [List.cons_append, occurrencesIn, isPrefixOf_append h h', ih, occurrencesIn, Nat.add_assoc]

theorem occurrencesIn_of_notMem (h : IsMark w) (hz : '{' ∉ z) (y : List Char) :
    occurrencesIn w (z ++ y) = occurrencesIn w y := by
  induction z with
  | nil => rfl
  | cons c z ih =>
    have hc := List.ne_of_not_mem_cons hz
    have hz := List.not_mem_of_not_mem_cons hz
    rw [List.cons_append, occurrencesIn, isPrefixOf_of_ne h hc.symm, ih hz]
    exact Nat.zero_add _

/-- A mark is one more. -/
theorem occurrencesIn_mark (h : IsMark w) (v y : List Char) :
    occurrencesIn w (v ++ (w ++ y)) = occurrencesIn w v + (1 + occurrencesIn w y) := by
  rw [occurrencesIn_append h h]
  have hprefix : w.isPrefixOf (w ++ y) = true := List.isPrefixOf_iff_prefix.mpr (List.prefix_append w y)
  obtain ⟨inside, hw, hopen, -⟩ := id h
  have hrest : '{' ∉ inside ++ ['}'] := h.notMem_of_append (v := ['{']) hw (List.cons_ne_nil _ _)
  have hcons : w ++ y = '{' :: (inside ++ ['}'] ++ y) := by rw [hw, List.cons_append]
  rw [hcons] at hprefix ⊢
  rw [occurrencesIn, if_pos hprefix, occurrencesIn_of_notMem h hrest]

/-- A text either lacks a mark, or has it somewhere for the first time. -/
theorem lacks_or_first (h : IsMark w) (text : List Char) :
    occurrencesIn w text = 0 ∨ ∃ v y, text = v ++ (w ++ y) ∧ occurrencesIn w v = 0 := by
  induction text with
  | nil => exact .inl rfl
  | cons c cs ih =>
    by_cases hw : w.isPrefixOf (c :: cs) = true
    · obtain ⟨y, hy⟩ := List.isPrefixOf_iff_prefix.mp hw
      exact .inr ⟨[], y, hy.symm, rfl⟩
    · rcases ih with hzero | ⟨v, y, rfl, hv⟩
      · exact .inl (by rw [occurrencesIn, if_neg hw, hzero])
      · rw [isPrefixOf_append h h] at hw
        exact .inr ⟨c :: v, y, rfl, by rw [occurrencesIn, if_neg hw, hv]⟩

/-- What holds of texts that lack a mark, and of a text with the mark put before it and a text that lacks
it before that, holds of all texts. -/
theorem occurrences_induction {motive : List Char → Prop} (h : IsMark w)
    (lacks : ∀ v, occurrencesIn w v = 0 → motive v)
    (first : ∀ v y, occurrencesIn w v = 0 → motive y → motive (v ++ (w ++ y))) (text : List Char) :
    motive text := by
  rcases lacks_or_first h text with hzero | ⟨v, y, rfl, hv⟩
  · exact lacks text hzero
  · exact first v y hv (occurrences_induction h lacks first y)
termination_by text.length
decreasing_by
  have hw := List.length_pos_iff.mpr h.ne_nil
  simp only [*, List.length_append]
  omega

/-! ## 4. Filling marks -/

/-- All words are marks. -/
def AreMarks (fillings : List Filling) : Prop := ∀ f ∈ fillings, IsMark f.word

theorem of_fillingAt?_eq_some {f : Filling} (h : fillingAt? fillings text = some f) :
    f ∈ fillings ∧ f.word <+: text := by
  have hword : f.word.isPrefixOf text = true := by simpa using List.find?_some h
  exact ⟨List.mem_of_find?_eq_some h, List.isPrefixOf_iff_prefix.mp hword⟩

theorem fillingAt?_concat (fillings : List Filling) (f : Filling) (text : List Char) :
    fillingAt? (fillings ++ [f]) text
      = (fillingAt? fillings text).or (if f.word.isPrefixOf text then some f else none) := by
  rw [fillingAt?, List.find?_append, List.find?_singleton]
  rfl

/-- At a mark no other mark is filled. -/
theorem fillingAt?_mark (h : AreMarks fillings) (hw : IsMark w) (hnew : ∀ f ∈ fillings, f.word ≠ w)
    (y : List Char) : fillingAt? fillings (w ++ y) = none := by
  cases hfound : fillingAt? fillings (w ++ y) with
  | none => rfl
  | some f =>
    obtain ⟨hf, hword⟩ := of_fillingAt?_eq_some hfound
    exact absurd ((h f hf).eq_of_isPrefix hw hword (List.prefix_append w y)) (hnew f hf)

/-- Behind a word the text is filled as if it started there. -/
theorem fillFrom_length (fillings : List Filling) (z y : List Char) :
    fillFrom fillings z.length (z ++ y) = fillFrom fillings 0 y := by
  induction z with
  | nil => rfl
  | cons c z ih => rwa [List.length_cons, List.cons_append, fillFrom]

/-- Up to a mark the text is filled as if it ended there. -/
theorem fillFrom_append (h : AreMarks fillings) (hw : IsMark w) (hskip : skip ≤ v.length) (y : List Char) :
    fillFrom fillings skip (v ++ (w ++ y)) = fillFrom fillings skip v ++ fillFrom fillings 0 (w ++ y) := by
  induction v generalizing skip with
  | nil =>
    obtain rfl : skip = 0 := Nat.le_zero.mp hskip
    rfl
  | cons c v ih =>
    cases skip with
    | succ skip =>
      rw [List.cons_append, fillFrom, ih (Nat.le_of_succ_le_succ hskip), fillFrom]
    | zero =>
      have hsame : fillingAt? fillings (c :: (v ++ (w ++ y))) = fillingAt? fillings (c :: v) :=
        List.find?_congr fun f hf => isPrefixOf_append (h f hf) hw c v y
      rw [List.cons_append, fillFrom, fillFrom, hsame]
      cases hfound : fillingAt? fillings (c :: v) with
      | none => exact congrArg (c :: ·) (ih (Nat.zero_le _))
      | some f =>
        have hle : f.word.length - 1 ≤ v.length :=
          Nat.sub_le_of_le_add (of_fillingAt?_eq_some hfound).2.length_le
        show f.value ++ _ = f.value ++ _ ++ _
        rw [ih hle, List.append_assoc]

/-- Where no mark can start the text is left as it is. -/
theorem fillFrom_of_notMem (h : AreMarks fillings) (hz : '{' ∉ z) (y : List Char) :
    fillFrom fillings 0 (z ++ y) = z ++ fillFrom fillings 0 y := by
  induction z with
  | nil => rfl
  | cons c z ih =>
    have hc := List.ne_of_not_mem_cons hz
    have hnone : fillingAt? fillings (c :: (z ++ y)) = none := by
      refine List.find?_eq_none.mpr fun f hf => ?_
      rw [isPrefixOf_of_ne (h f hf) hc.symm]
      exact Bool.false_ne_true
    rw [List.cons_append, fillFrom, hnone, List.cons_append]
    exact congrArg (c :: ·) (ih (List.not_mem_of_not_mem_cons hz))

/-- A mark that is no word of the fillings stays where it is. -/
theorem fillFrom_other (h : AreMarks fillings) (hw : IsMark w) (hnew : ∀ f ∈ fillings, f.word ≠ w)
    (y : List Char) : fillFrom fillings 0 (w ++ y) = w ++ fillFrom fillings 0 y := by
  have hnone := fillingAt?_mark h hw hnew y
  obtain ⟨inside, rfl, -⟩ := id hw
  have hrest := hw.notMem_of_append (v := ['{']) rfl (List.cons_ne_nil _ _)
  rw [List.cons_append] at hnone
  rw [List.cons_append, fillFrom, hnone]
  exact congrArg ('{' :: ·) (fillFrom_of_notMem h hrest y)

/-- A mark that is the word of the last filling only is filled by it. -/
theorem fillFrom_last {f : Filling} (h : AreMarks fillings) (hf : IsMark f.word)
    (hnew : ∀ g ∈ fillings, g.word ≠ f.word) (y : List Char) :
    fillFrom (fillings ++ [f]) 0 (f.word ++ y) = f.value ++ fillFrom (fillings ++ [f]) 0 y := by
  have hword : f.word.isPrefixOf (f.word ++ y) = true :=
    List.isPrefixOf_iff_prefix.mpr (List.prefix_append _ y)
  have hfound : fillingAt? (fillings ++ [f]) (f.word ++ y) = some f := by
    rw [fillingAt?_concat, fillingAt?_mark h hf hnew, Option.none_or, if_pos hword]
  obtain ⟨inside, hinside, -⟩ := id hf
  have hlength : f.word.length - 1 = (inside ++ ['}']).length := by simp [hinside]
  have hcons : f.word ++ y = '{' :: (inside ++ ['}'] ++ y) := by rw [hinside, List.cons_append]
  rw [hcons] at hfound ⊢
  rw [fillFrom, hfound]
  show f.value ++ fillFrom _ (f.word.length - 1) _ = _
  rw [hlength, fillFrom_length]

/-- A filling whose word the text lacks makes no difference to it. -/
theorem fillFrom_lacks {f : Filling} (hv : occurrencesIn f.word v = 0) (skip : Nat) :
    fillFrom (fillings ++ [f]) skip v = fillFrom fillings skip v := by
  induction v generalizing skip with
  | nil => simp [fillFrom]
  | cons c v ih =>
    obtain ⟨hhere, hrest⟩ := Nat.add_eq_zero_iff.mp hv
    have hword : ¬f.word.isPrefixOf (c :: v) = true := fun hword => by simp [hword] at hhere
    cases skip with
    | succ skip => rw [fillFrom, fillFrom, ih hrest]
    | zero =>
      rw [fillFrom, fillFrom, fillingAt?_concat, if_neg hword, Option.or_none]
      cases fillingAt? fillings (c :: v) with
      | none => exact congrArg (c :: ·) (ih hrest 0)
      | some g => exact congrArg (g.value ++ ·) (ih hrest _)

/-- To replace a word is to fill it in alone. -/
theorem replaceFrom_eq (word replacement : List Char) (skip : Nat) (text : List Char) :
    replaceFrom word replacement skip text = fillFrom [⟨word, replacement⟩] skip text := by
  induction text generalizing skip with
  | nil => simp [replaceFrom, fillFrom]
  | cons c cs ih =>
    cases skip with
    | succ skip => rw [replaceFrom, fillFrom, ih]
    | zero =>
      rw [replaceFrom, fillFrom, fillingAt?, List.find?_singleton]
      by_cases hword : word.isPrefixOf (c :: cs) = true
      · rw [if_pos hword, if_pos hword, ih]
      · rw [if_neg hword, if_neg hword, ih]

/-! ## 5. One more filling -/

/-- Fillings of marks, and one of a mark that is new to them. -/
structure NextFilling (fillings : List Filling) (f : Filling) : Prop where
  marks : AreMarks fillings
  mark : IsMark f.word
  new : ∀ g ∈ fillings, g.word ≠ f.word

namespace NextFilling

variable {f : Filling}

theorem all (h : NextFilling fillings f) : AreMarks (fillings ++ [f]) :=
  List.forall_mem_append.mpr ⟨h.marks, List.forall_mem_singleton.mpr h.mark⟩

/-- The mark stays where it is as long as it is not filled. -/
theorem fillFrom_before (h : NextFilling fillings f) (v y : List Char) :
    fillFrom fillings 0 (v ++ (f.word ++ y))
      = fillFrom fillings 0 v ++ (f.word ++ fillFrom fillings 0 y) := by
  rw [fillFrom_append h.marks h.mark (Nat.zero_le _), fillFrom_other h.marks h.mark h.new]

theorem fillFrom_with (h : NextFilling fillings f) (v y : List Char) :
    fillFrom (fillings ++ [f]) 0 (v ++ (f.word ++ y))
      = fillFrom (fillings ++ [f]) 0 v ++ (f.value ++ fillFrom (fillings ++ [f]) 0 y) := by
  rw [fillFrom_append h.all h.mark (Nat.zero_le _), fillFrom_last h.marks h.mark h.new]

/-- Each time that the mark stands in a text, its value comes in place of it. -/
theorem length_fillFrom (h : NextFilling fillings f) (text : List Char) :
    (fillFrom (fillings ++ [f]) 0 text).length + occurrencesIn f.word text * f.word.length
      = (fillFrom fillings 0 text).length + occurrencesIn f.word text * f.value.length := by
  induction text using occurrences_induction h.mark with
  | lacks v hv => rw [fillFrom_lacks hv, hv, Nat.zero_mul, Nat.zero_mul]
  | first v y hv ih =>
    rw [h.fillFrom_with, h.fillFrom_before, occurrencesIn_mark h.mark, fillFrom_lacks hv, hv]
    simp only [List.length_append, Nat.zero_add, Nat.add_mul, Nat.one_mul]
    omega

/-- The other fillings leave the mark wherever it stands. -/
theorem occurrencesIn_le (h : NextFilling fillings f) (text : List Char) :
    occurrencesIn f.word text ≤ occurrencesIn f.word (fillFrom fillings 0 text) := by
  induction text using occurrences_induction h.mark with
  | lacks v hv =>
    rw [hv]
    exact Nat.zero_le _
  | first v y hv ih =>
    rw [h.fillFrom_before, occurrencesIn_mark h.mark, occurrencesIn_mark h.mark, hv]
    omega

/-- A filling that leaves its mark as it is makes no difference. -/
theorem fillFrom_of_value_eq (h : NextFilling fillings f) (hvalue : f.value = f.word) (text : List Char) :
    fillFrom (fillings ++ [f]) 0 text = fillFrom fillings 0 text := by
  induction text using occurrences_induction h.mark with
  | lacks v hv => exact fillFrom_lacks hv 0
  | first v y hv ih => rw [h.fillFrom_with, h.fillFrom_before, fillFrom_lacks hv, ih, hvalue]

end NextFilling

/-! ## 6. One filling alone -/

section

variable {f : Filling}

theorem nextFilling_alone (h : IsMark f.word) : NextFilling [] f where
  marks := List.forall_mem_nil _
  mark := h
  new := List.forall_mem_nil _

theorem fillFrom_nil (text : List Char) : fillFrom [] 0 text = text := by
  induction text with
  | nil => rfl
  | cons c cs ih => exact congrArg (c :: ·) ih

theorem fillFrom_alone (h : IsMark f.word) (v y : List Char) :
    fillFrom [f] 0 (v ++ (f.word ++ y)) = fillFrom [f] 0 v ++ (f.value ++ fillFrom [f] 0 y) :=
  (nextFilling_alone h).fillFrom_with v y

theorem fillFrom_alone_lacks (hv : occurrencesIn f.word v = 0) : fillFrom [f] 0 v = v := by
  have hnone : fillFrom ([] ++ [f]) 0 v = fillFrom [] 0 v := fillFrom_lacks hv 0
  exact hnone.trans (fillFrom_nil v)

theorem length_fillFrom_alone (h : IsMark f.word) (text : List Char) :
    (fillFrom [f] 0 text).length + occurrencesIn f.word text * f.word.length
      = text.length + occurrencesIn f.word text * f.value.length := by
  have hlength := (nextFilling_alone h).length_fillFrom text
  rwa [fillFrom_nil] at hlength

/-- A text that is left as it is lacks the mark, if the value is another word of its length. -/
theorem occurrencesIn_eq_zero (h : IsMark f.word) (hlength : f.value.length = f.word.length)
    (hvalue : f.value ≠ f.word) (htext : fillFrom [f] 0 text = text) : occurrencesIn f.word text = 0 := by
  rcases lacks_or_first h text with hzero | ⟨v, y, rfl, hv⟩
  · exact hzero
  · rw [fillFrom_alone h, fillFrom_alone_lacks hv, List.append_cancel_left_eq] at htext
    exact absurd (List.append_inj htext hlength).1 hvalue

end

namespace NextFilling

variable {f : Filling}

/-- If the other fillings bring about no more marks, the last filling does the same after them as with
them. -/
theorem fillFrom_fillFrom (h : NextFilling fillings f) (text : List Char)
    (hsame : occurrencesIn f.word (fillFrom fillings 0 text) = occurrencesIn f.word text) :
    fillFrom [f] 0 (fillFrom fillings 0 text) = fillFrom (fillings ++ [f]) 0 text := by
  induction text using occurrences_induction h.mark with
  | lacks v hv => rw [fillFrom_alone_lacks (hsame.trans hv), fillFrom_lacks hv]
  | first v y hv ih =>
    have hle := h.occurrencesIn_le y
    rw [h.fillFrom_before, occurrencesIn_mark h.mark, occurrencesIn_mark h.mark, hv] at hsame
    rw [h.fillFrom_before, h.fillFrom_with, fillFrom_lacks hv, fillFrom_alone h.mark,
      fillFrom_alone_lacks (by omega), ih (by omega)]

/-- A last filling of the length of its mark tells every new mark from an old one. -/
theorem occurrencesIn_eq (h : NextFilling fillings f) (hlength : f.value.length = f.word.length)
    (hvalue : f.value ≠ f.word) (text : List Char)
    (hfill : fillFrom [f] 0 (fillFrom fillings 0 text) = fillFrom (fillings ++ [f]) 0 text) :
    occurrencesIn f.word (fillFrom fillings 0 text) = occurrencesIn f.word text := by
  induction text using occurrences_induction h.mark with
  | lacks v hv =>
    rw [fillFrom_lacks hv] at hfill
    rw [hv, occurrencesIn_eq_zero h.mark hlength hvalue hfill]
  | first v y hv ih =>
    have hkeeps := length_fillFrom_alone h.mark (fillFrom fillings 0 v)
    rw [hlength] at hkeeps
    rw [h.fillFrom_before, h.fillFrom_with, fillFrom_lacks hv, fillFrom_alone h.mark] at hfill
    obtain ⟨hbefore, hrest⟩ := List.append_inj hfill (Nat.add_right_cancel hkeeps)
    rw [h.fillFrom_before, occurrencesIn_mark h.mark, occurrencesIn_mark h.mark, hv,
      occurrencesIn_eq_zero h.mark hlength hvalue hbefore, ih (List.append_cancel_left hrest)]

/-- The last filling does the same after the others as with them just if they bring about no more marks
for it, or it leaves its mark as it is. -/
theorem fillFrom_fillFrom_iff (h : NextFilling fillings f) (text : List Char) :
    fillFrom [f] 0 (fillFrom fillings 0 text) = fillFrom (fillings ++ [f]) 0 text
      ↔ f.value = f.word
        ∨ occurrencesIn f.word (fillFrom fillings 0 text) = occurrencesIn f.word text := by
  constructor
  · intro hfill
    by_cases hvalue : f.value = f.word
    · exact .inl hvalue
    right
    by_cases hlength : f.value.length = f.word.length
    · exact h.occurrencesIn_eq hlength hvalue text hfill
    · -- the lengths of the two texts tell how often each has put the value in place of the mark
      have hafter := length_fillFrom_alone h.mark (fillFrom fillings 0 text)
      have hwith := h.length_fillFrom text
      rw [hfill] at hafter
      zify at hafter hwith
      have hzero : ((occurrencesIn f.word (fillFrom fillings 0 text) : ℤ) - occurrencesIn f.word text)
          * (f.word.length - f.value.length) = 0 := by linear_combination hafter - hwith
      rcases mul_eq_zero.mp hzero with hcounts | hlengths
      · exact Int.ofNat_inj.mp (sub_eq_zero.mp hcounts)
      · exact absurd (Int.ofNat_inj.mp (sub_eq_zero.mp hlengths)).symm hlength
  · rintro (hvalue | hsame)
    · rw [h.fillFrom_of_value_eq hvalue]
      exact ((nextFilling_alone h.mark).fillFrom_of_value_eq hvalue _).trans (fillFrom_nil _)
    · exact h.fillFrom_fillFrom text hsame

end NextFilling

/-! ## 7. Arguments -/

theorem toList_placeholder (i : Nat) :
    (placeholder i).toList = '{' :: (Nat.toDigits 10 i ++ ['}']) := by
  simp [placeholder, Nat.toString_eq_repr]

theorem isMark_placeholder (i : Nat) : IsMark (placeholder i).toList := by
  have hdigit {c : Char} (hc : c.isDigit = false) : c ∉ Nat.toDigits 10 i := by
    intro hmem
    rw [Nat.isDigit_of_mem_toDigits (by decide) (by decide) hmem] at hc
    cases hc
  exact ⟨Nat.toDigits 10 i, toList_placeholder i, hdigit (by decide), hdigit (by decide)⟩

/-- Places of different numbers are different. -/
theorem placeholder_inj {i j : Nat} (h : placeholder i = placeholder j) : i = j := by
  have hlist := congrArg String.toList h
  rw [toList_placeholder, toList_placeholder] at hlist
  have hdigits := List.append_cancel_right (List.tail_eq_of_cons_eq hlist)
  rw [← Nat.ofDigitChars_ten_toDigits (n := i), hdigits, Nat.ofDigitChars_ten_toDigits]

theorem argumentFillings_concat (args : List String) (arg : String) :
    argumentFillings (args ++ [arg])
      = argumentFillings args ++ [⟨(placeholder args.length).toList, arg.toList⟩] := by
  simp [argumentFillings, List.zipIdx_append]

theorem fillTemplate_concat (template : String) (args : List String) (arg : String) :
    fillTemplate template (args ++ [arg])
      = replaceAll (placeholder args.length) arg (fillTemplate template args) := by
  simp [fillTemplate, List.zipIdx_append]

/-- The place of a further argument is none of those of the arguments before it. -/
theorem nextFilling_argument (args : List String) (arg : String) :
    NextFilling (argumentFillings args) ⟨(placeholder args.length).toList, arg.toList⟩ := by
  have hplace {f : Filling} (hf : f ∈ argumentFillings args) :
      ∃ i < args.length, f.word = (placeholder i).toList := by
    obtain ⟨⟨a, i⟩, hmem, rfl⟩ := List.mem_map.mp hf
    exact ⟨i, by simpa using (List.mem_zipIdx hmem).2.1, rfl⟩
  refine ⟨fun f hf => ?_, isMark_placeholder _, fun f hf heq => ?_⟩
  · obtain ⟨i, -, hword⟩ := hplace hf
    rw [hword]
    exact isMark_placeholder i
  · obtain ⟨i, hlt, hword⟩ := hplace hf
    have hsame := placeholder_inj (String.toList_inj.mp (hword.symm.trans heq))
    omega

/-- To replace the place of a further argument is to fill it in at once with those before it just if they
bring about no further place for it, or it is its own place. -/
theorem replaceAll_fillAtOnce_iff (template : String) (args : List String) (arg : String) :
    replaceAll (placeholder args.length) arg (fillAtOnce template args) = fillAtOnce template (args ++ [arg])
      ↔ arg = placeholder args.length
        ∨ occurrences (placeholder args.length) (fillAtOnce template args)
          = occurrences (placeholder args.length) template := by
  have hiff := (nextFilling_argument args arg).fillFrom_fillFrom_iff template.toList
  rw [← String.ofList_inj, String.toList_inj] at hiff
  simpa [replaceAll, replaceFrom_eq, fillAtOnce, occurrences, argumentFillings_concat] using hiff

/-- **One after the other, or at once.**  It makes no difference for the arguments, nor for any first ones
of them, whether they are filled in one after the other or at once, if and only if no argument meets a
place that the template does not have, brought about by those before it, unless it is its own place. -/
theorem fillTemplate_eq_fillAtOnce_iff (template : String) (args : List String) :
    (∀ k ≤ args.length, fillTemplate template (args.take k) = fillAtOnce template (args.take k))
      ↔ ∀ k (h : k < args.length), args[k] = placeholder k
        ∨ occurrences (placeholder k) (fillAtOnce template (args.take k))
          = occurrences (placeholder k) template := by
  have hconcat {k : Nat} (h : k < args.length) : args.take (k + 1) = args.take k ++ [args[k]] :=
    List.take_succ_eq_append_getElem h
  have hround {k : Nat} (h : k < args.length) :=
    replaceAll_fillAtOnce_iff template (args.take k) args[k]
  constructor
  · intro hall k hk
    have hfirst := hall k (Nat.le_of_lt hk)
    have hnext := hall (k + 1) hk
    rw [hconcat hk, fillTemplate_concat, hfirst] at hnext
    have hround := (hround hk).mp hnext
    rwa [List.length_take_of_le (Nat.le_of_lt hk)] at hround
  · intro hplaces k hk
    induction k with
    | zero =>
      show template = String.ofList (fillFrom [] 0 template.toList)
      rw [fillFrom_nil, String.ofList_toList]
    | succ k ih =>
      have hround := (hround hk).mpr
      rw [List.length_take_of_le (Nat.le_of_lt hk)] at hround
      rw [hconcat hk, fillTemplate_concat, List.length_take_of_le (Nat.le_of_lt hk),
        ih (Nat.le_of_lt hk), hround (hplaces k hk)]

/-- A place in an argument is filled by the next one. -/
example : fillTemplate "\x7b0\x7d" ["\x7b1\x7d", "x"] = "x"
    ∧ fillAtOnce "\x7b0\x7d" ["\x7b1\x7d", "x"] = "\x7b1\x7d" := by
  decide

end ScriptSyntax
