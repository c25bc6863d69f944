/-
  ScriptSyntax/Proofs/Token/TagName.lean
  ======================================
  Names of tags, how they are written and which tokens they are read as.

  The first word of a name may go on with hyphens, which plain scanning reads as
  operators.  So the word is read first, and then extended by what is right behind
  it.  Members follow after dots and are plain words.
-/
import Mathlib.Data.List.Basic
import ScriptSyntax.Proofs.Token.EscapedWord

namespace ScriptSyntax

variable {text : Array Char} {pos : Nat} {k : Kind} {t : Token} {c d : Char} {cs rest : List Char}

/-! ## 1. Words as they are written -/

/-- The word is read as `this` only if it is that. -/
theorem wordKind_eq_this_iff {word : String} : wordKind word = .keyword .thisKw ↔ word = "this" := by
  constructor
  · intro h
    have hfind : Keyword.ofText? word = some .thisKw := by
      unfold wordKind at h
      split at h
      · rename_i k hk
        cases h
        exact hk
      · cases h
    have htext : (Keyword.thisKw.text == word) = true := List.find?_some (p := fun k : Keyword => k.text == word) hfind
    exact (beq_iff_eq.mp htext).symm
  · rintro rfl
    decide

theorem isName_wordKind (word : String) : (wordKind word).isName = true := by
  unfold wordKind
  split <;> rfl

/-- A word, and how it is written: each of its characters may be an escape. Keywords are words too. -/
structure WrittenWord where
  word : String
  items : List WordItem
  isWord : isIdentifierText word = true
  spells : items.map WordItem.value = word.toList

namespace WrittenWord

def chars (w : WrittenWord) : List Char := w.items.flatMap WordItem.chars

/-- A word written as it is. -/
def verbatim (word : String) (h : isIdentifierText word = true) : WrittenWord where
  word
  items := word.toList.map .verbatim
  isWord := h
  spells := by
    rw [List.map_map]
    exact List.map_id _

/-- No character is written as an escape. -/
def IsVerbatim (w : WrittenWord) : Prop := ∀ item ∈ w.items, item.isEscaped = false

theorem isVerbatim_verbatim {word : String} (h : isIdentifierText word = true) : (verbatim word h).IsVerbatim := by
  intro item hitem
  obtain ⟨c, -, rfl⟩ := List.mem_map.mp hitem
  rfl

theorem IsVerbatim.chars_eq {w : WrittenWord} (h : w.IsVerbatim) : w.chars = w.word.toList := by
  rw [← w.spells, chars, List.map_eq_flatMap]
  refine List.flatMap_congr fun item hitem => ?_
  cases item with
  | verbatim c => rfl
  | escaped c form => cases h _ hitem

/-- A character that a written word may start with. -/
def Starts (c : Char) : Prop := isIdentifierStart c = true ∨ c = '\\'

theorem Starts.ne (h : Starts c) (hd : isIdentifierStart d = false) (hbackslash : d ≠ '\\') : c ≠ d := by
  rcases h with h | rfl
  · exact ne_of_isIdentifierStart h hd
  · exact Ne.symm hbackslash

theorem exists_cons (w : WrittenWord) : ∃ c cs, w.chars = c :: cs ∧ Starts c := by
  obtain ⟨c, cs, hlist, hstart, -⟩ := exists_cons_of_isIdentifierText w.isWord
  have hspells := w.spells
  unfold chars
  cases hitems : w.items with
  | nil =>
    rw [hitems, hlist] at hspells
    cases hspells
  | cons item items =>
    rw [hitems, hlist] at hspells
    obtain rfl : item.value = c := (List.cons.inj hspells).1
    rw [List.flatMap_cons]
    cases item with
    | verbatim c => exact ⟨c, _, rfl, .inl hstart⟩
    | escaped c form =>
      obtain ⟨more, hmore⟩ := form.exists_cons
      exact ⟨'\\', more ++ _, congrArg (· ++ _) hmore, .inr rfl⟩

/-- No word has a dot in it. -/
theorem dot_notMem (w : WrittenWord) : '.' ∉ w.word.toList := by
  obtain ⟨-, -, -, -, hall⟩ := exists_cons_of_isIdentifierText w.isWord
  intro hmem
  have hdot := hall _ hmem
  revert hdot
  decide

end WrittenWord

/-! ## 2. Names of tags -/

/-- A name of a tag: a word that may be extended, and the names of members. What extends the word starts with
a hyphen, since any other character would belong to the word. -/
structure JsxTagName where
  head : WrittenWord
  extension : List Char
  members : List WrittenWord
  hyphenFirst : ∀ c ∈ extension.head?, c = '-'
  fits : ∀ c ∈ extension, c = '-' ∨ isIdentifierPart c = true

namespace JsxTagName

variable {name other : JsxTagName}

/-- Names of members after their dots, as they are written, before the given characters. -/
def dotted : List WrittenWord → List Char → List Char
  | [], rest => rest
  | w :: ws, rest => '.' :: (w.chars ++ dotted ws rest)

/-- The name as it is written, before the given characters. -/
def before (name : JsxTagName) (rest : List Char) : List Char :=
  name.head.chars ++ (name.extension ++ dotted name.members rest)

/-- What the first word is once it has been extended. -/
def headText (name : JsxTagName) : String := name.head.word ++ String.ofList name.extension

/-- What the first word is read as: nothing where it is `this`, however that is extended. -/
def headName (name : JsxTagName) : Option String := if name.head.word = "this" then none else some name.headText

def memberTexts (name : JsxTagName) : List String := name.members.map WrittenWord.word

/-- The words of the name, with dots between them. -/
def parts (name : JsxTagName) : List (List Char) := (name.headText :: name.memberTexts).map String.toList

/-- The text of the name, each escape of a character being the character. -/
def spelled (name : JsxTagName) : List Char := ['.'].intercalate name.parts

/-- A name without escapes is its text. -/
theorem before_eq_spelled (hhead : name.head.IsVerbatim) (hmembers : ∀ w ∈ name.members, w.IsVerbatim) :
    name.before [] = name.spelled := by
  have hrow (ws : List WrittenWord) (hws : ∀ w ∈ ws, w.IsVerbatim) (first : List Char) :
      first ++ dotted ws [] = ['.'].intercalate (first :: ws.map fun w => w.word.toList) := by
    induction ws generalizing first with
    | nil => simp [dotted]
    | cons w ws ih =>
      obtain ⟨hw, hws⟩ := List.forall_mem_cons.mp hws
      rw [List.map_cons, List.intercalate_cons_cons, ← ih hws, dotted, hw.chars_eq]
      simp
  unfold before spelled parts headText memberTexts
  rw [← List.append_assoc, hrow _ hmembers, hhead.chars_eq]
  simp [Function.comp_def]

/-- The text tells the words. -/
theorem spelled_inj : name.spelled = other.spelled
    ↔ name.headText = other.headText ∧ name.memberTexts = other.memberTexts := by
  have hundotted (name : JsxTagName) : ∀ part ∈ name.parts, '.' ∉ part := by
    intro part hpart
    obtain ⟨word, hword, rfl⟩ := List.mem_map.mp hpart
    rcases List.mem_cons.mp hword with rfl | hword
    · simp only [headText, String.toList_append, String.toList_ofList, List.mem_append, not_or]
      refine ⟨name.head.dot_notMem, fun hdot => ?_⟩
      have hfits := name.fits _ hdot
      revert hfits
      decide
    · obtain ⟨w, -, rfl⟩ := List.mem_map.mp hword
      exact w.dot_notMem
  have hsplit (name : JsxTagName) : name.spelled.splitOn '.' = name.parts :=
    List.splitOn_intercalate '.' (hundotted name) (by simp [parts])
  constructor
  · intro h
    have hparts : name.parts = other.parts := by rw [← hsplit, h, hsplit]
    exact List.cons.inj (List.map_injective_iff.mpr (fun _ _ => String.toList_injective) hparts)
  · rintro ⟨hhead, hmembers⟩
    rw [spelled, spelled, parts, parts, hhead, hmembers]

/-- The first word ends at the first hyphen. -/
theorem takeWhile_headText (name : JsxTagName) :
    name.headText.toList.takeWhile (· != '-') = name.head.word.toList := by
  obtain ⟨-, -, -, -, hall⟩ := exists_cons_of_isIdentifierText name.head.isWord
  have hword : ∀ c ∈ name.head.word.toList, (c != '-') = true := by
    intro c hc
    apply bne_iff_ne.mpr
    rintro rfl
    have hpart := hall _ hc
    revert hpart
    decide
  have hextension : name.extension.takeWhile (· != '-') = [] := by
    have hfirst := name.hyphenFirst
    cases hcs : name.extension with
    | nil => rfl
    | cons c cs =>
      rw [hcs] at hfirst
      simp [hfirst c rfl]
  rw [headText, String.toList_append, String.toList_ofList, List.takeWhile_append_of_pos hword, hextension,
    List.append_nil]

/-- First words are read as the same if they have the same text, or are both `this`. -/
theorem headName_eq_iff : name.headName = other.headName
    ↔ name.headText = other.headText ∨ name.head.word = "this" ∧ other.head.word = "this" := by
  have hword (h : name.headText = other.headText) : name.head.word = other.head.word := by
    apply String.toList_inj.mp
    rw [← takeWhile_headText, ← takeWhile_headText, h]
  unfold headName
  split <;> split <;> rename_i hname hother
  · simp [hname, hother]
  · have hne : name.headText ≠ other.headText := fun h => hother (hword h ▸ hname)
    simp [hne, hother]
  · have hne : name.headText ≠ other.headText := fun h => hname (hword h ▸ hother)
    simp [hne, hname]
  · simp [hname]

/-- Behind an extended word a dot stands, or the bracket that ends the tag. -/
theorem exists_cons_dotted (ws : List WrittenWord) (rest : List Char) :
    ∃ c more, dotted ws ('>' :: rest) = c :: more ∧ (c = '.' ∨ c = '>') := by
  cases ws with
  | nil => exact ⟨'>', rest, rfl, .inr rfl⟩
  | cons w ws => exact ⟨'.', _, rfl, .inl rfl⟩

theorem endsWord_dotted (ws : List WrittenWord) (rest : List Char) : EndsWord (dotted ws ('>' :: rest)) := by
  obtain ⟨c, more, hcs, hc⟩ := exists_cons_dotted ws rest
  rw [hcs]
  rintro _ ⟨⟩
  rcases hc with rfl | rfl <;> decide

/-- Behind the first word a hyphen stands, or what stands behind an extended one. -/
theorem exists_cons_extension (name : JsxTagName) (rest : List Char) :
    ∃ c more, name.extension ++ dotted name.members ('>' :: rest) = c :: more
      ∧ (c = '-' ∧ (∃ d ds, more = d :: ds ∧ d ≠ '=') ∨ name.extension = [] ∧ (c = '.' ∨ c = '>')) := by
  obtain ⟨c, more, hcs, hc⟩ := exists_cons_dotted name.members rest
  cases hextension : name.extension with
  | nil => exact ⟨c, more, hcs, .inr ⟨rfl, hc⟩⟩
  | cons first others =>
    have hfirst : first = '-' := name.hyphenFirst first (by rw [hextension]; rfl)
    refine ⟨first, _, rfl, .inl ⟨hfirst, ?_⟩⟩
    cases hothers : others with
    | nil =>
      refine ⟨c, more, hcs, ?_⟩
      rcases hc with rfl | rfl <;> decide
    | cons d ds =>
      refine ⟨d, _, rfl, ?_⟩
      rintro rfl
      have hfits := name.fits '=' (by simp [hextension, hothers])
      revert hfits
      decide

theorem endsWord_extension (name : JsxTagName) (rest : List Char) :
    EndsWord (name.extension ++ dotted name.members ('>' :: rest)) := by
  obtain ⟨c, more, hcs, hc⟩ := name.exists_cons_extension rest
  rw [hcs]
  rintro _ ⟨⟩
  rcases hc with ⟨rfl, -⟩ | ⟨-, rfl | rfl⟩ <;> decide

end JsxTagName

/-! ## 3. Their tokens -/

/-- A dot is a token by itself, where neither a digit nor another dot follows. -/
theorem reads_dot (h : TextAt text pos ('.' :: c :: cs)) (hdigit : isDigit c = false) (hdot : c ≠ '.') :
    ∃ t, Reads text pos ⟨.punct .dot, ""⟩ (c :: cs) t := by
  have hat : punctuatorAt? text pos = some .dot := by
    simp [punctuatorAt?, h.head, h.next, punctuatorOf?, hdot]
  have hlexeme : lexemeAt text pos '.' = Punctuator.dot.lexeme pos := by
    have hself : isDigit '.' = false := by decide
    unfold lexemeAt
    simp [hself, h.next, hdigit, hat]
  have hscan := scanAt_of_char h (by decide) (by decide) (by simp) (by decide)
  rw [hlexeme] at hscan
  exact ⟨_, hscan, rfl, rfl, rfl, h.tail, isLineStart_punctuator hat⟩

/-- The token is the dot before the first of the members, or else the bracket that ends the tag. -/
def Token.IsAtMember (text : Array Char) : List WrittenWord → List Char → Token → Prop
  | [], rest, t => t.IsBefore text (.punct .greaterThan) rest
  | w :: ws, rest, t => t.IsBefore text (.punct .dot) (w.chars ++ JsxTagName.dotted ws ('>' :: rest))

theorem Token.IsAtMember.kind_eq {ws : List WrittenWord} (h : t.IsAtMember text ws rest) :
    t.kind = .punct .dot ∨ t.kind = .punct .greaterThan := by
  cases ws with
  | nil => exact .inr (IsBefore.kind_eq h)
  | cons w ws => exact .inl (IsBefore.kind_eq h)

namespace Token.IsBefore

variable {w : WrittenWord} {name : JsxTagName}

/-- However a word is written, it is read up to where it ends. -/
theorem writtenWord (h : t.IsBefore text k (w.chars ++ rest)) (hend : EndsWord rest) :
    ∃ next, t.next text = (next, []) ∧ next.IsBefore text (wordKind w.word) rest ∧ next.value = w.word
      ∧ next.flags.precedingLineBreak = false := by
  obtain ⟨hscan, hread⟩ := scanAt_of_items h.textAt w.isWord w.spells hend
  have hinLine : isLineStart text (readWord text t.stop).stop = false := isLineStart_readWordFrom "" false h.inLine
  rw [hread] at hscan hinLine
  exact ⟨_, hscan, ⟨rfl, h.textAt.skip, hinLine⟩, rfl, rfl⟩

/-- The dot before the name of a member. -/
theorem dot (h : t.IsBefore text k ('.' :: (w.chars ++ rest))) :
    ∃ next, t.next text = (next, []) ∧ next.IsBefore text (.punct .dot) (w.chars ++ rest) := by
  obtain ⟨c, cs, hchars, hstart⟩ := w.exists_cons
  rw [hchars] at h ⊢
  have hdigit : isDigit c = false := by
    rcases hstart with hstart | rfl
    · exact isDigit_of_isIdentifierStart hstart
    · decide
  obtain ⟨next, hnext⟩ := reads_dot h.textAt hdigit (hstart.ne (by decide) (by decide))
  exact ⟨next, hnext.scan_eq, hnext.isBefore⟩

/-- Behind an extended word the next member is ahead, or the end of the tag. -/
theorem member {ws : List WrittenWord} (h : t.IsBefore text k (JsxTagName.dotted ws ('>' :: rest))) :
    ∃ next, t.next text = (next, []) ∧ next.IsAtMember text ws rest := by
  cases ws with
  | nil => exact punct (p := .greaterThan) h rfl
  | cons w ws => exact h.dot

/-- Read as any other text, what stands behind the first word of a name is an operator, a dot or the bracket
that ends the tag. -/
theorem afterHead (h : t.IsBefore text k (name.extension ++ JsxTagName.dotted name.members ('>' :: rest))) :
    ∃ next, t.next text = (next, []) ∧ (next.kind = .punct .minusMinus ∨ next.kind = .punct .minus
      ∨ next.kind = .punct .dot ∨ next.kind = .punct .greaterThan) := by
  obtain ⟨c, more, hcs, ⟨rfl, d, ds, rfl, hd⟩ | ⟨hextension, -⟩⟩ := name.exists_cons_extension rest
  · rw [hcs] at h
    by_cases hhyphen : d = '-'
    · subst hhyphen
      obtain ⟨next, hnext, hminus⟩ := punct (p := .minusMinus) h rfl
      exact ⟨next, hnext, .inl hminus.kind_eq⟩
    · have hstands : Punctuator.minus.standsBefore (d :: ds) = true := by
        have hpunct : punctuatorOf? '-' (some d) ds[0]? = some .minus := by
          show (if _ then _ else if _ then _ else _ : Option Punctuator) = _
          simp [hhyphen, hd]
        show (punctuatorOf? '-' (some d) ds[0]? == some .minus && _ && _) = true
        rw [hpunct]
        rfl
      obtain ⟨next, hnext, hminus⟩ := punct (p := .minus) h hstands
      exact ⟨next, hnext, .inr (.inl hminus.kind_eq)⟩
  · rw [hextension, List.nil_append] at h
    obtain ⟨next, hnext, hmember⟩ := h.member
    exact ⟨next, hnext, .inr (.inr hmember.kind_eq)⟩

/-- The first word of a name is extended up to its members. -/
theorem extended (h : t.IsBefore text k (name.extension ++ JsxTagName.dotted name.members ('>' :: rest)))
    (hname : k.isName = true) : ∃ next, t.scanJsxName text = (next, [])
      ∧ next.IsBefore text k (JsxTagName.dotted name.members ('>' :: rest))
      ∧ next.value = t.value ++ String.ofList name.extension ∧ next.fullStart = t.fullStart := by
  have hstop : scanWhile (fun c => c == '-' || isIdentifierPart c) text t.stop = t.stop + name.extension.length := by
    refine h.textAt.scanWhile_eq (fun c hc => ?_) fun c hc => ?_
    · simpa using name.fits c hc
    · obtain ⟨d, more, hcs, hd⟩ := JsxTagName.exists_cons_dotted name.members rest
      rw [hcs] at hc
      obtain rfl : d = c := Option.some.inj hc
      rcases hd with rfl | rfl <;> decide
  have hinLine : isLineStart text (t.stop + name.extension.length) = false := by
    by_cases hempty : name.extension = []
    · rw [hempty]
      exact h.inLine
    · refine isLineStart_skip h.textAt hempty (List.all_eq_true.mpr fun c hc => ?_)
      rcases name.fits c hc with rfl | hpart
      · decide
      · simp [isLineBreak_of_isIdentifierPart hpart]
  have hkind : t.kind.isName = true := h.kind_eq ▸ hname
  have hslice := h.textAt.slice
  unfold Token.scanJsxName
  dsimp only
  rw [if_pos hkind, hstop, hslice]
  exact ⟨_, rfl, ⟨h.kind_eq, h.textAt.skip, hinLine⟩, rfl, rfl⟩

end Token.IsBefore

end ScriptSyntax
