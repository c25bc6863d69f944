/-
  ScriptSyntax/Proofs/Token/Spelling.lean
  =======================================
  The tokens of a text that is known.

  What is written is read again as what it was, if each piece of it ends where the
  next one starts: a word before a character that no word goes on with, and a
  punctuator before characters that make no longer one of it.
-/
import ScriptSyntax.Proofs.Token.Closed

namespace ScriptSyntax

variable {text : Array Char} {pos : Nat} {c d : Char} {w cs ds : List Char}

/-! ## 1. What stands at a position -/

/-- From the position on the text reads so. -/
def TextAt (text : Array Char) (pos : Nat) (cs : List Char) : Prop := text.toList.drop pos = cs

namespace TextAt

theorem getElem? (h : TextAt text pos cs) (i : Nat) : text[pos + i]? = cs[i]? := by
  rw [← h, List.getElem?_drop, Array.getElem?_toList]

theorem head (h : TextAt text pos (c :: cs)) : text[pos]? = some c := h.getElem? 0

theorem next (h : TextAt text pos (c :: cs)) : text[pos + 1]? = cs[0]? := h.getElem? 1

theorem head? (h : TextAt text pos cs) : text[pos]? = cs.head? := by
  rw [List.head?_eq_getElem?]
  exact h.getElem? 0

theorem hasCharAt_eq (h : TextAt text pos (c :: cs)) (d : Char) : hasCharAt text pos d = (c == d) := by
  simp [hasCharAt, h.head]

theorem hasCharAt_eq_false (h : TextAt text pos cs) (hd : cs.head? ≠ some d) : hasCharAt text pos d = false := by
  rw [hasCharAt, h.head?, beq_eq_false_iff_ne.mpr hd]

theorem lt_size (h : TextAt text pos (c :: cs)) : pos < text.size := lt_size_of_eq_some h.head

theorem getElem (h : TextAt text pos (c :: cs)) (hlt : pos < text.size) : text[pos] = c := by
  simpa [Array.getElem?_eq_getElem hlt] using h.head

theorem size_le (h : TextAt text pos []) : text.size ≤ pos := by
  simpa [TextAt] using h

theorem skip (h : TextAt text pos (cs ++ ds)) : TextAt text (pos + cs.length) ds := by
  unfold TextAt at h ⊢
  rw [← List.drop_drop, h, List.drop_left]

theorem tail (h : TextAt text pos (c :: cs)) : TextAt text (pos + 1) cs :=
  @skip text pos [c] cs h

theorem extract (h : TextAt text pos (cs ++ ds)) : (text.extract pos (pos + cs.length)).toList = cs := by
  rw [Array.toList_extract, List.extract_eq_take_drop, h, Nat.add_sub_cancel_left, List.take_left]

/-- The piece of text that stands first. -/
theorem slice (h : TextAt text pos (cs ++ ds)) :
    sliceOf text pos (pos + cs.length) = String.ofList cs := by
  rw [sliceOf, h.extract]

/-- A walk over characters of a class stops before the first one that is not of the class. -/
theorem scanWhile_eq {p : Char → Bool} (h : TextAt text pos (w ++ cs)) (hw : ∀ c ∈ w, p c = true)
    (hend : ∀ c ∈ cs.head?, p c = false) : scanWhile p text pos = pos + w.length := by
  induction w generalizing pos with
  | nil =>
    rw [scanWhile]
    cases cs with
    | nil => simp [Nat.not_lt.mpr (size_le h)]
    | cons c cs =>
      have hlt := lt_size h
      simp [hlt, getElem h hlt, hend c rfl]
  | cons c w ih =>
    have hlt := lt_size h
    have hc : p c = true := hw c List.mem_cons_self
    rw [scanWhile]
    simp only [hlt, ↓reduceDIte, getElem h hlt, hc, if_true, List.length_cons]
    rw [ih (tail h) fun d hd => hw d (List.mem_cons_of_mem c hd)]
    omega

end TextAt

/-! ## 2. Characters of words -/

theorem inRanges_eq_false {ranges : List (Nat × Nat)} {low high n : Nat}
    (h : ranges.all (fun r => r.2 < low || high < r.1) = true) (hlow : low ≤ n) (hhigh : n ≤ high) :
    inRanges ranges n = false := by
  apply List.any_eq_false.mpr
  intro r hr hmem
  have hout := List.all_eq_true.mp h r hr
  simp only [Bool.or_eq_true, Bool.and_eq_true, decide_eq_true_eq] at hout hmem
  omega

/-- The spaces of a fixed width are no parts of words. -/
theorem isIdentifierPart_of_wideSpace (hlow : 0x2000 ≤ c.toNat) (hhigh : c.toNat ≤ 0x200b) :
    isIdentifierPart c = false := by
  have hascii {d : Char} (hd : d.toNat < 0x2000) : (c == d) = false ∧ ¬c ≤ d := by
    refine ⟨beq_eq_false_iff_ne.mpr ?_, fun hle => ?_⟩
    · rintro rfl
      omega
    · have hle : c.toNat ≤ d.toNat := hle
      omega
  have hstarts : startsIdentifierAt c.toNat = false := by
    simp only [startsIdentifierAt, Bool.or_eq_false_iff]
    refine ⟨⟨⟨⟨?_, ?_⟩, ?_⟩, ?_⟩, ?_⟩ <;> exact inRanges_eq_false (by decide) hlow hhigh
  have hcontinues : onlyContinuesIdentifierAt c.toNat = false := by
    simp only [onlyContinuesIdentifierAt, Bool.or_eq_false_iff]
    refine ⟨⟨?_, ?_⟩, ?_⟩ <;> exact inRanges_eq_false (by decide) hlow hhigh
  simp only [isIdentifierPart, isIdentifierStart, isAsciiLetter, isDigit, hstarts, hcontinues,
    (hascii (d := '_') (by decide)).1, (hascii (d := '$') (by decide)).1,
    (hascii (d := 'z') (by decide)).2, (hascii (d := 'Z') (by decide)).2,
    (hascii (d := '9') (by decide)).2, decide_false, Bool.and_false, Bool.or_false]

theorem isSingleLineSpace_of_isIdentifierPart (h : isIdentifierPart c = true) :
    isSingleLineSpace c = false := by
  apply Bool.eq_false_iff.mpr
  intro hspace
  simp only [isSingleLineSpace, Bool.or_eq_true, Bool.and_eq_true, beq_iff_eq, decide_eq_true_eq]
    at hspace
  have hwide : ¬('\u2000' ≤ c ∧ c ≤ '\u200b') := by
    rintro ⟨hlow, hhigh⟩
    rw [isIdentifierPart_of_wideSpace hlow hhigh] at h
    cases h
  simp only [hwide, or_false] at hspace
  rcases hspace with ((((((((((rfl | rfl) | rfl) | rfl) | rfl) | rfl) | rfl) | rfl) | rfl) | rfl) | rfl)
  all_goals exact absurd h (by decide)

/-- A character that starts a word is none that starts anything else. -/
theorem ne_of_isIdentifierStart (h : isIdentifierStart c = true) (hd : isIdentifierStart d = false) :
    c ≠ d := by
  rintro rfl
  exact Bool.false_ne_true (hd.symm.trans h)

theorem punctuatorOf?_of_isIdentifierStart (h : isIdentifierStart c = true) (c₁ c₂ : Option Char) :
    punctuatorOf? c c₁ c₂ = none := by
  unfold punctuatorOf?
  split
  all_goals first
    | rfl
    | exact absurd h (by decide)

theorem isDigit_of_isIdentifierStart (h : isIdentifierStart c = true) : isDigit c = false := by
  have hrow : ∀ k < 10, isIdentifierStart (Char.ofNat (0x30 + k)) = false := by decide
  apply Bool.eq_false_iff.mpr
  intro hdigit
  simp only [isDigit, Bool.and_eq_true, decide_eq_true_eq] at hdigit
  have hle : 0x30 ≤ c.toNat := hdigit.1
  have hge : c.toNat ≤ 0x39 := hdigit.2
  have hc : Char.ofNat (0x30 + (c.toNat - 0x30)) = c := by
    rw [Nat.add_sub_cancel' hle, Char.ofNat_toNat]
  have hno := hrow (c.toNat - 0x30) (by omega)
  rw [hc, h] at hno
  cases hno

/-! ## 3. Trivia -/

/-- Where no trivia start, the token starts. -/
theorem triviaRun_of_noTrivia (h : NoTrivia text pos) (hash : hasCharAt text pos '#' = false) :
    triviaRun text pos = ⟨pos, {}, []⟩ := by
  have hshebang : isShebang text pos = false := by
    apply Bool.eq_false_iff.mpr
    intro hshebang
    simp only [isShebang, Bool.and_eq_true, beq_iff_eq] at hshebang
    rw [hshebang.1.1, hshebang.1.2] at hash
    cases hash
  exact triviaRunFrom_of_noTrivia h hshebang {} []

/-- A space goes to the token after it. -/
theorem triviaRun_space (h : TextAt text pos (' ' :: cs)) :
    triviaRun text pos = triviaRun text (pos + 1) := by
  have hlt := h.lt_size
  have hc : text[pos] = ' ' := h.getElem hlt
  have hshebang : isShebang text pos = false := isShebang_of_char h.head (by decide)
  unfold triviaRun
  rw [triviaRunFrom]
  simp only [hlt, ↓reduceDIte, hc, hshebang]
  rfl

/-- A character that starts neither white space nor a comment, where no conflict marker stands. -/
theorem noTrivia_of_char (h : TextAt text pos (c :: cs)) (hspace : isWhiteSpaceLike c = false)
    (hslash : c = '/' → cs.head? ≠ some '/' ∧ cs.head? ≠ some '*')
    (hmarker : isConflictMarker text pos = false) : NoTrivia text pos := by
  have hhead := h.head
  constructor
  · intro d hd
    obtain rfl : c = d := Option.some.inj (hhead.symm.trans hd)
    exact hspace
  · intro hc
    obtain rfl : c = '/' := Option.some.inj (hhead.symm.trans (beq_iff_eq.mp hc))
    rw [List.head?_eq_getElem?] at hslash
    simpa [hasCharAt, h.next] using hslash rfl
  · exact hmarker

/-! ## 4. Tokens -/

/-- What a token is, wherever it stands. -/
structure Word where
  kind : Kind
  value : String := ""

/-- Scanned from the position on, the next token is the given word. It stands on the line of the token
before it and nothing is wrong with it; the text goes on within that line, as given. -/
structure Reads (text : Array Char) (pos : Nat) (word : Word) (rest : List Char) (t : Token) :
    Prop where
  scan_eq : scanAt text pos = (t, [])
  kind_eq : t.kind = word.kind
  value_eq : t.value = word.value
  sameLine : t.flags.precedingLineBreak = false
  textAt : TextAt text t.stop rest
  inLine : isLineStart text t.stop = false

theorem scanAt_of_noTrivia (h : NoTrivia text pos) (hash : hasCharAt text pos '#' = false)
    (hc : text[pos]? = some c) : scanAt text pos = (lexemeAt text pos c).toToken pos ⟨pos, {}, []⟩ := by
  unfold scanAt
  simp only [triviaRun_of_noTrivia h hash, hc]

/-- A character that starts no trivia starts the token. -/
theorem scanAt_of_char (h : TextAt text pos (c :: cs)) (hspace : isWhiteSpaceLike c = false) (hash : c ≠ '#')
    (hslash : c = '/' → cs.head? ≠ some '/' ∧ cs.head? ≠ some '*') (hmarker : isMarkerChar c = false) :
    scanAt text pos = (lexemeAt text pos c).toToken pos ⟨pos, {}, []⟩ := by
  have hconflict : isConflictMarker text pos = false := by
    apply isConflictMarker_of_isMarkerChar
    intro d hd
    obtain rfl : c = d := Option.some.inj (h.head.symm.trans hd)
    exact hmarker
  have hno : NoTrivia text pos := noTrivia_of_char h hspace hslash hconflict
  exact scanAt_of_noTrivia hno (by simp [hasCharAt, h.head, hash]) h.head

/-- A space before a token is no part of what the token is. -/
theorem scanAt_space (h : TextAt text pos (' ' :: cs)) {t : Token} {errors : List ScanError}
    (ht : scanAt text (pos + 1) = (t, errors)) :
    scanAt text pos = ({ t with fullStart := pos }, errors) := by
  have hscan : scanAt text pos = ({ (scanAt text (pos + 1)).1 with fullStart := pos },
      (scanAt text (pos + 1)).2) := by
    unfold scanAt
    rw [triviaRun_space h]
    dsimp only
    split <;> rfl
  rwa [ht] at hscan

theorem Reads.space {word : Word} {t : Token} (h : TextAt text pos (' ' :: cs))
    (ht : Reads text (pos + 1) word ds t) : Reads text pos word ds { t with fullStart := pos } :=
  ⟨scanAt_space h ht.scan_eq, ht.kind_eq, ht.value_eq, ht.sameLine, ht.textAt, ht.inLine⟩

/-- Behind a space no conflict marker stands. -/
theorem isConflictMarker_after_space (h : TextAt text pos (' ' :: cs)) :
    isConflictMarker text (pos + 1) = false := by
  apply isConflictMarker_of_isLineStart
  rw [isLineStart_of_eq_some h.head]
  decide

/-- No word goes on with the first of the characters. -/
def EndsWord (cs : List Char) : Prop := ∀ c ∈ cs.head?, isIdentifierPart c = false ∧ c ≠ '\\'

theorem EndsWord.of_space : EndsWord (' ' :: cs) := by
  rintro c ⟨⟩
  decide

/-- A word goes on with a character that may be part of one. -/
theorem readWordFrom_part (h : TextAt text pos (c :: cs)) (hc : isIdentifierPart c = true) (word : String)
    (escaped : Bool) : readWordFrom text word escaped pos = readWordFrom text (word.push c) escaped (pos + 1) := by
  have hlt := h.lt_size
  rw [readWordFrom]
  simp only [hlt, ↓reduceDIte, h.getElem hlt, hc, if_true]

/-- A word ends before what no word goes on with. -/
theorem readWordFrom_end (h : TextAt text pos cs) (hend : EndsWord cs) (word : String) (escaped : Bool) :
    readWordFrom text word escaped pos = ⟨pos, wordKind word, word, { unicodeEscape := escaped }, []⟩ := by
  rw [readWordFrom]
  by_cases hlt : pos < text.size
  · obtain ⟨d, rest, rfl⟩ : ∃ d rest, cs = d :: rest := by
      cases cs with
      | nil => exact absurd h.size_le (Nat.not_le_of_lt hlt)
      | cons d rest => exact ⟨d, rest, rfl⟩
    obtain ⟨hpart, hescape⟩ := hend d rfl
    have hd : text[pos] = d := TextAt.getElem h hlt
    have hnone : Escape.inIdentifier? text pos = none := by
      simp [Escape.inIdentifier?, hasCharAt, hlt, hd, hescape]
    simp only [hlt, ↓reduceDIte, hd, hpart, Bool.false_eq_true, if_false]
    split
    · rename_i he
      rw [hnone] at he
      cases he
    · rfl
  · simp [hlt]

theorem push_append_ofList (word : String) (c : Char) (cs : List Char) :
    word.push c ++ String.ofList cs = word ++ String.ofList (c :: cs) := by
  apply String.toList_inj.mp
  simp

theorem readWordFrom_eq (h : TextAt text pos (w ++ cs)) (hw : w.all isIdentifierPart = true)
    (hend : EndsWord cs) (word : String) (escaped : Bool) :
    readWordFrom text word escaped pos
      = ⟨pos + w.length, wordKind (word ++ String.ofList w), word ++ String.ofList w,
          { unicodeEscape := escaped }, []⟩ := by
  induction w generalizing pos word with
  | nil => simpa using readWordFrom_end h hend word escaped
  | cons c w ih =>
    rw [List.all_cons, Bool.and_eq_true] at hw
    rw [readWordFrom_part h hw.1, ih (TextAt.tail h) hw.2, push_append_ofList, List.length_cons, Nat.add_assoc,
      Nat.add_comm 1]

theorem isLineStart_skip {w : List Char} (h : TextAt text pos (w ++ cs)) (hne : w ≠ [])
    (hw : w.all (fun c => !isLineBreak c) = true) : isLineStart text (pos + w.length) = false := by
  obtain ⟨front, last, rfl⟩ : ∃ front last, w = front ++ [last] :=
    ⟨_, _, (List.dropLast_concat_getLast hne).symm⟩
  have hlast : text[pos + front.length]? = some last := by
    rw [h.getElem?]
    simp
  rw [List.length_append, List.length_singleton, ← Nat.add_assoc, isLineStart_of_eq_some hlast]
  simp only [List.all_append, List.all_cons, List.all_nil, Bool.and_eq_true] at hw
  simpa using hw.2.1

/-- A word has a first character, which may start one, and all its characters may be parts of one. -/
theorem exists_cons_of_isIdentifierText {word : String} (h : isIdentifierText word = true) :
    ∃ c w, word.toList = c :: w ∧ isIdentifierStart c = true ∧ ∀ d ∈ word.toList, isIdentifierPart d = true := by
  unfold isIdentifierText at h
  split at h
  · cases h
  · rename_i c w hlist
    rw [Bool.and_eq_true] at h
    refine ⟨c, w, hlist, h.1, ?_⟩
    intro d hd
    rw [hlist] at hd
    rcases List.mem_cons.mp hd with rfl | hd
    · exact isIdentifierPart_of_isIdentifierStart h.1
    · exact List.all_eq_true.mp h.2 d hd

/-- Where a character stands that may start a word, a word is read. -/
theorem scanAt_of_isIdentifierStart (h : TextAt text pos (c :: cs)) (hstart : isIdentifierStart c = true) :
    scanAt text pos = (readWord text pos).toToken pos ⟨pos, {}, []⟩ := by
  have hne (d : Char) (hd : isIdentifierStart d = false) : c ≠ d := ne_of_isIdentifierStart hstart hd
  have hpart := isIdentifierPart_of_isIdentifierStart hstart
  have hspace : isWhiteSpaceLike c = false := by
    simp [isWhiteSpaceLike, isSingleLineSpace_of_isIdentifierPart hpart,
      isLineBreak_of_isIdentifierPart hpart]
  have hmarker : isMarkerChar c = false := by
    simp [isMarkerChar, hne '<' (by decide), hne '=' (by decide), hne '>' (by decide),
      hne '|' (by decide)]
  have hlexeme : lexemeAt text pos c = readWord text pos := by
    have hpunct : punctuatorAt? text pos = none := by
      simp [punctuatorAt?, h.head, punctuatorOf?_of_isIdentifierStart hstart]
    unfold lexemeAt
    simp [hne '\'' (by decide), hne '"' (by decide), hne '\x60' (by decide), hne '.' (by decide),
      isDigit_of_isIdentifierStart hstart, hpunct, hstart]
  rw [← hlexeme]
  exact scanAt_of_char h hspace (hne '#' (by decide)) (fun hslash => absurd hslash (hne '/' (by decide))) hmarker

/-- A word is read up to where it ends. -/
theorem reads_word {word : String} (h : TextAt text pos (word.toList ++ cs))
    (hword : isIdentifierText word = true) (hend : EndsWord cs) :
    ∃ t, Reads text pos ⟨wordKind word, word⟩ cs t := by
  obtain ⟨c, w, hlist, hstart, hall⟩ := exists_cons_of_isIdentifierText hword
  have hc : TextAt text pos (c :: (w ++ cs)) := by rwa [hlist] at h
  have hread := readWordFrom_eq h (List.all_eq_true.mpr hall) hend "" false
  have hempty : "" ++ String.ofList word.toList = word := by simp
  rw [hempty] at hread
  have hscan := scanAt_of_isIdentifierStart hc hstart
  rw [readWord, hread] at hscan
  refine ⟨_, hscan, rfl, rfl, rfl, h.skip, isLineStart_skip h (by simp [hlist]) ?_⟩
  apply List.all_eq_true.mpr
  intro d hd
  simp [isLineBreak_of_isIdentifierPart (hall d hd)]

/-! ## 5. Punctuation -/

/-- Before the given characters the punctuator is read as it is written, and not as a longer one. -/
def Punctuator.standsBefore (p : Punctuator) (cs : List Char) : Bool :=
  match p.text.toList ++ cs with
  | [] => false
  | c :: rest =>
    punctuatorOf? c rest[0]? rest[1]? == some p && c != '.'
      && (c != '/' || (rest[0]? != some '/' && rest[0]? != some '*'))

theorem Punctuator.lessThan_standsBefore (hless : c ≠ '<') (hequals : c ≠ '=') :
    lessThan.standsBefore (c :: cs) = true := by
  have hpunct : punctuatorOf? '<' (some c) cs[0]? = some .lessThan := by
    show (if _ then _ else if _ then _ else _ : Option Punctuator) = _
    simp [hless, hequals]
  show (punctuatorOf? '<' (some c) cs[0]? == some .lessThan && _ && _) = true
  rw [hpunct]
  rfl

/-- A character that starts punctuation starts no trivia and no literal. -/
theorem class_of_punctuatorOf? {c₁ c₂ : Option Char} {p : Punctuator}
    (h : punctuatorOf? c c₁ c₂ = some p) :
    (isWhiteSpaceLike c || c == '#' || c == '\'' || c == '"' || c == '\x60' || isDigit c) = false := by
  unfold punctuatorOf? at h
  split at h
  all_goals first
    | decide
    | cases h

/-- A punctuator that no trivia stand before is the token. -/
theorem scanAt_punct {p : Punctuator} (h : TextAt text pos (p.text.toList ++ cs))
    (hp : p.standsBefore cs = true) (hmarker : isConflictMarker text pos = false) :
    scanAt text pos = (p.lexeme pos).toToken pos ⟨pos, {}, []⟩ ∧ punctuatorAt? text pos = some p := by
  obtain ⟨c, rest, hlist⟩ : ∃ c rest, p.text.toList ++ cs = c :: rest := by
    unfold Punctuator.standsBefore at hp
    split at hp
    · cases hp
    · exact ⟨_, _, ‹_›⟩
  have hc : TextAt text pos (c :: rest) := hlist ▸ h
  simp only [Punctuator.standsBefore, hlist, Bool.and_eq_true, Bool.or_eq_true, bne_iff_ne,
    beq_iff_eq, ne_eq] at hp
  obtain ⟨⟨hpunct, hdot⟩, hslash⟩ := hp
  have hclass := class_of_punctuatorOf? hpunct
  simp only [Bool.or_eq_false_iff, beq_eq_false_iff_ne, ne_eq] at hclass
  obtain ⟨⟨⟨⟨⟨hspace, hash⟩, hsingle⟩, hdouble⟩, hback⟩, hdigit⟩ := hclass
  have hno : NoTrivia text pos := by
    refine noTrivia_of_char hc hspace (fun heq => ?_) hmarker
    rw [List.head?_eq_getElem?]
    exact hslash.resolve_left (not_not_intro heq)
  have hat : punctuatorAt? text pos = some p := by
    simp [punctuatorAt?, hc.head, hc.next, show text[pos + 2]? = rest[1]? from hc.getElem? 2, hpunct]
  have hlexeme : lexemeAt text pos c = p.lexeme pos := by
    unfold lexemeAt
    simp [hsingle, hdouble, hback, hdot, hdigit, hat]
  have hscan := scanAt_of_noTrivia hno (by simp [hasCharAt, hc.head, hash]) hc.head
  rw [hlexeme] at hscan
  exact ⟨hscan, hat⟩

theorem reads_punct {p : Punctuator} (h : TextAt text pos (p.text.toList ++ cs))
    (hp : p.standsBefore cs = true) (hmarker : isConflictMarker text pos = false) :
    ∃ t, Reads text pos ⟨.punct p, ""⟩ cs t := by
  obtain ⟨hscan, hat⟩ := scanAt_punct h hp hmarker
  exact ⟨_, hscan, rfl, rfl, rfl, h.skip, isLineStart_punctuator hat⟩

/-- Where the text ends, the file does. -/
theorem scanAt_end (h : TextAt text pos []) : ∃ t, scanAt text pos = (t, []) ∧ t.kind = .endOfFile := by
  have hnone : text[pos]? = none := Array.getElem?_eq_none h.size_le
  have hno : NoTrivia text pos := by
    constructor <;> simp [hasCharAt, isConflictMarker, hnone]
  have hrun := triviaRun_of_noTrivia hno (by simp [hasCharAt, hnone])
  refine ⟨⟨pos, pos, pos, .endOfFile, "", {}⟩, ?_, rfl⟩
  unfold scanAt
  simp only [hrun, hnone]

/-! ## 6. Words ahead -/

/-- An identifier that is no keyword. -/
structure PlainName where
  text : String
  isIdentifier : isIdentifierText text = true
  notKeyword : Keyword.ofText? text = none

theorem PlainName.wordKind_eq (name : PlainName) : wordKind name.text = .identifier := by
  simp [wordKind, name.notKeyword]

/-- A name starts with a character that starts nothing else. -/
theorem PlainName.exists_cons (name : PlainName) : ∃ c w, name.text.toList = c :: w
    ∧ isWhiteSpaceLike c = false ∧ c ≠ '/' ∧ c ≠ '#' := by
  obtain ⟨c, w, hlist, hstart, -⟩ := exists_cons_of_isIdentifierText name.isIdentifier
  have hpart := isIdentifierPart_of_isIdentifierStart hstart
  refine ⟨c, w, hlist, ?_, ne_of_isIdentifierStart hstart (by decide), ne_of_isIdentifierStart hstart (by decide)⟩
  simp [isWhiteSpaceLike, isSingleLineSpace_of_isIdentifierPart hpart, isLineBreak_of_isIdentifierPart hpart]

/-- All characters of a name may be parts of one. -/
theorem PlainName.notMem (name : PlainName) (hc : isIdentifierPart c = false) : c ∉ name.text.toList := by
  obtain ⟨-, -, -, -, hall⟩ := exists_cons_of_isIdentifierText name.isIdentifier
  intro hmem
  rw [hall c hmem] at hc
  cases hc

/-- The token is the end of the file. -/
def AtEnd (t : Token) : Prop := t.kind = .endOfFile

/-- The token is a semicolon, and the text ends behind it. -/
def LastSemicolon (text : Array Char) (t : Token) : Prop :=
  t.kind = .punct .semicolon ∧ ∃ last, t.next text = (last, []) ∧ AtEnd last

/-- What a text may be put together from: spaces, words and punctuation. -/
inductive Piece where
  | space
  | word (text : String)
  | punct (p : Punctuator)

def Piece.chars : Piece → List Char
  | space => [' ']
  | word text => text.toList
  | punct p => p.text.toList

/-- The pieces are told apart where they are written one after the other. -/
def Apart : List Piece → Prop
  | [] => True
  | .space :: pieces => Apart pieces
  | .word text :: pieces =>
    isIdentifierText text = true ∧ EndsWord (pieces.flatMap Piece.chars) ∧ Apart pieces
  | .punct p :: pieces => p.standsBefore (pieces.flatMap Piece.chars) = true ∧ Apart pieces

/-- The token and those after it are the given words and punctuation, all on one line, and after them the
text ends. Nothing is wrong with any of them. -/
def Ahead (text : Array Char) : List Piece → Token → Prop
  | [], t => AtEnd t
  | .space :: pieces, t => Ahead text pieces t
  | .word word :: pieces, t =>
    t.kind = wordKind word ∧ t.value = word ∧ t.flags.precedingLineBreak = false
      ∧ ∃ next, t.next text = (next, []) ∧ Ahead text pieces next
  | .punct p :: pieces, t =>
    t.kind = .punct p ∧ t.flags.precedingLineBreak = false
      ∧ ∃ next, t.next text = (next, []) ∧ Ahead text pieces next

/-- Where the trivia before a token start does not matter to what is ahead. -/
theorem Ahead.movedStart {pieces : List Piece} {t : Token} (h : Ahead text pieces t) (pos : Nat) :
    Ahead text pieces { t with fullStart := pos } := by
  induction pieces with
  | nil => exact h
  | cons piece pieces ih =>
    cases piece with
    | space => exact ih h
    | word word => exact h
    | punct p => exact h

/-- Pieces that are told apart are read as what they are. -/
theorem Apart.ahead {pieces : List Piece} (h : Apart pieces)
    (hat : TextAt text pos (pieces.flatMap Piece.chars)) (hmarker : isConflictMarker text pos = false) :
    ∃ t, scanAt text pos = (t, []) ∧ Ahead text pieces t := by
  induction pieces generalizing pos with
  | nil => exact scanAt_end hat
  | cons piece pieces ih =>
    cases piece with
    | space =>
      obtain ⟨t, ht, hahead⟩ := ih h hat.tail (isConflictMarker_after_space hat)
      exact ⟨_, scanAt_space hat ht, hahead.movedStart pos⟩
    | word word =>
      obtain ⟨hword, hend, hrest⟩ := h
      obtain ⟨t, ht⟩ := reads_word hat hword hend
      obtain ⟨next, hnext, hahead⟩ := ih hrest ht.textAt (isConflictMarker_of_isLineStart ht.inLine)
      exact ⟨t, ht.scan_eq, ht.kind_eq, ht.value_eq, ht.sameLine, next, hnext, hahead⟩
    | punct p =>
      obtain ⟨hp, hrest⟩ := h
      obtain ⟨t, ht⟩ := reads_punct hat hp hmarker
      obtain ⟨next, hnext, hahead⟩ := ih hrest ht.textAt (isConflictMarker_of_isLineStart ht.inLine)
      exact ⟨t, ht.scan_eq, ht.kind_eq, ht.sameLine, next, hnext, hahead⟩

/-- A semicolon that nothing follows. -/
theorem Ahead.lastSemicolon {t : Token} (h : Ahead text [.punct .semicolon] t) : LastSemicolon text t :=
  ⟨h.1, h.2.2⟩

/-! ## 7. Lists of pieces -/

/-- The pieces are told apart, also after a word. -/
def ApartAfterWord (pieces : List Piece) : Prop :=
  Apart pieces ∧ EndsWord (pieces.flatMap Piece.chars)

theorem apart_punct {p : Punctuator} {pieces : List Piece} (h : Apart pieces)
    (hp : p ∈ [.openBracket, .closeBracket, .openParen, .closeParen, .comma, .greaterThan, .colon]) :
    ApartAfterWord (.punct p :: pieces) := by
  simp only [List.mem_cons, List.not_mem_nil, or_false] at hp
  rcases hp with rfl | rfl | rfl | rfl | rfl | rfl | rfl
  all_goals
    refine ⟨⟨rfl, h⟩, ?_⟩
    rintro _ ⟨⟩
    decide

/-- The first piece that is no space is one of the given punctuators. -/
def GoesOnWith (ps : List Punctuator) : List Piece → Prop
  | .space :: pieces => GoesOnWith ps pieces
  | .punct p :: _ => p ∈ ps
  | _ => False

section

variable {α : Type} {before : α → List Piece → List Piece} {separator rest pieces : List Piece}
variable {as : List α} {ps qs : List Punctuator} {next : Token}

theorem goesOnWith_punct {p : Punctuator} (hp : p ∈ ps) : GoesOnWith ps (.punct p :: pieces) := hp

theorem GoesOnWith.mono (h : GoesOnWith ps pieces) (hsub : ∀ p ∈ ps, p ∈ qs) : GoesOnWith qs pieces := by
  induction pieces with
  | nil => cases h
  | cons piece pieces ih =>
    cases piece with
    | space => exact ih h
    | word word => cases h
    | punct p => exact hsub p h

theorem GoesOnWith.kind (h : GoesOnWith ps pieces) (hahead : Ahead text pieces next) :
    (∃ p ∈ ps, next.kind = .punct p) ∧ next.flags.precedingLineBreak = false := by
  induction pieces with
  | nil => cases h
  | cons piece pieces ih =>
    cases piece with
    | space => exact ih h hahead
    | word word => cases h
    | punct p => exact ⟨⟨p, h, hahead.1⟩, hahead.2.1⟩

theorem GoesOnWith.ne {k : Kind} (h : GoesOnWith ps pieces) (hahead : Ahead text pieces next)
    (hk : k ∉ ps.map Kind.punct) : next.kind ≠ k := by
  obtain ⟨⟨p, hp, hkind⟩, -⟩ := h.kind hahead
  rintro rfl
  exact hk (hkind ▸ List.mem_map_of_mem hp)

/-- Elements as they are written, each after the given separator, before the given pieces. -/
def writtenMore (separator : List Piece) (before : α → List Piece → List Piece) :
    List α → List Piece → List Piece
  | [], rest => rest
  | a :: as, rest => separator ++ before a (writtenMore separator before as rest)

/-- Elements as they are written, with the given separator between them. -/
def writtenList (separator : List Piece) (before : α → List Piece → List Piece) :
    List α → List Piece → List Piece
  | [], rest => rest
  | a :: as, rest => before a (writtenMore separator before as rest)

theorem writtenMore_map {β : Type} (f : α → β) (before : β → List Piece → List Piece) :
    writtenMore separator before (as.map f) rest = writtenMore separator (fun a => before (f a)) as rest := by
  induction as with
  | nil => rfl
  | cons a as ih =>
    show separator ++ before (f a) (writtenMore separator before (as.map f) rest) = _
    rw [ih]
    rfl

/-- Elements that are written as others are. -/
theorem writtenList_map {β : Type} (f : α → β) (before : β → List Piece → List Piece) :
    writtenList separator before (as.map f) rest = writtenList separator (fun a => before (f a)) as rest := by
  cases as with
  | nil => rfl
  | cons a as =>
    show before (f a) (writtenMore separator before (as.map f) rest) = _
    rw [writtenMore_map]
    rfl

theorem GoesOnWith.more (hrest : GoesOnWith ps rest)
    (hseparator : ∀ pieces, GoesOnWith ps (separator ++ pieces)) :
    GoesOnWith ps (writtenMore separator before as rest) := by
  cases as with
  | nil => exact hrest
  | cons a as => exact hseparator _

theorem apart_writtenMore (hrest : ApartAfterWord rest)
    (hseparator : ∀ pieces, Apart pieces → ApartAfterWord (separator ++ pieces))
    (has : ∀ a ∈ as, ∀ rest, ApartAfterWord rest → Apart (before a rest)) :
    ApartAfterWord (writtenMore separator before as rest) := by
  induction as with
  | nil => exact hrest
  | cons a as ih =>
    refine hseparator _ (has a List.mem_cons_self _ (ih fun a ha => ?_))
    exact has a (List.mem_cons_of_mem _ ha)

theorem apart_writtenList (hrest : ApartAfterWord rest)
    (hseparator : ∀ pieces, Apart pieces → ApartAfterWord (separator ++ pieces))
    (has : ∀ a ∈ as, ∀ rest, ApartAfterWord rest → Apart (before a rest)) :
    Apart (writtenList separator before as rest) := by
  cases as with
  | nil => exact hrest.1
  | cons a as =>
    refine has a List.mem_cons_self _ (apart_writtenMore hrest hseparator fun a ha => ?_)
    exact has a (List.mem_cons_of_mem _ ha)

end

/-! ## 8. Tokens before a text -/

section

variable {rest : List Char} {t : Token}

/-- The token is of the kind, and behind it the text goes on within the line, as given. -/
structure Token.IsBefore (text : Array Char) (k : Kind) (rest : List Char) (t : Token) : Prop where
  kind_eq : t.kind = k
  textAt : TextAt text t.stop rest
  inLine : isLineStart text t.stop = false

theorem Reads.isBefore {word : Word} (h : Reads text pos word rest t) : t.IsBefore text word.kind rest :=
  ⟨h.kind_eq, h.textAt, h.inLine⟩

namespace Token.IsBefore

variable {k : Kind}

theorem unmarked (h : t.IsBefore text k rest) : isConflictMarker text t.stop = false :=
  isConflictMarker_of_isLineStart h.inLine

/-- A name is read up to where it ends. -/
theorem name {name : PlainName} (h : t.IsBefore text k (name.text.toList ++ rest)) (hend : EndsWord rest) :
    ∃ next, t.next text = (next, []) ∧ next.IsBefore text .identifier rest ∧ next.value = name.text := by
  obtain ⟨next, hnext⟩ := reads_word h.textAt name.isIdentifier hend
  refine ⟨next, hnext.scan_eq, ?_, hnext.value_eq⟩
  rw [← name.wordKind_eq]
  exact hnext.isBefore

theorem punct {p : Punctuator} (h : t.IsBefore text k (p.text.toList ++ rest))
    (hp : p.standsBefore rest = true) :
    ∃ next, t.next text = (next, []) ∧ next.IsBefore text (.punct p) rest := by
  obtain ⟨next, hnext⟩ := reads_punct h.textAt hp h.unmarked
  exact ⟨next, hnext.scan_eq, hnext.isBefore⟩

theorem lastSemicolon (h : t.IsBefore text k [';']) :
    ∃ next, t.next text = (next, []) ∧ LastSemicolon text next := by
  obtain ⟨next, hnext, hsemicolon⟩ : ∃ next, t.next text = (next, [])
      ∧ next.IsBefore text (.punct .semicolon) [] := punct (p := .semicolon) h rfl
  obtain ⟨last, hlast, hend⟩ := scanAt_end hsemicolon.textAt
  exact ⟨next, hnext, hsemicolon.kind_eq, last, hlast, hend⟩

end Token.IsBefore

end

end ScriptSyntax
