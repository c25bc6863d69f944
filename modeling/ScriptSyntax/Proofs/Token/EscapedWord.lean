/-
  ScriptSyntax/Proofs/Token/EscapedWord.lean
  ==========================================
  Words with escaped characters are the words that they spell.

  Escapes change how a word is written, and not which word it is: it has the same
  value and is a keyword or not as it would be without them.
-/
import ScriptSyntax.Proofs.Token.EscapeForms
import ScriptSyntax.Proofs.Token.LoneToken

namespace ScriptSyntax

/-! ## 1. Words as they are written -/

/-- A character of a word as it stands, or as an escape. -/
inductive WordItem where
  | verbatim (c : Char)
  | escaped (c : Char) (form : UnicodeEscape c)

namespace WordItem

/-- The character that is meant. -/
def value : WordItem → Char
  | verbatim c | escaped c _ => c

def chars : WordItem → List Char
  | verbatim c => [c]
  | escaped _ form => form.chars

def isEscaped : WordItem → Bool
  | verbatim _ => false
  | escaped .. => true

end WordItem

/-- The text of a word. -/
def wordText (items : List WordItem) : SourceText := .ofChars (items.flatMap WordItem.chars)

example : wordText [.escaped 'i' (.unit [⟨0, false⟩, ⟨0, false⟩, ⟨6, false⟩, ⟨9, false⟩] rfl (by decide)), .verbatim 'f']
    = .ofString "\\u0069f" := by decide

variable {text : Array Char} {pos : Nat} {items : List WordItem} {item : WordItem} {cs rest : List Char} {c : Char}

/-! ## 2. Reading them -/

/-- A word goes on with an escape of a character that may be part of one. -/
theorem readWordFrom_escape {e : UnicodeEscape c} (h : TextAt text pos (e.chars ++ rest))
    (hc : isIdentifierPart c = true) (word : String) (escaped : Bool) :
    readWordFrom text word escaped pos = readWordFrom text (word.push c) true (pos + e.chars.length) := by
  obtain ⟨cs, hchars⟩ := e.exists_cons
  have hhead : TextAt text pos ('\\' :: (cs ++ rest)) := by
    rwa [hchars] at h
  have hlt := hhead.lt_size
  have hbackslash : isIdentifierPart '\\' = false := by decide
  have hescape := e.inIdentifier?_eq h
  rw [readWordFrom]
  simp only [hlt, ↓reduceDIte, hhead.getElem hlt, hbackslash, Bool.false_eq_true, if_false]
  split
  · rename_i d stop he
    rw [hescape] at he
    cases he
    simp only [hc, if_true]
  · rename_i he
    rw [hescape] at he
    cases he

/-- A word is read on over one item. -/
theorem readWordFrom_item (h : TextAt text pos (item.chars ++ rest)) (hitem : isIdentifierPart item.value = true)
    (word : String) (escaped : Bool) : readWordFrom text word escaped pos
      = readWordFrom text (word.push item.value) (escaped || item.isEscaped) (pos + item.chars.length) := by
  cases item with
  | verbatim c =>
    rw [WordItem.isEscaped, Bool.or_false]
    exact readWordFrom_part h hitem word escaped
  | escaped c form =>
    rw [WordItem.isEscaped, Bool.or_true]
    exact readWordFrom_escape h hitem word escaped

/-- A word is read up to where its last item ends. -/
theorem readWordFrom_items (h : TextAt text pos (items.flatMap WordItem.chars ++ rest))
    (hitems : ∀ item ∈ items, isIdentifierPart item.value = true) (hend : EndsWord rest) (word : String)
    (escaped : Bool) :
    readWordFrom text word escaped pos = ⟨pos + (items.flatMap WordItem.chars).length,
      wordKind (word ++ String.ofList (items.map WordItem.value)), word ++ String.ofList (items.map WordItem.value),
      { unicodeEscape := escaped || items.any WordItem.isEscaped }, []⟩ := by
  induction items generalizing pos word escaped with
  | nil => simpa using readWordFrom_end h hend word escaped
  | cons item items ih =>
    have hitem : TextAt text pos (item.chars ++ (items.flatMap WordItem.chars ++ rest)) := by
      simpa using h
    obtain ⟨hpart, hmore⟩ := List.forall_mem_cons.mp hitems
    rw [readWordFrom_item hitem hpart, ih hitem.skip hmore, push_append_ofList]
    simp [Nat.add_assoc, Bool.or_assoc]

/-- An escape of a character that may start a word starts a word. -/
theorem scanAt_of_escape {e : UnicodeEscape c} (h : TextAt text pos (e.chars ++ rest))
    (hc : isIdentifierStart c = true) :
    scanAt text pos = (readWord text pos).toToken pos ⟨pos, {}, []⟩ := by
  obtain ⟨cs, hchars⟩ := e.exists_cons
  have hhead : TextAt text pos ('\\' :: (cs ++ rest)) := by
    rwa [hchars] at h
  have hpunct : punctuatorAt? text pos = none := by
    simp [punctuatorAt?, hhead.head, punctuatorOf?]
  have hlexeme : lexemeAt text pos '\\' = readWord text pos := by
    have hdigit : isDigit '\\' = false := by decide
    have hstart : isIdentifierStart '\\' = false := by decide
    unfold lexemeAt
    simp [hdigit, hpunct, hstart, e.inIdentifier?_eq h, hc]
  rw [← hlexeme]
  exact scanAt_of_char hhead (by decide) (by decide) (fun hslash => absurd hslash (by decide)) (by decide)

/-- However the characters of a word are written, the word is read up to where its last character ends. -/
theorem scanAt_of_items {word : String} (h : TextAt text pos (items.flatMap WordItem.chars ++ rest))
    (hword : isIdentifierText word = true) (hitems : items.map WordItem.value = word.toList) (hend : EndsWord rest) :
    scanAt text pos = (readWord text pos).toToken pos ⟨pos, {}, []⟩
      ∧ readWord text pos = ⟨pos + (items.flatMap WordItem.chars).length, wordKind word, word,
          { unicodeEscape := items.any WordItem.isEscaped }, []⟩ := by
  obtain ⟨c, w, hlist, hstart, hall⟩ := exists_cons_of_isIdentifierText hword
  have hparts : ∀ item ∈ items, isIdentifierPart item.value = true := by
    intro item hitem
    apply hall
    rw [← hitems]
    exact List.mem_map_of_mem hitem
  constructor
  · -- the first item starts the word, as it stands or as an escape
    cases items with
    | nil => exact absurd (hitems.trans hlist) (by simp)
    | cons item items =>
      have hvalue : isIdentifierStart item.value = true := by
        rw [hlist] at hitems
        rwa [(List.cons.inj hitems).1]
      rw [List.flatMap_cons, List.append_assoc] at h
      cases item with
      | verbatim c => exact scanAt_of_isIdentifierStart h hvalue
      | escaped c form => exact scanAt_of_escape h hvalue
  · rw [readWord, readWordFrom_items h hparts hend, hitems]
    simp

/-- However the characters of a word are written, the text is one token with that word as its value. The token is
the keyword if the word is one, and it is noted whether a character was escaped. -/
theorem isToken_wordText {word : String} (hword : isIdentifierText word = true)
    (hitems : items.map WordItem.value = word.toList) :
    (wordText items).IsToken ((Keyword.ofText? word).elim .identifier .keyword) word
      { unicodeEscape := items.any WordItem.isEscaped } := by
  have htext : TextAt (wordText items).chars 0 (items.flatMap WordItem.chars ++ []) := by
    rw [List.append_nil]
    exact SourceText.textAt_ofChars _
  obtain ⟨hscan, hread⟩ := scanAt_of_items htext hword hitems (by rintro _ ⟨⟩)
  rw [hread, Nat.zero_add] at hscan
  have hkind : wordKind word = (Keyword.ofText? word).elim .identifier .keyword := by
    unfold wordKind
    cases Keyword.ofText? word <;> rfl
  rw [← hkind]
  exact SourceText.isToken_of_scanAt hscan rfl (wordKind_ne word) rfl

/-- A keyword with an escaped letter is the keyword. -/
theorem isToken_wordText_keyword : isIdentifierText "if" = true
    ∧ (wordText [.escaped 'i' (.braced [⟨0, false⟩, ⟨6, false⟩, ⟨9, false⟩] (by decide) (by decide)),
      .verbatim 'f']).IsToken (.keyword .ifKw) "if" { unicodeEscape := true } := by
  have hword : isIdentifierText "if" = true := by decide
  exact ⟨hword, isToken_wordText hword (by decide)⟩

end ScriptSyntax
