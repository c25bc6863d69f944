/-
  ScriptSyntax/Proofs/Token/KeywordMark.lean
  ==========================================
  Tokens that are names, and the keywords that they are taken for.

  What a word is taken for is settled when it has been read to its end.  Between
  tags a name may go on with hyphens, and its value is extended by them; what it
  is taken for stays.  So a name is taken for the keyword that it spells before its
  first hyphen, and no way of reading changes that.
-/
import Mathlib.Data.List.TakeWhile
import ScriptSyntax.Grammar.Names
import ScriptSyntax.Proofs.Token.Placed

namespace ScriptSyntax

variable {text : Array Char} {pos : Nat} {c : Char} {t u : Token} {tokens : List Token}
variable {name more : String}

/-! ## 1. Words before hyphens -/

/-- What stands in a name before its first hyphen. -/
def beforeHyphen (name : String) : String := String.ofList (name.toList.takeWhile (· != '-'))

theorem beforeHyphen_of_notMem (h : '-' ∉ name.toList) : beforeHyphen name = name := by
  have hall : name.toList.takeWhile (· != '-') = name.toList := by
    refine List.takeWhile_eq_self_iff.mpr fun c hc => ?_
    simpa using ne_of_mem_of_not_mem hc h
  rw [beforeHyphen, hall, String.ofList_toList]

/-- What starts with a hyphen does not belong to the word before it. -/
theorem beforeHyphen_append (h : ∀ c ∈ more.toList.head?, c = '-') :
    beforeHyphen (name ++ more) = beforeHyphen name := by
  have hmore : more.toList.takeWhile (· != '-') = [] := by
    cases hlist : more.toList with
    | nil => rfl
    | cons c cs =>
      obtain rfl : c = '-' := h c (by simp [hlist])
      rfl
  rw [beforeHyphen, beforeHyphen, String.toList_append, List.takeWhile_append, hmore]
  split
  · rename_i hall
    rw [List.append_nil, (List.takeWhile_prefix _).eq_of_length hall]
  · rfl

/-- A name with a hyphen is the word before it, the hyphen and a rest. -/
theorem exists_eq_beforeHyphen_append (h : '-' ∈ name.toList) :
    ∃ rest : String, name = beforeHyphen name ++ "-" ++ rest := by
  have hsplit : name.toList.takeWhile (· != '-') ++ name.toList.dropWhile (· != '-') = name.toList :=
    List.takeWhile_append_dropWhile
  have hfirst := List.head?_dropWhile_not (· != '-') name.toList
  cases hrest : name.toList.dropWhile (· != '-') with
  | nil =>
    rw [hrest, List.append_nil] at hsplit
    have hne := List.takeWhile_eq_self_iff.mp hsplit '-' h
    exact absurd hne (by decide)
  | cons c cs =>
    rw [hrest] at hfirst hsplit
    obtain rfl : c = '-' := by simpa using hfirst
    refine ⟨String.ofList cs, String.toList_injective ?_⟩
    simp only [String.toList_append, beforeHyphen, String.toList_ofList, List.append_assoc]
    exact hsplit.symm

theorem Keyword.hyphen_notMem (k : Keyword) : '-' ∉ k.text.toList := by
  cases k <;> decide +kernel

theorem Keyword.eq_text_of_ofText? {k : Keyword} (h : Keyword.ofText? name = some k) : name = k.text := by
  have htext : (k.text == name) = true := List.find?_some (p := fun k : Keyword => k.text == name) h
  exact (beq_iff_eq.mp htext).symm

theorem Keyword.ofText?_of_hyphen (h : '-' ∈ name.toList) : Keyword.ofText? name = none := by
  cases hfind : Keyword.ofText? name with
  | none => rfl
  | some k =>
    rw [Keyword.eq_text_of_ofText? hfind] at h
    exact absurd h k.hyphen_notMem

/-- The name is a keyword that goes on with a hyphen. -/
def ExtendsKeyword (name : String) : Prop :=
  ∃ word rest : String, (Keyword.ofText? word).isSome = true ∧ name = word ++ "-" ++ rest

/-- Before its first hyphen a name spells the keyword that all of it spells, unless it is a keyword that
goes on with a hyphen; then it spells another. -/
theorem ofText?_beforeHyphen_eq_iff :
    Keyword.ofText? (beforeHyphen name) = Keyword.ofText? name ↔ ¬ExtendsKeyword name := by
  by_cases h : '-' ∈ name.toList
  · obtain ⟨rest, hrest⟩ := exists_eq_beforeHyphen_append h
    rw [Keyword.ofText?_of_hyphen h]
    constructor
    · rintro hnone ⟨word, more, hword, rfl⟩
      obtain ⟨k, hk⟩ := Option.isSome_iff_exists.mp hword
      have hplain : '-' ∉ word.toList := Keyword.eq_text_of_ofText? hk ▸ k.hyphen_notMem
      have hbefore : beforeHyphen (word ++ "-" ++ more) = word := by
        rw [String.append_assoc, beforeHyphen_append (by simp), beforeHyphen_of_notMem hplain]
      rw [hbefore, hk] at hnone
      cases hnone
    · intro hno
      by_contra hsome
      exact hno ⟨beforeHyphen name, rest, Option.isSome_iff_ne_none.mpr hsome, hrest⟩
  · rw [beforeHyphen_of_notMem h]
    refine ⟨fun _ ⟨word, more, _, heq⟩ => h ?_, fun _ => rfl⟩
    simp [heq]

/-! ## 2. Words -/

theorem keyword?_wordKind (word : String) : (wordKind word).keyword? = Keyword.ofText? word := by
  unfold wordKind
  split
  · rename_i k hk
    exact hk.symm
  · rename_i hnone
    exact hnone.symm

/-- The word has been read to its end. -/
structure Lexeme.IsWord (text : Array Char) (l : Lexeme) : Prop where
  kind_eq : l.kind = wordKind l.value
  parts : ∀ c ∈ l.value.toList, isIdentifierPart c = true
  ends : ∀ c, text[l.stop]? = some c → isIdentifierPart c = false

theorem isWord_readWordFrom {word : String} (hword : ∀ c ∈ word.toList, isIdentifierPart c = true)
    (escaped : Bool) : (readWordFrom text word escaped pos).IsWord text := by
  have hpush {word : String} {c : Char} (hword : ∀ c ∈ word.toList, isIdentifierPart c = true)
      (hc : isIdentifierPart c = true) : ∀ d ∈ (word.push c).toList, isIdentifierPart d = true := by
    intro d hd
    rw [String.toList_push] at hd
    rcases List.mem_append.mp hd with hd | hd
    · exact hword d hd
    · rw [List.mem_singleton.mp hd]
      exact hc
  have hstop {pos : Nat} (hlt : pos < text.size) (hc : ¬isIdentifierPart text[pos] = true) :
      ∀ c, text[pos]? = some c → isIdentifierPart c = false := by
    intro c hget
    rw [Array.getElem?_eq_getElem hlt] at hget
    cases hget
    simpa using hc
  fun_induction readWordFrom text word escaped pos with
  | case1 word escaped pos hlt c hc ih => exact ih (hpush hword hc)
  | case2 word escaped pos hlt c hc d stop he hd ih => exact ih (hpush hword hd)
  | case3 word escaped pos hlt c hc d stop he hd => exact ⟨rfl, hword, hstop hlt hc⟩
  | case4 word escaped pos hlt c hc he => exact ⟨rfl, hword, hstop hlt hc⟩
  | case5 word escaped pos hlt =>
    exact ⟨rfl, hword, fun c hget => absurd (lt_size_of_eq_some hget) hlt⟩

theorem isWord_readWord (text : Array Char) (pos : Nat) : (readWord text pos).IsWord text :=
  isWord_readWordFrom (by simp) false

/-- A lexeme that is a name is a word. -/
theorem isWord_lexemeAt (h : (lexemeAt text pos c).kind.isName = true) : (lexemeAt text pos c).IsWord text := by
  have hno {l : Lexeme} (hl : l.kind.isPlainLiteral = true) : ¬l.kind.isName = true := by
    simp [Kind.isName_of_isPlainLiteral hl]
  unfold lexemeAt at h ⊢
  split at h
  · exact absurd h (hno (isPlainLiteral_readString _ _))
  · split at h
    · exact absurd h (hno (isPlainLiteral_readTemplate _ _))
    · split at h
      · exact absurd h (hno (isPlainLiteral_readNumber text pos))
      · split at h
        · cases h
        · split at h
          · simp only [*, Bool.false_eq_true, if_false, if_true]
            exact isWord_readWord text pos
          · split at h
            · split at h
              · simp only [*, Bool.false_eq_true, if_false, if_true]
                exact isWord_readWord text pos
              · cases h
            · cases h

/-! ## 3. Tokens -/

theorem Kind.isName_of_isJsxText {k : Kind} (h : k.isJsxText = true) : k.isName = false := by
  cases k with
  | literal l => rfl
  | _ => cases h

/-- A name is taken for the keyword that it spells before its first hyphen, and could not go on with a
character of a word. -/
def Token.IsMarked (text : Array Char) (t : Token) : Prop :=
  t.kind.isName = true → t.kind.keyword? = Keyword.ofText? (beforeHyphen t.value)
    ∧ ∀ c, text[t.stop]? = some c → isIdentifierPart c = false

namespace Token

theorem isMarked_of_isName (h : t.kind.isName = false) : t.IsMarked text := by
  intro hname
  rw [h] at hname
  cases hname

/-- Between tags there are no names. -/
theorem isName_scanJsxAt (text : Array Char) (pos : Nat) : (scanJsxAt text pos).1.kind.isName = false := by
  unfold scanJsxAt
  split
  · rename_i c hc
    show (jsxLexemeAt text pos c).kind.isName = false
    unfold jsxLexemeAt
    split
    · split <;> rfl
    · split
      · rfl
      · exact Kind.isName_of_isJsxText (isJsxText_jsxTextFrom false false [])
  · rfl

theorem isMarked_scanAt (text : Array Char) (pos : Nat) : (scanAt text pos).1.IsMarked text := by
  unfold scanAt
  dsimp only
  split
  · rename_i c hc
    intro hname
    have hword : (lexemeAt text (triviaRun text pos).stop c).IsWord text := isWord_lexemeAt hname
    have hplain : '-' ∉ (lexemeAt text (triviaRun text pos).stop c).value.toList := fun hmem =>
      absurd (hword.parts _ hmem) (by decide)
    refine ⟨?_, hword.ends⟩
    show Kind.keyword? (Lexeme.kind _) = Keyword.ofText? (beforeHyphen (Lexeme.value _))
    rw [hword.kind_eq, keyword?_wordKind, beforeHyphen_of_notMem hplain]
  · exact isMarked_of_isName rfl

/-- The source between two positions starts with the character at the first. -/
theorem getElem?_of_head?_sliceOf {stop : Nat} (h : c ∈ (sliceOf text pos stop).toList.head?) :
    pos < stop ∧ text[pos]? = some c := by
  rw [sliceOf, String.toList_ofList, List.head?_eq_getElem?, Array.getElem?_toList, Array.getElem?_extract] at h
  split at h
  · exact ⟨by omega, h⟩
  · cases h

/-- Hyphens extend the value, and not what the token is taken for. -/
theorem IsMarked.scanJsxName (h : t.IsMarked text) : (t.scanJsxName text).1.IsMarked text := by
  unfold Token.scanJsxName
  split
  · rename_i hname
    obtain ⟨hkeyword, hends⟩ := h hname
    let inName (c : Char) : Bool := c == '-' || isIdentifierPart c
    refine fun _ => ⟨?_, fun c hc => ?_⟩
    · show t.kind.keyword? = Keyword.ofText? (beforeHyphen (t.value ++ sliceOf text t.stop _))
      rw [beforeHyphen_append, hkeyword]
      intro c hc
      obtain ⟨hlt, hget⟩ := getElem?_of_head?_sliceOf hc
      obtain ⟨d, hd, hfits⟩ := of_mem_scanWhile (p := inName) (Nat.le_refl _) hlt
      obtain rfl : c = d := Option.some.inj (hget.symm.trans hd)
      simpa [inName, hends c hget] using hfits
    · have hstops : inName c = false := scanWhile_stops (p := inName) hc
      exact (Bool.or_eq_false_iff.mp hstops).2
  · exact h

end Token

theorem ReadingMode.isMarked_read (mode : ReadingMode) (h : t.IsMarked text) :
    (mode.read text t).1.IsMarked text := by
  cases mode with
  | scan => exact Token.isMarked_scanAt text t.stop
  | rescanGreater =>
    show (t.rescanGreater text).1.IsMarked text
    unfold Token.rescanGreater
    split
    · exact Token.isMarked_of_isName rfl
    · exact h
  | rescanSlash =>
    show (t.rescanSlash text).1.IsMarked text
    unfold Token.rescanSlash
    split
    · exact Token.isMarked_of_isName rfl
    · exact h
  | rescanTemplate =>
    exact Token.isMarked_of_isName (Kind.isName_of_isPlainLiteral (isPlainLiteral_readTemplate _ _))
  | rescanLess =>
    show t.rescanLess.1.IsMarked text
    unfold Token.rescanLess
    split
    · exact Token.isMarked_of_isName rfl
    · exact h
  | extendJsxName => exact h.scanJsxName
  | scanJsx => exact Token.isMarked_of_isName (Token.isName_scanJsxAt text t.stop)
  | scanJsxAttributeValue =>
    show (t.nextJsxAttributeValue text).1.IsMarked text
    unfold Token.nextJsxAttributeValue
    split
    · split
      · exact Token.isMarked_of_isName rfl
      · exact Token.isMarked_scanAt text t.stop
    · exact Token.isMarked_scanAt text t.stop
  | rescanJsx => exact Token.isMarked_of_isName (Token.isName_scanJsxAt text t.fullStart)

/-- Whatever is read over, each name is taken for the keyword that it spells before its first hyphen. -/
theorem ReadsOver.isMarked (h : ReadsOver text t tokens u) (ht : t.IsMarked text) :
    u.IsMarked text ∧ ∀ k ∈ tokens, k.IsMarked text := by
  induction h with
  | here => exact ⟨ht, fun _ hk => absurd hk List.not_mem_nil⟩
  | again mode _ _ _ ih => exact ⟨mode.isMarked_read ih.1, ih.2⟩
  | on mode _ _ ih =>
    refine ⟨mode.isMarked_read ih.1, fun k hk => ?_⟩
    rcases List.mem_append.mp hk with hk | hk
    · exact ih.2 k hk
    · rw [List.mem_singleton.mp hk]
      exact ih.1

end ScriptSyntax
