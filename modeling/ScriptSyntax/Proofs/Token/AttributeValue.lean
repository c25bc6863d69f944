/-
  ScriptSyntax/Proofs/Token/AttributeValue.lean
  =============================================
  Strings as values of attributes.

  Right behind the equals sign of an attribute a string is taken as it stands.
  Behind a space it is read as any other string, and then a backslash is read as
  an escape and a line break ends the string.  An escape is longer than what it
  stands for, so where there is one the value is not what is written.
-/
import ScriptSyntax.Proofs.Token.StringLiteral

namespace ScriptSyntax

variable {text : Array Char} {pos : Nat} {q : QuoteMark} {k : Cooked} {c : Char} {v w rest : List Char}

/-! ## 1. Strings read up to their quotes -/

/-- An escape takes its backslash and the character behind it, if there is one. -/
theorem Escape.le_stop_read (h : text[pos + 1]? = some c) : pos + 2 ≤ (read text pos).stop := by
  obtain heq | heq | ⟨-, heq⟩ | ⟨-, heq | ⟨-, heq⟩⟩ := read_cases h
  · rw [heq]
    exact le_stop_byteForm text (pos + 2)
  · rw [heq]
    exact le_stop_unitForm text (pos + 2)
  · have hbraced := le_stop_bracedForm text (pos + 3)
    rw [heq]
    omega
  · omega
  · omega

/-- An escape that nothing is wrong with takes its backslash and at least one more character. -/
theorem Escape.le_stop_of_errors (h : (read text pos).errors = []) : pos + 2 ≤ (read text pos).stop := by
  cases hnext : text[pos + 1]? with
  | some c => exact le_stop_read hnext
  | none =>
    unfold read at h
    rw [hnext] at h
    cases h

/-- An escape stands for one character at most. -/
theorem Cooked.length_pushEscape_le (k : Cooked) (e : Escape) :
    (k.pushEscape e).value.length ≤ k.value.length + 1 := by
  unfold pushEscape
  cases e.char? <;> simp

/-- The string ends with the quote at `close`, and its value has grown by no more characters than were read. -/
structure Lexeme.ClosesAt (text : Array Char) (q : QuoteMark) (k : Cooked) (pos close : Nat) (l : Lexeme) :
    Prop where
  clean : k.errors = []
  kind_eq : l.kind = .literal .string
  stop_eq : l.stop = close + 1
  ahead : pos ≤ close
  quote : text[close]? = some q.char
  short : l.value.length + pos ≤ k.value.length + close

/-- A string that is read without an error ends with a quote. -/
theorem readString_closes (text : Array Char) (q : QuoteMark) (k : Cooked) (pos : Nat)
    (h : (readString text q.char k pos).errors = []) :
    ∃ close, (readString text q.char k pos).ClosesAt text q k pos close := by
  have hopen {k : Cooked} {pos : Nat} :
      (k.unterminated (.literal .string) .unterminatedString pos).errors ≠ [] := by
    simp [Cooked.unterminated]
  fun_induction readString text q.char k pos with
  | case1 k pos hlt c hquote =>
    have hc : text[pos]? = some q.char := by
      rw [Array.getElem?_eq_getElem hlt]
      exact congrArg some (beq_iff_eq.mp hquote)
    exact ⟨pos, h, rfl, rfl, Nat.le_refl pos, hc, Nat.le_refl _⟩
  | case2 k pos hlt c hquote hbackslash e ih =>
    obtain ⟨close, hcloses⟩ := ih h
    have herrors : k.errors = [] ∧ e.errors = [] := List.append_eq_nil_iff.mp hcloses.clean
    have hstop : pos + 2 ≤ e.stop := Escape.le_stop_of_errors herrors.2
    have hlength := k.length_pushEscape_le e
    have hahead := hcloses.ahead
    have hshort := hcloses.short
    exact ⟨close, herrors.1, hcloses.kind_eq, hcloses.stop_eq, by omega, hcloses.quote, by omega⟩
  | case3 k pos hlt c hquote hbackslash hbreak => exact absurd h hopen
  | case4 k pos hlt c hquote hbackslash hbreak ih =>
    obtain ⟨close, hcloses⟩ := ih h
    have hlength : (k.push c).value.length = k.value.length + 1 := String.length_push c
    have hahead := hcloses.ahead
    have hshort := hcloses.short
    exact ⟨close, hcloses.clean, hcloses.kind_eq, hcloses.stop_eq, by omega, hcloses.quote, by omega⟩
  | case5 k pos hlt => exact absurd h hopen

/-! ## 2. Plain characters -/

/-- A character that stands for itself in every string that it does not end. -/
def IsPlainInString (c : Char) : Prop := c ≠ '\\' ∧ isLineBreak c = false

instance (c : Char) : Decidable (IsPlainInString c) := inferInstanceAs (Decidable (_ ∧ _))

/-- A string is read on over plain characters. -/
theorem readString_plain (h : TextAt text pos (w ++ rest)) (hquote : q.char ∉ w)
    (hplain : ∀ c ∈ w, IsPlainInString c) (k : Cooked) :
    readString text q.char k pos
      = readString text q.char { k with value := k.value ++ String.ofList w } (pos + w.length) := by
  induction w generalizing pos k with
  | nil => simp
  | cons c w ih =>
    simp only [List.mem_cons, not_or] at hquote
    obtain ⟨⟨hbackslash, hbreak⟩, hplain⟩ := List.forall_mem_cons.mp hplain
    have hlt := TextAt.lt_size h
    rw [readString]
    simp only [hlt, ↓reduceDIte, TextAt.getElem h hlt, beq_eq_false_iff_ne.mpr (Ne.symm hquote.1),
      beq_eq_false_iff_ne.mpr hbackslash, hbreak, Bool.false_eq_true, if_false]
    rw [ih (TextAt.tail h) hquote.2 hplain, Cooked.push, push_append_ofList, List.length_cons, Nat.add_assoc,
      Nat.add_comm 1]

/-- Characters that are not all plain start with plain ones, up to one that is not. -/
theorem exists_not_plain (h : ¬∀ c ∈ v, IsPlainInString c) :
    ∃ w c more, v = w ++ c :: more ∧ (∀ d ∈ w, IsPlainInString d) ∧ ¬IsPlainInString c := by
  induction v with
  | nil => exact absurd (by simp) h
  | cons c v ih =>
    by_cases hc : IsPlainInString c
    · obtain ⟨w, d, more, rfl, hw, hd⟩ := ih fun hv => h (List.forall_mem_cons.mpr ⟨hc, hv⟩)
      exact ⟨c :: w, d, more, rfl, List.forall_mem_cons.mpr ⟨hc, hw⟩, hd⟩
    · exact ⟨[], c, v, rfl, by simp, hc⟩

/-- A quote that stands nowhere else is found where it stands. -/
theorem TextAt.eq_of_getElem? (h : TextAt text pos (v ++ c :: rest)) (hv : c ∉ v) (hrest : c ∉ rest) {i : Nat}
    (hi : text[pos + i]? = some c) : i = v.length := by
  rw [h.getElem?, List.getElem?_append] at hi
  split at hi
  · exact absurd (List.mem_of_getElem? hi) hv
  · obtain hzero | hsucc := Nat.eq_zero_or_pos (i - v.length)
    · omega
    · rw [List.getElem?_cons, if_neg (Nat.ne_of_gt hsucc)] at hi
      exact absurd (List.mem_of_getElem? hi) hrest

/-- Plain characters between quotes are the value of the string. -/
theorem readString_of_plain (h : TextAt text pos (v ++ q.char :: rest)) (hv : q.char ∉ v)
    (hplain : ∀ c ∈ v, IsPlainInString c) :
    readString text q.char {} pos = ⟨pos + v.length + 1, .literal .string, String.ofList v, {}, []⟩ := by
  have hclose := h.skip
  have hlt := hclose.lt_size
  rw [readString_plain h hv hplain, readString]
  simp [hlt, hclose.getElem hlt, Cooked.finish]

/-- What is not plain is read with an error, or it makes the value shorter. -/
theorem readString_shortens (hc : text[pos]? = some c) (hquote : c ≠ q.char) (hspecial : ¬IsPlainInString c)
    (k : Cooked) (h : (readString text q.char k pos).errors = []) :
    ∃ close, (readString text q.char k pos).ClosesAt text q k pos close
      ∧ (readString text q.char k pos).value.length + pos < k.value.length + close := by
  have hlt := lt_size_of_eq_some hc
  have hget : text[pos] = c := by simpa [Array.getElem?_eq_getElem hlt] using hc
  rw [readString] at h ⊢
  simp only [hlt, ↓reduceDIte, hget, beq_eq_false_iff_ne.mpr hquote, Bool.false_eq_true, if_false] at h ⊢
  by_cases hbackslash : c = '\\'
  · simp only [hbackslash, beq_self_eq_true, if_true] at h ⊢
    obtain ⟨close, hcloses⟩ := readString_closes text q _ _ h
    have herrors : k.errors = [] ∧ (Escape.read text pos).errors = [] := List.append_eq_nil_iff.mp hcloses.clean
    have hstop := Escape.le_stop_of_errors herrors.2
    have hlength := k.length_pushEscape_le (Escape.read text pos)
    have hahead := hcloses.ahead
    have hshort := hcloses.short
    exact ⟨close, ⟨herrors.1, hcloses.kind_eq, hcloses.stop_eq, by omega, hcloses.quote, by omega⟩, by omega⟩
  · have hbreak : isLineBreak c = true := Bool.of_not_eq_false fun hbreak => hspecial ⟨hbackslash, hbreak⟩
    simp [hbackslash, hbreak, Cooked.unterminated] at h

/-- Where not all characters between quotes are plain, the string is read with an error, or its value is
shorter. -/
theorem readString_of_not_plain (h : TextAt text pos (v ++ q.char :: rest)) (hv : q.char ∉ v)
    (hrest : q.char ∉ rest) (hplain : ¬∀ c ∈ v, IsPlainInString c)
    (herrors : (readString text q.char {} pos).errors = []) :
    (readString text q.char {} pos).kind = .literal .string
      ∧ (readString text q.char {} pos).stop = pos + v.length + 1
      ∧ (readString text q.char {} pos).value.length < v.length := by
  obtain ⟨w, c, more, rfl, hw, hc⟩ := exists_not_plain hplain
  have hwq : q.char ∉ w := fun hmem => hv (List.mem_append_left _ hmem)
  have hne : c ≠ q.char := by
    rintro rfl
    exact hv (List.mem_append_right w List.mem_cons_self)
  have hprefix : TextAt text pos (w ++ (c :: more ++ q.char :: rest)) := by
    rwa [List.append_assoc] at h
  have hat : text[pos + w.length]? = some c := hprefix.skip.head
  rw [readString_plain hprefix hwq hw] at herrors ⊢
  obtain ⟨close, hcloses, hshort⟩ := readString_shortens hat hne hc _ herrors
  have hclose : close = pos + (w ++ c :: more).length := by
    have hahead := hcloses.ahead
    have hquote := hcloses.quote
    rw [show close = pos + (close - pos) by omega] at hquote
    have hlength := h.eq_of_getElem? hv hrest hquote
    omega
  refine ⟨hcloses.kind_eq, by rw [hcloses.stop_eq, hclose], ?_⟩
  simp only [String.empty_append, String.length_ofList] at hshort ⊢
  omega

/-- A string is read without an error if all its characters are plain. If there is no error it ends with the quote
behind them, and they are its value if and only if they are plain. -/
theorem readString_value_iff (h : TextAt text pos (v ++ q.char :: rest)) (hv : q.char ∉ v) (hrest : q.char ∉ rest) :
    ((∀ c ∈ v, IsPlainInString c) → (readString text q.char {} pos).errors = [])
      ∧ ((readString text q.char {} pos).errors = [] → (readString text q.char {} pos).kind = .literal .string
        ∧ (readString text q.char {} pos).stop = pos + v.length + 1
        ∧ ((readString text q.char {} pos).value = String.ofList v ↔ ∀ c ∈ v, IsPlainInString c)) := by
  by_cases hplain : ∀ c ∈ v, IsPlainInString c
  · rw [readString_of_plain h hv hplain]
    exact ⟨fun _ => rfl, fun _ => ⟨rfl, rfl, fun _ => hplain, fun _ => rfl⟩⟩
  · refine ⟨fun hall => absurd hall hplain, fun herrors => ?_⟩
    obtain ⟨hkind, hstop, hshort⟩ := readString_of_not_plain h hv hrest hplain herrors
    refine ⟨hkind, hstop, fun hvalue => ?_, fun hall => absurd hall hplain⟩
    rw [hvalue, String.length_ofList] at hshort
    exact absurd hshort (Nat.lt_irrefl _)

/-! ## 3. Values of attributes -/

/-- A string as the value of an attribute: the spaces before it, its quotes, and what stands between them. -/
structure AttributeString where
  spaces : Nat
  quote : QuoteMark
  value : List Char
  unquoted : quote.char ∉ value

namespace AttributeString

/-- The string as it is written, before the given characters. -/
def before (a : AttributeString) (rest : List Char) : List Char :=
  List.replicate a.spaces ' ' ++ a.quote.char :: (a.value ++ a.quote.char :: rest)

/-- Is the string read as it stands? -/
def IsVerbatim (a : AttributeString) : Prop := a.spaces = 0 ∨ ∀ c ∈ a.value, IsPlainInString c

end AttributeString

variable {a : AttributeString} {kind : Kind} {t next : Token} {errors : List ScanError}

/-- Spaces before a token are no part of what the token is. -/
theorem scanAt_spaces {n : Nat} (h : TextAt text pos (List.replicate n ' ' ++ rest))
    (hscan : scanAt text (pos + n) = (next, errors)) :
    ∃ first, scanAt text pos = ({ next with fullStart := first }, errors) := by
  induction n generalizing pos with
  | zero => exact ⟨next.fullStart, hscan⟩
  | succ n ih =>
    rw [Nat.add_comm n, ← Nat.add_assoc] at hscan
    obtain ⟨first, hfirst⟩ := ih (TextAt.tail h) hscan
    have hscan := scanAt_space h hfirst
    exact ⟨pos, hscan⟩

theorem QuoteMark.isLineBreak_char (q : QuoteMark) : isLineBreak q.char = false := by
  cases q <;> decide

/-- Where a quote stands a string is read. -/
theorem scanAt_quote (h : TextAt text pos (q.char :: rest)) :
    scanAt text pos = ((readString text q.char {} (pos + 1)).toToken pos ⟨pos, {}, []⟩) := by
  have hspace : isWhiteSpaceLike q.char = false := by cases q <;> decide
  have hmarker : isMarkerChar q.char = false := by cases q <;> decide
  have hash : q.char ≠ '#' := by cases q <;> decide
  have hslash : q.char ≠ '/' := by cases q <;> decide
  rw [scanAt_of_char h hspace hash (fun heq => absurd heq hslash) hmarker]
  cases q <;> rfl

namespace Token

/-- Right behind the equals sign a string is taken as it stands. -/
theorem nextJsxAttributeValue_quote (h : TextAt text t.stop (q.char :: (v ++ q.char :: rest))) (hv : q.char ∉ v) :
    t.nextJsxAttributeValue text
      = (⟨t.stop, t.stop, t.stop + 1 + v.length + 1, .literal .string, String.ofList v, {}⟩, []) := by
  have hquote : (q.char == '"' || q.char == '\'') = true := by cases q <;> decide
  have hclose : scanWhile (fun d => d != q.char) text (t.stop + 1) = t.stop + 1 + v.length := by
    refine h.tail.scanWhile_eq (fun d hd => bne_iff_ne.mpr ?_) (by simp)
    rintro rfl
    exact hv hd
  have hlt : t.stop + 1 + v.length < text.size := h.tail.skip.lt_size
  unfold nextJsxAttributeValue
  simp [h.head, hquote, hclose, hlt, h.tail.slice]

/-- Behind a space the value of an attribute is any other token. -/
theorem nextJsxAttributeValue_space (h : TextAt text t.stop (' ' :: rest)) :
    t.nextJsxAttributeValue text = t.next text := by
  unfold nextJsxAttributeValue
  simp [h.head]

/-- A string is read as the value of an attribute, or there are errors. Its value is what is written if and only
if the string is read as it stands, and then there are no errors. -/
theorem IsBefore.attributeString (hat : t.IsBefore text kind (a.before rest)) (hrest : a.quote.char ∉ rest) :
    ∃ next errors, t.nextJsxAttributeValue text = (next, errors) ∧ (a.IsVerbatim → errors = [])
      ∧ (errors = [] → next.IsBefore text (.literal .string) rest
        ∧ (next.value = String.ofList a.value ↔ a.IsVerbatim)) := by
  have hquoted : TextAt text (t.stop + a.spaces) (a.quote.char :: (a.value ++ a.quote.char :: rest)) := by
    have hskip := TextAt.skip hat.textAt
    rwa [List.length_replicate] at hskip
  have hclose : TextAt text (t.stop + a.spaces + 1 + a.value.length) (a.quote.char :: rest) := hquoted.tail.skip
  have hinLine : isLineStart text (t.stop + a.spaces + 1 + a.value.length + 1) = false := by
    rw [isLineStart_of_eq_some hclose.head]
    exact a.quote.isLineBreak_char
  by_cases hzero : a.spaces = 0
  · rw [hzero, Nat.add_zero] at hquoted hclose hinLine
    refine ⟨_, [], nextJsxAttributeValue_quote hquoted a.unquoted, fun _ => rfl, fun _ => ⟨⟨rfl, ?_, hinLine⟩, ?_⟩⟩
    · exact hclose.tail
    · exact ⟨fun _ => .inl hzero, fun _ => rfl⟩
  · obtain ⟨n, hn⟩ := Nat.exists_eq_succ_of_ne_zero hzero
    have hspace : TextAt text t.stop (' ' :: (List.replicate n ' ' ++ a.quote.char :: (a.value ++ a.quote.char :: rest))) := by
      have htext := hat.textAt
      rwa [AttributeString.before, hn, List.replicate_succ, List.cons_append] at htext
    obtain ⟨first, hscan⟩ := scanAt_spaces hat.textAt (scanAt_quote hquoted)
    obtain ⟨hclean, hread⟩ := readString_value_iff hquoted.tail a.unquoted hrest
    have hverbatim : a.IsVerbatim ↔ ∀ c ∈ a.value, IsPlainInString c := or_iff_right hzero
    rw [nextJsxAttributeValue_space hspace, hverbatim]
    refine ⟨_, _, hscan, fun hplain => ?_, fun herrors => ?_⟩
    · exact hclean hplain
    · obtain ⟨hkind, hstop, hvalue⟩ := hread herrors
      refine ⟨⟨hkind, ?_, ?_⟩, hvalue⟩
      · show TextAt text (readString text a.quote.char {} (t.stop + a.spaces + 1)).stop rest
        rw [hstop]
        exact hclose.tail
      · show isLineStart text (readString text a.quote.char {} (t.stop + a.spaces + 1)).stop = false
        rw [hstop]
        exact hinLine

/-! ## 4. Tokens behind a space -/

theorem IsBefore.spacedName {name : PlainName} (h : t.IsBefore text kind (' ' :: (name.text.toList ++ rest)))
    (hend : EndsWord rest) :
    ∃ next, t.next text = (next, []) ∧ next.IsBefore text .identifier rest ∧ next.value = name.text := by
  obtain ⟨next, hnext⟩ := reads_word h.textAt.tail name.isIdentifier hend
  have hspaced := hnext.space h.textAt
  refine ⟨_, hspaced.scan_eq, ?_, hspaced.value_eq⟩
  rw [← name.wordKind_eq]
  exact hspaced.isBefore

theorem IsBefore.spacedPunct {p : Punctuator} (h : t.IsBefore text kind (' ' :: (p.text.toList ++ rest)))
    (hp : p.standsBefore rest = true) :
    ∃ next, t.next text = (next, []) ∧ next.IsBefore text (.punct p) rest := by
  obtain ⟨next, hnext⟩ := reads_punct h.textAt.tail hp (isConflictMarker_after_space h.textAt)
  have hspaced := hnext.space h.textAt
  exact ⟨_, hspaced.scan_eq, hspaced.isBefore⟩

end Token

end ScriptSyntax
