/-
  ScriptSyntax/Proofs/Token/RegularExpression.lean
  ================================================
  Regular expressions are read up to the slash that closes them.

  A slash closes unless it is escaped or stands in a class of characters.  What is
  written for an expression is read to its closing slash and through the flags; and
  where the line has no closing slash, the expression ends with the line.
-/
import ScriptSyntax.Proofs.Token.LoneToken
import ScriptSyntax.Token.Scanner

namespace ScriptSyntax

/-! ## 1. Regular expressions as they are written -/

/-- A member of a class of characters. -/
inductive ClassMember where
  | plain (c : Char) (stands : c ≠ ']' ∧ c ≠ '\\' ∧ isLineBreak c = false)
  | escaped (c : Char) (onLine : isLineBreak c = false)

def ClassMember.chars : ClassMember → List Char
  | plain c _ => [c]
  | escaped c _ => ['\\', c]

/-- An item of the body of a regular expression: a character, an escaped one, or a class. -/
inductive RegexItem where
  | plain (c : Char) (stands : c ≠ '/' ∧ c ≠ '[' ∧ c ≠ '\\' ∧ isLineBreak c = false)
  | escaped (c : Char) (onLine : isLineBreak c = false)
  | charClass (members : List ClassMember)

def RegexItem.chars : RegexItem → List Char
  | plain c _ => [c]
  | escaped c _ => ['\\', c]
  | charClass members => '[' :: (members.flatMap ClassMember.chars ++ [']'])

/-- A regular expression with its flags. An empty body, and one that starts with an asterisk, would make its first
slash that of a comment. -/
structure RegexTerm where
  items : List RegexItem
  nonempty : items ≠ []
  noComment : (items.flatMap RegexItem.chars).head? ≠ some '*'
  flags : List Char
  areFlags : ∀ c ∈ flags, isIdentifierPart c = true

def RegexTerm.chars (r : RegexTerm) : List Char :=
  '/' :: (r.items.flatMap RegexItem.chars ++ '/' :: r.flags)

/-- Two slashes that do not close, one in a class and one after a backslash. -/
def slashesInside : RegexTerm where
  items := [.charClass [.plain '/' (by decide), .escaped ']' (by decide)], .escaped '/' (by decide)]
  nonempty := by simp
  noComment := by decide
  flags := ['g']
  areFlags := List.forall_mem_singleton.mpr (by decide)

example : slashesInside.chars = "/[/\\]]\\//g".toList := by decide

/-- The line starts with items and a slash that closes them. -/
def Closes (line : List Char) : Prop :=
  ∃ (items : List RegexItem) (after : List Char), line = items.flatMap RegexItem.chars ++ '/' :: after

/-- What stands on a line behind a slash that opens no comment and is never closed. -/
structure UnclosedRegex where
  line : List Char
  onLine : ∀ c ∈ line, isLineBreak c = false
  noComment : line.head? ≠ some '/' ∧ line.head? ≠ some '*'
  neverCloses : ¬Closes line

def UnclosedRegex.chars (u : UnclosedRegex) : List Char := '/' :: u.line

/-- A slash in a class, where nothing ends the class. -/
def unclosedClass : UnclosedRegex where
  line := ['[', '/']
  onLine := by simp [isLineBreak]
  noComment := by decide
  neverCloses := by
    rintro ⟨items, after, hline⟩
    cases items with
    | nil => cases hline
    | cons item items =>
      cases item with
      | plain c stands => exact stands.2.1 (List.cons.inj hline).1.symm
      | escaped c onLine => cases hline
      | charClass members =>
        have hend : ']' ∈ ['[', '/'] := by
          rw [hline]
          simp [RegexItem.chars]
        revert hend
        decide

/-- The literal of a regular expression that is written so at the position. -/
def regexToken (cs : List Char) (pos : Nat) (unterminated : Bool) : Token :=
  ⟨pos, pos, pos + cs.length, .literal .regularExpression, String.ofList cs, { unterminated }⟩

variable {text : Array Char} {pos : Nat} {c : Char} {cs line rest : List Char} {escaped inClass : Bool}

/-! ## 2. Bodies that are closed -/

/-- What reads on over each of several things reads on over all of them. -/
theorem TextAt.eq_behind_flatMap {α β : Type} {chars : α → List Char} {as : List α} {read : Nat → β}
    (h : TextAt text pos (as.flatMap chars ++ rest)) (hone : ∀ (a : α) {pos : Nat} {rest : List Char},
      TextAt text pos (chars a ++ rest) → read pos = read (pos + (chars a).length)) :
    read pos = read (pos + (as.flatMap chars).length) := by
  induction as generalizing pos with
  | nil => rfl
  | cons a as ih =>
    have hfirst : TextAt text pos (chars a ++ (as.flatMap chars ++ rest)) := by
      simpa using h
    rw [hone a hfirst, ih hfirst.skip, List.flatMap_cons, List.length_append, Nat.add_assoc]

namespace Token

/-- One more character of a body: after a backslash it escapes, and brackets open and close a class. -/
theorem regexBodyEnd_char (h : TextAt text pos (c :: cs)) (hc : isLineBreak c = false)
    (hopen : escaped = true ∨ inClass = true ∨ c ≠ '/') : regexBodyEnd text escaped inClass pos
      = regexBodyEnd text (!escaped && c == '\\')
          (if escaped then inClass else c == '[' || (inClass && c != ']')) (pos + 1) := by
  have hlt := h.lt_size
  rw [regexBodyEnd]
  simp only [hlt, ↓reduceDIte, h.getElem hlt, hc, Bool.false_eq_true, if_false]
  cases escaped with
  | true => simp
  | false =>
    have hslash : (c == '/' && !inClass) = false := by
      rcases hopen with hfalse | hclass | hne
      · cases hfalse
      · simp [hclass]
      · simp [hne]
    simp [hslash]

/-- The slash that closes a body. -/
theorem regexBodyEnd_slash (h : TextAt text pos ('/' :: cs)) :
    regexBodyEnd text false false pos = (pos + 1, true) := by
  have hlt := h.lt_size
  rw [regexBodyEnd]
  simp [hlt, h.getElem hlt, isLineBreak]

theorem regexBodyEnd_member (member : ClassMember) (h : TextAt text pos (member.chars ++ rest)) :
    regexBodyEnd text false true pos = regexBodyEnd text false true (pos + member.chars.length) := by
  cases member with
  | plain c stands =>
    obtain ⟨hbracket, hbackslash, hc⟩ := stands
    rw [regexBodyEnd_char h hc (.inr (.inl rfl))]
    simp [ClassMember.chars, beq_eq_false_iff_ne.mpr hbackslash, bne_iff_ne.mpr hbracket]
  | escaped c onLine =>
    rw [regexBodyEnd_char h (by decide) (.inr (.inl rfl)), regexBodyEnd_char (TextAt.tail h) onLine (.inl (by decide))]
    simp [ClassMember.chars]

theorem regexBodyEnd_members {members : List ClassMember}
    (h : TextAt text pos (members.flatMap ClassMember.chars ++ rest)) : regexBodyEnd text false true pos
      = regexBodyEnd text false true (pos + (members.flatMap ClassMember.chars).length) :=
  h.eq_behind_flatMap fun member => regexBodyEnd_member member

theorem regexBodyEnd_item (item : RegexItem) (h : TextAt text pos (item.chars ++ rest)) :
    regexBodyEnd text false false pos = regexBodyEnd text false false (pos + item.chars.length) := by
  cases item with
  | plain c stands =>
    obtain ⟨hslash, hbracket, hbackslash, hc⟩ := stands
    rw [regexBodyEnd_char h hc (.inr (.inr hslash))]
    simp [RegexItem.chars, beq_eq_false_iff_ne.mpr hbackslash, beq_eq_false_iff_ne.mpr hbracket]
  | escaped c onLine =>
    rw [regexBodyEnd_char h (by decide) (.inr (.inr (by decide))),
      regexBodyEnd_char (TextAt.tail h) onLine (.inl (by decide))]
    simp [RegexItem.chars]
  | charClass members =>
    have hmembers : TextAt text (pos + 1) (members.flatMap ClassMember.chars ++ ']' :: rest) := by
      simpa [RegexItem.chars] using TextAt.tail h
    calc regexBodyEnd text false false pos
      _ = regexBodyEnd text false true (pos + 1) := regexBodyEnd_char h (by decide) (.inr (.inr (by decide)))
      _ = regexBodyEnd text false true (pos + 1 + (members.flatMap ClassMember.chars).length) :=
        regexBodyEnd_members hmembers
      _ = regexBodyEnd text false false (pos + 1 + (members.flatMap ClassMember.chars).length + 1) :=
        regexBodyEnd_char hmembers.skip (by decide) (.inr (.inl rfl))
      _ = regexBodyEnd text false false (pos + (RegexItem.charClass members).chars.length) := by
        simp [RegexItem.chars]
        congr 1
        omega

/-- The items of a body are read to the last one. -/
theorem regexBodyEnd_items {items : List RegexItem} (h : TextAt text pos (items.flatMap RegexItem.chars ++ rest)) :
    regexBodyEnd text false false pos
      = regexBodyEnd text false false (pos + (items.flatMap RegexItem.chars).length) :=
  h.eq_behind_flatMap fun item => regexBodyEnd_item item

end Token

/-! ## 3. Bodies that are not -/

/-- The line starts with the rest of a class, and what follows the class is closed. -/
def ClosesInClass (line : List Char) : Prop :=
  ∃ (members : List ClassMember) (later : List Char),
    line = members.flatMap ClassMember.chars ++ ']' :: later ∧ Closes later

/-- The line closes the body that it goes on with, from within a class or after a backslash too. -/
def ClosesFrom (escaped inClass : Bool) (line : List Char) : Prop :=
  match escaped, inClass with
  | false, false => Closes line
  | false, true => ClosesInClass line
  | true, false => ∃ c later, line = c :: later ∧ Closes later
  | true, true => ∃ c later, line = c :: later ∧ ClosesInClass later

theorem Closes.cons (item : RegexItem) (h : Closes line) : Closes (item.chars ++ line) := by
  obtain ⟨items, after, rfl⟩ := h
  exact ⟨item :: items, after, by simp⟩

theorem ClosesInClass.cons (member : ClassMember) (h : ClosesInClass line) :
    ClosesInClass (member.chars ++ line) := by
  obtain ⟨members, later, rfl, hlater⟩ := h
  exact ⟨member :: members, later, by simp, hlater⟩

theorem ClosesInClass.openBracket (h : ClosesInClass line) : Closes ('[' :: line) := by
  obtain ⟨members, later, rfl, hlater⟩ := h
  simpa [RegexItem.chars] using hlater.cons (.charClass members)

/-- What closes the body after a character closes it before the character too. -/
theorem ClosesFrom.cons (hline : ∀ d ∈ c :: line, isLineBreak d = false)
    (h : ClosesFrom (!escaped && c == '\\') (if escaped then inClass else c == '[' || (inClass && c != ']')) line) :
    ClosesFrom escaped inClass (c :: line) := by
  have hc : isLineBreak c = false := hline c List.mem_cons_self
  -- outside of a class the character is a part of the next item, and within one of the next member
  cases escaped with
  | true => cases inClass <;> exact ⟨c, line, rfl, h⟩
  | false =>
    by_cases hbackslash : c = '\\'
    · subst hbackslash
      cases inClass with
      | false =>
        obtain ⟨d, later, rfl, hlater⟩ : ∃ d later, line = d :: later ∧ Closes later := h
        exact hlater.cons (.escaped d (hline d (by simp)))
      | true =>
        obtain ⟨d, later, rfl, hlater⟩ : ∃ d later, line = d :: later ∧ ClosesInClass later := h
        exact hlater.cons (.escaped d (hline d (by simp)))
    · rw [beq_eq_false_iff_ne.mpr hbackslash] at h
      cases inClass with
      | false =>
        by_cases hslash : c = '/'
        · exact ⟨[], line, by simp [hslash]⟩
        by_cases hbracket : c = '['
        · subst hbracket
          exact ClosesInClass.openBracket h
        · rw [beq_eq_false_iff_ne.mpr hbracket] at h
          exact Closes.cons (.plain c ⟨hslash, hbracket, hbackslash, hc⟩) h
      | true =>
        by_cases hbracket : c = ']'
        · subst hbracket
          exact ⟨[], line, rfl, h⟩
        · rw [bne_iff_ne.mpr hbracket, Bool.and_true, Bool.or_true] at h
          exact ClosesInClass.cons (.plain c ⟨hbracket, hbackslash, hc⟩) h

/-- A body that the line does not close ends with the line. -/
theorem Token.regexBodyEnd_of_not_closes (h : TextAt text pos (line ++ rest))
    (hline : ∀ c ∈ line, isLineBreak c = false) (hrest : ∀ c ∈ rest.head?, isLineBreak c = true)
    (hopen : ¬ClosesFrom escaped inClass line) :
    regexBodyEnd text escaped inClass pos = (pos + line.length, false) := by
  induction line generalizing pos escaped inClass with
  | nil =>
    rw [regexBodyEnd]
    cases rest with
    | nil => simp [Nat.not_lt.mpr (TextAt.size_le h)]
    | cons c cs =>
      have hlt := TextAt.lt_size h
      simp [hlt, TextAt.getElem h hlt, hrest c rfl]
  | cons c line ih =>
    obtain ⟨hc, hmore⟩ := List.forall_mem_cons.mp hline
    -- a slash that the walk stops at would close the line
    have hslash : escaped = true ∨ inClass = true ∨ c ≠ '/' := by
      cases escaped with
      | true => exact .inl rfl
      | false =>
        cases inClass with
        | true => exact .inr (.inl rfl)
        | false =>
          refine .inr (.inr ?_)
          rintro rfl
          exact hopen ⟨[], line, rfl⟩
    rw [regexBodyEnd_char h hc hslash,
      ih (TextAt.tail h) hmore fun hcloses => hopen (.cons hline hcloses)]
    simp
    omega

/-! ## 4. Regular expressions -/

/-- A slash that starts no comment is read by itself, or with an equals sign behind it. -/
theorem scanAt_slash (h : TextAt text pos ('/' :: cs)) (hcomment : cs.head? ≠ some '/' ∧ cs.head? ≠ some '*') :
    ∃ p stop, scanAt text pos = (⟨pos, pos, stop, .punct p, "", {}⟩, []) ∧ (p = .slash ∨ p = .slashEquals) := by
  obtain ⟨p, hat, hp⟩ : ∃ p, punctuatorAt? text pos = some p ∧ (p = .slash ∨ p = .slashEquals) := by
    refine ⟨if cs[0]? == some '=' then .slashEquals else .slash, ?_, ?_⟩
    · simp [punctuatorAt?, h.head, h.next, punctuatorOf?]
    · split <;> simp
  have hlexeme : lexemeAt text pos '/' = p.lexeme pos := by
    have hdigit : isDigit '/' = false := by decide
    unfold lexemeAt
    simp [hdigit, hat]
  have hscan := scanAt_of_char h (by decide) (by decide) (fun _ => hcomment) (by decide)
  refine ⟨p, pos + p.text.length, ?_, hp⟩
  rw [hscan, hlexeme]
  simp [Lexeme.toToken, Punctuator.lexeme]

/-- A slash that starts no comment is read again as the expression whose body it starts. -/
theorem rescanSlash_scanAt (h : TextAt text pos ('/' :: cs ++ rest))
    (hcomment : (cs ++ rest).head? ≠ some '/' ∧ (cs ++ rest).head? ≠ some '*') {last : Nat} {closed : Bool}
    (hbody : Token.regexBodyEnd text false false (pos + 1) = (last, closed))
    (hflags : scanWhile isIdentifierPart text last = pos + ('/' :: cs).length) :
    (scanAt text pos).2 = [] ∧ (scanAt text pos).1.rescanSlash text = (regexToken ('/' :: cs) pos (!closed),
      if closed then [] else [⟨.unterminatedRegularExpression, last, 0⟩]) := by
  obtain ⟨p, stop, hscan, hp⟩ := scanAt_slash h hcomment
  rw [hscan]
  constructor
  · rfl
  · have hvalue : sliceOf text pos (pos + (cs.length + 1)) = "/" ++ String.ofList cs := by
      simpa using h.slice
    unfold Token.rescanSlash
    rcases hp with rfl | rfl <;> simp [hbody, hflags, hvalue, regexToken]

/-- An expression is closed by the slash behind its items, and its flags follow. -/
theorem RegexTerm.regexBodyEnd_eq (r : RegexTerm) (h : TextAt text pos (r.chars ++ rest)) :
    ∃ last, Token.regexBodyEnd text false false (pos + 1) = (last, true) ∧ TextAt text last (r.flags ++ rest)
      ∧ last + r.flags.length = pos + r.chars.length := by
  have hbody : TextAt text (pos + 1) (r.items.flatMap RegexItem.chars ++ '/' :: (r.flags ++ rest)) := by
    simpa [chars] using TextAt.tail h
  refine ⟨_, ?_, hbody.skip.tail, ?_⟩
  · rw [Token.regexBodyEnd_items hbody, Token.regexBodyEnd_slash hbody.skip]
  · simp [chars]
    omega

/-- The body of an expression starts with neither a slash nor an asterisk. -/
theorem RegexTerm.opensNoComment (r : RegexTerm) (rest : List Char) :
    (r.items.flatMap RegexItem.chars ++ '/' :: r.flags ++ rest).head? ≠ some '/'
      ∧ (r.items.flatMap RegexItem.chars ++ '/' :: r.flags ++ rest).head? ≠ some '*' := by
  obtain ⟨items, nonempty, noComment, flags, areFlags⟩ := r
  cases items with
  | nil => exact absurd rfl nonempty
  | cons item items =>
    cases item with
    | plain c stands => exact ⟨by simpa [RegexItem.chars] using stands.1, by simpa [RegexItem.chars] using noComment⟩
    | escaped c onLine => simp [RegexItem.chars]
    | charClass members => simp [RegexItem.chars]

/-- The scan of an expression, and then its reading as one. -/
theorem RegexTerm.rescanSlash_eq (r : RegexTerm) (h : TextAt text pos (r.chars ++ rest))
    (hrest : ∀ c ∈ rest.head?, isIdentifierPart c = false) :
    (scanAt text pos).2 = [] ∧ (scanAt text pos).1.rescanSlash text = (regexToken r.chars pos false, []) := by
  obtain ⟨last, hbody, hflags, hstop⟩ := r.regexBodyEnd_eq h
  refine rescanSlash_scanAt h (r.opensNoComment rest) hbody ?_
  rw [hflags.scanWhile_eq r.areFlags hrest, hstop, chars]

/-- The scan of an expression that is not closed, and then its reading as one. -/
theorem UnclosedRegex.rescanSlash_eq (u : UnclosedRegex) (h : TextAt text pos (u.chars ++ rest))
    (hrest : ∀ c ∈ rest.head?, isLineBreak c = true) :
    (scanAt text pos).2 = [] ∧ (scanAt text pos).1.rescanSlash text = (regexToken u.chars pos true,
      [⟨.unterminatedRegularExpression, pos + u.chars.length, 0⟩]) := by
  have hline : TextAt text (pos + 1) (u.line ++ rest) := TextAt.tail h
  have hlast : pos + 1 + u.line.length = pos + u.chars.length := by
    rw [chars, List.length_cons]
    omega
  have hbody : Token.regexBodyEnd text false false (pos + 1) = (pos + u.chars.length, false) := by
    rw [← hlast]
    exact Token.regexBodyEnd_of_not_closes hline u.onLine hrest u.neverCloses
  have hnone : scanWhile isIdentifierPart text (pos + u.chars.length) = pos + u.chars.length := by
    have hend : TextAt text (pos + u.chars.length) ([] ++ rest) := h.skip
    refine hend.scanWhile_eq (by simp) fun c hc => ?_
    apply Bool.eq_false_iff.mpr
    intro hpart
    exact Bool.false_ne_true ((isLineBreak_of_isIdentifierPart hpart).symm.trans (hrest c hc))
  refine rescanSlash_scanAt h ?_ hbody hnone
  cases hcs : u.line with
  | nil =>
    -- a line break follows the slash, or the text ends
    constructor <;> exact fun hhead => absurd (hrest _ hhead) (by decide)
  | cons c cs => simpa [hcs] using u.noComment

/-- A slash that starts no comment, read again as the start of a regular expression. What is written for one is that
expression up to its last flag. Where the line does not close it, it is unterminated and ends with the line, and
that is the one error. -/
theorem Scanner.read_rescanSlash (s : Scanner) (hs : s.listening = false) :
    (∀ (r : RegexTerm) (rest : List Char), TextAt s.text s.token.stop (r.chars ++ rest) →
      (∀ c ∈ rest.head?, isIdentifierPart c = false) →
      ((s.read .scan).1.read .rescanSlash).1 = { s with token := regexToken r.chars s.token.stop false })
    ∧ (∀ (u : UnclosedRegex) (rest : List Char), TextAt s.text s.token.stop (u.chars ++ rest) →
      (∀ c ∈ rest.head?, isLineBreak c = true) →
      ((s.read .scan).1.read .rescanSlash).1 = { s with
        token := regexToken u.chars s.token.stop true
        queue := s.queue ++ [⟨.unterminatedRegularExpression, s.token.stop + u.chars.length, 0⟩] }) := by
  have hread {t : Token} {errors : List ScanError} (hscan : (scanAt s.text s.token.stop).2 = []
      ∧ (scanAt s.text s.token.stop).1.rescanSlash s.text = (t, errors)) :
      ((s.read .scan).1.read .rescanSlash).1 = { s with token := t, queue := s.queue ++ errors } := by
    obtain ⟨hnone, hagain⟩ := hscan
    simp [Scanner.read, ReadingMode.read, Token.next, hs, hnone, hagain]
  constructor
  · intro r rest h hrest
    rw [hread (r.rescanSlash_eq h hrest), List.append_nil]
  · intro u rest h hrest
    exact hread (u.rescanSlash_eq h hrest)

/-- A slash in a class ends the expression neither where the class ends nor where it does not. -/
theorem Scanner.read_rescanSlash_class :
    (((ofText slashesInside.chars.toArray).read .scan).1.read .rescanSlash).1.token
      = regexToken slashesInside.chars 0 false
    ∧ (((ofText unclosedClass.chars.toArray).read .scan).1.read .rescanSlash).1.queue
      = [⟨.unterminatedRegularExpression, 3, 0⟩] := by
  have hclosed := (read_rescanSlash (ofText slashesInside.chars.toArray) rfl).1 slashesInside [] rfl (by simp)
  have hunclosed := (read_rescanSlash (ofText unclosedClass.chars.toArray) rfl).2 unclosedClass [] rfl (by simp)
  rw [hclosed, hunclosed]
  exact ⟨rfl, rfl⟩

end ScriptSyntax
