/-
  ScriptSyntax/Proofs/Documentation/TypeTag.lean
  ==============================================
  Types in documentation comments.

  The type of a tag stands between braces and may hold braces itself.  As long as those balance, it
  ends at the brace that closes the first one, and what stands behind that brace is the comment of the
  tag: the margin of the line and the blanks at its ends make no difference to either.
-/
import Mathlib.Data.List.Infix
import ScriptSyntax.Documentation.Comment

namespace ScriptSyntax

variable {cs front rest label : List Char} {c : Char} {depth last : Nat}

/-! ## 1. Blanks -/

theorem dropBlanks_cons_of_not (h : isBlank c = false) (cs : List Char) : dropBlanks (c :: cs) = c :: cs := by
  simp [dropBlanks, h]

theorem dropFinalBlanks_cons (c : Char) (cs : List Char) : dropFinalBlanks (c :: cs)
    = if isBlank c ∧ dropFinalBlanks cs = [] then [] else c :: dropFinalBlanks cs := by
  simp only [dropFinalBlanks, List.reverse_cons, List.dropWhile_append, List.isEmpty_iff, List.reverse_eq_nil_iff]
  cases hc : isBlank c <;> split <;> simp_all

/-- Blanks at the end are dropped up to the last character that is none. -/
theorem dropFinalBlanks_append (h : ∀ c ∈ front.getLast?, isBlank c = false) (cs : List Char) :
    dropFinalBlanks (front ++ cs) = front ++ dropFinalBlanks cs := by
  induction front with
  | nil => rfl
  | cons c front ih =>
    cases front with
    | nil =>
      have hc : isBlank c = false := h c rfl
      simp [dropFinalBlanks_cons, hc]
    | cons d front =>
      have hfront := ih (by simpa using h)
      rw [List.cons_append, dropFinalBlanks_cons, hfront]
      simp

theorem dropFinalBlanks_idem (cs : List Char) : dropFinalBlanks (dropFinalBlanks cs) = dropFinalBlanks cs := by
  induction cs with
  | nil => rfl
  | cons c cs ih =>
    by_cases hnone : isBlank c = true ∧ dropFinalBlanks cs = []
    · rw [dropFinalBlanks_cons, if_pos hnone]
      rfl
    · rw [dropFinalBlanks_cons, if_neg hnone, dropFinalBlanks_cons, ih, if_neg hnone]

/-- It makes no difference at which end blanks are dropped first. -/
theorem dropBlanks_dropFinalBlanks (cs : List Char) :
    dropBlanks (dropFinalBlanks cs) = dropFinalBlanks (dropBlanks cs) := by
  induction cs with
  | nil => rfl
  | cons c cs ih =>
    cases hc : isBlank c with
    | true =>
      have hdrop (ds : List Char) : dropBlanks (c :: ds) = dropBlanks ds := by simp [dropBlanks, hc]
      rw [hdrop, ← ih, dropFinalBlanks_cons]
      split
      · rename_i hnone
        rw [hnone.2]
      · exact hdrop _
    | false => simp [dropFinalBlanks_cons, dropBlanks_cons_of_not, hc]

theorem dropOne_dropFinalBlanks (hc : isBlank c = false) (cs : List Char) :
    dropOne c (dropFinalBlanks cs) = dropFinalBlanks (dropOne c cs) := by
  cases cs with
  | nil => rfl
  | cons d cs =>
    by_cases heq : d = c
    · subst heq
      simp [dropFinalBlanks_cons, hc, dropOne]
    · have hkeep (ds : List Char) : dropOne c (d :: ds) = d :: ds := by simp [dropOne, heq]
      rw [hkeep, dropFinalBlanks_cons]
      split
      · rfl
      · exact hkeep _

/-- The blanks that end a line are no part of a comment that ends with it. -/
theorem tagComment_dropFinalBlanks (cs : List Char) : tagComment (dropFinalBlanks cs) = tagComment cs := by
  have hhyphen : isBlank '-' = false := by decide
  simp only [tagComment, trimBlanks, dropBlanks_dropFinalBlanks, dropOne_dropFinalBlanks hhyphen,
    dropFinalBlanks_idem]

/-! ## 2. Braces -/

/-- Every brace that the characters close was opened by them before, and every one opened is closed. -/
structure BracesBalance (cs : List Char) : Prop where
  opened : ∀ before, before <+: cs → before.count '}' ≤ before.count '{'
  closed : cs.count '}' = cs.count '{'

/-- It is enough to count the braces of all first parts, and of the whole. -/
theorem bracesBalance_iff (cs : List Char) :
    ((cs.inits.all fun before => before.count '}' ≤ before.count '{') && cs.count '}' == cs.count '{') = true
      ↔ BracesBalance cs := by
  simp only [Bool.and_eq_true, List.all_eq_true, List.mem_inits, decide_eq_true_eq, beq_iff_eq]
  constructor
  · rintro ⟨hopened, hclosed⟩
    exact ⟨hopened, hclosed⟩
  · rintro ⟨hopened, hclosed⟩
    exact ⟨hopened, hclosed⟩

instance (cs : List Char) : Decidable (BracesBalance cs) := decidable_of_iff _ (bracesBalance_iff cs)

theorem splitAtClosingBrace_open (depth : Nat) (cs : List Char) : splitAtClosingBrace depth ('{' :: cs)
    = ('{' :: (splitAtClosingBrace (depth + 1) cs).1, (splitAtClosingBrace (depth + 1) cs).2) := by
  rw [splitAtClosingBrace]

theorem splitAtClosingBrace_close (depth : Nat) (cs : List Char) : splitAtClosingBrace (depth + 1) ('}' :: cs)
    = ('}' :: (splitAtClosingBrace depth cs).1, (splitAtClosingBrace depth cs).2) := by
  rw [splitAtClosingBrace]

theorem splitAtClosingBrace_other (hopen : c ≠ '{') (hclose : c ≠ '}') (depth : Nat) (cs : List Char) :
    splitAtClosingBrace depth (c :: cs)
      = (c :: (splitAtClosingBrace depth cs).1, (splitAtClosingBrace depth cs).2) := by
  rw [splitAtClosingBrace]
  · exact hopen
  · intro _
    exact hclose
  · intro _ _
    exact hclose

/-- Characters that close no more braces than are open are gone over, with as many braces open behind
them as they leave open. -/
theorem splitAtClosingBrace_append
    (hopen : ∀ before, before <+: cs → before.count '}' ≤ before.count '{' + depth)
    (hlast : cs.count '{' + depth = cs.count '}' + last) (rest : List Char) :
    splitAtClosingBrace depth (cs ++ rest)
      = (cs ++ (splitAtClosingBrace last rest).1, (splitAtClosingBrace last rest).2) := by
  induction cs generalizing depth with
  | nil =>
    obtain rfl : depth = last := by simpa using hlast
    rfl
  | cons c cs ih =>
    have hmore (before : List Char) (hbefore : before <+: cs) :
        (c :: before).count '}' ≤ (c :: before).count '{' + depth :=
      hopen (c :: before) (List.cons_prefix_cons.mpr ⟨rfl, hbefore⟩)
    by_cases hbrace : c = '{'
    · subst hbrace
      have hin (before : List Char) (hbefore : before <+: cs) :
          before.count '}' ≤ before.count '{' + (depth + 1) := by
        simpa [Nat.add_assoc, Nat.add_comm 1] using hmore before hbefore
      have hend : cs.count '{' + (depth + 1) = cs.count '}' + last := by
        simpa [Nat.add_assoc, Nat.add_comm 1] using hlast
      rw [List.cons_append, splitAtClosingBrace_open, ih hin hend]
      rfl
    by_cases hclose : c = '}'
    · subst hclose
      -- a brace that was open before is closed here
      obtain ⟨depth, rfl⟩ : ∃ d, depth = d + 1 := by
        apply Nat.exists_eq_succ_of_ne_zero
        intro hzero
        simpa [hzero] using hmore [] List.nil_prefix
      have hin (before : List Char) (hbefore : before <+: cs) :
          before.count '}' ≤ before.count '{' + depth := by
        simpa [← Nat.add_assoc] using hmore before hbefore
      have hend : cs.count '{' + depth = cs.count '}' + last := by
        simp only [List.count_cons_self, List.count_cons_of_ne (show '}' ≠ '{' by decide)] at hlast
        omega
      rw [List.cons_append, splitAtClosingBrace_close, ih hin hend]
      rfl
    · have hin (before : List Char) (hbefore : before <+: cs) :
          before.count '}' ≤ before.count '{' + depth := by
        simpa [hbrace, hclose] using hmore before hbefore
      have hend : cs.count '{' + depth = cs.count '}' + last := by
        simpa [hbrace, hclose] using hlast
      rw [List.cons_append, splitAtClosingBrace_other hbrace hclose, ih hin hend]
      rfl

/-- A type whose braces balance ends at the brace that closes the first one. -/
theorem takeDocType_braced (h : BracesBalance cs) (rest : List Char) :
    takeDocType ('{' :: (cs ++ '}' :: rest)) = (some (String.ofList (trimBlanks cs)), rest) := by
  have hend : splitAtClosingBrace 0 ('}' :: rest) = ([], rest) := by rw [splitAtClosingBrace]
  have hsplit : splitAtClosingBrace 0 (cs ++ '}' :: rest) = (cs, rest) := by
    rw [splitAtClosingBrace_append h.opened (congrArg (· + 0) h.closed.symm), hend, List.append_nil]
  rw [takeDocType, dropBlanks_cons_of_not (by decide)]
  simp only [hsplit]

/-! ## 3. Comments of one line -/

theorem commentBody_enclosed (body : List Char) :
    commentBody ('/' :: '*' :: '*' :: (body ++ ['*', '/'])) = body := by
  have hopen : afterText? "/**" ('/' :: '*' :: '*' :: (body ++ ['*', '/'])) = some (body ++ ['*', '/']) := by
    simp [afterText?]
  have hclose : "*/".toList.isSuffixOf? (body ++ ['*', '/']) = some body := by
    simp
  rw [commentBody, hopen, Option.getD_some, hclose, Option.getD_some]

theorem splitLines_of_notMem (hne : cs ≠ []) (h : '\n' ∉ cs) : splitLines cs = [cs] := by
  fun_induction splitLines cs with
  | case1 => exact absurd rfl hne
  | case2 => exact absurd List.mem_cons_self h
  | case3 => exact absurd (List.mem_cons_of_mem _ List.mem_cons_self) h
  | case4 c cs _ _ hnone ih =>
    have hcs : cs = [] := by
      by_contra hcs
      rw [ih hcs (List.not_mem_of_not_mem_cons h)] at hnone
      cases hnone
    rw [hcs]
  | case5 c cs _ _ line lines hsome ih =>
    have hcs : cs ≠ [] := by
      rintro rfl
      cases hsome
    rw [ih hcs (List.not_mem_of_not_mem_cons h)] at hsome
    cases hsome
    rfl

theorem joinLines_singleton (line : List Char) : joinLines [line] = line := by
  simp [joinLines]

/-- A line that starts with a tag holds that tag alone: its label up to a blank or a brace, and what
stands behind it. -/
theorem groupByTag_tagLine (hlabel : ∀ c ∈ label, isBlank c = false ∧ c ≠ '{')
    (hrest : ∀ c ∈ rest.head?, isBlank c = true ∨ c = '{') :
    groupByTag ['@' :: (label ++ rest)] = ([], [(label, [dropBlanks rest])]) := by
  have hspan : (label ++ rest).span (fun c => !isBlank c && c != '{') = (label, rest) := by
    rw [List.span_eq_takeWhile_dropWhile]
    have hin : ∀ c ∈ label, (!isBlank c && c != '{') = true := by
      intro c hc
      simp [hlabel c hc]
    rw [List.takeWhile_append_of_pos hin, List.dropWhile_append_of_pos hin]
    cases rest with
    | nil => simp
    | cons c rest =>
      have hstop : (!isBlank c && c != '{') = false := by
        rcases hrest c rfl with hblank | hbrace
        · simp [hblank]
        · simp [hbrace]
      simp [hstop]
  simp only [groupByTag, hspan]

theorem dropMargin_tagLine (hlabel : ∀ c ∈ label, isBlank c = false) (rest : List Char) :
    dropMargin (' ' :: '@' :: (label ++ rest)) = '@' :: (label ++ dropFinalBlanks rest) := by
  have hlast : ∀ c ∈ ('@' :: label).getLast?, isBlank c = false := by
    intro c hc
    rcases List.mem_cons.mp (List.mem_of_getLast? hc) with rfl | hmem
    · decide
    · exact hlabel c hmem
  have hstart : dropBlanks (' ' :: '@' :: (label ++ rest)) = '@' :: (label ++ rest) := by
    simp [dropBlanks, show isBlank ' ' = true by decide, show isBlank '@' = false by decide]
  rw [dropMargin, hstart]
  exact dropFinalBlanks_append hlast rest

/-- A comment of one line that starts with a tag has that tag and nothing else. The blanks around what
stands behind the label are dropped. -/
theorem DocComment.parse_tagLine {comment : String}
    (hcomment : comment.toList = '/' :: '*' :: '*' :: (' ' :: '@' :: (label ++ rest) ++ ['*', '/']))
    (hlabel : ∀ c ∈ label, isBlank c = false ∧ c ≠ '{')
    (hrest : ∀ c ∈ (dropFinalBlanks rest).head?, isBlank c = true ∨ c = '{') (hline : '\n' ∉ label ++ rest)
    (pos stop : Nat) : DocComment.parse comment pos stop
      = { pos, stop, comment := none, tags := [DocTag.ofLines label [dropBlanks (dropFinalBlanks rest)]] } := by
  have hlines : splitLines (commentBody comment.toList) = [' ' :: '@' :: (label ++ rest)] := by
    rw [hcomment, commentBody_enclosed]
    exact splitLines_of_notMem (List.cons_ne_nil _ _) (by simpa using hline)
  have hmargin := dropMargin_tagLine (fun c hc => (hlabel c hc).1) rest
  have htags := groupByTag_tagLine hlabel hrest
  simp only [DocComment.parse, hlines, List.map_cons, List.map_nil, hmargin, htags]
  rfl

/-! ## 4. Types -/

/-- Where a tag is made of a type, what stands behind the closing brace is its comment. -/
theorem DocTag.ofLines_braced (hlabel : DocTagForm.ofLabel (String.ofList label) = .typeOnly)
    (h : BracesBalance cs) (rest : List Char) : DocTag.ofLines label ['{' :: (cs ++ '}' :: rest)]
      = { label := String.ofList label, name := none, type := some (String.ofList (trimBlanks cs))
          comment := tagComment rest } := by
  simp only [DocTag.ofLines, joinLines_singleton, hlabel, DocTagForm.read, takeDocType_braced h]

/-- **Types in braces.**  A comment of one line that starts with the tag of a type has no description and
that one tag.  The type is what stands between the first brace and the one that closes it, braces within
included, and the comment is what stands behind, without a hyphen before it. -/
theorem DocComment.parse_typeTag (s r : String) (hs : '\n' ∉ s.toList) (hbraces : BracesBalance s.toList)
    (hr : '\n' ∉ r.toList) (pos stop : Nat) :
    DocComment.parse ("/** @type \x7b" ++ s ++ "\x7d" ++ r ++ "*/") pos stop
      = { pos, stop, comment := none
          tags := [{
            label := "type", name := none
            type := some (String.ofList (trimBlanks s.toList))
            comment := someText (trimBlanks (dropOne '-' (dropBlanks r.toList))) }] } := by
  have hcomment : ("/** @type \x7b" ++ s ++ "\x7d" ++ r ++ "*/").toList
      = '/' :: '*' :: '*' :: (' ' :: '@' :: (['t', 'y', 'p', 'e']
        ++ (' ' :: '{' :: (s.toList ++ '}' :: r.toList))) ++ ['*', '/']) := by
    simp
  have hspace : isBlank ' ' = true := by decide
  have hopen : isBlank '{' = false := by decide
  have htrimmed : dropFinalBlanks (' ' :: '{' :: (s.toList ++ '}' :: r.toList))
      = ' ' :: '{' :: (s.toList ++ '}' :: dropFinalBlanks r.toList) := by
    have hlast : ∀ c ∈ ((' ' :: '{' :: s.toList) ++ ['}']).getLast?, isBlank c = false := by
      intro c hc
      obtain rfl : '}' = c := by simpa only [List.getLast?_concat, Option.mem_some] using hc
      decide
    simpa using dropFinalBlanks_append hlast r.toList
  have hbehind : dropBlanks (dropFinalBlanks (' ' :: '{' :: (s.toList ++ '}' :: r.toList)))
      = '{' :: (s.toList ++ '}' :: dropFinalBlanks r.toList) := by
    rw [htrimmed]
    simp [dropBlanks, hspace, hopen]
  have hlabel : ∀ c ∈ ['t', 'y', 'p', 'e'], isBlank c = false ∧ c ≠ '{' := by
    intro c hc
    simp only [List.mem_cons, List.not_mem_nil, or_false] at hc
    rcases hc with rfl | rfl | rfl | rfl <;> decide
  have hrest : ∀ c ∈ (dropFinalBlanks (' ' :: '{' :: (s.toList ++ '}' :: r.toList))).head?,
      isBlank c = true ∨ c = '{' := by
    intro c hc
    obtain rfl : ' ' = c := by simpa only [htrimmed, List.head?_cons, Option.mem_some] using hc
    exact .inl hspace
  rw [parse_tagLine hcomment hlabel hrest (by simp [hs, hr]), hbehind, DocTag.ofLines_braced rfl hbraces,
    tagComment_dropFinalBlanks]
  rfl

/-- A type of an object, and a note behind it. -/
def objectType : String := "\x7b a: \x7b\x7d \x7d "

def typeNote : String := " - \x7dc "

/-- The braces of the type are parts of it, and one in the note closes nothing. -/
theorem DocComment.parse_typeTag_objectType :
    '\n' ∉ objectType.toList ∧ BracesBalance objectType.toList ∧ '\n' ∉ typeNote.toList
      ∧ DocComment.parse "/** @type \x7b\x7b a: \x7b\x7d \x7d \x7d - \x7dc */" 0 31
        = { pos := 0, stop := 31, comment := none
            tags := [⟨"type", none, some "\x7b a: \x7b\x7d \x7d", some "\x7dc"⟩] } := by
  have hs : '\n' ∉ objectType.toList := by decide
  have hbraces : BracesBalance objectType.toList := by decide
  have hr : '\n' ∉ typeNote.toList := by decide
  exact ⟨hs, hbraces, hr, parse_typeTag objectType typeNote hs hbraces hr 0 31⟩

end ScriptSyntax
