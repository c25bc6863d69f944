/-
  ScriptSyntax/Proofs/Tree/Template.lean
  ======================================
  Templates, how they are written and what they are as trees.

  A template is text with names in it.  The text stands for itself, but for its
  line ends: a carriage return, alone or with a line feed after it, is a line feed.
-/
import ScriptSyntax.Proofs.Token.Spelling
import ScriptSyntax.Proofs.Tree.Forest

namespace ScriptSyntax

/-! ## 1. Templates -/

/-- Text in a template: it ends nothing, escapes nothing and opens no substitution. -/
structure TemplateRun where
  chars : List Char
  noQuote : '\x60' ∉ chars
  noEscape : '\\' ∉ chars
  noOpening : ¬['$', '{'] <:+: chars

/-- The text with a line feed in place of each carriage return, and of the line feed after it too. -/
def lineFeeds : List Char → List Char
  | '\r' :: '\n' :: cs => '\n' :: lineFeeds cs
  | '\r' :: cs => '\n' :: lineFeeds cs
  | c :: cs => c :: lineFeeds cs
  | [] => []

/-- A template: text, and names with text after each of them. -/
structure TemplateTerm where
  head : TemplateRun
  spans : List (PlainName × TemplateRun)

namespace TemplateTerm

/-- What stands behind a text, before the given characters: the closing quote, or a substitution and what
is after it. -/
def behindRun : List (PlainName × TemplateRun) → List Char → List Char
  | [], rest => '\x60' :: rest
  | (name, run) :: spans, rest =>
    '$' :: '{' :: (name.text.toList ++ '}' :: (run.chars ++ behindRun spans rest))

/-- The template as it is written, before the given characters. -/
def before (t : TemplateTerm) (rest : List Char) : List Char :=
  '\x60' :: (t.head.chars ++ behindRun t.spans rest)

/-- What stands behind the token of a text. The quote or the start of the substitution is part of that. -/
def behindPiece : List (PlainName × TemplateRun) → List Char → List Char
  | [], rest => rest
  | (name, run) :: spans, rest => name.text.toList ++ '}' :: (run.chars ++ behindRun spans rest)

/-- The kind of the token of a text. -/
def pieceKind (first : Bool) (spans : List (PlainName × TemplateRun)) : Kind :=
  if spans.isEmpty then lastPieceKind first else openPieceKind first

end TemplateTerm

open TemplateTerm

variable {text : Array Char} {pos : Nat} {rest : List Char} {first : Bool} {run : TemplateRun}
variable {spans : List (PlainName × TemplateRun)} {t : Token}

/-! ## 2. Pieces in a text -/

theorem lineFeeds_cons {c : Char} (hc : c ≠ '\r') (cs : List Char) : lineFeeds (c :: cs) = c :: lineFeeds cs := by
  rw [lineFeeds]
  · rintro _ rfl
    exact absurd rfl hc
  · exact hc

/-- Text of a template is read character by character, with its line ends put right. -/
theorem readTemplate_run (first : Bool) {w : List Char} (h : TextAt text pos (w ++ rest)) (hquote : '\x60' ∉ w)
    (hescape : '\\' ∉ w) (hopening : ¬['$', '{'] <:+: w) (hbrace : rest.head? ≠ some '{')
    (hfeed : rest.head? ≠ some '\n') (k : Cooked) : readTemplate text first k pos
      = readTemplate text first { k with value := k.value ++ String.ofList (lineFeeds w) } (pos + w.length) := by
  -- what is not a substitution as a whole has none in what is left of it
  have htail {c : Char} {cs : List Char} (hno : ¬['$', '{'] <:+: c :: cs) : ¬['$', '{'] <:+: cs :=
    fun hmore => hno (hmore.trans (List.infix_cons (List.infix_refl cs)))
  induction w using lineFeeds.induct generalizing pos k with
  | case1 cs ih =>
    simp only [List.mem_cons, not_or] at hquote hescape
    have hlt : pos < text.size := TextAt.lt_size h
    have hc : text[pos] = '\r' := TextAt.getElem h hlt
    have hnext : hasCharAt text (pos + 1) '\n' = true := by
      simp [hasCharAt, TextAt.next h]
    rw [readTemplate]
    simp only [hlt, ↓reduceDIte, hc, hnext]
    have hread := ih (TextAt.tail (TextAt.tail h)) hquote.2.2 hescape.2.2 (htail (htail hopening)) (k.push '\n')
    rw [show pos + ('\r' :: '\n' :: cs).length = pos + 2 + cs.length by simp; omega]
    simpa [Cooked.push, lineFeeds, push_append_ofList] using hread
  | case2 cs hne ih =>
    simp only [List.mem_cons, not_or] at hquote hescape
    have hlt : pos < text.size := TextAt.lt_size h
    have hc : text[pos] = '\r' := TextAt.getElem h hlt
    have hnext : hasCharAt text (pos + 1) '\n' = false := by
      cases cs with
      | nil => simpa [hasCharAt, TextAt.next h, List.head?_eq_getElem?] using hfeed
      | cons d cs =>
        have hd : d ≠ '\n' := by
          rintro rfl
          exact hne cs rfl
        simp [hasCharAt, TextAt.next h, hd]
    rw [readTemplate]
    simp only [hlt, ↓reduceDIte, hc, hnext]
    have hread := ih (TextAt.tail h) hquote.2 hescape.2 (htail hopening) (k.push '\n')
    rw [show pos + ('\r' :: cs).length = pos + 1 + cs.length by simp; omega]
    simpa [Cooked.push, lineFeeds, push_append_ofList] using hread
  | case3 c cs hpair hne ih =>
    simp only [List.mem_cons, not_or] at hquote hescape
    have hlt : pos < text.size := TextAt.lt_size h
    have hc : text[pos] = c := TextAt.getElem h hlt
    have hnext (hdollar : c = '$') : hasCharAt text (pos + 1) '{' = false := by
      subst hdollar
      cases cs with
      | nil => simpa [hasCharAt, TextAt.next h, List.head?_eq_getElem?] using hbrace
      | cons d cs =>
        have hd : d ≠ '{' := by
          rintro rfl
          exact hopening ⟨[], cs, rfl⟩
        simp [hasCharAt, TextAt.next h, hd]
    have hopens : (c == '$' && hasCharAt text (pos + 1) '{') = false := by
      by_cases hdollar : c = '$'
      · simp [hnext hdollar]
      · simp [hdollar]
    rw [readTemplate]
    simp only [hlt, ↓reduceDIte, hc, hopens, beq_eq_false_iff_ne.mpr (Ne.symm hquote.1),
      beq_eq_false_iff_ne.mpr (Ne.symm hescape.1), beq_eq_false_iff_ne.mpr hne]
    have hread := ih (TextAt.tail h) hquote.2 hescape.2 (htail hopening) (k.push c)
    rw [show pos + (c :: cs).length = pos + 1 + cs.length by simp; omega, lineFeeds_cons hne]
    simpa [Cooked.push, push_append_ofList] using hread
  | case4 => simp [lineFeeds]

theorem head?_behindRun (spans : List (PlainName × TemplateRun)) (rest : List Char) :
    (behindRun spans rest).head? = some '\x60' ∨ (behindRun spans rest).head? = some '$' := by
  cases spans with
  | nil => exact .inl rfl
  | cons span spans => exact .inr rfl

/-- A text of a template is read up to where it ends. -/
theorem readTemplate_piece (first : Bool) (h : TextAt text pos (run.chars ++ behindRun spans rest)) :
    ∃ stop, readTemplate text first {} pos
        = ⟨stop, pieceKind first spans, String.ofList (lineFeeds run.chars), {}, []⟩
      ∧ TextAt text stop (behindPiece spans rest) ∧ isLineStart text stop = false := by
  have hbrace : (behindRun spans rest).head? ≠ some '{' := by
    rcases head?_behindRun spans rest with hhead | hhead <;> simp [hhead]
  have hfeed : (behindRun spans rest).head? ≠ some '\n' := by
    rcases head?_behindRun spans rest with hhead | hhead <;> simp [hhead]
  have hread := readTemplate_run first h run.noQuote run.noEscape run.noOpening hbrace hfeed {}
  rw [hread, readTemplate]
  have hend := h.skip
  cases spans with
  | nil =>
    have hlt := hend.lt_size
    have hc : text[pos + run.chars.length] = '\x60' := hend.getElem hlt
    refine ⟨pos + run.chars.length + 1, ?_, hend.tail, ?_⟩
    · simp [hlt, hc, Cooked.finish, pieceKind]
    · rw [isLineStart_of_eq_some hend.head]
      decide
  | cons span spans =>
    obtain ⟨name, run'⟩ := span
    have hlt := hend.lt_size
    have hc : text[pos + run.chars.length] = '$' := hend.getElem hlt
    have hnext : hasCharAt text (pos + run.chars.length + 1) '{' = true := by
      simp [hasCharAt, hend.next]
    refine ⟨pos + run.chars.length + 2, ?_, hend.tail.tail, ?_⟩
    · simp [hlt, hc, hnext, Cooked.finish, pieceKind]
    · rw [isLineStart_of_eq_some hend.tail.head]
      decide

/-! ## 3. Tokens of templates -/

namespace Token

/-- The token is a text of a template, and what is behind that comes next. -/
structure IsPiece (text : Array Char) (first : Bool) (run : TemplateRun)
    (spans : List (PlainName × TemplateRun)) (rest : List Char) (t : Token) : Prop
    extends t.IsBefore text (pieceKind first spans) (behindPiece spans rest) where
  value_eq : t.value = String.ofList (lineFeeds run.chars)

/-- The brace that closes a substitution. -/
theorem IsBefore.closeBrace {k : Kind} (h : t.IsBefore text k ('}' :: rest)) :
    ∃ next, t.next text = (next, []) ∧ next.kind = .punct .closeBrace
      ∧ TextAt text next.start ('}' :: rest) := by
  have htext : TextAt text t.stop (Punctuator.closeBrace.text.toList ++ rest) := h.textAt
  have hscan := (scanAt_punct htext rfl h.unmarked).1
  exact ⟨_, hscan, rfl, h.textAt⟩

/-- Behind a substitution the brace that closes it starts the next text. -/
theorem rescanTemplate_piece (h : TextAt text t.start ('}' :: (run.chars ++ behindRun spans rest))) :
    ∃ next, t.rescanTemplate text = (next, []) ∧ next.IsPiece text false run spans rest := by
  have hquote : hasCharAt text t.start '\x60' = false := by
    simp [hasCharAt, h.head]
  obtain ⟨stop, hread, htext, hline⟩ := readTemplate_piece false h.tail
  have hrescan : t.rescanTemplate text = ({ t with
      kind := pieceKind false spans, stop, value := String.ofList (lineFeeds run.chars)
      flags := t.flags.join {} }, []) := by
    unfold rescanTemplate readTemplatePiece
    rw [hquote, hread]
  exact ⟨_, hrescan, ⟨rfl, htext, hline⟩, rfl⟩

end Token

/-- The first text of a template is read with the quote that opens it. -/
theorem scanAt_template {term : TemplateTerm} (h : TextAt text pos (term.before rest)) :
    ∃ t, scanAt text pos = (t, []) ∧ t.IsPiece text true term.head term.spans rest := by
  have hquote : hasCharAt text pos '\x60' = true := by
    simp [hasCharAt, TextAt.head h]
  obtain ⟨stop, hread, htext, hline⟩ := readTemplate_piece true (TextAt.tail h)
  have hscan := scanAt_of_char h (by decide) (by decide) (fun hslash => absurd hslash (by decide)) rfl
  have hlexeme : lexemeAt text pos '\x60' = readTemplatePiece text pos := by
    simp [lexemeAt]
  rw [hlexeme, readTemplatePiece, hquote, hread] at hscan
  exact ⟨_, hscan, ⟨rfl, htext, hline⟩, rfl⟩

/-! ## 4. Templates in a forest -/

namespace Forest

/-- Under the number there is a text of a template. -/
def IsPiece (F : Forest) (kind : Kind) (run : TemplateRun) (id : NodeId) : Prop :=
  ∃ flags, F.Shows id kind (.literal (String.ofList (lineFeeds run.chars)) flags)

/-- Under the number there is a substitution of the name with the text after it. -/
def IsSpan (F : Forest) (kind : Kind) (name : PlainName) (run : TemplateRun) (id : NodeId) : Prop :=
  ∃ inner piece, F.Shows id (.node .templateSpan) (.templateSpan inner piece)
    ∧ F.IsIdentifier inner name.text ∧ F.IsPiece kind run piece

/-- Under the numbers there are the substitutions with the texts after them. -/
inductive AreSpans (F : Forest) : List NodeId → List (PlainName × TemplateRun) → Prop where
  | nil : AreSpans F [] []
  | cons {id : NodeId} {ids : List NodeId} {name : PlainName} {run : TemplateRun}
    {spans : List (PlainName × TemplateRun)} : F.IsSpan (pieceKind false spans) name run id →
    AreSpans F ids spans → AreSpans F (id :: ids) ((name, run) :: spans)

/-- Under the number there is the template: one text, or a node of a text and substitutions. -/
inductive IsTemplate (F : Forest) (id : NodeId) : TemplateTerm → Prop where
  | plain {run : TemplateRun} : F.IsPiece (.literal .noSubstitutionTemplate) run id →
    IsTemplate F id ⟨run, []⟩
  | spans {head : NodeId} {list : NodeArray} {run : TemplateRun}
    {spans : List (PlainName × TemplateRun)} : spans ≠ [] →
    F.Shows id (.node .templateExpression) (.template head list) → F.IsPiece (.template .head) run head →
    F.AreSpans list.nodes spans → IsTemplate F id ⟨run, spans⟩

variable {F G : Forest} {id : NodeId}

theorem IsPiece.keeps {kind : Kind} (h : F.IsPiece kind run id) (hkeeps : F.Keeps G) :
    G.IsPiece kind run id := by
  obtain ⟨flags, hshows⟩ := h
  exact ⟨flags, hshows.keeps hkeeps⟩

theorem IsSpan.keeps {kind : Kind} {name : PlainName} (h : F.IsSpan kind name run id)
    (hkeeps : F.Keeps G) : G.IsSpan kind name run id := by
  obtain ⟨inner, piece, hshows, hname, hpiece⟩ := h
  exact ⟨inner, piece, hshows.keeps hkeeps, hname.keeps hkeeps, hpiece.keeps hkeeps⟩

theorem AreSpans.keeps {ids : List NodeId} (h : F.AreSpans ids spans) (hkeeps : F.Keeps G) :
    G.AreSpans ids spans := by
  induction h with
  | nil => exact .nil
  | cons hspan _ ih => exact .cons (hspan.keeps hkeeps) ih

theorem IsTemplate.keeps {term : TemplateTerm} (h : F.IsTemplate id term) (hkeeps : F.Keeps G) :
    G.IsTemplate id term := by
  cases h with
  | plain hpiece => exact .plain (hpiece.keeps hkeeps)
  | spans hne hshows hhead hspans =>
    exact .spans hne (hshows.keeps hkeeps) (hhead.keeps hkeeps) (hspans.keeps hkeeps)

end Forest

end ScriptSyntax
