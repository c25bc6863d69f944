/-
  ScriptSyntax/Proofs/Tree/JsxTree.lean
  =====================================
  Trees of tags and texts, how they are written and what they are as trees.
-/
import ScriptSyntax.Proofs.Token.Spelling
import ScriptSyntax.Proofs.Tree.Forest

namespace ScriptSyntax

/-! ## 1. Trees -/

/-- Text between tags. Nothing in it opens a tag or an expression. -/
structure JsxRun where
  chars : List Char
  nonempty : chars ≠ []
  noTag : '<' ∉ chars
  noBrace : '{' ∉ chars

theorem JsxRun.exists_cons (run : JsxRun) : ∃ c w, run.chars = c :: w ∧ c ≠ '<' ∧ c ≠ '{' := by
  obtain ⟨c, w, hchars⟩ := List.exists_cons_of_ne_nil run.nonempty
  have htag := run.noTag
  have hbrace := run.noBrace
  rw [hchars, List.mem_cons, not_or] at htag hbrace
  exact ⟨c, w, hchars, Ne.symm htag.1, Ne.symm hbrace.1⟩

/-- An element or a fragment, or a text among the children of one. -/
inductive JsxTree where
  | element (name : PlainName) (children : List JsxTree)
  | selfClosing (name : PlainName)
  | fragment (children : List JsxTree)
  | text (run : JsxRun)

namespace JsxTree

def isText : JsxTree → Bool
  | text _ => true
  | _ => false

/-- No text stands right behind another one. -/
def Apart (children : List JsxTree) : Prop :=
  children.IsChain fun t u => t.isText = false ∨ u.isText = false

/-- Wherever there are children, texts among them are apart. -/
inductive WellFormed : JsxTree → Prop where
  | element {name : PlainName} {children : List JsxTree} : JsxTree.Apart children →
    (∀ t ∈ children, WellFormed t) → WellFormed (.element name children)
  | selfClosing {name : PlainName} : WellFormed (.selfClosing name)
  | fragment {children : List JsxTree} : JsxTree.Apart children → (∀ t ∈ children, WellFormed t) →
    WellFormed (.fragment children)
  | text {run : JsxRun} : WellFormed (.text run)

mutual

/-- How many elements and fragments enclose the innermost one. -/
def depth : JsxTree → Nat
  | element _ children => depthOfChildren children
  | selfClosing _ => 0
  | fragment children => depthOfChildren children
  | text _ => 0

/-- The depth of an element that the given trees are the children of. -/
def depthOfChildren : List JsxTree → Nat
  | [] => 0
  | t :: ts => max (if t.isText then 0 else t.depth + 1) (depthOfChildren ts)

end

mutual

/-- The tree as it is written, before the given characters. -/
def before : JsxTree → List Char → List Char
  | element name children, rest =>
    '<' :: (name.text.toList
      ++ '>' :: beforeAll children ('<' :: '/' :: (name.text.toList ++ '>' :: rest)))
  | selfClosing name, rest => '<' :: (name.text.toList ++ '/' :: '>' :: rest)
  | fragment children, rest => '<' :: '>' :: beforeAll children ('<' :: '/' :: '>' :: rest)
  | text run, rest => run.chars ++ rest

/-- Trees as they are written, one after the other. -/
def beforeAll : List JsxTree → List Char → List Char
  | [], rest => rest
  | t :: ts, rest => t.before (beforeAll ts rest)

end

variable {t : JsxTree} {ts : List JsxTree} {rest : List Char}

theorem depth_lt_of_mem (h : t ∈ ts) (htag : t.isText = false) : t.depth < depthOfChildren ts := by
  induction ts with
  | nil => cases h
  | cons u ts ih =>
    show t.depth < max (if u.isText then 0 else u.depth + 1) (depthOfChildren ts)
    rcases List.mem_cons.mp h with rfl | h
    · rw [htag]
      exact Nat.lt_of_lt_of_le (Nat.lt_succ_self _) (Nat.le_max_left _ _)
    · exact Nat.lt_of_lt_of_le (ih h) (Nat.le_max_right _ _)

/-! ## 2. What stands between tags -/

/-- A tag stands first: an angle bracket, and none behind it. -/
def StartsTag (cs : List Char) : Prop := ∃ c more, cs = '<' :: c :: more ∧ c ≠ '<'

/-- A tag stands first, or a text before one. -/
def StartsChild (cs : List Char) : Prop :=
  StartsTag cs ∨ ∃ (run : JsxRun) (rest : List Char), cs = run.chars ++ rest ∧ StartsTag rest

theorem startsTag_closing (rest : List Char) : StartsTag ('<' :: '/' :: rest) := ⟨'/', rest, rfl, by decide⟩

/-- A name and what stands behind it start with no angle bracket and no slash. -/
theorem exists_cons_of_name (name : PlainName) (rest : List Char) :
    ∃ c more, name.text.toList ++ rest = c :: more ∧ c ≠ '<' ∧ c ≠ '/' ∧ c ≠ '=' := by
  obtain ⟨c, w, hlist, hstart, -⟩ := exists_cons_of_isIdentifierText name.isIdentifier
  have hne {d : Char} (hd : isIdentifierStart d = false) : c ≠ d := ne_of_isIdentifierStart hstart hd
  exact ⟨c, w ++ rest, by rw [hlist]; rfl, hne (by decide), hne (by decide), hne (by decide)⟩

/-- Behind the first angle bracket of a tag stands the name, or another bracket closes. -/
theorem exists_before (htag : t.isText = false) (rest : List Char) :
    ∃ c more, t.before rest = '<' :: c :: more ∧ c ≠ '<' ∧ c ≠ '/' ∧ c ≠ '=' := by
  cases t with
  | element name children =>
    obtain ⟨c, more, hcs, hne⟩ := exists_cons_of_name name
      ('>' :: beforeAll children ('<' :: '/' :: (name.text.toList ++ '>' :: rest)))
    exact ⟨c, more, congrArg _ hcs, hne⟩
  | selfClosing name =>
    obtain ⟨c, more, hcs, hne⟩ := exists_cons_of_name name ('/' :: '>' :: rest)
    exact ⟨c, more, congrArg _ hcs, hne⟩
  | fragment children => exact ⟨'>', _, rfl, by decide, by decide, by decide⟩
  | text run => cases htag

theorem startsTag_before (htag : t.isText = false) (rest : List Char) : StartsTag (t.before rest) := by
  obtain ⟨c, more, hcs, hne, -⟩ := exists_before htag rest
  exact ⟨c, more, hcs, hne⟩

/-- Behind a text a tag stands: that of the next child, or the one that closes. -/
theorem Apart.startsTag {run : JsxRun} (h : JsxTree.Apart (.text run :: ts)) (hrest : StartsTag rest) :
    StartsTag (beforeAll ts rest) := by
  cases ts with
  | nil => exact hrest
  | cons u ts =>
    have htag : u.isText = false := (List.isChain_cons_cons.mp h).1.resolve_left (by simp [isText])
    exact startsTag_before htag _

theorem Apart.tail (h : JsxTree.Apart (t :: ts)) : JsxTree.Apart ts := List.IsChain.tail h

theorem Apart.startsChild (h : JsxTree.Apart ts) (hrest : StartsTag rest) :
    StartsChild (beforeAll ts rest) := by
  cases ts with
  | nil => exact .inl hrest
  | cons t ts =>
    cases ht : t.isText with
    | false => exact .inl (startsTag_before ht _)
    | true =>
      cases t with
      | text run => exact .inr ⟨run, _, rfl, h.startsTag hrest⟩
      | _ => cases ht

end JsxTree

/-! ## 3. Tokens between tags -/

section

variable {text : Array Char} {pos : Nat} {c : Char} {cs rest : List Char} {t : Token}

open JsxTree

/-- Where a tag starts no conflict marker stands. -/
theorem isConflictMarker_of_startsTag (h : TextAt text pos cs) (htag : StartsTag cs) :
    isConflictMarker text pos = false := by
  obtain ⟨c, more, rfl, hne⟩ := htag
  have hsecond : hasCharAt text (pos + 1) '<' = false := by
    simp [hasCharAt, h.next, hne]
  apply Bool.eq_false_iff.mpr
  intro hmarker
  unfold isConflictMarker at hmarker
  simp only [h.head, Bool.and_eq_true, List.all_eq_true] at hmarker
  rw [hmarker.1.2 1 (by decide)] at hsecond
  cases hsecond

namespace Token

/-- Text between tags is read up to the tag after it. -/
theorem jsxTextFrom_eq {w : List Char} (h : TextAt text pos (w ++ rest)) (htag : StartsTag rest)
    (hangle : '<' ∉ w) (hbrace : '{' ∉ w) (seenText seenBreak : Bool) :
    (jsxTextFrom text seenText seenBreak [] pos).stop = pos + w.length
      ∧ (jsxTextFrom text seenText seenBreak [] pos).errors = [] := by
  induction w generalizing pos seenText seenBreak with
  | nil =>
    have hmarker := isConflictMarker_of_startsTag h htag
    obtain ⟨c, more, rfl, -⟩ := htag
    have hlt : pos < text.size := TextAt.lt_size h
    have hc : text[pos] = '<' := TextAt.getElem h hlt
    rw [jsxTextFrom]
    simp [hlt, hc, hmarker, jsxTextFrom.done]
  | cons c w ih =>
    simp only [List.mem_cons, not_or] at hangle hbrace
    have hlt : pos < text.size := TextAt.lt_size h
    have hc : text[pos] = c := TextAt.getElem h hlt
    have hgo (seenText seenBreak : Bool) := ih (TextAt.tail h) hangle.2 hbrace.2 seenText seenBreak
    have hlength : pos + 1 + w.length = pos + (c :: w).length := by
      rw [List.length_cons]
      omega
    rw [hlength] at hgo
    rw [jsxTextFrom]
    simp only [hlt, ↓reduceDIte, hc, beq_eq_false_iff_ne.mpr (Ne.symm hangle.1),
      beq_eq_false_iff_ne.mpr (Ne.symm hbrace.1), Bool.false_eq_true, if_false]
    repeat' split
    all_goals exact hgo _ _

/-- Text, where neither a tag nor a brace opens. -/
theorem jsxLexemeAt_of_ne (hangle : c ≠ '<') (hbrace : c ≠ '{') :
    jsxLexemeAt text pos c = { jsxTextFrom text false false [] pos with
      value := sliceOf text pos (jsxTextFrom text false false [] pos).stop } := by
  simp [jsxLexemeAt, hangle, hbrace]

/-- Between tags the token is the one given, and nothing is wrong with it. The text reads from there as
given. -/
structure IsAtChild (text : Array Char) (cs : List Char) (t : Token) : Prop where
  scan_eq : scanJsxAt text t.fullStart = (t, [])
  textAt : TextAt text t.fullStart cs

/-- Between tags something can be read. -/
theorem exists_isAtChild (h : TextAt text pos cs) (hcs : StartsChild cs) :
    ∃ t, scanJsxAt text pos = (t, []) ∧ t.IsAtChild text cs := by
  have herrors : (scanJsxAt text pos).2 = [] := by
    rcases hcs with ⟨c, more, rfl, -⟩ | ⟨run, rest, rfl, htag⟩
    · simp only [scanJsxAt, h.head]
      rfl
    · obtain ⟨c, w, hrun, hangle, hbrace⟩ := run.exists_cons
      have htext := jsxTextFrom_eq h htag run.noTag run.noBrace false false
      rw [hrun] at h
      simp only [scanJsxAt, TextAt.head h, jsxLexemeAt_of_ne hangle hbrace]
      exact htext.2
  have hstart : (scanJsxAt text pos).1.fullStart = pos := by
    unfold scanJsxAt
    split <;> rfl
  have hscan : scanJsxAt text pos = ((scanJsxAt text pos).1, []) := Prod.ext rfl herrors
  refine ⟨_, hscan, ?_, ?_⟩
  · rwa [hstart]
  · rwa [hstart]

theorem IsAtChild.eq_lexeme (h : t.IsAtChild text cs) (hc : text[t.fullStart]? = some c) :
    t.kind = (jsxLexemeAt text t.fullStart c).kind ∧ t.value = (jsxLexemeAt text t.fullStart c).value
      ∧ t.stop = (jsxLexemeAt text t.fullStart c).stop := by
  have hscan := h.scan_eq
  unfold scanJsxAt at hscan
  rw [hc] at hscan
  have htoken := congrArg Prod.fst hscan
  exact ⟨(congrArg Token.kind htoken).symm, (congrArg Token.value htoken).symm,
    (congrArg Token.stop htoken).symm⟩

/-- The bracket that opens a tag. -/
theorem IsAtChild.opening (h : t.IsAtChild text ('<' :: c :: cs)) (hc : c ≠ '/') :
    t.IsBefore text (.punct .lessThan) (c :: cs) := by
  have hslash : hasCharAt text (t.fullStart + 1) '/' = false := by
    simp [hasCharAt, h.textAt.next, hc]
  have hlexeme : jsxLexemeAt text t.fullStart '<' = Punctuator.lessThan.lexeme t.fullStart := by
    simp [jsxLexemeAt, hslash]
  obtain ⟨hkind, -, hstop⟩ := h.eq_lexeme h.textAt.head
  rw [hlexeme] at hkind hstop
  have hstop : t.stop = t.fullStart + 1 := hstop
  refine ⟨hkind, ?_, ?_⟩
  · rw [hstop]
    exact h.textAt.tail
  · rw [hstop, isLineStart_of_eq_some h.textAt.head]
    decide

/-- The bracket and the slash that open a closing tag. -/
theorem IsAtChild.closing (h : t.IsAtChild text ('<' :: '/' :: cs)) :
    t.IsBefore text (.punct .lessThanSlash) cs := by
  have hslash : hasCharAt text (t.fullStart + 1) '/' = true := by
    simp [hasCharAt, h.textAt.next]
  have hlexeme : jsxLexemeAt text t.fullStart '<' = Punctuator.lessThanSlash.lexeme t.fullStart := by
    simp [jsxLexemeAt, hslash]
  obtain ⟨hkind, -, hstop⟩ := h.eq_lexeme h.textAt.head
  rw [hlexeme] at hkind hstop
  have hstop : t.stop = t.fullStart + 1 + 1 := hstop
  refine ⟨hkind, ?_, ?_⟩
  · rw [hstop]
    exact h.textAt.tail.tail
  · rw [hstop, isLineStart_of_eq_some h.textAt.tail.head]
    decide

/-- A text is read whole and as it stands. -/
theorem IsAtChild.run {run : JsxRun} (h : t.IsAtChild text (run.chars ++ rest)) (htag : StartsTag rest) :
    t.kind.isJsxText = true ∧ t.value = String.ofList run.chars ∧ TextAt text t.stop rest := by
  obtain ⟨c, w, hrun, hangle, hbrace⟩ := run.exists_cons
  have hhead : text[t.fullStart]? = some c := by
    have htext := h.textAt
    rw [hrun] at htext
    exact TextAt.head htext
  obtain ⟨hkind, hvalue, hstop⟩ := h.eq_lexeme hhead
  have hend := (jsxTextFrom_eq h.textAt htag run.noTag run.noBrace false false).1
  rw [jsxLexemeAt_of_ne hangle hbrace] at hkind hvalue hstop
  simp only [hend] at hvalue hstop
  refine ⟨?_, hvalue.trans h.textAt.slice, ?_⟩
  · rw [hkind]
    exact isJsxText_jsxTextFrom false false []
  · rw [hstop]
    exact h.textAt.skip

end Token

/-! ## 4. Tokens in tags -/

namespace Token.IsBefore

variable {k : Kind}

/-- The bracket that ends a tag. -/
theorem greaterThan (h : t.IsBefore text k ('>' :: rest)) :
    ∃ next, t.next text = (next, []) ∧ next.IsBefore text (.punct .greaterThan) rest :=
  punct (p := .greaterThan) h rfl

/-- The slash before the bracket. -/
theorem slash (h : t.IsBefore text k ('/' :: '>' :: rest)) :
    ∃ next, t.next text = (next, []) ∧ next.IsBefore text (.punct .slash) ('>' :: rest) :=
  punct (p := .slash) h rfl

/-- A name that ends where no name goes on is not extended. -/
theorem scanJsxName (h : t.IsBefore text k rest) (hend : EndsWord rest) (hhyphen : rest.head? ≠ some '-') :
    t.scanJsxName text = (t, []) := by
  have hstop : scanWhile (fun c => c == '-' || isIdentifierPart c) text t.stop = t.stop := by
    refine @TextAt.scanWhile_eq _ _ [] _ _ h.textAt (by simp) ?_
    intro c hc
    have hne : c ≠ '-' := by
      rintro rfl
      exact hhyphen hc
    simp [hne, (hend c hc).1]
  have hslice : t.value ++ sliceOf text t.stop t.stop = t.value := by
    simp [sliceOf]
  unfold Token.scanJsxName
  dsimp only
  rw [hstop, hslice]
  split <;> rfl

end Token.IsBefore

end

/-! ## 5. Trees in a forest -/

namespace Forest

/-- Under the number there is a tag of the kind: it has the name, and no attributes. -/
def IsTag (F : Forest) (kind : NodeKind) (name : PlainName) (id : NodeId) : Prop :=
  ∃ tag attributes list, F.Shows id (.node kind) (.jsxTag tag (some attributes))
    ∧ F.IsIdentifier tag name.text ∧ F.Shows attributes (.node .jsxAttributes) (.jsxAttributes list)
    ∧ list.nodes = []

/-- Under the number there is a tag that closes an element of the name. -/
def IsClosingTag (F : Forest) (name : PlainName) (id : NodeId) : Prop :=
  ∃ tag, F.Shows id (.node .jsxClosingElement) (.jsxTag tag none) ∧ F.IsIdentifier tag name.text

/-- Under the number there is a tag of the kind, of the name of which the property holds, and it has no
attributes. -/
def IsTagWith (F : Forest) (kind : NodeKind) (X : NodeId → Forest → Prop) (id : NodeId) : Prop :=
  ∃ tag attributes list, F.Shows id (.node kind) (.jsxTag tag (some attributes)) ∧ X tag F
    ∧ F.Shows attributes (.node .jsxAttributes) (.jsxAttributes list) ∧ list.nodes = []

/-- Under the number there is a tag that closes an element, of the name of which the property holds. -/
def IsClosingTagWith (F : Forest) (X : NodeId → Forest → Prop) (id : NodeId) : Prop :=
  ∃ tag, F.Shows id (.node .jsxClosingElement) (.jsxTag tag none) ∧ X tag F

/-- Under the number there is the tree: an element or a fragment with its tags and its children, or a
text as it was written. -/
inductive IsJsx (F : Forest) : NodeId → JsxTree → Prop where
  | element {id opening closing : NodeId} {list : NodeArray} {name : PlainName} {children : List JsxTree} :
    F.Shows id (.node .jsxElement) (.jsxElement opening list closing) →
    F.IsTag .jsxOpeningElement name opening → List.Forall₂ (IsJsx F) list.nodes children →
    F.IsClosingTag name closing → IsJsx F id (.element name children)
  | selfClosing {id : NodeId} {name : PlainName} :
    F.IsTag .jsxSelfClosingElement name id → IsJsx F id (.selfClosing name)
  | fragment {id opening closing : NodeId} {list : NodeArray} {children : List JsxTree} :
    F.Shows id (.node .jsxFragment) (.jsxFragment opening list closing) →
    F.Shows opening (.node .jsxOpeningFragment) .token → List.Forall₂ (IsJsx F) list.nodes children →
    F.Shows closing (.node .jsxClosingFragment) .token → IsJsx F id (.fragment children)
  | text {id : NodeId} {kind : Kind} {flags : TokenFlags} {run : JsxRun} : kind.isJsxText = true →
    F.Shows id kind (.literal (String.ofList run.chars) flags) → IsJsx F id (.text run)

variable {F G : Forest} {id : NodeId}

theorem IsTag.keeps {kind : NodeKind} {name : PlainName} (h : F.IsTag kind name id)
    (hkeeps : F.Keeps G) : G.IsTag kind name id := by
  obtain ⟨tag, attributes, list, hshows, hname, hattributes, hlist⟩ := h
  exact ⟨tag, attributes, list, hshows.keeps hkeeps, hname.keeps hkeeps, hattributes.keeps hkeeps, hlist⟩

theorem IsClosingTag.keeps {name : PlainName} (h : F.IsClosingTag name id) (hkeeps : F.Keeps G) :
    G.IsClosingTag name id := by
  obtain ⟨tag, hshows, hname⟩ := h
  exact ⟨tag, hshows.keeps hkeeps, hname.keeps hkeeps⟩

mutual

theorem IsJsx.keeps (hkeeps : F.Keeps G) {id : NodeId} {t : JsxTree} : F.IsJsx id t → G.IsJsx id t
  | .element hshows hopening hlist hclosing =>
    .element (hshows.keeps hkeeps) (hopening.keeps hkeeps) (allJsxKeep hkeeps hlist)
      (hclosing.keeps hkeeps)
  | .selfClosing htag => .selfClosing (htag.keeps hkeeps)
  | .fragment hshows hopening hlist hclosing =>
    .fragment (hshows.keeps hkeeps) (hopening.keeps hkeeps) (allJsxKeep hkeeps hlist)
      (hclosing.keeps hkeeps)
  | .text hkind hshows => .text hkind (hshows.keeps hkeeps)

theorem allJsxKeep (hkeeps : F.Keeps G) {ids : List NodeId} {ts : List JsxTree} :
    List.Forall₂ F.IsJsx ids ts → List.Forall₂ G.IsJsx ids ts
  | .nil => .nil
  | .cons h hs => .cons (IsJsx.keeps hkeeps h) (allJsxKeep hkeeps hs)

end

end Forest

end ScriptSyntax
