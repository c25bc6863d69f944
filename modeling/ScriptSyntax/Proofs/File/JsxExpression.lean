/-
  ScriptSyntax/Proofs/File/JsxExpression.lean
  ===========================================
  Texts of one element or fragment.

  What is written for a tree of tags and texts is parsed as that tree, in a file
  where tags are part of the syntax.
-/
import ScriptSyntax.Proofs.File.OneStatement
import ScriptSyntax.Proofs.Grammar.JsxOperands
import ScriptSyntax.Proofs.Grammar.JsxTrees

namespace ScriptSyntax

open ScriptSyntax.Parser ScriptSyntax.JsxTree

variable {tree : JsxTree} {rest : List Char} {text : Array Char} {t : Token}

/-! ## 1. What is written -/

/-- A tree as it is written, and a semicolon. -/
def jsxTreeText (tree : JsxTree) : SourceText := ⟨(tree.before [';']).toArray⟩

example : jsxTreeText (.element ⟨"a", by decide, by decide⟩
    [.text ⟨['1', ' ', '>', ' ', '0'], by decide, by decide, by decide⟩, .fragment []])
      = .ofString "<a>1 > 0<></></a>;" := by decide

/-- A tree that is no text starts with a bracket that opens a tag. -/
theorem Token.IsBefore.opensTag (htag : tree.isText = false)
    (h : t.IsBefore text (.punct .lessThan) (tree.before rest).tail) : t.OpensTag text where
  kind_eq := h.kind_eq
  inside := by
    cases tree with
    | element name children =>
      obtain ⟨next, hnext, hname, -⟩ := h.name (by rintro _ ⟨⟩; decide)
      obtain ⟨after, hafter, hangle⟩ := hname.greaterThan
      exact ⟨next, hnext, .inr ⟨by simp [hname.kind_eq, Kind.isName], after, hafter, by simp [hangle.kind_eq]⟩⟩
    | selfClosing name =>
      obtain ⟨next, hnext, hname, -⟩ := h.name (by rintro _ ⟨⟩; decide)
      obtain ⟨after, hafter, hslash⟩ := hname.slash
      exact ⟨next, hnext, .inr ⟨by simp [hname.kind_eq, Kind.isName], after, hafter, by simp [hslash.kind_eq]⟩⟩
    | fragment children =>
      obtain ⟨next, hnext, hangle⟩ := h.greaterThan
      exact ⟨next, hnext, .inl hangle.kind_eq⟩
    | text run => cases htag

/-! ## 2. Files of a tree -/

theorem Forest.IsJsx.shows {F : Forest} {id : NodeId} (h : F.IsJsx id tree) (htag : tree.isText = false) :
    ∃ kind payload, F.Shows id kind payload ∧ kind ≠ .identifier := by
  cases h with
  | element hshows => exact ⟨_, _, hshows, nofun⟩
  | selfClosing h =>
    obtain ⟨tag, attributes, list, hshows, -⟩ := h
    exact ⟨_, _, hshows, nofun⟩
  | fragment hshows => exact ⟨_, _, hshows, nofun⟩
  | text => cases htag

/-- Where tags are part of the syntax an element or a fragment is parsed, without a diagnostic, as one
statement of just that tree. -/
theorem parseText_jsxTreeText {fileName : String} {options : ParseOptions}
    (hkind : options.scriptKindFor fileName = .tsx) (hwf : tree.WellFormed) (htag : tree.isText = false)
    (hdepth : tree.depth ≤ 90) :
    ∃ f statement e, parseText fileName (jsxTreeText tree) options = .ok f ∧ f.diagnostics = []
      ∧ f.statements = [statement]
      ∧ f.forest.Shows statement (.node .expressionStatement) (.expression e) ∧ f.forest.IsJsx e tree := by
  let text := jsxTreeText tree
  have htext : TextAt text.chars 0 (tree.before [';']) := by
    simp [TextAt, text, jsxTreeText]
  obtain ⟨c, more, hcs, hless, -, hequals⟩ := exists_before htag [';']
  have hmarker : isConflictMarker text.chars 0 = false :=
    isConflictMarker_of_startsTag htext (startsTag_before htag _)
  rw [hcs] at htext
  obtain ⟨first, hfirst⟩ : ∃ first, Reads text.chars 0 ⟨.punct .lessThan, ""⟩ (c :: more) first :=
    reads_punct htext (Punctuator.lessThan_standsBefore hless hequals) hmarker
  have hat : first.IsBefore text.chars (.punct .lessThan) (tree.before [';']).tail := by
    rw [hcs]
    exact hfirst.isBefore
  refine parseText_assignment (X := fun id F => F.IsJsx id tree) htext rfl (by decide) (by decide)
    hfirst.scan_eq (.inr hfirst.kind_eq) ?_ ?_
  · intro id F G h hgains
    exact h.keeps hgains.toKeeps
  · intro env s hfile hsupplied hbegin
    have hjsx : env.file.variant = .jsx := by
      rw [hfile, hkind]
      rfl
    have hchars : env.file.text = text.chars := by
      rw [hfile]
      rfl
    rw [← hbegin.token, ← hchars] at hat
    have hlimit : s.scope.depth + tree.depth ≤ maxDepth := by
      rw [hbegin.depth]
      show 2 + tree.depth ≤ 100
      omega
    refine assignmentBody_of_tag hjsx (hat.opensTag htag) hsupplied (by decide) ⟨?_, ?_⟩ fun inner hfile hinner => ?_
    · intro id t ht
      exact ht.holds.last.1
    · intro id t ht
      obtain ⟨kind, payload, hshows, -⟩ := ht.holds.shows
      exact ⟨kind, payload, hshows⟩
    · rw [← hfile] at hat ⊢
      refine (hwf.isRead htag inner _ s true [';'] hinner hlimit hat rfl).mono fun id t ht => ?_
      exact ht.mono fun id next F h => ⟨h.1, h.2.shows htag, h.2⟩

/-- The start of a comment and a line break as texts, with an element and a fragment around them. -/
theorem parseText_jsxTreeText_nested :
    let a : PlainName := ⟨"a", by decide, by decide⟩
    let comment : JsxRun := ⟨"/* > ".toList, by decide, by decide, by decide⟩
    let lineBreak : JsxRun := ⟨"\n ".toList, by decide, by decide, by decide⟩
    let tree : JsxTree := .element a [.text comment, .selfClosing a, .fragment [.text lineBreak]]
    ({} : ParseOptions).scriptKindFor "a.tsx" = .tsx ∧ tree.WellFormed ∧ tree.isText = false
      ∧ tree.depth ≤ 90 ∧ jsxTreeText tree = .ofString "<a>/* > <a/><>\n </></a>;"
      ∧ ∃ f statement e, parseText "a.tsx" (jsxTreeText tree) {} = .ok f ∧ f.diagnostics = []
        ∧ f.statements = [statement]
        ∧ f.forest.Shows statement (.node .expressionStatement) (.expression e)
        ∧ f.forest.IsJsx e tree := by
  intro a comment lineBreak tree
  have hkind : ({} : ParseOptions).scriptKindFor "a.tsx" = .tsx := by decide
  have hfragment : (JsxTree.fragment [.text lineBreak]).WellFormed := by
    refine .fragment (List.isChain_singleton _) ?_
    simpa using JsxTree.WellFormed.text
  have hwf : tree.WellFormed := by
    refine .element ?_ ?_
    · simp [JsxTree.Apart, JsxTree.isText]
    · simpa using ⟨.text, .selfClosing, hfragment⟩
  have hdepth : tree.depth ≤ 90 := by decide
  exact ⟨hkind, hwf, rfl, hdepth, by decide, parseText_jsxTreeText hkind hwf rfl hdepth⟩

end ScriptSyntax
