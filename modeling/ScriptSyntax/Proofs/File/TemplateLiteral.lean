/-
  ScriptSyntax/Proofs/File/TemplateLiteral.lean
  =============================================
  Texts of one template.

  What is written for a template is parsed as that template, whatever its text
  looks like outside of it.
-/
import ScriptSyntax.Proofs.File.OneStatement
import ScriptSyntax.Proofs.Grammar.Templates

namespace ScriptSyntax

open ScriptSyntax.Parser

/-! ## 1. What is written -/

/-- A template as it is written, and a semicolon. -/
def templateText (term : TemplateTerm) : SourceText := ⟨(term.before [';']).toArray⟩

example : templateText ⟨⟨"a".toList, by decide, by decide, by decide⟩,
    [(⟨"x", by decide, by decide⟩, ⟨"//\x7d".toList, by decide, by decide, by decide⟩)]⟩
      = .ofString "\x60a$\x7bx\x7d//\x7d\x60;" := by decide

/-! ## 2. Files of a template -/

theorem Forest.IsTemplate.shows {F : Forest} {id : NodeId} {term : TemplateTerm} (h : F.IsTemplate id term) :
    ∃ kind payload, F.Shows id kind payload ∧ kind ≠ .identifier := by
  cases h with
  | plain hpiece =>
    obtain ⟨flags, hshows⟩ := hpiece
    exact ⟨_, _, hshows, by simp⟩
  | spans _ hshows => exact ⟨_, _, hshows, by simp⟩

theorem Token.IsPiece.opensOperand {text : Array Char} {run : TemplateRun} {rest : List Char} {t : Token}
    {spans : List (PlainName × TemplateRun)} (h : t.IsPiece text true run spans rest) :
    t.kind.opensOperand ∧ t.kind ≠ .punct .openParen := by
  rw [h.kind_eq]
  cases spans with
  | nil => exact ⟨.inr (.inr (.inl rfl)), by simp [TemplateTerm.pieceKind, lastPieceKind]⟩
  | cons span spans => exact ⟨.inr (.inr (.inr rfl)), by simp [TemplateTerm.pieceKind, openPieceKind]⟩

/-- A template is parsed, without a diagnostic, as one statement of just that template: each text is there
with its line ends put right, and each name in its substitution. -/
theorem parseText_templateText (fileName : String) (options : ParseOptions) (term : TemplateTerm) :
    ∃ f statement e, parseText fileName (templateText term) options = .ok f ∧ f.diagnostics = []
      ∧ f.statements = [statement]
      ∧ f.forest.Shows statement (.node .expressionStatement) (.expression e)
      ∧ f.forest.IsTemplate e term := by
  let text := templateText term
  have htext : TextAt text.chars 0 (term.before [';']) := by
    simp [TextAt, text, templateText]
  obtain ⟨first, hfirst, hpiece⟩ := scanAt_template htext
  obtain ⟨hopens, hparen⟩ := hpiece.opensOperand
  refine parseText_expression (X := fun id F => F.IsTemplate id term) htext (by decide) (by decide) (by decide)
    hfirst (.inl hopens) ?_ ?_ ?_
  · intro id F G h hgains
    exact h.keeps hgains.toKeeps
  · intro env s _ hsupplied hbegin
    rw [← hbegin.token] at hopens hparen
    exact arrowHeadHere_leaves hsupplied.ok hopens hparen
  · intro env s hfile hsupplied hbegin
    have hchars : env.file.text = text.chars := by
      rw [hfile]
      rfl
    rw [← hbegin.token] at hopens hpiece
    rw [← hchars] at hpiece
    have hdepth : s.scope.depth < maxDepth := by
      rw [hbegin.depth]
      decide
    have hlone : IsLone fun id next F => LastSemicolon env.file.text next ∧ F.IsTemplate id term := by
      constructor
      · rintro id next F G ⟨hlast, hterm⟩ hstays
        exact ⟨hlast, hterm.keeps hstays.keeps⟩
      · rintro id next F ⟨hlast, -⟩
        rw [hlast.1]
        rfl
    refine (binary_yields hlone hsupplied (by decide) hopens fun inner hinner h => ?_).mono fun id t ht =>
      ht.mono fun id next F hX => ⟨hX.1, hX.2.shows, hX.2⟩
    rw [← hinner] at hpiece ⊢
    exact primary_yields_template h hdepth hpiece

end ScriptSyntax
