/-
  ScriptSyntax/Proofs/Grammar/Templates.lean
  ==========================================
  Templates are read as what they are.

  Between the texts of a template the scanner reads tokens as it does elsewhere,
  and each closing brace is read again as the start of the next text.
-/
import ScriptSyntax.Proofs.Grammar.LoneOperands
import ScriptSyntax.Proofs.Grammar.Operands
import ScriptSyntax.Proofs.Tree.Template

namespace ScriptSyntax

open ScriptSyntax.Parser ScriptSyntax.TemplateTerm

variable {env : Surroundings} {rank : Nat} {r s t : ParserState} {text : Array Char} {next : Token}
variable {name : PlainName} {run : TemplateRun} {spans : List (PlainName × TemplateRun)} {first : Bool}

/-! ## 1. What comes after a text -/

/-- After a text the name of a substitution comes next, or the semicolon after the template. -/
def AtSpans (text : Array Char) : List (PlainName × TemplateRun) → Token → Prop
  | [], next => LastSemicolon text next
  | (name, run) :: spans, next =>
    next.IsBefore text .identifier ('}' :: (run.chars ++ behindRun spans [';'])) ∧ next.value = name.text

theorem Token.IsPiece.atSpans {t : Token} (h : t.IsPiece text first run spans [';']) :
    ∃ next, t.next text = (next, []) ∧ AtSpans text spans next := by
  have hbefore := h.toIsBefore
  cases spans with
  | nil => exact hbefore.lastSemicolon
  | cons span spans =>
    obtain ⟨name, run'⟩ := span
    obtain ⟨next, hnext, hat, hvalue⟩ := hbefore.name (by rintro _ ⟨⟩; decide)
    exact ⟨next, hnext, hat, hvalue⟩

/-! ## 2. Substitutions -/

namespace Parser

/-- From the brace that closes a substitution the next text is read. -/
theorem piece_yields (h : s.Ok env.file.text) (hkind : s.token.kind = .punct .closeBrace)
    (hat : TextAt env.file.text s.token.start ('}' :: (run.chars ++ behindRun spans [';']))) :
    (advance .rescanTemplate).Ends env s fun _ t => literalNode.Ends env t
      (Yields env.file.text s fun id next F =>
        AtSpans env.file.text spans next ∧ F.IsPiece (pieceKind false spans) run id) := by
  obtain ⟨piece, hread, hpiece⟩ := Token.rescanTemplate_piece hat
  obtain ⟨next, hnext, hspans⟩ := hpiece.atSpans
  refine (advance_quiet h (.of_closeBrace hkind) hread).mono fun _ t ht => ?_
  obtain ⟨hquiet, rfl, -⟩ := ht
  have hend : t.token.kind ≠ .endOfFile := by
    rw [hpiece.kind_eq]
    cases spans with
    | nil => simp [pieceKind, lastPieceKind]
    | cons span spans => simp [pieceKind, openPieceKind]
  refine (literalNode_yields hquiet.ok hend hnext).mono fun id u hu => ?_
  obtain ⟨rfl, hshows⟩ := hu.holds
  refine ⟨hquiet.after hu.quiet, Nat.lt_of_le_of_lt hquiet.forward hu.took, hspans, t.token.flags, ?_⟩
  rw [← hpiece.kind_eq, ← hpiece.value_eq]
  exact hshows

/-- A substitution is read with the text after it, and it is known whether another one comes then. -/
theorem templateSpan_yields (h : env.Supplied Production.topRank s) (hdepth : s.scope.depth < maxDepth)
    (hat : AtSpans env.file.text ((name, run) :: spans) s.token) :
    templateSpan.Ends env s fun found t => found.2 = !spans.isEmpty
      ∧ Yields env.file.text s (fun id next F => AtSpans env.file.text spans next
        ∧ F.IsSpan (pieceKind false spans) name run id) found.1 t := by
  obtain ⟨hname, hvalue⟩ := hat
  obtain ⟨brace, hbrace, hkind, htext⟩ := hname.closeBrace
  have hends : brace.kind.endsExpression = true := by
    rw [hkind]
    rfl
  have hinner : (allowIn (parse .expression)).Ends env s
      (Yields env.file.text s (IsNameAt s.forest s.token.value brace)) :=
    withContext_yields (parse_expression_yields_name (h.inScope _) hdepth hname.kind_eq hbrace hends
      (by simp [hkind]))
  refine .nodePos ((Way.start h).step hinner fun inner t ht hkeeps htook g => ?_)
  obtain ⟨rfl, hidentifier, -⟩ := ht
  have hpiece := piece_yields g.ok hkind htext
  extract_lets rest
  have hrest (piece : NodeId) (u : ParserState) (hu : Yields env.file.text t (fun id next F =>
      AtSpans env.file.text spans next ∧ F.IsPiece (pieceKind false spans) run id) piece u) :
      (rest piece).Ends env u fun found v => found.2 = !spans.isEmpty
        ∧ Yields env.file.text s (fun id next F => AtSpans env.file.text spans next
          ∧ F.IsSpan (pieceKind false spans) name run id) found.1 v := by
    have g := g.goTook hu.quiet hu.took
    obtain ⟨hspans, hpiece⟩ := hu.holds
    obtain ⟨flags, hshows⟩ := hpiece
    refine .kindShown hshows ?_
    refine (g.finish (X := fun id next F => AtSpans env.file.text spans next
      ∧ F.IsSpan (pieceKind false spans) name run id) rfl (Nat.lt_trans htook hu.took) rfl rfl
      fun id F hkept hshown => ⟨hspans, inner, piece, hshown, ?_, flags, hshows.keeps hkept⟩).bind ?_
    · exact (hvalue ▸ hidentifier).keeps (hu.quiet.keeps.trans hkept)
    · intro id v hv
      refine .pure ⟨?_, hv⟩
      cases spans <;> rfl
  refine .isAt ?_
  rw [hkind]
  exact .yes (hpiece.bind fun _ u hu => hu.bind hrest)

/-! ## 3. Templates -/

/-- Of the substitutions some have been read, and the others, one at least, are ahead. Whatever is read for
those completes them. -/
def ReadingSpans (env : Surroundings) (r : ParserState) (spans : List (PlainName × TemplateRun))
    (read : List NodeId) (t : ParserState) : Prop :=
  Way env Production.topRank r t (readParts read) ∧ ∃ span left, AtSpans env.file.text (span :: left) t.token
    ∧ ∀ G ids, t.forest.Keeps G → G.AreSpans ids (span :: left) → G.AreSpans (read.reverse ++ ids) spans

/-- All substitutions have been read. -/
def ReadSpans (env : Surroundings) (r : ParserState) (spans : List (PlainName × TemplateRun))
    (read : List NodeId) (t : ParserState) : Prop :=
  Way env Production.topRank r t (readParts read) ∧ LastSemicolon env.file.text t.token
    ∧ t.forest.AreSpans read.reverse spans

/-- One more substitution is read. It is the last one if the quote comes after it. -/
theorem templateSpan_leads {read : List NodeId} (hdepth : r.scope.depth < maxDepth)
    (h : ReadingSpans env r spans read s) : templateSpan.Ends env s fun found t =>
      Turn.Leads (ReadingSpans env r spans) (ReadSpans env r spans) s
        (if found.2 then .again (found.1 :: read) else .done (found.1 :: read)) t := by
  obtain ⟨g, ⟨name, run⟩, left, hat, hcompletes⟩ := h
  have hdepth : s.scope.depth < maxDepth := by
    rw [g.quiet.scope_eq]
    exact hdepth
  refine (templateSpan_yields g.supplied hdepth hat).mono ?_
  rintro ⟨id, goesOn⟩ t ⟨rfl, ht⟩
  obtain ⟨hspans, hspan⟩ := ht.holds
  have g := (g.goTook ht.quiet ht.took).parts (readParts_cons id read).symm
  have hcons (G : Forest) (ids : List NodeId) (hkeeps : t.forest.Keeps G) (hids : G.AreSpans ids left) :
      G.AreSpans ((id :: read).reverse ++ ids) spans := by
    rw [List.reverse_cons, List.append_assoc]
    exact hcompletes G (id :: ids) (ht.quiet.keeps.trans hkeeps) (.cons (hspan.keeps hkeeps) hids)
  cases left with
  | nil =>
    refine ⟨⟨g, hspans, ?_⟩, Nat.le_of_lt ht.took⟩
    simpa using hcons t.forest [] (.refl _) .nil
  | cons span left => exact ⟨⟨g, span, left, hspans, hcons⟩, ht.took⟩

/-- A template with substitutions is read to its end. -/
theorem template_yields {term : TemplateTerm} (h : env.Supplied rank s) (hdepth : s.scope.depth < maxDepth)
    (hne : term.spans ≠ []) (hat : s.token.IsPiece env.file.text true term.head term.spans [';']) :
    template.Ends env s (Yields env.file.text s fun id next F =>
      LastSemicolon env.file.text next ∧ F.IsTemplate id term) := by
  obtain ⟨next, hnext, hspans⟩ := hat.atSpans
  have hkind : s.token.kind = .template .head := by
    rw [hat.kind_eq]
    simp [pieceKind, openPieceKind, hne]
  have hhead := literalNode_yields h.ok (by simp [hkind]) hnext
  refine .nodePos ((Way.start h).step hhead fun head t ht _ htook g => .nodePos ?_)
  obtain ⟨rfl, hshows⟩ := ht
  obtain ⟨span, left, hleft⟩ : ∃ span left, term.spans = span :: left := List.exists_cons_of_ne_nil hne
  have hstart : ReadingSpans env t term.spans [] t := by
    refine ⟨g.here, span, left, hleft ▸ hspans, fun G ids _ hids => ?_⟩
    rw [hleft]
    exact hids
  have hdepth : t.scope.depth < maxDepth := by
    rw [g.quiet.scope_eq]
    exact hdepth
  refine (repeating_ends hstart (fun _ _ hu => hu.1.ok.pos_le_size) fun read u hu =>
    (templateSpan_leads hdepth hu).bind fun found v hv => .pure hv).bind fun read u hu => .nodePos ?_
  obtain ⟨⟨g', hlast, hall⟩, hforward⟩ := hu
  have hlist : Quiet env.file.text t u [.array { pos := t.pos, stop := u.pos, nodes := read.reverse }] :=
    ⟨g'.quiet.toRun.array rfl rfl, g'.quiet.log_eq⟩
  refine (g.go hlist).finish rfl (Nat.lt_of_lt_of_le htook hforward) rfl rfl fun id F hkept hshown => ?_
  refine ⟨hlast, ?_⟩
  have hpiece : F.IsPiece (.template .head) term.head head := by
    refine ⟨s.token.flags, ?_⟩
    rw [← hkind, ← hat.value_eq]
    exact hshows.keeps (g'.quiet.keeps.trans hkept)
  exact .spans hne hshown hpiece (hall.keeps hkept)

/-- A template is an operand. -/
theorem primary_yields_template {term : TemplateTerm} (h : env.Supplied rank s)
    (hdepth : s.scope.depth < maxDepth)
    (hat : s.token.IsPiece env.file.text true term.head term.spans [';']) :
    primary.Ends env s (Yields env.file.text s fun id next F =>
      LastSemicolon env.file.text next ∧ F.IsTemplate id term) := by
  obtain ⟨run, spans⟩ := term
  refine .kind ?_
  rw [hat.kind_eq]
  cases spans with
  | nil =>
    obtain ⟨next, hnext, hlast⟩ := hat.atSpans
    refine (literalNode_yields h.ok (by rw [hat.kind_eq]; simp [pieceKind, lastPieceKind]) hnext).mono
      fun id t ht => ht.mono ?_
    rintro id _ F ⟨rfl, hshows⟩
    refine ⟨hlast, .plain ⟨s.token.flags, ?_⟩⟩
    rw [← hat.value_eq]
    rwa [hat.kind_eq] at hshows
  | cons span spans => exact template_yields h hdepth (List.cons_ne_nil _ _) hat

end Parser

end ScriptSyntax
