/-
  ScriptSyntax/Proofs/File/TypeAlias.lean
  =======================================
  Texts of one type alias.

  What is written for a term of a type is parsed as that term.
-/
import ScriptSyntax.Proofs.File.OneStatement
import ScriptSyntax.Proofs.Grammar.TypeTerms

namespace ScriptSyntax

open ScriptSyntax.Parser

variable {env : Surroundings} {r s t : ParserState} {name : PlainName} {term : TypeTerm}
variable {text : Array Char} {next : Token}

/-! ## 1. What is written -/

/-- What an alias for the term is written as. -/
def aliasPieces (name : PlainName) (term : TypeTerm) : List Piece :=
  .word "type" :: .space :: .word name.text :: .space :: .punct .equals :: .space
    :: term.before [.punct .semicolon]

def aliasText (name : PlainName) (term : TypeTerm) : SourceText :=
  ⟨((aliasPieces name term).flatMap Piece.chars).toArray⟩

example : aliasText ⟨"X", by decide, by decide⟩
    (.union [.array (.reference ⟨"A", by decide, by decide⟩ []), .tuple []])
      = .ofString "type X = A[] | [];" := by decide

theorem aliasPieces_apart (hwf : term.WellFormed) : Apart (aliasPieces name term) := by
  have hterm : Apart (term.before [.punct .semicolon]) := by
    refine hwf.apart ⟨⟨rfl, trivial⟩, ?_⟩
    rintro _ ⟨⟩
    decide
  exact ⟨by decide, .of_space, name.isIdentifier, .of_space, rfl, hterm⟩

/-! ## 2. How it is read -/

/-- Under the number there is an alias of the name for the term. -/
def Forest.IsAlias (F : Forest) (name : PlainName) (term : TypeTerm) (id : NodeId) : Prop :=
  ∃ identifier type, F.Shows id (.node .typeAliasDeclaration) (.typeAlias identifier none type)
    ∧ F.IsIdentifier identifier name.text ∧ F.IsType type term

namespace Parser

theorem startsDeclaration_of_alias (hahead : Ahead env.file.text (aliasPieces name term) s.token) :
    startsDeclaration.Ends env s fun found _ => found = true := by
  obtain ⟨hkind, -, -, next, hnext, hname, -, hline, -⟩ := hahead
  have hturn : declarationTurn.Ends env s fun o _ => o = .done true := by
    refine .kind ?_
    rw [hkind]
    have hfollows : (afterNext (onSameLine isIdentifier)).Ends env s fun found _ => found = true := by
      refine (nextToken_reads hnext).bind ?_
      rintro _ t rfl
      refine .afterLineBreak ?_
      rw [hline]
      refine .no (.kind ?_)
      rw [hname, name.wordKind_eq]
      exact .pure rfl
    refine hfollows.bind ?_
    rintro _ t rfl
    exact .pure rfl
  refine Ends.peeked (.read (hturn.bind ?_))
  rintro _ t rfl
  exact .pure rfl

theorem typeAliasDeclaration_yields {rank : Nat} (h : env.Supplied rank s) (hlog : s.log.size = 0)
    (hdepth : s.scope.depth + term.depth < maxDepth) (hterm : ReadAsType term)
    (hahead : Ahead env.file.text (aliasPieces name term) s.token) :
    (typeAliasDeclaration { pos := s.pos }).Ends env s (Yields env.file.text s fun id next F =>
      AtEnd next ∧ F.IsAlias name term id) := by
  obtain ⟨hkind, -, -, next, hnext, hahead⟩ := hahead
  refine (Way.start h).takeExpected hkind nofun hnext fun t htoken _ ht g => ?_
  rw [← htoken] at hahead
  obtain ⟨hkind, hvalue, -, next, hnext, hahead⟩ := hahead
  rw [name.wordKind_eq] at hkind
  refine g.step (identifierOr_yields _ g.ok hkind hnext) fun identifier u hu _ htu g => ?_
  obtain ⟨rfl, hname⟩ := hu
  obtain ⟨hkind, -, next, hnext, hahead⟩ := hahead
  refine .leaves (typeParameters_leaves (by simp [hkind])) ?_
  refine g.takeExpected hkind nofun hnext fun v htoken hforest huv g => ?_
  have hlog := g.quiet.silent hlog
  have hdepth := g.quiet.depth_lt hdepth
  refine g.step (hterm env v _ g.supplied hlog hdepth (htoken ▸ hahead) (goesOnWith_punct (by decide)))
    fun type w hw hkeeps hvw g => ?_
  obtain ⟨⟨hkind, -, last, hlast, hend⟩, htype⟩ := hw
  refine g.semicolon hkind hlast fun x htoken hforest' hwx g => ?_
  refine g.finish rfl (by omega) rfl rfl fun id F hkept hshows => ?_
  rw [htoken]
  rw [hforest'] at hkept
  refine ⟨hend, identifier, type, hshows, ?_, htype.keeps hkept⟩
  exact hvalue ▸ (hforest ▸ hname).keeps (hkeeps.trans hkept)

theorem statement_yields_alias {rank : Nat} (h : env.Supplied rank s) (hlog : s.log.size = 0)
    (hdepth : s.scope.depth + 1 + term.depth < maxDepth) (hterm : ReadAsType term)
    (hahead : Ahead env.file.text (aliasPieces name term) s.token) :
    statement.Ends env s (Yields env.file.text s fun id next F => AtEnd next ∧ F.IsAlias name term id) := by
  have hbelow : s.scope.depth < maxDepth := by omega
  refine .silent (statement_of_body hbelow (Ends.comes ?_))
  have h : env.Supplied rank (s.atDepth (s.scope.depth + 1)) := h.inScope _
  have hahead : Ahead env.file.text (aliasPieces name term) (s.atDepth (s.scope.depth + 1)).token := hahead
  have hkind := hahead.1
  have halias := typeAliasDeclaration_yields h hlog hdepth hterm hahead
  refine .nodePos (.kind ?_)
  rw [hkind]
  have hasks := (startsDeclaration_inquires (o := true)).asks h.ok
  refine .asked hasks (startsDeclaration_of_alias hahead) (.yes ?_)
  refine .nodePos (.leaves (decorators_leaves (by rw [hkind]; decide)) ?_)
  refine .leaves (modifiers_leaves (by rw [hkind]; decide)) (.kind ?_)
  rw [hkind]
  exact halias

end Parser

/-! ## 3. Files of an alias -/

/-- A type alias for a term is parsed, without a diagnostic, as one declaration of the name for just that
term. -/
theorem parseText_aliasText (fileName : String) (options : ParseOptions) (name : PlainName)
    {term : TypeTerm} (hwf : term.WellFormed) (hdepth : term.depth ≤ 90) :
    ∃ f statement, parseText fileName (aliasText name term) options = .ok f ∧ f.diagnostics = []
      ∧ f.statements = [statement] ∧ f.forest.IsAlias name term statement := by
  let text := aliasText name term
  have htext : TextAt text.chars 0 ((aliasPieces name term).flatMap Piece.chars) := by
    simp [TextAt, text, aliasText]
  obtain ⟨first, hfirst, hahead⟩ := (aliasPieces_apart hwf).ahead htext rfl
  have hkind : first.kind = .keyword .typeKw := hahead.1
  refine parseText_one (X := fun id F => F.IsAlias name term id) (c := 't') htext rfl (by decide)
    (by decide) hfirst ?_ ?_ ?_ ?_
  · simp [hkind]
  · rintro id F G ⟨identifier, type, hshows, hname, htype⟩ hgains
    have hkeeps := hgains.toKeeps
    exact ⟨identifier, type, hshows.keeps hkeeps, hname.keeps hkeeps, htype.keeps hkeeps⟩
  · rintro env s rfl
    have hstarts : startsStatement.Ends env s fun b _ => b = true := by
      refine .kind ?_
      rw [hkind]
      exact .pure rfl
    exact hstarts
  · intro env s hfile hsupplied hfresh
    have hchars : env.file.text = text.chars := by
      rw [hfile]
      rfl
    have hdepth : s.scope.depth + 1 + term.depth < maxDepth := by
      rw [hfresh.depth]
      show 0 + 1 + term.depth < 100
      omega
    refine statement_yields_alias hsupplied hfresh.log hdepth hwf.isRead.type ?_
    rw [hchars, hfresh.token]
    exact hahead

/-- A union of arrays as the first of two arguments, and parentheses in an intersection. -/
theorem parseText_aliasText_mixed :
    let a : PlainName := ⟨"A", by decide, by decide⟩
    let term : TypeTerm := .reference a [.union [.array (.reference a []), .tuple []],
      .intersection [.parenthesized (.reference a []), .reference a []]]
    term.WellFormed ∧ term.depth ≤ 90 ∧ aliasText a term = .ofString "type A = A<A[] | [], (A) & A>;"
      ∧ ∃ f statement, parseText "a.ts" (aliasText a term) {} = .ok f ∧ f.diagnostics = []
        ∧ f.statements = [statement] ∧ f.forest.IsAlias a term statement := by
  intro a term
  have hname : (TypeTerm.reference a []).WellFormed := .reference (by simp)
  have hunion : (TypeTerm.union [.array (.reference a []), .tuple []]).WellFormed := by
    refine .union (by decide) (by simp [TypeTerm.isConjunct]) ?_
    simpa using ⟨.array rfl hname, .tuple (by simp)⟩
  have hintersection :
      (TypeTerm.intersection [.parenthesized (.reference a []), .reference a []]).WellFormed := by
    refine .intersection (by decide) (by simp [TypeTerm.isOperand]) ?_
    simpa using ⟨.parenthesized hname, hname⟩
  have hwf : term.WellFormed := .reference (by simpa using ⟨hunion, hintersection⟩)
  have hdepth : term.depth ≤ 90 := by decide
  exact ⟨hwf, hdepth, by decide, parseText_aliasText "a.ts" {} a hwf hdepth⟩

end ScriptSyntax
