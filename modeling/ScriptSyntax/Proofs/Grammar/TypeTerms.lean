/-
  ScriptSyntax/Proofs/Grammar/TypeTerms.lean
  ==========================================
  Terms of types are read as what they are.

  A term is read at the level of the grammar that it belongs to: operands with
  their brackets, then intersections, then unions.  At each level one part alone
  is that part.  So a term that is read at one level is read at those above, and
  as a whole type.
-/
import ScriptSyntax.Proofs.Grammar.KnownLists
import ScriptSyntax.Proofs.Grammar.TypeTrials

namespace ScriptSyntax

open ScriptSyntax.Parser

variable {env : Surroundings} {rank : Nat} {r s t : ParserState} {rest pieces : List Piece}
variable {text : Array Char} {next : Token} {ps qs : List Punctuator} {separator : List Piece}
variable {term : TypeTerm} {ts : List TypeTerm}

/-! ## 1. What follows a term -/

theorem goesOnWith_spaced {p : Punctuator} (hp : p ∈ ps) :
    GoesOnWith ps (TypeTerm.spaced p ++ pieces) := hp

/-- What may stand after a type. -/
def afterType : List Punctuator := [.closeParen, .closeBracket, .comma, .greaterThan, .semicolon]

/-- What may stand after a part of a union. -/
def afterConjunct : List Punctuator := .bar :: afterType

/-- What may stand after a part of an intersection. -/
def afterOperand : List Punctuator := .ampersand :: afterConjunct

/-- What may stand after a type that brackets may follow. -/
def afterElement : List Punctuator := .openBracket :: afterOperand

namespace TypeTerm

/-- A term that starts with a parenthesis starts with a term in parentheses. -/
theorem WellFormed.inParentheses (h : term.WellFormed) (hahead : Ahead text (term.before rest) next)
    (hkind : next.kind = .punct .openParen) (hrest : GoesOnWith afterElement rest) :
    ∃ inner rest, inner.WellFormed ∧ Ahead text ((TypeTerm.parenthesized inner).before rest) next
      ∧ GoesOnWith afterElement rest := by
  induction h generalizing rest with
  | @reference name arguments _ _ =>
    have hname : next.kind = .identifier := by
      cases arguments with
      | nil => exact hahead.1.trans name.wordKind_eq
      | cons t ts => exact hahead.1.trans name.wordKind_eq
    rw [hkind] at hname
    cases hname
  | array _ _ ih => exact ih hahead (goesOnWith_punct (by decide))
  | tuple _ _ =>
    rw [hahead.1] at hkind
    cases hkind
  | @parenthesized inner hwf _ => exact ⟨inner, rest, hwf, hahead, hrest⟩
  | intersection htwo _ _ ih =>
    obtain ⟨first, second, more, rfl⟩ := exists_cons_cons htwo
    exact ih first List.mem_cons_self hahead (goesOnWith_spaced (by decide))
  | union htwo _ _ ih =>
    obtain ⟨first, second, more, rfl⟩ := exists_cons_cons htwo
    exact ih first List.mem_cons_self hahead (goesOnWith_spaced (by decide))

/-- The term with brackets after it, the given number of times. -/
def arrays : Nat → TypeTerm → TypeTerm
  | 0, t => t
  | n + 1, t => arrays n (.array t)

/-- Empty brackets, the given number of times. -/
def brackets : Nat → List Piece → List Piece
  | 0, rest => rest
  | n + 1, rest => .punct .openBracket :: .punct .closeBracket :: brackets n rest

theorem before_arrays (n : Nat) (t : TypeTerm) (rest : List Piece) :
    (arrays n t).before rest = t.before (brackets n rest) := by
  induction n generalizing t with
  | zero => rfl
  | succ n ih => exact ih (.array t)

theorem depth_arrays (n : Nat) (t : TypeTerm) : (arrays n t).depth = t.depth + n := by
  induction n generalizing t with
  | zero => rfl
  | succ n ih =>
    show (arrays n (.array t)).depth = t.depth + (n + 1)
    rw [ih]
    show t.depth + 1 + n = t.depth + (n + 1)
    omega

end TypeTerm

/-! ## 2. Where a type starts -/

namespace Parser

/-- A type starts where a term does. -/
theorem startsTypeUpTo_of_term {count : Nat} (hwf : term.WellFormed) (h : s.Ok env.file.text)
    (hcount : env.file.text.size < s.pos + count) (hahead : Ahead env.file.text (term.before rest) s.token)
    (hrest : GoesOnWith afterElement rest) :
    (startsTypeUpTo count).Ends env s fun found _ => found = true := by
  induction count generalizing s term rest with
  | zero => exact absurd h.pos_le_size (Nat.not_le_of_lt hcount)
  | succ count ih =>
    refine .kind ?_
    rcases hwf.kind hahead with hkind | hkind | hkind
    · rw [hkind]
      refine .no (.kind ?_)
      rw [hkind]
      exact .pure rfl
    · rw [hkind]
      exact .pure rfl
    · obtain ⟨inner, rest, hinner, ⟨-, -, next, hnext, hahead⟩, -⟩ := hwf.inParentheses hahead hkind hrest
      rw [hkind]
      have hskip := (nextToken_reads hnext).and (nextToken_ends h (by simp [hkind]))
      refine Ends.peeked (hskip.bind fun _ t ht => ?_)
      obtain ⟨htoken, hskipped⟩ := ht
      rw [← htoken] at hahead
      have htook := hskipped.took
      have hclose : (isAtPunct .closeParen).Ends env t fun b u => b = false ∧ u = t := by
        refine ⟨beq_eq_false_iff_ne.mpr ?_, rfl⟩
        rcases hinner.kind hahead with hkind | hkind | hkind <;> simp [hkind]
      refine .orNo hclose ?_
      rcases hinner.kind hahead with hkind | hkind | hkind
      · have hparameter : startsParameter.Ends env t fun b u => b = true ∧ u = t := by
          refine .kind ?_
          rw [hkind]
          refine .no (.kind ?_)
          rw [hkind]
          refine .kind ?_
          rw [hkind]
          exact ⟨rfl, rfl⟩
        exact (Ends.orYes hparameter).mono fun _ _ hb => hb.1
      · have hparameter : startsParameter.Ends env t fun b u => b = true ∧ u = t := by
          refine .kind ?_
          rw [hkind]
          refine .no (.kind ?_)
          rw [hkind]
          exact ⟨rfl, rfl⟩
        exact (Ends.orYes hparameter).mono fun _ _ hb => hb.1
      · have hparameter : startsParameter.Ends env t fun b u => b = false ∧ u = t := by
          refine .kind ?_
          rw [hkind]
          refine .no (.kind ?_)
          rw [hkind]
          refine .kind ?_
          rw [hkind]
          exact ⟨rfl, rfl⟩
        exact .orNo hparameter (ih hinner hskipped.ok (by omega) hahead (goesOnWith_punct (by decide)))

/-- No type starts where a list of types ends. -/
theorem startsType_leaves {closing : Punctuator} (hkind : s.token.kind = .punct closing)
    (hclosing : closing ∈ [.closeBracket, .greaterThan]) :
    startsType.Ends env s fun found t => found = false ∧ t = s := by
  refine .read (.kind ?_)
  rw [hkind]
  simp only [List.mem_cons, List.not_mem_nil, or_false] at hclosing
  rcases hclosing with rfl | rfl
  all_goals
    refine .no (.kind ?_)
    rw [hkind]
    exact ⟨rfl, rfl⟩

/-! ## 3. Lists of types -/

/-- Lists of types, and what ends them. -/
inductive IsTypeList : ListContext → Punctuator → Prop where
  | arguments : IsTypeList .typeArguments .greaterThan
  | elements : IsTypeList .tupleElementTypes .closeBracket

/-- Called as a type the term is read, where it is not nested too deeply. -/
def ReadAsType (term : TypeTerm) : Prop :=
  ∀ (env : Surroundings) (s : ParserState) (rest : List Piece), env.Supplied Production.topRank s →
    s.log.size = 0 → s.scope.depth + term.depth < maxDepth →
    Ahead env.file.text (term.before rest) s.token → GoesOnWith afterType rest →
    (parse .type).Ends env s (Yields env.file.text s fun id next F =>
      Ahead env.file.text rest next ∧ F.IsType id term)

namespace IsTypeList

variable {list : ListContext} {closing : Punctuator}

theorem startsElement_of_term (hlist : IsTypeList list closing) (hwf : term.WellFormed)
    (h : s.Ok env.file.text) (hahead : Ahead env.file.text (term.before rest) s.token)
    (hrest : GoesOnWith afterElement rest) : (startsElement list false).answer env s = true := by
  have hcomma : (isAtPunct .comma).Ends env s fun b t => b = false ∧ t = s := by
    refine ⟨beq_eq_false_iff_ne.mpr ?_, rfl⟩
    rcases hwf.kind hahead with hkind | hkind | hkind <;> simp [hkind]
  have htype : startsType.Ends env s fun found _ => found = true :=
    .read (startsTypeUpTo_of_term hwf h (by omega) hahead hrest)
  have hstarts : (isAtPunct .comma <||> startsType).Ends env s fun found _ => found = true :=
    .orNo hcomma htype
  cases hlist with
  | arguments => exact hstarts
  | elements => exact hstarts

theorem startsElement_at_end (hlist : IsTypeList list closing) (hkind : s.token.kind = .punct closing) :
    (startsElement list false).answer env s = false := by
  have hstarts (hcomma : closing ≠ .comma) (hclosing : closing ∈ [.closeBracket, .greaterThan]) :
      (isAtPunct .comma <||> startsType).Ends env s fun found _ => found = false := by
    refine .orNo ⟨beq_eq_false_iff_ne.mpr ?_, rfl⟩ ((startsType_leaves hkind hclosing).mono fun _ _ h => h.1)
    rw [hkind]
    exact fun heq => hcomma (Kind.punct.inj heq)
  cases hlist with
  | arguments => exact hstarts (by decide) (by decide)
  | elements => exact hstarts (by decide) (by decide)

theorem endsList_at_end (hlist : IsTypeList list closing) (hkind : s.token.kind = .punct closing) :
    (endsList list).answer env s = true := by
  unfold endsList
  rw [answer_kind, hkind]
  cases hlist <;> rfl

end IsTypeList

section

variable {list : ListContext} {closing : Punctuator}

/-- Terms that are read as types are read in a list of types. -/
theorem IsTypeList.isListOf (hlist : IsTypeList list closing) (hts : ∀ t ∈ ts, t.WellFormed ∧ ReadAsType t)
    (hlog : r.log.size = 0) (hdepth : r.scope.depth + TypeTerm.depthOfList ts ≤ maxDepth) :
    IsListOf env r list (parse .type) closing TypeTerm.before Forest.IsType ts where
  notComma := by cases hlist <;> decide
  ends _ := hlist.endsList_at_end
  startsNone _ := hlist.startsElement_at_end
  starts term hmem t rest ht hahead hrest := by
    refine hlist.startsElement_of_term (hts term hmem).1 ht hahead (hrest.mono ?_)
    cases hlist <;> decide
  reads term hmem t rest ht hlog' hscope hahead hrest := by
    have hlt := TypeTerm.depth_lt_of_mem hmem
    refine (hts term hmem).2 env t rest ht (hlog' ▸ hlog) ?_ hahead (hrest.mono ?_)
    · rw [hscope]
      omega
    · cases hlist <;> decide
  keeps _ _ _ _ hkeeps h := h.keeps hkeeps

/-- A list of types in brackets is read. -/
theorem bracketed_reads {opening : Punctuator} (hlist : IsTypeList list closing)
    (hts : ∀ t ∈ ts, t.WellFormed ∧ ReadAsType t) (h : env.Supplied rank s) (hlog : s.log.size = 0)
    (hdepth : s.scope.depth + TypeTerm.depthOfList ts ≤ maxDepth)
    (hahead : Ahead env.file.text (.punct opening
      :: TypeTerm.beforeList TypeTerm.comma ts (.punct closing :: rest)) s.token) :
    (allowConditionalTypes (bracketed list (parse .type) opening closing)).Ends env s fun nodes t =>
      Quiet env.file.text s t [.array nodes] ∧ s.pos < t.pos ∧ Ahead env.file.text rest t.token
        ∧ List.Forall₂ t.forest.IsType nodes.nodes ts := by
  obtain ⟨hkind, -, next, hnext, hahead⟩ := hahead
  have h : env.Supplied rank (s.inContext { s.scope.context with disallowConditionalTypes := false }) :=
    h.inScope _
  refine .withContext ?_
  refine (Way.start h).takeExpected hkind nofun hnext fun t htoken _ htook g => .yes ?_
  have hlog := g.quiet.silent hlog
  have hdepth := g.quiet.depth_le hdepth
  rw [TypeTerm.beforeList_eq, ← htoken] at hahead
  have hlist : IsListOf env (t.withLists (list :: t.scope.openLists)) list _ closing _ _ ts :=
    hlist.isListOf hts hlog hdepth
  refine (hlist.separated_reads g.supplied hahead).bind fun nodes u hu => ?_
  obtain ⟨hquiet, ⟨hkind, -, next, hnext, hahead⟩, hall⟩ := hu
  refine (g.go hquiet).takeExpected hkind nofun hnext fun v htoken hforest htook' g => .pure ?_
  refine ⟨⟨g.quiet.toRun.inContext, g.quiet.log_eq⟩, ?_, htoken ▸ hahead, hforest ▸ hall⟩
  exact Nat.lt_trans htook (Nat.lt_of_le_of_lt hquiet.forward htook')

end

/-! ## 4. Operands -/

/-- The term was read, and the given pieces are ahead. -/
def AsTerm (text : Array Char) (rest : List Piece) (term : TypeTerm) (id : NodeId) (next : Token)
    (F : Forest) : Prop :=
  Ahead text rest next ∧ F.IsType id term

/-- The parser reads the term, if one of the given punctuators comes after it. -/
def IsReadBy (p : Parser NodeId) (after : List Punctuator) (term : TypeTerm) : Prop :=
  ∀ (env : Surroundings) (rank : Nat) (s : ParserState) (rest : List Piece), env.Supplied rank s →
    s.log.size = 0 → s.scope.depth + term.depth ≤ maxDepth →
    Ahead env.file.text (term.before rest) s.token → GoesOnWith after rest →
    p.Ends env s (Yields env.file.text s (AsTerm env.file.text rest term))

/-- No dot follows the name. -/
theorem qualifiedRest_leaves {pos : Nat} {keywords : Bool} {first : NodeId}
    (hkind : s.token.kind ≠ .punct .dot) :
    (qualifiedRest pos keywords first).Ends env s fun id t => id = first ∧ t = s :=
  repeating_once (.leave hkind (.no (.pure ⟨first, rfl, rfl, rfl⟩)))

theorem entityName_yields (h : env.Supplied rank s) (hlog : s.log.size = 0)
    (hkind : s.token.kind = .identifier) (hread : s.token.next env.file.text = (next, []))
    (hnext : next.kind ≠ .punct .dot) :
    (entityName true .typeExpected).Ends env s fun id t =>
      Yields env.file.text s (fun id u F => u = next ∧ F.IsIdentifier id s.token.value) id t
        ∧ ∃ n, t.arena.get? id = some n ∧ n.isMissing = false := by
  have hname : (entityName true .typeExpected).Ends env s (Yields env.file.text s fun id u F =>
      u = next ∧ F.IsIdentifier id s.token.value) := by
    refine .nodePos (.yes ((nameOr_yields .typeExpected h.ok (by simp [hkind, Kind.isName]) hread).bind fun first t ht => ?_))
    refine (qualifiedRest_leaves (ht.holds.1 ▸ hnext)).mono ?_
    rintro _ _ ⟨rfl, rfl⟩
    exact ht
  refine (hname.and (entityName_ends true .typeExpected h.ready)).mono fun id t ht => ?_
  obtain ⟨ht, -, n, hn, hreported⟩ := ht
  refine ⟨ht, n, hn, ?_⟩
  apply Bool.eq_false_iff.mpr
  intro hmissing
  have hlog := ht.quiet.silent hlog
  have := hreported hmissing
  omega

/-- Type arguments are read where an angle bracket opens, and nowhere else. -/
theorem referenceArguments_reads (hts : ∀ t ∈ ts, t.WellFormed ∧ ReadAsType t) (h : env.Supplied rank s)
    (hlog : s.log.size = 0) (hdepth : s.scope.depth + TypeTerm.depthOfList ts ≤ maxDepth)
    (hahead : Ahead env.file.text (.punct .lessThan
      :: TypeTerm.beforeList TypeTerm.comma ts (.punct .greaterThan :: rest)) s.token) :
    referenceArguments.Ends env s fun found t => ∃ list, found = some list
      ∧ Quiet env.file.text s t [.array list] ∧ Ahead env.file.text rest t.token
      ∧ List.Forall₂ t.forest.IsType list.nodes ts := by
  refine .afterLineBreak ?_
  rw [hahead.2.1]
  have hread : ReadingMode.rescanLess.read env.file.text s.token = (s.token, []) := by
    show s.token.rescanLess = _
    simp [Token.rescanLess, hahead.1]
  refine .no ((Way.start h).read (by decide) hread fun t htoken hforest g => .isAt ?_)
  rw [htoken, hahead.1]
  have hlog := g.quiet.silent hlog
  have hdepth := g.quiet.depth_le hdepth
  refine .yes ((bracketed_reads .arguments hts g.supplied hlog hdepth (htoken ▸ hahead)).bind ?_)
  intro list u hu
  exact .pure ⟨list, rfl, g.quiet.trans hu.1, hu.2.2⟩

theorem referenceArguments_leaves (h : env.Supplied rank s) (hahead : Ahead env.file.text rest s.token)
    (hrest : GoesOnWith afterElement rest) :
    referenceArguments.Ends env s fun found t => found = none ∧ Quiet env.file.text s t []
      ∧ t.token = s.token := by
  have hread : ReadingMode.rescanLess.read env.file.text s.token = (s.token, []) := by
    show s.token.rescanLess = _
    simp [Token.rescanLess, hrest.ne hahead (k := .punct .lessThanLessThan) (by decide)]
  refine .afterLineBreak ?_
  rw [(hrest.kind hahead).2]
  refine .no ((Way.start h).read (by decide) hread fun t htoken _ g => .isAt ?_)
  rw [htoken, beq_eq_false_iff_ne.mpr (hrest.ne hahead (by decide))]
  exact .pure ⟨rfl, g.quiet, htoken⟩

theorem typeReference_reads {name : PlainName} (hts : ∀ t ∈ ts, t.WellFormed ∧ ReadAsType t) :
    IsReadBy typeReference afterElement (.reference name ts) := by
  intro env rank s rest h hlog hdepth hahead hrest
  cases ts with
  | nil =>
    obtain ⟨hkind, hvalue, -, next, hnext, hahead⟩ := hahead
    rw [name.wordKind_eq] at hkind
    have hdot : next.kind ≠ .punct .dot := hrest.ne hahead (by decide)
    refine .nodePos ((entityName_yields h hlog hkind hnext hdot).bind fun identifier t ht => ?_)
    obtain ⟨ht, n, hn, hpresent⟩ := ht
    obtain ⟨rfl, hname⟩ := ht.holds
    have g := (Way.start h).goTook ht.quiet ht.took
    refine (referenceArguments_leaves g.supplied hahead hrest).bind ?_
    rintro _ u ⟨rfl, hquiet, htoken⟩
    have g := g.go hquiet
    refine .isMissing (hquiet.grows.get? hn) ?_
    rw [hpresent]
    refine g.finish rfl (Nat.lt_of_lt_of_le ht.took hquiet.forward) rfl rfl fun id F hkeeps hshows => ?_
    refine ⟨htoken ▸ hahead, .name hshows ?_⟩
    exact hvalue ▸ hname.keeps (hquiet.keeps.trans hkeeps)
  | cons term ts =>
    obtain ⟨hkind, hvalue, -, next, hnext, hahead⟩ := hahead
    rw [name.wordKind_eq] at hkind
    have hdot : next.kind ≠ .punct .dot := by simp [hahead.1]
    refine .nodePos ((entityName_yields h hlog hkind hnext hdot).bind fun identifier t ht => ?_)
    obtain ⟨ht, n, hn, hpresent⟩ := ht
    obtain ⟨rfl, hname⟩ := ht.holds
    have g := (Way.start h).goTook ht.quiet ht.took
    have hlog := g.quiet.silent hlog
    have hdepth := g.quiet.depth_le hdepth
    refine (referenceArguments_reads hts g.supplied hlog hdepth hahead).bind ?_
    rintro _ u ⟨list, rfl, hquiet, hahead, hall⟩
    have g := g.go hquiet
    refine .isMissing (hquiet.grows.get? hn) ?_
    rw [hpresent]
    refine g.finish rfl (Nat.lt_of_lt_of_le ht.took hquiet.forward) rfl rfl fun id F hkeeps hshows => ?_
    refine ⟨hahead, .reference hshows ?_ (List.cons_ne_nil _ _) (Forest.allKeep hkeeps hall)⟩
    exact hvalue ▸ hname.keeps (hquiet.keeps.trans hkeeps)

theorem tupleType_reads (hts : ∀ t ∈ ts, t.WellFormed ∧ ReadAsType t) :
    IsReadBy tupleType afterElement (.tuple ts) := by
  intro env rank s rest h hlog hdepth hahead _
  refine .nodePos ((bracketed_reads .elements hts h hlog hdepth hahead).bind fun list t ht => ?_)
  obtain ⟨hquiet, htook, hahead, hall⟩ := ht
  refine ((Way.start h).go hquiet).finish rfl htook rfl rfl fun id F hkeeps hshows => ?_
  exact ⟨hahead, .tuple hshows (Forest.allKeep hkeeps hall)⟩

theorem parenthesizedType_reads (hterm : ReadAsType term) :
    IsReadBy parenthesizedType afterElement (.parenthesized term) := by
  intro env rank s rest h hlog hdepth hahead _
  obtain ⟨hkind, -, next, hnext, hahead⟩ := hahead
  refine .nodePos ((Way.start h).takeExpected hkind nofun hnext fun t htoken _ htook g => ?_)
  have hlog := g.quiet.silent hlog
  have hdepth : t.scope.depth + term.depth < maxDepth := by
    have hdepth : s.scope.depth + (term.depth + 1) ≤ maxDepth := hdepth
    rw [g.quiet.scope_eq]
    omega
  have htype : (allowConditionalTypes (parse .type)).Ends env t
      (Yields env.file.text t fun id next F =>
        Ahead env.file.text (.punct .closeParen :: rest) next ∧ F.IsType id term) :=
    withContext_yields (hterm env _ _ (g.supplied.inScope _) hlog hdepth (htoken ▸ hahead)
      (goesOnWith_punct (by decide)))
  refine g.step htype fun inner u hu _ htook' g => ?_
  obtain ⟨⟨hkind, -, next, hnext, hahead⟩, hinner⟩ := hu
  refine g.takeExpected hkind nofun hnext fun v htoken hforest htook'' g => ?_
  refine g.finish rfl (Nat.lt_trans htook (Nat.lt_trans htook' htook'')) rfl rfl fun id F hkeeps hshows => ?_
  exact ⟨htoken ▸ hahead, .parenthesized hshows ((hforest ▸ hinner).keeps hkeeps)⟩

/-- The closing bracket after an opening one makes an array of the term that was read. -/
theorem bracketsAfterType_reads {type : NodeId} (g : Way env Production.topRank r s [.node type])
    (htook : r.pos < s.pos) (htype : s.forest.IsType type term)
    (hahead : Ahead env.file.text (.punct .closeBracket :: rest) s.token) :
    (bracketsAfterType r.pos type).Ends env s fun id t =>
      Yields env.file.text r (AsTerm env.file.text rest (.array term)) id t ∧ s.pos < t.pos := by
  obtain ⟨hkind, -, next, hnext, hahead⟩ := hahead
  refine .leaves (startsType_leaves hkind (by decide)) (.no ?_)
  refine g.takeExpected hkind nofun hnext fun t htoken hforest htook' g => ?_
  have hfinish : (finishProduction .arrayType r.pos (.arrayType type)).Ends env t
      (Yields env.file.text r fun id next F =>
        next = t.token ∧ AsTerm env.file.text rest (.array term) id next F) := by
    refine g.finish rfl (Nat.lt_trans htook htook') rfl rfl fun id F hkeeps hshows => ⟨rfl, ?_⟩
    exact ⟨htoken ▸ hahead, .array hshows ((hforest ▸ htype).keeps hkeeps)⟩
  refine hfinish.mono fun id u hu => ⟨hu.mono fun _ _ _ h => h.2, ?_⟩
  have hpos : u.pos = t.pos := congrArg Token.fullStart hu.holds.1
  rw [hpos]
  exact htook'

/-- Of the brackets after a term some have been read, and the others are ahead. -/
def ReadingBrackets (env : Surroundings) (r : ParserState) (rest : List Piece) (term : TypeTerm)
    (id : NodeId) (t : ParserState) : Prop :=
  Way env Production.topRank r t [.node id] ∧ r.pos < t.pos ∧ ∃ left inner,
    TypeTerm.arrays left inner = term ∧ t.forest.IsType id inner
      ∧ Ahead env.file.text (TypeTerm.brackets left rest) t.token

/-- A term is read with all brackets after it. -/
theorem postfixType_reads (hprimary : IsReadBy primaryType afterElement term) (n : Nat) :
    IsReadBy postfixType afterOperand (TypeTerm.arrays n term) := by
  intro env rank s rest h hlog hdepth hahead hrest
  rw [TypeTerm.before_arrays] at hahead
  rw [TypeTerm.depth_arrays] at hdepth
  have hbrackets : GoesOnWith afterElement (TypeTerm.brackets n rest) := by
    cases n with
    | zero => exact hrest.mono (by decide)
    | succ n => exact goesOnWith_punct (by decide)
  refine .nodePos ((hprimary env rank s _ h hlog (by omega) hahead hbrackets).bind fun first t ht => ?_)
  have hstart : ReadingBrackets env s rest (TypeTerm.arrays n term) first t :=
    ⟨(Way.start h).goTook ht.quiet ht.took, ht.took, n, term, rfl, ht.holds.2, ht.holds.1⟩
  refine (repeating_ends (Q := Yields env.file.text s (AsTerm env.file.text rest _)) hstart
    (fun _ _ h => h.1.ok.pos_le_size) fun id u hu => ?_).mono fun _ _ h => h.1
  obtain ⟨g, htook, left, inner, hinner, htype, hahead⟩ := hu
  refine .afterLineBreak ?_
  cases left with
  | zero =>
    rw [(hrest.kind hahead).2]
    refine .no (.leave (hrest.ne hahead (by decide)) (.no (.pure ?_)))
    exact ⟨⟨g.quiet, htook, hahead, hinner ▸ htype⟩, Nat.le_refl _⟩
  | succ left =>
    obtain ⟨hkind, hline, next, hnext, hahead⟩ := hahead
    rw [hline]
    refine .no (g.take hkind nofun hnext fun v htoken hforest htook' g => ?_)
    refine .yes ((bracketsAfterType_reads g (Nat.lt_trans htook htook') (hforest ▸ htype)
      (htoken ▸ hahead)).bind fun id w hw => .pure ?_)
    obtain ⟨hw, htook''⟩ := hw
    refine ⟨⟨⟨hw.quiet, h.took hw.quiet.ok hw.took⟩, hw.took, left, .array inner, hinner, hw.holds.2,
      hw.holds.1⟩, Nat.lt_trans htook' htook''⟩

/-! ## 5. Chains -/

section

variable {node : NodeKind} {operator : Punctuator} {part : Parser NodeId} {after : List Punctuator}

/-- One part alone is that part. -/
theorem IsReadBy.alone (h : IsReadBy part (operator :: after) term) (hwf : term.WellFormed)
    (hstart : TypeTerm.startsTermKind (.punct operator) = false) (hafter : operator ∉ after) :
    IsReadBy (typeChain node operator part) after term := by
  intro env rank s rest hsupplied hlog hdepth hahead hrest
  have hled : s.token.kind ≠ .punct operator := by
    intro heq
    have hterm := (hwf.startsTerm rest).kind hahead
    rw [heq, hstart] at hterm
    cases hterm
  have hpart := h env rank s rest hsupplied hlog hdepth hahead (hrest.mono fun p => List.mem_cons_of_mem _)
  refine .nodePos (.leave hled (hpart.bind fun id t ht => .isAt ?_))
  have hended : t.token.kind ≠ .punct operator := hrest.ne ht.holds.1 (by simpa using hafter)
  rw [beq_eq_false_iff_ne.mpr hended]
  exact .yes (.pure ht)

theorem isType_append {F : Forest} {ids : List NodeId} {id : NodeId}
    (hs : List.Forall₂ F.IsType ids ts) (h : F.IsType id term) :
    List.Forall₂ F.IsType (ids ++ [id]) (ts ++ [term]) :=
  List.rel_append hs (.cons h .nil)

/-- Of the parts of a chain all have been read but the given ones, which are ahead. The node of the
first part is known. -/
structure ReadingParts (env : Surroundings) (r : ParserState) (operator : Punctuator)
    (rest : List Piece) (parts : List TypeTerm) (n : Node) (left : List TypeTerm)
    (read : List NodeId) (t : ParserState) : Prop where
  way : Way env Production.topRank r t (readParts read)
  took : r.pos < t.pos
  first_eq : ∃ first more, read.reverse = first :: more ∧ t.arena.get? first = some n
  done : ∃ done, done ++ left = parts ∧ List.Forall₂ t.forest.IsType read.reverse done
  ahead : Ahead env.file.text (TypeTerm.beforeMore (TypeTerm.spaced operator) left rest) t.token

/-- The chain is finished from its parts. It starts where the first of them does. -/
theorem ReadingParts.finish {parts : List TypeTerm} {read : List NodeId} {n : Node}
    (hnode : (Kind.node node).isRuled = false) (h : ReadingParts env r operator rest parts n [] read s) :
    (finishProduction node r.pos (.typeList { pos := n.pos, stop := s.pos, nodes := read.reverse })).Ends
      env s (Yields env.file.text r fun id next F => Ahead env.file.text rest next
        ∧ ∃ list, F.Shows id (.node node) (.typeList list) ∧ List.Forall₂ F.IsType list.nodes parts) := by
  obtain ⟨first, more, hfirst, hn⟩ := h.first_eq
  obtain ⟨done, hdone, htypes⟩ := h.done
  have hrun : Run env.file.text r s (read.reverse.map Part.node) := h.way.quiet.toRun
  have hspan := hrun.placed.children
  rw [childrenOf_map_node, hfirst] at hspan
  obtain ⟨n', hn', hle, hstop, hrest⟩ := hspan
  cases hn.symm.trans hn'
  have hlist : Run env.file.text r s [.array { pos := n.pos, stop := s.pos, nodes := read.reverse }] := by
    refine hrun.gather hle (Nat.le_refl _) ?_
    rw [hfirst]
    exact ⟨n, hn, Nat.le_refl _, hstop, hrest⟩
  have g : Way env Production.topRank r s _ := ⟨⟨hlist, h.way.quiet.log_eq⟩, h.way.supplied⟩
  refine g.finish rfl h.took rfl (Kind.isSpecial_eq_false hnode rfl) fun id F hkeeps hshows => ?_
  refine ⟨h.ahead, _, hshows, ?_⟩
  rw [List.append_nil] at hdone
  exact hdone ▸ Forest.allKeep hkeeps htypes

/-- A part of a chain is read up to the operator before the next one, or to what follows the chain. -/
theorem IsReadBy.inChain {items : List Part} {left : List TypeTerm}
    (h : IsReadBy part (operator :: after) term) (g : Way env rank r s items) (hlog : r.log.size = 0)
    (hdepth : r.scope.depth + term.depth ≤ maxDepth) (hrest : GoesOnWith after rest)
    (hahead : Ahead env.file.text
      (term.before (TypeTerm.beforeMore (TypeTerm.spaced operator) left rest)) s.token) :
    part.Ends env s (Yields env.file.text s
      (AsTerm env.file.text (TypeTerm.beforeMore (TypeTerm.spaced operator) left rest) term)) := by
  have hmore : GoesOnWith (operator :: after)
      (TypeTerm.beforeMore (TypeTerm.spaced operator) left rest) :=
    TypeTerm.beforeMore_eq _ left rest ▸
      (hrest.mono fun p => List.mem_cons_of_mem _).more fun _ => goesOnWith_spaced List.mem_cons_self
  exact h env rank s _ g.supplied (g.quiet.silent hlog) (g.quiet.depth_le hdepth) hahead hmore

/-- A turn reads one more part behind an operator, or no operator is left. -/
theorem chainTurn_reads {parts : List TypeTerm} {n : Node} {read : List NodeId}
    (hparts : ∀ t ∈ parts, IsReadBy part (operator :: after) t) (hafter : operator ∉ after)
    (hlog : r.log.size = 0) (hdepth : r.scope.depth + TypeTerm.depthOfList parts ≤ maxDepth)
    (hrest : GoesOnWith after rest) (h : ∃ left, ReadingParts env r operator rest parts n left read s) :
    (do if ← acceptPunct operator then return .again ((← part) :: read) else return .done read :
      Parser (Turn (List NodeId))).Ends env s
      (Turn.Leads (fun read t => ∃ left, ReadingParts env r operator rest parts n left read t)
        (ReadingParts env r operator rest parts n []) s) := by
  obtain ⟨left, h⟩ := h
  obtain ⟨done, hall, htypes⟩ := h.done
  cases left with
  | nil =>
    have hended : s.token.kind ≠ .punct operator := hrest.ne h.ahead (by simpa using hafter)
    exact .leave hended (.no (.pure ⟨h, Nat.le_refl _⟩))
  | cons term left =>
    obtain ⟨hkind, -, next, hnext, hahead⟩ := h.ahead
    refine h.way.take hkind nofun hnext fun t htoken hforest htook g => .yes ?_
    have hmem : term ∈ parts := by
      rw [← hall]
      simp
    have hbelow : r.scope.depth + term.depth ≤ maxDepth := by
      have hlt := TypeTerm.depth_lt_of_mem hmem
      omega
    refine ((hparts term hmem).inChain g hlog hbelow hrest (htoken ▸ hahead)).bind fun id u hu => .pure ?_
    have htook : s.pos < u.pos := Nat.lt_trans htook hu.took
    have g := (g.goTook hu.quiet hu.took).parts (readParts_cons id read).symm
    refine ⟨⟨left, g, Nat.lt_trans h.took htook, ?_, ?_, hu.holds.1⟩, htook⟩
    · obtain ⟨first, more, hfirst, hn⟩ := h.first_eq
      have harena : t.arena = s.arena := congrArg Forest.arena hforest
      rw [← harena] at hn
      exact ⟨first, more ++ [id], by simp [hfirst], hu.quiet.grows.get? hn⟩
    · refine ⟨done ++ [term], by simpa using hall, ?_⟩
      rw [List.reverse_cons]
      exact isType_append (Forest.allKeep hu.quiet.keeps (hforest ▸ htypes)) hu.holds.2

/-- Parts with an operator between them are read up to what follows the last one. -/
theorem IsReadBy.chain {first second : TypeTerm} {more : List TypeTerm} {term : TypeTerm}
    (hnode : (Kind.node node).isRuled = false)
    (hparts : ∀ t ∈ first :: second :: more, t.WellFormed ∧ IsReadBy part (operator :: after) t)
    (hstart : TypeTerm.startsTermKind (.punct operator) = false) (hafter : operator ∉ after)
    (hdepth : term.depth = TypeTerm.depthOfList (first :: second :: more))
    (hbefore : ∀ rest, term.before rest
      = TypeTerm.beforeList (TypeTerm.spaced operator) (first :: second :: more) rest)
    (hterm : ∀ F id list, Forest.Shows F id (.node node) (.typeList list) →
      List.Forall₂ F.IsType list.nodes (first :: second :: more) → F.IsType id term) :
    IsReadBy (typeChain node operator part) after term := by
  intro env rank s rest h hlog hlimit hahead hrest
  rw [hbefore] at hahead
  rw [hdepth] at hlimit
  obtain ⟨hwf, hfirst⟩ := hparts first List.mem_cons_self
  have hled : s.token.kind ≠ .punct operator := by
    intro heq
    have hkind := (hwf.startsTerm _).kind hahead
    rw [heq, hstart] at hkind
    cases hkind
  have hbelow : s.scope.depth + first.depth ≤ maxDepth := by
    have hlt : first.depth < TypeTerm.depthOfList (first :: second :: more) :=
      TypeTerm.depth_lt_of_mem List.mem_cons_self
    omega
  have hfirst := hfirst.inChain (Way.start h) hlog hbelow hrest hahead
  refine .nodePos (.leave hled (hfirst.bind fun id t ht => ?_))
  have hoperator : t.token.kind = .punct operator := ht.holds.1.1
  refine .isAt ?_
  rw [hoperator, beq_self_eq_true]
  obtain ⟨n, hn⟩ : ∃ n, t.arena.get? id = some n :=
    ⟨_, Array.getElem?_eq_getElem (ht.quiet.toRun.there id (by simp))⟩
  refine .no (.node hn ?_)
  have hreading : ReadingParts env s operator rest (first :: second :: more) n (second :: more) [id] t :=
    ⟨(Way.start h).goTook ht.quiet ht.took, ht.took, ⟨id, [], rfl, hn⟩,
      ⟨[first], rfl, .cons ht.holds.2 .nil⟩, ht.holds.1⟩
  refine (repeating_ends ⟨_, hreading⟩ (fun _ _ ⟨_, hu⟩ => hu.way.ok.pos_le_size) fun read u hu =>
    chainTurn_reads (fun t ht => (hparts t ht).2) hafter hlog hlimit hrest hu).bind
    fun read u hu => .nodePos ?_
  refine (hu.1.finish hnode).mono fun id' v hv => hv.mono fun id' next F hF => ?_
  obtain ⟨hahead, list, hshows, hall⟩ := hF
  exact ⟨hahead, hterm F id' list hshows hall⟩

end

/-! ## 6. Types -/

theorem primaryType_reads_reference {name : PlainName} (hts : ∀ t ∈ ts, t.WellFormed ∧ ReadAsType t) :
    IsReadBy primaryType afterElement (.reference name ts) := by
  intro env rank s rest h hlog hdepth hahead hrest
  have hkind : s.token.kind = .identifier := by
    cases ts with
    | nil => exact hahead.1.trans name.wordKind_eq
    | cons t ts => exact hahead.1.trans name.wordKind_eq
  refine .kind ?_
  rw [hkind]
  exact typeReference_reads hts env rank s rest h hlog hdepth hahead hrest

theorem primaryType_reads_tuple (hts : ∀ t ∈ ts, t.WellFormed ∧ ReadAsType t) :
    IsReadBy primaryType afterElement (.tuple ts) := by
  intro env rank s rest h hlog hdepth hahead hrest
  refine .kind ?_
  rw [hahead.1]
  exact tupleType_reads hts env rank s rest h hlog hdepth hahead hrest

theorem primaryType_reads_parenthesized (hterm : ReadAsType term) :
    IsReadBy primaryType afterElement (.parenthesized term) := by
  intro env rank s rest h hlog hdepth hahead hrest
  refine .kind ?_
  rw [hahead.1]
  exact parenthesizedType_reads hterm env rank s rest h hlog hdepth hahead hrest

/-- No word stands before a term that makes another type of it. -/
theorem typeOperator_reads (hwf : term.WellFormed) (h : IsReadBy postfixType afterOperand term) :
    IsReadBy typeOperator afterOperand term := by
  intro env rank s rest hsupplied hlog hdepth hahead hrest
  have hpostfix := h env rank s rest hsupplied hlog hdepth hahead hrest
  refine .kind ?_
  rcases hwf.kind hahead with hkind | hkind | hkind <;> rw [hkind] <;> exact hpostfix

/-- A term is no function type and no constructor type, and no condition follows it. -/
theorem typeBody_reads (hwf : term.WellFormed) (h : IsReadBy unionType afterType term) :
    IsReadBy typeBody afterType term := by
  intro env rank s rest hsupplied hlog hdepth hahead hrest
  have hno : startsFunctionType.Ends env s fun found t => found = false ∧ Still env.file.text s t := by
    rcases hwf.kind hahead with hkind | hkind | hkind
    · refine .kind ?_
      rw [hkind]
      exact ⟨rfl, .refl hsupplied.ok⟩
    · refine .kind ?_
      rw [hkind]
      exact ⟨rfl, .refl hsupplied.ok⟩
    · obtain ⟨inner, rest, hinner, hahead, hrest⟩ :=
        hwf.inParentheses hahead hkind (hrest.mono (by decide))
      exact startsFunctionType_of_parenthesized hinner hsupplied hlog hahead
        fun next hnext => hrest.ne hnext (by decide)
  refine hno.bind ?_
  rintro _ t ⟨rfl, hstill⟩
  have htoken := hstill.token
  have hquiet : Quiet env.file.text s t [] := ⟨hstill.toRun, hstill.log⟩
  have g := (Way.start hsupplied).go hquiet
  rw [← htoken] at hahead
  refine .no (.isAt ?_)
  have hnew : t.token.kind ≠ .keyword .newKw := by
    rcases hwf.kind hahead with hkind | hkind | hkind <;> simp [hkind]
  rw [beq_eq_false_iff_ne.mpr hnew]
  have hlog := hquiet.silent hlog
  have hdepth := hquiet.depth_le hdepth
  refine .no (.nodePos ((h env rank t rest g.supplied hlog hdepth hahead hrest).bind fun id u hu => ?_))
  have hpos : t.pos = s.pos := congrArg Token.fullStart htoken
  have hdone : (pure id : Parser NodeId).Ends env u
      (Yields env.file.text s (AsTerm env.file.text rest term)) :=
    .pure ⟨hquiet.after hu.quiet, hpos ▸ hu.took, hu.holds⟩
  refine .context (.ite (fun _ => hdone) fun _ => .afterLineBreak (.ite (fun _ => hdone) fun _ => ?_))
  exact .leave (hrest.ne hu.holds.1 (by decide)) (.no hdone)

theorem readAsType_of_union (hwf : term.WellFormed) (h : IsReadBy unionType afterType term) :
    ReadAsType term := by
  intro env s rest hsupplied hlog hdepth hahead hrest
  refine parse_of_body hsupplied (by decide) fun inner hfile hinner => ?_
  rw [← hfile] at hahead ⊢
  have hbelow : s.scope.depth < maxDepth := Nat.lt_of_le_of_lt (Nat.le_add_right _ _) hdepth
  have hdeeper : s.scope.depth + 1 + term.depth ≤ maxDepth := by omega
  have hnested (context : ContextFlags) := nested_yields (s := s.inContext context) .typeExpected hbelow
    (typeBody_reads hwf h inner _ _ rest ((hinner.inScope _).inScope _) hlog hdeeper hahead hrest)
  refine withContext_yields ((hnested _).bind ?_)
  rintro ⟨id, parsed⟩ t ⟨rfl, ht⟩
  exact .pure ht

end Parser

/-- A term is read at each level of the grammar that it belongs to. -/
structure TypeTerm.IsRead (term : TypeTerm) : Prop where
  operand : term.isOperand = true → ∀ n, IsReadBy postfixType afterOperand (arrays n term)
  conjunct : term.isConjunct = true →
    IsReadBy (typeChain .intersectionType .ampersand typeOperator) afterConjunct term
  type : ReadAsType term

namespace TypeTerm

theorem isRead_of_union (hwf : term.WellFormed) (hoperand : term.isOperand = false)
    (hconjunct : term.isConjunct = false) (h : IsReadBy unionType afterType term) : term.IsRead where
  operand hyes := by simp [hoperand] at hyes
  conjunct hyes := by simp [hconjunct] at hyes
  type := readAsType_of_union hwf h

theorem isRead_of_conjunct (hwf : term.WellFormed) (hoperand : term.isOperand = false)
    (h : IsReadBy (typeChain .intersectionType .ampersand typeOperator) afterConjunct term) :
    term.IsRead where
  operand hyes := by simp [hoperand] at hyes
  conjunct _ := h
  type := readAsType_of_union hwf (h.alone hwf rfl (by decide))

theorem isRead_of_operand (hwf : term.WellFormed)
    (h : ∀ n, IsReadBy postfixType afterOperand (arrays n term)) : term.IsRead where
  operand _ := h
  conjunct _ := (typeOperator_reads hwf (h 0)).alone hwf rfl (by decide)
  type := readAsType_of_union hwf
    (((typeOperator_reads hwf (h 0)).alone hwf rfl (by decide)).alone hwf rfl (by decide))

/-- Every term is read as what it is. -/
theorem WellFormed.isRead (h : term.WellFormed) : term.IsRead := by
  induction h with
  | reference hwf ih =>
    refine isRead_of_operand (.reference hwf) (postfixType_reads (primaryType_reads_reference ?_))
    exact fun t ht => ⟨hwf t ht, (ih t ht).type⟩
  | array hoperand hwf ih =>
    exact isRead_of_operand (.array hoperand hwf) fun n => ih.operand hoperand (n + 1)
  | tuple hwf ih =>
    refine isRead_of_operand (.tuple hwf) (postfixType_reads (primaryType_reads_tuple ?_))
    exact fun t ht => ⟨hwf t ht, (ih t ht).type⟩
  | parenthesized hwf ih =>
    exact isRead_of_operand (.parenthesized hwf) (postfixType_reads (primaryType_reads_parenthesized ih.type))
  | @intersection parts htwo hoperands hwf ih =>
    have hterm : WellFormed (.intersection parts) := .intersection htwo hoperands hwf
    obtain ⟨first, second, more, rfl⟩ := exists_cons_cons htwo
    refine isRead_of_conjunct hterm rfl (.chain rfl (fun t ht => ⟨hwf t ht, ?_⟩) rfl (by decide) rfl
      (fun _ => rfl) fun F id list => .intersection)
    exact typeOperator_reads (hwf t ht) ((ih t ht).operand (hoperands t ht) 0)
  | @union parts htwo hconjuncts hwf ih =>
    have hterm : WellFormed (.union parts) := .union htwo hconjuncts hwf
    obtain ⟨first, second, more, rfl⟩ := exists_cons_cons htwo
    refine isRead_of_union hterm rfl rfl (.chain rfl (fun t ht => ⟨hwf t ht, ?_⟩) rfl (by decide) rfl
      (fun _ => rfl) fun F id list => .union)
    exact (ih t ht).conjunct (hconjuncts t ht)

end TypeTerm

end ScriptSyntax
