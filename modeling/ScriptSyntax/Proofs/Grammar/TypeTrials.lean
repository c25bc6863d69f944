/-
  ScriptSyntax/Proofs/Grammar/TypeTrials.lean
  ===========================================
  Terms of types that are tried as parameters.

  An opening parenthesis might start the parameters of a function type.  What
  follows it is then read as a parameter on trial, a tuple as a pattern.  Either
  an error is reported on the way, or the tuple has been read to its end; in no
  case a token comes next that goes on with parameters.
-/
import ScriptSyntax.Proofs.Grammar.Types
import ScriptSyntax.Proofs.Grammar.Way
import ScriptSyntax.Proofs.Tree.TypeTerm

namespace ScriptSyntax

open ScriptSyntax.Parser

variable {env : Surroundings} {rank : Nat} {r s t : ParserState} {rest : List Piece}
variable {O N : Token → Prop} {α β : Type}

/-! ## 1. Doubtful readings -/

/-- Something has been reported, or the next token is as it should be. -/
abbrev Doubted (O : Token → Prop) (t : ParserState) : Prop := 0 < t.log.size ∨ O t.token

/-- Calls are answered, and something has been reported unless the next token is as it should be. -/
structure Doubtful (env : Surroundings) (O : Token → Prop) (s : ParserState) : Prop where
  supplied : env.Supplied Production.topRank s
  outcome : Doubted O s

namespace Doubtful

variable {p : Parser α} {f : α → Parser β} {Q : β → ParserState → Prop}

theorem ok (h : Doubtful env O s) : s.Ok env.file.text := h.supplied.ok

/-- What has been reported stays reported. -/
theorem gives [Held α] (h : Doubtful env O s) (hp : p.Gives env false s s)
    (hout : O s.token → p.Ends env s fun _ t => Doubted N t) :
    p.Ends env s fun _ t => Doubtful env N t := by
  have hsupplied {a : α} {t : ParserState} (ht : Handed env.file.text false s s t (held a)) :
      env.Supplied Production.topRank t := h.supplied.later ht.run.ok ht.forward
  rcases h.outcome with hlog | ho
  · exact hp.mono fun a t ht => ⟨hsupplied ht, .inl (Nat.lt_of_lt_of_le hlog ht.run.log_le)⟩
  · exact (hp.and (hout ho)).mono fun a t ht => ⟨hsupplied ht.1, ht.2⟩

theorem step [Held α] (h : Doubtful env O s) (hp : p.Gives env false s s)
    (hout : O s.token → p.Ends env s fun _ t => Doubted N t)
    (hf : ∀ a t, Doubtful env N t → (f a).Ends env t Q) : (p >>= f).Ends env s Q :=
  (h.gives hp hout).bind hf

end Doubtful

namespace Parser

theorem errorHere_reports (m : Message) (args : List String) :
    (errorHere m args).Ends env s fun _ t => 0 < t.log.size := by
  refine (exists_last?_errorHere m args).mono fun _ t ht => ?_
  obtain ⟨e, he, -⟩ := ht
  exact DiagnosticLog.size_pos_of_last? he

/-- A token that is not there is reported. -/
theorem expect_reports {k : Kind} (hk : s.token.kind ≠ k) :
    (expect k).Ends env s fun _ t => 0 < t.log.size := by
  have hrequire : (require k none).Ends env s fun found t => found = false ∧ 0 < t.log.size := by
    refine .kind (.ite (fun heq => absurd (beq_iff_eq.mp heq) hk) fun _ => ?_)
    exact (errorHere_reports _ _).bind fun _ t ht => .pure ⟨rfl, ht⟩
  refine hrequire.bind ?_
  rintro _ t ⟨rfl, ht⟩
  exact ht

/-- A token that is there is read over. -/
theorem expect_reads {k : Kind} {next : Token} (hk : s.token.kind = k)
    (hread : s.token.next env.file.text = (next, [])) :
    (expect k).Ends env s fun _ t => t.token = next := by
  refine .leaves (a := true) (.kind (.ite (fun _ => ⟨rfl, rfl⟩) fun hno => ?_)) (.yes ?_)
  · simp [hk] at hno
  · exact (nextToken_reads hread).bind fun _ t ht => .pure ht

/-- A name that is missing is reported. -/
theorem identifier_reports (h : s.Ok env.file.text) (hno : isIdentifier.answer env s = false) :
    identifier.Ends env s fun _ t => 0 < t.log.size := by
  refine .asked ((isIdentifier_inquires (o := true)).asks h) hno ?_
  refine (countIdentifier_ends h).bind fun _ t ht => .no ?_
  exact (missingHere_ends rfl _ _ ht.ok).mono fun _ _ hu => hu.2

/-- A finished node leaves the token and the reports as they are. -/
theorem finishProduction_stays (kind : NodeKind) (pos : Nat) (payload : Payload) :
    (finishProduction kind pos payload).Ends env s fun _ t => t.token = s.token ∧ t.log = s.log := by
  refine (finish_shows _ env s).mono fun id t ht => ?_
  exact ⟨ht.2.2.2.1, ht.2.2.1⟩

/-! ## 2. Terms as patterns -/

/-- Behind what has been read as a pattern the term goes on. -/
def Kind.goesOn (k : Kind) : Bool :=
  k == .punct .lessThan || k == .punct .openBracket || k == .punct .bar || k == .punct .ampersand

/-- The given pieces are ahead, or something that a pattern is not followed by. -/
def AfterPattern (text : Array Char) (rest : List Piece) (next : Token) : Prop :=
  Ahead text rest next ∨ Kind.goesOn next.kind = true

/-- Read as a pattern the term is read to its end, or it is seen to be none. -/
def TriedAsPattern (t : TypeTerm) : Prop :=
  ∀ (env : Surroundings) (s : ParserState) (rest : List Piece),
    env.Supplied Production.bindingName.rank s → Ahead env.file.text (t.before rest) s.token →
    bindingName.Ends env s fun _ u => Doubted (AfterPattern env.file.text rest) u

theorem AfterPattern.ne_of_goesOn {next : Token} {k : Kind} (h : Kind.goesOn next.kind = true)
    (hk : Kind.goesOn k = false) : next.kind ≠ k := by
  rintro rfl
  rw [h] at hk
  cases hk

/-- An element that is tried as an element of a pattern. -/
theorem arrayBindingElement_tried {term : TypeTerm} (hterm : TriedAsPattern term) (hwf : term.WellFormed)
    (hrest : ∀ next, Ahead env.file.text rest next → next.kind ≠ .punct .equals)
    (h : env.Supplied Production.topRank s)
    (hahead : Ahead env.file.text (term.before rest) s.token) :
    arrayBindingElement.Ends env s fun _ u => Doubted (AfterPattern env.file.text rest) u := by
  have hstarts := (hwf.startsTerm rest).kind hahead
  have hne {k : Kind} (hk : TypeTerm.startsTermKind k = false) : s.token.kind ≠ k := by
    rintro rfl
    rw [hstarts] at hk
    cases hk
  have hdoubt : Doubtful env (Ahead env.file.text (term.before rest)) s := ⟨h, .inr hahead⟩
  refine .nodePos (.isAt (.ite (fun heq => absurd (beq_iff_eq.mp heq) (hne rfl)) fun _ => ?_))
  refine .leaveToken (hne rfl) ?_
  refine hdoubt.step (N := AfterPattern env.file.text rest)
    (parse_gives .bindingName h.ready (by decide) trivial) (fun hahead => ?_) fun name t ht => ?_
  · refine parse_of_body h (by decide) fun inner hfile hinner => ?_
    rw [← hfile] at hahead ⊢
    exact hterm inner s rest hinner hahead
  refine ht.step (N := AfterPattern env.file.text rest) (initializer_gives ht.supplied.ready)
    (fun hafter => ?_) fun initializer u hu => ?_
  · -- where an initializer might start its sign is missing, and that is reported
    refine .ask (hasInitializer_asks false ht.ok) (.ite (fun _ => ?_) fun _ => .pure (.inr hafter))
    have hequals : t.token.kind ≠ .punct .equals := by
      rcases hafter with hafter | hgoes
      · exact hrest _ hafter
      · exact AfterPattern.ne_of_goesOn hgoes rfl
    have ht' : Doubtful env (fun _ => True) t := ⟨ht.supplied, .inr trivial⟩
    refine ht'.step (N := fun _ => False) (expectPunct_gives _ ht.ok)
      (fun _ => (expect_reports hequals).mono fun _ _ hlog => .inl hlog) fun _ u hu => ?_
    refine (hu.gives (N := fun _ => False) (parse_gives .assignment hu.supplied.ready (by decide) trivial)
      False.elim).bind fun value v hv => .pure (.inl ?_)
    exact hv.outcome.resolve_right id
  · refine (finishProduction_stays _ _ _).mono fun _ v hv => ?_
    have houtcome := hu.outcome
    unfold Doubted at houtcome ⊢
    rw [hv.1, hv.2]
    exact houtcome

/-- A comma that is missing is reported. -/
theorem missingComma_reports {start : Nat} (h : env.Supplied rank s)
    (hcomma : s.token.kind ≠ .punct .comma) :
    (missingComma start false).Ends env s fun _ t => 0 < t.log.size := by
  have hlog : (expectPunct .comma).Ends env s fun _ t =>
      Handed env.file.text false s s t [] ∧ 0 < t.log.size :=
    (expectPunct_gives _ h.ok).and (expect_reports hcomma)
  refine hlog.bind fun _ t ht => .no (.nodePos (.ite (fun _ => ?_) fun _ => .pure ht.2))
  refine (nextToken_gives ht.1.run.ok).mono fun _ u hu => ?_
  exact Nat.lt_of_lt_of_le ht.2 hu.run.log_le

/-- What is reported where a list has no use for a token stays reported. -/
theorem giveUp_reports {list : ListContext} (h : s.Ok env.file.text) :
    (giveUp list).Ends env s fun _ t => 0 < t.log.size := by
  refine (Ends.and (errorHere_ends h _ []) (errorHere_reports _ [])).bind fun _ t ht => ?_
  refine .ask (openListTakes_asks ht.1.ok) (.ite (fun _ => .pure ht.2) fun _ => ?_)
  refine (nextToken_gives ht.1.ok).bind fun _ u hu => .pure ?_
  exact Nat.lt_of_lt_of_le ht.2 hu.run.log_le

variable {ts : List TypeTerm}

/-- Elements of a tuple are ahead, and then its bracket closes. -/
def AtElements (text : Array Char) (rest : List Piece) (next : Token) : Prop :=
  ∃ ts : List TypeTerm, (∀ t ∈ ts, TriedAsPattern t ∧ t.WellFormed)
    ∧ Ahead text (TypeTerm.beforeList TypeTerm.comma ts (.punct .closeBracket :: rest)) next

theorem endsList_answer_of_pattern : (endsList .arrayBindingElements).answer env s
    = (s.token.kind == .endOfFile || s.token.kind == .punct .closeBracket) := by
  unfold endsList
  rw [answer_kind]
  cases s.token.kind == .endOfFile <;> rfl

/-- What a turn comes to: the elements that are left are ahead, or the closing bracket is. -/
def TurnTried (text : Array Char) (rest : List Piece) : Turn Separated → ParserState → Prop
  | .again _, u => Doubted (AtElements text rest) u
  | .done _, u => Doubted (Ahead text (.punct .closeBracket :: rest)) u

/-- After an element that was tried the list goes on with the next one, or it is left. -/
theorem afterElement_tried {start : Nat} {read : List NodeId}
    (h : Doubtful env (AfterPattern env.file.text
      (TypeTerm.beforeMore TypeTerm.comma ts (.punct .closeBracket :: rest))) s)
    (hstart : start ≤ s.pos) (hts : ∀ t ∈ ts, TriedAsPattern t ∧ t.WellFormed) :
    Ends (do
      if ← acceptPunct .comma then return .again ⟨read, true⟩
      if ← endsList .arrayBindingElements then return .done ⟨read, false⟩
      missingComma start false
      return Turn.again (⟨read, false⟩ : Separated)) env s (TurnTried env.file.text rest) := by
  have hends {t : ParserState} (ht : t.Ok env.file.text) :
      (endsList .arrayBindingElements).Asks env t := endsList_asks _ ht
  rcases h.outcome with hlog | hafter | hgoes
  · refine (acceptPunct_gives .comma h.ok).bind fun found t ht => ?_
    have hlog : 0 < t.log.size := Nat.lt_of_lt_of_le hlog ht.run.log_le
    refine .ite (fun _ => .pure (.inl hlog)) fun _ => .ask (hends ht.run.ok) ?_
    refine .ite (fun _ => .pure (.inl hlog)) fun hgoes => ?_
    refine (missingComma_ends false ht.run.ok (ne_endOfFile_of_endsList hgoes)
      (Nat.le_trans hstart ht.forward)).bind fun _ u hu => .pure (.inl ?_)
    exact Nat.lt_of_lt_of_le hlog hu.1.log_le
  · cases ts with
    | nil =>
      have hcomma : s.token.kind ≠ .punct .comma := by simp [hafter.1]
      refine .leave hcomma (.no (.asked (a := true) (hends h.ok) ?_ (.yes (.pure (.inr hafter)))))
      rw [endsList_answer_of_pattern, hafter.1]
      rfl
    | cons term ts =>
      obtain ⟨hkind, -, next, hnext, hahead⟩ := hafter
      refine (Way.start h.supplied).take hkind nofun hnext fun t htoken _ _ _ => .pure (.inr ?_)
      rw [htoken]
      exact ⟨term :: ts, hts, hahead⟩
  · have hcomma : s.token.kind ≠ .punct .comma := AfterPattern.ne_of_goesOn hgoes rfl
    refine .leave hcomma (.no (.asked (a := false) (hends h.ok) ?_ (.no ?_)))
    · rw [endsList_answer_of_pattern, beq_eq_false_iff_ne.mpr (AfterPattern.ne_of_goesOn hgoes rfl),
        beq_eq_false_iff_ne.mpr (AfterPattern.ne_of_goesOn hgoes rfl)]
      rfl
    · exact (missingComma_reports h.supplied hcomma).bind fun _ u hu => .pure (.inl hu)

/-- Trying an element leads to what comes after it. -/
theorem element_tried (h : Doubtful env (AtElements env.file.text rest) s)
    (hstarts : (startsElement .arrayBindingElements false).answer env s = true) :
    arrayBindingElement.Ends env s fun _ t => s.pos ≤ t.pos ∧ ∃ ts : List TypeTerm,
      (∀ t ∈ ts, TriedAsPattern t ∧ t.WellFormed) ∧ Doubtful env (AfterPattern env.file.text
        (TypeTerm.beforeMore TypeTerm.comma ts (.punct .closeBracket :: rest))) t := by
  have helement := arrayBindingElement_gives h.supplied.ready
  rcases h.outcome with hlog | ⟨ts, hts, hahead⟩
  · have hdoubt : Doubtful env (fun _ => False) s := ⟨h.supplied, .inl hlog⟩
    refine ((hdoubt.gives (N := fun _ => False) helement False.elim).and helement).mono fun _ t ht => ?_
    exact ⟨ht.2.forward, [], by simp, ht.1.supplied, ht.1.outcome.imp_right False.elim⟩
  · cases ts with
    | nil =>
      have hno : (startsElement .arrayBindingElements false).Ends env s fun b _ => b = false := by
        refine .kind ?_
        rw [hahead.1]
        show startsBinding.Ends env s fun b _ => b = false
        refine .kind ?_
        rw [hahead.1]
        show isIdentifier.answer env s = false
        rw [isIdentifier, answer_kind, hahead.1]
        rfl
      exact absurd (hno.symm.trans hstarts) Bool.false_ne_true
    | cons term ts =>
      obtain ⟨hpattern, hwf⟩ := hts term List.mem_cons_self
      have hlist (next : Token) (hnext : Ahead env.file.text
          (TypeTerm.beforeMore TypeTerm.comma ts (.punct .closeBracket :: rest)) next) :
          next.kind ≠ .punct .equals := by
        cases ts with
        | nil => simp [hnext.1]
        | cons t ts => simp [hnext.1]
      have htried := arrayBindingElement_tried hpattern hwf hlist h.supplied hahead
      refine ((h.gives helement fun _ => htried).and helement).mono fun _ t ht => ?_
      exact ⟨ht.2.forward, ts, fun t ht => hts t (List.mem_cons_of_mem _ ht), ht.1⟩

/-- A turn that tries an element of a tuple leads to the next one, or to the closing bracket. -/
theorem separatedTurn_tried {sofar : Separated} (h : Doubtful env (AtElements env.file.text rest) s) :
    (separatedTurn .arrayBindingElements arrayBindingElement false sofar).Ends env s
      (TurnTried env.file.text rest) := by
  refine .ask (startsElement_asks _ _ h.ok) (.ite (fun hstarts => ?_) fun _ => ?_)
  · refine .nodePos ((element_tried h hstarts).bind fun id t ht => ?_)
    obtain ⟨hpos, ts, hts, ht⟩ := ht
    exact afterElement_tried ht hpos hts
  refine .ask (endsList_asks _ h.ok) (.ite (fun hends => .pure ?_) fun _ => ?_)
  · rcases h.outcome with hlog | ⟨ts, hts, hahead⟩
    · exact .inl hlog
    · cases ts with
      | nil => exact .inr hahead
      | cons term ts =>
        have hstarts := ((hts term List.mem_cons_self).2.startsTerm _).kind hahead
        rw [endsList_answer_of_pattern] at hends
        unfold TypeTerm.startsTermKind at hstarts
        grind
  · refine (giveUp_reports h.ok).bind fun ends t ht => ?_
    cases ends with
    | true => exact .pure (.inl ht)
    | false => exact .pure (.inl ht)

/-- The elements of a tuple are tried up to the closing bracket. -/
theorem separated_tried (h : env.Supplied Production.topRank s)
    (hat : AtElements env.file.text rest s.token) :
    (separated .arrayBindingElements arrayBindingElement).Ends env s fun _ u =>
      Doubted (Ahead env.file.text (.punct .closeBracket :: rest)) u := by
  have hopen : env.Supplied Production.topRank (s.withLists (.arrayBindingElements :: s.scope.openLists)) :=
    h.inScope _
  let Trying (sofar : Separated) (t : ParserState) : Prop :=
    Sofar env Production.topRank false (s.withLists (.arrayBindingElements :: s.scope.openLists))
        (s.withLists (.arrayBindingElements :: s.scope.openLists)) t (readParts sofar.read)
      ∧ Doubted (AtElements env.file.text rest) t
  have hstart : Trying {} (s.withLists (.arrayBindingElements :: s.scope.openLists)) :=
    ⟨.start hopen.ready, .inr hat⟩
  have helement : Reads env Production.topRank false .arrayBindingElements arrayBindingElement :=
    fun _ hs _ => arrayBindingElement_gives hs
  refine .inList (.nodePos ((repeating_ends
    (Q := fun _ t => Doubted (Ahead env.file.text (.punct .closeBracket :: rest)) t) hstart
    (fun _ _ ht => ht.1.ready.ok.pos_le_size) fun sofar t ht => ?_).bind fun sofar t ht => ?_))
  · have hsupplied : env.Supplied Production.topRank t := hopen.later ht.1.ready.ok ht.1.run.forward
    have hturn := (separatedTurn_ends false helement ht.1).and (separatedTurn_tried ⟨hsupplied, ht.2⟩)
    refine hturn.mono fun o u hu => ?_
    cases o with
    | again sofar => exact ⟨⟨hu.1.1, hu.2⟩, hu.1.2⟩
    | done sofar => exact ⟨hu.2, hu.1.2⟩
  · exact .nodePos (.pure ht.1)

/-- A tuple is read as a pattern to its closing bracket, or it is seen to be none. -/
theorem arrayBindingPattern_tried {ts : List TypeTerm} (hts : ∀ t ∈ ts, TriedAsPattern t ∧ t.WellFormed)
    (h : env.Supplied rank s)
    (hahead : Ahead env.file.text ((TypeTerm.tuple ts).before rest) s.token) :
    arrayBindingPattern.Ends env s fun _ u => Doubted (Ahead env.file.text rest) u := by
  obtain ⟨hkind, -, next, hnext, hahead⟩ := hahead
  refine .nodePos ((Way.start h).takeExpected hkind nofun hnext fun t htoken _ _ g => ?_)
  have hdoubt : Doubtful env (AtElements env.file.text rest) t :=
    ⟨g.supplied, .inr ⟨ts, hts, htoken ▸ hahead⟩⟩
  have helement : Reads env Production.topRank false .arrayBindingElements arrayBindingElement :=
    fun _ hs _ => arrayBindingElement_gives hs
  refine hdoubt.step (separated_gives g.supplied.ready helement) (separated_tried g.supplied)
    fun list u hu => ?_
  refine hu.step (N := Ahead env.file.text rest) (expectPunct_gives _ hu.ok) (fun hahead => ?_)
    fun _ v hv => ?_
  · obtain ⟨hkind, -, next, hnext, hahead⟩ := hahead
    refine (expect_reads hkind hnext).mono fun _ v hv => .inr ?_
    rw [hv]
    exact hahead
  · refine (finishProduction_stays _ _ _).mono fun _ w hw => ?_
    have houtcome := hv.outcome
    unfold Doubted at houtcome ⊢
    rw [hw.1, hw.2]
    exact houtcome

end Parser

namespace TypeTerm

variable {term : TypeTerm} {text : Array Char} {next : Token}

/-- What comes after a part of a longer term does not come after a pattern. -/
theorem afterPattern_of_goesOn {p : Punctuator} {pieces : List Piece} (hp : Kind.goesOn (.punct p) = true)
    (h : AfterPattern text (.punct p :: pieces) next) : AfterPattern text rest next := by
  right
  rcases h with hahead | hgoes
  · rw [hahead.1]
    exact hp
  · exact hgoes

theorem exists_cons_cons {parts : List TypeTerm} (h : 2 ≤ parts.length) :
    ∃ first second more, parts = first :: second :: more := by
  cases parts with
  | nil => cases h
  | cons first parts =>
    cases parts with
    | nil => exact absurd h (by simp)
    | cons second more => exact ⟨first, second, more, rfl⟩

/-- A name at the start of a term is all of the term, or the term goes on. -/
theorem WellFormed.afterName (h : term.WellFormed) (hahead : Ahead text (term.before rest) next)
    (hkind : next.kind = .identifier) :
    ∃ after, next.next text = (after, []) ∧ AfterPattern text rest after := by
  have hlonger {p : Punctuator} {rest : List Piece} (pieces : List Piece) (hp : Kind.goesOn (.punct p) = true)
      (hafter : ∃ after, next.next text = (after, []) ∧ AfterPattern text (.punct p :: pieces) after) :
      ∃ after, next.next text = (after, []) ∧ AfterPattern text rest after := by
    obtain ⟨after, hread, hafter⟩ := hafter
    exact ⟨after, hread, afterPattern_of_goesOn hp hafter⟩
  induction h generalizing rest with
  | @reference name arguments _ _ =>
    cases arguments with
    | nil =>
      obtain ⟨-, -, -, after, hread, hafter⟩ := hahead
      exact ⟨after, hread, .inl hafter⟩
    | cons t ts =>
      obtain ⟨-, -, -, after, hread, hless, -⟩ := hahead
      refine ⟨after, hread, .inr ?_⟩
      rw [hless]
      rfl
  | array _ _ ih => exact hlonger (.punct .closeBracket :: rest) rfl (ih hahead)
  | tuple _ _ =>
    rw [hahead.1] at hkind
    cases hkind
  | parenthesized _ _ =>
    rw [hahead.1] at hkind
    cases hkind
  | intersection htwo _ _ ih =>
    obtain ⟨first, second, more, rfl⟩ := exists_cons_cons htwo
    have hfirst := ih first List.mem_cons_self hahead
    exact hlonger (p := .ampersand) (.space :: beforeList (spaced .ampersand) (second :: more) rest) rfl hfirst
  | union htwo _ _ ih =>
    obtain ⟨first, second, more, rfl⟩ := exists_cons_cons htwo
    have hfirst := ih first List.mem_cons_self hahead
    exact hlonger (p := .bar) (.space :: beforeList (spaced .bar) (second :: more) rest) rfl hfirst

/-- Every term is read to its end as a pattern, or it is seen to be none. -/
theorem WellFormed.triedAsPattern (h : term.WellFormed) : TriedAsPattern term := by
  have hlonger {env : Surroundings} {s : ParserState} {p : Punctuator} {rest : List Piece}
      (pieces : List Piece) (hp : Kind.goesOn (.punct p) = true) (hname : bindingName.Ends env s fun _ u =>
        Doubted (AfterPattern env.file.text (.punct p :: pieces)) u) :
      bindingName.Ends env s fun _ u => Doubted (AfterPattern env.file.text rest) u :=
    hname.mono fun _ _ hu => hu.imp_right (afterPattern_of_goesOn hp)
  induction h with
  | @reference name arguments hwf _ =>
    intro env s rest h hahead
    have hkind : s.token.kind = .identifier := by
      cases arguments with
      | nil => exact hahead.1.trans name.wordKind_eq
      | cons t ts => exact hahead.1.trans name.wordKind_eq
    obtain ⟨next, hnext, hafter⟩ := (WellFormed.reference hwf).afterName hahead hkind
    refine .kind ?_
    rw [hkind]
    refine (identifierOr_yields _ h.ok hkind hnext).mono fun id t ht => .inr ?_
    rw [ht.holds.1]
    exact hafter
  | array _ _ ih =>
    intro env s rest h hahead
    exact hlonger (.punct .closeBracket :: rest) rfl (ih env s _ h hahead)
  | @tuple elements hwf ih =>
    intro env s rest h hahead
    refine .kind ?_
    rw [hahead.1]
    refine (arrayBindingPattern_tried (fun t ht => ⟨ih t ht, hwf t ht⟩) h hahead).mono fun _ u hu => ?_
    exact hu.imp_right .inl
  | parenthesized _ _ =>
    intro env s rest h hahead
    have hno : isIdentifier.answer env s = false := by
      rw [isIdentifier, answer_kind, hahead.1]
      rfl
    refine .kind ?_
    rw [hahead.1]
    exact (identifier_reports h.ok hno).mono fun _ _ ht => .inl ht
  | intersection htwo _ _ ih =>
    intro env s rest h hahead
    obtain ⟨first, second, more, rfl⟩ := exists_cons_cons htwo
    have hfirst := ih first List.mem_cons_self env s _ h hahead
    exact hlonger (p := .ampersand) (.space :: beforeList (spaced .ampersand) (second :: more) rest) rfl hfirst
  | union htwo _ _ ih =>
    intro env s rest h hahead
    obtain ⟨first, second, more, rfl⟩ := exists_cons_cons htwo
    have hfirst := ih first List.mem_cons_self env s _ h hahead
    exact hlonger (p := .bar) (.space :: beforeList (spaced .bar) (second :: more) rest) rfl hfirst

end TypeTerm

/-! ## 3. Terms in parentheses -/

namespace Parser

variable {term : TypeTerm}

/-- What a term starts with is read over as a parameter, and nothing follows that goes on with
parameters. -/
theorem skipParameterStart_tried (hwf : term.WellFormed) (h : env.Supplied Production.topRank s)
    (hlog : s.log.size = 0) (hahead : Ahead env.file.text (term.before rest) s.token) :
    skipParameterStart.Ends env s fun found u =>
      u.Ok env.file.text ∧ (found = true → AfterPattern env.file.text rest u.token) := by
  suffices hafter : skipParameterStart.Ends env s fun found u =>
      found = true → AfterPattern env.file.text rest u.token from
    ((skipParameterStart_ends h.ready).and hafter).mono fun _ _ hu => ⟨hu.1.1, hu.2⟩
  have hcases := hwf.kind hahead
  have hname {b : Bool} (hb : (s.token.kind == .identifier) = b) :
      (isIdentifier <||> isAtKeyword .thisKw).Ends env s fun c t => c = b ∧ t = s := by
    subst hb
    refine .leaves (a := s.token.kind == .identifier) (.kind ?_) ?_
    · rcases hcases with hkind | hkind | hkind <;> rw [hkind]
      all_goals exact ⟨rfl, rfl⟩
    · have hthis : s.token.kind ≠ .identifier → (s.token.kind == .keyword .thisKw) = false := by
        rcases hcases with hkind | hkind | hkind <;> simp [hkind]
      cases hkind : s.token.kind == .identifier with
      | true => exact ⟨rfl, rfl⟩
      | false => exact ⟨hthis (beq_eq_false_iff_ne.mp hkind), rfl⟩
  refine .kind ?_
  extract_lets rest'
  rcases hcases with hkind | hkind | hkind
  · obtain ⟨after, hread, hafter⟩ := hwf.afterName hahead hkind
    rw [hkind]
    refine .no (.leaves (hname (by simp [hkind])) (.yes ?_))
    refine (Way.start h).skip (by simp [hkind]) hread fun t htoken _ _ _ => .pure fun _ => ?_
    rwa [htoken]
  · have hpattern : (parse .bindingName).Ends env s fun _ u =>
        Doubted (AfterPattern env.file.text rest) u := by
      refine parse_of_body h (by decide) fun inner hfile hinner => ?_
      rw [← hfile] at hahead ⊢
      exact hwf.triedAsPattern inner s rest hinner hahead
    rw [hkind]
    refine .no (.leaves (hname (by simp [hkind])) (.no (.kind ?_)))
    rw [hkind]
    refine .get (hpattern.bind fun _ t ht => .get (.pure fun hsilent => ?_))
    rw [hlog] at hsilent
    have hsilent : 0 = t.log.size := beq_iff_eq.mp hsilent
    exact ht.resolve_left (by omega)
  · rw [hkind]
    refine .no (.leaves (hname (by simp [hkind])) (.no (.kind ?_)))
    rw [hkind]
    exact .pure nofun

/-- At a parenthesis around a term no parameters start. -/
theorem startsFunctionType_of_parenthesized (hwf : term.WellFormed) (h : env.Supplied rank s)
    (hlog : s.log.size = 0)
    (hahead : Ahead env.file.text ((TypeTerm.parenthesized term).before rest) s.token)
    (hrest : ∀ next, Ahead env.file.text rest next → next.kind ≠ .punct .equalsGreaterThan) :
    startsFunctionType.Ends env s fun found t => found = false ∧ Still env.file.text s t := by
  obtain ⟨hkind, -, next, hnext, hahead⟩ := hahead
  have hparameters : parametersAhead.Ends env s fun found _ => found = false := by
    have hopen : nextKind.Ends env s fun k t => k = t.token.kind ∧ t.token = next ∧ t.log = s.log
        ∧ env.Supplied Production.topRank t :=
      (Way.start h).skip (by simp [hkind]) hnext fun t htoken _ _ g =>
        ⟨rfl, htoken, g.quiet.log_eq, g.supplied⟩
    refine hopen.bind ?_
    rintro _ t ⟨rfl, htoken, hlog', h'⟩
    rw [← htoken] at hahead
    have hstarts := (hwf.startsTerm (.punct .closeParen :: rest)).kind hahead
    have hskip := skipParameterStart_tried hwf h' ((congrArg _ hlog').trans hlog) hahead
    split
    · rename_i heq
      rw [heq] at hstarts
      cases hstarts
    · rename_i heq
      rw [heq] at hstarts
      cases hstarts
    · refine hskip.bind fun found u hu => .ite (fun hfound => .kind ?_) fun _ => .pure rfl
      rcases hu.2 hfound with ⟨hclose, -, after, hread, hahead⟩ | hgoes
      · rw [hclose]
        refine (nextKind_reads hread).bind ?_
        rintro _ v ⟨rfl, -⟩
        exact .pure (beq_eq_false_iff_ne.mpr (hrest after hahead))
      · have hno {k : Kind} (hk : Kind.goesOn k = false) : u.token.kind ≠ k :=
          AfterPattern.ne_of_goesOn hgoes hk
        split
        any_goals exact .pure rfl
        all_goals exact absurd ‹_› (hno rfl)
  refine .kind ?_
  rw [hkind]
  exact hparameters.peeked.and (parenStartsParameters_ends h.ready hkind)

end Parser

end ScriptSyntax
