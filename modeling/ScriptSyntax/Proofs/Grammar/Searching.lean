/-
  ScriptSyntax/Proofs/Grammar/Searching.lean
  ==========================================
  The search for a declaration.

  The search reads over words that it takes for modifiers, and is lenient about
  them.  Modifiers are read one by one, each by a rule of its own.  That both read
  over the same words is shown step by step: where a declaration lies ahead, there
  is its keyword or a modifier, and behind the modifier a declaration still lies
  ahead.
-/
import ScriptSyntax.Proofs.Grammar.Signatures

namespace ScriptSyntax

namespace Parser

variable {env : Surroundings} {rank : Nat} {s t : ParserState}

/-! ## 1. The search -/

/-- The words that a declaration starts with after its modifiers. -/
def declares : Kind → Bool
  | .keyword .varKw | .keyword .letKw | .keyword .constKw | .keyword .functionKw
  | .keyword .classKw | .keyword .interfaceKw | .keyword .typeKw | .keyword .enumKw
  | .keyword .globalKw | .keyword .moduleKw | .keyword .namespaceKw | .keyword .importKw
  | .keyword .exportKw => true
  | _ => false

/-- The search for a declaration, where the given number of words may be read. -/
abbrev search (count : Nat) (found : Bool) : Parser Bool :=
  repeatUpTo (fun _ => declarationTurn) count found

/-- A turn of the search ended it with success, or it went on and succeeded later. -/
def Succeeds (count : Nat) (env : Surroundings) : Turn Bool → ParserState → Prop
  | .done found, _ => found = true
  | .again found, t => (search count found).answer env t = true

/-- What holds wherever the first turn leads to success, holds where the search succeeds. -/
theorem of_search {P : Prop} {count : Nat}
    (hturn : ∀ count, declarationTurn.Ends env s fun outcome t => Succeeds count env outcome t → P)
    (h : (search count false).answer env s = true) : P := by
  cases count with
  | zero => cases h
  | succ count =>
    have hsearch : (search (count + 1) false).Ends env s fun b _ => b = true → P := by
      refine (hturn count).bind fun outcome _ ht => ?_
      cases outcome with
      | again next => exact ht
      | done result => exact ht
    exact hsearch h

/-- The search is given up at a token that is no keyword. -/
theorem isKeyword_of_search {count : Nat} (h : (search count false).answer env s = true) :
    s.token.kind.isKeyword = true := by
  refine of_search (fun _ => .kind ?_) h
  cases hkind : s.token.kind with
  | keyword k => exact .always fun _ _ _ => rfl
  | _ => exact .pure nofun

/-- A word that the search goes on from may follow a modifier. -/
theorem canFollowModifier_of_search {count : Nat} (h : (search count false).answer env s = true) :
    canFollowModifier.answer env s = true := by
  have hkeyword := isKeyword_of_search h
  unfold canFollowModifier
  rw [answer_kind]
  cases hkind : s.token.kind with
  | keyword k =>
    show isPropertyName.answer env s = true
    show (s.token.kind.isName || s.token.kind.isPropertyLiteral) = true
    rw [hkind]
    rfl
  | _ => simp [hkind, Kind.isKeyword] at hkeyword

theorem answer_onSameLine {p : Parser Bool} (h : s.token.flags.precedingLineBreak = false) :
    (onSameLine p).answer env s = p.answer env s := by
  show ((if _ = true then _ else _ : Parser Bool) env s).1 = _
  rw [h]
  rfl

/-- Where the search goes on behind a word, the word is a modifier: what follows is on its line, and
may follow a modifier. -/
theorem modifierGoesOn_follows (count : Nat) :
    (do
      nextToken
      if ← afterLineBreak then return Turn.done false
      else return Turn.again false : Parser _).Ends env s fun outcome t => Succeeds count env outcome t →
        nextFollowsModifier.answer env s = true
          ∧ (search count false).answer env (nextToken env s).2 = true := by
  refine Ends.bind (P := fun _ t => (nextToken env s).2 = t) rfl ?_
  rintro _ t ht
  refine .afterLineBreak (.ite (fun _ => .pure nofun) fun hbreak => .pure fun hsearch => ⟨?_, ?_⟩)
  · show (onSameLine canFollowModifier).answer env (nextToken env s).2 = true
    rw [ht, answer_onSameLine hbreak]
    exact canFollowModifier_of_search hsearch
  · rw [ht]
    exact hsearch

theorem acceptModifier_eq (h : s.token.kind.isModifier = true) :
    acceptModifier.answer env s = tokenIsModifier.answer env s := by
  show ((if _ = true then _ else _ : Parser Bool) env s).1 = _
  rw [h]
  exact answer_attemptIf tokenIsModifier

/-- Only what can be a modifier is accepted as one. -/
theorem isModifier_of_acceptModifier (h : acceptModifier.answer env s = true) :
    s.token.kind.isModifier = true := by
  cases hkind : s.token.kind.isModifier with
  | true => rfl
  | false =>
    have hno : acceptModifier.answer env s = false := by
      show ((if _ = true then _ else _ : Parser Bool) env s).1 = _
      rw [hkind]
      rfl
    exact absurd (hno.symm.trans h) Bool.false_ne_true

/-- Where the search succeeds and is not at a keyword of declarations, it is at a modifier that is read
as one, and goes on behind it. -/
theorem search_goes_on {count : Nat} (h : (search count false).answer env s = true)
    (hno : declares s.token.kind = false) : acceptModifier.answer env s = true
      ∧ ∃ count, (search count false).answer env (nextToken env s).2 = true := by
  refine of_search (fun count => .kind ?_) h
  split
  all_goals rename_i hkind
  case h_21 =>
    -- `static` may be followed by a line break.
    refine Ends.bind (P := fun _ t => (nextToken env s).2 = t) rfl fun _ t ht => .pure fun hsucceeds => ?_
    rw [ht]
    refine ⟨?_, count, hsucceeds⟩
    rw [acceptModifier_eq (by rw [hkind]; rfl), tokenIsModifier, answer_kind, hkind]
    show canFollowModifier.answer env (nextToken env s).2 = true
    rw [ht]
    exact canFollowModifier_of_search hsucceeds
  case h_22 => exact .pure nofun
  all_goals first
    | refine absurd (hno.symm.trans ?_) Bool.false_ne_true
      rw [hkind]
      rfl
    | refine (modifierGoesOn_follows count).mono fun _ _ hgoes hsucceeds => ?_
      obtain ⟨hfollows, hsearch⟩ := hgoes hsucceeds
      refine ⟨?_, count, hsearch⟩
      rw [acceptModifier_eq (by rw [hkind]; rfl), tokenIsModifier, answer_kind, hkind]
      exact hfollows

/-! ## 2. What lies ahead -/

/-- A declaration lies ahead: its keyword is here, the search for one succeeds, or `default` is a
modifier of it. -/
inductive DeclaresAhead (env : Surroundings) (s : ParserState) : Prop
  | keyword (h : declares s.token.kind = true) (hno : s.token.kind.isModifier = false)
  | search (count : Nat) (h : (search count false).answer env s = true)
  | exported (hkind : s.token.kind = .keyword .defaultKw) (h : defaultIsModifier.answer env s = true)

theorem DeclaresAhead.alike (hAlike : Alike true env s env t) (h : DeclaresAhead env s) : DeclaresAhead env t := by
  cases h with
  | keyword h hno =>
    rw [hAlike.token] at h hno
    exact .keyword h hno
  | search count h =>
    have hsteady := Steady.repeatUpTo (o := true) (fun _ => declarationTurn_scouts.steady) count false
    exact .search count ((hsteady _ _ _ _ hAlike).1.symm.trans h)
  | exported hkind h =>
    rw [hAlike.token] at hkind
    exact .exported hkind ((defaultIsModifier_scouts.steady _ _ _ _ hAlike).1.symm.trans h)

/-- Where there is no modifier, the keyword is here. -/
theorem DeclaresAhead.declares (h : DeclaresAhead env s) (hno : acceptModifier.answer env s = false) :
    Parser.declares s.token.kind = true := by
  cases h with
  | keyword h _ => exact h
  | search count h =>
    cases hdeclares : Parser.declares s.token.kind with
    | true => rfl
    | false => exact absurd (hno.symm.trans (search_goes_on h hdeclares).1) Bool.false_ne_true
  | exported hkind h =>
    refine absurd (hno.symm.trans ?_) Bool.false_ne_true
    rw [acceptModifier_eq (by rw [hkind]; rfl), tokenIsModifier, answer_kind, hkind]
    exact h

/-- Behind `abstract` or `async` the search goes on to a class or a function on its line, and ends
there with success. -/
theorem search_peek {word k : Keyword} (hkind : s.token.kind = .keyword word)
    (hword : word = .abstractKw ∨ word = .asyncKw) (hk : k = .classKw ∨ k = .functionKw)
    (h : (peek (onSameLine (isAtKeyword k))).answer env s = true) :
    (search 2 false).answer env s = true := by
  have hnext : (onSameLine (isAtKeyword k)).Ends env (nextToken env s).2 fun found _ =>
      found = true → (nextToken env s).2.token.flags.precedingLineBreak = false
        ∧ (nextToken env s).2.token.kind = .keyword k :=
    .afterLineBreak (.ite (fun _ => .pure nofun) fun hline hword => ⟨hline, beq_iff_eq.mp hword⟩)
  obtain ⟨hline, hfollows⟩ := hnext h
  have hgoes : (do
      nextToken
      if ← afterLineBreak then return Turn.done false else return Turn.again false : Parser _).Ends
        env s fun o t => o = .again false ∧ t.token.kind = .keyword k := by
    refine Ends.bind (P := fun _ t => (nextToken env s).2 = t) rfl ?_
    rintro _ t ht
    rw [ht] at hline hfollows
    exact .afterLineBreak (.ite (fun hbreak => absurd (hline.symm.trans hbreak) Bool.false_ne_true)
      fun _ => .pure ⟨rfl, hfollows⟩)
  have hturn : declarationTurn.Ends env s fun o t => o = .again false ∧ t.token.kind = .keyword k := by
    refine .kind ?_
    rw [hkind]
    rcases hword with rfl | rfl
    · exact hgoes
    · exact hgoes
  have hsearch : (search 2 false).Ends env s fun found _ => found = true := by
    refine hturn.bind ?_
    rintro _ t ⟨rfl, ht⟩
    refine Ends.bind (P := fun o _ => o = .done true) (.kind ?_) ?_
    · rw [ht]
      rcases hk with rfl | rfl
      · exact .pure rfl
      · exact .pure rfl
    · rintro _ _ rfl
      exact .pure rfl
  exact hsearch

/-- Behind `default` the keyword follows, or a modifier of a class or a function on its line. -/
theorem DeclaresAhead.next_default (h : defaultIsModifier.answer env s = true) :
    DeclaresAhead env (nextToken env s).2 := by
  have hends : defaultIsModifier.Ends env s fun found _ => found = true → DeclaresAhead env (nextToken env s).2 := by
    refine Ends.bind (P := fun k t => k = t.token.kind ∧ (nextToken env s).2 = t) ⟨rfl, rfl⟩ ?_
    rintro _ t ⟨rfl, ht⟩
    rw [ht]
    split
    all_goals rename_i hword
    case h_1 | h_2 | h_3 => exact .pure fun _ => .keyword (by rw [hword]; rfl) (by rw [hword]; rfl)
    case h_4 => exact fun hpeek => .search 2 (search_peek hword (.inl rfl) (.inl rfl) hpeek)
    case h_5 => exact fun hpeek => .search 2 (search_peek hword (.inr rfl) (.inr rfl) hpeek)
    case h_6 => exact .pure nofun
  exact hends h

/-- What ends the search behind `export` with success. -/
def endsExport : Kind → Bool
  | .punct .equals | .punct .asterisk | .punct .openBrace | .keyword .defaultKw
  | .keyword .asKw => true
  | _ => false

theorem not_canFollowModifier_equals (hkind : s.token.kind = .punct .equals) :
    canFollowModifier.answer env s = false := by
  unfold canFollowModifier
  rw [answer_kind, hkind]
  show (s.token.kind.isName || s.token.kind.isPropertyLiteral) = false
  rw [hkind]
  rfl

/-- Behind `export`, where it is a modifier, `default` is one too, or the search goes on. -/
theorem DeclaresAhead.next_export {count : Nat} (hkind : s.token.kind = .keyword .exportKw)
    (h : (Parser.search count false).answer env s = true) (hyes : tokenIsModifier.answer env s = true) :
    DeclaresAhead env (nextToken env s).2 := by
  have hsearch : endsExport (nextToken env s).2.token.kind = true
      ∨ ∃ count, (Parser.search count false).answer env (nextToken env s).2 = true := by
    refine of_search (fun count => .kind ?_) h
    rw [hkind]
    refine Ends.bind (P := fun k t => k = t.token.kind ∧ (nextToken env s).2 = t) ⟨rfl, rfl⟩ ?_
    rintro _ t ⟨rfl, ht⟩
    rw [ht]
    split
    all_goals rename_i hword
    case h_6 => exact .pure fun hgoes => .inr ⟨count, hgoes⟩
    all_goals exact .pure fun _ => .inl (by rw [hword]; rfl)
  have hends : tokenIsModifier.Ends env s fun found _ => found = true → DeclaresAhead env (nextToken env s).2 := by
    refine .kind ?_
    rw [hkind]
    refine Ends.bind (P := fun k t => k = t.token.kind ∧ (nextToken env s).2 = t) ⟨rfl, rfl⟩ ?_
    rintro _ t ⟨rfl, ht⟩
    rw [ht] at hsearch ⊢
    split
    · exact fun hdefault => .exported ‹_› hdefault
    · exact .pure nofun
    · exact .pure nofun
    · exact .pure nofun
    · intro hfollows
      rcases hsearch with hends | ⟨count, hgoes⟩
      · unfold endsExport at hends
        split at hends
        case h_1 hequals => exact absurd ((not_canFollowModifier_equals hequals).symm.trans hfollows) Bool.false_ne_true
        all_goals contradiction
      · exact .search count hgoes
  exact hends hyes

/-- Behind a modifier a declaration still lies ahead. -/
theorem DeclaresAhead.next (h : DeclaresAhead env s) (hyes : acceptModifier.answer env s = true) :
    DeclaresAhead env (nextToken env s).2 := by
  have hmodifier := isModifier_of_acceptModifier hyes
  have htoken : tokenIsModifier.answer env s = true := (acceptModifier_eq hmodifier).symm.trans hyes
  cases h with
  | keyword _ hno => exact absurd (hno.symm.trans hmodifier) Bool.false_ne_true
  | exported _ hdefault => exact next_default hdefault
  | search count h =>
    cases hdeclares : Parser.declares s.token.kind with
    | false =>
      obtain ⟨-, count, hgoes⟩ := search_goes_on h hdeclares
      exact .search count hgoes
    | true =>
      -- Only `const` and `export` are keywords of declarations and modifiers.
      unfold Parser.declares at hdeclares
      split at hdeclares
      case h_3 hkind =>
        rw [tokenIsModifier, answer_kind, hkind] at htoken
        have henum : (nextToken env s).2.token.kind = .keyword .enumKw := beq_iff_eq.mp htoken
        exact .keyword (by rw [henum]; rfl) (by rw [henum]; rfl)
      case h_13 hkind => exact next_export hkind h htoken
      case h_14 => cases hdeclares
      all_goals
        rename_i hkind
        rw [hkind] at hmodifier
        cases hmodifier

/-- Behind the modifiers there is the keyword of the declaration that the search has found. -/
theorem modifiers_declares (h : env.Ready rank s) (hstarts : startsDeclaration.answer env s = true) :
    (modifiers false).Ends env s fun _ t => declares t.token.kind = true := by
  have hahead : DeclaresAhead env s := .search (env.file.text.size + 2) hstarts
  refine (modifiers_keep (D := fun t => declares t.kind = true) false h hahead
    (fun t u hAlike hahead => hahead.alike hAlike) (fun t _ hyes hahead => hahead.next (hyes rfl))
    fun t hno hahead => hahead.declares (hno rfl)).mono fun _ _ ht => ht.2.2.2

end Parser

end ScriptSyntax
