/-
  ScriptSyntax/Proofs/Grammar/TagNames.lean
  =========================================
  Names of tags, as they are read and as they are compared.

  A name is compared part by part.  Its words are compared by their numbers in the
  table of names, and so by what they are; but `this` becomes no identifier, and
  whatever extends it is lost in the comparison.
-/
import ScriptSyntax.Proofs.Grammar.Jsx
import ScriptSyntax.Proofs.Grammar.Way
import ScriptSyntax.Proofs.Token.TagName

namespace ScriptSyntax

open ScriptSyntax.Parser

/-! ## 1. Names in a tree -/

namespace Forest

variable {F G : Forest} {id left right : NodeId} {head head' : Option String} {words words' : List String}

/-- Under the number there is the first word of a name: an identifier, or else `this`. -/
def IsTagHead (F : Forest) (id : NodeId) : Option String → Prop
  | some word => F.IsIdentifier id word
  | none => F.Shows id (.keyword .thisKw) .token

/-- Under the number there is the name of a tag: its first word, or a member of a name. -/
inductive IsTagName (F : Forest) : NodeId → Option String → List String → Prop where
  | head {id : NodeId} {head : Option String} : F.IsTagHead id head → IsTagName F id head []
  | member {id object name : NodeId} {head : Option String} {words : List String} {word : String} :
    IsTagName F object head words → F.IsIdentifier name word →
    F.Shows id (.node .propertyAccessExpression) (.propertyAccess object none name) →
    IsTagName F id head (words ++ [word])

theorem IsTagHead.keeps (h : F.IsTagHead id head) (hkeeps : F.Keeps G) : G.IsTagHead id head := by
  cases head with
  | some word => exact IsIdentifier.keeps h hkeeps
  | none => exact Shows.keeps h hkeeps

theorem IsTagName.keeps (h : F.IsTagName id head words) (hkeeps : F.Keeps G) : G.IsTagName id head words := by
  induction h with
  | head h => exact .head (h.keeps hkeeps)
  | member _ hname hshows ih => exact .member ih (hname.keeps hkeeps) (hshows.keeps hkeeps)

/-! ## 2. Names compared -/

/-- Two identifiers are the same name if they are the same word. -/
theorem IsIdentifier.sameTagName? {word word' : String} (h : F.IsIdentifier left word)
    (h' : F.IsIdentifier right word') : F.arena.sameTagName? left right = some (decide (word = word')) := by
  obtain ⟨x, k, ⟨l, hl, hlk, hlp⟩, hx⟩ := h
  obtain ⟨y, k', ⟨r, hr, hrk, hrp⟩, hy⟩ := h'
  have hsame : (x == y) = decide (word = word') := by
    rw [Bool.eq_iff_iff, beq_iff_eq, decide_eq_true_iff]
    constructor
    · rintro rfl
      exact (NameTable.resolve_of_find? hx).symm.trans (NameTable.resolve_of_find? hy)
    · rintro rfl
      exact Option.some.inj (hx.symm.trans hy)
  unfold Arena.sameTagName?
  simp [hl, hr, hlk.trans hrk.symm, hlp, hrp, hsame]

theorem sameTagName?_of_kind {kind kind' : Kind} {payload payload' : Payload} (h : F.Shows left kind payload)
    (h' : F.Shows right kind' payload') (hne : kind ≠ kind') : F.arena.sameTagName? left right = some false := by
  obtain ⟨l, hl, rfl, -⟩ := h
  obtain ⟨r, hr, rfl, -⟩ := h'
  unfold Arena.sameTagName?
  simp [hl, hr, hne]

theorem IsTagHead.shows (h : F.IsTagHead id head) : ∃ kind payload, F.Shows id kind payload
    ∧ kind ≠ .node .propertyAccessExpression := by
  cases head with
  | some word =>
    obtain ⟨name, keyword, hshows, -⟩ := h
    exact ⟨_, _, hshows, by simp⟩
  | none => exact ⟨_, _, h, by simp⟩

theorem IsTagHead.sameTagName? (h : F.IsTagHead left head) (h' : F.IsTagHead right head') :
    F.arena.sameTagName? left right = some (decide (head = head')) := by
  cases head with
  | some word =>
    cases head' with
    | some word' =>
      rw [IsIdentifier.sameTagName? h h']
      simp
    | none =>
      obtain ⟨name, keyword, hshows, -⟩ := h
      rw [sameTagName?_of_kind hshows h' (by simp)]
      simp
  | none =>
    cases head' with
    | some word' =>
      obtain ⟨name, keyword, hshows, -⟩ := h'
      rw [sameTagName?_of_kind h hshows (by simp)]
      simp
    | none =>
      obtain ⟨l, hl, hlk, hlp⟩ := h
      obtain ⟨r, hr, hrk, hrp⟩ := h'
      unfold Arena.sameTagName?
      simp [hl, hr, hlk, hrk, hlp, hrp]

/-- Members are the same if they have the same name and their objects are the same. -/
theorem sameTagName?_of_members (hsound : F.arena.Sound) {object object' name name' : NodeId} {same same' : Bool}
    (h : F.Shows left (.node .propertyAccessExpression) (.propertyAccess object none name))
    (h' : F.Shows right (.node .propertyAccessExpression) (.propertyAccess object' none name'))
    (hname : F.arena.sameTagName? name name' = some same)
    (hobject : F.arena.sameTagName? object object' = some same') :
    F.arena.sameTagName? left right = some (same && same') := by
  obtain ⟨l, hl, hlk, hlp⟩ := h
  obtain ⟨r, hr, hrk, hrp⟩ := h'
  have holder {c : NodeId} (hc : c = object ∨ c = name) : c.index < left.index := by
    refine (hsound.fits left l hl).older c ?_
    rcases hc with rfl | rfl <;> simp [Node.children_eq, Node.parts_eq, hlp, Payload.fields]
  unfold Arena.sameTagName?
  simp only [hl, hr, hlk, hrk, hlp, hrp, bne_self_eq_false, Bool.false_eq_true, if_false, holder (.inr rfl),
    holder (.inl rfl), and_self, if_true, hname, hobject]
  cases same <;> rfl

/-- Names are the same if their first words are, or are both `this`, and they have the same members. -/
theorem IsTagName.sameTagName? (hsound : F.arena.Sound) (h : F.IsTagName left head words)
    (h' : F.IsTagName right head' words') :
    F.arena.sameTagName? left right = some (decide (head = head' ∧ words = words')) := by
  induction h generalizing right words' with
  | head h =>
    cases h' with
    | head h' =>
      rw [h.sameTagName? h']
      simp
    | member _ _ hshows' =>
      obtain ⟨kind, payload, hshows, hne⟩ := h.shows
      rw [sameTagName?_of_kind hshows hshows' hne]
      simp
  | member _ hname hshows ih =>
    cases h' with
    | head h' =>
      obtain ⟨kind, payload, hshows', hne⟩ := h'.shows
      rw [sameTagName?_of_kind hshows hshows' hne.symm]
      simp
    | member hobject' hname' hshows' =>
      rw [sameTagName?_of_members hsound hshows hshows' (hname.sameTagName? hname') (ih hobject')]
      simp [and_comm, and_assoc]

end Forest

/-! ## 3. Names read -/

variable {env : Surroundings} {rank : Nat} {r s t : ParserState} {rest : List Char} {object : NodeId}
variable {head : Option String} {ws : List WrittenWord} {next : Token}

/-- A name before the bracket that ends the tag: it has the first word and the members. -/
def IsNameAhead (text : Array Char) (head : Option String) (ws : List WrittenWord) (rest : List Char)
    (id : NodeId) (next : Token) (F : Forest) : Prop :=
  next.IsBefore text (.punct .greaterThan) rest ∧ F.IsTagName id head (ws.map WrittenWord.word)

/-- Of the members of a name some have been read, and the others are ahead. -/
structure ReadingMembers (env : Surroundings) (r : ParserState) (head : Option String) (ws : List WrittenWord)
    (rest : List Char) (object : NodeId) (t : ParserState) : Prop where
  way : Way env Production.topRank r t [.node object]
  took : r.pos < t.pos
  ahead : ∃ read left, read ++ left = ws ∧ t.forest.IsTagName object head (read.map WrittenWord.word)
    ∧ t.token.IsAtMember env.file.text left rest

namespace Parser

/-- The name of a member, right behind the dot. -/
theorem nameAfterDot_yields (h : s.Ok env.file.text) (hkind : s.token.kind.isName = true)
    (hline : s.token.flags.precedingLineBreak = false) (hread : s.token.next env.file.text = (next, [])) :
    (nameAfterDot true).Ends env s (Yields env.file.text s fun id u F =>
      u = next ∧ F.IsIdentifier id s.token.value) := by
  have hsame : (afterLineBreak <&&> isName <&&> peek nameAfterDot.isNameOnSameLine).Ends env s
      fun b t => b = false ∧ t = s := .andNo ⟨hline, rfl⟩
  exact .leaves hsame (.no (.yes (nameOr_yields _ h hkind hread)))

/-- One more member is read, or none is left and the bracket is ahead. -/
theorem jsxMember_leads (h : env.Supplied rank r) (ht : ReadingMembers env r head ws rest object t) :
    (jsxMember r.pos object).Ends env t (Turn.Leads (ReadingMembers env r head ws rest)
      (Yields env.file.text r (IsNameAhead env.file.text head ws rest)) t) := by
  obtain ⟨g, htook, read, left, hall, hname, hat⟩ := ht
  cases left with
  | nil =>
    have hangle : t.token.IsBefore env.file.text (.punct .greaterThan) rest := hat
    have hdot : t.token.kind ≠ .punct .dot := by simp [hangle.kind_eq]
    rw [List.append_nil] at hall
    exact .leave hdot (.no (.pure ⟨⟨g.quiet, htook, hangle, hall ▸ hname⟩, Nat.le_refl _⟩))
  | cons w left =>
    have hdot : t.token.IsBefore env.file.text (.punct .dot) _ := hat
    obtain ⟨word, hword, hbefore, hvalue, hline⟩ := hdot.writtenWord (JsxTagName.endsWord_dotted left rest)
    obtain ⟨next, hnext, hmember⟩ := hbefore.member
    refine g.take hdot.kind_eq nofun hword fun u htoken hforest htu g => .yes ?_
    rw [← htoken] at hbefore hvalue hline hnext
    refine g.step (nameAfterDot_yields g.ok (hbefore.kind_eq ▸ isName_wordKind _) hline hnext)
      fun member v hv hkeeps huv g => ?_
    have hdone : (finishProduction .propertyAccessExpression r.pos (.propertyAccess object none member)).Ends
        env v (Yields env.file.text r fun id u F =>
          u = v.token ∧ F.IsTagName id head ((read ++ [w]).map WrittenWord.word)) := by
      refine g.finish rfl (by omega) rfl rfl fun id F hkept hshows => ⟨rfl, ?_⟩
      rw [List.map_append]
      exact .member ((hforest ▸ hname).keeps (hkeeps.trans hkept)) (hvalue ▸ hv.2.keeps hkept) hshows
    refine hdone.bind fun id x hx => .pure ⟨⟨(Way.start h).goTook hx.quiet hx.took, hx.took, ?_⟩, ?_⟩
    · refine ⟨read ++ [w], left, by simpa using hall, hx.holds.2, ?_⟩
      rw [hx.holds.1, hv.1]
      exact hmember
    · have hpos : x.pos = v.pos := congrArg Token.fullStart hx.holds.1
      omega

/-- The name in a tag is read with all its members. -/
theorem jsxName_reads {name : JsxTagName} (h : env.Supplied rank s)
    (hat : s.token.IsBefore env.file.text (wordKind name.head.word)
      (name.extension ++ JsxTagName.dotted name.members ('>' :: rest)))
    (hvalue : s.token.value = name.head.word) : jsxName.Ends env s (Yields env.file.text s
      (IsNameAhead env.file.text name.headName name.members rest)) := by
  obtain ⟨extended, hextend, hbefore, hextended, hstart⟩ := hat.extended (isName_wordKind _)
  rw [hvalue] at hextended
  obtain ⟨next, hnext, hmember⟩ := hbefore.member
  refine .nodePos ((Way.start h).read (by decide) hextend fun t htoken _ g => ?_)
  have hpos : t.pos = s.pos := (congrArg Token.fullStart htoken).trans hstart
  rw [← htoken] at hbefore hextended hnext
  have hkind := hbefore.kind_eq
  have hmembers (first : NodeId) (u : ParserState) (hhead : u.forest.IsTagHead first name.headName)
      (hu : u.token = next) (htook : t.pos < u.pos) (g : Way env Production.topRank s u [.node first]) :
      (repeating first (jsxMember s.pos)).Ends env u (Yields env.file.text s
        (IsNameAhead env.file.text name.headName name.members rest)) := by
    have hreading : ReadingMembers env s name.headName name.members rest first u :=
      ⟨g, hpos ▸ htook, [], name.members, rfl, .head hhead, hu ▸ hmember⟩
    exact (repeating_ends hreading (fun _ _ h => h.way.ok.pos_le_size) fun _ _ hv => jsxMember_leads h hv).mono
      fun _ _ h => h.1
  refine .isAt ?_
  by_cases hthis : name.head.word = "this"
  · have hhead : name.headName = none := if_pos hthis
    have hword : t.token.kind = .keyword .thisKw := hkind.trans (wordKind_eq_this_iff.mpr hthis)
    rw [hword]
    refine .yes (g.step (tokenNode_yields g.ok (by simp [hword]) hnext) fun first u hu _ htook g => ?_)
    obtain ⟨htoken, hshows, -⟩ := hu
    rw [hword] at hshows
    exact hmembers first u (hhead ▸ hshows) htoken htook g
  · have hhead : name.headName = some t.token.value := (if_neg hthis).trans (congrArg some hextended.symm)
    have hword : t.token.kind ≠ .keyword .thisKw := by
      rw [hkind]
      exact fun h => hthis (wordKind_eq_this_iff.mp h)
    rw [beq_eq_false_iff_ne.mpr hword]
    refine .no (g.step (nameOr_yields _ g.ok (hkind ▸ isName_wordKind _) hnext) fun first u hu _ htook g => ?_)
    exact hmembers first u (hhead ▸ hu.2) hu.1 htook g

end Parser

end ScriptSyntax
