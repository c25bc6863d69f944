/-
  ScriptSyntax/Proofs/Grammar/JsxAttributes.lean
  ==============================================
  A tag with one attribute, for which a string is given.

  How the string is read is for its token to say.  If nothing is wrong with the
  token, the tag is read and its attribute has the value of the token; else the
  error is reported, and what is read then does not matter.
-/
import ScriptSyntax.Proofs.Clean.Errors
import ScriptSyntax.Proofs.Grammar.JsxOperands
import ScriptSyntax.Proofs.Grammar.JsxTrees
import ScriptSyntax.Proofs.Token.AttributeValue

namespace ScriptSyntax

open ScriptSyntax.Parser

variable {env : Surroundings} {rank : Nat} {r s t : ParserState} {items : List Part} {id : NodeId}
variable {F G : Forest} {x y : String} {errors : List ScanError} {text : Array Char} {cs : List Char}

/-! ## 1. Attributes in a tree -/

namespace Forest

theorem Shows.payload_unique {kind kind' : Kind} {payload payload' : Payload} (h : F.Shows id kind payload)
    (h' : F.Shows id kind' payload') : payload = payload' := by
  obtain ⟨n, hn, -, rfl⟩ := h
  obtain ⟨m, hm, -, rfl⟩ := h'
  cases hn.symm.trans hm
  rfl

/-- Under the number there is an attribute for which the string is given. -/
def IsStringAttribute (F : Forest) (id : NodeId) (x : String) : Prop :=
  ∃ name value flags, F.Shows id (.node .jsxAttribute) (.jsxAttribute name (some value))
    ∧ F.Shows value (.literal .string) (.literal x flags)

/-- There is one attribute, and the string is given for it. -/
def HasOneAttribute (F : Forest) (x : String) : Prop :=
  ∃ id, F.IsStringAttribute id x ∧ ∀ i payload, F.Shows i (.node .jsxAttribute) payload → i = id

theorem IsStringAttribute.keeps (h : F.IsStringAttribute id x) (hkeeps : F.Keeps G) :
    G.IsStringAttribute id x := by
  obtain ⟨name, value, flags, hshows, hvalue⟩ := h
  exact ⟨name, value, flags, hshows.keeps hkeeps, hvalue.keeps hkeeps⟩

theorem IsStringAttribute.unique (h : F.IsStringAttribute id x) (h' : F.IsStringAttribute id y) : x = y := by
  obtain ⟨name, value, flags, hshows, hvalue⟩ := h
  obtain ⟨name', value', flags', hshows', hvalue'⟩ := h'
  cases hshows.payload_unique hshows'
  cases hvalue.payload_unique hvalue'
  rfl

theorem HasOneAttribute.gains {p : Kind → Prop} (h : F.HasOneAttribute x) (hgains : F.Gains p G)
    (hp : ¬p (.node .jsxAttribute)) : G.HasOneAttribute x := by
  obtain ⟨id, hstring, honly⟩ := h
  refine ⟨id, hstring.keeps hgains.toKeeps, fun i payload hshows => ?_⟩
  exact honly i payload ((hgains.kinds i _ payload hshows).resolve_left hp)

/-- No other string is given for any attribute. -/
theorem HasOneAttribute.isStringAttribute_iff (h : F.HasOneAttribute x) :
    (∃ id, F.IsStringAttribute id y) ↔ y = x := by
  obtain ⟨id, hstring, honly⟩ := h
  constructor
  · rintro ⟨i, hi⟩
    obtain ⟨name, value, flags, hshows, hvalue⟩ := hi
    obtain rfl := honly i _ hshows
    exact IsStringAttribute.unique ⟨name, value, flags, hshows, hvalue⟩ hstring
  · rintro rfl
    exact ⟨id, hstring⟩

end Forest

namespace Parser

/-- A node that is finished is the only one that was not there before. -/
theorem finish_newest (n : Node) (env : Surroundings) (s : ParserState) :
    (finish n).Ends env s fun id t => ∀ i kind payload, t.forest.Shows i kind payload →
      i = id ∨ s.forest.Shows i kind payload := by
  have hpush (n : Node) (s : ParserState) : (finishAt n).Ends env s fun id t => ∀ i kind payload,
      t.forest.Shows i kind payload → i = id ∨ s.forest.Shows i kind payload := by
    rintro i kind payload ⟨m, hm, hkind, hpayload⟩
    rcases Arena.get?_push_cases hm with hold | ⟨rfl, -⟩
    · exact .inr ⟨m, hold, hkind, hpayload⟩
    · exact .inl rfl
  refine .nodePos ?_
  extract_lets rest
  split
  · exact hpush _ { s with fault := s.fault <|> some (.backwardsNode n.kind s.pos n.pos) }
  · exact hpush _ s

end Parser

/-! ## 2. Productions that may meet errors -/

/-- What a production comes to in which the errors are met, if there are any: then they are reported, and else a
node is handed over. -/
inductive Meets (errors : List ScanError) (text : Array Char) (s : ParserState)
    (X : NodeId → Token → Forest → Prop) (id : NodeId) (t : ParserState) : Prop where
  | yields : errors = [] → Yields text s X id t → Meets errors text s X id t
  | reports : errors ≠ [] → ¬t.Clean → Meets errors text s X id t

namespace Parser.Ends

variable {X Y : NodeId → Token → Forest → Prop} {p : Parser NodeId} {f : NodeId → Parser NodeId}

/-- What is known with errors and without them is put together. -/
theorem meets (hyields : errors = [] → p.Ends env s (Yields text r X)) (hreports : errors ≠ [] → p.Reports env s) :
    p.Ends env s (Meets errors text r X) := by
  by_cases herrors : errors = []
  · exact (hyields herrors).mono fun _ _ => .yields herrors
  · exact (hreports herrors).mono fun _ _ => .reports herrors

theorem yieldsOf (h : p.Ends env s (Meets errors text r X)) (hnone : errors = []) :
    p.Ends env s (Yields text r X) := by
  refine h.mono fun id t ht => ?_
  cases ht with
  | yields _ h => exact h
  | reports hsome _ => exact absurd hnone hsome

theorem reportsOf (h : p.Ends env s (Meets errors text r X)) (hsome : errors ≠ []) : p.Reports env s := by
  refine h.mono fun id t ht => ?_
  cases ht with
  | yields hnone _ => exact absurd hnone hsome
  | reports _ h => exact h

/-- What comes next is followed where there are no errors. -/
theorem bindMeets (hp : p.Ends env s (Meets errors text s X)) (hadds : env.Adds)
    (horderly : ∀ id, Orderly true (f id))
    (hf : ∀ id t, errors = [] → Yields text s X id t → (f id).Ends env t (Yields text r Y)) :
    (p >>= f).Ends env s (Meets errors text r Y) :=
  .meets (fun hnone => (hp.yieldsOf hnone).bind fun id t ht => hf id t hnone ht)
    fun hsome => (hp.reportsOf hsome).late hadds horderly

end Parser.Ends

/-! ## 3. Attributes -/

/-- The tokens of a tag with one attribute: the bracket, the names of the tag and of the attribute, the equals sign,
and the value, which is read with the errors. If there are none it is a string, and behind it the tag ends, and
then the text. -/
structure TagTokens (text : Array Char) (errors : List ScanError)
    (angle tag property equals value slash : Token) : Prop where
  angle_kind : angle.kind = .punct .lessThan
  angle_next : angle.next text = (tag, [])
  tag_before : ∃ cs, tag.IsBefore text .identifier (' ' :: cs)
  tag_next : tag.next text = (property, [])
  property_before : ∃ cs, property.IsBefore text .identifier ('=' :: cs)
  property_next : property.next text = (equals, [])
  equals_kind : equals.kind = .punct .equals
  equals_next : equals.nextJsxAttributeValue text = (value, errors)
  value_kind : errors = [] → value.kind = .literal .string
  value_next : errors = [] → value.next text = (slash, [])
  slash_before : errors = [] → slash.IsBefore text (.punct .slash) ['>', ';']

namespace Parser

variable {angle tag property equals value slash after : Token}

/-- A string that nothing is wrong with is the value of an attribute. -/
theorem jsxAttributeValue_reads {β : Type} {f : Option NodeId → Parser β} {Q : β → ParserState → Prop}
    (g : Way env rank r s items) (hvalue : s.token.nextJsxAttributeValue env.file.text = (value, []))
    (hkind : value.kind = .literal .string) (hafter : value.next env.file.text = (after, []))
    (hf : ∀ id t, t.token = after → t.forest.Shows id (.literal .string) (.literal value.value value.flags) →
      s.forest.Gains (· = .literal .string) t.forest → s.pos < t.pos →
      Way env Production.topRank r t (items ++ [Part.node id]) → (f (some id)).Ends env t Q) :
    (jsxAttributeValue >>= f).Ends env s Q := by
  have hread : ReadingMode.scanJsxAttributeValue.read env.file.text s.token = (value, []) := hvalue
  have hgiven : jsxAttributeValue.Ends env s fun found t => ∃ id, found = some id ∧ t.token = after
      ∧ t.forest.Shows id (.literal .string) (.literal value.value value.flags)
      ∧ s.forest.Gains (· = .literal .string) t.forest ∧ s.pos < t.pos
      ∧ Way env Production.topRank r t (items ++ [Part.node id]) := by
    refine (advance_quiet g.ok (.of_ne (by decide) (by decide)) hread).bind fun _ u hu => .kind ?_
    obtain ⟨hquiet, rfl, hforest⟩ := hu
    have g := (g.go hquiet).parts (List.append_nil items)
    have hleaf : literalNode.Ends env u _ := .token (leaf_shows g.ok hafter)
    rw [hkind]
    refine ((literalNode_yields g.ok (by simp [hkind]) hafter).and hleaf).bind fun id t ht => .pure ?_
    obtain ⟨hliteral, -, hgains, -⟩ := ht
    obtain ⟨htoken, hshows⟩ := hliteral.holds
    rw [hkind] at hshows hgains
    exact ⟨id, rfl, htoken, hshows, hforest ▸ hgains, Nat.lt_of_le_of_lt hquiet.forward hliteral.took,
      g.goTook hliteral.quiet hliteral.took⟩
  refine hgiven.bind ?_
  rintro _ t ⟨id, rfl, htoken, hshows, hgains, htook, g⟩
  exact hf id t htoken hshows hgains htook g

theorem jsxAttributeValue_reports (hadds : env.Adds) (h : (s.token.nextJsxAttributeValue env.file.text).2 ≠ []) :
    jsxAttributeValue.Reports env s := by
  have hread : (advance .scanJsxAttributeValue).Reports env s := advance_reports h
  refine hread.late hadds fun _ => .bind .kind fun k => ?_
  split
  · exact .map .literalNode
  · exact jsxExpression_orderly _

/-- An attribute is read, if there was none before it; or the errors in its value are reported. -/
theorem jsxAttribute_meets (h : env.Supplied rank s)
    (htag : TagTokens env.file.text errors angle tag s.token equals value slash)
    (hnone : ∀ i payload, ¬s.forest.Shows i (.node .jsxAttribute) payload) :
    jsxAttribute.Ends env s (Meets errors env.file.text s fun _ next F =>
      next = slash ∧ F.HasOneAttribute value.value) := by
  obtain ⟨cs, hat⟩ := htag.property_before
  have hextend : ReadingMode.extendJsxName.read env.file.text s.token = (s.token, []) :=
    hat.scanJsxName (by rintro _ ⟨⟩; decide) (by simp)
  refine .isAt ?_
  rw [hat.kind_eq]
  refine .no (.nodePos ((Way.start h).read (by decide) hextend fun t htoken hforest g => ?_))
  have hpos : t.pos = s.pos := congrArg Token.fullStart htoken
  have hread : t.token.next env.file.text = (equals, []) := htoken ▸ htag.property_next
  have hname : t.token.kind.isName = true := by
    rw [htoken, hat.kind_eq]
    rfl
  refine ((nameOr_yields _ g.ok hname hread).and (nameOr_gains _ hname)).bind fun id u hu => .isAt ?_
  obtain ⟨hu, hnameGains⟩ := hu
  have hequals : u.token = equals := hu.holds.1
  have hvalue : u.token.nextJsxAttributeValue env.file.text = (value, errors) := hequals ▸ htag.equals_next
  have htook : s.pos < u.pos := hpos ▸ hu.took
  have g := g.goTook hu.quiet hu.took
  rw [hequals, htag.equals_kind]
  extract_lets rest
  refine .yes (.meets (fun herrors => ?_) fun herrors => ?_)
  · rw [herrors] at hvalue
    refine jsxAttributeValue_reads g hvalue (htag.value_kind herrors) (htag.value_next herrors)
      fun initializer v hslash hshows hvalueGains htook' g => ?_
    have hgains : s.forest.Gains (· ≠ .node .jsxAttribute) v.forest :=
      hforest ▸ (hnameGains.mono (by simp)).trans (hvalueGains.mono (by simp))
    have hfinish : (rest (some initializer)).Ends env v (Yields env.file.text s fun id next F =>
        next = slash ∧ F.IsStringAttribute id value.value) :=
      g.finish rfl (Nat.lt_trans htook htook') rfl rfl fun id F hkeeps hshows' =>
        ⟨hslash, _, initializer, _, hshows', hshows.keeps hkeeps⟩
    refine (hfinish.and (finish_newest _ env v)).mono fun id w hw => ?_
    obtain ⟨hw, honly⟩ := hw
    refine ⟨hw.quiet, hw.took, hw.holds.1, id, hw.holds.2, fun i payload hshows => ?_⟩
    exact (honly i _ payload hshows).resolve_right (hgains.lacks (by simp) hnone)
  · have hreports : jsxAttributeValue.Reports env u := by
      refine jsxAttributeValue_reports h.adds ?_
      rw [hvalue]
      exact herrors
    exact hreports.late h.adds fun _ => .finishProduction _ _ _

/-- The list of attributes is open at a name, and ends before the slash. -/
theorem holdsOne_attribute {X : NodeId → Token → Forest → Prop} (hkind : r.token.kind = .identifier)
    (hslash : ∀ id next F, X id next F → next.kind = .punct .slash) : HoldsOne env .jsxAttributes X r where
  goesOn := by
    unfold endsList
    rw [answer_kind, hkind]
    rfl
  starts := by
    have hname : isName.Ends env r fun b t => b = true ∧ t = r := by
      refine ⟨?_, rfl⟩
      show r.token.kind.isName = true
      rw [hkind]
      rfl
    have hstarts : (startsElement .jsxAttributes false).Ends env r fun b _ => b = true :=
      (Ends.orYes hname).mono fun _ _ h => h.1
    exact hstarts
  ends id t ht := by
    unfold endsList
    rw [answer_kind, hslash _ _ _ ht]
    rfl

/-- The attributes of a tag are one attribute; or errors in its value are reported. -/
theorem jsxAttributes_meets (h : env.Supplied rank s)
    (htag : TagTokens env.file.text errors angle tag s.token equals value slash)
    (hnone : ∀ i payload, ¬s.forest.Shows i (.node .jsxAttribute) payload) :
    jsxAttributes.Ends env s (Meets errors env.file.text s fun _ next F =>
      next = slash ∧ F.HasOneAttribute value.value) := by
  obtain ⟨cs, hat⟩ := htag.property_before
  let inner := s.withLists (.jsxAttributes :: s.scope.openLists)
  have hinner : jsxAttribute.Ends env inner _ := jsxAttribute_meets (h.inScope _) htag hnone
  refine .nodePos (.meets (fun herrors => ?_) fun herrors => ?_)
  · have hlist : HoldsOne env .jsxAttributes (fun _ next F => next = slash ∧ F.HasOneAttribute value.value) inner := by
      refine holdsOne_attribute hat.kind_eq ?_
      rintro _ _ _ ⟨rfl, -⟩
      exact (htag.slash_before herrors).kind_eq
    refine (elements_one h hlist (hinner.yieldsOf herrors).comes).bind fun list t ht => ?_
    obtain ⟨given, -, hlog, ⟨hslash, hgiven⟩, htook, hquiet⟩ := ht
    have hlog : t.log = s.log := hlog
    rw [hlog] at hquiet
    have g := (Way.start h).goTook hquiet htook
    exact g.finishAdding rfl htook rfl rfl fun _ F hgains _ => ⟨hslash, hgiven.gains hgains (by simp)⟩
  · -- Of an attribute with errors nothing else is known, so nothing is said of where the list ends.
    have hlist : HoldsOne env .jsxAttributes (fun _ _ _ => False) inner :=
      holdsOne_attribute hat.kind_eq fun _ _ _ hfalse => hfalse.elim
    have hreports : (elements .jsxAttributes jsxAttribute).Reports env s :=
      elements_reports h.ok h.adds hlist.goesOn hlist.starts jsxAttribute_orderly (hinner.reportsOf herrors)
    exact hreports.late h.adds fun _ => .finishProduction _ _ _

end Parser

/-! ## 4. Tags -/

/-- The tag is an element by itself, with one attribute for which the string is given, and behind it the text
ends. -/
structure IsLastTag (text : Array Char) (x : String) (id : NodeId) (next : Token) (F : Forest) : Prop where
  last : LastSemicolon text next
  shows : ∃ payload, F.Shows id (.node .jsxSelfClosingElement) payload
  given : F.HasOneAttribute x

namespace Parser

variable {angle tag property equals value slash : Token}

theorem jsxOpening_meets (h : env.Supplied rank s)
    (htag : TagTokens env.file.text errors s.token tag property equals value slash)
    (hnone : ∀ i payload, ¬s.forest.Shows i (.node .jsxAttribute) payload) :
    (jsxOpening true).Ends env s (Meets errors env.file.text s (IsLastTag env.file.text value.value)) := by
  obtain ⟨cs, hname⟩ := htag.tag_before
  obtain ⟨_, hproperty⟩ := htag.property_before
  refine .nodePos ((Way.start h).takeExpected htag.angle_kind nofun htag.angle_next
    fun t htoken hforest htook g => .isAt ?_)
  rw [← htoken] at htag hname
  rw [hname.kind_eq]
  refine .no (g.step (jsxName_yields_plain g.supplied hname (by rintro _ ⟨⟩; decide) (by simp) htag.tag_next
    (by simp [hproperty.kind_eq])) fun name u hu _ htook' g => ?_)
  obtain ⟨rfl, -, hgains⟩ := hu
  have hnone (i : NodeId) (payload : Payload) : ¬u.forest.Shows i (.node .jsxAttribute) payload :=
    hgains.lacks (by simp) (hforest ▸ hnone)
  refine .bindMeets (jsxAttributes_meets g.supplied htag hnone) h.adds (fun attributes => ?_)
    fun attributes v herrors hv => ?_
  · refine .bind (.isAtPunct _) fun _ => .ite (.bind (.advance _) fun _ => .finishProduction _ _ _) ?_
    exact .bind (.expectPunct _) fun _ => .bind (jsxTagEnd_orderly _) fun _ => .finishProduction _ _ _
  obtain ⟨rfl, hgiven⟩ := hv.holds
  have g := g.goTook hv.quiet hv.took
  have hslash := htag.slash_before herrors
  obtain ⟨after, hafter, hclose⟩ := hslash.greaterThan
  refine .isAt ?_
  rw [hslash.kind_eq]
  refine .no (g.takeExpected hslash.kind_eq nofun hafter fun w htoken' hforest' htook'' g => ?_)
  rw [← htoken'] at hclose
  have hend : (jsxTagEnd true).Ends env w _ := jsxTagEnd_reads g.supplied hclose rfl
  refine hend.bind fun _ x hx => ?_
  obtain ⟨hquiet, htook''', hforest'', hlast⟩ := hx
  have htook := htook.trans (htook'.trans (hv.took.trans (htook''.trans htook''')))
  refine ((g.goTook hquiet htook''').parts (List.append_nil _)).finishAdding rfl htook rfl rfl
    fun id F hgains hshows => ?_
  rw [hforest'', hforest'] at hgains
  exact ⟨hlast, ⟨_, hshows⟩, hgiven.gains hgains (by simp)⟩

/-- The tag is the element, which nothing follows but the last semicolon. -/
theorem jsxElement_meets (h : env.Supplied rank s)
    (htag : TagTokens env.file.text errors s.token tag property equals value slash)
    (hnone : ∀ i payload, ¬s.forest.Shows i (.node .jsxAttribute) payload) :
    (jsxElement true).Ends env s (Meets errors env.file.text s (IsLastTag env.file.text value.value)) := by
  have hopening := jsxOpening_meets h htag hnone
  refine .meets (fun herrors => ?_) fun herrors => ?_
  · refine jsxElement_ends (hopening.yieldsOf herrors) (fun id t ht => ?_) ?_
    · obtain ⟨payload, hshows⟩ := ht.holds.shows
      exact .done payload hshows ht
    · intro _ id t ht
      rw [ht.holds.last.1]
      decide
  · obtain ⟨rest, heq, hrest⟩ := jsxElement_eq_bind true
    rw [heq]
    exact .nodePos ((hopening.reportsOf herrors).late h.adds (hrest _))

end Parser

theorem TagTokens.opensTag (h : TagTokens text errors angle tag property equals value slash) :
    angle.OpensTag text where
  kind_eq := h.angle_kind
  inside := by
    obtain ⟨_, htag⟩ := h.tag_before
    obtain ⟨_, hproperty⟩ := h.property_before
    refine ⟨tag, h.angle_next, .inr ⟨htag.kind_eq ▸ rfl, property, h.tag_next, ?_⟩⟩
    simp [hproperty.kind_eq]

namespace Parser

/-- The expression that starts with the bracket is the tag; or the errors in the value are reported. -/
theorem assignmentBody_meets (hjsx : env.file.variant = .jsx) (h : env.Supplied Production.assignment.rank s)
    (htag : TagTokens env.file.text errors s.token tag property equals value slash)
    (hnone : ∀ i payload, ¬s.forest.Shows i (.node .jsxAttribute) payload) :
    assignmentBody.Ends env s (Meets errors env.file.text s (IsLastTag env.file.text value.value)) := by
  have hopens := htag.opensTag
  have helement (inner : Surroundings) (hfile : inner.file = env.file)
      (hinner : inner.Supplied (Production.jsxElement true).rank s) : (jsxElement true).Ends inner s
        (Meets errors env.file.text s (IsLastTag env.file.text value.value)) := by
    rw [← hfile] at htag ⊢
    exact jsxElement_meets hinner htag hnone
  refine .meets (fun herrors => ?_) fun herrors => ?_
  · refine assignmentBody_of_tag hjsx hopens h (by decide) ⟨fun id t ht => ht.holds.last.1, fun id t ht => ?_⟩
      fun inner hfile hinner => (helement inner hfile hinner).yieldsOf herrors
    obtain ⟨payload, hshows⟩ := ht.holds.shows
    exact ⟨_, payload, hshows⟩
  · have hupdate : updateExpression.Reports env s :=
      updateExpression_of_tag hjsx hopens h (by decide) fun inner hfile hinner =>
        (helement inner hfile hinner).reportsOf herrors
    have hbinary : (binary .comma).Reports env s :=
      binary_reports h.adds (unary_reports h.adds (startsUpdate_of_tag hjsx hopens) hupdate)
    exact assignmentBody_reports h.adds (by simp [hopens.kind_eq]) (arrowHeadHere_of_tag h.ok hjsx hopens) hbinary

end Parser

end ScriptSyntax
