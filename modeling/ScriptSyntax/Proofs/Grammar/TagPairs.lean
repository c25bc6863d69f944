/-
  ScriptSyntax/Proofs/Grammar/TagPairs.lean
  =========================================
  An opening tag and a closing tag, with nothing between them.

  Whatever the two names are, the element is read.  If they are not compared as
  the same, one report is made, and nothing else is: what is finished after it is
  finished as it would be without it.
-/
import ScriptSyntax.Proofs.Grammar.JsxOperands
import ScriptSyntax.Proofs.Grammar.JsxTrees

namespace ScriptSyntax

open ScriptSyntax.Parser ScriptSyntax.JsxTree

variable {env : Surroundings} {rank : Nat} {r s : ParserState} {rest : List Char} {t : Token} {k : Kind}

/-- What the log is after names have been compared: as before if they are the same, or with a report of the
closing tag. -/
def DiagnosticLog.Compared (file : String) (same : Bool) (before after : DiagnosticLog) : Prop :=
  if same then after = before
  else ∃ span args, after = before.report (.ofMessageAt file span .jsxClosingTagMismatch args)

/-- A name before the bracket that ends the tag is read as what it is. -/
theorem Token.IsBefore.readsName {name : JsxTagName}
    (hat : t.IsBefore env.file.text k (name.before ('>' :: rest))) : ∃ word, t.next env.file.text = (word, [])
      ∧ ReadsTagName env word (.punct .greaterThan) rest fun id F => F.IsTagName id name.headName name.memberTexts := by
  obtain ⟨word, hword, hbefore, hvalue, -⟩ := hat.writtenWord (name.endsWord_extension rest)
  refine ⟨word, hword, hbefore.kind_eq ▸ isName_wordKind _, fun _ _ _ => Forest.IsTagName.keeps, ?_⟩
  rintro rank s h rfl
  exact jsxName_reads h hbefore hvalue

/-- A name behind a bracket makes that open a tag. -/
theorem Token.IsBefore.opensName {name : JsxTagName}
    (hat : t.IsBefore env.file.text (.punct .lessThan) (name.before ('>' :: rest))) :
    t.OpensTag env.file.text where
  kind_eq := hat.kind_eq
  inside := by
    obtain ⟨word, hword, hbefore, -⟩ := hat.writtenWord (name.endsWord_extension rest)
    obtain ⟨after, hafter, hkind⟩ := hbefore.afterHead
    refine ⟨word, hword, .inr ⟨hbefore.kind_eq ▸ isName_wordKind _, after, hafter, ?_⟩⟩
    rcases hkind with hkind | hkind | hkind | hkind <;> simp [hkind]

namespace Parser

/-- Names of tags are compared, and a difference is reported. -/
theorem checkTagNames_ends {kind kind' : NodeKind} {opening closing tag tag' : NodeId}
    {attributes attributes' : Option NodeId} {same : Bool} (h : s.Ok env.file.text)
    (hopening : s.forest.Shows opening (.node kind) (.jsxTag tag attributes))
    (hclosing : s.forest.Shows closing (.node kind') (.jsxTag tag' attributes'))
    (hsame : s.arena.sameTagName? tag tag' = some same)
    (hin : ∀ n, s.arena.get? closing = some n → n.InText env.file.text.size) :
    (checkTagNames opening closing).Ends env s fun _ t =>
      Glance env.file.text s t ∧ t.token = s.token
        ∧ DiagnosticLog.Compared env.file.name same s.log t.log := by
  refine .leaves (tagName_reads hopening) (.leaves (tagName_reads hclosing) (.get ?_))
  rw [hsame]
  cases same with
  | true => exact .pure ⟨.refl h, rfl, rfl⟩
  | false =>
    obtain ⟨n, hn, -⟩ := hclosing
    obtain ⟨l, hl⟩ : ∃ l, s.arena.get? tag = some l := by
      cases hl : s.arena.get? tag with
      | some l => exact ⟨l, rfl⟩
      | none =>
        unfold Arena.sameTagName? at hsame
        simp [hl] at hsame
    have hin := hin n hn
    let source := (sourceOf tag).answer env s
    have hlog : (errorAtRange n.pos n.stop .jsxClosingTagMismatch [source]).Ends env s fun _ t =>
        t.log = s.log.report (.ofMessageAt env.file.name ⟨n.pos, n.stop - n.pos⟩ .jsxClosingTagMismatch [source]) :=
      rfl
    refine .node hn (.ask (sourceOf_asks hl) ?_)
    refine ((errorAtRange_ends h hin.pos_le hin.stop_le _ _).and hlog).mono fun _ t ht => ?_
    exact ⟨ht.1.toGlance, ht.1.token, _, _, ht.2⟩

/-- Before a semicolon two tags are read as an element, whatever their names are. -/
theorem jsxElement_of_pair {left right : JsxTagName} (h : env.Supplied rank s) (hdepth : s.scope.depth ≤ maxDepth)
    (hat : s.token.IsBefore env.file.text (.punct .lessThan)
      (left.before ('>' :: '<' :: '/' :: right.before ['>', ';']))) :
    (jsxElement true).Ends env s (Comes env.file.text s
      (DiagnosticLog.Compared env.file.name
        (decide (left.headName = right.headName ∧ left.memberTexts = right.memberTexts)) s.log)
      fun id next F => LastSemicolon env.file.text next ∧ ∃ payload, F.Shows id (.node .jsxElement) payload) := by
  have hnone : JsxTree.AreRead [] := ⟨.nil, by simp⟩
  obtain ⟨word, hword, hname⟩ := hat.readsName
  have hopening : (jsxOpening true).Ends env s _ :=
    jsxOpening_yields_element h hat.kind_eq hword hname (.inl (startsTag_closing _))
  refine jsxElement_ends hopening (fun opening t ht => ?_) fun _ id t ht => ?_
  · obtain ⟨hat, tag, attributes, properties, hshows, htag, -⟩ := ht.holds
    have g := (Way.start h).goTook ht.quiet ht.took
    refine .element _ hshows (jsxElementRest_ends hnone g ht.took (g.quiet.depth_le hdepth) hat
      (Y := fun id next F => LastSemicolon env.file.text next
        ∧ F.IsClosingTagWith (fun id F => F.IsTagName id right.headName right.memberTexts) id)
      (fun t h hat => ?_) fun list closing u hu _ hkeeps htook g => ?_)
    · obtain ⟨word, hword, hname⟩ := hat.readsName
      exact jsxClosing_yields h hat.kind_eq hword hname rfl
    · obtain ⟨hlast, tag', hshows', htag'⟩ := hu
      have hsame := (htag.keeps hkeeps).sameTagName? g.ok.sound htag'
      have hin (n : Node) (hn : u.arena.get? closing = some n) : n.InText env.file.text.size := by
        have hmem : Part.node closing ∈ [.node opening, .array list, .node closing] := by simp
        obtain ⟨m, hm, -, hle, hstop⟩ := g.quiet.placed.of_mem hmem
        cases hn.symm.trans hm
        exact ⟨hle, Nat.le_trans hstop g.ok.pos_le_size⟩
      refine (checkTagNames_ends g.ok (hshows.keeps hkeeps) hshows' hsame hin).bind fun _ v hv => ?_
      obtain ⟨hglance, htoken, hcompared⟩ := hv
      rw [g.quiet.log_eq] at hcompared
      -- a report does not change what is finished after it, so it is as if it had been made before the element
      have g : Way env Production.topRank (s.withLog v.log) v [.node opening, .array list, .node closing] :=
        ⟨(g.quiet.toRun.before hglance.toRun).quiet, g.supplied.later hglance.ok hglance.forward⟩
      refine (g.finish (X := fun id next F => LastSemicolon env.file.text next
        ∧ ∃ payload, F.Shows id (.node .jsxElement) payload) rfl (Nat.lt_of_lt_of_le htook hglance.forward) rfl rfl
        fun id F _ hshows => ⟨htoken ▸ hlast, _, hshows⟩).mono fun id w hw => .of_yields hcompared hw
  · have hlast : LastSemicolon env.file.text t.token := ht.yields.holds.1
    simp [hlast.1]

end Parser

end ScriptSyntax
