/-
  ScriptSyntax/Proofs/File/TagPair.lean
  =====================================
  Texts of an opening tag and a closing tag.

  Nothing but the names can be wrong with such a text, so its diagnostics say how
  names are compared.
-/
import ScriptSyntax.Proofs.File.OneStatement
import ScriptSyntax.Proofs.Grammar.TagPairs

namespace ScriptSyntax

open ScriptSyntax.Parser ScriptSyntax.JsxTree

/-! ## 1. What is reported -/

namespace DiagnosticLog

/-- The first report is made in any case. -/
theorem entries_report {log : DiagnosticLog} (h : log.size = 0) (d : Diagnostic) :
    (log.report d).entries.toList = [d] := by
  have hempty : log.entries = #[] := Array.eq_empty_of_size_eq_zero h
  simp [report, last?, add, hempty]

/-- Of names that are not the same there is one report, and else there is none. -/
theorem Compared.codes {file : String} {same : Bool} {before after : DiagnosticLog}
    (h : Compared file same before after) (hempty : before.size = 0) :
    after.entries.toList.map (fun d => d.code) = if same then [] else [17002] := by
  cases same with
  | true =>
    obtain rfl : after = before := h
    rw [entries_eq_nil hempty]
    rfl
  | false =>
    obtain ⟨span, args, rfl⟩ := h
    rw [entries_report hempty]
    rfl

end DiagnosticLog

/-! ## 2. Files of two tags -/

/-- An opening tag, a closing tag and a semicolon. -/
def jsxTagPairText (left right : JsxTagName) : SourceText :=
  ⟨('<' :: left.before ('>' :: '<' :: '/' :: right.before ['>', ';'])).toArray⟩

/-- The name of a tag starts with a character that makes no other token of the bracket before it. -/
theorem exists_cons_before (name : JsxTagName) (rest : List Char) :
    ∃ c cs, name.before rest = c :: cs ∧ c ≠ '<' ∧ c ≠ '=' := by
  obtain ⟨c, cs, hcs, hstart⟩ := name.head.exists_cons
  exact ⟨c, _, congrArg (· ++ _) hcs, hstart.ne (by decide) (by decide), hstart.ne (by decide) (by decide)⟩

/-- An opening and a closing tag are parsed without a diagnostic, or with the one that their names are
different. -/
theorem parseText_jsxTagPairText_codes {fileName : String} {options : ParseOptions}
    (hkind : options.scriptKindFor fileName = .tsx) (left right : JsxTagName) :
    ∃ f, parseText fileName (jsxTagPairText left right) options = .ok f
      ∧ f.diagnostics.map (fun d => d.code)
        = if left.headName = right.headName ∧ left.memberTexts = right.memberTexts then [] else [17002] := by
  let text := jsxTagPairText left right
  let behind := left.before ('>' :: '<' :: '/' :: right.before ['>', ';'])
  have htext : TextAt text.chars 0 ('<' :: behind) := by
    simp [TextAt, text, behind, jsxTagPairText]
  obtain ⟨c, cs, hcs, hless, hequals⟩ : ∃ c cs, behind = c :: cs ∧ c ≠ '<' ∧ c ≠ '=' := exists_cons_before left _
  have hstands : Punctuator.lessThan.standsBefore behind = true := by
    rw [hcs]
    exact Punctuator.lessThan_standsBefore hless hequals
  have hmarker : isConflictMarker text.chars 0 = false :=
    isConflictMarker_of_startsTag htext ⟨c, cs, by rw [hcs], hless⟩
  obtain ⟨first, hfirst⟩ : ∃ first, Reads text.chars 0 ⟨.punct .lessThan, ""⟩ behind first :=
    reads_punct htext hstands hmarker
  let L (log : DiagnosticLog) : Prop := log.entries.toList.map (fun d => d.code)
    = if left.headName = right.headName ∧ left.memberTexts = right.memberTexts then [] else [17002]
  have hbody (env : Surroundings) (s : ParserState)
      (hfile : env.file = .ofText fileName text (options.scriptKindFor fileName))
      (hsupplied : env.Supplied Production.assignment.rank s) (hbegin : AtExpression first s) :
      assignmentBody.Ends env s (Comes env.file.text s L (IsWhole env.file.text fun _ _ => True)) := by
    have hjsx : env.file.variant = .jsx := by
      rw [hfile, hkind]
      rfl
    have hchars : env.file.text = text.chars := by
      rw [hfile]
      rfl
    have hat : s.token.IsBefore env.file.text (.punct .lessThan) behind := by
      rw [hbegin.token, hchars]
      exact hfirst.isBefore
    have hdepth : s.scope.depth ≤ maxDepth := by
      rw [hbegin.depth]
      decide
    refine assignmentBody_of_tag hjsx hat.opensName hsupplied (by decide) ⟨?_, ?_⟩ fun inner hfile hinner => ?_
    · intro id t ht
      exact ht.yields.holds.last.1
    · intro id t ht
      obtain ⟨kind, payload, hshows, -⟩ := ht.yields.holds.shows
      exact ⟨kind, payload, hshows⟩
    · rw [← hfile] at hat ⊢
      refine (jsxElement_of_pair hinner hdepth hat).mono fun id t ht => ⟨?_, ht.yields.mono ?_⟩
      · have hcodes := ht.logged.codes hbegin.log
        simpa using hcodes
      · rintro id next F ⟨hlast, payload, hshows⟩
        exact ⟨hlast, ⟨_, _, hshows, by simp⟩, trivial⟩
  obtain ⟨f, -, -, log, hparse, hlog, hdiagnostics, -⟩ := parseText_assignment_comes (X := fun _ _ => True)
    htext rfl (by decide) (by decide) hfirst.scan_eq (.inr hfirst.kind_eq) (fun _ _ _ _ _ => trivial) hbody
  exact ⟨f, hparse, hdiagnostics ▸ hlog⟩

/-- Of an opening and a closing tag a difference of their names is reported if and only if their texts differ and
they are not both `this`, however extended, with the same members. -/
theorem parseText_jsxTagPairText_reports_iff {fileName : String} {options : ParseOptions}
    (hkind : options.scriptKindFor fileName = .tsx) (left right : JsxTagName) :
    ∃ f, parseText fileName (jsxTagPairText left right) options = .ok f ∧ (∀ d ∈ f.diagnostics, d.code = 17002)
      ∧ ((∃ d ∈ f.diagnostics, d.code = 17002) ↔ left.spelled ≠ right.spelled
        ∧ ¬(left.head.word = "this" ∧ right.head.word = "this" ∧ left.memberTexts = right.memberTexts)) := by
  obtain ⟨f, hparse, hcodes⟩ := parseText_jsxTagPairText_codes hkind left right
  have hdiffer : (left.spelled ≠ right.spelled
      ∧ ¬(left.head.word = "this" ∧ right.head.word = "this" ∧ left.memberTexts = right.memberTexts))
      ↔ ¬(left.headName = right.headName ∧ left.memberTexts = right.memberTexts) := by
    rw [JsxTagName.headName_eq_iff, or_and_right, and_assoc, ← JsxTagName.spelled_inj, not_or]
  have hreported : (∃ d ∈ f.diagnostics, d.code = 17002) ↔ 17002 ∈ f.diagnostics.map (fun d => d.code) :=
    List.mem_map.symm
  refine ⟨f, hparse, fun d hd => ?_, ?_⟩
  · have hmem : d.code ∈ f.diagnostics.map (fun d => d.code) := List.mem_map_of_mem hd
    rw [hcodes] at hmem
    split at hmem
    · cases hmem
    · exact List.mem_singleton.mp hmem
  · rw [hreported, hcodes, hdiffer]
    split <;> simp [*]

/-- What extends `this` does not count, so these tags are taken for a pair. -/
theorem parseText_jsxTagPairText_this :
    let name (c : Char) (h : isIdentifierPart c = true) : JsxTagName :=
      ⟨.verbatim "this" (by decide), ['-', c], [], by simp, by simp [h]⟩
    let left := name 'a' (by decide)
    let right := name 'b' (by decide)
    ({} : ParseOptions).scriptKindFor "a.tsx" = .tsx ∧ left.spelled ≠ right.spelled
      ∧ jsxTagPairText left right = .ofString "<this-a></this-b>;"
      ∧ ∃ f, parseText "a.tsx" (jsxTagPairText left right) {} = .ok f ∧ f.diagnostics = [] := by
  intro name left right
  have hkind : ({} : ParseOptions).scriptKindFor "a.tsx" = .tsx := by decide
  have hwritten (c : Char) (h : isIdentifierPart c = true) : (name c h).spelled = (name c h).before [] :=
    (JsxTagName.before_eq_spelled (WrittenWord.isVerbatim_verbatim _) (by simp [name])).symm
  have hdiffer : left.before [] ≠ right.before [] := by decide
  have hspelled : left.spelled ≠ right.spelled := fun h =>
    hdiffer ((hwritten 'a' (by decide)).symm.trans (h.trans (hwritten 'b' (by decide))))
  obtain ⟨f, hparse, hcodes, hreported⟩ := parseText_jsxTagPairText_reports_iff hkind left right
  refine ⟨hkind, hspelled, by decide, f, hparse, ?_⟩
  refine List.eq_nil_iff_forall_not_mem.mpr fun d hd => ?_
  exact (hreported.mp ⟨d, hd, hcodes d hd⟩).2 ⟨rfl, rfl, rfl⟩

end ScriptSyntax
