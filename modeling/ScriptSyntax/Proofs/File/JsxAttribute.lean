/-
  ScriptSyntax/Proofs/File/JsxAttribute.lean
  ==========================================
  Texts of one tag, with a string for its attribute.

  Right behind the equals sign a string is taken as it stands.  Behind a space it
  is read like any other string: there an escape sequence stands for what it
  means, and the string ends at a line break.
-/
import ScriptSyntax.Proofs.Grammar.JsxAttributes

namespace ScriptSyntax

open ScriptSyntax.Parser

variable {fileName : String} {options : ParseOptions} {rest : List Char}

/-! ## 1. What is written -/

/-- A tag that is an element by itself, with one attribute for which the string is given, and a semicolon. -/
def jsxAttributeText (tag property : PlainName) (a : AttributeString) : SourceText :=
  ⟨('<' :: (tag.text.toList
    ++ ' ' :: (property.text.toList ++ '=' :: a.before [' ', '/', '>', ';']))).toArray⟩

theorem textAt_jsxAttributeText (tag property : PlainName) (a : AttributeString) :
    TextAt (jsxAttributeText tag property a).chars 0 ('<' :: (tag.text.toList
      ++ ' ' :: (property.text.toList ++ '=' :: a.before [' ', '/', '>', ';']))) := by
  simp [TextAt, jsxAttributeText]

/-- The equals sign is read as it is written, and not as a longer punctuator. -/
theorem AttributeString.equals_standsBefore (a : AttributeString) :
    Punctuator.equals.standsBefore (a.before rest) = true := by
  obtain ⟨spaces, quote, value, -⟩ := a
  cases spaces with
  | zero => cases quote <;> rfl
  | succ n => rfl

/-- The tokens of the text. The value is read without an error if the string is read as it stands. If there is no
error the value of the token is what is written if and only if the string is read so. -/
theorem exists_tagTokens (tag property : PlainName) (a : AttributeString) :
    ∃ first word name equals value slash errors,
      scanAt (jsxAttributeText tag property a).chars 0 = (first, [])
        ∧ TagTokens (jsxAttributeText tag property a).chars errors first word name equals value slash
        ∧ (a.IsVerbatim → errors = [])
        ∧ (errors = [] → (value.value = String.ofList a.value ↔ a.IsVerbatim)) := by
  let text := jsxAttributeText tag property a
  let behind := tag.text.toList ++ ' ' :: (property.text.toList ++ '=' :: a.before [' ', '/', '>', ';'])
  have htext : TextAt text.chars 0 ('<' :: behind) := textAt_jsxAttributeText tag property a
  obtain ⟨c, cs, hcs, hless, -, hequals⟩ : ∃ c cs, behind = c :: cs ∧ c ≠ '<' ∧ c ≠ '/' ∧ c ≠ '=' :=
    JsxTree.exists_cons_of_name tag _
  have hstands : Punctuator.lessThan.standsBefore behind = true := by
    rw [hcs]
    exact Punctuator.lessThan_standsBefore hless hequals
  have hmarker : isConflictMarker text.chars 0 = false :=
    isConflictMarker_of_startsTag htext ⟨c, cs, by rw [hcs], hless⟩
  obtain ⟨first, hfirst⟩ : ∃ first, Reads text.chars 0 ⟨.punct .lessThan, ""⟩ behind first :=
    reads_punct htext hstands hmarker
  obtain ⟨word, hword, hwordAt, -⟩ := hfirst.isBefore.name (by rintro _ ⟨⟩; decide)
  obtain ⟨name, hname, hnameAt, -⟩ := hwordAt.spacedName (by rintro _ ⟨⟩; decide)
  obtain ⟨equals, hequals, hequalsAt⟩ := Token.IsBefore.punct hnameAt a.equals_standsBefore
  have hquote : a.quote.char ∉ [' ', '/', '>', ';'] := by
    cases a.quote <;> decide
  obtain ⟨value, errors, hvalue, hverbatim, hread⟩ := hequalsAt.attributeString hquote
  have hslash (herrors : errors = []) : value.next text.chars = ((value.next text.chars).1, [])
      ∧ (value.next text.chars).1.IsBefore text.chars (.punct .slash) ['>', ';'] := by
    obtain ⟨slash, hslash, hslashAt⟩ := (hread herrors).1.spacedPunct (p := .slash) rfl
    rw [hslash]
    exact ⟨rfl, hslashAt⟩
  refine ⟨first, word, name, equals, value, (value.next text.chars).1, errors, hfirst.scan_eq, ?_, hverbatim,
    fun herrors => (hread herrors).2⟩
  exact {
    angle_kind := hfirst.kind_eq
    angle_next := hword
    tag_before := ⟨_, hwordAt⟩
    tag_next := hname
    property_before := ⟨_, hnameAt⟩
    property_next := hequals
    equals_kind := hequalsAt.kind_eq
    equals_next := hvalue
    value_kind := fun herrors => (hread herrors).1.kind_eq
    value_next := fun herrors => (hslash herrors).1
    slash_before := fun herrors => (hslash herrors).2 }

/-! ## 2. Files of a tag -/

theorem IsLastTag.isWhole {text : Array Char} {x : String} {id : NodeId} {next : Token} {F : Forest}
    (h : IsLastTag text x id next F) : IsWhole text (fun _ F => F.HasOneAttribute x) id next F := by
  obtain ⟨payload, hshows⟩ := h.shows
  exact ⟨h.last, ⟨_, payload, hshows, by simp⟩, h.given⟩

/-- A string is parsed without a diagnostic as an attribute of exactly what is written between its quotes if and only
if it stands right behind the equals sign, or has neither a backslash nor a line break. -/
theorem parseText_jsxAttributeText_iff (hkind : options.scriptKindFor fileName = .tsx) (tag property : PlainName)
    (a : AttributeString) : ∃ f, parseText fileName (jsxAttributeText tag property a) options = .ok f
      ∧ ((f.diagnostics = [] ∧ ∃ id, f.forest.IsStringAttribute id (String.ofList a.value)) ↔ a.IsVerbatim) := by
  obtain ⟨first, word, name, equals, value, slash, errors, hfirst, htag, hverbatim, hvalue⟩ :=
    exists_tagTokens tag property a
  have hbody (env : Surroundings) (s : ParserState)
      (hfile : env.file = .ofText fileName (jsxAttributeText tag property a) (options.scriptKindFor fileName))
      (hsupplied : env.Supplied Production.assignment.rank s) (hbegin : AtExpression first s) :
      assignmentBody.Ends env s (Meets errors env.file.text s (IsLastTag env.file.text value.value)) := by
    have hjsx : env.file.variant = .jsx := by
      rw [hfile, hkind]
      rfl
    have hchars : env.file.text = (jsxAttributeText tag property a).chars := by
      rw [hfile]
      rfl
    rw [← hchars, ← hbegin.token] at htag
    exact assignmentBody_meets hjsx hsupplied htag fun i => hbegin.bare i _
  by_cases herrors : errors = []
  · obtain ⟨f, -, e, hparse, hsilent, -, -, hgiven⟩ := parseText_assignment
      (X := fun _ F => F.HasOneAttribute value.value) (textAt_jsxAttributeText tag property a) rfl (by decide) (by decide) hfirst (.inr htag.angle_kind)
      (fun _ _ _ h hgains => h.gains hgains (by simp [Kind.surrounds, Kind.surroundsStatement]))
      fun env s hfile h hbegin => ((hbody env s hfile h hbegin).yieldsOf herrors).mono fun _ _ ht =>
        ht.mono fun _ _ _ => IsLastTag.isWhole
    refine ⟨f, hparse, (and_iff_right hsilent).trans ?_⟩
    rw [hgiven.isStringAttribute_iff, eq_comm]
    exact hvalue herrors
  · obtain ⟨f, hparse, hreported⟩ := parseText_assignment_reports hfirst (.inr htag.angle_kind)
      fun env s hfile h hbegin => (hbody env s hfile h hbegin).reportsOf herrors
    exact ⟨f, hparse, fun hsilent => absurd hsilent.1 hreported, fun h => absurd (hverbatim h) herrors⟩

/-- Behind a space an escape sequence is not taken as it stands. -/
theorem parseText_jsxAttributeText_escape :
    let a : AttributeString := ⟨1, .double, ['\\', 'n'], by decide⟩
    let text := jsxAttributeText ⟨"a", by decide, by decide⟩ ⟨"b", by decide, by decide⟩ a
    ({} : ParseOptions).scriptKindFor "a.tsx" = .tsx ∧ text = .ofString "<a b= \"\\n\" />;"
      ∧ ∃ f, parseText "a.tsx" text {} = .ok f
        ∧ ¬(f.diagnostics = [] ∧ ∃ id, f.forest.IsStringAttribute id (String.ofList ['\\', 'n'])) := by
  intro a text
  have hkind : ({} : ParseOptions).scriptKindFor "a.tsx" = .tsx := by decide
  obtain ⟨f, hparse, hiff⟩ := parseText_jsxAttributeText_iff hkind ⟨"a", by decide, by decide⟩
    ⟨"b", by decide, by decide⟩ a
  refine ⟨hkind, by decide, f, hparse, fun h => ?_⟩
  rcases hiff.mp h with hzero | hplain
  · cases hzero
  · exact (hplain '\\' List.mem_cons_self).1 rfl

end ScriptSyntax
