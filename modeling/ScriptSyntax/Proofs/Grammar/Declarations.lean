/-
  ScriptSyntax/Proofs/Grammar/Declarations.lean
  =============================================
  Declarations take a token wherever the search for one ends at its keyword.
-/
import ScriptSyntax.Proofs.Grammar.Modules
import ScriptSyntax.Proofs.Grammar.Searching
import ScriptSyntax.Grammar.Declarations

namespace ScriptSyntax

namespace Parser

variable {env : Surroundings} {rank : Nat} {took : Bool} {r m s t : ParserState}
variable {items : List Part} {start : DeclarationStart}

/-! ## 1. Type aliases and enumerations -/

theorem typeAliasDeclaration_takes (g : Sofar env rank took r s s (held start))
    (hpos : start.pos = r.pos) (hkind : s.token.kind = .keyword .typeKw) :
    (typeAliasDeclaration start).Gives env true r s := by
  refine g.stepTook (expectKeyword_takes g.ready.ok hkind) fun _ t g => ?_
  refine g.step (identifier_gives g.ready.ok) fun name t g => ?_
  refine g.step (typeParameters_gives g.ready) fun typeParameters t g => ?_
  refine g.step (expectPunct_gives _ g.ready.ok) fun _ t g => ?_
  refine g.step (parse_gives .type g.ready (by decide) trivial) fun type t g => ?_
  refine g.step (semicolon_gives g.ready.ok) fun _ t g => ?_
  exact g.finishDeclaration hpos (by simp [Payload.fields]) rfl

theorem enumMember_gives (h : env.Ready Production.topRank s) : enumMember.Gives env false s s := by
  refine .nodePos ((Sofar.start h).step (propertyName_gives h) fun name t g => ?_)
  have hvalue : (allowIn initializer).Gives env false t t :=
    .withContext (initializer_gives (g.ready.inContext _))
  refine g.step hvalue fun value t g => ?_
  exact g.finishProduction rfl (by simp) rfl

theorem enumDeclaration_takes (g : Sofar env rank took r s s (held start))
    (hpos : start.pos = r.pos) (hkind : s.token.kind = .keyword .enumKw) :
    (enumDeclaration start).Gives env true r s := by
  refine g.stepTook (expectKeyword_takes g.ready.ok hkind) fun _ t g => ?_
  refine g.step (identifier_gives g.ready.ok) fun name t g => ?_
  refine g.step (bracketed_gives _ g.ready fun _ ht _ => enumMember_gives ht) fun members t g => ?_
  exact g.finishDeclaration hpos (by simp [Payload.fields]) rfl

/-! ## 2. The choice -/

/-- A keyword of declarations is taken by the declaration. -/
theorem declarationAfterModifiers_takes (g : Sofar env rank took r s s (held start))
    (hpos : start.pos = r.pos) (hkind : declares s.token.kind = true) :
    (declarationAfterModifiers start).Gives env true r s := by
  refine .kind ?_
  split
  all_goals rename_i hword
  case h_1 | h_2 | h_3 => exact variableStatement_takes g hpos (by simp [hword])
  case h_4 => exact functionDeclaration_takes g hpos hword
  case h_5 => exact classLike_takes rfl g hpos hword
  case h_6 => exact interfaceDeclaration_takes g hpos hword
  case h_7 => exact typeAliasDeclaration_takes g hpos hword
  case h_8 => exact enumDeclaration_takes g hpos hword
  case h_9 | h_10 | h_11 => exact moduleDeclaration_takes g hpos (by rw [hword]; rfl)
  case h_12 => exact importDeclaration_takes g hpos hword
  case h_13 =>
    refine g.stepTook (nextToken_takes g.ready.ok (by simp [hword])) fun _ t g => ?_
    exact exportDeclaration_gives (g.parts (by simp)) hpos
  case h_14 => simp [declares] at hkind

/-- Where no keyword of declarations follows, a node without a payload stands for what is missing. That
happens only behind decorators. -/
theorem declarationAfterModifiers_gives (g : Sofar env rank took r m s (held start))
    (hpos : start.pos = r.pos) (hdecorated : declares s.token.kind = true ∨ IsFilled start.decorators) :
    (declarationAfterModifiers start).Ends env s
      fun id t => Handed env.file.text took r m t (held id) := by
  by_cases hkind : declares s.token.kind = true
  · exact g.last (declarationAfterModifiers_takes g.mark hpos hkind)
  obtain ⟨list, hlist, hne⟩ := hdecorated.resolve_left hkind
  refine .kind ?_
  split
  case h_14 =>
    refine g.step (errorHere_gives g.ready.ok _ _) fun _ t g => ?_
    exact g.finishRuled hpos (by simp [Payload.fields]) rfl (Node.lawful_of_decorators rfl hlist hne)
  all_goals
    rename_i hword
    refine absurd ?_ hkind
    rw [hword]
    rfl

/-- A declaration takes a token: an at sign, a modifier or a keyword. -/
theorem declaration_takes (h : env.Ready rank s)
    (hstarts : s.token.kind = .punct .atSign ∨ startsDeclaration.answer env s = true) :
    declaration.Gives env true s s := by
  refine .nodePos ((decorators_ends h).bind fun decorators t ⟨hrun, htook⟩ => ?_)
  rcases htook with ⟨-, htook, hfilled⟩ | ⟨hno, rfl⟩
  · have g := (Sofar.start h).goTook hrun htook
    refine g.step (modifiers_gives _ g.ready) fun modifiers u g => ?_
    exact declarationAfterModifiers_gives (g.parts (by simp)) rfl (.inr hfilled)
  refine (Ends.and (modifiers_ends false h) (modifiers_declares h (hstarts.resolve_left hno))).bind
    fun modifiers u ⟨⟨hmodifiers, _⟩, hdeclares⟩ => ?_
  have g : Sofar env rank false t t u (held { pos := t.pos, decorators, modifiers : DeclarationStart }) :=
    (((Sofar.start h).go hrun).go hmodifiers).parts (by simp)
  refine (declarationAfterModifiers_takes g.mark rfl hdeclares).mono fun id v hv => ?_
  exact ⟨hv.run, Nat.le_trans g.forward hv.forward, fun _ => Nat.lt_of_le_of_lt g.forward (hv.ahead rfl)⟩

end Parser

end ScriptSyntax
