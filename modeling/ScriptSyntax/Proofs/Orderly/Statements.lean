/-
  ScriptSyntax/Proofs/Orderly/Statements.lean
  ===========================================
  JSX, declarations and statements are orderly.
-/
import ScriptSyntax.Grammar.File
import ScriptSyntax.Proofs.Orderly.Expressions

namespace ScriptSyntax.Parser

variable {moves : Bool}

/-! ## 1. Tags -/

theorem tagName_orderly (tag : NodeId) : Orderly moves (tagName tag) := by
  refine .node (fun _ _ => rfl) fun n => ?_
  split <;> exact .pure _

theorem sourceOf_orderly (id : NodeId) : Orderly moves (sourceOf id) :=
  .read (fun _ _ _ htext => by rw [htext]) fun _ => .bind (tokenStart_orderly _) fun _ =>
    .node (fun _ _ => rfl) fun _ => .pure _

theorem jsxName_orderly : Orderly true jsxName := by
  refine .bind .nodePos fun _ => .bind (.advance _) fun _ => .bind (.isAtKeyword _) fun _ => ?_
  extract_lets rest
  have hrest (first : NodeId) : Orderly true (rest first) :=
    .repeating (fun _ => .bind (.acceptPunct _) fun _ => .ite
      (.bind (nameAfterDot_orderly _) fun _ => .map (.finishProduction _ _ _)) (.pure _)) _
  exact .ite (.bind .tokenNode hrest) (.bind name_orderly hrest)

theorem jsxExpression_orderly (inTag : Bool) : Orderly true (jsxExpression inTag) := by
  refine .bind .nodePos fun pos => .bind (.expectPunct _) fun _ => .ite ?_ (.pure _)
  refine .bind (.isAtPunct _) fun _ => ?_
  extract_lets rest
  have hrest (parts : Option NodeId × Option NodeId) : Orderly true (rest parts) := by
    refine .ite (.bind (.expectPunct _) fun _ => .map (.finishProduction _ _ _)) ?_
    refine .bind (.require _ _) fun _ => .ite ?_ (.map (.finishProduction _ _ _))
    exact .bind (.advance _) fun _ => .map (.finishProduction _ _ _)
  refine .ite (.bind (.pure _) hrest) (.bind (.acceptToken _) fun _ => ?_)
  exact .bind (.parse trivial) fun _ => .bind (.pure _) hrest

/-! ## 2. Attributes -/

theorem jsxSpreadAttribute_orderly : Orderly true jsxSpreadAttribute :=
  .bind .nodePos fun _ => .bind (.expectPunct _) fun _ => .bind (.expectPunct _) fun _ =>
    .bind (.parse trivial) fun _ => .bind (.expectPunct _) fun _ => .finishProduction _ _ _

theorem jsxAttributeValue_orderly : Orderly true jsxAttributeValue := by
  refine .bind (.advance _) fun _ => .bind .kind fun k => ?_
  split
  · exact .map .literalNode
  · exact jsxExpression_orderly _

theorem jsxAttribute_orderly : Orderly true jsxAttribute := by
  refine .bind (.isAtPunct _) fun _ => .ite jsxSpreadAttribute_orderly ?_
  refine .bind .nodePos fun _ => .bind (.advance _) fun _ => .bind name_orderly fun _ => ?_
  refine .bind (.isAtPunct _) fun _ => ?_
  extract_lets rest
  have hrest (initializer : Option NodeId) : Orderly true (rest initializer) := .finishProduction _ _ _
  exact .ite (.bind jsxAttributeValue_orderly hrest) (.bind (.pure _) hrest)

theorem jsxAttributes_orderly : Orderly true jsxAttributes :=
  .bind .nodePos fun _ => .bind (elements_orderly _ jsxAttribute_orderly) fun _ =>
    .finishProduction _ _ _

theorem jsxTagEnd_orderly (inExpression : Bool) : Orderly true (jsxTagEnd inExpression) :=
  .ite (.bind (.expectPunct _) fun _ => .pure _) (.bind (.require _ _) fun _ => .advance _)

theorem jsxOpening_orderly (inExpression : Bool) : Orderly true (jsxOpening inExpression) := by
  refine .bind .nodePos fun _ => .bind (.expectPunct _) fun _ => .bind (.isAtPunct _) fun _ => .ite ?_ ?_
  · exact .bind (.advance _) fun _ => .finishProduction _ _ _
  · refine .bind jsxName_orderly fun _ => .bind jsxAttributes_orderly fun _ => ?_
    refine .bind (.isAtPunct _) fun _ => .ite (.bind (.advance _) fun _ => .finishProduction _ _ _) ?_
    exact .bind (.expectPunct _) fun _ => .bind (jsxTagEnd_orderly _) fun _ => .finishProduction _ _ _

theorem jsxClosing_orderly (inExpression : Bool) : Orderly true (jsxClosing inExpression) :=
  .bind .nodePos fun _ => .bind (.expectPunct _) fun _ => .bind jsxName_orderly fun _ =>
    .bind (jsxTagEnd_orderly _) fun _ => .finishProduction _ _ _

theorem jsxClosingFragment_orderly (inExpression : Bool) :
    Orderly true (jsxClosingFragment inExpression) := by
  refine .bind .nodePos fun pos => .bind (.expectPunct _) fun _ => .bind isName_orderly fun _ => ?_
  extract_lets rest
  have hrest : Orderly true (rest ()) := .bind (jsxTagEnd_orderly _) fun _ => .finishProduction _ _ _
  refine .ite (.bind jsxName_orderly fun _ => .node (fun _ _ => rfl) fun _ => ?_) hrest
  exact .bind (.errorAtRange _ _ _ _) fun _ => hrest

/-! ## 3. Children and elements -/

theorem jsxText_orderly : Orderly true jsxText :=
  .bind .token fun _ => .bind (.advance _) fun _ => .finishNode _ _ _

theorem unclosedJsx_orderly (opening : NodeId) : Orderly true (unclosedJsx opening) := by
  refine .bind (.kindOf _) fun _ => .ite (.node (fun _ _ => rfl) fun _ => .errorAtRange _ _ _ _) ?_
  refine .bind (tagName_orderly _) fun name => .bind (tokenStart_orderly _) fun _ => ?_
  exact .node (fun _ _ => rfl) fun _ => .bind (sourceOf_orderly _) fun _ => .errorAtRange _ _ _ _

theorem jsxChild_orderly (opening : NodeId) : Orderly true (jsxChild opening) := by
  refine .bind (.advance _) fun _ => .bind .kind fun k => ?_
  split
  · exact .bind (unclosedJsx_orderly _) fun _ => .pure _
  · exact .pure _
  · exact .pure _
  · exact .map jsxText_orderly
  · exact .map jsxText_orderly
  · exact jsxExpression_orderly _
  · exact .map (.nested _ (.parse trivial))
  · exact .bind (.fail _) fun _ => .pure _

theorem jsxChildren_orderly (opening : NodeId) : Orderly true (jsxChildren opening) := by
  refine .inList _ (.bind .nodePos fun _ => .bind (.repeating (fun read => ?_) _) fun _ => .map .nodePos)
  refine .bind (jsxChild_orderly _) fun child => ?_
  cases child with
  | some child => exact .pure _
  | none => exact .pure _

theorem checkTagNames_orderly (opening closing : NodeId) : Orderly true (checkTagNames opening closing) := by
  refine .bind (tagName_orderly _) fun openingName => .bind (tagName_orderly _) fun closingName => ?_
  refine .get (fun s b => ?_) fun s => ?_
  · have hsame : (s.stamped b).arena.sameTagName? openingName closingName
        = s.arena.sameTagName? openingName closingName := Arena.sameTagName?_stamped _ _ _ _
    rw [hsame]
  · split
    · exact .fail _
    · exact .pure _
    · exact .node (fun _ _ => rfl) fun _ => .bind (sourceOf_orderly _) fun _ => .errorAtRange _ _ _ _

theorem jsxElementRest_orderly (pos : Nat) (opening : NodeId) (inExpression : Bool) :
    Orderly true (jsxElementRest pos opening inExpression) :=
  .bind (jsxChildren_orderly _) fun _ => .bind (jsxClosing_orderly _) fun _ =>
    .bind (checkTagNames_orderly _ _) fun _ => .finishProduction _ _ _

theorem jsxFragmentRest_orderly (pos : Nat) (opening : NodeId) (inExpression : Bool) :
    Orderly true (jsxFragmentRest pos opening inExpression) :=
  .bind (jsxChildren_orderly _) fun _ => .bind (jsxClosingFragment_orderly _) fun _ =>
    .finishProduction _ _ _

theorem joinJsxSiblings_orderly (first second : NodeId) : Orderly true (joinJsxSiblings first second) :=
  .bind (.errorHere _ _) fun _ => .node (fun _ _ => rfl) fun _ => .node (fun _ _ => rfl) fun _ =>
    .bind (.finishAt rfl) fun _ => .finishAt rfl

theorem nestedJsxElement_orderly : Orderly true nestedJsxElement :=
  .bind (.nested _ (.parse trivial)) fun (_, _) => .pure _

/-- What is done with an element after its opening tag is orderly. -/
theorem jsxElement_eq_bind (inExpression : Bool) : ∃ f : Nat → NodeId → Parser NodeId,
    jsxElement inExpression = (nodePos >>= fun pos => jsxOpening inExpression >>= f pos)
      ∧ ∀ pos opening, Orderly true (f pos opening) := by
  refine ⟨_, rfl, fun pos opening => .bind (.kindOf _) fun k => ?_⟩
  extract_lets rest
  have hrest (result : NodeId) : Orderly true (rest result) := by
    refine .ite (.bind (.isAtPunct _) fun _ => .ite ?_ (.pure _)) (.pure _)
    refine .bind (.attempt nestedJsxElement_orderly) fun sibling => ?_
    cases sibling with
    | some sibling => exact joinJsxSiblings_orderly _ _
    | none => exact .pure _
  split
  · exact .bind (jsxElementRest_orderly _ _ _) hrest
  · exact .bind (jsxFragmentRest_orderly _ _ _) hrest
  · exact .bind (.pure _) hrest

theorem jsxElement_orderly (inExpression : Bool) : Orderly true (jsxElement inExpression) := by
  obtain ⟨f, heq, hf⟩ := jsxElement_eq_bind inExpression
  rw [heq]
  exact .bind .nodePos fun _ => .bind (jsxOpening_orderly _) (hf _)

/-! ## 4. Namespaces, imports and exports -/

theorem moduleBlock_orderly : Orderly true moduleBlock := by
  refine .bind .nodePos fun pos => .bind (.expectPunct _) fun _ => ?_
  extract_lets rest
  have hrest (statements : NodeArray) : Orderly true (rest statements) := .finishProduction _ _ _
  refine .ite (.bind (elements_orderly _ parseStatement_orderly) fun _ => ?_) (.bind .missingList hrest)
  exact .bind (.expectPunct _) fun _ => .bind (.pure _) hrest

theorem namespaceDeclaration_orderly (start : DeclarationStart) {flags : NodeFlags}
    (h : flags.context = {}) : Orderly true (namespaceDeclaration start flags) := by
  refine .bind identifier_orderly fun name => .bind (.acceptPunct _) fun _ => ?_
  extract_lets rest inner
  have hrest (body : NodeId) : Orderly true (rest body) := .finishFlaggedDeclaration _ _ h _
  exact .ite (.bind .nodePos fun _ => .bind (.parse rfl) hrest) (.bind moduleBlock_orderly hrest)

theorem optionalModuleBlock_orderly : Orderly true optionalModuleBlock :=
  .bind (.isAtPunct _) fun _ => .ite (.map moduleBlock_orderly) (.bind .semicolon fun _ => .pure _)

theorem globalDeclaration_orderly (start : DeclarationStart) : Orderly true (globalDeclaration start) :=
  .bind identifier_orderly fun _ => .bind optionalModuleBlock_orderly fun _ =>
    .finishFlaggedDeclaration _ _ rfl _

theorem quotedModuleDeclaration_orderly (start : DeclarationStart) :
    Orderly true (quotedModuleDeclaration start) :=
  .bind .literalNode fun _ => .bind optionalModuleBlock_orderly fun _ => .finishDeclaration _ _ _

theorem moduleDeclaration_orderly (start : DeclarationStart) : Orderly true (moduleDeclaration start) := by
  refine .bind (.isAtKeyword _) fun _ => .ite (globalDeclaration_orderly _) ?_
  refine .bind (.acceptKeyword _) fun _ => .ite (namespaceDeclaration_orderly _ rfl) ?_
  exact .bind (.expectKeyword _) fun _ => .bind (.isAt _) fun _ =>
    .ite (quotedModuleDeclaration_orderly _) (namespaceDeclaration_orderly _ rfl)

theorem moduleSpecifier_orderly : Orderly true moduleSpecifier :=
  .bind (.isAt _) fun _ => .ite .literalNode (.parse trivial)

theorem reservedWordHere_orderly : Orderly moves reservedWordHere :=
  .bind .token fun _ => .bind isIdentifier_orderly fun _ => .ite (.pure _) (.pure _)

theorem specifier_orderly (kind : NodeKind) : Orderly true (specifier kind) := by
  refine .bind .nodePos fun pos => .bind reservedWordHere_orderly fun firstReserved => ?_
  refine .bind name_orderly fun first => .bind (.acceptKeyword _) fun _ => ?_
  extract_lets rest
  have hrest (parts : Option NodeId × NodeId × Option Token) : Orderly true (rest parts) := by
    obtain ⟨propertyName, localName, reserved⟩ := parts
    cases reserved with
    | none => exact .ite (.finishProduction _ _ _) (.finishProduction _ _ _)
    | some t =>
      exact .ite (.bind (.errorAtRange _ _ _ _) fun _ => .finishProduction _ _ _) (.finishProduction _ _ _)
  refine .ite (.bind reservedWordHere_orderly fun _ => ?_) (.bind (.pure _) hrest)
  exact .bind name_orderly fun _ => .bind (.pure _) hrest

theorem specifiers_orderly (kind element : NodeKind) : Orderly true (specifiers kind element) :=
  .bind .nodePos fun _ => .bind (bracketed_orderly _ (specifier_orderly _) _ _) fun _ =>
    .finishProduction _ _ _

theorem namespaceImport_orderly : Orderly true namespaceImport :=
  .bind .nodePos fun _ => .bind (.expectPunct _) fun _ => .bind (.expectKeyword _) fun _ =>
    .bind identifier_orderly fun _ => .finishProduction _ _ _

theorem importClause_orderly (name : Option NodeId) (pos : Nat) : Orderly true (importClause name pos) := by
  refine .bind (.or (.pure _) (.acceptPunct _)) fun _ => ?_
  extract_lets rest
  have hrest (bindings : Option NodeId) : Orderly true (rest bindings) := .finishProduction _ _ _
  refine .ite (.bind (.isAtPunct _) fun _ => ?_) (.bind (.pure _) hrest)
  exact .ite (.bind namespaceImport_orderly fun _ => .bind (.pure _) hrest)
    (.bind (specifiers_orderly _ _) fun _ => .bind (.pure _) hrest)

theorem externalModuleReference_orderly : Orderly true externalModuleReference :=
  .bind .nodePos fun _ => .bind (.expectKeyword _) fun _ => .bind (.expectPunct _) fun _ =>
    .bind moduleSpecifier_orderly fun _ => .bind (.expectPunct _) fun _ => .finishProduction _ _ _

theorem importEquals_orderly (start : DeclarationStart) (name : NodeId) :
    Orderly true (importEquals start name) := by
  refine .bind (.expectPunct _) fun _ =>
    .bind (.and (.isAtKeyword _) (peek_orderly (.isAtPunct _))) fun _ => ?_
  extract_lets rest
  have hrest (reference : NodeId) : Orderly true (rest reference) :=
    .bind .semicolon fun _ => .finishDeclaration _ _ _
  exact .ite (.bind externalModuleReference_orderly hrest) (.bind (entityName_orderly _ _) hrest)

theorem importFrom_orderly (start : DeclarationStart) (clausePos : Nat) (name : Option NodeId) :
    Orderly true (importFrom start clausePos name) := by
  refine .bind (.or (.pure _) (.or (.isAtPunct _) (.isAtPunct _))) fun clauseFollows => ?_
  extract_lets rest
  have hrest (clause : Option NodeId) : Orderly true (rest clause) :=
    .bind moduleSpecifier_orderly fun _ => .bind .semicolon fun _ => .finishDeclaration _ _ _
  refine .ite (.bind (importClause_orderly _ _) fun _ => ?_) (.bind (.pure _) hrest)
  exact .bind (.expectKeyword _) fun _ => .bind (.pure _) hrest

theorem importDeclaration_orderly (start : DeclarationStart) : Orderly true (importDeclaration start) := by
  refine .bind (.expectKeyword _) fun _ => .bind .nodePos fun _ => .bind isIdentifier_orderly fun _ =>
    .ite (.bind identifier_orderly fun name => .bind .kind fun k => ?_) (importFrom_orderly _ _ _)
  split
  · exact importFrom_orderly _ _ _
  · exact importFrom_orderly _ _ _
  · exact importEquals_orderly _ _

theorem exportAssignment_orderly (start : DeclarationStart) : Orderly true (exportAssignment start) := by
  refine .bind (.acceptPunct _) fun isEquals => ?_
  extract_lets rest
  have hrest : Orderly true (rest ()) :=
    .bind (.parse trivial) fun _ => .bind .semicolon fun _ => .finishDeclaration _ _ _
  exact .ite (.bind (.expectKeyword _) fun _ => hrest) hrest

theorem namespaceExport_orderly (start : DeclarationStart) : Orderly true (namespaceExport start) :=
  .bind (.expectKeyword _) fun _ => .bind (.expectKeyword _) fun _ => .bind identifier_orderly fun _ =>
    .bind .semicolon fun _ => .finishDeclaration _ _ _

theorem exportNames_orderly (start : DeclarationStart) : Orderly true (exportNames start) := by
  refine .bind (.acceptPunct _) fun _ => ?_
  extract_lets rest
  have hrest (parts : Option NodeId × Option NodeId) : Orderly true (rest parts) :=
    .bind .semicolon fun _ => .finishDeclaration _ _ _
  refine .ite (.bind (.expectKeyword _) fun _ => ?_) (.bind (specifiers_orderly _ _) fun clause => ?_)
  · exact .bind moduleSpecifier_orderly fun _ => .bind (.pure _) hrest
  · refine .bind (.or (.isAtKeyword _) (onSameLine_orderly (.isAt _))) fun _ => ?_
    extract_lets rest'
    have hrest' (source : Option NodeId) : Orderly true (rest' source) := .bind (.pure _) hrest
    refine .ite (.bind (.expectKeyword _) fun _ => ?_) (.bind (.pure _) hrest')
    exact .bind moduleSpecifier_orderly fun _ => .bind (.pure _) hrest'

theorem exportDeclaration_orderly (start : DeclarationStart) : Orderly true (exportDeclaration start) := by
  refine .bind .kind fun k => ?_
  split
  · exact exportAssignment_orderly _
  · exact exportAssignment_orderly _
  · exact namespaceExport_orderly _
  · exact exportNames_orderly _

/-! ## 5. Other declarations -/

theorem typeAliasDeclaration_orderly (start : DeclarationStart) :
    Orderly true (typeAliasDeclaration start) :=
  .bind (.expectKeyword _) fun _ => .bind identifier_orderly fun _ => .bind typeParameters_orderly fun _ =>
    .bind (.expectPunct _) fun _ => .bind (.parse trivial) fun _ => .bind .semicolon fun _ =>
      .finishDeclaration _ _ _

theorem enumMember_orderly : Orderly true enumMember :=
  .bind .nodePos fun _ => .bind propertyName_orderly fun _ => .bind (.allowIn initializer_orderly) fun _ =>
    .finishProduction _ _ _

theorem enumDeclaration_orderly (start : DeclarationStart) : Orderly true (enumDeclaration start) :=
  .bind (.expectKeyword _) fun _ => .bind identifier_orderly fun _ =>
    .bind (bracketed_orderly _ enumMember_orderly _ _) fun _ => .finishDeclaration _ _ _

theorem declarationAfterModifiers_orderly (start : DeclarationStart) :
    Orderly true (declarationAfterModifiers start) := by
  refine .bind .kind fun k => ?_
  split
  case h_1 | h_2 | h_3 => exact variableStatement_orderly _
  case h_4 => exact functionDeclaration_orderly _
  case h_5 => exact classLike_orderly _ _
  case h_6 => exact interfaceDeclaration_orderly _
  case h_7 => exact typeAliasDeclaration_orderly _
  case h_8 => exact enumDeclaration_orderly _
  case h_9 | h_10 | h_11 => exact moduleDeclaration_orderly _
  case h_12 => exact importDeclaration_orderly _
  case h_13 => exact .bind .nextToken fun _ => exportDeclaration_orderly _
  case h_14 => exact .bind (.errorHere _ _) fun _ => .finishDeclaration _ _ _

theorem declaration_orderly : Orderly true declaration :=
  .bind .nodePos fun _ => .bind decorators_orderly fun _ => .bind (modifiers_orderly _) fun _ =>
    declarationAfterModifiers_orderly _

/-! ## 6. Statements -/

theorem headExpression_orderly : Orderly true headExpression :=
  .bind .tokenPos fun _ => .bind (.expectPunct _) fun _ => .bind (.allowIn (.parse trivial)) fun _ =>
    .bind (.expectClosing _ _ _) fun _ => .pure _

theorem ifStatement_orderly : Orderly true ifStatement := by
  refine .bind .nodePos fun pos => .bind (.expectKeyword _) fun _ => .bind headExpression_orderly fun _ => ?_
  refine .bind (.parse trivial) fun _ => .bind (.acceptKeyword _) fun _ => ?_
  extract_lets rest
  have hrest (whenFalse : Option NodeId) : Orderly true (rest whenFalse) := .finishProduction _ _ _
  exact .ite (.bind (.parse trivial) fun _ => .bind (.pure _) hrest) (.bind (.pure _) hrest)

theorem doStatement_orderly : Orderly true doStatement :=
  .bind .nodePos fun _ => .bind (.expectKeyword _) fun _ => .bind (.parse trivial) fun _ =>
    .bind (.expectKeyword _) fun _ => .bind headExpression_orderly fun _ =>
      .bind (.acceptPunct _) fun _ => .finishProduction _ _ _

theorem headedStatement_orderly (keyword : Keyword) (kind : NodeKind) :
    Orderly true (headedStatement keyword kind) :=
  .bind .nodePos fun _ => .bind (.expectKeyword _) fun _ => .bind headExpression_orderly fun _ =>
    .bind (.parse trivial) fun _ => .finishProduction _ _ _

theorem loopExpression_orderly (absent : Kind → Bool) : Orderly true (loopExpression absent) :=
  .bind .kind fun _ => .ite (.pure _) (.map (.allowIn (.parse trivial)))

theorem loopInitializer_orderly : Orderly true loopInitializer := by
  refine .bind .kind fun k => ?_
  split
  case h_1 => exact .pure _
  case h_5 => exact .map (.disallowIn (.parse trivial))
  all_goals exact .map (variableDeclarationList_orderly _)

theorem forInOfRest_orderly (pos : Nat) (awaitWord initializer : Option NodeId) (overKeys : Bool) :
    Orderly true (forInOfRest pos awaitWord initializer overKeys) := by
  refine .bind (.expectKeyword _) fun _ => ?_
  extract_lets rest
  have hsource : Orderly true (parse (if overKeys then .expression else .assignment)) := by
    cases overKeys <;> exact .parse trivial
  have hrest (initializer : NodeId) : Orderly true (rest initializer) :=
    .bind (.allowIn hsource) fun _ => .bind (.expectPunct _) fun _ => .bind (.parse trivial) fun _ =>
      .finishProduction _ _ _
  cases initializer with
  | some id => exact .bind (.pure _) hrest
  | none => exact .bind (.missingBefore _ _ _) hrest

theorem forRest_orderly (pos : Nat) (initializer : Option NodeId) :
    Orderly true (forRest pos initializer) :=
  .bind (.expectPunct _) fun _ => .bind (loopExpression_orderly _) fun _ => .bind (.expectPunct _) fun _ =>
    .bind (loopExpression_orderly _) fun _ => .bind (.expectPunct _) fun _ =>
      .bind (.parse trivial) fun _ => .finishProduction _ _ _

theorem forStatement_orderly : Orderly true forStatement := by
  refine .bind .nodePos fun _ => .bind (.expectKeyword _) fun _ => .bind (.acceptToken _) fun _ => ?_
  refine .bind (.expectPunct _) fun _ => .bind loopInitializer_orderly fun _ => ?_
  refine .ite (forInOfRest_orderly _ _ _ _) (.bind .kind fun k => ?_)
  split
  · exact forInOfRest_orderly _ _ _ _
  · exact forInOfRest_orderly _ _ _ _
  · exact forRest_orderly _ _

theorem jumpStatement_orderly (kind : NodeKind) : Orderly true (jumpStatement kind) := by
  refine .bind .nodePos fun pos => .bind .nextToken fun _ => .bind .canEndStatement fun _ => ?_
  extract_lets rest
  have hrest (label : Option NodeId) : Orderly true (rest label) :=
    .bind .semicolon fun _ => .finishProduction _ _ _
  exact .ite (.bind (.pure _) hrest) (.bind identifier_orderly fun _ => .bind (.pure _) hrest)

theorem returnStatement_orderly : Orderly true returnStatement := by
  refine .bind .nodePos fun pos => .bind (.expectKeyword _) fun _ => .bind .canEndStatement fun _ => ?_
  extract_lets rest
  have hrest (value : Option NodeId) : Orderly true (rest value) :=
    .bind .semicolon fun _ => .finishProduction _ _ _
  exact .ite (.bind (.pure _) hrest) (.bind (.allowIn (.parse trivial)) fun _ => .bind (.pure _) hrest)

theorem throwStatement_orderly : Orderly true throwStatement := by
  refine .bind .nodePos fun pos => .bind (.expectKeyword _) fun _ => .bind .afterLineBreak fun _ => ?_
  extract_lets rest
  have hrest (value : NodeId) : Orderly true (rest value) :=
    .bind .semicolon fun _ => .finishProduction _ _ _
  exact .ite (.bind (.missingHere _ _ _) hrest) (.bind (.allowIn (.parse trivial)) hrest)

theorem switchClause_orderly : Orderly true switchClause := by
  refine .bind .nodePos fun pos => .bind (.acceptKeyword _) fun _ => ?_
  extract_lets rest
  have hrest (guard : Option NodeId) : Orderly true (rest guard) :=
    .bind (.expectPunct _) fun _ => .bind (elements_orderly _ parseStatement_orderly) fun _ =>
      .finishProduction _ _ _
  exact .ite (.bind (.allowIn (.parse trivial)) fun _ => .bind (.pure _) hrest)
    (.bind (.expectKeyword _) fun _ => .bind (.pure _) hrest)

theorem switchStatement_orderly : Orderly true switchStatement :=
  .bind .nodePos fun _ => .bind (.expectKeyword _) fun _ => .bind headExpression_orderly fun _ =>
    .bind .nodePos fun _ => .bind (.expectPunct _) fun _ =>
      .bind (elements_orderly _ switchClause_orderly) fun _ => .bind (.expectPunct _) fun _ =>
        .bind (.finishProduction _ _ _) fun _ => .finishProduction _ _ _

theorem catchClause_orderly : Orderly true catchClause := by
  refine .bind .nodePos fun pos => .bind (.expectKeyword _) fun _ => .bind (.acceptPunct _) fun _ => ?_
  extract_lets rest
  have hrest (binding : Option NodeId) : Orderly true (rest binding) :=
    .bind block_orderly fun _ => .finishProduction _ _ _
  refine .ite (.bind variableDeclaration_orderly fun _ => ?_) (.bind (.pure _) hrest)
  exact .bind (.expectPunct _) fun _ => .bind (.pure _) hrest

theorem tryStatement_orderly : Orderly true tryStatement := by
  refine .bind .nodePos fun pos => .bind (.expectKeyword _) fun _ => .bind block_orderly fun body => ?_
  refine .bind (.isAtKeyword _) fun _ => ?_
  extract_lets rest
  have hrest (handler : Option NodeId) : Orderly true (rest handler) := by
    refine .bind (.or (.pure _) (.isAtKeyword _)) fun _ => ?_
    extract_lets rest'
    have hrest' (finalizer : Option NodeId) : Orderly true (rest' finalizer) := .finishProduction _ _ _
    exact .ite (.bind (.expectKeyword _) fun _ => .bind block_orderly fun _ => .bind (.pure _) hrest')
      (.bind (.pure _) hrest')
  exact .ite (.bind catchClause_orderly fun _ => .bind (.pure _) hrest) (.bind (.pure _) hrest)

theorem emptyStatement_orderly : Orderly true emptyStatement :=
  .bind .nodePos fun _ => .bind .nextToken fun _ => .finishProduction _ _ _

theorem debuggerStatement_orderly : Orderly true debuggerStatement :=
  .bind .nodePos fun _ => .bind .nextToken fun _ => .bind .semicolon fun _ => .finishProduction _ _ _

theorem expressionOrLabeled_orderly : Orderly true expressionOrLabeled := by
  refine .bind .nodePos fun _ => .bind (.allowIn (.parse trivial)) fun _ => .bind (.kindOf _) fun _ => ?_
  refine .bind (.and (.pure _) (.acceptPunct _)) fun _ => .ite ?_ ?_
  · exact .bind (.parse trivial) fun _ => .finishProduction _ _ _
  · exact .bind .semicolon fun _ => .finishProduction _ _ _

theorem declarationOrExpression_orderly : Orderly true declarationOrExpression :=
  .bind startsDeclaration_orderly fun _ => .ite declaration_orderly expressionOrLabeled_orderly

theorem statementBody_orderly : Orderly true statementBody := by
  refine .bind .nodePos fun _ => .bind .kind fun k => ?_
  split
  case h_1 => exact emptyStatement_orderly
  case h_2 => exact block_orderly
  case h_3 => exact variableStatement_orderly _
  case h_4 =>
    exact .bind letDeclares_orderly fun _ =>
      .ite (variableStatement_orderly _) expressionOrLabeled_orderly
  case h_5 => exact functionDeclaration_orderly _
  case h_6 => exact classLike_orderly _ _
  case h_7 => exact ifStatement_orderly
  case h_8 => exact doStatement_orderly
  case h_9 | h_14 => exact headedStatement_orderly _ _
  case h_10 => exact forStatement_orderly
  case h_11 | h_12 => exact jumpStatement_orderly _
  case h_13 => exact returnStatement_orderly
  case h_15 => exact switchStatement_orderly
  case h_16 => exact throwStatement_orderly
  case h_17 | h_18 | h_19 => exact tryStatement_orderly
  case h_20 => exact debuggerStatement_orderly
  case h_21 => exact declaration_orderly
  case h_39 => exact expressionOrLabeled_orderly
  all_goals exact declarationOrExpression_orderly

theorem statement_orderly : Orderly true statement :=
  .bind .nodePos fun _ => .bind (.nested _ statementBody_orderly) fun (_, _) =>
    .ite (.pure _) (.finishProduction _ _ _)

/-! ## 7. Productions and files -/

/-- Every production is orderly. -/
theorem body_orderly {q : Production} (h : q.Unstamped) : Orderly true q.body := by
  cases q with
  | statement => exact statement_orderly
  | expression => exact expression_orderly
  | assignment => exact assignment_orderly
  | binary level => exact binary_orderly level
  | simpleUnary => exact simpleUnary_orderly
  | leftHandSide => exact leftHandSide_orderly
  | primary => exact primary_orderly
  | type => exact type_orderly
  | typeOperator => exact typeOperator_orderly
  | bindingName => exact bindingName_orderly
  | jsxElement inExpression => exact jsxElement_orderly inExpression
  | namespaceDeclaration start flags => exact namespaceDeclaration_orderly start h

theorem root_orderly (statements : NodeArray) : Orderly true (root statements) :=
  .bind .tokenNode fun _ => .read (fun _ _ _ htext => by rw [htext]) fun _ => .finishAt rfl

theorem sourceFile_orderly : Orderly true sourceFile := by
  refine .bind .nextToken fun _ => .bind (elements_orderly _ parseStatement_orderly) fun statements => ?_
  exact .bind .kind fun k => .ite (.bind (.fail _) fun _ => root_orderly _) (root_orderly _)

end ScriptSyntax.Parser

namespace ScriptSyntax

/-! ## 8. The surroundings of a file -/

variable {file file' : SourceFacts}

/-- However many calls may enclose each other, they only add to what there was. -/
theorem Surroundings.adds_run (file : SourceFacts) (count : Nat) :
    Surroundings.Adds ⟨file, Production.run file count⟩ := by
  induction count with
  | zero =>
    intro q _ s
    have hfail : Orderly true (Parser.fail .outOfSteps) := .fail _
    have henv : Surroundings.Adds ⟨file, fun _ s => (⟨0⟩, s)⟩ := fun _ _ s => .refl s
    exact hfail.adds henv s
  | succ count ih => exact fun q hq s => (Parser.body_orderly hq).adds ih s

theorem Surroundings.adds_surroundings (file : SourceFacts) : file.surroundings.Adds :=
  adds_run file _

/-- Two files with one name and one text. Tags are part of the syntax in both or in neither, unless the
text has no opening angle bracket. -/
structure SourceFacts.Twins (file file' : SourceFacts) : Prop where
  name : file'.name = file.name
  text : file'.text = file.text
  variant : file'.variant = file.variant ∨ '<' ∉ file.text

theorem SourceFacts.Twins.run (h : file.Twins file') (b : Bool) (count : Nat) :
    Surroundings.Twins b ⟨file, Production.run file count⟩ ⟨file', Production.run file' count⟩ := by
  induction count with
  | zero => exact ⟨h.name, h.text, h.variant, fun _ _ _ hs => ⟨rfl, hs⟩⟩
  | succ count ih =>
    exact ⟨h.name, h.text, h.variant, fun _ hq s hs => (Parser.body_orderly hq).twin ih s hs⟩

theorem SourceFacts.Twins.surroundings (h : file.Twins file') (b : Bool) :
    Surroundings.Twins b file.surroundings file'.surroundings := by
  have hlimit : file'.callLimit = file.callLimit := by
    unfold SourceFacts.callLimit
    rw [h.text]
  have hrun := h.run b file.callLimit
  unfold SourceFacts.surroundings
  rw [hlimit]
  exact hrun

/-- Twins are parsed alike, stamp apart. -/
theorem Orderly.runOn {α : Type} {p : Parser α} (hp : Orderly true p) (h : file.Twins file')
    (context : ContextFlags) (b : Bool) :
    p.runOn file' (context.stamped b) = ((p.runOn file context).1, (p.runOn file context).2.stamped b) := by
  have hinitial : ParserState.initial (context.stamped b) = (ParserState.initial context).stamped b := by
    simp [ParserState.initial, ParserState.stamped, ParserState.inContext, Arena.stamped, Arena.empty]
  unfold Parser.runOn
  rw [hinitial]
  have hmarked : (ParserState.initial context).token.Marked file.text := by
    intro p hkind
    cases hkind
  exact (hp.twin (h.surroundings b) (.initial context) hmarked).1

end ScriptSyntax
