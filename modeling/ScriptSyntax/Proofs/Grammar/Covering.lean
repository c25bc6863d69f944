/-
  ScriptSyntax/Proofs/Grammar/Covering.lean
  =========================================
  Statements cover what was read for them.

  A statement starts where the parser stood and is finished last of all, so it
  ends where the parser stands then: nothing between belongs to no statement.
  It is finished in the surroundings it was started in, so it carries the context
  that holds around it.  This is a matter of how productions end and of nothing
  else, so it holds from every state and whatever the productions inside do.
-/
import ScriptSyntax.Proofs.Grammar.Productions

namespace ScriptSyntax

namespace Parser

/-! ## 1. Declarations -/

theorem variableStatement_covers (start : DeclarationStart) :
    (variableStatement start).Covers start.pos :=
  .bind fun _ => .bind fun _ => finishDeclaration_covers _ _ _

theorem functionDeclaration_covers (start : DeclarationStart) :
    (functionDeclaration start).Covers start.pos := by
  refine .bind fun _ => .bind fun asterisk => .bind fun _ => ?_
  extract_lets rest
  have hrest (name) : (rest name).Covers start.pos :=
    .bind fun _ => .bind fun _ => finishDeclaration_covers _ _ _
  exact .ite (.bind fun _ => hrest _) (.bind fun _ => hrest _)

theorem classLike_covers (kind : NodeKind) (start : DeclarationStart) :
    (classLike kind start).Covers start.pos :=
  .bind fun _ => .bind fun _ => .bind fun _ => .bind fun _ => .bind fun _ =>
    finishDeclaration_covers _ _ _

theorem interfaceDeclaration_covers (start : DeclarationStart) :
    (interfaceDeclaration start).Covers start.pos :=
  .bind fun _ => .bind fun _ => .bind fun _ => .bind fun _ => .bind fun _ =>
    finishDeclaration_covers _ _ _

theorem typeAliasDeclaration_covers (start : DeclarationStart) :
    (typeAliasDeclaration start).Covers start.pos :=
  .bind fun _ => .bind fun _ => .bind fun _ => .bind fun _ => .bind fun _ => .bind fun _ =>
    finishDeclaration_covers _ _ _

theorem enumDeclaration_covers (start : DeclarationStart) :
    (enumDeclaration start).Covers start.pos :=
  .bind fun _ => .bind fun _ => .bind fun _ => finishDeclaration_covers _ _ _

theorem namespaceDeclaration_covers (start : DeclarationStart) {flags : NodeFlags}
    (h : flags.context = {}) : (namespaceDeclaration start flags).Covers start.pos := by
  refine .bind fun name => .bind fun _ => ?_
  extract_lets rest
  have hrest (body) : (rest body).Covers start.pos := finish_covers h
  exact .ite (.bind fun _ => .bind fun _ => hrest _) (.bind fun _ => hrest _)

theorem moduleDeclaration_covers (start : DeclarationStart) :
    (moduleDeclaration start).Covers start.pos := by
  refine .bind fun _ => .ite ?_ (.bind fun _ => .ite ?_ (.bind fun _ => .bind fun _ => .ite ?_ ?_))
  · exact .bind fun _ => .bind fun _ => finish_covers rfl
  · exact namespaceDeclaration_covers _ rfl
  · exact .bind fun _ => .bind fun _ => finish_covers rfl
  · exact namespaceDeclaration_covers _ rfl

theorem importEquals_covers (start : DeclarationStart) (name : NodeId) :
    (importEquals start name).Covers start.pos := by
  refine .bind fun _ => .bind fun _ => ?_
  extract_lets rest
  have hrest (reference) : (rest reference).Covers start.pos :=
    .bind fun _ => finishDeclaration_covers _ _ _
  exact .ite (.bind fun _ => hrest _) (.bind fun _ => hrest _)

theorem importFrom_covers (start : DeclarationStart) (clausePos : Nat) (name : Option NodeId) :
    (importFrom start clausePos name).Covers start.pos := by
  refine .bind fun _ => ?_
  extract_lets rest
  have hrest (clause) : (rest clause).Covers start.pos :=
    .bind fun _ => .bind fun _ => finishDeclaration_covers _ _ _
  exact .ite (.bind fun _ => .bind fun _ => hrest _) (hrest _)

theorem importDeclaration_covers (start : DeclarationStart) :
    (importDeclaration start).Covers start.pos := by
  refine .bind fun _ => .bind fun _ => .bind fun _ => .ite (.bind fun name => .bind fun k => ?_) ?_
  · split
    · exact importFrom_covers _ _ _
    · exact importFrom_covers _ _ _
    · exact importEquals_covers _ _
  · exact importFrom_covers _ _ _

theorem exportAssignment_covers (start : DeclarationStart) :
    (exportAssignment start).Covers start.pos := by
  refine .bind fun isEquals => ?_
  extract_lets rest
  have hrest (u) : (rest u).Covers start.pos :=
    .bind fun _ => .bind fun _ => finishDeclaration_covers _ _ _
  exact .ite (.bind fun _ => hrest ()) (hrest ())

theorem namespaceExport_covers (start : DeclarationStart) :
    (namespaceExport start).Covers start.pos :=
  .bind fun _ => .bind fun _ => .bind fun _ => .bind fun _ => finishDeclaration_covers _ _ _

theorem exportNames_covers (start : DeclarationStart) : (exportNames start).Covers start.pos := by
  refine .bind fun _ => ?_
  extract_lets rest
  have hrest (parts) : (rest parts).Covers start.pos :=
    .bind fun _ => finishDeclaration_covers _ _ _
  refine .ite (.bind fun _ => .bind fun _ => .bind fun _ => hrest _) (.bind fun clause => .bind fun _ => ?_)
  extract_lets rest'
  have hrest' (source) : (rest' source).Covers start.pos := .bind fun _ => hrest _
  exact .ite (.bind fun _ => .bind fun _ => .bind fun _ => hrest' _) (.bind fun _ => hrest' _)

theorem exportDeclaration_covers (start : DeclarationStart) :
    (exportDeclaration start).Covers start.pos := by
  refine .bind fun k => ?_
  split
  · exact exportAssignment_covers _
  · exact exportAssignment_covers _
  · exact namespaceExport_covers _
  · exact exportNames_covers _

theorem declarationAfterModifiers_covers (start : DeclarationStart) :
    (declarationAfterModifiers start).Covers start.pos := by
  refine .bind fun k => ?_
  split
  case h_1 | h_2 | h_3 => exact variableStatement_covers _
  case h_4 => exact functionDeclaration_covers _
  case h_5 => exact classLike_covers _ _
  case h_6 => exact interfaceDeclaration_covers _
  case h_7 => exact typeAliasDeclaration_covers _
  case h_8 => exact enumDeclaration_covers _
  case h_9 | h_10 | h_11 => exact moduleDeclaration_covers _
  case h_12 => exact importDeclaration_covers _
  case h_13 => exact .bind fun _ => exportDeclaration_covers _
  case h_14 => exact .bind fun _ => finishDeclaration_covers _ _ _

theorem declaration_covers : declaration.CoversAll :=
  .nodePos fun _ => .bind fun _ => .bind fun _ => declarationAfterModifiers_covers _

/-! ## 2. Statements -/

theorem ifStatement_covers : ifStatement.CoversAll := by
  refine .nodePos fun pos => .bind fun _ => .bind fun _ => .bind fun _ => .bind fun _ => ?_
  extract_lets rest
  have hrest (whenFalse) : (rest whenFalse).Covers pos := finishProduction_covers _ _ _
  exact .ite (.bind fun _ => hrest _) (hrest _)

theorem doStatement_covers : doStatement.CoversAll :=
  .nodePos fun _ => .bind fun _ => .bind fun _ => .bind fun _ => .bind fun _ => .bind fun _ =>
    finishProduction_covers _ _ _

theorem headedStatement_covers (keyword : Keyword) (kind : NodeKind) :
    (headedStatement keyword kind).CoversAll :=
  .nodePos fun _ => .bind fun _ => .bind fun _ => .bind fun _ => finishProduction_covers _ _ _

theorem forInOfRest_covers (pos : Nat) (awaitWord initializer : Option NodeId) (overKeys : Bool) :
    (forInOfRest pos awaitWord initializer overKeys).Covers pos := by
  refine .bind fun _ => ?_
  extract_lets rest
  have hrest (initializer) : (rest initializer).Covers pos :=
    .bind fun _ => .bind fun _ => .bind fun _ => finishProduction_covers _ _ _
  cases initializer with
  | none => exact .bind fun _ => hrest _
  | some id => exact hrest _

theorem forRest_covers (pos : Nat) (initializer : Option NodeId) :
    (forRest pos initializer).Covers pos :=
  .bind fun _ => .bind fun _ => .bind fun _ => .bind fun _ => .bind fun _ => .bind fun _ =>
    finishProduction_covers _ _ _

theorem forStatement_covers : forStatement.CoversAll := by
  refine .nodePos fun pos => .bind fun _ => .bind fun _ => .bind fun _ => .bind fun _ => ?_
  refine .ite (forInOfRest_covers _ _ _ _) (.bind fun k => ?_)
  split
  · exact forInOfRest_covers _ _ _ _
  · exact forInOfRest_covers _ _ _ _
  · exact forRest_covers _ _

theorem jumpStatement_covers (kind : NodeKind) : (jumpStatement kind).CoversAll := by
  refine .nodePos fun pos => .bind fun _ => .bind fun _ => ?_
  extract_lets rest
  have hrest (label) : (rest label).Covers pos := .bind fun _ => finishProduction_covers _ _ _
  exact .ite (hrest _) (.bind fun _ => hrest _)

theorem returnStatement_covers : returnStatement.CoversAll := by
  refine .nodePos fun pos => .bind fun _ => .bind fun _ => ?_
  extract_lets rest
  have hrest (value) : (rest value).Covers pos := .bind fun _ => finishProduction_covers _ _ _
  exact .ite (hrest _) (.bind fun _ => hrest _)

theorem throwStatement_covers : throwStatement.CoversAll := by
  refine .nodePos fun pos => .bind fun _ => .bind fun _ => ?_
  extract_lets rest
  have hrest (value) : (rest value).Covers pos := .bind fun _ => finishProduction_covers _ _ _
  exact .ite (.bind fun _ => hrest _) (.bind fun _ => hrest _)

theorem switchStatement_covers : switchStatement.CoversAll :=
  .nodePos fun _ => .bind fun _ => .bind fun _ => .bind fun _ => .bind fun _ => .bind fun _ =>
    .bind fun _ => .bind fun _ => finishProduction_covers _ _ _

theorem tryStatement_covers : tryStatement.CoversAll := by
  refine .nodePos fun pos => .bind fun _ => .bind fun body => .bind fun _ => ?_
  extract_lets rest
  have hrest (handler) : (rest handler).Covers pos := by
    refine .bind fun _ => ?_
    extract_lets rest'
    have hrest' (finalizer) : (rest' finalizer).Covers pos := finishProduction_covers _ _ _
    exact .ite (.bind fun _ => .bind fun _ => .bind fun _ => hrest' _) (.bind fun _ => hrest' _)
  exact .ite (.bind fun _ => .bind fun _ => hrest _) (.bind fun _ => hrest _)

theorem emptyStatement_covers : emptyStatement.CoversAll :=
  .nodePos fun _ => .bind fun _ => finishProduction_covers _ _ _

theorem debuggerStatement_covers : debuggerStatement.CoversAll :=
  .nodePos fun _ => .bind fun _ => .bind fun _ => finishProduction_covers _ _ _

theorem expressionOrLabeled_covers : expressionOrLabeled.CoversAll := by
  refine .nodePos fun pos => .bind fun inner => .bind fun k => .bind fun _ => .ite ?_ ?_
  · exact .bind fun _ => finishProduction_covers _ _ _
  · exact .bind fun _ => finishProduction_covers _ _ _

/-! ## 3. All statements -/

variable {env : Surroundings} {s : ParserState}

theorem declarationOrExpression_covers (env : Surroundings) (hok : s.Ok env.file.text) :
    declarationOrExpression.Ends env s (Covered s.pos) := by
  refine .ask (startsDeclaration_inquires (o := true).asks hok) (.ite (fun _ => ?_) fun _ => ?_)
  · exact declaration_covers env s
  · exact expressionOrLabeled_covers env s

theorem statementBody_covers (env : Surroundings) (hok : s.Ok env.file.text) :
    statementBody.Ends env s (Covered s.pos) := by
  refine .nodePos (.kind ?_)
  split
  case h_1 => exact emptyStatement_covers env s
  case h_2 => exact blockWith_covers _ _ env s
  case h_3 => exact variableStatement_covers _ env s
  case h_4 =>
    refine .ask (letDeclares_inquires (o := true).asks hok) (.ite (fun _ => ?_) fun _ => ?_)
    · exact variableStatement_covers _ env s
    · exact expressionOrLabeled_covers env s
  case h_5 => exact functionDeclaration_covers _ env s
  case h_6 => exact classLike_covers _ _ env s
  case h_7 => exact ifStatement_covers env s
  case h_8 => exact doStatement_covers env s
  case h_9 | h_14 => exact headedStatement_covers _ _ env s
  case h_10 => exact forStatement_covers env s
  case h_11 | h_12 => exact jumpStatement_covers _ env s
  case h_13 => exact returnStatement_covers env s
  case h_15 => exact switchStatement_covers env s
  case h_16 => exact throwStatement_covers env s
  case h_17 | h_18 | h_19 => exact tryStatement_covers env s
  case h_20 => exact debuggerStatement_covers env s
  case h_21 => exact declaration_covers env s
  case h_39 => exact expressionOrLabeled_covers env s
  all_goals exact declarationOrExpression_covers env hok

/-- What is nested covers what it covers by itself, unless it is nested too deeply. -/
theorem nested_covers {p : Parser NodeId} {pos : Nat} (m : Message)
    (h : p.Ends env (s.atDepth (s.scope.depth + 1)) (Covered pos)) :
    (nested m p).Ends env s fun (id, parsed) t => parsed = true → Covered pos id t := by
  refine .get ?_
  split
  · exact (Ends.always fun _ _ => trivial).bind fun _ _ _ => .pure nofun
  · exact fun _ => h

theorem statement_covers (env : Surroundings) (hok : s.Ok env.file.text) :
    statement.Ends env s (Covered s.pos) := by
  refine .nodePos ?_
  have hbody : statementBody.Ends env (s.atDepth (s.scope.depth + 1)) (Covered s.pos) :=
    statementBody_covers env (hok.inScope _)
  refine (nested_covers _ hbody).bind fun (id, parsed) t ht => .ite (fun hparsed => ?_) fun _ => ?_
  · exact .pure (ht hparsed)
  · exact finishProduction_covers _ _ _ env t

/-- A statement of a file covers all that was read for it. -/
theorem parse_statement_covers {file : SourceFacts} (hok : s.Ok file.text) :
    (parse .statement).Ends file.surroundings s (Covered s.pos) := by
  obtain ⟨count, hcount⟩ : ∃ count, file.callLimit = count + 1 :=
    Nat.exists_eq_add_one.mpr (by unfold SourceFacts.callLimit; omega)
  have hstatement := statement_covers ⟨file, Production.run file count⟩ hok
  show Covered s.pos (Production.run file file.callLimit .statement s).1
    (Production.run file file.callLimit .statement s).2
  rw [hcount]
  exact hstatement

end Parser

/-! ## 4. The statements of a file -/

/-- There is a node, and it carries the context. -/
def Arena.Carries (a : Arena) (context : ContextFlags) (id : NodeId) : Prop :=
  ∃ n, a.get? id = some n ∧ n.flags.context = context

variable {text : Array Char} {s t : ParserState} {lo : Nat} {read : List NodeId}

theorem Arena.Carries.grows {a b : Arena} {context : ContextFlags} {id : NodeId}
    (h : a.Carries context id) (hgrows : a.Grows b) : b.Carries context id := by
  obtain ⟨n, hn, hcontext⟩ := h
  exact ⟨n, hgrows.get? hn, hcontext⟩

/-- Tiles stay in their places, and what explains the gaps stays in the log. -/
theorem ParserState.Grows.tiles {ids : List NodeId} {hi : Nat} (h : s.Grows t)
    (htiles : s.arena.Tiles s.log.entries.toList lo ids hi) :
    t.arena.Tiles t.log.entries.toList lo ids hi :=
  htiles.mono h.grows.keepsPlaces h.logged.subset

/-- What has been read of the statements tiles the text from the position on to where the parser
stands. Each of the statements carries the context that the parser is in. -/
structure Tiled (lo : Nat) (read : List NodeId) (s : ParserState) : Prop where
  tiles : s.arena.Tiles s.log.entries.toList lo read.reverse s.pos
  carries : ∀ id ∈ read, s.arena.Carries s.scope.context id

/-- Statements go on carrying the context. -/
theorem Tiled.carries_grows (h : Tiled lo read s) (hgrows : s.Grows t) :
    ∀ id ∈ read, t.arena.Carries t.scope.context id := by
  intro id hid
  rw [hgrows.scope_eq]
  exact (h.carries id hid).grows hgrows.grows

/-- One more statement, which starts where the parser stood and ends where it stands. -/
theorem Tiled.more {id : NodeId} (h : Tiled lo read s) (hrun : Run text s t [.node id])
    (hcovered : Covered s.pos id t) : Tiled lo (id :: read) t := by
  obtain ⟨n, hn, hpos, hreaches, hcontext⟩ := hcovered
  obtain ⟨m, hm, -, hle, hstop⟩ := hrun.placed
  cases hn.symm.trans hm
  have hend : n.stop = t.pos := Nat.le_antisymm hstop hreaches
  have hsingle : t.arena.Tiles t.log.entries.toList n.pos [id] n.stop := .single hn hle
  rw [hpos, hend] at hsingle
  refine ⟨?_, fun c hc => ?_⟩
  · simpa using (hrun.toGrows.tiles h.tiles).append hsingle
  · rcases List.mem_cons.mp hc with rfl | hc
    · exact ⟨n, hn, hcontext⟩
    · exact h.carries_grows hrun.toGrows c hc

/-- Nothing more, but a gap that is explained. -/
theorem Tiled.skip (h : Tiled lo read s) (hgrows : s.Grows t)
    (hgap : Explained t.log.entries.toList s.pos t.pos) : Tiled lo read t :=
  ⟨(hgrows.tiles h.tiles).after hgap, h.carries_grows hgrows⟩

namespace Parser

theorem statementTurn_tiles {file : SourceFacts}
    (hready : file.surroundings.Ready Production.topRank s) (h : Tiled lo read s) :
    (listTurn .sourceElements (parse .statement) read).Ends file.surroundings s
      (Turn.Leads (fun read t => file.surroundings.Ready Production.topRank t ∧ Tiled lo read t)
        (Tiled lo) s) := by
  have hok := hready.ok
  refine .ask (endsList_asks _ hok) (.ite (fun _ => .pure ⟨h, Nat.le_refl _⟩) fun hgoes => ?_)
  refine .ask (startsElement_asks _ false hok) (.ite (fun hstarts => ?_) fun _ => ?_)
  · have hreads : Reads file.surroundings Production.topRank true .sourceElements (parse .statement) :=
      statements_reads rfl (by decide)
    refine (Ends.and (hreads s hready hstarts) (parse_statement_covers hok)).bind fun id t ht => ?_
    exact .pure ⟨⟨hready.run ht.1.run, h.more ht.1.run ht.2⟩, ht.1.ahead rfl⟩
  · have hkind := ne_endOfFile_of_endsList hgoes
    refine (Ends.and (giveUp_ends _ hok hkind) (giveUp_explains _ hok hkind)).bind fun ends t ht => ?_
    obtain ⟨⟨rfl, ht, -⟩ | ⟨rfl, ht⟩, hgap⟩ := ht
    · exact .pure ⟨h.skip ht.toGrows hgap, ht.forward⟩
    · exact .pure ⟨⟨hready.run ht.toRun, h.skip ht.toGrows hgap⟩, ht.took⟩

/-- The statements of a file tile what is read for them, and carry the context. -/
theorem statements_tile {file : SourceFacts}
    (hready : file.surroundings.Ready Production.topRank s) :
    (elements .sourceElements (parse .statement)).Ends file.surroundings s fun list t =>
      t.arena.Tiles t.log.entries.toList s.pos list.nodes t.pos
        ∧ ∀ id ∈ list.nodes, t.arena.Carries t.scope.context id := by
  have hstart : Tiled s.pos [] (s.withLists (.sourceElements :: s.scope.openLists)) :=
    ⟨Explained.refl _ _, by simp⟩
  have hloop := repeating_ends (P := fun read t =>
      file.surroundings.Ready Production.topRank t ∧ Tiled s.pos read t)
    ⟨hready.withLists _, hstart⟩ (fun _ _ h => h.1.ok.pos_le_size) fun read t h =>
      statementTurn_tiles h.1 h.2
  refine .inList (.nodePos (hloop.bind fun read t ht => .nodePos (.pure ⟨ht.1.tiles, fun id hid => ?_⟩)))
  exact ht.1.carries id (List.mem_reverse.mp hid)

end Parser

end ScriptSyntax
