/-
  ScriptSyntax/Proofs/Grammar/File.lean
  =====================================
  A whole file: its statements end with the text, and the root takes over all
  that was made.
-/
import ScriptSyntax.Proofs.Grammar.Covering
import ScriptSyntax.Grammar.File

namespace ScriptSyntax

/-! ## 1. The start -/

/-- The state at the first token, before what is wrong with that token has been reported. -/
def ParserState.opened (context : ContextFlags) (text : Array Char) : ParserState :=
  { ParserState.initial context with token := (scanAt text 0).1 }

theorem ParserState.opened_ok (context : ContextFlags) (text : Array Char) :
    (ParserState.opened context text).Ok text where
  token := (scanAt_inText (Nat.zero_le _)).token
  faultless := rfl
  sound := Arena.sound_empty
  inside := DiagnosticLog.inText_empty text.size
  reported h := by
    rcases h with h | ⟨id, h⟩
    · cases h
    · simp [opened, initial, Arena.empty, Arena.hasError, Arena.get?] at h

theorem ParserState.pos_opened (context : ContextFlags) (text : Array Char) :
    (ParserState.opened context text).pos = 0 :=
  fullStart_scanAt text 0

/-- The root of a parsed text: it covers all of the text, and holds all that was made. Its statements
tile the text. The root and its children carry the context of the file. -/
structure Rooted (text : Array Char) (context : ContextFlags) (id : NodeId) (t : ParserState) :
    Prop where
  run : Run text (.opened context text) t [.node id]
  root : ∃ n statements endOfFile, t.arena.get? id = some n ∧ n.pos = 0 ∧ n.stop = text.size
    ∧ n.payload = .sourceFile statements endOfFile
    ∧ t.arena.TilesText t.log.entries.toList text.size statements.nodes endOfFile
  carries : ∀ n, t.arena.get? id = some n →
    n.flags.context = context ∧ ∀ c ∈ n.children, t.arena.Carries context c
  kind : t.arena.kindOf id = .node .sourceFile
  due : t.errorPending = false

namespace Parser

variable {env : Surroundings} {rank : Nat} {took : Bool} {r m s t : ParserState}
variable {items : List Part} {context : ContextFlags}

/-- The first token is read from the start of the text. -/
theorem firstToken_ends :
    nextToken.Ends env (.initial context) fun _ t =>
      Glance env.file.text (.opened context env.file.text) t :=
  forM_errorAt_ends (scanAt_inText (Nat.zero_le _)).errors (ParserState.opened_ok context env.file.text)

/-! ## 2. The statements of a file -/

/-- Of questions asked in turn, one was answered yes. -/
theorem exists_of_answer_anyM {α : Type} {f : α → Parser Bool} {as : List α}
    (hf : ∀ a ∈ as, (f a).Asks env s) (h : (as.anyM f).answer env s = true) :
    ∃ a ∈ as, (f a).answer env s = true := by
  induction as with
  | nil => cases h
  | cons a as ih =>
    have hor : (f a >>= fun b => match b with
        | true => pure true
        | false => as.anyM f).answer env s = true := h
    rw [answer_bind (hf a List.mem_cons_self)] at hor
    cases hhead : (f a).answer env s with
    | true => exact ⟨a, List.mem_cons_self, hhead⟩
    | false =>
      rw [hhead] at hor
      obtain ⟨b, hb, hyes⟩ := ih (fun b hb => hf b (List.mem_cons_of_mem a hb)) hor
      exact ⟨b, List.mem_cons_of_mem a hb, hyes⟩

theorem endOfFile_of_endsList (h : (endsList .sourceElements).answer env s = true) :
    s.token.kind = .endOfFile := by
  have hends : (endsList .sourceElements).Ends env s fun ends _ =>
      ends = true → s.token.kind = .endOfFile :=
    .kind (.ite (fun hend => .pure fun _ => beq_iff_eq.mp hend) fun _ => .pure nofun)
  exact hends h

/-- What starts an element after an error, starts one without an error. -/
theorem startsStatement_of_afterError
    (h : (startsElement .sourceElements true).answer env s = true) :
    startsStatement.answer env s = true := by
  have hstarts : (startsElement .sourceElements true).Ends env s fun starts _ =>
      starts = true → startsStatement.answer env s = true :=
    .isAt (.ite (fun _ => .pure nofun) fun _ h => h)
  exact hstarts h

/-- A list that can use the token is open, and starts an element with it or ends there. -/
theorem exists_of_openListTakes (hok : s.Ok env.file.text)
    (h : openListTakes.answer env s = true) : ∃ list ∈ s.scope.openLists,
      (startsElement list true).answer env s = true ∨ (endsList list).answer env s = true := by
  have htakes : openListTakes.Ends env s fun takes _ => takes = true →
      ∃ list ∈ s.scope.openLists,
        (startsElement list true).answer env s = true ∨ (endsList list).answer env s = true := by
    refine .get fun htakes => ?_
    obtain ⟨list, -, hlist⟩ := exists_of_answer_anyM (fun list _ =>
      .ite (.or (startsElement_asks list true hok) (endsList_asks list hok)) (.pure false)) htakes
    split at hlist
    · rename_i hopen
      exact ⟨list, List.contains_iff_mem.mp hopen, answer_or hlist (startsElement_asks list true hok)⟩
    · cases hlist
  exact htakes h

/-- No list is open around the statements of a file, so nothing but the end of the text ends them. -/
theorem endOfFile_of_ended (hopen : t.scope.openLists = [.sourceElements])
    (hok : t.Ok env.file.text) (h : Ended .sourceElements env t) : t.token.kind = .endOfFile := by
  rcases h with hends | ⟨s, hs, hAlike, hno, htakes⟩
  · exact endOfFile_of_endsList hends
  obtain ⟨list, hlist, hyes⟩ := exists_of_openListTakes hok htakes
  obtain rfl : list = .sourceElements := by simpa [hopen] using hlist
  rcases hyes with hstarts | hends
  · have hstarts := startsStatement_of_afterError hstarts
    have hno : startsStatement.answer env s = false := hno
    rw [startsStatement_inquires.answer_eq hAlike, hstarts] at hno
    cases hno
  · exact endOfFile_of_endsList hends

/-! ## 3. The root -/

theorem root_ends {statements : NodeArray}
    (h : Run env.file.text (.opened context env.file.text) s [.array statements])
    (htiles : s.arena.Tiles s.log.entries.toList 0 statements.nodes s.pos)
    (hcarries : ∀ id ∈ statements.nodes, s.arena.Carries s.scope.context id)
    (hkind : s.token.kind = .endOfFile) :
    (root statements).Ends env s fun id t => Rooted env.file.text context id t := by
  refine (Ends.and (tokenNode_ends h.ok) (tokenNode_covers env s)).bind fun endOfFile t htoken => .read ?_
  obtain ⟨ht, hcovered⟩ := htoken
  have hscope : t.scope.context = context := by rw [ht.run.scope_eq, h.scope_eq]; rfl
  have hrun := h.trans ht.run
  have hstop : env.file.text.size = t.pos := by
    rw [ht.pos_eq, h.ok.token.atEnd hkind]
  have hpos : (ParserState.opened context env.file.text).pos = 0 := ParserState.pos_opened _ _
  let n : Node := {
    kind := .node .sourceFile, pos := 0, stop := env.file.text.size
    payload := .sourceFile statements endOfFile }
  have hparts : n.parts = [Part.array statements] ++ [Part.node endOfFile] := by
    rw [Node.parts_eq]
    simp [n, Payload.fields]
  have hspan : t.arena.SpansParts n.pos ([Part.array statements] ++ [Part.node endOfFile]) t.pos :=
    hrun.placed.mono (Nat.zero_le _) (Nat.le_refl _)
  have htext : t.arena.TilesText t.log.entries.toList env.file.text.size statements.nodes endOfFile := by
    obtain ⟨e, he, -, hstart, hend, -⟩ := ht.node
    refine ⟨e, he, hstart ▸ ht.run.toGrows.tiles htiles, ?_, hend.trans hstop.symm⟩
    rw [hstart, hend]
    exact ht.run.forward
  have hchildren : ∀ c ∈ n.children, t.arena.Carries context c := by
    have hnodes : n.children = statements.nodes ++ [endOfFile] := by
      rw [Node.children, hparts]
      simp [Part.children]
    intro c hc
    rcases List.mem_append.mp (hnodes ▸ hc) with hc | hc
    · refine Arena.Carries.grows ?_ ht.run.grows
      rw [← hscope, ht.run.scope_eq]
      exact hcarries c hc
    · obtain rfl := List.mem_singleton.mp hc
      obtain ⟨e, he, -, -, hcontext⟩ := hcovered
      exact ⟨e, he, hcontext.trans hscope⟩
  show (finishAt n).Ends env t _
  unfold Ends
  rw [finishAt_eq]
  refine ⟨hrun.finish hparts (Nat.le_of_eq hpos) hspan hstop rfl ?_ ?_
    (Node.sourced_of_isToken rfl)
    fun _ => Node.lawful_of_isRuled rfl, ?_, ?_, ?_, rfl⟩
  · intro hpending
    simp [flagsAt, hpending]
  · intro hmarked
    exact hrun.ok.reported (.inl (by simpa [n, flagsAt] using hmarked))
  · exact ⟨_, statements, endOfFile, Arena.get?_push_self _ _, rfl, rfl, rfl,
      htext.mono (Arena.grows_push _ _).keepsPlaces fun _ hd => hd⟩
  · intro m hm
    cases (Arena.get?_push_self _ _).symm.trans hm
    exact ⟨by simp [n, flagsAt, ContextFlags.join, hscope],
      fun c hc => (hchildren c hc).grows (Arena.grows_push _ _)⟩
  · simp only [ParserState.adding, Arena.kindOf, Arena.get?_push_self]
    rfl

/-- Parsing the text of a file makes a tree with a root, and no failure occurs. -/
theorem sourceFile_ends (file : SourceFacts) (context : ContextFlags) :
    sourceFile.Ends file.surroundings (.initial context) fun id t =>
      Rooted file.text context id t := by
  refine (Ends.and firstToken_ends (pos_nextToken _ _)).bind fun _ s ⟨hs, hpos⟩ => ?_
  have hready : file.surroundings.Ready Production.topRank s := hs.ok.ready
  have hstatements := Ends.and (elements_ends hready (statements_reads rfl (by decide)))
    (statements_tile hready)
  refine hstatements.bind fun statements t ⟨ht, htiles, hcarries⟩ => .kind ?_
  have hopen : (t.withLists (.sourceElements :: s.scope.openLists)).scope.openLists = [.sourceElements] := by
    show ListContext.sourceElements :: s.scope.openLists = _
    rw [hs.scope_eq]
    rfl
  have hended := endOfFile_of_ended hopen (ht.1.ok.inScope _) ht.2
  have hkind : t.token.kind = .endOfFile := hended
  refine .ite (fun hne => absurd hne (by simp [hkind])) fun _ => ?_
  have hpos : s.pos = 0 := hpos
  exact root_ends (hs.toRun.after ht.1) (hpos ▸ htiles) hcarries hkind

end Parser

end ScriptSyntax
