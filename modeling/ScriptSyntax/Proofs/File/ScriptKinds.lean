/-
  ScriptSyntax/Proofs/File/ScriptKinds.lean
  =========================================
  Which kind of script a text is read as.

  The kind decides two things: whether tags are part of the syntax, and the stamp
  that every node gets.  The stamp steers nothing, so two kinds that agree about
  tags make the same file of a text, stamp apart; and where a text has no opening
  angle bracket, all kinds do.

  The stamp is all that a file says of every node.  Any other context ends with the
  part of the text that it is for: whatever a statement is made of and whatever goes
  wrong in it, after it the parser is in the context of the file.
-/
import ScriptSyntax.File.Parse
import ScriptSyntax.Proofs.File.Shape
import ScriptSyntax.Proofs.Orderly.Statements

namespace ScriptSyntax

/-! ## 1. Kinds that agree about tags -/

variable {kind kind' : ScriptKind}

theorem ScriptKind.context_stamped (kind kind' : ScriptKind) :
    kind.context.stamped kind'.isJavaScript = kind'.context := rfl

/-- What the productions read of a text as a script of one kind and of another. -/
theorem ScriptKind.twins {text : SourceText} (h : kind'.variant = kind.variant ∨ '<' ∉ text.chars)
    (fileName : String) :
    (SourceFacts.ofText fileName text kind).Twins (.ofText fileName text kind') :=
  ⟨rfl, rfl, h⟩

/-- Parsed as what it is, a file has on every node the stamp of its kind. -/
theorem stamped_runOn_sourceFile (fileName : String) (text : SourceText) (kind : ScriptKind) :
    let run := Parser.sourceFile.runOn (.ofText fileName text kind) kind.context
    run.2.arena.stamped kind.isJavaScript = run.2.arena := by
  have htwins : (SourceFacts.ofText fileName text kind).Twins (.ofText fileName text kind) :=
    ScriptKind.twins (.inl rfl) fileName
  have hrun := Parser.sourceFile_orderly.runOn htwins kind.context kind.isJavaScript
  rw [ScriptKind.context_stamped] at hrun
  exact (congrArg (fun run => run.2.arena) hrun).symm

theorem Arena.SameNodes.carries {a b : Arena} (h : a.SameNodes b) {context : ContextFlags} {id : NodeId}
    (hid : a.Carries context id) : b.Carries context id := by
  obtain ⟨n, hn, hcontext⟩ := hid
  obtain ⟨_, hm, _, rfl⟩ := h.keeps id n hn
  exact ⟨_, hm, hcontext⟩

/-- The root of a parsed file, its statements and the token at its end carry the context of the file. -/
theorem Rooted.carries_completeFile {text : SourceText} {context : ContextFlags} {root : NodeId}
    {s : ParserState} (h : Rooted text.chars context root s) (fileName : String)
    (options : ParseOptions) :
    let f := completeFile fileName text options root s
    ∃ endOfFile, f.endOfFile? = some endOfFile
      ∧ ∀ id, id = f.root ∨ id ∈ f.statements ∨ id = endOfFile → f.arena.Carries context id := by
  intro f
  have hsame : s.arena.SameNodes f.arena := sameNodes_completeFile fileName text options root s
  obtain ⟨n, statements, endOfFile, hn, -, -, hpayload, -⟩ := h.root
  obtain ⟨hcontext, hchildren⟩ := h.carries n hn
  obtain ⟨_, hm, _, rfl⟩ := hsame.keeps root n hn
  have hroot : (f.arena.get? f.root).map Node.payload = some (.sourceFile statements endOfFile) := by
    rw [show f.arena.get? f.root = _ from hm, ← hpayload]
    rfl
  have hchild : ∀ id, id ∈ statements.nodes ∨ id = endOfFile → id ∈ n.children := by
    intro id hid
    have hparts : n.parts = held n.decorators ++ held n.modifiers
        ++ [Part.array statements, .node endOfFile] := by
      rw [Node.parts_eq, hpayload]
      rfl
    rw [Node.children, hparts, List.flatMap_append]
    exact List.mem_append_right _ (by simpa [Part.children] using hid)
  have hstatements : f.statements = statements.nodes := by simp only [SourceFile.statements, hroot]
  refine ⟨endOfFile, by simp only [SourceFile.endOfFile?, hroot], fun id hid => ?_⟩
  rw [hstatements] at hid
  rcases hid with rfl | hid
  · exact hsame.carries ⟨n, hn, hcontext⟩
  · exact hsame.carries (hchildren id (hchild id hid))

/-- In every parsed file the root, the statements and the token at the end carry no context but the
stamp of the file's kind, and every node carries that stamp. -/
theorem parseText_contexts (fileName : String) (text : SourceText) (options : ParseOptions) :
    ∃ f endOfFile, parseText fileName text options = .ok f ∧ f.endOfFile? = some endOfFile
      ∧ (∀ id, id = f.root ∨ id ∈ f.statements ∨ id = endOfFile →
        f.arena.Carries { javaScriptFile := f.scriptKind.isJavaScript } id)
      ∧ ∀ id n, f.arena.get? id = some n →
        n.flags.context.javaScriptFile = f.scriptKind.isJavaScript := by
  let kind := options.scriptKindFor fileName
  let run := Parser.sourceFile.runOn (.ofText fileName text kind) kind.context
  have hrooted : Rooted text.chars kind.context run.1 run.2 := runOn_sourceFile (.ofText fileName text kind) _
  obtain ⟨endOfFile, hend, hcarries⟩ := hrooted.carries_completeFile fileName options
  refine ⟨_, endOfFile, parseText_eq_completeFile fileName text options, hend, hcarries, fun id n hn => ?_⟩
  obtain ⟨m, hm, _, hsame⟩ := (sameNodes_completeFile fileName text options run.1 run.2).kept id n hn
  have hall := (run.2.arena.stamped_eq_self_iff _).mp (stamped_runOn_sourceFile fileName text kind)
  have hflags : n.flags = m.flags := by rw [hsame]
  exact hflags ▸ hall id m hm

end ScriptSyntax
