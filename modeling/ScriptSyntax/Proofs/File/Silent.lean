/-
  ScriptSyntax/Proofs/File/Silent.lean
  ====================================
  What is said of a file by its having no diagnostics.

  Nodes that stand for something the text lacks come with a report.  Without one
  only that takes no room which may be empty: an element of an array that is left
  out, the attributes of a tag that has none, and the root of an empty text.

  What is nested too deeply is reported, too, but not everywhere is the depth
  checked.  Without a report a path from the root falls no more often than the
  levels of nesting allow and the steps on it that are not checked.
-/
import ScriptSyntax.Proofs.Clean.Statements
import ScriptSyntax.Proofs.File.Shape

namespace ScriptSyntax

open ScriptSyntax.Parser

/-! ## 1. A file on a clean run -/

namespace Parser

variable {env : Surroundings} {r s : ParserState}

/-- The end of the file takes no room, but it stands for nothing that is missing. It has no children. -/
theorem endOfFile_went (h : env.Apt s) (hkind : s.token.kind = .endOfFile) :
    tokenNode.Ends env s fun id t => Went env.file.text false 1 s t [.node id]
      ∧ (t.Clean → t.arena.Within 1 id) := by
  refine .token ((Going.start 0 h).step (nextToken_goes h) fun _ t g => ?_)
  have hplain : s.token.kind ≠ .identifier := by simp [hkind]
  refine (finish_went g.went hplain (fun _ => ?_) Nat.one_pos fun _ c hc => ?_).mono
    fun id u hu => ⟨hu.1, fun hclean => ?_⟩
  · simp [Node.Regular, Node.isMissing, hkind]
  · exact absurd hc List.not_mem_nil
  · obtain ⟨stop, flags, hn⟩ := hu.2 hclean
    exact Arena.within_of_children_eq_nil hn rfl Nat.one_pos

/-- What a tree is like whose root was made on a clean run. -/
structure Grown (root : NodeId) (s : ParserState) : Prop where
  regular : ∀ id n, s.arena.get? id = some n → id ≠ root → n.Regular
  within : s.arena.Within (fallsPerLevel * maxDepth + 1) root
  counted : s.identifierCount = s.arena.identifierNodes

theorem root_grown {statements : NodeArray} (g : Going env false 0 r s [.array statements])
    (hdepth : r.scope.depth = 0) (hcount : r.identifierCount = r.arena.identifierNodes) (hkind : s.token.kind = .endOfFile) :
    (root statements).Ends env s fun id t => t.Clean → Grown id t := by
  refine (endOfFile_went g.apt hkind).bind fun endOfFile t ⟨ht, hleaf⟩ => .read ?_
  have g := g.goOn ht.past
  let n : Node := {
    kind := .node .sourceFile, pos := 0, stop := env.file.text.size
    payload := .sourceFile statements endOfFile }
  show (finishAt n).Ends env t _
  unfold Ends
  rw [finishAt_eq]
  intro hend
  have hclean : t.Clean := ⟨hend.faultless, hend.silent⟩
  have hgone := g.went hclean
  have hlimit : t.limit = fallsPerLevel * maxDepth := by
    rw [hgone.limit_eq, ParserState.limit, hdepth, Nat.sub_zero]
  refine ⟨fun id m hm hne => ?_, ?_, ?_⟩
  · rcases Arena.get?_push_cases hm with hold | ⟨rfl, -⟩
    · exact hgone.fine.regular id m hold
    · exact absurd rfl hne
  · rw [← hlimit]
    refine Arena.within_push (Nat.succ_pos _) fun c hc => ?_
    have hmem : c ∈ childrenOf [.array statements] ∨ c = endOfFile := by
      have hc : c ∈ childrenOf (Node.parts n) := hc
      simpa [n, Node.parts_eq, Payload.fields] using hc
    rcases hmem with hmem | rfl
    · exact g.hasRoom hclean hmem
    · exact ((hleaf hclean).mono (by rw [hlimit]; decide)).hasRoom
  · have hcounted := hgone.counted
    rw [hcount, Nat.add_comm] at hcounted
    rw [ParserState.adding, Arena.identifierNodes_push]
    exact Nat.add_left_cancel hcounted

/-- The tree of a file that is parsed without a report. -/
theorem sourceFile_grown (file : SourceFacts) (context : ContextFlags) :
    sourceFile.Ends file.surroundings (.initial context) fun id t => t.Clean → Grown id t := by
  have hfirst : nextToken.Ends file.surroundings (.initial context) _ := firstToken_ends
  have hzero : nextToken.Ends file.surroundings (.initial context) fun _ t => t.identifierCount = 0 :=
    identifierCount_advance .scan _ _
  refine (hfirst.and hzero).bind fun _ s ⟨hs, hcount⟩ => ?_
  have h : file.surroundings.Apt s := by
    refine ⟨Surroundings.serves_run file file.callLimit, fun _ => ⟨hs.ok.token, fun id n hn => ?_⟩⟩
    rw [hs.arena] at hn
    simp [ParserState.opened, ParserState.initial, Arena.empty, Arena.get?] at hn
  have hdepth : s.scope.depth = 0 := congrArg Scope.depth hs.scope_eq
  have hcount : s.identifierCount = s.arena.identifierNodes := by rw [hcount, hs.arena]; rfl
  refine (Going.start 0 h).step (elements_goes h fun _ => parseStatement_produces) fun statements t g => .kind ?_
  refine .ite (fun _ => ?_) fun hkind =>
    root_grown (g.parts (by simp)) hdepth hcount (by simpa using hkind)
  refine (Ends.late (fail_dirty _) h.serves.adds fun _ => root_orderly statements).mono fun id u hu => ?_
  exact fun hclean => absurd hclean hu

end Parser

/-! ## 2. The state after a parse -/

/-- Nothing was reported of a file without diagnostics. -/
theorem clean_of_diagnostics_eq_nil {fileName : String} {text : SourceText} {options : ParseOptions}
    {root : NodeId} {s : ParserState} (hfaultless : s.fault = none)
    (h : (completeFile fileName text options root s).diagnostics = []) : s.Clean where
  faultless := hfaultless
  silent := by
    have hnone : s.log.entries.toList = [] := (List.append_eq_nil_iff.mp h).1
    rw [DiagnosticLog.size, ← Array.length_toList, hnone]
    rfl

/-- Every text parses. The parser has only added to its first state, and without diagnostics the tree is that of
a clean run. -/
theorem exists_grown (fileName : String) (text : SourceText) (options : ParseOptions) :
    ∃ context root s, Rooted text.chars context root s
      ∧ parseText fileName text options = .ok (completeFile fileName text options root s)
      ∧ (ParserState.initial context).Adds s
      ∧ ((completeFile fileName text options root s).diagnostics = [] → Grown root s) := by
  let file := SourceFacts.ofText fileName text (options.scriptKindFor fileName)
  have hrooted := runOn_sourceFile file (options.scriptKindFor fileName).context
  have hgrown := sourceFile_grown file (options.scriptKindFor fileName).context
  exact ⟨_, _, _, hrooted, parseText_eq_completeFile fileName text options,
    sourceFile_orderly.adds (Surroundings.adds_surroundings file) _, fun hsilent =>
      hgrown (clean_of_diagnostics_eq_nil hrooted.run.ok.faultless hsilent)⟩

/-! ## 3. Nodes that take no room -/

/-- In a file without diagnostics the only nodes that take no room are the elements of arrays that are
left out, the attributes of tags that have none, and the root if the text is empty. -/
theorem parseText_isMissing_iff (fileName : String) (text : SourceText) (options : ParseOptions) :
    ∃ f, parseText fileName text options = .ok f
      ∧ (f.diagnostics = [] → ∀ id n, f.arena.get? id = some n →
        (n.isMissing = true ↔ n.kind = .node .omittedExpression
          ∨ (n.kind = .node .jsxAttributes ∧ n.children = [])
          ∨ (id = f.root ∧ text.length = 0))) := by
  obtain ⟨context, root, s, hrooted, hparse, -, hgrown⟩ := exists_grown fileName text options
  refine ⟨_, hparse, fun hsilent id n hn => ?_⟩
  obtain ⟨_, hmade, parent, rfl⟩ := (sameNodes_completeFile fileName text options root s).kept id n hn
  by_cases hid : id = root
  · subst hid
    obtain ⟨m, statements, endOfFile, hm, hpos, hstop, -⟩ := hrooted.root
    cases hm.symm.trans hmade
    have hkind : n.kind = .node .sourceFile := by
      have hkind := hrooted.kind
      rwa [Arena.kindOf, hm] at hkind
    have hempty : n.isMissing = true ↔ text.length = 0 := by
      have hpos : n.pos = 0 := hpos
      have hstop : n.stop = text.length := hstop
      rw [Node.isMissing, hkind, hpos, hstop]
      simp [eq_comm (a := text.length)]
    simp [hempty, hkind, completeFile]
  · have hregular : n.Regular := (hgrown hsilent).regular id { n with parent } hmade hid
    have hroot : ¬id = (completeFile fileName text options root s).root := hid
    simpa [Node.Regular, hroot] using hregular

/-! ## 4. Falls -/

/-- In a file without diagnostics a path from the root to a node falls at most as often as the depth of
nesting and the unguarded steps on it have room for. -/
theorem parseText_falls_le (fileName : String) (text : SourceText) (options : ParseOptions) :
    ∃ f, parseText fileName text options = .ok f
      ∧ (f.diagnostics = [] → ∀ id falls steps, f.arena.Path f.root id falls steps →
        falls ≤ fallsPerLevel * (maxDepth + steps)) := by
  obtain ⟨context, root, s, hrooted, hparse, -, hgrown⟩ := exists_grown fileName text options
  refine ⟨_, hparse, fun hsilent id falls steps hpath => ?_⟩
  have hpath := (sameNodes_completeFile fileName text options root s).path hpath
  have hlt := (hgrown hsilent).within.falls_lt hpath
  rw [Nat.mul_add]
  omega

end ScriptSyntax
