/-
  ScriptSyntax/Proofs/File/Parse.lean
  ===================================
  No text fails to parse.

  The parser notes a failure where a node would end before it starts, where a
  number has no node, where the statements end before the text and where it runs
  out of steps.  None of this happens, whatever the text: every list without
  separators reads on as long as its question says that an element starts.
-/
import ScriptSyntax.Proofs.Grammar.File
import ScriptSyntax.File.Parse

namespace ScriptSyntax

open ScriptSyntax.Parser

/-! ## 1. The state after a parse -/

theorem runOn_sourceFile (file : SourceFacts) (context : ContextFlags) :
    Rooted file.text context (sourceFile.runOn file context).1 (sourceFile.runOn file context).2 :=
  sourceFile_ends file context

/-- Every text parses, and the file is made from the state after the statements. -/
theorem parseText_eq_completeFile (fileName : String) (text : SourceText) (options : ParseOptions) :
    let kind := options.scriptKindFor fileName
    let run := sourceFile.runOn (.ofText fileName text kind) kind.context
    parseText fileName text options = .ok (completeFile fileName text options run.1 run.2) := by
  extract_lets kind run
  have hrooted := runOn_sourceFile (.ofText fileName text kind) kind.context
  unfold parseText
  dsimp only
  rw [hrooted.run.ok.faultless]

/-- Every text parses, and the file is made from a state in which all is well. -/
theorem exists_rooted (fileName : String) (text : SourceText) (options : ParseOptions) :
    ∃ context root s, Rooted text.chars context root s
      ∧ parseText fileName text options = .ok (completeFile fileName text options root s) :=
  ⟨_, _, _, runOn_sourceFile (.ofText fileName text _) _, parseText_eq_completeFile fileName text options⟩

/-! ## 2. Lists without separators -/

/-- The lists without separators, and what parses their elements. -/
inductive ListsElements : ListContext → Parser NodeId → Prop where
  | sourceElements : ListsElements .sourceElements (parse .statement)
  | blockStatements : ListsElements .blockStatements (parse .statement)
  | switchClauseStatements : ListsElements .switchClauseStatements (parse .statement)
  | switchClauses : ListsElements .switchClauses switchClause
  | typeMembers : ListsElements .typeMembers typeMember
  | classMembers : ListsElements .classMembers classMember
  | heritageClauses : ListsElements .heritageClauses heritageClause
  | jsxAttributes : ListsElements .jsxAttributes jsxAttribute

/-- Whatever the question of a list lets in takes a token. -/
theorem ListsElements.takes {list : ListContext} {element : Parser NodeId}
    (h : ListsElements list element) {env : Surroundings} {s : ParserState}
    (hready : env.Ready Production.topRank s)
    (hstarts : (startsElement list false).answer env s = true) : element.Gives env true s s := by
  cases h with
  | sourceElements | blockStatements | switchClauseStatements =>
    exact parse_takes .statement hready (by decide) trivial hstarts
  | switchClauses => exact switchClause_takes hready (startsElement_switchClauses hstarts)
  | typeMembers => exact typeMember_takes hready hstarts
  | classMembers => exact classMember_takes hready hstarts
  | heritageClauses =>
    refine heritageClause_takes hready fun hkind => ?_
    have hword : s.token.kind.isHeritageWord = true := hstarts
    rw [hkind] at hword
    cases hword
  | jsxAttributes =>
    exact jsxAttribute_takes hready ((answer_or hstarts rfl).imp_right beq_iff_eq.mp)

/-! ## 3. Every text parses -/

end ScriptSyntax
