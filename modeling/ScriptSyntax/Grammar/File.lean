/-
  ScriptSyntax/Grammar/File.lean
  ==============================
  A whole file, as statements or as one name.
-/
import ScriptSyntax.Grammar.Productions

namespace ScriptSyntax

namespace Parser

/-- The root of the tree, at the end of the file. It covers the whole text. -/
def root (statements : NodeArray) : Parser NodeId := do
  let endOfFile ← tokenNode
  let stop := (← read).file.text.size
  finishAt {
    kind := .node .sourceFile, pos := 0, stop, payload := .sourceFile statements endOfFile }

def sourceFile : Parser NodeId := do
  nextToken
  let statements ← elements .sourceElements (parse .statement)
  let k ← kind
  if k != .endOfFile then fail (.statementsEndedEarly k)
  root statements

/-- A name, possibly dotted, that is all of the text: the root and the name. The root does not
hold the name. -/
def wholeName : Parser (Option (NodeId × NodeId)) := do
  nextToken
  let name ← entityName true .identifierExpected
  if (← kind) == .endOfFile && (← get).log.isEmpty then return some (← root (.empty 0), name)
  else return none

end Parser

end ScriptSyntax
