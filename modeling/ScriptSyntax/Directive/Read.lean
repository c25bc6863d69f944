/-
  ScriptSyntax/Directive/Read.lean
  ================================
  Reading the directives of a file: the line comments before its first token.
-/
import ScriptSyntax.Diagnostic.Basic
import ScriptSyntax.Directive.Basic
import ScriptSyntax.Directive.Form
import ScriptSyntax.Text.Source
import ScriptSyntax.Trivia.Comment

namespace ScriptSyntax

/-- Directives read so far, and what is wrong with them. -/
structure DirectiveReading where
  directives : Directives := {}
  diagnostics : List Diagnostic := []
  deriving DecidableEq, Repr

namespace DirectiveReading

/-- Reports something about a comment. -/
def report (r : DirectiveReading) (fileName : String) (c : Comment) (m : Message) :
    DirectiveReading :=
  { r with
    diagnostics := r.diagnostics ++ [.ofMessageAt fileName (Span.ofBounds c.pos c.stop) m []] }

def addReference (r : DirectiveReading) (fileName : String) (c : Comment) :
    ReferenceForm → DirectiveReading
  | .noDefaultLibrary => { r with directives := { r.directives with noDefaultLibrary := true } }
  | .file name =>
    { r with directives := { r.directives with
        referencedFiles := r.directives.referencedFiles ++ [⟨c.pos, c.stop, name⟩] } }
  | .types name =>
    { r with directives := { r.directives with
        referencedTypes := r.directives.referencedTypes ++ [⟨c.pos, c.stop, name⟩] } }
  | .invalid => r.report fileName c .invalidReferenceDirective

/-- Names the module. That it has a name already is reported. -/
def nameModule (r : DirectiveReading) (fileName : String) (c : Comment) (name : String) :
    DirectiveReading :=
  let r := if r.directives.moduleName.isSome then r.report fileName c .amdModuleNamedTwice else r
  { r with directives := { r.directives with moduleName := some name } }

def addDependency (r : DirectiveReading) (path : String) (name : Option String) :
    DirectiveReading :=
  { r with directives := { r.directives with
      dependencies := r.directives.dependencies ++ [⟨path, name⟩] } }

def setCheck (r : DirectiveReading) (c : Comment) (enabled : Bool) : DirectiveReading :=
  { r with directives := { r.directives with check := some ⟨enabled, c.pos, c.stop⟩ } }

def addComment (r : DirectiveReading) (fileName : String) (text : Array Char) (c : Comment) :
    DirectiveReading :=
  let source := (c.source text).toList
  if c.kind != .singleLineComment then r
  else
    match referenceForm? source with
    | some form => r.addReference fileName c form
    | none =>
      let r := ((moduleNameForm? source).map (r.nameModule fileName c)).getD r
      let r := ((dependencyForm? source).map fun d => r.addDependency d.1 d.2).getD r
      ((checkForm? source).map (r.setCheck c)).getD r

end DirectiveReading

/-- The directives of a file, and what is wrong with them. -/
def readDirectives (fileName : String) (text : Array Char) : DirectiveReading :=
  (Comment.leading text 0).foldl (fun r c => r.addComment fileName text c) {}

end ScriptSyntax
