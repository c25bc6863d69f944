/-
  ScriptSyntax/File/Parse.lean
  ============================
  Parsing files: from text, from bytes, several at once, and a name by itself.

  No text fails to parse: what is wrong with it ends up in the diagnostics.
  Bytes fail where they are no text.
-/
import ScriptSyntax.Directive.Read
import ScriptSyntax.File.Basic
import ScriptSyntax.Grammar.File
import ScriptSyntax.Options.Basic

namespace ScriptSyntax

/-! ## 1. Failures -/

/-- Why there is no parsed file. -/
inductive ParseFailure where
  /-- The bytes of the file are not valid UTF-8. -/
  | notUtf8 (fileName : String)
  /-- The parser itself failed. -/
  | internal (fault : Fault)
  deriving DecidableEq, Repr

def ParseFailure.describe : ParseFailure → String
  | .notUtf8 fileName => fileName ++ ": source is not valid UTF-8"
  | .internal fault => "internal parser error: " ++ fault.describe

/-! ## 2. After the parse -/

/-- The contexts that hold everywhere in a file of the given kind. -/
def ScriptKind.context (kind : ScriptKind) : ContextFlags :=
  { javaScriptFile := kind.isJavaScript }

/-- What the productions read of a file. -/
def SourceFacts.ofText (fileName : String) (text : SourceText) (kind : ScriptKind) : SourceFacts :=
  { name := normalizePath fileName, text := text.chars, variant := kind.variant }

/-- Completes a file after its tree has been made: parents, directives and documentation, as far
as they are asked for. What is wrong with the directives comes after all other diagnostics. -/
def completeFile (fileName : String) (text : SourceText) (options : ParseOptions) (root : NodeId)
    (s : ParserState) : SourceFile :=
  let name := normalizePath fileName
  let reading := if options.readDirectives then readDirectives name text.chars else {}
  let arena := if options.linkParents then s.arena.linkParents root else s.arena
  { name, text, root, arena
    scriptKind := options.scriptKindFor fileName
    names := s.names
    identifierCount := s.identifierCount
    diagnostics := s.log.entries.toList ++ reading.diagnostics
    directives := reading.directives
    docs := if options.collectDocs then arena.docs text.chars else [] }

/-! ## 3. Parsing -/

/-- Parses a text as a file of the given name. -/
def parseText (fileName : String) (text : SourceText) (options : ParseOptions) :
    Except ParseFailure SourceFile :=
  let kind := options.scriptKindFor fileName
  let (root, s) := Parser.sourceFile.runOn (.ofText fileName text kind) kind.context
  match s.fault with
  | some fault => .error (.internal fault)
  | none => .ok (completeFile fileName text options root s)

/-- Parses a string as a file of the given name. -/
def parseFile (fileName text : String) (options : ParseOptions) : Except ParseFailure SourceFile :=
  parseText fileName (.ofString text) options

/-- Parses bytes, which must be UTF-8, as a file of the given name. -/
def parseBytes (fileName : String) (bytes : ByteArray) (options : ParseOptions) :
    Except ParseFailure SourceFile :=
  match String.fromUTF8? bytes with
  | some text => parseFile fileName text options
  | none => .error (.notUtf8 fileName)

/-- Parses several files, given by name and text, each by itself. -/
def parseFiles (files : List (String × String)) (options : ParseOptions) :
    List (Except ParseFailure SourceFile) :=
  files.map fun file => parseFile file.1 file.2 options

/-- The options of a name by itself: the tree and nothing more. -/
def ParseOptions.bare : ParseOptions :=
  { linkParents := false, collectDocs := false, readDirectives := false }

/-- Parses a text as one name, possibly dotted. There is none unless all of the text is that name,
without an error. -/
def parseEntityName (text : String) : Option (SourceFile × NodeId) :=
  let fileName := "entity.ts"
  let source := SourceText.ofString text
  let kind := ParseOptions.bare.scriptKindFor fileName
  let (parsed, s) := Parser.wholeName.runOn (.ofText fileName source kind) kind.context
  match parsed, s.fault with
  | some (root, name), none => some (completeFile fileName source .bare root s, name)
  | _, _ => none

end ScriptSyntax
