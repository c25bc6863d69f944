/-
  ScriptSyntax/Options/Basic.lean
  ===============================
  The options of one parse, and reading them from JSON.

  Options are written as an object keyed by name or as an array in the order of
  the names.  What is not said keeps its default; an unknown name is passed
  over, and a name said twice is refused.
-/
import ScriptSyntax.Options.Json
import ScriptSyntax.Path

namespace ScriptSyntax

/-! ## 1. Options -/

/-- What one parse is asked to do. -/
structure ParseOptions where
  /-- The kind of script, where the file's name is not to decide. -/
  scriptKind : Option ScriptKind := none
  /-- Record the parent of each node. -/
  linkParents : Bool := true
  /-- Attach documentation comments to the declarations after them. -/
  collectDocs : Bool := true
  /-- Read the directives at the head of the file. -/
  readDirectives : Bool := true
  deriving DecidableEq, Repr, Inhabited

namespace ParseOptions

def withScriptKind (o : ParseOptions) (kind : ScriptKind) : ParseOptions :=
  { o with scriptKind := some kind }

/-- The kind of script that a file is read as. -/
def scriptKindFor (o : ParseOptions) (fileName : String) : ScriptKind :=
  o.scriptKind.getD (ScriptKind.ofPath fileName)

end ParseOptions

/-! ## 2. Reading them -/

/-- The names under which options are written. -/
inductive OptionName where
  | scriptKind | setParentNodes | collectJsdoc | processReferenceDirectives
  deriving DecidableEq, Repr

namespace OptionName

/-- Every name, in the order of an array of options. -/
def all : List OptionName := [.scriptKind, .setParentNodes, .collectJsdoc, .processReferenceDirectives]

def key : OptionName → String
  | .scriptKind => "scriptKind"
  | .setParentNodes => "setParentNodes"
  | .collectJsdoc => "collectJsdoc"
  | .processReferenceDirectives => "processReferenceDirectives"

def ofKey? (key : String) : Option OptionName := all.find? fun n => n.key == key

end OptionName

namespace JsonValue

def bool? : JsonValue → Option Bool
  | .bool b => some b
  | _ => none

/-- A kind of script: its name, or an object whose one key is the name and holds nothing. -/
def scriptKind? : JsonValue → Option ScriptKind
  | .string (some name) => ScriptKind.ofName? name
  | .object [(some name, .null)] => ScriptKind.ofName? name
  | _ => none

def optionalScriptKind? : JsonValue → Option (Option ScriptKind)
  | .null => some none
  | v => v.scriptKind?.map some

end JsonValue

namespace ParseOptions

/-- Sets one option to the value written for it. -/
def set? (o : ParseOptions) (v : JsonValue) : OptionName → Option ParseOptions
  | .scriptKind => v.optionalScriptKind?.map fun k => { o with scriptKind := k }
  | .setParentNodes => v.bool?.map fun b => { o with linkParents := b }
  | .collectJsdoc => v.bool?.map fun b => { o with collectDocs := b }
  | .processReferenceDirectives => v.bool?.map fun b => { o with readDirectives := b }

/-- Sets options from the entries of an object, where `unset` are the names not met so far. -/
def ofEntries? (o : ParseOptions) (unset : List OptionName) :
    List (Option String × JsonValue) → Option ParseOptions
  | [] => some o
  | (none, _) :: _ => none
  | (some key, v) :: rest =>
    match OptionName.ofKey? key with
    | none => ofEntries? o unset rest
    | some name =>
      if unset.contains name then do ofEntries? (← o.set? v name) (unset.erase name) rest
      else none

/-- Sets options from the items of an array, one for each name in turn. -/
def ofItems? (o : ParseOptions) : List OptionName → List JsonValue → Option ParseOptions
  | _, [] => some o
  | [], _ :: _ => none
  | name :: names, v :: rest => do ofItems? (← o.set? v name) names rest

def ofJson? (text : String) : Option ParseOptions := do
  match ← JsonValue.ofText? text with
  | .object entries => ofEntries? {} OptionName.all entries
  | .array items => ofItems? {} OptionName.all items
  | _ => none

end ParseOptions

end ScriptSyntax
