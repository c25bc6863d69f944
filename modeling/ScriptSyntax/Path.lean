/-
  ScriptSyntax/Path.lean
  ======================
  File names, and what they say about a file's contents: which kind of script
  it is, whether tags are part of the syntax, and whether it only declares.
-/

namespace ScriptSyntax

/-! ## 1. Kinds of script -/

/-- Whether `<` may open a JSX element. -/
inductive LanguageVariant where
  | standard | jsx
  deriving DecidableEq, Repr

/-- How the text of a file is read. -/
inductive ScriptKind where
  | ts | tsx | js | jsx
  deriving DecidableEq, Repr

namespace ScriptKind

/-- Every kind of script. -/
def all : List ScriptKind := [.ts, .tsx, .js, .jsx]

def name : ScriptKind → String
  | .ts => "ts"
  | .tsx => "tsx"
  | .js => "js"
  | .jsx => "jsx"

/-- The kind of script of the given name. -/
def ofName? (name : String) : Option ScriptKind := all.find? fun k => k.name == name

/-- Tags are syntax everywhere but in plain typed scripts. -/
def variant : ScriptKind → LanguageVariant
  | .ts => .standard
  | .tsx | .js | .jsx => .jsx

/-- Scripts without types. -/
def isJavaScript : ScriptKind → Bool
  | .js | .jsx => true
  | .ts | .tsx => false

end ScriptKind

/-! ## 2. Extensions -/

/-- The extensions that say something about a file. -/
inductive Extension where
  | dts | tsx | jsx | mts | cts | mjs | cjs | ts | js
  deriving DecidableEq, Repr

namespace Extension

/-- Every extension, such that no extension stands before one that ends with it. -/
def all : List Extension := [.dts, .tsx, .jsx, .mts, .cts, .mjs, .cjs, .ts, .js]

/-- The text of an extension, dot included. -/
def text : Extension → String
  | .dts => ".d.ts"
  | .tsx => ".tsx"
  | .jsx => ".jsx"
  | .mts => ".mts"
  | .cts => ".cts"
  | .mjs => ".mjs"
  | .cjs => ".cjs"
  | .ts => ".ts"
  | .js => ".js"

/-- The extension of a path, letters of either case. -/
def ofPath? (path : String) : Option Extension :=
  let lower := path.toList.map Char.toLower
  all.find? fun e => e.text.toList.isSuffixOf lower

end Extension

/-- The kind of script that a file name implies. -/
def ScriptKind.ofPath (path : String) : ScriptKind :=
  match Extension.ofPath? path with
  | some .tsx => .tsx
  | some .jsx => .jsx
  | some .js | some .mjs | some .cjs => .js
  | _ => .ts

/-- Does the path name a file that only declares? -/
def isDeclarationFileName (path : String) : Bool := Extension.ofPath? path == some .dts

/-! ## 3. Normal form -/

/-- Writes every backslash as a slash. -/
def normalizeSlashes (path : String) : String :=
  String.ofList (path.toList.map fun c => if c == '\\' then '/' else c)

/-- The number of characters of a path's root: a slash, or a drive with one. -/
def rootLength : List Char → Nat
  | '/' :: _ => 1
  | c :: ':' :: '/' :: _ => if c.isAlpha then 3 else 0
  | _ => 0

def splitSlashes : List Char → List (List Char)
  | [] => [[]]
  | '/' :: cs => [] :: splitSlashes cs
  | c :: cs =>
    match splitSlashes cs with
    | [] => [[c]]
    | piece :: pieces => (c :: piece) :: pieces

/-- One more segment after those kept so far, the last kept first. An empty one and `.` name the
same place; `..` takes back the segment before it, and where there is none it stays in a relative
path and is dropped at a root. -/
def pushSegment (rooted : Bool) (kept : List (List Char)) (segment : List Char) :
    List (List Char) :=
  if segment == [] || segment == ['.'] then kept
  else if segment == ['.', '.'] then
    match kept with
    | last :: before =>
      if last != ['.', '.'] then before
      else if rooted then kept else segment :: kept
    | [] => if rooted then kept else [segment]
  else segment :: kept

/-- The normal form of a path: slashes only, no empty or `.` segment, and `..` only at the start
of a relative path. A final slash stays where a segment stands before it. -/
def normalizePath (path : String) : String :=
  let chars := (normalizeSlashes path).toList
  let root := chars.take (rootLength chars)
  let rest := chars.drop (rootLength chars)
  let kept := ((splitSlashes rest).foldl (pushSegment !root.isEmpty) []).reverse
  let closing := if rest.getLast? == some '/' && !kept.isEmpty then ['/'] else []
  String.ofList (root ++ ['/'].intercalate kept ++ closing)

end ScriptSyntax
