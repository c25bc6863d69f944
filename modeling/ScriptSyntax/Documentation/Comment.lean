/-
  ScriptSyntax/Documentation/Comment.lean
  =======================================
  Documentation comments: a description, then tags.

  A line that starts with `@` starts a tag, and the lines up to the next tag
  belong to it.  What a tag is made of depends on its label; types are kept as
  they are written.
-/
import ScriptSyntax.Text.Prose

namespace ScriptSyntax

/-! ## 1. Comments and tags -/

/-- A tag of a documentation comment. -/
structure DocTag where
  label : String
  /-- The parameter, the type parameters or the type that the tag is about. -/
  name : Option String
  /-- What stands between the braces. -/
  type : Option String
  comment : Option String
  deriving DecidableEq, Repr

/-- A documentation comment, and where it stands. -/
structure DocComment where
  pos : Nat
  stop : Nat
  /-- The text before the first tag. -/
  comment : Option String
  tags : List DocTag
  deriving DecidableEq, Repr

/-- The first tag with the given label. -/
def DocComment.tag? (d : DocComment) (label : String) : Option DocTag :=
  d.tags.find? fun t => t.label == label

/-! ## 2. Parts of a tag -/

/-- What stands before the brace that closes `depth + 1` open ones, and what stands after it.
Where no brace does, all stands before it. -/
def splitAtClosingBrace : Nat → List Char → List Char × List Char
  | _, [] => ([], [])
  | depth, '{' :: cs =>
    let (inner, after) := splitAtClosingBrace (depth + 1) cs
    ('{' :: inner, after)
  | 0, '}' :: cs => ([], cs)
  | depth + 1, '}' :: cs =>
    let (inner, after) := splitAtClosingBrace depth cs
    ('}' :: inner, after)
  | depth, c :: cs =>
    let (inner, after) := splitAtClosingBrace depth cs
    (c :: inner, after)

/-- A type in braces, if the text starts with one, and the rest of the text. -/
def takeDocType (text : List Char) : Option String × List Char :=
  match dropBlanks text with
  | '{' :: rest =>
    let (inner, after) := splitAtClosingBrace 0 rest
    (some (String.ofList (trimBlanks inner)), after)
  | rest => (none, rest)

/-- A name, and the rest of the text. Square brackets around it, and a default before the closing
one, are left out. -/
def takeDocName (text : List Char) : Option String × List Char :=
  match dropBlanks text with
  | '[' :: rest =>
    let (inner, after) := rest.span fun c => c != ']'
    (someText (trimBlanks (inner.takeWhile fun c => c != '=')), after.drop 1)
  | rest =>
    let (name, after) := rest.span fun c => !isBlank c
    (someText name, after)

/-- Names with commas between them, and the rest of the text, where `last` is the character before
it. A blank ends the names unless a comma stands before or after it. -/
def splitDocNames (last : Option Char) : List Char → List Char × List Char
  | [] => ([], [])
  | c :: cs =>
    if isBlank c && last != some ',' && (dropBlanks cs).head? != some ',' then ([], c :: cs)
    else
      let (names, after) := splitDocNames (some c) cs
      (c :: names, after)

/-- Names with commas between them, blanks left out, and the rest of the text. -/
def takeDocNames (text : List Char) : Option String × List Char :=
  let (names, after) := splitDocNames none (dropBlanks text)
  (someText (names.filter fun c => !isBlank c), after)

/-- The comment that ends a tag, without a hyphen before it. -/
def tagComment (text : List Char) : Option String :=
  someText (trimBlanks (dropOne '-' (dropBlanks text)))

/-! ## 3. Tags -/

/-- What a tag is made of, a comment apart. -/
inductive DocTagForm where
  /-- A type and a name in either order. -/
  | parameter
  /-- A type. -/
  | typeOnly
  /-- A type, then a name. -/
  | definition
  /-- A type, then names. -/
  | typeParameters
  /-- Nothing. -/
  | plain
  deriving DecidableEq, Repr

/-- What a tag with the given label is made of. -/
def DocTagForm.ofLabel : String → DocTagForm
  | "param" | "arg" | "argument" | "property" | "prop" => .parameter
  | "return" | "returns" | "type" | "this" | "enum" | "augments" | "extends" | "satisfies" =>
    .typeOnly
  | "typedef" | "callback" => .definition
  | "template" => .typeParameters
  | _ => .plain

/-- The type, the name and the comment of a tag. -/
def DocTagForm.read (form : DocTagForm) (text : List Char) :
    Option String × Option String × Option String :=
  match form with
  | parameter =>
    let (type, rest) := takeDocType text
    let (name, rest) := takeDocName rest
    match type with
    | some _ => (type, name, tagComment rest)
    | none =>
      let (type, rest) := takeDocType rest
      (type, name, tagComment rest)
  | typeOnly =>
    let (type, rest) := takeDocType text
    (type, none, tagComment rest)
  | definition =>
    let (type, rest) := takeDocType text
    let (name, rest) := takeDocName rest
    (type, name, tagComment rest)
  | typeParameters =>
    let (type, rest) := takeDocType text
    let (names, rest) := takeDocNames rest
    (type, names, tagComment rest)
  | plain => (none, none, tagComment text)

def joinLines (lines : List (List Char)) : List Char := ['\n'].intercalate lines

/-- A tag with the given label and lines. -/
def DocTag.ofLines (label : List Char) (lines : List (List Char)) : DocTag :=
  let label := String.ofList label
  let (type, name, comment) := (DocTagForm.ofLabel label).read (joinLines lines)
  ⟨label, name, type, comment⟩

/-! ## 4. Comments -/

/-- What is between the delimiters of a comment. A delimiter that is not there is not missed. -/
def commentBody (cs : List Char) : List Char :=
  let rest := (afterText? "/**" cs).getD cs
  ("*/".toList.isSuffixOf? rest).getD rest

/-- A line without its margin: blanks, an asterisk and a space. Blanks at the end are dropped. -/
def dropMargin (line : List Char) : List Char :=
  dropFinalBlanks (dropOne ' ' (dropOne '*' (dropBlanks line)))

/-- The lines before the first tag, and for each tag its label and its lines. -/
def groupByTag : List (List Char) → List (List Char) × List (List Char × List (List Char))
  | [] => ([], [])
  | line :: rest =>
    let (before, tags) := groupByTag rest
    match line with
    | '@' :: text =>
      let (label, after) := text.span fun c => !isBlank c && c != '{'
      ([], (label, dropBlanks after :: before) :: tags)
    | _ => (line :: before, tags)

/-- The documentation that a comment holds, delimiters included, where it stands between the given
positions. -/
def DocComment.parse (comment : String) (pos stop : Nat) : DocComment :=
  let lines := (splitLines (commentBody comment.toList)).map dropMargin
  let (description, tags) := groupByTag lines
  { pos, stop, comment := someText (trimBlanks (joinLines description))
    tags := tags.map fun t => DocTag.ofLines t.1 t.2 }

end ScriptSyntax
