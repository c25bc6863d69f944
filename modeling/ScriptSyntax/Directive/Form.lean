/-
  ScriptSyntax/Directive/Form.lean
  ================================
  The forms of directives, read from the text of one line comment.

  A directive is a tag after three slashes, or a word with `@` in front of it.
  The comment is the text of one line, so an attribute's value never runs over
  a line break.
-/
import ScriptSyntax.Text.Prose

namespace ScriptSyntax

/-! ## 1. Attributes -/

/-- What follows at least one blank at the start of a text. -/
def afterBlanks? : List Char → Option (List Char)
  | [] => none
  | c :: cs => if isBlank c then some (dropBlanks cs) else none

/-- A quoted value, and what follows it. The value holds at least one character, so a quote that
comes first belongs to it. -/
def quotedValue? : List Char → Option (String × List Char)
  | q :: first :: cs =>
    if q == '"' || q == '\'' then
      match cs.span fun c => c != q with
      | (_, []) => none
      | (value, _ :: after) => some (String.ofList (first :: value), after)
    else none
  | _ => none

/-- What follows the name of an attribute and the equals sign, if they start the text. -/
def afterAttributeName? (name : String) (cs : List Char) : Option (List Char) := do
  let rest ← afterText? "=" (dropBlanks (← afterText? name cs))
  return dropBlanks rest

/-- The value of the attribute that starts the text, if it has the given name, and what follows. -/
def attribute? (name : String) (cs : List Char) : Option (String × List Char) := do
  quotedValue? (← afterAttributeName? name cs)

/-- The value of the first attribute with the given name, anywhere after a blank. -/
def findAttribute? (name : String) : List Char → Option String
  | [] => none
  | c :: cs =>
    match if isBlank c then attribute? name cs else none with
    | some (value, _) => some value
    | none => findAttribute? name cs

/-- Does the end of a tag stand somewhere in the text? -/
def closesTag : List Char → Bool
  | [] => false
  | c :: cs => (afterText? "/>" (c :: cs)).isSome || closesTag cs

/-! ## 2. Tags -/

/-- What follows the opening of the given tag, if the comment starts with that. -/
def afterTag? (tag : String) (comment : List Char) : Option (List Char) := do
  afterText? tag (dropBlanks (← afterText? "///" comment))

/-- A reference to something outside the file. -/
inductive ReferenceForm where
  | noDefaultLibrary
  | file (name : String)
  | types (name : String)
  | invalid
  deriving DecidableEq, Repr

/-- Is this the attribute that asks for no default library, and the end of the tag? The value is
in quotes and may be anything. -/
def asksForNoLibrary (attributes : List Char) : Bool :=
  match afterAttributeName? "no-default-lib" attributes with
  | some (q :: cs) =>
    (q == '"' || q == '\'') &&
      match (cs.dropWhile fun c => c != q) with
      | [] => false
      | _ :: after => (afterText? "/>" (dropBlanks after)).isSome
  | _ => false

/-- The value of the first attribute of a tag, if it has the given name and the tag ends. -/
def taggedValue? (name : String) (attributes : List Char) : Option String := do
  let (value, after) ← attribute? name attributes
  if closesTag after then some value else none

def referenceForm? (comment : List Char) : Option ReferenceForm := do
  let attributes ← afterBlanks? (← afterTag? "<reference" comment)
  if asksForNoLibrary attributes then return .noDefaultLibrary
  match taggedValue? "path" attributes with
  | some name => return .file name
  | none =>
    match taggedValue? "types" attributes with
    | some name => return .types name
    | none => return .invalid

def moduleNameForm? (comment : List Char) : Option String := do
  let attributes ← afterBlanks? (← afterTag? "<amd-module" comment)
  return (← attribute? "name" attributes).1

/-- The path of the module that a comment declares a dependency on, and the name for it. -/
def dependencyForm? (comment : List Char) : Option (String × Option String) := do
  let _ ← afterBlanks? (← afterTag? "<amd-dependency" comment)
  let path ← findAttribute? "path" comment
  return (path, findAttribute? "name" comment)

/-! ## 3. Words -/

/-- The letter of ASCII that a character is a form of: its lower case, or the letter of which it
is the long or the sign form. -/
def foldLetter (c : Char) : Char :=
  if c == '\u017f' then 's' else if c == '\u212a' then 'k' else c.toLower

/-- Does the comment turn checking on or off? The word may be in any case; only in letters of
ASCII does it turn checking on. -/
def checkForm? (comment : List Char) : Option Bool := do
  let rest ← afterText? "//" comment
  let word := dropFinalBlanks (← afterText? "@" (dropBlanks (dropOne '/' rest)))
  let folded := String.ofList (word.map foldLetter)
  if folded == "ts-check" || folded == "ts-nocheck" then
    some (String.ofList (word.map Char.toLower) == "ts-check")
  else none

end ScriptSyntax
