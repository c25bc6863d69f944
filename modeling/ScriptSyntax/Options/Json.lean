/-
  ScriptSyntax/Options/Json.lean
  ==============================
  Reading JSON text, as far as options need it.

  Options are names, truth values and nothing, so the value of a number is not
  kept.  A string may spell half of a surrogate pair, which stands for no text;
  such a string is well formed, but it has no value.
-/
import ScriptSyntax.Text.CharClass

namespace ScriptSyntax

/-! ## 1. Values -/

/-- A JSON value. The entries of an object are in the order in which they are written, and a key
may occur more than once. A string without text is one that spells half of a surrogate pair. -/
inductive JsonValue where
  | null
  | bool (value : Bool)
  | number
  | string (text : Option String)
  | array (items : List JsonValue)
  | object (entries : List (Option String × JsonValue))
  deriving Repr

namespace JsonText

/-! ## 2. Blanks and words -/

/-- The characters that may stand between the parts of a JSON text. -/
def isBlank (c : Char) : Bool := c == ' ' || c == '\n' || c == '\r' || c == '\t'

def skipBlanks (cs : List Char) : List Char := cs.dropWhile isBlank

/-- The text after a word that it must start with. -/
def word? : List Char → List Char → Option (List Char)
  | [], rest => some rest
  | w :: ws, c :: cs => if w == c then word? ws cs else none
  | _ :: _, [] => none

/-! ## 3. Numbers -/

/-- The text after one or more digits. -/
def digits? : List Char → Option (List Char)
  | [] => none
  | c :: cs => if isDigit c then some (cs.dropWhile isDigit) else none

/-- The text after a whole number, which starts with no needless zero. -/
def whole? : List Char → Option (List Char)
  | '0' :: cs => some cs
  | cs => digits? cs

def fraction? : List Char → Option (List Char)
  | '.' :: cs => digits? cs
  | cs => some cs

def exponent? : List Char → Option (List Char)
  | c :: cs =>
    if c == 'e' || c == 'E' then
      match cs with
      | '+' :: ds => digits? ds
      | '-' :: ds => digits? ds
      | ds => digits? ds
    else some (c :: cs)
  | [] => some []

def number? (cs : List Char) : Option (List Char) :=
  let unsigned := match cs with
    | '-' :: ds => ds
    | ds => ds
  whole? unsigned >>= fraction? >>= exponent?

/-! ## 4. Strings -/

/-- The code unit that four hexadecimal digits spell. -/
def codeUnit? : List Char → Option (Nat × List Char)
  | a :: b :: c :: d :: rest => do
    let n ← hexNumber? [a, b, c, d]
    return (n, rest)
  | _ => none

def escaped? : Char → Option Char
  | '"' => some '"'
  | '\\' => some '\\'
  | '/' => some '/'
  | 'b' => some '\x08'
  | 'f' => some '\x0c'
  | 'n' => some '\n'
  | 'r' => some '\r'
  | 't' => some '\t'
  | _ => none

/-- The code units of a string up to its closing quote; a character that is not escaped counts as
one unit. -/
def units? : Nat → List Char → Option (List Nat × List Char)
  | 0, _ => none
  | _ + 1, [] => none
  | _ + 1, '"' :: cs => some ([], cs)
  | fuel + 1, '\\' :: 'u' :: cs => do
    let (unit, rest) ← codeUnit? cs
    let (units, rest) ← units? fuel rest
    return (unit :: units, rest)
  | fuel + 1, '\\' :: c :: cs => do
    let d ← escaped? c
    let (units, rest) ← units? fuel cs
    return (d.toNat :: units, rest)
  | fuel + 1, c :: cs => do
    if c.toNat < 0x20 then none
    let (units, rest) ← units? fuel cs
    return (c.toNat :: units, rest)

/-- The characters that code units stand for, two halves of a pair being one character. -/
def joinUnits? : List Nat → Option (List Char)
  | [] => some []
  | [u] => (charOfCodePoint? u).map ([·])
  | u :: v :: rest =>
    if 0xD800 ≤ u && u < 0xDC00 then
      if 0xDC00 ≤ v && v < 0xE000 then do
        let c ← charOfCodePoint? (0x10000 + (u - 0xD800) * 0x400 + (v - 0xDC00))
        return c :: (← joinUnits? rest)
      else none
    else do
      let c ← charOfCodePoint? u
      return c :: (← joinUnits? (v :: rest))

/-- A string whose opening quote has been read. -/
def string? (cs : List Char) : Option (Option String × List Char) := do
  let (units, rest) ← units? (cs.length + 1) cs
  return ((joinUnits? units).map String.ofList, rest)

/-! ## 5. Values -/

mutual

def value? : Nat → List Char → Option (JsonValue × List Char)
  | 0, _ => none
  | fuel + 1, cs =>
    match skipBlanks cs with
    | '"' :: rest => do
      let (s, rest) ← string? rest
      return (.string s, rest)
    | '[' :: rest =>
      match skipBlanks rest with
      | ']' :: rest => some (.array [], rest)
      | rest => do
        let (items, rest) ← items? fuel rest
        return (.array items, rest)
    | '\x7b' :: rest =>
      match skipBlanks rest with
      | '\x7d' :: rest => some (.object [], rest)
      | rest => do
        let (entries, rest) ← entries? fuel rest
        return (.object entries, rest)
    | 'n' :: rest => do return (.null, ← word? "ull".toList rest)
    | 't' :: rest => do return (.bool true, ← word? "rue".toList rest)
    | 'f' :: rest => do return (.bool false, ← word? "alse".toList rest)
    | rest => do return (.number, ← number? rest)

/-- The items of an array, at least one, and the text after its end. -/
def items? : Nat → List Char → Option (List JsonValue × List Char)
  | 0, _ => none
  | fuel + 1, cs => do
    let (item, rest) ← value? fuel cs
    match skipBlanks rest with
    | ',' :: rest =>
      let (items, rest) ← items? fuel rest
      return (item :: items, rest)
    | ']' :: rest => return ([item], rest)
    | _ => none

/-- The entries of an object, at least one, and the text after its end. -/
def entries? : Nat → List Char → Option (List (Option String × JsonValue) × List Char)
  | 0, _ => none
  | fuel + 1, cs =>
    match skipBlanks cs with
    | '"' :: rest => do
      let (key, rest) ← string? rest
      let rest ← word? [':'] (skipBlanks rest)
      let (value, rest) ← value? fuel rest
      match skipBlanks rest with
      | ',' :: rest =>
        let (entries, rest) ← entries? fuel rest
        return ((key, value) :: entries, rest)
      | '\x7d' :: rest => return ([(key, value)], rest)
      | _ => none
    | _ => none

end

end JsonText

/-- The value that a JSON text spells, with nothing but blanks around it. Each step of the reading
but the last two takes a character, so the length of the text bounds the steps. -/
def JsonValue.ofText? (text : String) : Option JsonValue := do
  let cs := text.toList
  let (value, rest) ← JsonText.value? (2 * cs.length + 2) cs
  if (JsonText.skipBlanks rest).isEmpty then some value else none

end ScriptSyntax
