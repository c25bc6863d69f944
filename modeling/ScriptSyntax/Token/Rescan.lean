/-
  ScriptSyntax/Token/Rescan.lean
  ==============================
  Reading a token again where the grammar gives its characters another meaning:
  operators that start with `>`, regular expressions, the pieces of a template
  after its first, the first of two `<`, and the text, names and attribute
  values of JSX.
-/
import ScriptSyntax.Token.Scan

namespace ScriptSyntax

namespace Token

/-! ## 1. Operators -/

/-- Reads a lone `>` together with the characters after it. -/
def rescanGreater (text : Array Char) (t : Token) : Scanned :=
  if t.kind == .punct .greaterThan then
    let p := greaterThanOf text[t.stop]? text[t.stop + 1]? text[t.stop + 2]?
    ({ t with kind := .punct p, stop := t.stop + (p.text.length - 1) }, [])
  else (t, [])

/-- Splits off the first of two `<`. -/
def rescanLess (t : Token) : Scanned :=
  if t.kind == .punct .lessThanLessThan then
    ({ t with kind := .punct .lessThan, stop := t.start + 1 }, [])
  else (t, [])

/-! ## 2. Regular expressions -/

/-- Where the body of a regular expression ends, and whether its closing slash was found. A slash
in a class of characters, or after a backslash, does not close. -/
def regexBodyEnd (text : Array Char) (escaped inClass : Bool) (pos : Nat) : Nat × Bool :=
  if h : pos < text.size then
    let c := text[pos]
    if isLineBreak c then (pos, false)
    else if escaped then regexBodyEnd text false inClass (pos + 1)
    else if c == '/' && !inClass then (pos + 1, true)
    else
      regexBodyEnd text (c == '\\') (c == '[' || (inClass && c != ']')) (pos + 1)
  else (pos, false)
termination_by text.size - pos

/-- Reads a slash as the start of a regular expression. -/
def rescanSlash (text : Array Char) (t : Token) : Scanned :=
  if t.kind == .punct .slash || t.kind == .punct .slashEquals then
    let body := regexBodyEnd text false false (t.start + 1)
    let stop := scanWhile isIdentifierPart text body.1
    let errors := if body.2 then [] else [⟨.unterminatedRegularExpression, body.1, 0⟩]
    ({ t with
        kind := .literal .regularExpression
        stop := stop
        value := sliceOf text t.start stop
        flags := { t.flags with unterminated := t.flags.unterminated || !body.2 } }, errors)
  else (t, [])

/-! ## 3. Templates -/

/-- Reads the piece of a template that the brace closing a substitution starts. -/
def rescanTemplate (text : Array Char) (t : Token) : Scanned :=
  let l := readTemplatePiece text t.start
  ({ t with kind := l.kind, stop := l.stop, value := l.value, flags := t.flags.join l.flags },
    l.errors)

/-! ## 4. JSX -/

/-- Extends a name by the hyphens that JSX allows in it. -/
def scanJsxName (text : Array Char) (t : Token) : Scanned :=
  if t.kind.isName then
    let stop := scanWhile (fun c => c == '-' || isIdentifierPart c) text t.stop
    ({ t with stop := stop, value := t.value ++ sliceOf text t.stop stop }, [])
  else (t, [])

/-- Reads text between tags from `pos` on, up to a brace or a tag. `seenText` says that something
but white space was met, `seenBreak` that a line break was met before anything else. -/
def jsxTextFrom (text : Array Char) (seenText seenBreak : Bool) (errors : List ScanError)
    (pos : Nat) : Lexeme :=
  if h : pos < text.size then
    let c := text[pos]
    if c == '{' then done
    else if c == '<' then
      if isConflictMarker text pos then
        jsxTextFrom text seenText seenBreak
          (errors ++ [⟨.mergeConflictMarker, pos, conflictMarkerLength⟩])
          (conflictMarkerEnd text pos)
      else done
    else if isLineBreak c && !seenText then jsxTextFrom text seenText true errors (pos + 1)
    else if !isWhiteSpaceLike c then jsxTextFrom text true false errors (pos + 1)
    else jsxTextFrom text seenText seenBreak errors (pos + 1)
  else done
termination_by text.size - pos
decreasing_by
  · have := lt_conflictMarkerEnd text pos; omega
  · omega
  · omega
  · omega
where
  done : Lexeme :=
    { stop := pos
      kind := if seenBreak then .literal .jsxTextAllWhiteSpaces else .literal .jsxText
      errors := errors }

/-- The lexeme at `pos` between tags: a tag, a brace, or text. -/
def jsxLexemeAt (text : Array Char) (pos : Nat) (c : Char) : Lexeme :=
  if c == '<' then
    (if hasCharAt text (pos + 1) '/' then Punctuator.lessThanSlash else .lessThan).lexeme pos
  else if c == '{' then Punctuator.openBrace.lexeme pos
  else
    let l := jsxTextFrom text false false [] pos
    { l with value := sliceOf text pos l.stop }

/-- The token at `pos` between tags, where white space is text. -/
def scanJsxAt (text : Array Char) (pos : Nat) : Scanned :=
  match text[pos]? with
  | some c => (jsxLexemeAt text pos c).toToken pos ⟨pos, {}, []⟩
  | none => (⟨pos, pos, pos, .endOfFile, "", {}⟩, [])

/-- The token after a token, between tags. -/
def nextJsx (text : Array Char) (t : Token) : Scanned := scanJsxAt text t.stop

/-- Reads a token again, trivia included, as one between tags. -/
def rescanJsx (text : Array Char) (t : Token) : Scanned := scanJsxAt text t.fullStart

/-- The token after the equals sign of an attribute: a quoted string taken as it stands, or any
other token. -/
def nextJsxAttributeValue (text : Array Char) (t : Token) : Scanned :=
  match text[t.stop]? with
  | some c =>
    if c == '"' || c == '\'' then
      let first := t.stop + 1
      let close := scanWhile (fun d => d != c) text first
      let closed := close < text.size
      (⟨t.stop, t.stop, if closed then close + 1 else close, .literal .string,
          sliceOf text first close, { unterminated := !closed }⟩,
        if closed then [] else [⟨.unterminatedString, close, 0⟩])
    else t.next text
  | none => t.next text

end Token

end ScriptSyntax
