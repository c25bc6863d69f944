/-
  ScriptSyntax/File/Describe.lean
  ===============================
  A parsed file in one line, for inspection.
-/
import ScriptSyntax.File.Basic
import ScriptSyntax.Text.IdentifierRanges

namespace ScriptSyntax

/-- A number in lower-case hexadecimal digits. -/
def hexDigits (n : Nat) : String := String.ofList (Nat.toDigits 16 n)

/-- The code points that show nothing of their own when they are printed: controls, blanks other
than the space, format characters, combining marks, private use, and what is no character. -/
def invisibleRanges : List (Nat × Nat) :=
  [(0x0, 0x1F), (0x7F, 0xA0), (0xAD, 0xAD), (0x300, 0x36F), (0x483, 0x489), (0x600, 0x605),
    (0x61C, 0x61C), (0x6DD, 0x6DD), (0x70F, 0x70F), (0x1680, 0x1680), (0x180B, 0x180F),
    (0x1AB0, 0x1ACE), (0x1DC0, 0x1DFF), (0x2000, 0x200F), (0x2028, 0x202F), (0x205F, 0x206F),
    (0x20D0, 0x20F0), (0x3000, 0x3000), (0x302A, 0x302F), (0x3099, 0x309A), (0xE000, 0xF8FF),
    (0xFDD0, 0xFDEF), (0xFE00, 0xFE0F), (0xFE20, 0xFE2F), (0xFEFF, 0xFEFF), (0xFF9E, 0xFF9F),
    (0xFFF0, 0xFFFB), (0xFFFE, 0xFFFF), (0xE0000, 0x10FFFF)]

/-- Does the character show nothing of its own when it is printed? -/
def isInvisible (c : Char) : Bool := inRanges invisibleRanges c.toNat

/-- A character as it is shown inside quotes. -/
def quotedChar (c : Char) : String :=
  if c == '"' then "\\\""
  else if c == '\\' then "\\\\"
  else if c == '\n' then "\\n"
  else if c == '\r' then "\\r"
  else if c == '\t' then "\\t"
  else if c == '\x00' then "\\0"
  else if isInvisible c then "\\u\x7b" ++ hexDigits c.toNat ++ "\x7d"
  else String.singleton c

def quoted (s : String) : String := "\"" ++ String.join (s.toList.map quotedChar) ++ "\""

/-- A kind of script as it is shown. -/
def ScriptKind.describe : ScriptKind → String
  | .ts => "Ts"
  | .tsx => "Tsx"
  | .js => "Js"
  | .jsx => "Jsx"

/-- The name, the kind of script and the sizes of a file. -/
def SourceFile.describe (f : SourceFile) : String :=
  "SourceFile \x7b file_name: " ++ quoted f.name ++ ", script_kind: " ++ f.scriptKind.describe
    ++ ", node_count: " ++ toString f.nodeCount
    ++ ", identifier_count: " ++ toString f.identifierCount
    ++ ", parse_diagnostics: " ++ toString f.diagnostics.length ++ ", .. \x7d"

end ScriptSyntax
