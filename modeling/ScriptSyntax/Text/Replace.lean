/-
  ScriptSyntax/Text/Replace.lean
  ==============================
  Replacing every occurrence of a word in a text, from the left and without
  overlaps.
-/

namespace ScriptSyntax

/-- Replaces in a list of characters, the first `skip` of which belong to an occurrence that is
already replaced. -/
def replaceFrom (word replacement : List Char) : Nat → List Char → List Char
  | _, [] => []
  | skip + 1, _ :: cs => replaceFrom word replacement skip cs
  | 0, c :: cs =>
    if word.isPrefixOf (c :: cs) then
      replacement ++ replaceFrom word replacement (word.length - 1) cs
    else c :: replaceFrom word replacement 0 cs

/-- Replaces every occurrence of a word that is not empty. -/
def replaceAll (word replacement text : String) : String :=
  String.ofList (replaceFrom word.toList replacement.toList 0 text.toList)

end ScriptSyntax
