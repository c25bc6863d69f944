/-
  ScriptSyntax/Flags.lean
  =======================
  Yes-or-no facts about tokens, nodes and declarations.

  A set of flags is a structure with one truth value per flag, so that asking
  for a flag is a projection and joining two sets is done flag by flag.  Where a
  set is shown as a number, each flag has its own power of two.
-/
import ScriptSyntax.Kind.Basic

namespace ScriptSyntax

/-- The weight of a flag that is set, and nothing otherwise. -/
def bit (b : Bool) (weight : Nat) : Nat := if b then weight else 0

/-! ## 1. Tokens -/

/-- Facts about a token, noted while it was scanned. -/
structure TokenFlags where
  /-- A line break stands between the token and the one before it. -/
  precedingLineBreak : Bool := false
  /-- A documentation comment stands before the token. -/
  precedingDocComment : Bool := false
  /-- The literal has no end. -/
  unterminated : Bool := false
  /-- An escape of the form with braces occurs. -/
  extendedEscape : Bool := false
  /-- The number has an exponent. -/
  scientific : Bool := false
  /-- The number is octal by a leading zero alone. -/
  legacyOctal : Bool := false
  /-- The number is written in base 16. -/
  hexSpecifier : Bool := false
  /-- The number is written in base 2. -/
  binarySpecifier : Bool := false
  /-- The number is written in base 8. -/
  octalSpecifier : Bool := false
  /-- A separator stands between digits of the number. -/
  containsSeparator : Bool := false
  /-- The identifier has an escaped character. -/
  unicodeEscape : Bool := false
  deriving DecidableEq, Repr

namespace TokenFlags

instance : Inhabited TokenFlags := ⟨{}⟩

def join (a b : TokenFlags) : TokenFlags :=
  { precedingLineBreak := a.precedingLineBreak || b.precedingLineBreak
    precedingDocComment := a.precedingDocComment || b.precedingDocComment
    unterminated := a.unterminated || b.unterminated
    extendedEscape := a.extendedEscape || b.extendedEscape
    scientific := a.scientific || b.scientific
    legacyOctal := a.legacyOctal || b.legacyOctal
    hexSpecifier := a.hexSpecifier || b.hexSpecifier
    binarySpecifier := a.binarySpecifier || b.binarySpecifier
    octalSpecifier := a.octalSpecifier || b.octalSpecifier
    containsSeparator := a.containsSeparator || b.containsSeparator
    unicodeEscape := a.unicodeEscape || b.unicodeEscape }

def bits (f : TokenFlags) : Nat :=
  bit f.precedingLineBreak 1 + bit f.precedingDocComment 2 + bit f.unterminated 4
    + bit f.extendedEscape 8 + bit f.scientific 16 + bit f.legacyOctal 32
    + bit f.hexSpecifier 64 + bit f.binarySpecifier 128 + bit f.octalSpecifier 256
    + bit f.containsSeparator 512 + bit f.unicodeEscape 1024

end TokenFlags

/-! ## 2. Nodes -/

/-- What the surroundings of a node decide: each node carries the context it was parsed in. -/
structure ContextFlags where
  /-- `in` is not an operator here: the head of a `for` statement. -/
  disallowIn : Bool := false
  /-- Inside a generator, where `yield` is a keyword. -/
  yieldContext : Bool := false
  /-- Inside the expression of a decorator. -/
  decoratorContext : Bool := false
  /-- Inside an asynchronous function, where `await` is a keyword. -/
  awaitContext : Bool := false
  /-- A conditional type may not start here. -/
  disallowConditionalTypes : Bool := false
  /-- The file is a script without types. -/
  javaScriptFile : Bool := false
  deriving DecidableEq, Repr

namespace ContextFlags

instance : Inhabited ContextFlags := ⟨{}⟩

def join (a b : ContextFlags) : ContextFlags :=
  { disallowIn := a.disallowIn || b.disallowIn
    yieldContext := a.yieldContext || b.yieldContext
    decoratorContext := a.decoratorContext || b.decoratorContext
    awaitContext := a.awaitContext || b.awaitContext
    disallowConditionalTypes := a.disallowConditionalTypes || b.disallowConditionalTypes
    javaScriptFile := a.javaScriptFile || b.javaScriptFile }

def bits (f : ContextFlags) : Nat :=
  bit f.disallowIn 128 + bit f.yieldContext 256 + bit f.decoratorContext 512
    + bit f.awaitContext 1024 + bit f.disallowConditionalTypes 2048 + bit f.javaScriptFile 8192

end ContextFlags

/-- Facts about a node: those of its own, and the context it was parsed in. -/
structure NodeFlags where
  /-- Declared by `let`. -/
  letDeclaration : Bool := false
  /-- Declared by `const`. -/
  constDeclaration : Bool := false
  /-- The inner part of a dotted namespace name. -/
  nestedNamespace : Bool := false
  /-- Declared by `namespace`. -/
  namespaceDeclaration : Bool := false
  /-- Declared by `global`. -/
  globalAugmentation : Bool := false
  /-- A link of an optional chain. -/
  optionalChain : Bool := false
  /-- Inside an export. -/
  exportContext : Bool := false
  /-- An error was met while the node was parsed. -/
  hasError : Bool := false
  /-- The context the node was parsed in. -/
  context : ContextFlags := {}
  deriving DecidableEq, Repr

namespace NodeFlags

instance : Inhabited NodeFlags := ⟨{}⟩

def bits (f : NodeFlags) : Nat :=
  bit f.letDeclaration 1 + bit f.constDeclaration 2 + bit f.nestedNamespace 4
    + bit f.namespaceDeclaration 8 + bit f.globalAugmentation 16 + bit f.optionalChain 32
    + bit f.exportContext 64 + bit f.hasError 4096 + f.context.bits

/-- The flags of a number; what is no flag is dropped. -/
def ofBits (n : Nat) : NodeFlags :=
  { letDeclaration := n.testBit 0
    constDeclaration := n.testBit 1
    nestedNamespace := n.testBit 2
    namespaceDeclaration := n.testBit 3
    globalAugmentation := n.testBit 4
    optionalChain := n.testBit 5
    exportContext := n.testBit 6
    hasError := n.testBit 12
    context :=
      { disallowIn := n.testBit 7
        yieldContext := n.testBit 8
        decoratorContext := n.testBit 9
        awaitContext := n.testBit 10
        disallowConditionalTypes := n.testBit 11
        javaScriptFile := n.testBit 13 } }

end NodeFlags

/-! ## 3. Modifiers -/

/-- What a modifier keyword says of a declaration. -/
inductive Modifier where
  | exported | ambient | isPublic | isPrivate | isProtected | isStatic | isReadonly | isAbstract
  | isAsync | isDefault | isConst
  deriving DecidableEq, Repr

namespace Modifier

/-- The weight of a modifier in a set shown as a number. -/
def weight : Modifier → Nat
  | .exported => 1
  | .ambient => 2
  | .isPublic => 4
  | .isPrivate => 8
  | .isProtected => 16
  | .isStatic => 32
  | .isReadonly => 64
  | .isAbstract => 128
  | .isAsync => 256
  | .isDefault => 512
  | .isConst => 1024

/-- The modifiers that say who may use a member. -/
def isAccessibility : Modifier → Bool
  | .isPublic | .isPrivate | .isProtected => true
  | _ => false

/-- What a keyword says where modifiers stand. -/
def ofKeyword? : Keyword → Option Modifier
  | .staticKw => some .isStatic
  | .publicKw => some .isPublic
  | .protectedKw => some .isProtected
  | .privateKw => some .isPrivate
  | .abstractKw => some .isAbstract
  | .exportKw => some .exported
  | .declareKw => some .ambient
  | .constKw => some .isConst
  | .defaultKw => some .isDefault
  | .asyncKw => some .isAsync
  | .readonlyKw => some .isReadonly
  | _ => none

/-- What a token says where modifiers stand. -/
def ofKind? : Kind → Option Modifier
  | .keyword k => ofKeyword? k
  | _ => none

/-- A list of modifiers as a number, repetitions counting once. -/
def bits (ms : List Modifier) : Nat := ms.foldl (fun n m => n ||| m.weight) 0

end Modifier

end ScriptSyntax
