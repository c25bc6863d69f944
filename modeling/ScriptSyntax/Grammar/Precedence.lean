/-
  ScriptSyntax/Grammar/Precedence.lean
  ====================================
  How tightly binary operators bind.
-/
import ScriptSyntax.Kind.Class

namespace ScriptSyntax

/-- The levels of binary operators, the loosest first. A whole expression is read at the level of
the comma. -/
inductive Precedence where
  | comma | coalesce | logicalOr | logicalAnd | bitwiseOr | bitwiseXor | bitwiseAnd | equality
  | relational | shift | additive | multiplicative | exponentiation
  deriving DecidableEq, Repr

namespace Precedence

/-- The place of a level, from the loosest on. -/
def rank : Precedence → Nat
  | .comma => 0
  | .coalesce => 1
  | .logicalOr => 2
  | .logicalAnd => 3
  | .bitwiseOr => 4
  | .bitwiseXor => 5
  | .bitwiseAnd => 6
  | .equality => 7
  | .relational => 8
  | .shift => 9
  | .additive => 10
  | .multiplicative => 11
  | .exponentiation => 12

theorem rank_le (level : Precedence) : level.rank ≤ 12 := by
  cases level <;> decide

/-- The level of a punctuator that is a binary operator. -/
def ofPunctuator? : Punctuator → Option Precedence
  | .questionQuestion => some .coalesce
  | .barBar => some .logicalOr
  | .ampersandAmpersand => some .logicalAnd
  | .bar => some .bitwiseOr
  | .caret => some .bitwiseXor
  | .ampersand => some .bitwiseAnd
  | .equalsEquals | .exclamationEquals | .equalsEqualsEquals | .exclamationEqualsEquals =>
    some .equality
  | .lessThan | .greaterThan | .lessThanEquals | .greaterThanEquals => some .relational
  | .lessThanLessThan | .greaterThanGreaterThan | .greaterThanGreaterThanGreaterThan => some .shift
  | .plus | .minus => some .additive
  | .asterisk | .slash | .percent => some .multiplicative
  | .asteriskAsterisk => some .exponentiation
  | _ => none

/-- The level of a token that is a binary operator. The comma is read apart from the others. -/
def ofKind? : Kind → Option Precedence
  | .punct p => ofPunctuator? p
  | .keyword .instanceOfKw | .keyword .inKw | .keyword .asKw => some .relational
  | _ => none

/-- May an operator of level `next` follow a left operand that is read at level `level`? Operators
of one level group to the left, but powers group to the right. -/
def binds (level next : Precedence) : Bool :=
  if next = .exponentiation then level.rank ≤ next.rank else level.rank < next.rank

end Precedence

end ScriptSyntax
