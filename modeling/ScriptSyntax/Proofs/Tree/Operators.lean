/-
  ScriptSyntax/Proofs/Tree/Operators.lean
  =======================================
  Trees of binary operators.

  Operands and operators in a row can be grouped in many ways.  Precedence and
  association say of each operator what its operands may be, and that leaves one.
-/
import ScriptSyntax.Grammar.Precedence
import ScriptSyntax.Proofs.Token.Spelling
import ScriptSyntax.Proofs.Tree.Forest

namespace ScriptSyntax

/-! ## 1. Operators -/

/-- A binary operator other than `as`, which is followed by a type. -/
structure BinaryOperator where
  kind : Kind
  level : Precedence
  level_eq : Precedence.ofKind? kind = some level
  ne_as : kind ≠ .keyword .asKw

namespace BinaryOperator

variable {o p : BinaryOperator}

/-- Powers group to the right. -/
def IsPower (o : BinaryOperator) : Prop := o.kind = .punct .asteriskAsterisk

/-- May an operator of the second kind be the root of the left operand of the first one? -/
def AdmitsLeft (o p : BinaryOperator) : Prop :=
  o.level.rank < p.level.rank ∨ (p.level.rank = o.level.rank ∧ ¬o.IsPower)

/-- May an operator of the second kind be the root of the right operand of the first one? -/
def AdmitsRight (o p : BinaryOperator) : Prop :=
  o.level.rank < p.level.rank ∨ (o.IsPower ∧ p.IsPower)

/-- The tightest level is that of powers. -/
theorem isPower_iff : o.IsPower ↔ o.level = .exponentiation := by
  obtain ⟨kind, level, hlevel, -⟩ := o
  constructor
  · rintro rfl
    cases hlevel
    rfl
  · rintro rfl
    cases kind with
    | punct p => cases p <;> first | rfl | cases hlevel
    | keyword k => cases k <;> cases hlevel
    | _ => cases hlevel

theorem isPower_iff_rank : o.IsPower ↔ o.level.rank = 12 := by
  rw [isPower_iff]
  cases o.level <;> decide

end BinaryOperator

/-! ## 2. Trees -/

/-- An operator with the operand after it. -/
abbrev OperatorStep := BinaryOperator × PlainName

inductive OperatorTree where
  | name (word : PlainName)
  | binary (operator : BinaryOperator) (left right : OperatorTree)

namespace OperatorTree

/-- The first operand, in the order of the source. -/
def first : OperatorTree → PlainName
  | name word => word
  | binary _ left _ => left.first

/-- The operators with the operands after them, in the order of the source. -/
def steps : OperatorTree → List OperatorStep
  | name _ => []
  | binary operator left right => left.steps ++ (operator, right.first) :: right.steps

/-- The operator that binds last. -/
def root? : OperatorTree → Option BinaryOperator
  | name _ => none
  | binary operator _ _ => some operator

/-- Every operator has the operands that it admits. -/
def Grouped : OperatorTree → Prop
  | name _ => True
  | binary operator left right =>
    (∀ p ∈ left.root?, operator.AdmitsLeft p) ∧ (∀ p ∈ right.root?, operator.AdmitsRight p)
      ∧ left.Grouped ∧ right.Grouped

variable {o p : BinaryOperator} {l r l' r' t u : OperatorTree} {step : OperatorStep}

theorem steps_of_root?_eq_none (h : t.root? = none) : t.steps = [] := by
  cases t with
  | name word => rfl
  | binary o l r => cases h

/-- No operator of a tree binds looser than its root. -/
theorem Grouped.rank_le (h : t.Grouped) (ho : t.root? = some o) (hstep : step ∈ t.steps) :
    o.level.rank ≤ step.1.level.rank := by
  induction t generalizing o with
  | name word => cases ho
  | binary operator left right ihl ihr =>
    cases ho
    obtain ⟨hleft, hright, hl, hr⟩ := h
    rcases List.mem_append.mp hstep with hstep | hstep
    · cases hroot : left.root? with
      | none =>
        rw [steps_of_root?_eq_none hroot] at hstep
        cases hstep
      | some p =>
        have hle := ihl hl hroot hstep
        rcases hleft p hroot with hlt | ⟨heq, -⟩ <;> omega
    · rcases List.mem_cons.mp hstep with rfl | hstep
      · exact Nat.le_refl _
      · cases hroot : right.root? with
        | none =>
          rw [steps_of_root?_eq_none hroot] at hstep
          cases hstep
        | some p =>
          have hle := ihr hr hroot hstep
          rcases hright p hroot with hlt | ⟨ho, hp⟩
          · omega
          · rw [BinaryOperator.isPower_iff_rank] at ho hp
            omega

/-- To the left of a power there is a single operand. -/
theorem Grouped.steps_left (h : (binary o l r).Grouped) (ho : o.IsPower) : l.steps = [] := by
  cases hroot : l.root? with
  | none => exact steps_of_root?_eq_none hroot
  | some p =>
    have hrank := BinaryOperator.isPower_iff_rank.mp ho
    have hle := p.level.rank_le
    rcases h.1 p hroot with hlt | ⟨-, hno⟩
    · omega
    · exact absurd ho hno

/-- To the right of any other operator all operators bind tighter. -/
theorem Grouped.rank_lt (h : (binary o l r).Grouped) (ho : ¬o.IsPower) (hstep : step ∈ r.steps) :
    o.level.rank < step.1.level.rank := by
  obtain ⟨-, hright, -, hr⟩ := h
  cases hroot : r.root? with
  | none =>
    rw [steps_of_root?_eq_none hroot] at hstep
    cases hstep
  | some p =>
    have hle := hr.rank_le hroot hstep
    rcases hright p hroot with hlt | ⟨hyes, -⟩
    · omega
    · exact absurd hyes ho

/-- Two groupings of one row have their roots at one place. -/
theorem Grouped.not_left_of {more : List OperatorStep} (h : (binary o l r).Grouped)
    (h' : (binary p l' r').Grouped) (hrow : (binary o l r).steps = (binary p l' r').steps)
    (hmore : l'.steps = l.steps ++ (o, r.first) :: more) : False := by
  have hright : r.steps = more ++ (p, r'.first) :: r'.steps := by
    simpa [steps, hmore] using hrow
  have hle : p.level.rank ≤ o.level.rank := by
    have hmem : (o, r.first) ∈ (binary p l' r').steps := by
      rw [← hrow]
      simp [steps]
    exact h'.rank_le rfl hmem
  by_cases hpower : o.IsPower
  · have hle' : o.level.rank ≤ p.level.rank := by
      have hmem : (p, r'.first) ∈ (binary o l r).steps := by
        rw [hrow]
        simp [steps]
      exact h.rank_le rfl hmem
    have hp : p.IsPower := by
      rw [BinaryOperator.isPower_iff_rank] at hpower ⊢
      omega
    have hnone := h'.steps_left hp
    simp [hmore] at hnone
  · have hmem : (p, r'.first) ∈ r.steps := by simp [hright]
    have hlt := h.rank_lt hpower hmem
    simp only at hlt
    omega

/-- Of the groupings of a row only one is left. -/
theorem Grouped.eq (ht : t.Grouped) (hu : u.Grouped) (hfirst : t.first = u.first)
    (hsteps : t.steps = u.steps) : t = u := by
  induction t generalizing u with
  | name word =>
    cases u with
    | name word' => exact congrArg name hfirst
    | binary o l r => simp [steps] at hsteps
  | binary o l r ihl ihr =>
    cases u with
    | name word => simp [steps] at hsteps
    | binary p l' r' =>
      have hplace : l.steps = l'.steps := by
        rcases List.append_eq_append_iff.mp hsteps with ⟨more, hl, hr⟩ | ⟨more, hl, hr⟩
        · cases more with
          | nil => simpa using hl.symm
          | cons step more =>
            obtain ⟨rfl, -⟩ : (o, r.first) = step ∧ _ := List.cons.inj hr
            exact absurd hl fun hl => ht.not_left_of hu hsteps hl
        · cases more with
          | nil => simpa using hl
          | cons step more =>
            obtain ⟨rfl, -⟩ : (p, r'.first) = step ∧ _ := List.cons.inj hr
            exact absurd hl fun hl => hu.not_left_of ht hsteps.symm hl
      have hrest : (o, r.first) :: r.steps = (p, r'.first) :: r'.steps := by
        simpa [steps, hplace] using hsteps
      obtain ⟨hhead, htail⟩ := List.cons.inj hrest
      obtain ⟨rfl, hright⟩ := Prod.mk.inj hhead
      rw [ihl ht.2.2.1 hu.2.2.1 hfirst hplace, ihr ht.2.2.2 hu.2.2.2 hright htail]

end OperatorTree

/-! ## 3. Trees in a forest -/

/-- Under the number there is the tree: an identifier, or a binary expression of its operands and its
operator. -/
inductive Forest.IsOperatorTree (F : Forest) : NodeId → OperatorTree → Prop where
  | name {id : NodeId} {word : PlainName} : F.IsIdentifier id word.text → IsOperatorTree F id (.name word)
  | binary {id left operator right : NodeId} {o : BinaryOperator} {l r : OperatorTree} :
    F.Shows id (.node .binaryExpression) (.binary left operator right) →
    F.Shows operator o.kind .token → F.IsOperatorTree left l → F.IsOperatorTree right r →
    IsOperatorTree F id (.binary o l r)

theorem Forest.IsOperatorTree.keeps {F G : Forest} {id : NodeId} {t : OperatorTree}
    (h : F.IsOperatorTree id t) (hkeeps : F.Keeps G) : G.IsOperatorTree id t := by
  induction h with
  | name hword => exact .name (hword.keeps hkeeps)
  | binary hshows hoperator _ _ ihl ihr =>
    exact .binary (hshows.keeps hkeeps) (hoperator.keeps hkeeps) ihl ihr

end ScriptSyntax
