/-
  ScriptSyntax/Proofs/Tree/TypeTerm.lean
  ======================================
  Terms of types, how they are written and what they are as trees.
-/
import ScriptSyntax.Proofs.Token.Spelling
import ScriptSyntax.Proofs.Tree.Forest

namespace ScriptSyntax

/-! ## 1. Terms -/

/-- A type made of references by name, arrays, tuples, parentheses, intersections and unions. -/
inductive TypeTerm where
  | reference (name : PlainName) (arguments : List TypeTerm)
  | array (element : TypeTerm)
  | tuple (elements : List TypeTerm)
  | parenthesized (inner : TypeTerm)
  | intersection (parts : List TypeTerm)
  | union (parts : List TypeTerm)

namespace TypeTerm

/-- May brackets follow the term as it is? -/
def isOperand : TypeTerm → Bool
  | reference .. | array _ | tuple _ | parenthesized _ => true
  | intersection _ | union _ => false

/-- May the term be part of a union as it is? -/
def isConjunct : TypeTerm → Bool
  | union _ => false
  | _ => true

/-- The term needs no more parentheses than it has. -/
inductive WellFormed : TypeTerm → Prop where
  | reference {name : PlainName} {arguments : List TypeTerm} :
    (∀ t ∈ arguments, WellFormed t) → WellFormed (.reference name arguments)
  | array {element : TypeTerm} : element.isOperand = true → WellFormed element →
    WellFormed (.array element)
  | tuple {elements : List TypeTerm} : (∀ t ∈ elements, WellFormed t) → WellFormed (.tuple elements)
  | parenthesized {inner : TypeTerm} : WellFormed inner → WellFormed (.parenthesized inner)
  | intersection {parts : List TypeTerm} : 2 ≤ parts.length → (∀ t ∈ parts, t.isOperand = true) →
    (∀ t ∈ parts, WellFormed t) → WellFormed (.intersection parts)
  | union {parts : List TypeTerm} : 2 ≤ parts.length → (∀ t ∈ parts, t.isConjunct = true) →
    (∀ t ∈ parts, WellFormed t) → WellFormed (.union parts)

mutual

/-- How many terms enclose the innermost one. -/
def depth : TypeTerm → Nat
  | reference _ arguments => depthOfList arguments
  | array element => element.depth + 1
  | tuple elements => depthOfList elements
  | parenthesized inner => inner.depth + 1
  | intersection parts => depthOfList parts
  | union parts => depthOfList parts

/-- The depth of a term that the given ones are parts of. -/
def depthOfList : List TypeTerm → Nat
  | [] => 0
  | t :: ts => max (t.depth + 1) (depthOfList ts)

end

/-- What is written between the elements of a list. -/
def comma : List Piece := [.punct .comma, .space]

/-- An operator as it is written between its parts. -/
def spaced (p : Punctuator) : List Piece := [.space, .punct p, .space]

mutual

/-- The term as it is written, before the given pieces. -/
def before : TypeTerm → List Piece → List Piece
  | reference name [], rest => .word name.text :: rest
  | reference name (t :: ts), rest =>
    .word name.text :: .punct .lessThan
      :: t.before (beforeMore comma ts (.punct .greaterThan :: rest))
  | array element, rest => element.before (.punct .openBracket :: .punct .closeBracket :: rest)
  | tuple elements, rest =>
    .punct .openBracket :: beforeList comma elements (.punct .closeBracket :: rest)
  | parenthesized inner, rest => .punct .openParen :: inner.before (.punct .closeParen :: rest)
  | intersection parts, rest => beforeList (spaced .ampersand) parts rest
  | union parts, rest => beforeList (spaced .bar) parts rest

/-- Terms as they are written, with the given separator between them. -/
def beforeList (separator : List Piece) : List TypeTerm → List Piece → List Piece
  | [], rest => rest
  | t :: ts, rest => t.before (beforeMore separator ts rest)

/-- Terms as they are written, each after the given separator. -/
def beforeMore (separator : List Piece) : List TypeTerm → List Piece → List Piece
  | [], rest => rest
  | t :: ts, rest => separator ++ t.before (beforeMore separator ts rest)

end

end TypeTerm

namespace TypeTerm

variable {t : TypeTerm} {ts : List TypeTerm} {rest separator : List Piece} {text : Array Char}

theorem depth_lt_of_mem (h : t ∈ ts) : t.depth < depthOfList ts := by
  induction ts with
  | nil => cases h
  | cons u ts ih =>
    show t.depth < max (u.depth + 1) (depthOfList ts)
    rcases List.mem_cons.mp h with rfl | h
    · exact Nat.lt_of_lt_of_le (Nat.lt_succ_self _) (Nat.le_max_left _ _)
    · exact Nat.lt_of_lt_of_le (ih h) (Nat.le_max_right _ _)

/-! ## 2. Terms as they are written -/

/-- The pieces start as a term does: with a name, or with what opens a tuple or parentheses. -/
def StartsTerm : List Piece → Prop
  | .word text :: _ => isIdentifierText text = true ∧ wordKind text = .identifier
  | .punct p :: _ => p = .openBracket ∨ p = .openParen
  | _ => False

theorem WellFormed.startsTerm (h : t.WellFormed) (rest : List Piece) : StartsTerm (t.before rest) := by
  induction h generalizing rest with
  | @reference name arguments _ _ => cases arguments <;> exact ⟨name.isIdentifier, name.wordKind_eq⟩
  | array _ _ ih => exact ih _
  | tuple _ _ => exact .inl rfl
  | parenthesized _ _ => exact .inr rfl
  | @intersection parts htwo _ _ ih | @union parts htwo _ _ ih =>
    cases parts with
    | nil => cases htwo
    | cons t ts => exact ih t List.mem_cons_self _

/-- An opening angle bracket stands before a term. -/
theorem StartsTerm.lessThan_standsBefore {pieces : List Piece} (h : StartsTerm pieces) :
    Punctuator.lessThan.standsBefore (pieces.flatMap Piece.chars) = true := by
  cases pieces with
  | nil => cases h
  | cons piece pieces =>
    cases piece with
    | space => cases h
    | word word =>
      obtain ⟨c, w, hlist, hstart, -⟩ := exists_cons_of_isIdentifierText h.1
      rw [List.flatMap_cons, show (Piece.word word).chars = c :: w from hlist]
      exact Punctuator.lessThan_standsBefore (ne_of_isIdentifierStart hstart (by decide))
        (ne_of_isIdentifierStart hstart (by decide))
    | punct p => rcases h with rfl | rfl <;> rfl

/-- A token of the kind starts a term. -/
def startsTermKind (k : Kind) : Bool :=
  k == .identifier || k == .punct .openBracket || k == .punct .openParen

theorem StartsTerm.kind {pieces : List Piece} {next : Token} (h : StartsTerm pieces)
    (hahead : Ahead text pieces next) : startsTermKind next.kind = true := by
  cases pieces with
  | nil => cases h
  | cons piece pieces =>
    cases piece with
    | space => cases h
    | word word =>
      rw [hahead.1, h.2]
      rfl
    | punct p =>
      rw [hahead.1]
      rcases h with rfl | rfl <;> rfl

theorem WellFormed.kind {next : Token} (h : t.WellFormed) (hahead : Ahead text (t.before rest) next) :
    next.kind = .identifier ∨ next.kind = .punct .openBracket ∨ next.kind = .punct .openParen := by
  simpa [startsTermKind, or_assoc] using (h.startsTerm rest).kind hahead

theorem beforeMore_eq (separator : List Piece) (ts : List TypeTerm) (rest : List Piece) :
    beforeMore separator ts rest = writtenMore separator before ts rest := by
  induction ts with
  | nil => rfl
  | cons t ts ih =>
    show separator ++ t.before (beforeMore separator ts rest) = _
    rw [ih]
    rfl

theorem beforeList_eq (separator : List Piece) (ts : List TypeTerm) (rest : List Piece) :
    beforeList separator ts rest = writtenList separator before ts rest := by
  cases ts with
  | nil => rfl
  | cons t ts =>
    show t.before (beforeMore separator ts rest) = _
    rw [beforeMore_eq]
    rfl

theorem apart_comma {pieces : List Piece} (h : Apart pieces) : ApartAfterWord (comma ++ pieces) := by
  have h : Apart (.space :: pieces) := h
  exact apart_punct h (by decide)

theorem apart_beforeList (hrest : ApartAfterWord rest)
    (hseparator : ∀ pieces, Apart pieces → ApartAfterWord (separator ++ pieces))
    (hts : ∀ t ∈ ts, ∀ rest, ApartAfterWord rest → Apart (t.before rest)) :
    Apart (beforeList separator ts rest) := by
  rw [beforeList_eq]
  exact apart_writtenList hrest hseparator hts

/-- What is written for a term is told apart. -/
theorem WellFormed.apart (h : t.WellFormed) (hrest : ApartAfterWord rest) : Apart (t.before rest) := by
  have hspaced {p : Punctuator} (hp : ∀ cs, p.standsBefore (' ' :: cs) = true) (pieces : List Piece)
      (hpieces : Apart pieces) : ApartAfterWord (spaced p ++ pieces) :=
    ⟨⟨hp _, hpieces⟩, .of_space⟩
  induction h generalizing rest with
  | @reference name arguments hwf ih =>
    cases arguments with
    | nil => exact ⟨name.isIdentifier, hrest.2, hrest.1⟩
    | cons t ts =>
      have hclosing : ApartAfterWord (.punct .greaterThan :: rest) := apart_punct hrest.1 (by decide)
      have hlist := apart_beforeList hclosing (fun _ => apart_comma) fun t ht _ hrest => ih t ht hrest
      have hstarts := (hwf t List.mem_cons_self).startsTerm
        (beforeMore comma ts (.punct .greaterThan :: rest))
      refine ⟨name.isIdentifier, ?_, hstarts.lessThan_standsBefore, hlist⟩
      rintro _ ⟨⟩
      decide
  | array _ _ ih =>
    exact ih (apart_punct (apart_punct (p := .closeBracket) hrest.1 (by decide)).1 (by decide))
  | tuple _ ih =>
    have hclosing : ApartAfterWord (.punct .closeBracket :: rest) := apart_punct hrest.1 (by decide)
    have hlist := apart_beforeList hclosing (fun _ => apart_comma) fun t ht _ hrest => ih t ht hrest
    exact (apart_punct hlist (by decide)).1
  | parenthesized _ ih =>
    exact (apart_punct (ih (apart_punct (p := .closeParen) hrest.1 (by decide))) (by decide)).1
  | intersection _ _ _ ih =>
    exact apart_beforeList hrest (hspaced fun _ => rfl) fun t ht _ hrest => ih t ht hrest
  | union _ _ _ ih =>
    exact apart_beforeList hrest (hspaced fun _ => rfl) fun t ht _ hrest => ih t ht hrest

end TypeTerm

/-! ## 3. Terms in a forest -/

/-- Under the number there is the term: a node of its kind, made of nodes for its parts. -/
inductive Forest.IsType (F : Forest) : NodeId → TypeTerm → Prop where
  | name {id identifier : NodeId} {name : PlainName} :
    F.Shows id (.node .typeReference) (.typeReference identifier none) →
    F.IsIdentifier identifier name.text → IsType F id (.reference name [])
  | reference {id identifier : NodeId} {name : PlainName} {list : NodeArray} {arguments : List TypeTerm} :
    F.Shows id (.node .typeReference) (.typeReference identifier (some list)) →
    F.IsIdentifier identifier name.text → arguments ≠ [] →
    List.Forall₂ (IsType F) list.nodes arguments → IsType F id (.reference name arguments)
  | array {id inner : NodeId} {element : TypeTerm} :
    F.Shows id (.node .arrayType) (.arrayType inner) → IsType F inner element →
    IsType F id (.array element)
  | tuple {id : NodeId} {list : NodeArray} {elements : List TypeTerm} :
    F.Shows id (.node .tupleType) (.typeList list) →
    List.Forall₂ (IsType F) list.nodes elements → IsType F id (.tuple elements)
  | parenthesized {id inner : NodeId} {t : TypeTerm} :
    F.Shows id (.node .parenthesizedType) (.parenthesizedType inner) → IsType F inner t →
    IsType F id (.parenthesized t)
  | intersection {id : NodeId} {list : NodeArray} {parts : List TypeTerm} :
    F.Shows id (.node .intersectionType) (.typeList list) →
    List.Forall₂ (IsType F) list.nodes parts → IsType F id (.intersection parts)
  | union {id : NodeId} {list : NodeArray} {parts : List TypeTerm} :
    F.Shows id (.node .unionType) (.typeList list) →
    List.Forall₂ (IsType F) list.nodes parts → IsType F id (.union parts)

namespace Forest

variable {F G : Forest} {id : NodeId} {ids : List NodeId} {t : TypeTerm} {ts : List TypeTerm}

mutual

theorem IsType.keeps (hkeeps : F.Keeps G) {id : NodeId} {t : TypeTerm} :
    F.IsType id t → G.IsType id t
  | .name hshows hname => .name (hshows.keeps hkeeps) (hname.keeps hkeeps)
  | .reference hshows hname hne hlist =>
    .reference (hshows.keeps hkeeps) (hname.keeps hkeeps) hne (allKeep hkeeps hlist)
  | .array hshows hinner => .array (hshows.keeps hkeeps) (hinner.keeps hkeeps)
  | .tuple hshows hlist => .tuple (hshows.keeps hkeeps) (allKeep hkeeps hlist)
  | .parenthesized hshows hinner => .parenthesized (hshows.keeps hkeeps) (hinner.keeps hkeeps)
  | .intersection hshows hlist => .intersection (hshows.keeps hkeeps) (allKeep hkeeps hlist)
  | .union hshows hlist => .union (hshows.keeps hkeeps) (allKeep hkeeps hlist)

theorem allKeep (hkeeps : F.Keeps G) {ids : List NodeId} {ts : List TypeTerm} :
    List.Forall₂ F.IsType ids ts → List.Forall₂ G.IsType ids ts
  | .nil => .nil
  | .cons h hs => .cons (IsType.keeps hkeeps h) (allKeep hkeeps hs)

end

end Forest

end ScriptSyntax
