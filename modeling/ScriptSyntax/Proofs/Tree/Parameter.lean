/-
  ScriptSyntax/Proofs/Tree/Parameter.lean
  =======================================
  Parameters of arrow functions and the items of a sequence, how they are written
  and what they are as trees.

  A name, alone or with a value after it, is written the same way as a parameter
  and as an item.
-/
import ScriptSyntax.Proofs.Tree.TypeTerm

namespace ScriptSyntax

/-! ## 1. Parameters and items -/

/-- A parameter: a name, with a type, a question mark and a type, or a value to start with. -/
inductive ParameterTerm where
  | plain (name : PlainName)
  | typed (name type : PlainName)
  | optional (name type : PlainName)
  | initialized (name value : PlainName)

/-- An item of a sequence: a name, or a name that a value is assigned to. -/
inductive SequenceItem where
  | plain (name : PlainName)
  | assigned (name value : PlainName)

variable {text : Array Char} {rest : List Piece} {next : Token}

namespace ParameterTerm

def name : ParameterTerm → PlainName
  | plain name | typed name _ | optional name _ | initialized name _ => name

/-- What is written after the name, before the given pieces. -/
def afterName : ParameterTerm → List Piece → List Piece
  | plain _, rest => rest
  | typed _ type, rest => .punct .colon :: .space :: .word type.text :: rest
  | optional _ type, rest => .punct .question :: .punct .colon :: .space :: .word type.text :: rest
  | initialized _ value, rest => .space :: .punct .equals :: .space :: .word value.text :: rest

/-- The parameter as it is written, before the given pieces. -/
def before (p : ParameterTerm) (rest : List Piece) : List Piece := .word p.name.text :: p.afterName rest

/-- Is it seen from what follows the name that it is a parameter? -/
def isTyped : ParameterTerm → Bool
  | typed .. | optional .. => true
  | plain _ | initialized .. => false

theorem goesOnWith_afterName (p : ParameterTerm) (hrest : GoesOnWith [.comma, .closeParen] rest) :
    GoesOnWith [.comma, .closeParen, .colon, .question, .equals] (p.afterName rest) := by
  cases p with
  | plain => exact hrest.mono (by decide)
  | typed => exact goesOnWith_punct (by decide)
  | optional => exact goesOnWith_punct (by decide)
  | initialized =>
    have hequals : Punctuator.equals ∈ [.comma, .closeParen, .colon, .question, .equals] := by decide
    exact hequals

theorem apart (p : ParameterTerm) (hrest : ApartAfterWord rest) : Apart (p.before rest) := by
  cases p with
  | plain name => exact ⟨name.isIdentifier, hrest.2, hrest.1⟩
  | typed name type =>
    have htype : Apart (.space :: .word type.text :: rest) := ⟨type.isIdentifier, hrest.2, hrest.1⟩
    have hcolon := apart_punct (p := .colon) htype (by decide)
    exact ⟨name.isIdentifier, hcolon.2, hcolon.1⟩
  | optional name type =>
    have htype : Apart (.space :: .word type.text :: rest) := ⟨type.isIdentifier, hrest.2, hrest.1⟩
    have hcolon := apart_punct (p := .colon) htype (by decide)
    refine ⟨name.isIdentifier, ?_, rfl, hcolon.1⟩
    rintro _ ⟨⟩
    decide
  | initialized name value =>
    have hvalue : Apart (.space :: .word value.text :: rest) := ⟨value.isIdentifier, hrest.2, hrest.1⟩
    exact ⟨name.isIdentifier, .of_space, rfl, hvalue⟩

end ParameterTerm

namespace SequenceItem

/-- What the item would be as a parameter. -/
def parameter : SequenceItem → ParameterTerm
  | plain name => .plain name
  | assigned name value => .initialized name value

/-- The item as it is written, before the given pieces. -/
def before (q : SequenceItem) (rest : List Piece) : List Piece := q.parameter.before rest

end SequenceItem

/-! ## 2. Parameters and items in a forest -/

namespace Forest

/-- Under the number there is the parameter, made of just what it has. -/
inductive IsParameter (F : Forest) (id : NodeId) : ParameterTerm → Prop where
  | plain {name : NodeId} {x : PlainName} : F.Shows id (.node .parameter) (.variableLike { name }) →
    F.IsIdentifier name x.text → IsParameter F id (.plain x)
  | typed {name type : NodeId} {x y : PlainName} :
    F.Shows id (.node .parameter) (.variableLike { name, type := some type }) →
    F.IsIdentifier name x.text → F.IsType type (.reference y []) → IsParameter F id (.typed x y)
  | optional {name questionMark type : NodeId} {x y : PlainName} :
    F.Shows id (.node .parameter)
      (.variableLike { name, questionMark := some questionMark, type := some type }) →
    F.IsIdentifier name x.text → F.Shows questionMark (.punct .question) .token →
    F.IsType type (.reference y []) → IsParameter F id (.optional x y)
  | initialized {name value : NodeId} {x y : PlainName} :
    F.Shows id (.node .parameter) (.variableLike { name, initializer := some value }) →
    F.IsIdentifier name x.text → F.IsIdentifier value y.text → IsParameter F id (.initialized x y)

/-- Under the number there is an arrow function of just the parameters, and its body is the name. -/
def IsArrowFunction (F : Forest) (parameters : List ParameterTerm) (body : PlainName) (id : NodeId) : Prop :=
  ∃ list arrow inner, F.Shows id (.node .arrowFunction)
      (.functionLike { parameters := list, arrow := some arrow, body := some inner })
    ∧ List.Forall₂ F.IsParameter list.nodes parameters ∧ F.Shows arrow (.punct .equalsGreaterThan) .token
    ∧ F.IsIdentifier inner body.text

/-- Under the number there is the item: an identifier, or the assignment to one. -/
inductive IsItem (F : Forest) (id : NodeId) : SequenceItem → Prop where
  | plain {x : PlainName} : F.IsIdentifier id x.text → IsItem F id (.plain x)
  | assigned {name operator value : NodeId} {x y : PlainName} :
    F.Shows id (.node .binaryExpression) (.binary name operator value) →
    F.IsIdentifier name x.text → F.Shows operator (.punct .equals) .token →
    F.IsIdentifier value y.text → IsItem F id (.assigned x y)

/-- Under the number there are the items: one of them, or a comma between those before the last one and the
last one. -/
inductive IsSequence (F : Forest) : NodeId → List SequenceItem → Prop where
  | one {id : NodeId} {q : SequenceItem} : F.IsItem id q → IsSequence F id [q]
  | more {id left operator right : NodeId} {qs : List SequenceItem} {q : SequenceItem} :
    F.Shows id (.node .binaryExpression) (.binary left operator right) → IsSequence F left qs →
    F.Shows operator (.punct .comma) .token → F.IsItem right q → IsSequence F id (qs ++ [q])

/-- Under the number there are parentheses around the items. -/
def IsParenthesized (F : Forest) (qs : List SequenceItem) (id : NodeId) : Prop :=
  ∃ inner, F.Shows id (.node .parenthesizedExpression) (.expression inner) ∧ F.IsSequence inner qs

variable {F G : Forest} {id : NodeId} {p : ParameterTerm} {q : SequenceItem} {qs : List SequenceItem}

theorem IsParameter.keeps (h : F.IsParameter id p) (hkeeps : F.Keeps G) : G.IsParameter id p := by
  cases h with
  | plain hshows hname => exact .plain (hshows.keeps hkeeps) (hname.keeps hkeeps)
  | typed hshows hname htype =>
    exact .typed (hshows.keeps hkeeps) (hname.keeps hkeeps) (htype.keeps hkeeps)
  | optional hshows hname hquestion htype =>
    exact .optional (hshows.keeps hkeeps) (hname.keeps hkeeps) (hquestion.keeps hkeeps) (htype.keeps hkeeps)
  | initialized hshows hname hvalue =>
    exact .initialized (hshows.keeps hkeeps) (hname.keeps hkeeps) (hvalue.keeps hkeeps)

theorem IsArrowFunction.keeps {ps : List ParameterTerm} {body : PlainName}
    (h : F.IsArrowFunction ps body id) (hkeeps : F.Keeps G) : G.IsArrowFunction ps body id := by
  obtain ⟨list, arrow, inner, hshows, hall, harrow, hbody⟩ := h
  exact ⟨list, arrow, inner, hshows.keeps hkeeps, hall.imp fun _ _ h => h.keeps hkeeps, harrow.keeps hkeeps,
    hbody.keeps hkeeps⟩

theorem IsItem.keeps (h : F.IsItem id q) (hkeeps : F.Keeps G) : G.IsItem id q := by
  cases h with
  | plain hname => exact .plain (hname.keeps hkeeps)
  | assigned hshows hname hoperator hvalue =>
    exact .assigned (hshows.keeps hkeeps) (hname.keeps hkeeps) (hoperator.keeps hkeeps) (hvalue.keeps hkeeps)

theorem IsSequence.keeps (h : F.IsSequence id qs) (hkeeps : F.Keeps G) : G.IsSequence id qs := by
  induction h with
  | one hitem => exact .one (hitem.keeps hkeeps)
  | more hshows _ hoperator hitem ih =>
    exact .more (hshows.keeps hkeeps) ih (hoperator.keeps hkeeps) (hitem.keeps hkeeps)

theorem IsParenthesized.keeps (h : F.IsParenthesized qs id) (hkeeps : F.Keeps G) : G.IsParenthesized qs id := by
  obtain ⟨inner, hshows, hsequence⟩ := h
  exact ⟨inner, hshows.keeps hkeeps, hsequence.keeps hkeeps⟩

end Forest

end ScriptSyntax
