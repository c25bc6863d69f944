/-
  ScriptSyntax/Proofs/Grammar/KnownLists.lean
  ===========================================
  Lists of elements that are known.

  Between two elements there are a comma and a space, and after the last one
  something that closes the list.  If each element is read up to where it ends,
  then so is the list.
-/
import Mathlib.Data.List.Forall2
import ScriptSyntax.Proofs.Grammar.Way
import ScriptSyntax.Proofs.Tree.TypeTerm

namespace ScriptSyntax

open ScriptSyntax.Parser

variable {α : Type} {env : Surroundings} {r s t : ParserState} {list : ListContext}
variable {element : Parser NodeId} {closing : Punctuator} {before : α → List Piece → List Piece}
variable {X : Forest → NodeId → α → Prop} {as : List α} {rest : List Piece}

/-- The elements of a list, each of which is read as what it is, wherever the list is open as it is in the
state `r`. -/
structure IsListOf (env : Surroundings) (r : ParserState) (list : ListContext) (element : Parser NodeId)
    (closing : Punctuator) (before : α → List Piece → List Piece) (X : Forest → NodeId → α → Prop)
    (as : List α) : Prop where
  notComma : closing ≠ .comma
  ends : ∀ t, t.token.kind = .punct closing → (endsList list).answer env t = true
  startsNone : ∀ t, t.token.kind = .punct closing → (startsElement list false).answer env t = false
  starts : ∀ a ∈ as, ∀ t rest, t.Ok env.file.text → Ahead env.file.text (before a rest) t.token →
    GoesOnWith [.comma, closing] rest → (startsElement list false).answer env t = true
  reads : ∀ a ∈ as, ∀ t rest, env.Supplied Production.topRank t → t.log = r.log → t.scope = r.scope →
    Ahead env.file.text (before a rest) t.token → GoesOnWith [.comma, closing] rest →
    element.Ends env t (Yields env.file.text t fun id next F => Ahead env.file.text rest next ∧ X F id a)
  keeps : ∀ F G id a, F.Keeps G → X F id a → X G id a

/-- Of the elements of a list some have been read, and the others are ahead. -/
def ReadingList (env : Surroundings) (r : ParserState) (before : α → List Piece → List Piece)
    (X : Forest → NodeId → α → Prop) (as : List α) (rest : List Piece) (sofar : Separated)
    (t : ParserState) : Prop :=
  Way env Production.topRank r t (readParts sofar.read) ∧ ∃ done left, done ++ left = as
    ∧ List.Forall₂ (X t.forest) sofar.read.reverse done
    ∧ Ahead env.file.text (writtenList TypeTerm.comma before left rest) t.token

/-- All elements of a list have been read. -/
def ReadList (env : Surroundings) (r : ParserState) (X : Forest → NodeId → α → Prop) (as : List α)
    (rest : List Piece) (sofar : Separated) (t : ParserState) : Prop :=
  Way env Production.topRank r t (readParts sofar.read)
    ∧ List.Forall₂ (X t.forest) sofar.read.reverse as ∧ Ahead env.file.text rest t.token

namespace IsListOf

/-- After an element a comma comes next, or what closes the list. -/
theorem goesOnWith (as : List α) :
    GoesOnWith [.comma, closing] (writtenMore TypeTerm.comma before as (.punct closing :: rest)) := by
  have hclosing : GoesOnWith [.comma, closing] (.punct closing :: rest) := goesOnWith_punct (by simp)
  exact hclosing.more fun _ => goesOnWith_punct (by simp)

/-- What was read before stays what it is, when one more element has been read. -/
theorem append (h : IsListOf env r list element closing before X as) {F G : Forest} {ids : List NodeId}
    {id : NodeId} {a : α} {done : List α} (hkeeps : F.Keeps G) (hdone : List.Forall₂ (X F) ids done)
    (ha : X G id a) : List.Forall₂ (X G) (ids ++ [id]) (done ++ [a]) :=
  List.rel_append (hdone.imp fun id a => h.keeps F G id a hkeeps) (.cons ha .nil)

/-- A turn reads one more of the elements, or it finds the end of the list. -/
theorem separatedTurn_reads {sofar : Separated} (hlist : IsListOf env r list element closing before X as)
    (h : ReadingList env r before X as (.punct closing :: rest) sofar s) :
    (separatedTurn list element false sofar).Ends env s
      (Turn.Leads (ReadingList env r before X as (.punct closing :: rest))
        (ReadList env r X as (.punct closing :: rest)) s) := by
  obtain ⟨g, done, left, rfl, hdone, hahead⟩ := h
  cases left with
  | nil =>
    refine .asked (startsElement_asks _ _ g.ok) (hlist.startsNone s hahead.1) (.no ?_)
    refine .asked (endsList_asks _ g.ok) (hlist.ends s hahead.1) (.yes ?_)
    exact .pure ⟨⟨g, by simpa using hdone, hahead⟩, Nat.le_refl _⟩
  | cons a left =>
    have hmem : a ∈ done ++ a :: left := by simp
    have hstarts := hlist.starts a hmem s _ g.ok hahead (goesOnWith left)
    refine .asked (startsElement_asks _ _ g.ok) hstarts (.yes (.nodePos ?_))
    have hreads := hlist.reads a hmem s _ g.supplied g.quiet.log_eq g.quiet.scope_eq hahead (goesOnWith left)
    refine g.step hreads fun id t ht hkeeps htook g => ?_
    have hdone := hlist.append hkeeps hdone ht.2
    cases left with
    | nil =>
      have hcomma : t.token.kind ≠ .punct .comma := by
        rw [ht.1.1]
        simpa using hlist.notComma
      refine .leave hcomma (.no (.asked (endsList_asks _ g.ok) (hlist.ends t ht.1.1) (.yes (.pure ?_))))
      refine ⟨⟨g.parts (by simp), ?_, ht.1⟩, Nat.le_of_lt htook⟩
      simpa using hdone
    | cons b left =>
      obtain ⟨hkind, -, next, hnext, hahead⟩ := ht.1
      refine g.take hkind nofun hnext fun u htoken hforest htook' g => .pure ?_
      refine ⟨⟨g.parts (by simp), done ++ [a], b :: left, by simp, ?_, htoken ▸ hahead⟩, ?_⟩
      · rw [hforest]
        simpa using hdone
      · exact Nat.lt_trans htook htook'

/-- The elements of a list are read up to what closes it. -/
theorem separated_reads (hlist : IsListOf env (s.withLists (list :: s.scope.openLists)) list element closing
    before X as) (h : env.Supplied Production.topRank s)
    (hahead : Ahead env.file.text (writtenList TypeTerm.comma before as (.punct closing :: rest)) s.token) :
    (separated list element).Ends env s fun nodes t => Quiet env.file.text s t [.array nodes]
      ∧ Ahead env.file.text (.punct closing :: rest) t.token
      ∧ List.Forall₂ (X t.forest) nodes.nodes as := by
  have hopen : env.Supplied Production.topRank (s.withLists (list :: s.scope.openLists)) := h.inScope _
  have hstart : ReadingList env (s.withLists (list :: s.scope.openLists)) before X as
      (.punct closing :: rest) {} (s.withLists (list :: s.scope.openLists)) :=
    ⟨.start hopen, [], as, rfl, .nil, hahead⟩
  have hloop : (repeating {} (separatedTurn list element false)).Ends env _ _ :=
    repeating_ends hstart (fun _ _ ht => ht.1.ok.pos_le_size) fun _ _ ht => hlist.separatedTurn_reads ht
  refine .inList (.nodePos (hloop.bind fun sofar t ht => .nodePos (.pure ?_)))
  obtain ⟨⟨g, hall, hahead⟩, -⟩ := ht
  exact ⟨⟨(g.quiet.toRun.array rfl rfl).withLists, g.quiet.log_eq⟩, hahead, hall⟩

end IsListOf

end ScriptSyntax
