/-
  ScriptSyntax/Proofs/Tree/Visit.lean
  ===================================
  The walks through a tree agree.

  A walk with a list of nodes still to visit meets the nodes below a node in the
  order in which a visitor sees them that goes down child by child.  What is called
  for them is called for one after the other, up to the first answer and no further.
-/
import Mathlib.Data.List.Basic
import ScriptSyntax.Proofs.Tree.Walk
import ScriptSyntax.Tree.Visit

namespace ScriptSyntax

/-! ## 1. First answers -/

section

variable {m : Type → Type} [Monad m] {σ α β γ : Type}

/-- A run calls `f` for the elements of a list one after the other: for none behind the first one that `f`
answers something for. That answer is what the run comes to, and its state is what the calls leave. -/
def AnswersFirst (f : α → StateM σ (Option β)) (xs : List α) (run : StateM σ (Option β)) : Prop :=
  ∀ s, ∃ called left answers t, xs = called ++ left ∧ (called.mapM f).run s = (answers, t)
    ∧ run.run s = (answers.getLast?.join, t) ∧ (∀ answer ∈ answers.dropLast, answer = none)
    ∧ (answers.getLast?.join = none → left = [])

/-- After a call whose outcome is known the run goes on from there. -/
theorem run_bind_of_run_eq {x : StateM σ α} {y : α} {s t : σ} (h : x.run s = (y, t))
    (f : α → StateM σ β) : (x >>= f).run s = (f y).run t := by
  rw [StateT.run_bind, h]
  rfl

theorem answersFirst_findSomeM? (f : α → StateM σ (Option β)) (xs : List α) :
    AnswersFirst f xs (xs.findSomeM? f) := by
  induction xs with
  | nil => exact fun s => ⟨[], [], [], s, rfl, rfl, rfl, by simp, fun _ => rfl⟩
  | cons x xs ih =>
    intro s
    obtain ⟨answer, t, hcall⟩ : ∃ answer t, (f x).run s = (answer, t) := ⟨_, _, rfl⟩
    cases answer with
    | some b =>
      refine ⟨[x], xs, [some b], t, rfl, ?_, ?_, by simp, nofun⟩
      · rw [List.mapM_cons, run_bind_of_run_eq hcall]
        rfl
      · rw [List.findSomeM?_cons, run_bind_of_run_eq hcall]
        rfl
    | none =>
      obtain ⟨called, left, answers, u, rfl, hcalls, hrun, hnone, hleft⟩ := ih t
      have hlast : (none :: answers).getLast?.join = answers.getLast?.join := by
        cases answers <;> rfl
      refine ⟨x :: called, left, none :: answers, u, rfl, ?_, ?_, ?_, ?_⟩
      · rw [List.mapM_cons, run_bind_of_run_eq hcall, run_bind_of_run_eq hcalls]
        rfl
      · rw [hlast, List.findSomeM?_cons, run_bind_of_run_eq hcall]
        exact hrun
      · cases answers with
        | nil => simp
        | cons => simpa using hnone
      · rwa [hlast]

theorem findSomeM?_congr {f g : α → m (Option β)} {xs : List α} (h : ∀ x ∈ xs, f x = g x) :
    xs.findSomeM? f = xs.findSomeM? g := by
  induction xs with
  | nil => rfl
  | cons x xs ih =>
    rw [List.findSomeM?_cons, List.findSomeM?_cons, h x List.mem_cons_self,
      ih fun y hy => h y (List.mem_cons_of_mem x hy)]

/-- What is kept of a list is noted one by one. -/
theorem run_findSomeM?_noteIf (keep : α → Bool) (xs kept : List α) :
    (xs.findSomeM? (noteIf (β := β) keep)).run kept = (none, kept ++ xs.filter keep) := by
  induction xs generalizing kept with
  | nil =>
    rw [List.filter_nil, List.append_nil]
    rfl
  | cons x xs ih =>
    rw [List.findSomeM?_cons]
    cases hkeep : keep x with
    | true =>
      have hnote : (noteIf (β := β) keep x).run kept = (none, kept ++ [x]) := by
        rw [noteIf, if_pos hkeep]
        rfl
      rw [run_bind_of_run_eq hnote, List.filter_cons_of_pos hkeep]
      exact (ih (kept ++ [x])).trans (by rw [List.append_assoc]; rfl)
    | false =>
      have hkeep : ¬keep x = true := by simp [hkeep]
      have hnote : (noteIf (β := β) keep x).run kept = (none, kept) := by
        rw [noteIf, if_neg hkeep]
        rfl
      rw [run_bind_of_run_eq hnote, List.filter_cons_of_neg hkeep]
      exact ih kept

variable [LawfulMonad m]

theorem findSomeM?_singleton (f : α → m (Option β)) (x : α) : [x].findSomeM? f = f x := by
  rw [List.findSomeM?_cons]
  refine Eq.trans (bind_congr fun answer => ?_) (bind_pure (f x))
  cases answer <;> rfl

theorem findSomeM?_append (f : α → m (Option β)) (xs ys : List α) : (xs ++ ys).findSomeM? f
    = xs.findSomeM? f >>= fun answer => answer.elim (ys.findSomeM? f) fun b => pure (some b) := by
  induction xs with
  | nil => simp
  | cons x xs ih =>
    rw [List.cons_append, List.findSomeM?_cons, List.findSomeM?_cons, bind_assoc]
    refine bind_congr fun answer => ?_
    cases answer with
    | none => exact ih
    | some b => simp

/-- Of lists one after the other the first answer is the first answer of the whole. -/
theorem findSomeM?_flatMap (f : α → m (Option β)) (g : γ → List α) (xs : List γ) :
    (xs.flatMap g).findSomeM? f = xs.findSomeM? fun x => (g x).findSomeM? f := by
  induction xs with
  | nil => rfl
  | cons x xs ih =>
    rw [List.flatMap_cons, findSomeM?_append, List.findSomeM?_cons]
    refine bind_congr fun answer => ?_
    cases answer with
    | none => exact ih
    | some b => rfl

theorem forM_flatMap (f : α → m Unit) (g : γ → List α) (xs : List γ) :
    forM (xs.flatMap g) f = forM xs fun x => forM (g x) f := by
  induction xs with
  | nil => rfl
  | cons x xs ih => rw [List.flatMap_cons, List.forM_append, List.forM_cons, ih]

/-- Without answers there is one call for each element. -/
theorem findSomeM?_of_silent (f : α → m Unit) (xs : List α) :
    (xs.findSomeM? fun x => f x >>= fun _ => pure (none : Option β))
      = forM xs f >>= fun _ => pure none := by
  induction xs with
  | nil => simp
  | cons x xs ih =>
    rw [List.findSomeM?_cons, List.forM_cons, bind_assoc, bind_assoc]
    refine bind_congr fun _ => ?_
    rw [pure_bind]
    exact ih

end

namespace Arena

variable {m : Type → Type} [Monad m] {α : Type}
variable {a : Arena} {id : NodeId}

/-! ## 2. Children -/

theorem children_eq (a : Arena) (id : NodeId) : a.children id = (a.parts id).flatMap Part.children := by
  unfold children parts
  cases a.get? id <;> rfl

/-- Nodes and lists are handed out one after the other. -/
theorem forEachPart_eq (a : Arena) (id : NodeId) (f : Part → m (Option α)) :
    (a.forEachPart id (fun c => f (.node c)) fun list => f (.array list))
      = (a.parts id).findSomeM? f := by
  refine congrArg (fun g => (a.parts id).findSomeM? g) (funext fun part => ?_)
  cases part <;> rfl

theorem forEachChild_eq [LawfulMonad m] (a : Arena) (id : NodeId) (f : NodeId → m (Option α)) :
    a.forEachChild id f = (a.children id).findSomeM? f := by
  rw [children_eq, findSomeM?_flatMap]
  refine congrArg (fun g => (a.parts id).findSomeM? g) (funext fun part => ?_)
  cases part with
  | node c => exact (findSomeM?_singleton f c).symm
  | array list => rfl

/-! ## 3. Descendants -/

/-- What a list of pending nodes leads to, the nodes lead to one after the other. -/
theorem walkUntil_append (a : Arena) (xs ys : List NodeId) : a.walkUntil (fun _ => false) (xs ++ ys)
    = a.walkUntil (fun _ => false) xs ++ a.walkUntil (fun _ => false) ys := by
  fun_induction walkUntil a (fun _ => false) xs with
  | case1 => rfl
  | case2 id rest hstop => cases hstop
  | case3 id rest hstop ih =>
    rw [List.cons_append, walkUntil, if_neg hstop, ← List.append_assoc, ih]
    rfl

theorem walkUntil_eq_flatMap (a : Arena) (xs : List NodeId) :
    a.walkUntil (fun _ => false) xs = xs.flatMap fun c => c :: a.descendants c := by
  induction xs with
  | nil => simp [walkUntil]
  | cons c xs ih =>
    rw [walkUntil, if_neg Bool.false_ne_true, walkUntil_append, ih]
    rfl

theorem visit_eq (a : Arena) (enter : NodeId → Bool) (id : NodeId) : a.visit enter id
    = id :: if enter id then (a.olderChildren id).flatMap (a.visit enter) else [] := by
  have h : (a.olderChildren id).attach.flatMap (fun c => a.visit enter c.1)
      = (a.olderChildren id).flatMap (a.visit enter) := by
    rw [← List.flatMap_map, List.attach_map_subtype_val]
  rw [visit, h]

/-- A visitor that goes down everywhere sees the node, and then what lies below it. -/
theorem visit_eq_cons_descendants (a : Arena) (id : NodeId) :
    a.visit (fun _ => true) id = id :: a.descendants id := by
  induction hindex : id.index using Nat.strongRecOn generalizing id with
  | ind index ih =>
    subst hindex
    rw [visit_eq, if_pos rfl, descendants, walkUntil_eq_flatMap]
    refine congrArg (id :: ·) (List.flatMap_congr fun c hc => ?_)
    exact ih c.index (index_lt_of_mem_olderChildren hc) c rfl

theorem visitPending_eq (a : Arena) (f : NodeId → m (Option α)) (pending : List NodeId) :
    a.visitPending f pending = (a.walkUntil (fun _ => false) pending).findSomeM? f := by
  fun_induction walkUntil a (fun _ => false) pending with
  | case1 => simp [visitPending]
  | case2 id rest hstop => cases hstop
  | case3 id rest hstop ih =>
    rw [visitPending, List.findSomeM?_cons, ← ih]
    refine bind_congr fun answer => ?_
    cases answer <;> rfl

theorem visitDescendants_eq (a : Arena) (id : NodeId) (f : NodeId → m (Option α)) :
    a.visitDescendants id f = (a.descendants id).findSomeM? f :=
  visitPending_eq a f _

/-- A visitor that notes what it sees is called in the order of `visit`, wherever it goes down. -/
theorem Descending.tour_eq [LawfulMonad m] (h : a.Descending) (note : NodeId → m Unit)
    (enter : NodeId → Bool) (id : NodeId) :
    a.tour (fun d => do note d; return enter d) id = forM (a.visit enter id) note := by
  induction hindex : id.index using Nat.strongRecOn generalizing id with
  | ind index ih =>
    subst hindex
    rw [tour, visit_eq, h.olderChildren_eq, forEachChild_eq, List.forM_cons, bind_assoc]
    refine bind_congr fun _ => ?_
    rw [pure_bind]
    cases henter : enter id with
    | false => rfl
    | true =>
      have hguard (c : NodeId) (hc : c ∈ a.children id) : (do
          if _ : c.index < id.index then a.tour (fun d => do note d; return enter d) c
          return (none : Option Unit))
          = forM (a.visit enter c) note >>= fun _ => pure none := by
        have hlt := h id c (hasChild_iff.mpr hc)
        rw [dif_pos hlt, ih c.index hlt c rfl]
      rw [if_pos rfl, if_pos rfl, findSomeM?_congr hguard, findSomeM?_of_silent, forM_flatMap,
        bind_assoc]
      refine Eq.trans (bind_congr fun _ => ?_) (bind_pure _)
      rw [pure_bind]

/-! ## 4. What walks tell -/

/-- A visitor that goes down child by child sees the descendants in their order. The descendants of a kind
and the children are what is noted on the way, and a search, like any walk over children, calls what it
is given for one node after the other and for none behind its answer. -/
theorem Descending.walks_agree (h : a.Descending) (r : NodeId) :
    (∀ (σ : Type) (see : NodeId → StateM σ Unit),
      a.tour (fun d => do see d; return true) r = do see r; forM (a.descendants r) see)
    ∧ (∀ kind, a.descendantsOfKind r kind = (a.descendants r).filter (fun d => a.kindOf d == kind)
        ∧ (a.visitDescendants r (noteIf (β := Unit) fun d => a.kindOf d == kind)).run []
          = (none, a.descendantsOfKind r kind))
    ∧ (∀ (σ : Type) (p : NodeId → StateM σ Bool),
        AnswersFirst (fun d => do if ← p d then return some d else return none) (a.descendants r)
          (a.searchDescendants r p))
    ∧ (∀ p, a.findDescendant? r p = (a.descendants r).find? p)
    ∧ (a.containsError r = true ↔ a.hasError r = true ∨ ∃ d ∈ a.descendants r, a.hasError d = true)
    ∧ (∃ handedOut, (a.forEachPart r (fun c => noteIf (β := Unit) (fun _ => true) (Part.node c))
          (fun list => noteIf (fun _ => true) (Part.array list))).run [] = (none, handedOut)
        ∧ a.children r = handedOut.flatMap Part.children)
    ∧ ∀ (σ β : Type) (f : NodeId → StateM σ (Option β)),
        AnswersFirst f (a.children r) (a.forEachChild r f) := by
  refine ⟨fun σ see => ?_, fun kind => ⟨rfl, ?_⟩, fun σ p => ?_, findDescendant?_eq a r,
    containsError_eq_true_iff, ?_, fun σ β f => ?_⟩
  · rw [h.tour_eq see (fun _ => true), visit_eq_cons_descendants, List.forM_cons]
  · rw [visitDescendants_eq, run_findSomeM?_noteIf]
    rfl
  · rw [searchDescendants, visitDescendants_eq]
    exact answersFirst_findSomeM? _ _
  · refine ⟨a.parts r, ?_, children_eq a r⟩
    rw [forEachPart_eq a r (noteIf fun _ => true), run_findSomeM?_noteIf, List.filter_true]
    rfl
  · rw [forEachChild_eq]
    exact answersFirst_findSomeM? f _

/-- Two blocks with the same token in them, one of which is listed in the other. -/
theorem walks_agree_shared :
    let token : Node := { kind := .node .emptyStatement, pos := 0, stop := 1, payload := .token }
    let block (nodes : List NodeId) : Node :=
      { kind := .node .block, pos := 0, stop := 1, payload := .block { pos := 0, stop := 1, nodes } false }
    let a : Arena := ⟨#[token, block [⟨0⟩, ⟨0⟩], block [⟨1⟩, ⟨0⟩, ⟨1⟩]]⟩
    let see (d : NodeId) : StateM (List NodeId) Unit := modifyGet fun ds => ((), ds ++ [d])
    a.Descending
      ∧ (a.tour (fun d => do see d; return true) ⟨2⟩).run []
        = ((), [⟨2⟩, ⟨1⟩, ⟨0⟩, ⟨0⟩, ⟨0⟩, ⟨1⟩, ⟨0⟩, ⟨0⟩]) := by
  intro token block a see
  have hdesc : a.Descending := by decide
  obtain ⟨htour, -⟩ := hdesc.walks_agree ⟨2⟩
  have hbelow (id : NodeId) (cs : List NodeId) (hcs : a.olderChildren id = cs) :
      a.descendants id = cs.flatMap fun c => c :: a.descendants c := by
    rw [descendants, hcs, walkUntil_eq_flatMap]
  have hzero : a.descendants ⟨0⟩ = [] := hbelow ⟨0⟩ [] (by decide)
  have hone : a.descendants ⟨1⟩ = [⟨0⟩, ⟨0⟩] := by
    rw [hbelow ⟨1⟩ [⟨0⟩, ⟨0⟩] (by decide)]
    simp [hzero]
  have htwo : a.descendants ⟨2⟩ = [⟨1⟩, ⟨0⟩, ⟨0⟩, ⟨0⟩, ⟨1⟩, ⟨0⟩, ⟨0⟩] := by
    rw [hbelow ⟨2⟩ [⟨1⟩, ⟨0⟩, ⟨1⟩] (by decide)]
    simp [hzero, hone]
  rw [htour, htwo]
  exact ⟨hdesc, rfl⟩

end Arena

end ScriptSyntax
