/-
  ScriptSyntax/Proofs/Tree/Links.lean
  ===================================
  Recorded parents and listed children say the same.

  Parents are recorded node by node, each node for its own children.  A node that
  no two others list as a child is told by one of them only who its parent is,
  whatever was recorded before, so from then on walks up retrace the walks down.
-/
import ScriptSyntax.Proofs.Tree.Walk

namespace ScriptSyntax

namespace Arena

variable {a b : Arena} {ids : List NodeId} {r p q c d : NodeId}

/-! ## 1. What is assumed, and what is said -/

/-- From the root down no node is a child of two others. -/
def SharesNothing (a : Arena) (r : NodeId) : Prop :=
  ∀ p ∈ r :: a.descendants r, ∀ q ∈ r :: a.descendants r, ∀ c,
    c ∈ a.children p → c ∈ a.children q → p = q

/-- Parent by parent the way up from the node leads over the given nodes, and the last of them has no
parent. -/
inductive Ascends (a : Arena) : NodeId → List NodeId → Prop where
  | top {c : NodeId} : a.parent? c = none → Ascends a c []
  | step {c p : NodeId} {up : List NodeId} : a.parent? c = some p → Ascends a p up →
    Ascends a c (p :: up)

theorem Descending.mem_tree_iff (h : a.Descending) : d ∈ r :: a.descendants r ↔ a.Reaches r d := by
  rw [List.mem_cons, h.mem_descendants]
  exact Relation.reflTransGen_iff_eq_or_transGen.symm

/-- A node of which no two nodes of the arena have a child in common shares nothing below it. -/
theorem sharesNothing_of_ids
    (h : ∀ p ∈ a.ids, ∀ q ∈ a.ids, ∀ c ∈ a.children p, c ∈ a.children q → p = q) :
    a.SharesNothing r := by
  intro p _ q _ c hp hq
  exact h p (hasChild_iff.mpr hp).mem_ids q (hasChild_iff.mpr hq).mem_ids c hp hq

theorem SharesNothing.eq (h : a.SharesNothing r) (hdesc : a.Descending) (hp : a.Reaches r p)
    (hq : a.Reaches r q) (hpc : a.HasChild p c) (hqc : a.HasChild q c) : p = q :=
  h p (hdesc.mem_tree_iff.mpr hp) q (hdesc.mem_tree_iff.mpr hq) c (hasChild_iff.mp hpc)
    (hasChild_iff.mp hqc)

/-! ## 2. Recording parents -/

theorem get?_setParent_of_ne {parent : Option NodeId} (h : d ≠ p) :
    (a.setParent parent p).get? d = a.get? d := by
  have hne : p.index ≠ d.index := by
    cases p
    cases d
    simpa [eq_comm] using h
  rw [get?_setParent]
  simp [hne]

theorem parent?_setParent_self {parent : Option NodeId} (h : d.index < a.size) :
    (a.setParent parent d).parent? d = parent := by
  have hd : a.get? d = some a.nodes[d.index] := Array.getElem?_eq_getElem h
  simp [parent?, get?_setParent, hd]

/-- What is recorded for others leaves a node alone. -/
theorem get?_foldl_setParent (parent : Option NodeId) (h : d ∉ ids) :
    (ids.foldl (fun a c => a.setParent parent c) a).get? d = a.get? d := by
  induction ids generalizing a with
  | nil => rfl
  | cons c ids ih =>
    rw [List.mem_cons, not_or] at h
    rw [List.foldl_cons, ih h.2, get?_setParent_of_ne h.1]

theorem parent?_foldl_setParent (parent : Option NodeId) (h : d ∈ ids) (hd : d.index < a.size) :
    (ids.foldl (fun a c => a.setParent parent c) a).parent? d = parent := by
  induction ids generalizing a with
  | nil => cases h
  | cons c ids ih =>
    have hsize := (sameNodes_setParent a parent c).size_eq
    rw [List.foldl_cons]
    by_cases hmem : d ∈ ids
    · exact ih hmem (hsize ▸ hd)
    · obtain rfl : d = c := (List.mem_cons.mp h).resolve_right hmem
      rw [parent?, get?_foldl_setParent parent hmem]
      exact parent?_setParent_self hd

theorem get?_adoptChildren (h : ¬a.HasChild p d) : (a.adoptChildren p).get? d = a.get? d :=
  get?_foldl_setParent (some p) (mt hasChild_iff.mpr h)

theorem parent?_adoptChildren (h : a.HasChild p d) (hd : d.index < a.size) :
    (a.adoptChildren p).parent? d = some p :=
  parent?_foldl_setParent (some p) (hasChild_iff.mp h) hd

theorem get?_foldl_adoptChildren (h : ∀ p ∈ ids, ¬a.HasChild p d) :
    (ids.foldl adoptChildren a).get? d = a.get? d := by
  induction ids generalizing a with
  | nil => rfl
  | cons p ids ih =>
    obtain ⟨hp, hrest⟩ := List.forall_mem_cons.mp h
    have hsame := sameNodes_adoptChildren a p
    rw [List.foldl_cons, ih fun q hq hchild => hrest q hq (hsame.hasChild_iff.mp hchild)]
    exact get?_adoptChildren hp

/-- The one node that lists another among its children is recorded as its parent, whichever nodes come
before it and after it. -/
theorem parent?_foldl_adoptChildren (hp : p ∈ ids) (hchild : a.HasChild p d)
    (hone : ∀ q ∈ ids, a.HasChild q d → q = p) (hd : d.index < a.size) :
    (ids.foldl adoptChildren a).parent? d = some p := by
  induction ids generalizing a with
  | nil => cases hp
  | cons q ids ih =>
    obtain ⟨hq, hrest⟩ := List.forall_mem_cons.mp hone
    have hsame := sameNodes_adoptChildren a q
    rw [List.foldl_cons]
    by_cases hmem : p ∈ ids
    · refine ih hmem (hsame.hasChild_iff.mpr hchild) (fun q hq hqd => ?_) (hsame.size_eq ▸ hd)
      exact hrest q hq (hsame.hasChild_iff.mp hqd)
    · obtain rfl : p = q := (List.mem_cons.mp hp).resolve_right hmem
      have hlater : ∀ q ∈ ids, ¬(a.adoptChildren p).HasChild q d := by
        intro q hq hqd
        exact hmem (hrest q hq (hsame.hasChild_iff.mp hqd) ▸ hq)
      rw [parent?, get?_foldl_adoptChildren hlater]
      exact parent?_adoptChildren hchild hd

/-! ## 3. The parents of a tree -/

theorem Descending.not_hasChild_root (h : a.Descending) (hp : a.Reaches r p) : ¬a.HasChild p r := by
  intro hchild
  exact absurd (h p r hchild) (Nat.not_lt_of_le (h.index_le_of_reaches hp))

theorem HasChild.child_lt_size (h : a.HasChild p c) (hdesc : a.Descending) : c.index < a.size :=
  Nat.lt_trans (hdesc p c h) h.lt_size

/-- Outside the tree nothing changes. -/
theorem get?_linkParents (h : a.Descending) (hd : ¬a.Reaches r d) :
    (a.linkParents r).get? d = a.get? d := by
  have hne : d ≠ r := fun heq => hd (heq ▸ .refl)
  have hnone : ∀ p ∈ r :: a.descendants r, ¬(a.setParent none r).HasChild p d := by
    intro p hp hchild
    have hchild := (sameNodes_setParent a none r).hasChild_iff.mp hchild
    exact hd ((h.mem_tree_iff.mp hp).tail hchild)
  rw [linkParents_eq, get?_foldl_adoptChildren hnone, get?_setParent_of_ne hne]

theorem parent?_linkParents_root (h : a.Descending) (r : NodeId) :
    (a.linkParents r).parent? r = none := by
  have hnone : ∀ p ∈ r :: a.descendants r, ¬(a.setParent none r).HasChild p r := by
    intro p hp hchild
    have hchild := (sameNodes_setParent a none r).hasChild_iff.mp hchild
    exact h.not_hasChild_root (h.mem_tree_iff.mp hp) hchild
  rw [parent?, linkParents_eq, get?_foldl_adoptChildren hnone, get?_setParent]
  cases a.get? r with
  | none => rfl
  | some n => simp

theorem parent?_linkParents (h : a.Descending) (hshare : a.SharesNothing r) (hp : a.Reaches r p)
    (hchild : a.HasChild p c) : (a.linkParents r).parent? c = some p := by
  have hsame := sameNodes_setParent a none r
  rw [linkParents_eq]
  refine parent?_foldl_adoptChildren (h.mem_tree_iff.mpr hp) (hsame.hasChild_iff.mpr hchild) ?_ ?_
  · intro q hq hqc
    exact hshare.eq h (h.mem_tree_iff.mp hq) hp (hsame.hasChild_iff.mp hqc) hchild
  · exact hsame.size_eq ▸ hchild.child_lt_size h

/-! ## 4. Up the tree -/

/-- The parents of a tree are recorded: the root has none, and every other node has the one that lists it. -/
structure Linked (a : Arena) (r : NodeId) : Prop where
  descending : a.Descending
  root : a.parent? r = none
  child : ∀ p c, a.Reaches r p → a.HasChild p c → a.parent? c = some p

namespace Linked

theorem ancestors_root (h : a.Linked r) : a.ancestors r = [] := by
  rw [ancestors, h.root]

theorem ancestors_child (h : a.Linked r) (hp : a.Reaches r p) (hchild : a.HasChild p c) :
    a.ancestors c = p :: a.ancestors p := by
  rw [ancestors, h.child p c hp hchild]
  exact if_pos ⟨h.descending p c hchild, hchild.lt_size⟩

/-- From each node of the tree the way up comes to an end, and where it has started below the root, it
ends there. -/
theorem ascends (h : a.Linked r) (hc : a.Below r c) :
    a.Ascends c (a.ancestors c) ∧ (a.ancestors c).getLast? = some r := by
  have hroot : a.Ascends r (a.ancestors r) := by
    rw [h.ancestors_root]
    exact .top h.root
  induction hc with
  | single hchild =>
    rw [h.ancestors_child .refl hchild]
    refine ⟨.step (h.child r _ .refl hchild) hroot, ?_⟩
    rw [h.ancestors_root]
    rfl
  | tail hp hchild ih =>
    obtain ⟨hup, hlast⟩ := ih
    have hp := hp.to_reflTransGen
    rw [h.ancestors_child hp hchild]
    refine ⟨.step (h.child _ _ hp hchild) hup, ?_⟩
    rw [List.getLast?_cons, hlast]
    rfl

/-- Above a node of the tree there are just the nodes of the tree that it is below. -/
theorem mem_ancestors_iff (h : a.Linked r) (hd : a.Reaches r d) (hc : a.Reaches r c) :
    d ∈ a.ancestors c ↔ a.Below d c := by
  constructor
  · intro hmem
    induction hc with
    | refl =>
      rw [h.ancestors_root] at hmem
      cases hmem
    | tail hp hchild ih =>
      rw [h.ancestors_child hp hchild, List.mem_cons] at hmem
      rcases hmem with rfl | hmem
      · exact .single hchild
      · exact (ih hmem).tail hchild
  · intro hbelow
    induction hbelow with
    | single hchild =>
      rw [h.ancestors_child hd hchild]
      exact List.mem_cons_self
    | tail hp hchild ih =>
      have hp := hd.trans hp.to_reflTransGen
      rw [h.ancestors_child hp hchild]
      exact List.mem_cons_of_mem _ (ih hp)

end Linked

theorem linked_linkParents (h : a.Descending) (hshare : a.SharesNothing r) :
    (a.linkParents r).Linked r where
  descending p c hchild := h p c ((sameNodes_linkParents a r).hasChild_iff.mp hchild)
  root := parent?_linkParents_root h r
  child p c hp hchild := by
    have hsame := sameNodes_linkParents a r
    rw [Reaches, hsame.hasChild_eq] at hp
    exact parent?_linkParents h hshare hp (hsame.hasChild_iff.mp hchild)

/-- After the parents of a tree have been recorded, a node of it is a child of another one just if that is
its parent, the ways up all end in the root and go over the nodes that lie above, and nothing but the
parents of the tree has changed. -/
theorem linkParents_inverts_children (h : a.Descending) (hshare : a.SharesNothing r) :
    let b := a.linkParents r
    b.parent? r = none
      ∧ (∀ p ∈ r :: b.descendants r, ∀ c,
          c ∈ b.children p ↔ c ∈ b.descendants r ∧ b.parent? c = some p)
      ∧ (∀ c ∈ b.descendants r, b.Ascends c (b.ancestors c) ∧ (b.ancestors c).getLast? = some r)
      ∧ (∀ d ∈ r :: b.descendants r, ∀ c ∈ r :: b.descendants r,
          d ∈ b.ancestors c ↔ c ∈ b.descendants d)
      ∧ b.size = a.size
      ∧ (∀ d, d ∉ r :: b.descendants r → b.get? d = a.get? d)
      ∧ ∀ d n, a.get? d = some n → ∃ parent, b.get? d = some { n with parent } := by
  intro b
  have hsame : a.SameNodes b := sameNodes_linkParents a r
  have hlinked : b.Linked r := linked_linkParents h hshare
  have hdesc := hlinked.descending
  refine ⟨hlinked.root, ?_, ?_, ?_, hsame.size_eq, ?_, ?_⟩
  · intro p hp c
    have hp := hdesc.mem_tree_iff.mp hp
    rw [← hasChild_iff, hdesc.mem_descendants]
    constructor
    · intro hchild
      exact ⟨.tail' hp hchild, hlinked.child p c hp hchild⟩
    · rintro ⟨hc, hparent⟩
      obtain ⟨q, hq, hchild⟩ := Relation.TransGen.tail'_iff.mp hc
      obtain rfl : q = p := Option.some.inj ((hlinked.child q c hq hchild).symm.trans hparent)
      exact hchild
  · intro c hc
    exact hlinked.ascends (hdesc.mem_descendants.mp hc)
  · intro d hd c hc
    rw [hdesc.mem_descendants]
    exact hlinked.mem_ancestors_iff (hdesc.mem_tree_iff.mp hd) (hdesc.mem_tree_iff.mp hc)
  · intro d hd
    rw [hdesc.mem_tree_iff, Reaches, hsame.hasChild_eq] at hd
    exact get?_linkParents h hd
  · intro d n hn
    obtain ⟨m, hm, parent, rfl⟩ := hsame.keeps d n hn
    exact ⟨parent, hm⟩

/-- Two blocks, one in the other, with parents from before that are all wrong. The token that stands apart
keeps what it has. -/
theorem linkParents_inverts_children_stale :
    let token (parent : Nat) : Node :=
      { kind := .node .emptyStatement, pos := 0, stop := 1, parent := some ⟨parent⟩, payload := .token }
    let block (parent : Nat) (nodes : List NodeId) : Node :=
      { kind := .node .block, pos := 0, stop := 1, parent := some ⟨parent⟩
        payload := .block { pos := 0, stop := 1, nodes } false }
    let a : Arena := ⟨#[token 2, token 0, block 0 [⟨1⟩], block 1 [⟨0⟩, ⟨2⟩], token 3]⟩
    a.Descending ∧ a.SharesNothing ⟨3⟩ ∧ (a.linkParents ⟨3⟩).parent? ⟨3⟩ = none
      ∧ ∀ d, d ∉ ⟨3⟩ :: (a.linkParents ⟨3⟩).descendants ⟨3⟩ → (a.linkParents ⟨3⟩).get? d = a.get? d := by
  intro token block a
  have hdesc : a.Descending := by decide
  have hshare : a.SharesNothing ⟨3⟩ := sharesNothing_of_ids (by decide)
  obtain ⟨hroot, -, -, -, -, houtside, -⟩ := linkParents_inverts_children hdesc hshare
  exact ⟨hdesc, hshare, hroot, houtside⟩

end Arena

end ScriptSyntax
