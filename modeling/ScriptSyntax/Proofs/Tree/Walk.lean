/-
  ScriptSyntax/Proofs/Tree/Walk.lean
  ==================================
  What walks through a sound arena meet, and what is left alone when parents are
  recorded.

  Walks go to older nodes only.  In a sound arena all children are older, so a
  walk down from a node meets everything below it.
-/
import Mathlib.Logic.Relation
import ScriptSyntax.Proofs.Tree.Sound

namespace ScriptSyntax

namespace Arena

variable {a b c : Arena}

/-! ## 1. Below a node -/

/-- The second node is a child of the first. -/
def HasChild (a : Arena) (p c : NodeId) : Prop := ∃ n, a.get? p = some n ∧ c ∈ n.children

/-- The second node is the first one or lies below it. -/
abbrev Reaches (a : Arena) : NodeId → NodeId → Prop := Relation.ReflTransGen a.HasChild

/-- The second node lies below the first. -/
abbrev Below (a : Arena) : NodeId → NodeId → Prop := Relation.TransGen a.HasChild

theorem hasChild_iff {p d : NodeId} : a.HasChild p d ↔ d ∈ a.children p := by
  unfold HasChild children
  cases a.get? p <;> simp

/-- The mark of an error is on a node that is reached. -/
theorem marked_iff {id : NodeId} : a.Marked id ↔ ∃ d, a.Reaches id d ∧ a.hasError d = true := by
  constructor
  · intro h
    induction h with
    | self herror => exact ⟨_, .refl, herror⟩
    | child hn hc _ ih =>
      obtain ⟨d, hreach, herror⟩ := ih
      exact ⟨d, .head ⟨_, hn, hc⟩ hreach, herror⟩
  · rintro ⟨d, hreach, herror⟩
    induction hreach using Relation.ReflTransGen.head_induction_on with
    | refl => exact .self herror
    | head hchild _ ih =>
      obtain ⟨n, hn, hc⟩ := hchild
      exact .child hn hc ih

/-- Every child is older than the node that it is a child of. -/
def Descending (a : Arena) : Prop := ∀ p c, a.HasChild p c → c.index < p.index

theorem HasChild.lt_size {p d : NodeId} (h : a.HasChild p d) : p.index < a.size := by
  obtain ⟨n, hn, -⟩ := h
  exact lt_size_of_get? hn

theorem HasChild.mem_ids {p d : NodeId} (h : a.HasChild p d) : p ∈ a.ids := by
  obtain ⟨n, hn, -⟩ := h
  exact mem_ids_of_get? hn

theorem descending_iff : a.Descending ↔ ∀ p ∈ a.ids, ∀ c ∈ a.children p, c.index < p.index := by
  constructor
  · intro h p _ c hc
    exact h p c (hasChild_iff.mpr hc)
  · intro h p c hchild
    exact h p hchild.mem_ids c (hasChild_iff.mp hchild)

instance : Decidable a.Descending := decidable_of_iff _ descending_iff.symm

theorem Sound.descending (h : a.Sound) : a.Descending := by
  rintro p c ⟨n, hn, hc⟩
  exact (h.fits p n hn).older c hc

/-- Where children are older, a walk goes to all of them. -/
theorem Descending.olderChildren_eq (h : a.Descending) (p : NodeId) :
    a.olderChildren p = a.children p := by
  refine List.filter_eq_self.mpr fun c hc => ?_
  simpa using h p c (hasChild_iff.mpr hc)

theorem Descending.mem_olderChildren (h : a.Descending) {p d : NodeId} :
    d ∈ a.olderChildren p ↔ a.HasChild p d := by
  rw [h.olderChildren_eq, hasChild_iff]

/-- Down from a node numbers fall. -/
theorem Descending.index_le_of_reaches (h : a.Descending) {p d : NodeId} (hreach : a.Reaches p d) :
    d.index ≤ p.index := by
  induction hreach with
  | refl => exact Nat.le_refl _
  | tail _ hchild ih => exact Nat.le_trans (Nat.le_of_lt (h _ _ hchild)) ih

/-- A node has one parent at most, so two nodes without parents have nothing below them in common. -/
theorem Sound.eq_of_reaches (h : a.Sound) {p q d : NodeId} (hp : a.Free p) (hq : a.Free q)
    (hpd : a.Reaches p d) (hqd : a.Reaches q d) : p = q := by
  have hroot {c : NodeId} (hc : a.Free c) {b : NodeId} (hreach : a.Reaches b c) : b = c := by
    rcases Relation.ReflTransGen.cases_tail hreach with rfl | ⟨b', -, n, hn, hmem⟩
    · rfl
    · exact absurd hmem (hc b' n hn)
  induction hpd with
  | refl => exact (hroot hp hqd).symm
  | tail _ hchild ih =>
    obtain ⟨n, hn, hmem⟩ := hchild
    rcases Relation.ReflTransGen.cases_tail hqd with rfl | ⟨b', hreach, n', hn', hmem'⟩
    · exact absurd hmem (hq _ n hn)
    · obtain rfl := h.single _ _ n n' _ hn hn' hmem hmem'
      exact ih hreach

/-- Parents are younger than their children, so what holds of all nodes without a parent is found
above every node. -/
theorem Sound.exists_above (h : a.Sound) {Top : NodeId → Prop}
    (htop : ∀ id : NodeId, id.index < a.size → Top id ∨ ∃ p, a.HasChild p id) (id : NodeId)
    (hid : id.index < a.size) : ∃ p, Top p ∧ a.Reaches p id := by
  induction hleft : a.size - id.index using Nat.strongRecOn generalizing id with
  | ind left ih =>
    rcases htop id hid with htop | ⟨p, hchild⟩
    · exact ⟨id, htop, .refl⟩
    · have hlt := h.descending p id hchild
      have hp := hchild.lt_size
      obtain ⟨q, hq, hreach⟩ := ih (a.size - p.index) (by omega) p hp rfl
      exact ⟨q, hq, hreach.tail hchild⟩

/-! ## 2. Walks down -/

/-- A walk that is not stopped meets everything below the nodes that it starts with. -/
theorem Descending.mem_walkUntil (h : a.Descending) (pending : List NodeId) (d : NodeId) :
    d ∈ a.walkUntil (fun _ => false) pending ↔ ∃ p ∈ pending, a.Reaches p d := by
  fun_induction walkUntil a (fun _ => false) pending with
  | case1 => simp
  | case2 id rest hstop => cases hstop
  | case3 id rest hstop ih =>
    rw [List.mem_cons, ih]
    constructor
    · rintro (rfl | ⟨p, hp, hreach⟩)
      · exact ⟨d, List.mem_cons_self, .refl⟩
      · rcases List.mem_append.mp hp with hp | hp
        · exact ⟨id, List.mem_cons_self, .head (h.mem_olderChildren.mp hp) hreach⟩
        · exact ⟨p, List.mem_cons_of_mem id hp, hreach⟩
    · rintro ⟨p, hp, hreach⟩
      rcases List.mem_cons.mp hp with rfl | hp
      · rcases Relation.ReflTransGen.cases_head hreach with rfl | ⟨child, hchild, hreach⟩
        · exact .inl rfl
        · exact .inr ⟨child, List.mem_append_left rest (h.mem_olderChildren.mpr hchild), hreach⟩
      · exact .inr ⟨p, List.mem_append_right _ hp, hreach⟩

/-- The descendants of a node are the nodes below it. -/
theorem Descending.mem_descendants (h : a.Descending) {id d : NodeId} :
    d ∈ a.descendants id ↔ a.Below id d := by
  rw [descendants, h.mem_walkUntil]
  simp only [h.mem_olderChildren]
  exact Relation.TransGen.head'_iff.symm

/-- A walk that looks for something finds the first of the nodes that it would meet anyway. -/
theorem filter_getLast?_walkUntil (a : Arena) (p : NodeId → Bool) (pending : List NodeId) :
    ((a.walkUntil p pending).getLast?).filter p = (a.walkUntil (fun _ => false) pending).find? p := by
  fun_induction walkUntil a p pending with
  | case1 => simp [walkUntil]
  | case2 id rest hstop => simp [walkUntil, Option.filter, hstop]
  | case3 id rest hstop ih =>
    have hwhole : a.walkUntil (fun _ => false) (id :: rest)
        = id :: a.walkUntil (fun _ => false) (a.olderChildren id ++ rest) := by
      rw [walkUntil, if_neg Bool.false_ne_true]
    rw [hwhole, List.find?_cons_of_neg hstop, ← ih]
    cases hwalk : a.walkUntil p (a.olderChildren id ++ rest) with
    | nil => simp [Option.filter, hstop]
    | cons next more => simp

theorem findDescendant?_eq (a : Arena) (id : NodeId) (p : NodeId → Bool) :
    a.findDescendant? id p = (a.descendants id).find? p :=
  filter_getLast?_walkUntil a p _

theorem containsError_eq_true_iff {id : NodeId} : a.containsError id = true
    ↔ a.hasError id = true ∨ ∃ d ∈ a.descendants id, a.hasError d = true := by
  rw [containsError, Bool.or_eq_true, findDescendant?_eq, List.find?_isSome]

/-- A tree contains the mark of an error where a node of it carries one. -/
theorem Sound.containsError_iff (h : a.Sound) {id : NodeId} :
    a.containsError id = true ↔ a.Marked id := by
  rw [containsError_eq_true_iff, marked_iff]
  simp only [h.descending.mem_descendants]
  constructor
  · rintro (herror | ⟨d, hbelow, hd⟩)
    · exact ⟨id, .refl, herror⟩
    · exact ⟨d, hbelow.to_reflTransGen, hd⟩
  · rintro ⟨d, hreach, hd⟩
    rcases Relation.reflTransGen_iff_eq_or_transGen.mp hreach with rfl | hbelow
    · exact .inl hd
    · exact .inr ⟨d, hbelow, hd⟩

/-! ## 3. Parents -/

/-- Two nodes differ at most in the parent that is recorded. -/
def SameNode (m n : Node) : Prop := ∃ parent, n = { m with parent }

/-- The nodes of an arena are there in another one, but for the parents that are recorded. -/
def Keeps (a b : Arena) : Prop :=
  ∀ id m, a.get? id = some m → ∃ n, b.get? id = some n ∧ SameNode m n

theorem Keeps.spans (h : a.Keeps b) {lo hi : Nat} {ids : List NodeId} (hspan : a.Spans lo ids hi) :
    b.Spans lo ids hi := by
  induction ids generalizing lo with
  | nil => exact hspan
  | cons id ids ih =>
    obtain ⟨m, hm, hpos, hstop, hrest⟩ := hspan
    obtain ⟨n, hn, parent, rfl⟩ := h id m hm
    exact ⟨_, hn, hpos, hstop, ih hrest⟩

theorem Keeps.spansParts (h : a.Keeps b) {lo hi : Nat} {ps : List Part}
    (hspan : a.SpansParts lo ps hi) : b.SpansParts lo ps hi := by
  induction ps generalizing lo with
  | nil => exact hspan
  | cons p ps ih =>
    cases p with
    | node id =>
      obtain ⟨m, hm, hpos, hstop, hrest⟩ := hspan
      obtain ⟨n, hn, parent, rfl⟩ := h id m hm
      exact ⟨_, hn, hpos, hstop, ih hrest⟩
    | array list =>
      obtain ⟨hpos, hlist, hrest⟩ := hspan
      exact ⟨hpos, h.spans hlist, ih hrest⟩

theorem Keeps.inOrder (h : a.Keeps b) {ids : List NodeId} (horder : a.InOrder ids) :
    b.InOrder ids := by
  induction ids with
  | nil => trivial
  | cons c ids ih =>
    cases ids with
    | nil => trivial
    | cons d ids =>
      obtain ⟨⟨m, n, hm, hn, hle⟩, hrest⟩ := horder
      obtain ⟨_, hm', _, rfl⟩ := h c m hm
      obtain ⟨_, hn', _, rfl⟩ := h d n hn
      exact ⟨⟨_, _, hm', hn', hle⟩, ih hrest⟩

/-- Two arenas have the same nodes, but for the parents that are recorded. -/
structure SameNodes (a b : Arena) : Prop where
  size_eq : b.size = a.size
  keeps : a.Keeps b
  kept : b.Keeps a

namespace SameNodes

theorem refl (a : Arena) : a.SameNodes a where
  size_eq := rfl
  keeps _ n hn := ⟨n, hn, n.parent, rfl⟩
  kept _ n hn := ⟨n, hn, n.parent, rfl⟩

theorem trans (h : a.SameNodes b) (h' : b.SameNodes c) : a.SameNodes c where
  size_eq := h'.size_eq.trans h.size_eq
  keeps id m hm := by
    obtain ⟨n, hn, parent, rfl⟩ := h.keeps id m hm
    obtain ⟨k, hk, parent', rfl⟩ := h'.keeps id _ hn
    exact ⟨_, hk, parent', rfl⟩
  kept id m hm := by
    obtain ⟨n, hn, parent, rfl⟩ := h'.kept id m hm
    obtain ⟨k, hk, parent', rfl⟩ := h.kept id _ hn
    exact ⟨_, hk, parent', rfl⟩

theorem get? (h : a.SameNodes b) {id : NodeId} {n : Node} (hn : b.get? id = some n) :
    ∃ m, a.get? id = some m ∧ SameNode m n := by
  obtain ⟨m, hm, parent, rfl⟩ := h.kept id n hn
  exact ⟨_, hm, n.parent, rfl⟩

theorem hasChild_iff (h : a.SameNodes b) {p d : NodeId} : b.HasChild p d ↔ a.HasChild p d := by
  constructor
  · rintro ⟨n, hn, hd⟩
    obtain ⟨m, hm, parent, rfl⟩ := h.kept p n hn
    exact ⟨_, hm, hd⟩
  · rintro ⟨n, hn, hd⟩
    obtain ⟨m, hm, parent, rfl⟩ := h.keeps p n hn
    exact ⟨_, hm, hd⟩

theorem hasChild_eq (h : a.SameNodes b) : b.HasChild = a.HasChild := by
  funext p d
  exact propext h.hasChild_iff

theorem hasError_eq (h : a.SameNodes b) (id : NodeId) : b.hasError id = a.hasError id := by
  unfold hasError
  cases hn : b.get? id with
  | some n =>
    obtain ⟨m, hm, parent, rfl⟩ := h.get? hn
    rw [hm]
    rfl
  | none =>
    cases hm : a.get? id with
    | none => rfl
    | some m =>
      obtain ⟨n, hn', -⟩ := h.keeps id m hm
      cases hn.symm.trans hn'

theorem marked_iff (h : a.SameNodes b) {id : NodeId} : b.Marked id ↔ a.Marked id := by
  rw [Arena.marked_iff, Arena.marked_iff]
  simp only [Reaches, h.hasChild_eq, h.hasError_eq]

theorem free_iff (h : a.SameNodes b) {id : NodeId} : b.Free id ↔ a.Free id := by
  have hfree {c : Arena} : c.Free id ↔ ∀ p, ¬c.HasChild p id :=
    ⟨fun hfree p ⟨n, hn, hmem⟩ => hfree p n hn hmem, fun hnone p n hn hmem => hnone p ⟨n, hn, hmem⟩⟩
  rw [hfree, hfree, h.hasChild_eq]

theorem leftOut_iff (h : a.SameNodes b) {whole id : NodeId} :
    b.LeftOut whole id ↔ a.LeftOut whole id := by
  have hkeeps {a b : Arena} (h : a.Keeps b) (hleft : a.LeftOut whole id) : b.LeftOut whole id := by
    cases hleft with
    | accessMark hn hkind hparts hm hwhole hpos hstop =>
      obtain ⟨_, hn', _, rfl⟩ := h id _ hn
      obtain ⟨_, hm', _, rfl⟩ := h whole _ hm
      exact .accessMark hn' hkind hparts hm' hwhole hpos hstop
    | closingName hn hkind hm hwhole herror hpos hstop =>
      obtain ⟨_, hn', _, rfl⟩ := h id _ hn
      obtain ⟨_, hm', _, rfl⟩ := h whole _ hm
      exact .closingName hn' hkind hm' hwhole herror hpos hstop
  exact ⟨hkeeps h.kept, hkeeps h.keeps⟩

/-- An arena is sound whatever parents are recorded. -/
theorem sound (h : a.SameNodes b) (ha : a.Sound) : b.Sound where
  fits id n hn := by
    obtain ⟨m, hm, parent, rfl⟩ := h.get? hn
    have hfits := ha.fits id m hm
    refine ⟨hfits.pos_le_stop, hfits.older, hfits.distinct, fun p hp => ?_, ?_⟩
    · exact h.keeps.spansParts (hfits.inside p hp)
    · exact Iff.trans ⟨h.kept.inOrder, h.keeps.inOrder⟩ hfits.inOrder_iff
  single p q np nq c hp hq hcp hcq := by
    obtain ⟨mp, hmp, _, rfl⟩ := h.get? hp
    obtain ⟨mq, hmq, _, rfl⟩ := h.get? hq
    exact ha.single p q mp mq c hmp hmq hcp hcq

end SameNodes

theorem sameNodes_setParent (a : Arena) (parent : Option NodeId) (id : NodeId) :
    a.SameNodes (a.setParent parent id) := by
  refine ⟨?_, fun d m hm => ?_, fun d n hn => ?_⟩
  · exact Array.size_modify
  · refine ⟨if id.index = d.index then { m with parent } else m, by rw [get?_setParent, hm]; rfl, ?_⟩
    split
    · exact ⟨parent, rfl⟩
    · exact ⟨m.parent, rfl⟩
  · rw [get?_setParent, Option.map_eq_some_iff] at hn
    obtain ⟨m, hm, rfl⟩ := hn
    refine ⟨m, hm, m.parent, ?_⟩
    split <;> rfl

theorem sameNodes_foldl {α : Type} {f : Arena → α → Arena}
    (hf : ∀ (a : Arena) x, a.SameNodes (f a x))
    (xs : List α) (a : Arena) : a.SameNodes (xs.foldl f a) := by
  induction xs generalizing a with
  | nil => exact .refl a
  | cons x xs ih => exact (hf a x).trans (ih (f a x))

theorem sameNodes_adoptChildren (a : Arena) (p : NodeId) : a.SameNodes (a.adoptChildren p) :=
  sameNodes_foldl (fun a c => sameNodes_setParent a (some p) c) _ a

/-- Where a walk goes, the children alone decide. -/
theorem walkUntil_congr (h : ∀ id, b.olderChildren id = a.olderChildren id) (stop : NodeId → Bool)
    (pending : List NodeId) : b.walkUntil stop pending = a.walkUntil stop pending := by
  fun_induction walkUntil a stop pending with
  | case1 => simp [walkUntil]
  | case2 id rest hstop => simp [walkUntil, hstop]
  | case3 id rest hstop ih => simp [walkUntil, hstop, h, ih]

/-- Parents are recorded for the children of each node that a walk meets, in the order of the walk. -/
theorem linkPending_eq (a : Arena) (pending : List NodeId) :
    a.linkPending pending = (a.walkUntil (fun _ => false) pending).foldl adoptChildren a := by
  fun_induction linkPending a pending with
  | case1 a => simp [walkUntil]
  | case2 a id rest ih =>
    rw [walkUntil, if_neg Bool.false_ne_true, List.foldl_cons, ih,
      walkUntil_congr (olderChildren_adoptChildren a id)]

theorem linkParents_eq (a : Arena) (id : NodeId) :
    a.linkParents id = (id :: a.descendants id).foldl adoptChildren (a.setParent none id) := by
  rw [linkParents, linkPending_eq, walkUntil_congr (olderChildren_setParent a none id), walkUntil,
    if_neg Bool.false_ne_true, List.append_nil]
  rfl

/-- Recording parents changes nothing else. -/
theorem sameNodes_linkParents (a : Arena) (root : NodeId) : a.SameNodes (a.linkParents root) := by
  rw [linkParents_eq]
  exact (sameNodes_setParent a none root).trans (sameNodes_foldl sameNodes_adoptChildren _ _)

end Arena

end ScriptSyntax
