/-
  ScriptSyntax/Proofs/Tree/Sound.lean
  ===================================
  Sound arenas.

  In a sound arena every node fits: its children are older than it and distinct,
  its parts lie inside it, and a list of it holds nodes that lie one after the
  other.  No node is a child of two nodes.  All of this is said of the nodes of
  the arena, whether a tree reaches them or not, so adding a node is the only
  thing that can break it.
-/
import ScriptSyntax.Tree.Walk

namespace ScriptSyntax

/-- All children among the parts, in order. -/
def childrenOf (parts : List Part) : List NodeId := parts.flatMap Part.children

@[simp] theorem childrenOf_nil : childrenOf [] = [] := rfl

@[simp] theorem childrenOf_append (ps qs : List Part) :
    childrenOf (ps ++ qs) = childrenOf ps ++ childrenOf qs :=
  List.flatMap_append

@[simp] theorem childrenOf_node (id : NodeId) (ps : List Part) :
    childrenOf (.node id :: ps) = id :: childrenOf ps := rfl

@[simp] theorem childrenOf_array (list : NodeArray) (ps : List Part) :
    childrenOf (.array list :: ps) = list.nodes ++ childrenOf ps := rfl

@[simp] theorem childrenOf_map_node (ids : List NodeId) :
    childrenOf (ids.map Part.node) = ids := by
  induction ids with
  | nil => rfl
  | cons id ids ih => simp [ih]

theorem childrenOf_sublist {ps qs : List Part} (h : ps.Sublist qs) :
    (childrenOf ps).Sublist (childrenOf qs) := by
  induction h with
  | slnil => exact .slnil
  | cons p _ ih => exact ih.trans (List.sublist_append_right p.children _)
  | cons_cons p _ ih => exact (List.Sublist.refl p.children).append ih

theorem Node.children_eq (n : Node) : n.children = childrenOf n.parts := rfl

namespace Arena

variable {a b : Arena}

/-! ## 1. Growth -/

/-- The arena has grown: the nodes that it had are there as they were. -/
structure Grows (a b : Arena) : Prop where
  size_le : a.size ≤ b.size
  get?_eq : ∀ id : NodeId, id.index < a.size → b.get? id = a.get? id

theorem Grows.refl (a : Arena) : a.Grows a := ⟨Nat.le_refl _, fun _ _ => rfl⟩

theorem Grows.trans {c : Arena} (hab : a.Grows b) (hbc : b.Grows c) : a.Grows c where
  size_le := Nat.le_trans hab.size_le hbc.size_le
  get?_eq id h := by
    rw [hbc.get?_eq id (Nat.lt_of_lt_of_le h hab.size_le), hab.get?_eq id h]

theorem lt_size_of_get? {id : NodeId} {n : Node} (h : a.get? id = some n) : id.index < a.size :=
  (Array.getElem?_eq_some_iff.mp h).1

theorem mem_ids_of_get? {id : NodeId} {n : Node} (h : a.get? id = some n) : id ∈ a.ids :=
  List.mem_map.mpr ⟨id.index, List.mem_range.mpr (lt_size_of_get? h), rfl⟩

theorem Grows.get? (h : a.Grows b) {id : NodeId} {n : Node} (hn : a.get? id = some n) :
    b.get? id = some n := by
  rw [h.get?_eq id (lt_size_of_get? hn), hn]

/-- An arena that has only grown is cut back to what it was. -/
theorem Grows.truncate_eq (h : a.Grows b) : b.truncate a.size = a := by
  have hcut (i : Nat) : (b.truncate a.size).nodes[i]?
      = if i < min a.size b.nodes.size then b.nodes[i]? else none := by
    simp [truncate, Array.getElem?_extract]
  have hnodes : (b.truncate a.size).nodes = a.nodes := by
    refine Array.ext_getElem? fun i => ?_
    rw [hcut]
    have hle : a.size ≤ b.nodes.size := h.size_le
    by_cases hi : i < a.size
    · rw [if_pos (Nat.lt_min.mpr ⟨hi, Nat.lt_of_lt_of_le hi hle⟩)]
      exact h.get?_eq ⟨i⟩ hi
    · rw [if_neg (by omega)]
      exact (Array.getElem?_eq_none (Nat.le_of_not_lt hi)).symm
  cases a with
  | mk nodes => exact congrArg Arena.mk hnodes

/-- The arena with one more node. -/
def push (a : Arena) (n : Node) : Arena := ⟨a.nodes.push n⟩

@[simp] theorem size_push (a : Arena) (n : Node) : (a.push n).size = a.size + 1 :=
  Array.size_push n

@[simp] theorem get?_push_self (a : Arena) (n : Node) : (a.push n).get? ⟨a.size⟩ = some n :=
  Array.getElem?_push_size

theorem get?_push_of_lt (a : Arena) (n : Node) {id : NodeId} (h : id.index < a.size) :
    (a.push n).get? id = a.get? id := by
  show (a.nodes.push n)[id.index]? = a.nodes[id.index]?
  exact Array.getElem?_push_lt h |>.trans (Array.getElem?_eq_getElem h).symm

theorem grows_push (a : Arena) (n : Node) : a.Grows (a.push n) where
  size_le := by simp
  get?_eq _ h := get?_push_of_lt a n h

/-- The nodes of an arena with one more node are its old ones and the new one. -/
theorem get?_push_cases {n m : Node} {id : NodeId} (h : (a.push n).get? id = some m) :
    a.get? id = some m ∨ (id = ⟨a.size⟩ ∧ m = n) := by
  have hlt := lt_size_of_get? h
  rw [size_push] at hlt
  rcases Nat.lt_succ_iff_lt_or_eq.mp hlt with hold | hnew
  · exact .inl (by rw [← get?_push_of_lt a n hold, h])
  · have hid : id = ⟨a.size⟩ := congrArg NodeId.mk hnew
    rw [hid, get?_push_self] at h
    exact .inr ⟨hid, (Option.some.inj h).symm⟩

/-! ## 2. Rows of nodes and of parts -/

/-- The nodes lie one after the other between two positions. -/
def Spans (a : Arena) : Nat → List NodeId → Nat → Prop
  | lo, [], hi => lo ≤ hi
  | lo, id :: rest, hi =>
    ∃ n, a.get? id = some n ∧ lo ≤ n.pos ∧ n.pos ≤ n.stop ∧ a.Spans n.stop rest hi

/-- The parts lie one after the other between two positions, and so do the nodes of each list
between the ends of that list. -/
def SpansParts (a : Arena) : Nat → List Part → Nat → Prop
  | lo, [], hi => lo ≤ hi
  | lo, .node id :: rest, hi =>
    ∃ n, a.get? id = some n ∧ lo ≤ n.pos ∧ n.pos ≤ n.stop ∧ a.SpansParts n.stop rest hi
  | lo, .array list :: rest, hi =>
    lo ≤ list.pos ∧ a.Spans list.pos list.nodes list.stop ∧ a.SpansParts list.stop rest hi

theorem Spans.le {lo hi : Nat} {ids : List NodeId} (h : a.Spans lo ids hi) : lo ≤ hi := by
  induction ids generalizing lo with
  | nil => exact h
  | cons id ids ih =>
    obtain ⟨n, -, hpos, hstop, hrest⟩ := h
    exact Nat.le_trans hpos (Nat.le_trans hstop (ih hrest))

theorem Spans.mono {lo lo' hi hi' : Nat} {ids : List NodeId} (h : a.Spans lo ids hi)
    (hlo : lo' ≤ lo) (hhi : hi ≤ hi') : a.Spans lo' ids hi' := by
  induction ids generalizing lo lo' with
  | nil => exact Nat.le_trans hlo (Nat.le_trans h hhi)
  | cons id ids ih =>
    obtain ⟨n, hn, hpos, hstop, hrest⟩ := h
    exact ⟨n, hn, Nat.le_trans hlo hpos, hstop, ih hrest (Nat.le_refl _)⟩

theorem Spans.append {lo mid hi : Nat} {ids ids' : List NodeId} (h : a.Spans lo ids mid)
    (h' : a.Spans mid ids' hi) : a.Spans lo (ids ++ ids') hi := by
  induction ids generalizing lo with
  | nil => exact h'.mono h (Nat.le_refl _)
  | cons id ids ih =>
    obtain ⟨n, hn, hpos, hstop, hrest⟩ := h
    exact ⟨n, hn, hpos, hstop, ih hrest⟩

theorem Spans.grows {lo hi : Nat} {ids : List NodeId} (h : a.Spans lo ids hi) (hab : a.Grows b) :
    b.Spans lo ids hi := by
  induction ids generalizing lo with
  | nil => exact h
  | cons id ids ih =>
    obtain ⟨n, hn, hpos, hstop, hrest⟩ := h
    exact ⟨n, hab.get? hn, hpos, hstop, ih hrest⟩

/-- Every node of a row lies between the ends of the row. -/
theorem Spans.get?_of_mem {lo hi : Nat} {ids : List NodeId} (h : a.Spans lo ids hi) {id : NodeId}
    (hid : id ∈ ids) : ∃ n, a.get? id = some n ∧ lo ≤ n.pos ∧ n.pos ≤ n.stop ∧ n.stop ≤ hi := by
  induction ids generalizing lo with
  | nil => cases hid
  | cons first ids ih =>
    obtain ⟨n, hn, hpos, hstop, hrest⟩ := h
    rcases List.mem_cons.mp hid with rfl | hid
    · exact ⟨n, hn, hpos, hstop, hrest.le⟩
    · obtain ⟨m, hm, hle, hm'⟩ := ih hrest hid
      exact ⟨m, hm, by omega, hm'⟩

theorem SpansParts.le {lo hi : Nat} {ps : List Part} (h : a.SpansParts lo ps hi) : lo ≤ hi := by
  induction ps generalizing lo with
  | nil => exact h
  | cons p ps ih =>
    cases p with
    | node id =>
      obtain ⟨n, -, hpos, hstop, hrest⟩ := h
      exact Nat.le_trans hpos (Nat.le_trans hstop (ih hrest))
    | array list =>
      obtain ⟨hpos, hlist, hrest⟩ := h
      exact Nat.le_trans hpos (Nat.le_trans hlist.le (ih hrest))

theorem SpansParts.mono {lo lo' hi hi' : Nat} {ps : List Part} (h : a.SpansParts lo ps hi)
    (hlo : lo' ≤ lo) (hhi : hi ≤ hi') : a.SpansParts lo' ps hi' := by
  induction ps generalizing lo lo' with
  | nil => exact Nat.le_trans hlo (Nat.le_trans h hhi)
  | cons p ps ih =>
    cases p with
    | node id =>
      obtain ⟨n, hn, hpos, hstop, hrest⟩ := h
      exact ⟨n, hn, Nat.le_trans hlo hpos, hstop, ih hrest (Nat.le_refl _)⟩
    | array list =>
      obtain ⟨hpos, hlist, hrest⟩ := h
      exact ⟨Nat.le_trans hlo hpos, hlist, ih hrest (Nat.le_refl _)⟩

theorem SpansParts.append {lo mid hi : Nat} {ps qs : List Part} (h : a.SpansParts lo ps mid)
    (h' : a.SpansParts mid qs hi) : a.SpansParts lo (ps ++ qs) hi := by
  induction ps generalizing lo with
  | nil => exact h'.mono h (Nat.le_refl _)
  | cons p ps ih =>
    cases p with
    | node id =>
      obtain ⟨n, hn, hpos, hstop, hrest⟩ := h
      exact ⟨n, hn, hpos, hstop, ih hrest⟩
    | array list =>
      obtain ⟨hpos, hlist, hrest⟩ := h
      exact ⟨hpos, hlist, ih hrest⟩

theorem SpansParts.grows {lo hi : Nat} {ps : List Part} (h : a.SpansParts lo ps hi)
    (hab : a.Grows b) : b.SpansParts lo ps hi := by
  induction ps generalizing lo with
  | nil => exact h
  | cons p ps ih =>
    cases p with
    | node id =>
      obtain ⟨n, hn, hpos, hstop, hrest⟩ := h
      exact ⟨n, hab.get? hn, hpos, hstop, ih hrest⟩
    | array list =>
      obtain ⟨hpos, hlist, hrest⟩ := h
      exact ⟨hpos, hlist.grows hab, ih hrest⟩

/-- Each part of a row lies between the ends of the row. -/
theorem SpansParts.of_mem {lo hi : Nat} {ps : List Part} (h : a.SpansParts lo ps hi) {p : Part}
    (hp : p ∈ ps) : a.SpansParts lo [p] hi := by
  induction ps generalizing lo with
  | nil => cases hp
  | cons q ps ih =>
    cases q with
    | node id =>
      obtain ⟨n, hn, hpos, hstop, hrest⟩ := h
      rcases List.mem_cons.mp hp with rfl | hp'
      · exact ⟨n, hn, hpos, hstop, hrest.le⟩
      · exact (ih hrest hp').mono (Nat.le_trans hpos hstop) (Nat.le_refl _)
    | array list =>
      obtain ⟨hpos, hlist, hrest⟩ := h
      rcases List.mem_cons.mp hp with rfl | hp'
      · exact ⟨hpos, hlist, hrest.le⟩
      · exact (ih hrest hp').mono (Nat.le_trans hpos hlist.le) (Nat.le_refl _)

/-- Parts may be left out of a row. -/
theorem SpansParts.sublist {lo hi : Nat} {ps qs : List Part} (h : a.SpansParts lo qs hi)
    (hsub : ps.Sublist qs) : a.SpansParts lo ps hi := by
  induction hsub generalizing lo with
  | slnil => exact h
  | cons p _ ih =>
    cases p with
    | node id =>
      obtain ⟨n, -, hpos, hstop, hrest⟩ := h
      exact (ih hrest).mono (Nat.le_trans hpos hstop) (Nat.le_refl _)
    | array list =>
      obtain ⟨hpos, hlist, hrest⟩ := h
      exact (ih hrest).mono (Nat.le_trans hpos hlist.le) (Nat.le_refl _)
  | cons_cons p _ ih =>
    cases p with
    | node id =>
      obtain ⟨n, hn, hpos, hstop, hrest⟩ := h
      exact ⟨n, hn, hpos, hstop, ih hrest⟩
    | array list =>
      obtain ⟨hpos, hlist, hrest⟩ := h
      exact ⟨hpos, hlist, ih hrest⟩

/-- The children in a row of parts are a row of nodes. -/
theorem SpansParts.children {lo hi : Nat} {ps : List Part} (h : a.SpansParts lo ps hi) :
    a.Spans lo (childrenOf ps) hi := by
  induction ps generalizing lo with
  | nil => exact h
  | cons p ps ih =>
    cases p with
    | node id =>
      obtain ⟨n, hn, hpos, hstop, hrest⟩ := h
      exact ⟨n, hn, hpos, hstop, ih hrest⟩
    | array list =>
      obtain ⟨hpos, hlist, hrest⟩ := h
      exact (hlist.append (ih hrest)).mono hpos (Nat.le_refl _)

/-! ## 3. The order of siblings -/

/-- The first node ends where the second one starts, or before. -/
def Precedes (a : Arena) (c d : NodeId) : Prop :=
  ∃ m n, a.get? c = some m ∧ a.get? d = some n ∧ m.stop ≤ n.pos

/-- Each node of the list ends where the next one starts, or before. -/
def InOrder (a : Arena) : List NodeId → Prop
  | c :: d :: rest => a.Precedes c d ∧ a.InOrder (d :: rest)
  | _ => True

theorem Spans.inOrder {lo hi : Nat} {ids : List NodeId} (h : a.Spans lo ids hi) :
    a.InOrder ids := by
  induction ids generalizing lo with
  | nil => trivial
  | cons id ids ih =>
    obtain ⟨n, hn, hpos, hstop, hrest⟩ := h
    cases ids with
    | nil => trivial
    | cons next ids =>
      refine ⟨?_, ih hrest⟩
      obtain ⟨m, hm, hle, -⟩ := hrest
      exact ⟨n, m, hn, hm, hle⟩

/-- Whether nodes are in order does not change when others are added. -/
theorem Grows.inOrder_iff (hab : a.Grows b) {ids : List NodeId}
    (h : ∀ id ∈ ids, id.index < a.size) : b.InOrder ids ↔ a.InOrder ids := by
  have hprecedes : ∀ c ∈ ids, ∀ d ∈ ids, b.Precedes c d ↔ a.Precedes c d := by
    intro c hc d hd
    simp only [Precedes, hab.get?_eq c (h c hc), hab.get?_eq d (h d hd)]
  induction ids with
  | nil => exact Iff.rfl
  | cons c ids ih =>
    cases ids with
    | nil => exact Iff.rfl
    | cons d ids =>
      have hhead := hprecedes c (by simp) d (by simp)
      have htail := ih (fun id hid => h id (List.mem_cons_of_mem c hid))
        fun e he f hf => hprecedes e (List.mem_cons_of_mem c he) f (List.mem_cons_of_mem c hf)
      exact and_congr hhead htail

end Arena

/-! ## 4. Sound arenas -/

/-- Has the payload a property name that stands after its dots? It is then an element of an object
pattern, and its fields are not in the order of the source. -/
def Payload.spreadsProperty : Payload → Bool
  | .variableLike v => v.dots.isSome && v.propertyName.isSome
  | _ => false

/-- The node lies in a text of the given size. -/
structure Node.InText (n : Node) (size : Nat) : Prop where
  pos_le_stop : n.pos ≤ n.stop
  stop_le : n.stop ≤ size

theorem Node.InText.pos_le {n : Node} {size : Nat} (h : n.InText size) : n.pos ≤ size :=
  Nat.le_trans h.pos_le_stop h.stop_le

namespace Arena

variable {a b : Arena}

/-- The node fits into the arena at the given place. -/
structure Fits (a : Arena) (id : NodeId) (n : Node) : Prop where
  pos_le_stop : n.pos ≤ n.stop
  older : ∀ c ∈ n.children, c.index < id.index
  distinct : n.children.Nodup
  inside : ∀ p ∈ n.parts, a.SpansParts n.pos [p] n.stop
  inOrder_iff : a.InOrder n.children ↔ n.payload.spreadsProperty = false

/-- No node has the node for a child. -/
def Free (a : Arena) (c : NodeId) : Prop := ∀ id n, a.get? id = some n → c ∉ n.children

/-- Every node fits, and none is a child of two. -/
structure Sound (a : Arena) : Prop where
  fits : ∀ id n, a.get? id = some n → a.Fits id n
  single : ∀ p q np nq c, a.get? p = some np → a.get? q = some nq → c ∈ np.children →
    c ∈ nq.children → p = q

theorem sound_empty : empty.Sound where
  fits id n h := by simp [empty, get?] at h
  single p q np nq c h := by simp [empty, get?] at h

/-- A child of a node that fits is a node of the arena, inside its parent. -/
theorem Fits.get?_child {id c : NodeId} {n : Node} (h : a.Fits id n) (hc : c ∈ n.children) :
    ∃ child, a.get? c = some child ∧ n.pos ≤ child.pos ∧ child.pos ≤ child.stop
      ∧ child.stop ≤ n.stop := by
  obtain ⟨p, hp, hcp⟩ := List.mem_flatMap.mp hc
  have hspan := (h.inside p hp).children
  exact hspan.get?_of_mem (by simpa [childrenOf] using hcp)

/-- A child of a node in the text is in the text. -/
theorem Fits.exists_child {id c : NodeId} {n : Node} {size : Nat} (h : a.Fits id n)
    (hn : n.InText size) (hc : c ∈ n.children) :
    ∃ child, a.get? c = some child ∧ child.InText size := by
  obtain ⟨child, hchild, -, hle, hstop⟩ := h.get?_child hc
  exact ⟨child, hchild, hle, Nat.le_trans hstop hn.stop_le⟩

theorem Fits.grows {id : NodeId} {n : Node} (h : a.Fits id n) (hab : a.Grows b) :
    b.Fits id n where
  pos_le_stop := h.pos_le_stop
  older := h.older
  distinct := h.distinct
  inside p hp := (h.inside p hp).grows hab
  inOrder_iff := by
    rw [hab.inOrder_iff, h.inOrder_iff]
    intro c hc
    obtain ⟨child, hchild, -⟩ := h.get?_child hc
    exact lt_size_of_get? hchild

/-- A node may be added whose children are nobody else's. -/
theorem Sound.push (h : a.Sound) {n : Node} (hn : (a.push n).Fits ⟨a.size⟩ n)
    (hfree : ∀ c ∈ n.children, a.Free c) : (a.push n).Sound where
  fits id m hm := by
    rcases get?_push_cases hm with hold | ⟨rfl, rfl⟩
    · exact (h.fits id m hold).grows (grows_push a n)
    · exact hn
  single p q np nq c hp hq hcp hcq := by
    rcases get?_push_cases hp with hp' | ⟨rfl, hnp⟩ <;>
      rcases get?_push_cases hq with hq' | ⟨rfl, hnq⟩
    · exact h.single p q np nq c hp' hq' hcp hcq
    · exact absurd hcp (hfree c (hnq ▸ hcq) p np hp')
    · exact absurd hcq (hfree c (hnp ▸ hcp) q nq hq')
    · rfl

/-- A new node is nobody's child. -/
theorem Sound.free_push (h : a.Sound) {n : Node} (hn : (a.push n).Fits ⟨a.size⟩ n) :
    (a.push n).Free ⟨a.size⟩ := by
  intro id m hm hmem
  rcases get?_push_cases hm with hold | ⟨-, rfl⟩
  · obtain ⟨child, hchild, -⟩ := (h.fits id m hold).get?_child hmem
    exact absurd (lt_size_of_get? hchild) (Nat.lt_irrefl _)
  · exact absurd (hn.older _ hmem) (Nat.lt_irrefl _)

/-- What a new node does not take stays free. -/
theorem Free.push {c : NodeId} (h : a.Free c) {n : Node} (hn : c ∉ n.children) : (a.push n).Free c := by
  intro id m hm
  rcases get?_push_cases hm with hold | ⟨-, rfl⟩
  · exact h id m hold
  · exact hn

/-- The parts of a new node make it fit, if they lie one after the other. -/
theorem fits_of_spansParts {n : Node} {ps : List Part} (hparts : n.parts = ps)
    (hspan : a.SpansParts n.pos ps n.stop) (hdistinct : (childrenOf ps).Nodup)
    (hspreads : n.payload.spreadsProperty = false) : (a.push n).Fits ⟨a.size⟩ n := by
  subst hparts
  have hgrown := hspan.grows (grows_push a n)
  refine ⟨hspan.le, fun c hc => ?_, hdistinct, fun p hp => hgrown.of_mem hp, ?_⟩
  · obtain ⟨child, hchild, -⟩ := hspan.children.get?_of_mem hc
    exact lt_size_of_get? hchild
  · simp [hspreads, Node.children_eq, hgrown.children.inOrder]

/-! ## 5. Marks of errors -/

/-- The node, or a node below it, carries the mark of an error. -/
inductive Marked (a : Arena) : NodeId → Prop where
  | self {id : NodeId} : a.hasError id = true → Marked a id
  | child {id c : NodeId} {n : Node} : a.get? id = some n → c ∈ n.children → Marked a c →
    Marked a id

theorem get?_of_hasError {id : NodeId} (h : a.hasError id = true) :
    ∃ n, a.get? id = some n ∧ n.flags.hasError = true := by
  simpa [hasError, Option.any_eq_true] using h

theorem hasError_of_get? {id : NodeId} {n : Node} (h : a.get? id = some n)
    (herror : n.flags.hasError = true) : a.hasError id = true := by
  simp [hasError, h, herror]

theorem Grows.hasError (hab : a.Grows b) {id : NodeId} (h : a.hasError id = true) :
    b.hasError id = true := by
  obtain ⟨n, hn, herror⟩ := get?_of_hasError h
  exact hasError_of_get? (hab.get? hn) herror

theorem Marked.grows {id : NodeId} (h : a.Marked id) (hab : a.Grows b) : b.Marked id := by
  induction h with
  | self herror => exact .self (hab.hasError herror)
  | child hn hc _ ih => exact .child (hab.get? hn) hc ih

/-- A mark that no tree shows: it is on a mark of optional access that a template follows, which
is read and then left out of the tree. -/
def StrayMark (a : Arena) : Prop :=
  ∃ id n, a.get? id = some n ∧ n.kind = .punct .questionDot ∧ n.flags.hasError = true

theorem StrayMark.grows (h : a.StrayMark) (hab : a.Grows b) : b.StrayMark := by
  obtain ⟨id, n, hn, hkind⟩ := h
  exact ⟨id, n, hab.get? hn, hkind⟩

end Arena

/-! ## 6. Nodes that are left out -/

/-- The name of a tag is a name, `this`, or an access to a member. -/
def Kind.isTagName (k : Kind) : Bool :=
  k == .identifier || k == .keyword .thisKw || k == .node .propertyAccessExpression

namespace Arena

variable {a b : Arena}

/-- The second node was read as a part of the first and then left out of it: the mark of optional
access before a template, or a name in the tag that closes a fragment. The tag is then marked. -/
inductive LeftOut (a : Arena) (whole id : NodeId) : Prop where
  | accessMark {n m : Node} : a.get? id = some n → n.kind = .punct .questionDot → n.parts = [] →
    a.get? whole = some m → m.kind = .node .taggedTemplateExpression → m.pos ≤ n.pos →
    n.stop ≤ m.stop → LeftOut a whole id
  | closingName {n m : Node} : a.get? id = some n → n.kind.isTagName = true →
    a.get? whole = some m → m.kind = .node .jsxClosingFragment → m.flags.hasError = true →
    m.pos ≤ n.pos → n.stop ≤ m.stop → LeftOut a whole id

theorem LeftOut.grows {whole id : NodeId} (h : a.LeftOut whole id) (hab : a.Grows b) :
    b.LeftOut whole id := by
  cases h with
  | accessMark hn hkind hparts hm hwhole hpos hstop =>
    exact .accessMark (hab.get? hn) hkind hparts (hab.get? hm) hwhole hpos hstop
  | closingName hn hkind hm hwhole herror hpos hstop =>
    exact .closingName (hab.get? hn) hkind (hab.get? hm) hwhole herror hpos hstop

/-- What is left out of a node leaves its mark on that node, or is a mark of optional access that
carries it. -/
theorem LeftOut.hasError_or_strayMark {whole id : NodeId} (h : a.LeftOut whole id)
    (hmarked : a.Marked id) : a.hasError whole = true ∨ a.StrayMark := by
  cases h with
  | closingName _ _ hm _ herror => exact .inl (hasError_of_get? hm herror)
  | accessMark hn hkind hparts =>
    refine .inr ?_
    cases hmarked with
    | self herror =>
      obtain ⟨n, hn', hmark⟩ := get?_of_hasError herror
      cases hn.symm.trans hn'
      exact ⟨id, _, hn, hkind, hmark⟩
    | child hn' hchild _ =>
      cases hn.symm.trans hn'
      rw [Node.children_eq, hparts] at hchild
      cases hchild

end Arena

end ScriptSyntax
