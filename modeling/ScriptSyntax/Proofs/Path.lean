/-
  ScriptSyntax/Proofs/Path.lean
  =============================
  Normal forms of paths.

  Taking back a segment may bring one to the front of a relative path that looks
  like a drive.  The next reading then takes it for the root, so the path is split
  at another place.  Both ways of splitting it write the same text, and nothing is
  left to take back in either.
-/
import ScriptSyntax.Path

namespace ScriptSyntax

variable {rooted : Bool} {segment : List Char} {kept : List (List Char)} {path : String}

/-! ## 1. Paths in normal form -/

/-- What a path starts from: nothing, a slash, or a drive and a slash. -/
inductive IsPathRoot : List Char → Prop where
  | relative : IsPathRoot []
  | slash : IsPathRoot ['/']
  | drive {c : Char} (h : c.isAlpha = true) : IsPathRoot [c, ':', '/']

theorem IsPathRoot.backslash_notMem {root : List Char} (h : IsPathRoot root) : '\\' ∉ root := by
  cases h with
  | relative => simp
  | slash => simp
  | @drive c halpha =>
    have hc : '\\' ≠ c := by
      rintro rfl
      cases halpha
    simp [hc]

/-- What may stand between slashes: it says something, and does not climb. -/
structure IsPathName (segment : List Char) : Prop where
  ne_nil : segment ≠ []
  ne_dot : segment ≠ ['.']
  ne_dots : segment ≠ ['.', '.']
  slash_notMem : '/' ∉ segment
  backslash_notMem : '\\' ∉ segment

/-- The segments of a path that climbs first, and only where it is relative, and goes down by names
then. -/
def climbing (climbs : Nat) (names : List (List Char)) : List (List Char) :=
  List.replicate climbs ['.', '.'] ++ names

/-- A path in normal form, taken apart. A slash at the end has a segment before it. -/
structure NormalPath where
  root : List Char
  climbs : Nat
  names : List (List Char)
  closed : Bool
  isRoot : IsPathRoot root
  climbs_eq : root ≠ [] → climbs = 0
  isName : ∀ name ∈ names, IsPathName name
  closes : closed = true → climbing climbs names ≠ []

namespace NormalPath

def segments (p : NormalPath) : List (List Char) := climbing p.climbs p.names

/-- What is written behind the root. -/
def inside (p : NormalPath) : List Char :=
  ['/'].intercalate p.segments ++ if p.closed then ['/'] else []

def chars (p : NormalPath) : List Char := p.root ++ p.inside

def text (p : NormalPath) : String := String.ofList p.chars

end NormalPath

/-! ## 2. Segments -/

theorem splitSlashes_eq (cs : List Char) : splitSlashes cs = cs.splitOn '/' := by
  induction cs with
  | nil => rfl
  | cons c cs ih =>
    rw [List.splitOn_cons_eq_if_modifyHead]
    by_cases hc : c = '/'
    · subst hc
      rw [splitSlashes, ih]
      rfl
    · rw [if_neg (by simpa using hc), splitSlashes.eq_3 c cs hc, ih]
      cases hpieces : cs.splitOn '/' with
      | nil => exact absurd hpieces (List.splitOn_ne_nil _ _)
      | cons piece pieces => rfl

/-- A segment is a part of the text without a slash. -/
theorem mem_splitSlashes {cs : List Char} (h : segment ∈ splitSlashes cs) :
    '/' ∉ segment ∧ segment ⊆ cs := by
  induction cs generalizing segment with
  | nil =>
    obtain rfl : segment = [] := List.mem_singleton.mp h
    simp
  | cons c cs ih =>
    rw [splitSlashes_eq, List.splitOn_cons_eq_if_modifyHead, ← splitSlashes_eq] at h
    split at h
    · rcases List.mem_cons.mp h with rfl | h
      · simp
      · exact ⟨(ih h).1, List.subset_cons_of_subset c (ih h).2⟩
    · rename_i hc
      have hc : c ≠ '/' := by simpa using hc
      cases hpieces : splitSlashes cs with
      | nil => simp [hpieces] at h
      | cons piece pieces =>
        rw [hpieces] at h ih
        rcases List.mem_cons.mp h with rfl | h
        · obtain ⟨hslash, hsub⟩ := ih List.mem_cons_self
          exact ⟨by simp [hc.symm, hslash], List.cons_subset_cons c hsub⟩
        · obtain ⟨hslash, hsub⟩ := ih (List.mem_cons_of_mem piece h)
          exact ⟨hslash, List.subset_cons_of_subset c hsub⟩

/-! ## 3. What is kept -/

/-- What is kept of the segments so far, the last first: names, and before them the steps above the
start, of which there are none at a root. -/
inductive Kept (rooted : Bool) : List (List Char) → Prop where
  | up (climbs : Nat) (h : rooted = true → climbs = 0) : Kept rooted (List.replicate climbs ['.', '.'])
  | down {name : List Char} {kept : List (List Char)} (h : Kept rooted kept) (hname : IsPathName name) :
    Kept rooted (name :: kept)

theorem Kept.push (h : Kept rooted kept) (hslash : '/' ∉ segment) (hbackslash : '\\' ∉ segment) :
    Kept rooted (pushSegment rooted kept segment) := by
  unfold pushSegment
  split
  · exact h
  · rename_i hplain
    simp only [Bool.or_eq_true, beq_iff_eq, not_or] at hplain
    split
    · rename_i hdots
      obtain rfl : segment = ['.', '.'] := by simpa using hdots
      cases h with
      | up climbs hroot =>
        cases rooted with
        | true =>
          obtain rfl : climbs = 0 := hroot rfl
          exact .up 0 fun _ => rfl
        | false =>
          cases climbs with
          | zero => exact .up 1 nofun
          | succ climbs => exact .up (climbs + 2) nofun
      | down h hname =>
        simpa [hname.ne_dots] using h
    · rename_i hdots
      exact .down h ⟨hplain.1, hplain.2, by simpa using hdots, hslash, hbackslash⟩

theorem Kept.foldl {segments : List (List Char)} (h : Kept rooted kept)
    (hsegments : ∀ segment ∈ segments, '/' ∉ segment ∧ '\\' ∉ segment) :
    Kept rooted (segments.foldl (pushSegment rooted) kept) := by
  induction segments generalizing kept with
  | nil => exact h
  | cons segment segments ih =>
    obtain ⟨hfirst, hrest⟩ := List.forall_mem_cons.mp hsegments
    exact ih (h.push hfirst.1 hfirst.2) hrest

theorem Kept.reverse_eq (h : Kept rooted kept) : ∃ climbs names,
    kept.reverse = climbing climbs names ∧ (rooted = true → climbs = 0)
      ∧ ∀ name ∈ names, IsPathName name := by
  induction h with
  | up climbs h => exact ⟨climbs, [], by simp [climbing], h, nofun⟩
  | @down name kept _ hname ih =>
    obtain ⟨climbs, names, hreverse, hroot, hnames⟩ := ih
    refine ⟨climbs, names ++ [name], by simp [hreverse, climbing], hroot, ?_⟩
    exact List.forall_mem_append.mpr ⟨hnames, List.forall_mem_singleton.mpr hname⟩

/-- Names are kept as they are. -/
theorem foldl_pushSegment_names {names : List (List Char)} (h : ∀ name ∈ names, IsPathName name) :
    names.foldl (pushSegment rooted) kept = names.reverse ++ kept := by
  induction names generalizing kept with
  | nil => rfl
  | cons name names ih =>
    obtain ⟨hname, hnames⟩ := List.forall_mem_cons.mp h
    have hpush : pushSegment rooted kept name = name :: kept := by
      simp [pushSegment, hname.ne_nil, hname.ne_dot, hname.ne_dots]
    rw [List.foldl_cons, hpush, ih hnames]
    simp

/-- Steps above the start of a relative path are kept as they are. -/
theorem foldl_pushSegment_climbs (climbs more : Nat) :
    (List.replicate climbs ['.', '.']).foldl (pushSegment false) (List.replicate more ['.', '.'])
      = List.replicate (climbs + more) ['.', '.'] := by
  induction climbs generalizing more with
  | zero => simp
  | succ climbs ih =>
    have hpush : pushSegment false (List.replicate more ['.', '.']) ['.', '.']
        = List.replicate (more + 1) ['.', '.'] := by
      cases more <;> rfl
    rw [List.replicate_succ, List.foldl_cons, hpush, ih]
    congr 1
    omega

/-- Segments in normal form are kept as they are. -/
theorem foldl_pushSegment_climbing {climbs : Nat} {names : List (List Char)}
    (hroot : rooted = true → climbs = 0) (h : ∀ name ∈ names, IsPathName name) :
    ((climbing climbs names).foldl (pushSegment rooted) []).reverse = climbing climbs names := by
  have hclimbs : (List.replicate climbs ['.', '.']).foldl (pushSegment rooted) []
      = List.replicate climbs ['.', '.'] := by
    cases rooted with
    | true =>
      obtain rfl : climbs = 0 := hroot rfl
      rfl
    | false => exact foldl_pushSegment_climbs climbs 0
  rw [climbing, List.foldl_append, hclimbs, foldl_pushSegment_names h]
  simp

/-! ## 4. What is written -/

/-- A slash at the end has an empty segment behind it. -/
theorem intercalate_append_nil {segments : List (List Char)} (h : segments ≠ []) :
    ['/'].intercalate (segments ++ [[]]) = ['/'].intercalate segments ++ ['/'] := by
  induction segments with
  | nil => exact absurd rfl h
  | cons segment segments ih =>
    cases segments with
    | nil => simp
    | cons next segments =>
      have ih := ih (List.cons_ne_nil _ _)
      simp only [List.cons_append, List.intercalate_cons_cons] at ih ⊢
      rw [ih]
      simp

theorem mem_intercalate {segments : List (List Char)} {c : Char} (h : c ∈ ['/'].intercalate segments) :
    c = '/' ∨ ∃ segment ∈ segments, c ∈ segment := by
  induction segments with
  | nil => cases h
  | cons segment segments ih =>
    cases segments with
    | nil => exact .inr ⟨segment, List.mem_cons_self, by simpa using h⟩
    | cons next segments =>
      rw [List.intercalate_cons_cons, List.mem_append, List.mem_append, List.mem_singleton] at h
      rcases h with (h | h) | h
      · exact .inr ⟨segment, List.mem_cons_self, h⟩
      · exact .inl h
      · exact (ih h).imp_right fun ⟨part, hpart, hc⟩ => ⟨part, List.mem_cons_of_mem segment hpart, hc⟩

namespace NormalPath

variable (p : NormalPath)

theorem segment_of_mem {p : NormalPath} (h : segment ∈ p.segments) :
    segment = ['.', '.'] ∨ IsPathName segment :=
  (List.mem_append.mp h).imp List.eq_of_mem_replicate (p.isName segment)

theorem segment_ne_nil {p : NormalPath} (h : segment ∈ p.segments) : segment ≠ [] := by
  rcases segment_of_mem h with rfl | h
  · simp
  · exact h.ne_nil

theorem slash_notMem {p : NormalPath} (h : segment ∈ p.segments) : '/' ∉ segment := by
  rcases segment_of_mem h with rfl | h
  · decide
  · exact h.slash_notMem

theorem backslash_notMem_chars : '\\' ∉ p.chars := by
  intro hmem
  rcases List.mem_append.mp hmem with hroot | hinside
  · exact p.isRoot.backslash_notMem hroot
  · rcases List.mem_append.mp hinside with hjoined | hclosing
    · rcases mem_intercalate hjoined with hc | ⟨segment, hsegment, hc⟩
      · cases hc
      · rcases segment_of_mem hsegment with rfl | hname
        · simp at hc
        · exact hname.backslash_notMem hc
    · split at hclosing <;> simp at hclosing

theorem closed_eq_false {p : NormalPath} (h : p.segments = []) : p.closed = false := by
  simpa using mt p.closes (not_not_intro h)

theorem inside_eq_nil {p : NormalPath} (h : p.segments = []) : p.inside = [] := by
  simp [inside, h, closed_eq_false h]

theorem inside_eq {p : NormalPath} (h : p.segments ≠ []) :
    p.inside = ['/'].intercalate (p.segments ++ if p.closed then [[]] else []) := by
  unfold inside
  split
  · exact (intercalate_append_nil h).symm
  · simp

theorem splitSlashes_inside {p : NormalPath} (h : p.segments ≠ []) :
    splitSlashes p.inside = p.segments ++ if p.closed then [[]] else [] := by
  rw [splitSlashes_eq, inside_eq h, List.splitOn_intercalate '/' ?_ (by simp [h])]
  intro segment hmem
  rcases List.mem_append.mp hmem with hmem | hmem
  · exact slash_notMem hmem
  · split at hmem <;> simp_all

/-- No segment is empty, so there is no slash at the start. -/
theorem inside_ne_slash {p : NormalPath} (rest : List Char) : p.inside ≠ '/' :: rest := by
  intro hinside
  cases hfirst : p.segments with
  | nil => simp [inside_eq_nil hfirst] at hinside
  | cons first more =>
    have hsplit := splitSlashes_inside (p := p) (by simp [hfirst])
    rw [hinside, hfirst, splitSlashes, List.cons_append] at hsplit
    have hempty : first = [] := (List.cons.inj hsplit).1.symm
    exact segment_ne_nil (p := p) (hfirst ▸ List.mem_cons_self) hempty

/-- There is a slash at the end only where it is said so. -/
theorem getLast?_inside : (p.inside.getLast? == some '/') = p.closed := by
  cases hclosed : p.closed with
  | true => simp [inside, hclosed]
  | false =>
    refine beq_eq_false_iff_ne.mpr fun hlast => ?_
    obtain ⟨cs, hcs⟩ := List.getLast?_eq_some_iff.mp hlast
    have hne : p.segments ≠ [] := fun hnil => by simp [inside_eq_nil hnil] at hcs
    have hsplit := splitSlashes_inside hne
    rw [hcs, splitSlashes_eq, List.splitOn_append_cons_self, hclosed] at hsplit
    have hmem : [] ∈ p.segments := by
      rw [show p.segments = _ from (List.append_nil _).symm.trans hsplit.symm]
      simp
    exact segment_ne_nil hmem rfl

/-- Nothing is taken back of what is in normal form. -/
theorem foldl_inside (hroot : rooted = true → p.climbs = 0) :
    ((splitSlashes p.inside).foldl (pushSegment rooted) []).reverse = p.segments := by
  by_cases hne : p.segments = []
  · rw [inside_eq_nil hne, hne]
    rfl
  · have hkept : ((p.segments).foldl (pushSegment rooted) []).reverse = p.segments :=
      foldl_pushSegment_climbing hroot p.isName
    rw [splitSlashes_inside hne, List.foldl_append]
    split
    · exact hkept
    · exact hkept

end NormalPath

/-! ## 5. Roots -/

theorem exists_root (cs : List Char) :
    ∃ root rest, cs = root ++ rest ∧ IsPathRoot root ∧ rootLength cs = root.length := by
  unfold rootLength
  split
  · exact ⟨['/'], _, rfl, .slash, rfl⟩
  · rename_i c rest _
    split
    · rename_i halpha
      exact ⟨[c, ':', '/'], rest, rfl, .drive halpha, rfl⟩
    · exact ⟨[], _, rfl, .relative, rfl⟩
  · exact ⟨[], _, rfl, .relative, rfl⟩

theorem rootLength_drive {c : Char} (h : c.isAlpha = true) (rest : List Char) :
    rootLength (c :: ':' :: '/' :: rest) = 3 := by
  have hc : c ≠ '/' := by
    rintro rfl
    cases h
  rw [rootLength.eq_2 c rest (by simp [hc]), if_pos h]

/-! ## 6. Normal forms -/

theorem backslash_notMem_normalizeSlashes (path : String) : '\\' ∉ (normalizeSlashes path).toList := by
  rw [normalizeSlashes, String.toList_ofList, List.mem_map]
  rintro ⟨c, -, hc⟩
  split at hc
  · cases hc
  · simp_all

theorem normalizeSlashes_of_notMem (h : '\\' ∉ path.toList) : normalizeSlashes path = path := by
  have hmap : path.toList.map (fun c => if c == '\\' then '/' else c) = path.toList := by
    refine (List.map_congr_left fun c hc => ?_).trans (List.map_id _)
    have hne : c ≠ '\\' := fun heq => h (heq ▸ hc)
    simp [hne]
  rw [normalizeSlashes, hmap, String.ofList_toList]

/-- What a path comes to whose root is known. -/
theorem normalizePath_of_root {root rest : List Char}
    (hchars : (normalizeSlashes path).toList = root ++ rest)
    (hroot : rootLength (root ++ rest) = root.length)
    (hkept : ((splitSlashes rest).foldl (pushSegment !root.isEmpty) []).reverse = kept) :
    normalizePath path = String.ofList (root ++ (['/'].intercalate kept
      ++ if rest.getLast? == some '/' && !kept.isEmpty then ['/'] else [])) := by
  subst hkept
  unfold normalizePath
  simp only [hchars, hroot, List.take_left, List.drop_left]
  rw [List.append_assoc]

/-- A path comes to one in normal form. -/
theorem exists_normalPath (path : String) : ∃ p : NormalPath, normalizePath path = p.text := by
  obtain ⟨root, rest, hchars, hroot, hlength⟩ := exists_root (normalizeSlashes path).toList
  have hbackslash : '\\' ∉ rest := fun hmem =>
    backslash_notMem_normalizeSlashes path (hchars ▸ List.mem_append_right root hmem)
  have hkept : Kept (!root.isEmpty) ((splitSlashes rest).foldl (pushSegment !root.isEmpty) []) := by
    refine Kept.foldl (.up 0 fun _ => rfl) fun segment hsegment => ?_
    obtain ⟨hslash, hpart⟩ := mem_splitSlashes hsegment
    exact ⟨hslash, fun hmem => hbackslash (hpart hmem)⟩
  obtain ⟨climbs, names, hreverse, hclimbs, hnames⟩ := hkept.reverse_eq
  let p : NormalPath := {
    root, climbs, names
    closed := rest.getLast? == some '/' && !(climbing climbs names).isEmpty
    isRoot := hroot
    climbs_eq := fun hne => hclimbs (by simpa using hne)
    isName := hnames
    closes := by simp }
  exact ⟨p, normalizePath_of_root hchars (hchars ▸ hlength) hreverse⟩

/-- A relative path in normal form that looks like one with a drive is one with a drive. -/
theorem NormalPath.exists_drive {p : NormalPath} {c : Char} {rest : List Char} (halpha : c.isAlpha = true)
    (hinside : p.inside = c :: ':' :: '/' :: rest) :
    ∃ q : NormalPath, q.root = [c, ':', '/'] ∧ q.inside = rest := by
  have hne : p.segments ≠ [] := fun hnil => by simp [inside_eq_nil hnil] at hinside
  have hsplit : [c, ':'] :: splitSlashes rest = p.segments ++ if p.closed then [[]] else [] := by
    have hcolon : '/' ∉ [c, ':'] := by
      have hc : '/' ≠ c := by
        rintro rfl
        cases halpha
      simp [hc]
    rw [← splitSlashes_inside hne, hinside, splitSlashes_eq, splitSlashes_eq]
    exact (List.splitOn_append_cons_self_of_not_mem hcolon rest).symm
  -- the first segment is no step up, so all segments are names
  obtain ⟨names, hsegments, hnames⟩ : ∃ names, p.segments = [c, ':'] :: names
      ∧ ∀ name ∈ names, IsPathName name := by
    cases hfirst : p.segments with
    | nil => exact absurd hfirst hne
    | cons first names =>
      rw [hfirst, List.cons_append] at hsplit
      obtain ⟨rfl, -⟩ := List.cons.inj hsplit
      refine ⟨names, rfl, fun name hname => ?_⟩
      cases hclimbs : p.climbs with
      | zero =>
        have hall : p.names = [c, ':'] :: names := by simpa [segments, climbing, hclimbs] using hfirst
        exact p.isName name (hall ▸ List.mem_cons_of_mem _ hname)
      | succ climbs => simp [segments, climbing, hclimbs, List.replicate_succ] at hfirst
  rw [hsegments, List.cons_append] at hsplit
  have hrest : rest = ['/'].intercalate (names ++ if p.closed then [[]] else []) := by
    rw [← (List.cons.inj hsplit).2, splitSlashes_eq, List.intercalate_splitOn]
  let q : NormalPath := {
    root := [c, ':', '/'], climbs := 0, names, closed := p.closed && !names.isEmpty
    isRoot := .drive halpha
    climbs_eq := fun _ => rfl
    isName := hnames
    closes := by simp [climbing] }
  refine ⟨q, rfl, ?_⟩
  by_cases hnone : names = []
  · have hinside : q.inside = [] := inside_eq_nil (p := q) hnone
    rw [hinside, hrest, hnone]
    split <;> rfl
  · have hclosed : q.closed = p.closed := by simp [q, hnone]
    rw [inside_eq (p := q) hnone, hrest, hclosed]
    rfl

/-- A path in normal form may be taken apart at the root with which it is read. -/
theorem NormalPath.exists_read (p : NormalPath) :
    ∃ q : NormalPath, q.chars = p.chars ∧ rootLength q.chars = q.root.length := by
  have hisRoot := p.isRoot
  generalize hroot : p.root = root at hisRoot
  cases hisRoot with
  | slash => exact ⟨p, rfl, by simp [chars, hroot, rootLength]⟩
  | drive halpha => exact ⟨p, rfl, by simp [chars, hroot, rootLength_drive halpha]⟩
  | relative =>
    have hchars : p.chars = p.inside := by simp [chars, hroot]
    obtain ⟨read, rest, hinside, hisRead, hlength⟩ := exists_root p.inside
    cases hisRead with
    | relative => exact ⟨p, rfl, by rw [hchars, hlength, hroot]⟩
    | slash => exact absurd hinside (inside_ne_slash rest)
    | drive halpha =>
      obtain ⟨q, hq, hrest⟩ := exists_drive halpha hinside
      have hsame : q.chars = p.chars := by
        rw [chars, hq, hrest, hchars, hinside]
        rfl
      exact ⟨q, hsame, by rw [hsame, hchars, hlength, hq]⟩

/-- A path in normal form is left as it is. -/
theorem normalizePath_text (p : NormalPath) : normalizePath p.text = p.text := by
  obtain ⟨q, hsame, hlength⟩ := p.exists_read
  have hslashes : (normalizeSlashes p.text).toList = q.root ++ q.inside := by
    have hbackslash : '\\' ∉ p.text.toList := by
      rw [NormalPath.text, String.toList_ofList]
      exact p.backslash_notMem_chars
    rw [normalizeSlashes_of_notMem hbackslash, NormalPath.text, String.toList_ofList]
    exact hsame.symm
  have hroot : (!q.root.isEmpty) = true → q.climbs = 0 := fun hne => q.climbs_eq (by simpa using hne)
  have hclosed : (q.closed && !q.segments.isEmpty) = q.closed := by
    cases hnone : q.segments with
    | nil => simp [NormalPath.closed_eq_false hnone]
    | cons segment segments => simp
  rw [normalizePath_of_root hslashes hlength (q.foldl_inside hroot), q.getLast?_inside, hclosed]
  show String.ofList q.chars = _
  rw [hsame]
  rfl

/-- What a path comes to is in normal form, and what is in normal form comes to itself, and nothing
else does. -/
theorem normalizePath_normal (path : String) :
    normalizePath (normalizePath path) = normalizePath path
      ∧ '\\' ∉ (normalizePath path).toList
      ∧ (∃ p : NormalPath, normalizePath path = p.text)
      ∧ (normalizePath path = path ↔ ∃ p : NormalPath, path = p.text) := by
  obtain ⟨p, hp⟩ := exists_normalPath path
  refine ⟨?_, ?_, ⟨p, hp⟩, fun hsame => ⟨p, hsame.symm.trans hp⟩, ?_⟩
  · rw [hp, normalizePath_text]
  · rw [hp, NormalPath.text, String.toList_ofList]
    exact p.backslash_notMem_chars
  · rintro ⟨q, rfl⟩
    exact normalizePath_text q

/-- A segment that is brought to the front may be read as a drive. -/
example : normalizePath "a/../c:/x" = "c:/x" ∧ normalizePath "c:/x/.." = "c:/" := by decide

end ScriptSyntax
