/-
  ScriptSyntax/Proofs/Token/LongestMatch.lean
  ===========================================
  Punctuation is read by longest match.

  How each punctuator is written stands in a table.  The scanner does not look into it: it tells
  punctuators apart by up to three characters, branch by branch.  Here the two are shown to agree
  on every text, and so are the table and the branches that put a `>` together with the characters
  after it.
-/
import ScriptSyntax.Proofs.Token.Punctuation
import ScriptSyntax.Proofs.Token.Spelling

namespace ScriptSyntax

variable {text : Array Char} {pos : Nat} {c : Char} {cs : List Char} {c₁ c₂ : Option Char}
  {p q : Punctuator}

/-! ## 1. Punctuators that stand in a text -/

/-- The punctuator is written in the text from the position on. -/
def Punctuator.StandsAt (p : Punctuator) (text : Array Char) (pos : Nat) : Prop :=
  p.text.toList <+: text.toList.drop pos

/-- Of the punctuators allowed that stand at the position, this one is the longest. -/
structure IsLongest (text : Array Char) (pos : Nat) (allowed : Punctuator → Prop) (p : Punctuator) :
    Prop where
  isAllowed : allowed p
  standsAt : p.StandsAt text pos
  longest : ∀ q, allowed q → q.StandsAt text pos → q.text.length ≤ p.text.length

def Punctuator.startsGreater (p : Punctuator) : Bool := p.text.toList.head? == some '>'

/-- Is the punctuator left to be put together by the grammar? Such are all that start with a `>`, but
for that mark alone, and the mark that opens a closing tag. -/
def Punctuator.isPutTogether (p : Punctuator) : Bool :=
  (p.startsGreater && p != .greaterThan) || p == .lessThanSlash

/-- Is the punctuator read at once where it stands at the position? The mark of optional access is not,
where a digit follows. -/
def ReadAtOnce (text : Array Char) (pos : Nat) (p : Punctuator) : Prop :=
  p.isPutTogether = false ∧ (p = .questionDot → text[pos + 2]?.any isDigit = false)

theorem Punctuator.StandsAt.slice_eq (h : p.StandsAt text pos) :
    sliceOf text pos (pos + p.text.length) = p.text := by
  obtain ⟨rest, hrest⟩ := h
  have hat : TextAt text pos (p.text.toList ++ rest) := hrest.symm
  have hslice := hat.slice
  rwa [String.length_toList, String.ofList_toList] at hslice

/-! ## 2. Branches and table -/

/-- The characters that lead to a punctuator are those that it is written with. -/
theorem standsBefore_of_punctuatorOf? (h : punctuatorOf? c cs[0]? cs[1]? = some p) :
    p.text.toList <+: c :: cs := by
  obtain hone | ⟨d, hd, htwo⟩ | ⟨d, e, hd, he, hthree⟩ := chars_of_punctuatorOf? h
  · rw [hone]
    exact ⟨cs, rfl⟩
  · obtain ⟨rest, rfl⟩ : ∃ rest, cs = d :: rest := by
      cases cs with
      | nil => cases hd
      | cons d' rest => exact ⟨rest, by simpa using hd⟩
    rw [htwo]
    exact ⟨rest, rfl⟩
  · obtain ⟨rest, rfl⟩ : ∃ rest, cs = d :: e :: rest := by
      match cs with
      | [] => cases hd
      | [_] => cases he
      | d' :: e' :: rest => exact ⟨rest, by simpa using And.intro hd he⟩
    rw [hthree]
    exact ⟨rest, rfl⟩

theorem isPutTogether_of_punctuatorOf? (h : punctuatorOf? c c₁ c₂ = some p) :
    p.isPutTogether = false := by
  unfold punctuatorOf? at h
  split at h <;> (repeat' split at h) <;> cases h <;> rfl

theorem isDigit_of_punctuatorOf? (h : punctuatorOf? c c₁ c₂ = some p) (hp : p = .questionDot) :
    c₂.any isDigit = false := by
  subst hp
  unfold punctuatorOf? at h
  split at h <;> (repeat' split at h) <;> simp_all

/-- No punctuator is missed that is written with the same characters and more. The cases are the rows
of the table: each of them fixes the characters that the branches look at. -/
theorem length_le_of_punctuatorOf? (h : punctuatorOf? c cs[0]? cs[1]? = some p)
    (hq : q.text.toList <+: c :: cs) (hsingle : q.isPutTogether = false)
    (hdigit : q = .questionDot → cs[1]?.any isDigit = false) : q.text.length ≤ p.text.length := by
  have hpos : 1 ≤ p.text.length := (length_of_punctuatorOf? h).1
  obtain ⟨rest, hrest⟩ := hq
  cases q
  case questionDot =>
    simp only [Punctuator.text] at hrest
    obtain ⟨rfl, rfl⟩ := List.cons.inj hrest
    have hno : rest[0]?.any isDigit = false := hdigit rfl
    simp [punctuatorOf?, hno] at h
    cases h
    exact Nat.le_refl 2
  all_goals
    simp [Punctuator.text] at hrest
    obtain ⟨rfl, rfl⟩ := hrest
    first
    | exact hpos
    | exact absurd hsingle (by decide)
    | simp [punctuatorOf?] at h
      (repeat' split at h) <;> cases h <;> decide

/-- What a `>` is put together with is there. -/
theorem standsBefore_greaterThanOf (cs : List Char) :
    (greaterThanOf cs[0]? cs[1]? cs[2]?).text.toList <+: '>' :: cs := by
  unfold greaterThanOf
  match cs with
  | [] => decide
  | [c] => (repeat' split) <;> simp_all [Punctuator.text]
  | [c, d] => (repeat' split) <;> simp_all [Punctuator.text]
  | c :: d :: e :: cs => (repeat' split) <;> simp_all [Punctuator.text]

theorem length_le_greaterThanOf (hq : q.text.toList <+: '>' :: cs) (hgreater : q.startsGreater = true) :
    q.text.length ≤ (greaterThanOf cs[0]? cs[1]? cs[2]?).text.length := by
  obtain ⟨rest, hrest⟩ := hq
  cases q
  all_goals
    first
    | exact absurd hgreater (by decide)
    | simp [Punctuator.text] at hrest
      subst hrest
      simp only [greaterThanOf]
      (repeat' split) <;> first | decide | simp_all

/-! ## 3. Tokens -/

/-- The branches lead to the longest punctuator among those that are read at once. -/
theorem isLongest_of_punctuatorAt? (h : punctuatorAt? text pos = some p) :
    IsLongest text pos (ReadAtOnce text pos) p := by
  obtain ⟨c, hc, hp⟩ := Option.bind_eq_some_iff.mp h
  obtain ⟨cs, hat⟩ : ∃ cs, TextAt text pos (c :: cs) := by
    obtain ⟨hlt, rfl⟩ := Array.getElem?_eq_some_iff.mp hc
    refine ⟨text.toList.drop (pos + 1), ?_⟩
    rw [TextAt, ← Array.getElem_toList, ← List.drop_eq_getElem_cons]
  have hnext : text[pos + 1]? = cs[0]? := hat.getElem? 1
  have hlast : text[pos + 2]? = cs[1]? := hat.getElem? 2
  rw [hnext, hlast] at hp
  constructor
  · constructor
    · exact isPutTogether_of_punctuatorOf? hp
    · rw [hlast]
      exact isDigit_of_punctuatorOf? hp
  · show p.text.toList <+: text.toList.drop pos
    rw [hat]
    exact standsBefore_of_punctuatorOf? hp
  · intro q hq hstands
    have hstands : q.text.toList <+: c :: cs := by
      rw [← hat]
      exact hstands
    refine length_le_of_punctuatorOf? hp hstands hq.1 ?_
    rw [← hlast]
    exact hq.2

/-- A scanned punctuator takes the characters that it is written with. -/
theorem scanAt_of_punct (hkind : (scanAt text pos).1.kind = .punct p) :
    punctuatorAt? text (scanAt text pos).1.start = some p
      ∧ (scanAt text pos).1.stop = (scanAt text pos).1.start + p.text.length := by
  unfold scanAt at hkind ⊢
  dsimp only at hkind ⊢
  split at hkind
  · obtain ⟨hpunct, hlexeme⟩ := lexemeAt_of_punct hkind
    simp only [*, Lexeme.toToken, Punctuator.lexeme, and_self]
  · cases hkind

/-- Put together with the characters after it, a `>` is the longest punctuator that starts with it. -/
theorem rescanGreater_longest {t : Token} (hkind : t.kind = .punct .greaterThan)
    (hstands : Punctuator.greaterThan.StandsAt text t.start) (hstop : t.stop = t.start + 1) :
    ∃ g, (t.rescanGreater text).1.kind = .punct g ∧ (t.rescanGreater text).1.start = t.start
      ∧ (t.rescanGreater text).1.source text = g.text
      ∧ IsLongest text t.start (fun q => q.startsGreater = true) g := by
  obtain ⟨cs, hcs⟩ := hstands
  have hat : TextAt text t.start ('>' :: cs) := hcs.symm
  let g := greaterThanOf cs[0]? cs[1]? cs[2]?
  have hg : greaterThanOf text[t.stop]? text[t.stop + 1]? text[t.stop + 2]? = g := by
    rw [hstop]
    have hnext (i : Nat) : text[t.start + 1 + i]? = cs[i]? := (TextAt.tail hat).getElem? i
    rw [hnext 1, hnext 2]
    exact congrArg (greaterThanOf · cs[1]? cs[2]?) (hnext 0)
  have hpos : 1 ≤ g.text.length := by
    have hhead := head_greaterThanOf cs[0]? cs[1]? cs[2]?
    rw [← String.length_toList]
    exact List.length_pos_of_mem (List.mem_of_mem_head? hhead)
  have hread : (t.rescanGreater text).1 = { t with kind := .punct g, stop := t.start + g.text.length } := by
    unfold Token.rescanGreater
    rw [hg, hkind, hstop]
    have hlength : t.start + 1 + (g.text.length - 1) = t.start + g.text.length := by omega
    simp only [beq_self_eq_true, if_true, hlength]
  have hlongest : IsLongest text t.start (fun q => q.startsGreater = true) g := by
    constructor
    · exact beq_iff_eq.mpr (head_greaterThanOf _ _ _)
    · show g.text.toList <+: text.toList.drop t.start
      rw [hat]
      exact standsBefore_greaterThanOf cs
    · intro q hq hstands
      have hstands : q.text.toList <+: '>' :: cs := by
        rw [← hat]
        exact hstands
      exact length_le_greaterThanOf hstands hq
  rw [hread]
  exact ⟨g, rfl, rfl, hlongest.standsAt.slice_eq, hlongest⟩

/-- Whatever a scanner has done before, a punctuator that it scans next is written as the table has it,
and is the longest one there among those that are read at once. A `>` that is read again is the longest
punctuator that starts with it. -/
theorem Scanner.read_scan_longest (s : Scanner) (p : Punctuator) :
    let next := (s.read .scan).1
    let t := next.token
    t.kind = .punct p →
      t.source s.text = p.text
        ∧ IsLongest s.text t.start (ReadAtOnce s.text t.start) p
        ∧ (p = .greaterThan →
          let u := (next.read .rescanGreater).1.token
          ∃ g, u.kind = .punct g ∧ u.start = t.start ∧ u.source s.text = g.text
            ∧ IsLongest s.text t.start (fun q => q.startsGreater = true) g) := by
  intro next t hkind
  have ht : t = (scanAt s.text s.token.stop).1 := s.token_read .scan
  have hscan := hkind
  rw [ht] at hscan
  obtain ⟨hpunct, hstop⟩ := scanAt_of_punct hscan
  rw [← ht] at hpunct hstop
  have hlongest := isLongest_of_punctuatorAt? hpunct
  refine ⟨?_, hlongest, ?_⟩
  · rw [Token.source, hstop]
    exact hlongest.standsAt.slice_eq
  · intro hgreater u
    subst hgreater
    have hu : u = (t.rescanGreater s.text).1 := by
      have hread : u = (t.rescanGreater next.text).1 := next.token_read .rescanGreater
      rwa [s.text_read .scan] at hread
    rw [hu]
    exact rescanGreater_longest hkind hlongest.standsAt hstop

/-- A shift with its assignment is scanned as a `>` alone, and then put together. -/
theorem Scanner.read_scan_longest_shift :
    let next := ((ofText #['>', '>', '>', '=']).read .scan).1
    next.token.kind = .punct .greaterThan
      ∧ (next.read .rescanGreater).1.token.kind = .punct .greaterThanGreaterThanGreaterThanEquals
      ∧ ∃ g, (next.read .rescanGreater).1.token.kind = .punct g
        ∧ IsLongest #['>', '>', '>', '='] 0 (fun q => q.startsGreater = true) g := by
  have hkind : ((ofText #['>', '>', '>', '=']).read .scan).1.token.kind = .punct .greaterThan := by
    decide +kernel
  obtain ⟨-, -, hagain⟩ := read_scan_longest (ofText #['>', '>', '>', '=']) .greaterThan hkind
  obtain ⟨g, hg, -, -, hlongest⟩ := hagain rfl
  have hstart : ((ofText #['>', '>', '>', '=']).read .scan).1.token.start = 0 := by decide +kernel
  rw [hstart] at hlongest
  exact ⟨hkind, by decide +kernel, g, hg, hlongest⟩

end ScriptSyntax
