/-
  ScriptSyntax/Proofs/Token/Scans.lean
  ====================================
  What a scan of a whole text tells, and how it goes through a part of the text.

  A scan goes over trivia to a lexeme, over the lexeme, and on like this to the end of the text.
  Since nothing but the text and the position counts, a scan that comes to where an excerpt
  stands goes on as a scan of the excerpt does.
-/
import ScriptSyntax.Proofs.Token.Excerpt
import ScriptSyntax.Proofs.Token.Spelling
import ScriptSyntax.Token.Stream

namespace ScriptSyntax

variable {part text : Array Char} {n d p q : Nat} {c : Char} {tokens : List Word} {errors : List ScanError}

/-! ## 1. Scans -/

def Token.word (t : Token) : Word := ⟨t.kind, t.value⟩

def Lexeme.word (l : Lexeme) : Word := ⟨l.kind, l.value⟩

/-- Scanned from the position on, the text has these tokens up to its end, and these errors are met. -/
inductive Scans (text : Array Char) : Nat → List Word → List ScanError → Prop
  | last {p q : Nat} {errors : List ScanError} (path : TriviaPath text p errors q)
      (atEnd : text.size ≤ q) : Scans text p [] errors
  | more {p q : Nat} {c : Char} {l : Lexeme} {errors later : List ScanError} {tokens : List Word}
      (path : TriviaPath text p errors q) (char : text[q]? = some c) (halts : NoTrivia text q)
      (noShebang : isShebang text q = false) (lexeme : lexemeAt text q c = l)
      (rest : Scans text l.stop tokens later) :
      Scans text p (l.word :: tokens) (errors ++ (l.errors ++ later))

/-- Trivia before a scan add their errors to it. -/
theorem Scans.behind {later : List ScanError} (path : TriviaPath text p errors q)
    (h : Scans text q tokens later) : Scans text p tokens (errors ++ later) := by
  cases h with
  | last path' atEnd => exact .last (path.trans path') atEnd
  | more path' char halts noShebang lexeme rest =>
    rw [← List.append_assoc]
    exact .more (path.trans path') char halts noShebang lexeme rest

/-- Every text can be scanned to its end. -/
theorem exists_scans (text : Array Char) (p : Nat) (hp : p ≤ text.size) :
    ∃ tokens errors, Scans text p tokens errors := by
  obtain ⟨errors, path, -⟩ := @triviaPath_of_run text p {} []
  have halts := (@stop_triviaRunFrom text p {} []).2
  have noShebang := isShebang_stop {} [] hp
  have hle := path.le
  generalize (triviaRunFrom text {} [] p).stop = q at path halts noShebang hle
  cases hc : text[q]? with
  | none => exact ⟨[], errors, .last path (Array.getElem?_eq_none_iff.mp hc)⟩
  | some c =>
    have hwithin := lexemeAt_within hc
    obtain ⟨tokens, later, rest⟩ := exists_scans text (lexemeAt text q c).stop hwithin.stop_le
    exact ⟨_, _, .more path hc halts noShebang rfl rest⟩
termination_by text.size - p
decreasing_by
  have hlt := hwithin.lt_stop
  have hstop := hwithin.stop_le
  omega

/-- The list of tokens holds what a scan tells, if it is long enough. -/
theorem Scans.scanTokensFrom_eq (h : Scans text p tokens errors) (hp : p ≤ text.size) {count : Nat}
    (hcount : text.size - p < count) :
    ((scanTokensFrom text count p).filterMap fun s => if s.1.kind == .endOfFile then none else some s.1).map
        Token.word = tokens
      ∧ (scanTokensFrom text count p).flatMap Prod.snd = errors := by
  induction h generalizing count with
  | @last p q errors path atEnd =>
    obtain ⟨halts, noShebang⟩ := noTrivia_of_size_le atEnd
    obtain ⟨flags, hrun⟩ := path.run_of_halts halts noShebang
    have hnone : text[q]? = none := Array.getElem?_eq_none atEnd
    have hscan : scanAt text p = (⟨p, q, q, .endOfFile, "", flags⟩, errors) := by
      simp [scanAt, hrun, hnone]
    cases count with
    | zero => exact absurd hcount (Nat.not_lt_zero _)
    | succ count => simp [scanTokensFrom, hscan]
  | @more p q c l errors later tokens path char halts noShebang lexeme rest ih =>
    obtain ⟨flags, hrun⟩ := path.run_of_halts halts noShebang
    have hscan : scanAt text p = l.toToken p ⟨q, flags, errors⟩ := by
      simp [scanAt, hrun, char, lexeme]
    have hwithin := lexeme ▸ lexemeAt_within char
    have hle := path.le
    have hlt := hwithin.lt_stop
    have hstop := hwithin.stop_le
    cases count with
    | zero => exact absurd hcount (Nat.not_lt_zero _)
    | succ count =>
      obtain ⟨htokens, herrors⟩ := @ih hstop count (by omega)
      have hkind : ((l.toToken p ⟨q, flags, errors⟩).1.kind == .endOfFile) = false :=
        beq_false_of_ne hwithin.kind_ne
      have hlist : scanTokensFrom text (count + 1) p
          = l.toToken p ⟨q, flags, errors⟩ :: scanTokensFrom text count l.stop := by
        rw [scanTokensFrom, hscan, hkind]
        rfl
      rw [hlist]
      constructor
      · rw [List.filterMap_cons, hkind, ← htokens]
        rfl
      · rw [← herrors]
        simp [Lexeme.toToken]

/-- What a scan tells is in the list of all tokens. -/
theorem Scans.scanTokens_eq (h : Scans text 0 tokens errors) :
    (tokenize text).map Token.word = tokens ∧ (scanTokens text).flatMap Prod.snd = errors :=
  h.scanTokensFrom_eq (Nat.zero_le _) (Nat.lt_succ_of_le (Nat.sub_le _ _))

theorem scans_scanTokens (text : Array Char) :
    Scans text 0 ((tokenize text).map Token.word) ((scanTokens text).flatMap Prod.snd) := by
  obtain ⟨tokens, errors, h⟩ := exists_scans text 0 (Nat.zero_le _)
  rwa [h.scanTokens_eq.1, h.scanTokens_eq.2]

/-! ## 2. Scans of excerpts -/

namespace Excerpt

/-- Where a lexeme starts in the excerpt, one starts in the text. -/
theorem more (h : Excerpt part text n d) {l : Lexeme} {later : List ScanError}
    (path : TriviaPath part p errors q) (char : part[q]? = some c) (halts : NoTrivia part q)
    (lexeme : lexemeAt part q c = l) (hstop : l.stop < n) (rest : Scans text (l.stop + d) tokens later) :
    Scans text (p + d) (l.word :: tokens)
      (errors.map (·.shift d) ++ (l.errors.map (·.shift d) ++ later)) := by
  have hq : q < n := Nat.lt_of_lt_of_le (lt_size_of_eq_some char) h.size_le
  have hspace := halts.space c char
  simp only [isWhiteSpaceLike, Bool.or_eq_false_iff] at hspace
  have hlexeme : lexemeAt text (q + d) c = l.shift d := by
    rw [← lexeme] at hstop ⊢
    exact h.lexemeAt_eq char hspace.2 hstop
  exact .more (h.path path (.inl hq)) ((h.char hq rfl).trans char) (h.noTrivia hq halts)
    (h.isShebang_eq rfl).2 hlexeme rest

/-- An excerpt that is the rest of the text is scanned there as it is. -/
theorem scans (h : Excerpt part text n d) (hsize : part.size < n) (hp : p ≤ part.size)
    (hscans : Scans part p tokens errors) : Scans text (p + d) tokens (errors.map (·.shift d)) := by
  induction hscans with
  | last path atEnd =>
    have hend := path.le_size hp
    refine .last (h.path path (.inl (Nat.lt_of_le_of_lt hend hsize))) ?_
    rw [h.size_eq hsize]
    exact Nat.add_le_add_right atEnd d
  | more path char halts noShebang lexeme rest ih =>
    have hstop := (lexeme ▸ lexemeAt_within char).stop_le
    have hmore := h.more path char halts lexeme (Nat.lt_of_le_of_lt hstop hsize) (ih hstop)
    rwa [← List.map_append, ← List.map_append] at hmore

/-- An excerpt with which nothing is wrong is scanned up to its end, and the scan goes on from there. -/
theorem scans_append (h : Excerpt part text n d) (hsize : part.size = n) (hp : p ≤ part.size)
    (hscans : Scans part p tokens errors) (hquiet : errors = []) {tokens' : List Word}
    {errors' : List ScanError} (hrest : Scans text (n + d) tokens' errors') :
    Scans text (p + d) (tokens ++ tokens') errors' := by
  induction hscans with
  | @last p q errors path atEnd =>
    obtain rfl : q = n := Nat.le_antisymm (hsize ▸ path.le_size hp) (hsize ▸ atEnd)
    subst hquiet
    exact .behind (h.path path (.inr rfl)) hrest
  | @more p q c l errors later tokens path char halts noShebang lexeme rest ih =>
    obtain ⟨rfl, hboth⟩ := List.append_eq_nil_iff.mp hquiet
    obtain ⟨hlexeme, rfl⟩ := List.append_eq_nil_iff.mp hboth
    have hspace := halts.space c char
    simp only [isWhiteSpaceLike, Bool.or_eq_false_iff] at hspace
    have hstop : l.stop < n := by
      rw [← lexeme] at hlexeme ⊢
      exact h.stop_lexemeAt_lt char hspace.2 hlexeme
    have hmore := h.more path char halts lexeme hstop (ih (lexeme ▸ lexemeAt_within char).stop_le rfl)
    rwa [hlexeme] at hmore

end Excerpt

end ScriptSyntax
