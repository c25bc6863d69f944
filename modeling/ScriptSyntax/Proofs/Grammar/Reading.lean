/-
  ScriptSyntax/Proofs/Grammar/Reading.lean
  ========================================
  Reading tokens and reporting errors.

  None of these steps touches the tree.  What they share is `Glance`: a run that
  hands over nothing and enters no name, so that a trial run made of glances
  leaves no trace.
-/
import ScriptSyntax.Proofs.Grammar.Steps

namespace ScriptSyntax

/-- A run that makes no node of the tree and enters no name. An error that was due is still due. -/
structure Glance (text : Array Char) (s t : ParserState) : Prop extends Run text s t [] where
  arena : t.arena = s.arena
  names : t.names = s.names
  due : s.errorPending = true → t.errorPending = true

namespace Glance

variable {text : Array Char} {s t u : ParserState}

theorem refl (h : s.Ok text) : Glance text s s := ⟨.refl h, rfl, rfl, id⟩

theorem trans (h : Glance text s t) (h' : Glance text t u) : Glance text s u :=
  ⟨h.toRun.trans h'.toRun, h'.arena.trans h.arena, h'.names.trans h.names, h'.due ∘ h.due⟩

end Glance

namespace Parser

variable {β : Type} {f : Bool → Parser β} {env : Surroundings}
variable {rank : Nat} {took : Bool} {r s t : ParserState} {items : List Part}
variable {Q : β → ParserState → Prop}

/-! ## 1. Errors -/

/-- A report leaves the token, and an error is due after it. -/
structure Reported (text : Array Char) (s t : ParserState) : Prop extends Glance text s t where
  token : t.token = s.token
  pending : t.errorPending = true

theorem errorAt_ends (h : s.Ok env.file.text) {start length : Nat}
    (hspan : start + length ≤ env.file.text.size) (m : Message) (args : List String) :
    (errorAt start length m args).Ends env s fun _ t => Reported env.file.text s t := by
  let d : Diagnostic := .ofMessageAt env.file.name ⟨start, length⟩ m args
  have hinside : (s.log.report d).InText env.file.text.size :=
    h.inside.report (Diagnostic.ofMessageAt_inText hspan)
  have hlog : 0 < (s.log.report d).size := by
    obtain ⟨e, he, -⟩ := DiagnosticLog.exists_last?_report s.log d
    exact DiagnosticLog.size_pos_of_last? he
  have hgrows : s.Grows { s with log := s.log.report d, errorPending := true } :=
    ⟨.refl _, DiagnosticLog.grows_report s.log d, .refl _, rfl, rfl⟩
  have hrun : Run env.file.text s { s with log := s.log.report d, errorPending := true } [] :=
    .of_arena_eq h hgrows rfl ⟨[], .here⟩ h.token (Nat.le_refl _) hinside (.inl rfl) fun _ => hlog
  exact ⟨⟨hrun, rfl, rfl, fun _ => rfl⟩, rfl, rfl⟩

/-- After a report the entry found last starts where the report does. -/
theorem exists_last?_errorAt (start length : Nat) (m : Message) (args : List String) :
    (errorAt start length m args).Ends env s fun _ t =>
      ∃ e, t.log.last? = some e ∧ e.start = start :=
  DiagnosticLog.exists_last?_report s.log (.ofMessageAt env.file.name ⟨start, length⟩ m args)

theorem exists_last?_errorHere (m : Message) (args : List String) :
    (errorHere m args).Ends env s fun _ t => ∃ e, t.log.last? = some e ∧ e.start = s.token.start :=
  .token (exists_last?_errorAt _ _ m args)

theorem errorHere_ends (h : s.Ok env.file.text) (m : Message) (args : List String) :
    (errorHere m args).Ends env s fun _ t => Reported env.file.text s t := by
  refine .token (errorAt_ends h ?_ m args)
  rw [Nat.add_sub_cancel' h.token.start_le]
  exact h.token.stop_le

theorem expectedHere_ends (h : s.Ok env.file.text) (k : Kind) :
    (expectedHere k).Ends env s fun _ t => Reported env.file.text s t :=
  errorHere_ends h _ _

theorem errorHere_gives (h : s.Ok env.file.text) (m : Message) (args : List String) :
    (errorHere m args).Gives env false s s :=
  (errorHere_ends h m args).mono fun _ _ ht => ht.toRun.handed

theorem errorAtRange_ends (h : s.Ok env.file.text) {pos stop : Nat}
    (hpos : pos ≤ env.file.text.size) (hstop : stop ≤ env.file.text.size) (m : Message)
    (args : List String) :
    (errorAtRange pos stop m args).Ends env s fun _ t => Reported env.file.text s t :=
  errorAt_ends h (by omega) m args

theorem errorAtRange_gives (h : s.Ok env.file.text) {pos stop : Nat}
    (hpos : pos ≤ env.file.text.size) (hstop : stop ≤ env.file.text.size) (m : Message)
    (args : List String) : (errorAtRange pos stop m args).Gives env false s s :=
  (errorAtRange_ends h hpos hstop m args).mono fun _ _ ht => ht.toRun.handed

/-- Errors met while scanning are reported one by one. -/
theorem forM_errorAt_ends {errors : List ScanError} (hin : ErrorsIn env.file.text errors)
    (h : s.Ok env.file.text) : (errors.forM fun e => errorAt e.start e.length e.message []).Ends env s fun _ t =>
      Glance env.file.text s t := by
  induction errors generalizing s with
  | nil => exact .refl h
  | cons e errors ih =>
    have hhead : e.start + e.length ≤ env.file.text.size := hin e List.mem_cons_self
    refine (errorAt_ends h hhead e.message []).bind fun _ t ht => ?_
    refine (ih (fun e' he' => hin e' (List.mem_cons_of_mem e he')) ht.ok).mono fun _ u hu => ?_
    exact ht.toGlance.trans hu

theorem token_forM_errorAt (errors : List ScanError) (env : Surroundings) (s : ParserState) :
    ((errors.forM fun e => errorAt e.start e.length e.message []) env s).2.token = s.token := by
  induction errors generalizing s with
  | nil => rfl
  | cons e errors ih => exact ih _

theorem scope_forM_errorAt (errors : List ScanError) (env : Surroundings) (s : ParserState) :
    ((errors.forM fun e => errorAt e.start e.length e.message []) env s).2.scope = s.scope := by
  induction errors generalizing s with
  | nil => rfl
  | cons e errors ih => exact ih _

/-! ## 2. The next token -/

/-- Every way of reading leads to the token that it makes of the current one. -/
theorem token_advance (mode : ReadingMode) (env : Surroundings) (s : ParserState) :
    (advance mode env s).2.token = (mode.read env.file.text s.token).1 :=
  token_forM_errorAt (mode.read env.file.text s.token).2 env _

theorem token_nextToken (env : Surroundings) (s : ParserState) :
    nextToken.Ends env s fun _ t => t.token = (ReadingMode.scan.read env.file.text s.token).1 :=
  token_advance .scan env s

/-- Reading the next token leads behind the current one. -/
theorem pos_nextToken (env : Surroundings) (s : ParserState) :
    nextToken.Ends env s fun _ t => t.pos = s.token.stop :=
  (congrArg Token.fullStart (token_advance .scan env s)).trans
    (ReadingMode.fullStart_read .scan env.file.text s.token)

theorem scope_advance (mode : ReadingMode) (env : Surroundings) (s : ParserState) :
    (advance mode env s).2.scope = s.scope :=
  scope_forM_errorAt (mode.read env.file.text s.token).2 env _

theorem advance_ends (mode : ReadingMode) (h : s.Ok env.file.text) (hfits : mode.FitsAt s.token) :
    (advance mode).Ends env s fun _ t => Glance env.file.text s t := by
  obtain ⟨htoken, herrors⟩ := mode.read_inText h.token hfits.template.kind_ne
  have hread : Run env.file.text s { s with token := (mode.read env.file.text s.token).1 } [] :=
    .of_arena_eq h ⟨.refl _, .refl _, .refl _, rfl, rfl⟩ rfl (ReadsOver.exists_step mode hfits) htoken
      (mode.fullStart_le_read h.token) h.inside (.inr ⟨rfl, rfl⟩)
      fun hpending => h.reported (.inl hpending)
  have hreports := forM_errorAt_ends herrors hread.ok
  exact Glance.trans ⟨hread, rfl, rfl, id⟩ hreports

theorem advance_gives (mode : ReadingMode) (h : s.Ok env.file.text) (hfits : mode.FitsAt s.token) :
    (advance mode).Gives env false s s :=
  (advance_ends mode h hfits).mono fun _ _ ht => ht.toRun.handed

/-- Reading on from a token that takes room goes over it. -/
theorem advance_takes {mode : ReadingMode} (h : s.Ok env.file.text) (hmode : mode.movesOn = true)
    (hkind : s.token.kind ≠ .endOfFile) : (advance mode).Gives env true s s := by
  refine Run.handedTook (advance_ends mode h (ReadingMode.fitsAt_of_movesOn hmode)).toRun ?_
  show s.token.fullStart < Token.fullStart _
  rw [token_advance, ReadingMode.fullStart_read, hmode]
  exact h.token.fullStart_lt_stop hkind

theorem nextToken_glance (h : s.Ok env.file.text) :
    nextToken.Ends env s fun _ t => Glance env.file.text s t :=
  advance_ends .scan h (ReadingMode.fitsAt_of_movesOn rfl)

theorem nextToken_gives (h : s.Ok env.file.text) : nextToken.Gives env false s s :=
  (nextToken_glance h).mono fun _ _ ht => ht.toRun.handed

theorem nextToken_takes (h : s.Ok env.file.text) (hkind : s.token.kind ≠ .endOfFile) :
    nextToken.Gives env true s s :=
  advance_takes h rfl hkind

/-! ## 3. Tokens that may be there -/

/-- The token was read over. -/
structure Skipped (text : Array Char) (s t : ParserState) : Prop extends Glance text s t where
  token : t.token = (ReadingMode.scan.read text s.token).1
  took : s.pos < t.pos

theorem nextToken_ends (h : s.Ok env.file.text) (hkind : s.token.kind ≠ .endOfFile) :
    nextToken.Ends env s fun _ t => Skipped env.file.text s t :=
  ⟨nextToken_glance h, token_nextToken env s, (nextToken_takes h hkind).ahead rfl⟩

/-- Reading over a token that may be there ends behind the token, or where it started. -/
theorem accept_ends {k : Kind} (h : s.Ok env.file.text) (hend : k ≠ .endOfFile) :
    (accept k).Ends env s fun found t =>
      (found = true ∧ s.token.kind = k ∧ Skipped env.file.text s t)
        ∨ (found = false ∧ s.token.kind ≠ k ∧ t = s) := by
  refine .kind (.ite (fun hk => ?_) fun hk => ?_)
  · have hk := beq_iff_eq.mp hk
    exact (nextToken_ends h (hk ▸ hend)).bind fun _ t ht => .inl ⟨rfl, hk, ht⟩
  · exact .inr ⟨rfl, by simpa using hk, rfl⟩

theorem require_ends {k : Kind} (m : Option Message) (h : s.Ok env.file.text) :
    (require k m).Ends env s fun found t =>
      (found = true ∧ s.token.kind = k ∧ t = s)
        ∨ (found = false ∧ s.token.kind ≠ k ∧ Reported env.file.text s t) := by
  refine .kind (.ite (fun hk => .inl ⟨rfl, beq_iff_eq.mp hk, rfl⟩) fun hk => ?_)
  have hk : s.token.kind ≠ k := by simpa using hk
  cases m with
  | none => exact (expectedHere_ends h k).bind fun _ t ht => .inr ⟨rfl, hk, ht⟩
  | some m => exact (errorHere_ends h m []).bind fun _ t ht => .inr ⟨rfl, hk, ht⟩

/-- Reading over a token that should be there ends behind the token, or with a report. -/
theorem expectWith_ends {k : Kind} (m : Option Message) (h : s.Ok env.file.text)
    (hend : k ≠ .endOfFile) :
    (expectWith k m).Ends env s fun found t =>
      (found = true ∧ s.token.kind = k ∧ Skipped env.file.text s t)
        ∨ (found = false ∧ s.token.kind ≠ k ∧ Reported env.file.text s t) := by
  refine (require_ends m h).bind fun found t ht => ?_
  rcases ht with ⟨rfl, hk, rfl⟩ | ⟨rfl, hk, ht⟩
  · exact (nextToken_ends h (hk ▸ hend)).bind fun _ u hu => .inl ⟨rfl, hk, hu⟩
  · exact .inr ⟨rfl, hk, ht⟩

theorem expectWith_gives {k : Kind} (m : Option Message) (h : s.Ok env.file.text)
    (hend : k ≠ .endOfFile) : (expectWith k m).Gives env false s s := by
  refine (expectWith_ends m h hend).mono fun _ t ht => ?_
  rcases ht with ⟨-, -, ht⟩ | ⟨-, -, ht⟩
  · exact ht.toRun.handed
  · exact ht.toRun.handed

theorem expectWith_takes {k : Kind} (m : Option Message) (h : s.Ok env.file.text)
    (hend : k ≠ .endOfFile) (hk : s.token.kind = k) : (expectWith k m).Gives env true s s := by
  refine (expectWith_ends m h hend).mono fun _ t ht => ?_
  rcases ht with ⟨-, -, ht⟩ | ⟨-, hne, -⟩
  · exact ht.toRun.handedTook ht.took
  · exact absurd hk hne

theorem expectPunct_gives (p : Punctuator) (h : s.Ok env.file.text) :
    (expectPunct p).Gives env false s s :=
  expectWith_gives none h nofun

theorem expectPunct_takes {p : Punctuator} (h : s.Ok env.file.text)
    (hk : s.token.kind = .punct p) : (expectPunct p).Gives env true s s :=
  expectWith_takes none h nofun hk

theorem expectKeyword_gives (k : Keyword) (h : s.Ok env.file.text) :
    (expectKeyword k).Gives env false s s :=
  expectWith_gives none h nofun

theorem expectKeyword_takes {k : Keyword} (h : s.Ok env.file.text)
    (hk : s.token.kind = .keyword k) : (expectKeyword k).Gives env true s s :=
  expectWith_takes none h nofun hk

theorem acceptPunct_gives (p : Punctuator) (h : s.Ok env.file.text) :
    (acceptPunct p).Gives env false s s := by
  refine (accept_ends (k := .punct p) h nofun).mono fun _ t ht => ?_
  rcases ht with ⟨-, -, ht⟩ | ⟨-, -, rfl⟩
  · exact ht.toRun.handed
  · exact (Run.refl h).handed

/-- The note about the opening bracket joins the report about the closing one, if that is a new
one. -/
theorem expectClosing_gives (opening closing : Punctuator) {opened : Bool} {pos : Nat}
    (h : s.Ok env.file.text) (hopened : opened = true → pos < env.file.text.size) :
    (expectClosing opening closing (if opened = true then some pos else none)).Gives env false s s := by
  refine (accept_ends (k := .punct closing) h nofun).bind fun found t ht => ?_
  rcases ht with ⟨rfl, -, ht⟩ | ⟨rfl, -, rfl⟩
  · exact ht.toRun.handed
  refine .get ((expectedHere_ends h (.punct closing)).bind fun _ u hu => ?_)
  cases opened with
  | false => exact hu.toRun.handed
  | true =>
    refine .get ?_
    split
    · rename_i hnew
      let note : Note := .ofMessageAt env.file.name ⟨pos, 1⟩ .matchingTokenExpected
        [closing.text, opening.text]
      have hnote : note.InText env.file.text.size := Note.ofMessageAt_inText (hopened rfl)
      have hgrows : t.Grows { u with log := u.log.relateToLast note } :=
        ⟨hu.grows, hu.logged.relateToLast hnew note, hu.named, hu.scope_eq, hu.fault_eq⟩
      have hlog : 0 < (u.log.relateToLast note).size := by
        rw [DiagnosticLog.size_relateToLast]
        exact hu.ok.reported (.inl hu.pending)
      have hrun : Run env.file.text t { u with log := u.log.relateToLast note } [] :=
        .of_arena_eq h hgrows hu.arena ⟨[], hu.token ▸ .here⟩ hu.ok.token hu.forward
          (hu.ok.inside.relateToLast hnote) (.inl hu.pending) fun _ => hlog
      exact hrun.handed
    · exact hu.toRun.handed

end Parser

namespace Sofar

variable {β : Type} {f : Bool → Parser β} {env : Surroundings}
variable {rank : Nat} {took : Bool} {r m s t : ParserState} {items : List Part}
variable {Q : β → ParserState → Prop}

/-- After a token that may be there, the rest goes on behind it, or from the same state. -/
theorem accept {k : Kind} (g : Sofar env rank took r m s items) (hend : k ≠ .endOfFile)
    (yes : ∀ t, s.token.kind = k → Sofar env Production.topRank true r m t items →
      (f true).Ends env t Q)
    (no : s.token.kind ≠ k → (f false).Ends env s Q) : (Parser.accept k >>= f).Ends env s Q := by
  refine (Parser.accept_ends g.ready.ok hend).bind fun found t ht => ?_
  rcases ht with ⟨rfl, hk, ht⟩ | ⟨rfl, hk, rfl⟩
  · exact yes t hk (g.goOnTook ht.toRun ht.took)
  · exact no hk

theorem acceptPunct {p : Punctuator} (g : Sofar env rank took r m s items)
    (yes : ∀ t, s.token.kind = .punct p → Sofar env Production.topRank true r m t items →
      (f true).Ends env t Q)
    (no : s.token.kind ≠ .punct p → (f false).Ends env s Q) :
    (Parser.acceptPunct p >>= f).Ends env s Q :=
  g.accept nofun yes no

theorem acceptKeyword {k : Keyword} (g : Sofar env rank took r m s items)
    (yes : ∀ t, s.token.kind = .keyword k → Sofar env Production.topRank true r m t items →
      (f true).Ends env t Q)
    (no : s.token.kind ≠ .keyword k → (f false).Ends env s Q) :
    (Parser.acceptKeyword k >>= f).Ends env s Q :=
  g.accept nofun yes no

/-- After a token that should be there, the rest goes on behind it, or after a report. -/
theorem expectWith {k : Kind} {message : Option Message} (g : Sofar env rank took r m s items)
    (hend : k ≠ .endOfFile)
    (yes : ∀ t, s.token.kind = k → Sofar env Production.topRank true r m t items →
      (f true).Ends env t Q)
    (no : ∀ t, s.token.kind ≠ k → Parser.Reported env.file.text s t →
      Sofar env rank took r m t items → (f false).Ends env t Q) :
    (Parser.expectWith k message >>= f).Ends env s Q := by
  refine (Parser.expectWith_ends message g.ready.ok hend).bind fun found t ht => ?_
  rcases ht with ⟨rfl, hk, ht⟩ | ⟨rfl, hk, ht⟩
  · exact yes t hk (g.goOnTook ht.toRun ht.took)
  · exact no t hk ht (g.goOn ht.toRun)

theorem expectPunct {p : Punctuator} (g : Sofar env rank took r m s items)
    (yes : ∀ t, s.token.kind = .punct p → Sofar env Production.topRank true r m t items →
      (f true).Ends env t Q)
    (no : ∀ t, s.token.kind ≠ .punct p → Parser.Reported env.file.text s t →
      Sofar env rank took r m t items → (f false).Ends env t Q) :
    (Parser.expectPunct p >>= f).Ends env s Q :=
  g.expectWith nofun yes no

end Sofar

end ScriptSyntax
