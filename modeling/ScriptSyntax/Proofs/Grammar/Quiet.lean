/-
  ScriptSyntax/Proofs/Grammar/Quiet.lean
  ======================================
  Runs that report nothing, and what they make.

  The general rules say of a run what holds whatever the text.  Where the text is
  known more is known of the run: nothing is reported, and each node is made of
  what was read for it.
-/
import ScriptSyntax.Proofs.Grammar.Names
import ScriptSyntax.Proofs.Tree.Forest

namespace ScriptSyntax

/-! ## 1. Logs -/

namespace DiagnosticLog

/-- The log after errors met while scanning have been reported. -/
def reportScans (file : String) (log : DiagnosticLog) (errors : List ScanError) : DiagnosticLog :=
  errors.foldl (fun log e => log.report (.ofMessageAt file ⟨e.start, e.length⟩ e.message [])) log

theorem size_report_pos (log : DiagnosticLog) (d : Diagnostic) : 0 < (log.report d).size := by
  obtain ⟨e, he, -⟩ := exists_last?_report log d
  exact size_pos_of_last? he

/-- Errors leave the log empty only if there are none. -/
theorem size_reportScans_eq_zero_iff {file : String} {log : DiagnosticLog} {errors : List ScanError} :
    (log.reportScans file errors).size = 0 ↔ log.size = 0 ∧ errors = [] := by
  induction errors generalizing log with
  | nil => simp [reportScans]
  | cons e errors ih =>
    have hpos := size_report_pos log (.ofMessageAt file ⟨e.start, e.length⟩ e.message [])
    show (reportScans file (log.report _) errors).size = 0 ↔ _
    rw [ih]
    constructor
    · rintro ⟨hzero, -⟩
      omega
    · rintro ⟨-, hnone⟩
      cases hnone

end DiagnosticLog

/-! ## 2. Quiet runs -/

/-- A run that reports nothing. -/
structure Quiet (text : Array Char) (s t : ParserState) (items : List Part) : Prop
    extends Run text s t items where
  log_eq : t.log = s.log

namespace Quiet

variable {text : Array Char} {s t u : ParserState} {items items' : List Part}

theorem refl (h : s.Ok text) : Quiet text s s [] := ⟨.refl h, rfl⟩

theorem trans (h : Quiet text s t items) (h' : Quiet text t u items') :
    Quiet text s u (items ++ items') :=
  ⟨h.toRun.trans h'.toRun, h'.log_eq.trans h.log_eq⟩

/-- A quiet run without parts before another one. -/
theorem after (h : Quiet text s t []) (h' : Quiet text t u items) : Quiet text s u items :=
  h.trans h'

/-- A quiet run without parts after another one. -/
theorem before (h : Quiet text s t items) (h' : Quiet text t u []) : Quiet text s u items :=
  ⟨h.toRun.before h'.toRun, h'.log_eq.trans h.log_eq⟩

theorem silent (h : Quiet text s t items) (hlog : s.log.size = 0) : t.log.size = 0 := by
  rw [h.log_eq]
  exact hlog

/-- What fits below a limit of nesting before a run fits after it. -/
theorem depth_le {depth limit : Nat} (h : Quiet text s t items) (hdepth : s.scope.depth + depth ≤ limit) :
    t.scope.depth + depth ≤ limit := by
  rw [h.scope_eq]
  exact hdepth

theorem shallow {limit : Nat} (h : Quiet text s t items) (hdepth : s.scope.depth < limit) :
    t.scope.depth < limit := by
  rw [h.scope_eq]
  exact hdepth

theorem depth_lt {depth limit : Nat} (h : Quiet text s t items) (hdepth : s.scope.depth + depth < limit) :
    t.scope.depth + depth < limit := by
  rw [h.scope_eq]
  exact hdepth

/-- What was made before a run is there after it. -/
theorem keeps (h : Quiet text s t items) : s.forest.Keeps t.forest := h.toGrows.forest

end Quiet

/-- The state with another log. -/
def ParserState.withLog (s : ParserState) (log : DiagnosticLog) : ParserState := { s with log }

/-- A run that reports something is a quiet one from where that would have been reported before. -/
theorem Run.quiet {text : Array Char} {s t : ParserState} {items : List Part} (h : Run text s t items) :
    Quiet text (s.withLog t.log) t items where
  grows := h.grows
  logged := .refl t.log
  named := h.named
  scope_eq := h.scope_eq
  fault_eq := h.fault_eq
  ok := h.ok
  forward := h.forward
  fresh := h.fresh
  distinct := h.distinct
  young := h.young
  there := h.there
  free := h.free
  kept := h.kept
  told hdue := h.told (.inl (hdue.resolve_right (Nat.lt_irrefl _)))
  leaves := by
    obtain ⟨tokens, hleaves⟩ := h.leaves
    exact ⟨tokens, hleaves.reads, hleaves.made, hleaves.named⟩
  lawful := h.lawful
  placed := h.placed
  log_eq := rfl

namespace Parser

variable {env : Surroundings} {r s t : ParserState} {items : List Part} {text : Array Char}

theorem Still.quiet (h : Still text s t) : Quiet text s t [] := ⟨h.toRun, h.log⟩

/-- A run that changes nothing enters names at most. -/
theorem Still.stays (h : Still text s t) : s.forest.Stays t.forest := ⟨h.arena, h.toRun.toGrows.named⟩

/-! ## 3. Tokens -/

/-- Reading on reports what is wrong with the token, and nothing else. -/
theorem log_advance (mode : ReadingMode) (env : Surroundings) (s : ParserState) :
    (advance mode env s).2.log
      = s.log.reportScans env.file.name (mode.read env.file.text s.token).2 := by
  have hlog (errors : List ScanError) (t : ParserState) :
      ((errors.forM fun e => errorAt e.start e.length e.message []) env t).2.log
        = t.log.reportScans env.file.name errors := by
    induction errors generalizing t with
    | nil => rfl
    | cons e errors ih => exact ih _
  exact hlog (mode.read env.file.text s.token).2 _

/-- Reading on makes nothing. -/
theorem forest_advance (mode : ReadingMode) (env : Surroundings) (s : ParserState) :
    (advance mode env s).2.forest = s.forest := by
  have hforest (errors : List ScanError) (t : ParserState) :
      ((errors.forM fun e => errorAt e.start e.length e.message []) env t).2.forest = t.forest := by
    induction errors generalizing t with
    | nil => rfl
    | cons e errors ih => exact ih _
  exact hforest (mode.read env.file.text s.token).2 _

/-- Reading on to a token that is free of errors is a quiet run. -/
theorem advance_quiet {mode : ReadingMode} {next : Token} (h : s.Ok env.file.text)
    (hfits : mode.FitsAt s.token) (hread : mode.read env.file.text s.token = (next, [])) :
    (advance mode).Ends env s fun _ t =>
      Quiet env.file.text s t [] ∧ t.token = next ∧ t.forest = s.forest := by
  have hglance : Glance env.file.text s (advance mode env s).2 := advance_ends mode h hfits
  refine ⟨⟨hglance.toRun, ?_⟩, ?_, forest_advance mode env s⟩
  · rw [log_advance, hread]
    rfl
  · rw [token_advance, hread]

/-- A token that is read again as what it is leaves everything as it is. -/
theorem advance_leaves {mode : ReadingMode} (hread : mode.read env.file.text s.token = (s.token, [])) :
    (advance mode).Ends env s fun _ t => t = s := by
  show (((mode.read env.file.text s.token).2.forM fun e => errorAt e.start e.length e.message []) env
    { s with token := (mode.read env.file.text s.token).1 }).2 = s
  rw [hread]
  rfl

theorem nextToken_reads {next : Token} (hread : s.token.next env.file.text = (next, [])) :
    nextToken.Ends env s fun _ t => t.token = next := by
  show (nextToken env s).2.token = next
  rw [nextToken, token_advance]
  exact congrArg Prod.fst hread

theorem nextKind_reads {next : Token} (hread : s.token.next env.file.text = (next, [])) :
    nextKind.Ends env s fun k t => k = next.kind ∧ t.token = next :=
  (nextToken_reads hread).bind fun _ _ ht => ⟨congrArg Token.kind ht, ht⟩

theorem nextToken_quiet {next : Token} (h : s.Ok env.file.text)
    (hread : s.token.next env.file.text = (next, [])) :
    nextToken.Ends env s fun _ t =>
      Quiet env.file.text s t [] ∧ t.token = next ∧ t.forest = s.forest :=
  advance_quiet h (ReadingMode.fitsAt_of_movesOn rfl) hread

/-- Reading over a token that is there is reading on. -/
theorem accept_reads {k : Kind} (hk : s.token.kind = k) : (accept k).Ends env s fun found t =>
    found = true ∧ t = (nextToken env s).2 := by
  refine .kind (.ite (fun _ => ⟨rfl, rfl⟩) fun hne => ?_)
  simp [hk] at hne

/-! ## 4. Finished nodes -/

theorem finishAt_shows (n : Node) (env : Surroundings) (s : ParserState) :
    (finishAt n).Ends env s fun id t => t.forest.Shows id n.kind n.payload
      ∧ s.forest.Gains (· = n.kind) t.forest ∧ t.log = s.log ∧ t.token = s.token ∧ t.names = s.names := by
  refine ⟨⟨_, Arena.get?_push_self _ _, rfl, rfl⟩, ⟨⟨?_, .refl _⟩, ?_⟩, rfl, rfl, rfl⟩
  · intro id m hm
    exact ⟨m, (Arena.grows_push s.arena _).get? hm, m.parent, rfl⟩
  · rintro id kind payload ⟨m, hm, rfl, rfl⟩
    rcases Arena.get?_push_cases hm with hold | ⟨-, rfl⟩
    · exact .inr ⟨m, hold, rfl, rfl⟩
    · exact .inl rfl

/-- A finished node is of its kind and made of its payload. Nothing else is added, and nothing is reported
or read on the way. -/
theorem finish_shows (n : Node) (env : Surroundings) (s : ParserState) :
    (finish n).Ends env s fun id t => t.forest.Shows id n.kind n.payload
      ∧ s.forest.Gains (· = n.kind) t.forest ∧ t.log = s.log ∧ t.token = s.token ∧ t.names = s.names := by
  refine .nodePos ?_
  extract_lets rest
  split
  · -- the failure that would be noted here changes neither
    exact finishAt_shows _ env { s with fault := s.fault <|> some (.backwardsNode n.kind s.pos n.pos) }
  · exact finishAt_shows _ env s

/-- A node has been finished from the parts of a quiet run. -/
structure Finishes (text : Array Char) (r s : ParserState) (kind : Kind) (payload : Payload)
    (id : NodeId) (t : ParserState) : Prop where
  quiet : Quiet text r t [.node id]
  shows : t.forest.Shows id kind payload
  gains : s.forest.Gains (· = kind) t.forest
  token : t.token = s.token

theorem finish_quiet {n : Node} (h : Quiet env.file.text r s items) (hpos : n.pos = r.pos)
    (hparts : n.parts = items) (hspreads : n.payload.spreadsProperty = false)
    (herror : n.flags.hasError = false) (hsourced : n.SourcedAt env.file.text r s)
    (hlawful : r.token.kind.isNode = false → n.Lawful s.arena) :
    (finish n).Ends env s fun id t => Finishes env.file.text r s n.kind n.payload id t := by
  have hfinish := finish_ends h.toRun hpos hparts hspreads (by simp [herror]) hsourced hlawful
  refine (hfinish.and (finish_shows n env s)).mono fun id t ht => ?_
  obtain ⟨hfinished, hshows, hgains, hlog, htoken, -⟩ := ht
  exact ⟨⟨hfinished.run, hlog.trans h.log_eq⟩, hshows, hgains, htoken⟩

theorem finishProduction_quiet {kind : NodeKind} {payload : Payload} {pos : Nat}
    (h : Quiet env.file.text r s items) (hpos : pos = r.pos)
    (hparts : partsOf payload.fields = items)
    (hplain : (Kind.node kind).isSpecial payload = false) :
    (finishProduction kind pos payload).Ends env s
      fun id t => Finishes env.file.text r s (.node kind) payload id t :=
  finish_quiet h hpos hparts (Kind.not_spreadsProperty hplain) rfl (Node.sourcedAt_of_isToken rfl)
    fun _ => Node.lawful_of_isRuled (Kind.not_isRuled hplain)

/-! ## 5. Names -/

/-- A token that is taken as a name becomes an identifier of that name. -/
theorem identifierIf_shows (m : Message) (env : Surroundings) (s : ParserState) :
    (identifierIf true m).Ends env s fun id t =>
      t.forest.IsIdentifier id s.token.value
        ∧ t.log = s.log.reportScans env.file.name (ReadingMode.scan.read env.file.text s.token).2
        ∧ t.token = (ReadingMode.scan.read env.file.text s.token).1
        ∧ s.forest.Gains (· = .identifier) t.forest := by
  let known : ParserState := {
    s with
    identifierCount := s.identifierCount + 1, names := (s.names.intern s.token.value).2 }
  refine Ends.bind (P := fun _ t => t = { s with identifierCount := s.identifierCount + 1 }) rfl ?_
  rintro _ _ rfl
  refine .ite (fun _ => .token ?_) fun hno => absurd hno.symm Bool.false_ne_true
  refine Ends.bind (P := fun name t => name = (s.names.intern s.token.value).1 ∧ t = known)
    ⟨rfl, rfl⟩ ?_
  rintro _ _ ⟨rfl, rfl⟩
  refine Ends.bind (P := fun _ t => t.forest = known.forest ∧ t.token = _ ∧ t.log = _)
    ⟨forest_advance .scan env known, token_advance .scan env known, log_advance .scan env known⟩
    fun _ t ht => ?_
  refine (finish_shows _ env t).mono fun id u hu => ?_
  obtain ⟨hshows, hgains, hlog, htoken, hnames⟩ := hu
  have hentered : s.forest.Stays t.forest := ht.1 ▸ ⟨rfl, NameTable.grows_intern _ _⟩
  refine ⟨⟨_, _, hshows, ?_⟩, hlog.trans ht.2.2, htoken.trans ht.2.1, (Forest.Gains.of_stays hentered).trans hgains⟩
  show u.names.find? _ = _
  rw [hnames, show t.names = known.names from congrArg Forest.names ht.1]
  exact NameTable.find?_intern _ _

end Parser

end ScriptSyntax
