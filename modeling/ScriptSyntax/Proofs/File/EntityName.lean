/-
  ScriptSyntax/Proofs/File/EntityName.lean
  ========================================
  Which texts are one name, possibly dotted.

  Whether a text is accepted is found out from the log: a name is given only if
  nothing was reported on the way to the end of the file.  So reports have to be
  exactly where the tokens go wrong.  The parser reads over a name and then over
  pairs of a dot and a name; either all is well so far, or something was reported
  and the tokens are no dotted name, whatever comes after.
-/
import ScriptSyntax.Proofs.File.Shape
import ScriptSyntax.Proofs.Grammar.Quiet
import ScriptSyntax.Proofs.Token.Stream

namespace ScriptSyntax

open ScriptSyntax.Parser ScriptSyntax.Scanner

/-! ## 1. Dotted names -/

/-- The tokens are a name, or names with dots between them. Keywords are names. Beside the tokens
stand the values of the names. -/
inductive DottedName : List Token → List String → Prop where
  | name {t : Token} : t.kind.isName = true → DottedName [t] [t.value]
  | dot {tokens : List Token} {words : List String} {d t : Token} : DottedName tokens words →
    d.kind = .punct .dot → t.kind.isName = true →
    DottedName (tokens ++ [d, t]) (words ++ [t.value])

/-- Under the number there is the name that consists of the given words: an identifier, or what
stands before the last dot and an identifier. -/
inductive Forest.IsDottedName (F : Forest) : NodeId → List String → Prop where
  | name {id : NodeId} {word : String} : F.IsIdentifier id word → IsDottedName F id [word]
  | dot {id left right : NodeId} {words : List String} {word : String} :
    F.IsDottedName left words → F.IsIdentifier right word →
    F.Shows id (.node .qualifiedName) (.qualifiedName left right) →
    IsDottedName F id (words ++ [word])

theorem Forest.IsDottedName.keeps {F G : Forest} {id : NodeId} {words : List String}
    (h : F.IsDottedName id words) (hkeeps : F.Keeps G) : G.IsDottedName id words := by
  induction h with
  | name hword => exact .name (hword.keeps hkeeps)
  | dot _ hright hshows ih => exact .dot ih (hright.keeps hkeeps) (hshows.keeps hkeeps)

/-- What the kind of a token is in a dotted name, by its place. -/
def Kind.fitsAt (k : Kind) (i : Nat) : Prop :=
  if i % 2 = 0 then k.isName = true else k = .punct .dot

/-- Names and dots take turns, and names come first and last. -/
theorem DottedName.fitsAt {tokens : List Token} {words : List String} (h : DottedName tokens words) :
    tokens.length % 2 = 1 ∧ ∀ i (hi : i < tokens.length), tokens[i].kind.fitsAt i := by
  induction h with
  | name hname => simpa [Kind.fitsAt] using hname
  | @dot tokens words d t _ hdot hname ih =>
    obtain ⟨hodd, hfits⟩ := ih
    constructor
    · simp only [List.length_append, List.length_cons, List.length_nil]
      omega
    · intro i hi
      simp only [List.length_append, List.length_cons, List.length_nil] at hi
      by_cases hold : i < tokens.length
      · simpa [List.getElem_append_left hold] using hfits i hold
      · obtain rfl | rfl : i = tokens.length ∨ i = tokens.length + 1 := by omega
        · simp [Kind.fitsAt, hodd, hdot]
        · have heven : (tokens.length + 1) % 2 = 0 := by omega
          simp [Kind.fitsAt, heven, hname]

theorem Kind.fitsAt.ne_endOfFile {k : Kind} {i : Nat} (h : k.fitsAt i) : k ≠ .endOfFile := by
  rintro rfl
  unfold Kind.fitsAt at h
  split at h <;> cases h

/-! ## 2. The tokens of a text -/

variable {text : Array Char} {k : Nat}

/-- What is wrong with the token that has the given number. -/
def scanErrors (text : Array Char) (k : Nat) : List ScanError := (scanAt text (scanPos text k)).2

/-- The tokens of the text are a dotted name, and scanning meets no error. -/
def SpellsName (text : Array Char) : Prop :=
  (∀ scanned ∈ scanTokens text, scanned.2 = []) ∧ ∃ words, DottedName (tokenize text) words

/-- The end of the file is the token with the number `last`, and the first to be one. -/
structure LastToken (text : Array Char) (last : Nat) : Prop where
  before : ∀ m < last, (scanned text m).kind ≠ .endOfFile
  atEnd : (scanned text last).kind = .endOfFile

theorem LastToken.tokens_eq {last : Nat} (h : LastToken text last) :
    tokenize text = (List.range last).map (scanned text)
      ∧ (scanTokens text).map Prod.snd = (List.range (last + 1)).map (scanErrors text) := by
  have hcount : text.size - scanPos text 0 < text.size + 1 := Nat.lt_succ_of_le (Nat.sub_le _ _)
  obtain ⟨last', -, -, hbefore, hend, hlist⟩ := scanTokensFrom_eq (text.size + 1) 0 hcount
  obtain rfl : last' = last := by
    rcases Nat.lt_trichotomy last' last with hlt | heq | hlt
    · exact absurd hend (h.before last' hlt)
    · exact heq
    · exact absurd h.atEnd (hbefore last (Nat.zero_le last) hlt)
  have hlist : (scanTokens text).map Prod.fst = (List.range (last' + 1)).map (scanned text) := by
    rw [List.range_eq_range']
    exact hlist
  refine ⟨tokenize_eq h.before h.atEnd hlist, ?_⟩
  -- each scan is decided by where it starts
  have hscan : ∀ count pos, (scanTokensFrom text count pos).map Prod.snd
      = ((scanTokensFrom text count pos).map Prod.fst).map
        fun t => (scanAt text t.fullStart).2 := by
    intro count
    induction count with
    | zero =>
      intro pos
      rfl
    | succ count ih =>
      intro pos
      unfold scanTokensFrom
      dsimp only
      split
      · simp
      · simp [ih]
  unfold scanTokens at hlist ⊢
  rw [hscan, hlist, List.map_map]
  apply List.map_congr_left
  intro m _
  simp [scanErrors, fullStart_scanned]

theorem LastToken.spellsName_iff {last : Nat} (h : LastToken text last) :
    SpellsName text ↔ (∀ m ≤ last, scanErrors text m = [])
      ∧ ∃ words, DottedName ((List.range last).map (scanned text)) words := by
  have hclean : (∀ scanned ∈ scanTokens text, scanned.2 = [])
      ↔ ∀ errors ∈ (scanTokens text).map Prod.snd, errors = [] := by
    rw [List.forall_mem_map]
  rw [SpellsName, hclean, h.tokens_eq.1, h.tokens_eq.2]
  simp only [List.forall_mem_map, List.mem_range, Nat.lt_succ_iff]

theorem exists_lastToken (text : Array Char) : ∃ last, LastToken text last := by
  obtain ⟨-, -, last, -, hbefore, hend, -⟩ := scanned_tile text
  exact ⟨last, hbefore, hend⟩

/-- In a dotted name of which the tokens before the one with number `k` are known: either it is the
end of the file and the name is complete, or it fits its place. Nothing is wrong with it. -/
theorem SpellsName.next (h : SpellsName text)
    (hbefore : ∀ m < k, (scanned text m).kind ≠ .endOfFile) :
    scanErrors text k = [] ∧ ((k % 2 = 1 ∧ (scanned text k).kind = .endOfFile)
      ∨ ((scanned text k).kind.fitsAt k)) := by
  obtain ⟨last, hlast⟩ := exists_lastToken text
  obtain ⟨hclean, words, hname⟩ := hlast.spellsName_iff.mp h
  obtain ⟨hodd, hfits⟩ := hname.fitsAt
  simp only [List.length_map, List.length_range] at hodd hfits
  have hle : k ≤ last := by
    apply Nat.le_of_not_lt
    intro hlt
    exact hbefore last hlt hlast.atEnd
  refine ⟨hclean k hle, ?_⟩
  rcases Nat.eq_or_lt_of_le hle with rfl | hlt
  · exact .inl ⟨hodd, hlast.atEnd⟩
  · have := hfits k hlt
    simp only [List.getElem_map, List.getElem_range] at this
    exact .inr this

/-! ## 3. The names -/

/-- The parser has come to the token with number `k`, and nothing was wrong on the way. -/
structure Arrived (text : Array Char) (k : Nat) (s : ParserState) : Prop where
  token : s.token = scanned text k
  unreported : s.log.size = 0
  clean : ∀ m ≤ k, scanErrors text m = []

/-- Something was reported, and the text is no dotted name. -/
structure Refuted (text : Array Char) (s : ParserState) : Prop where
  reported : 0 < s.log.size
  wrong : ¬SpellsName text

theorem Refuted.mono {s t : ParserState} (h : Refuted text s) (hlog : s.log.size ≤ t.log.size) :
    Refuted text t :=
  ⟨Nat.lt_of_lt_of_le h.reported hlog, h.wrong⟩

/-- The token with number `k` is a name, and neither it nor the next token is wrong. The next one is no
name. -/
def NameAt (text : Array Char) (k : Nat) : Prop :=
  (scanned text k).kind.isName = true ∧ scanErrors text (k + 1) = []
    ∧ (scanned text (k + 1)).kind.isName = false

/-- Where a name belongs in a dotted name, one stands. -/
theorem SpellsName.nameAt (h : SpellsName text) (heven : k % 2 = 0)
    (hbefore : ∀ m < k, (scanned text m).kind ≠ .endOfFile) : NameAt text k := by
  have hname : (scanned text k).kind.isName = true := by
    rcases (h.next hbefore).2 with ⟨hodd, -⟩ | hfits
    · omega
    · simpa [Kind.fitsAt, heven] using hfits
  have hbefore : ∀ m < k + 1, (scanned text m).kind ≠ .endOfFile := by
    intro m hm
    rcases Nat.lt_succ_iff_lt_or_eq.mp hm with hm | rfl
    · exact hbefore m hm
    · intro hkind
      rw [hkind] at hname
      cases hname
  obtain ⟨hclean, hnext⟩ := h.next hbefore
  refine ⟨hname, hclean, ?_⟩
  rcases hnext with ⟨-, hkind⟩ | hfits
  · rw [hkind]
    rfl
  · have hodd : (k + 1) % 2 ≠ 0 := by omega
    simp only [Kind.fitsAt, hodd, if_false] at hfits
    rw [hfits]
    rfl

variable {env : Surroundings} {r s t : ParserState}

theorem read_scanned (text : Array Char) (k : Nat) :
    ReadingMode.scan.read text (scanned text k) = (scanned text (k + 1), scanErrors text (k + 1)) := by
  rw [scanned_eq text (k + 1)]
  rfl

/-- Reading over a token comes to the next one, or reports what is wrong with that one. -/
theorem Arrived.read (h : Arrived text k s) {file : String}
    (htoken : t.token = (ReadingMode.scan.read text s.token).1)
    (hlog : t.log = s.log.reportScans file (ReadingMode.scan.read text s.token).2) :
    Arrived text (k + 1) t ∨ (0 < t.log.size ∧ scanErrors text (k + 1) ≠ []) := by
  rw [h.token, read_scanned] at htoken hlog
  by_cases hclean : scanErrors text (k + 1) = []
  · left
    constructor
    · exact htoken
    · rw [hlog, hclean]
      exact h.unreported
    · intro m hm
      rcases Nat.eq_or_lt_of_le hm with rfl | hm
      · exact hclean
      · exact h.clean m (Nat.le_of_lt_succ hm)
  · right
    refine ⟨Nat.pos_of_ne_zero ?_, hclean⟩
    intro hzero
    rw [hlog, DiagnosticLog.size_reportScans_eq_zero_iff] at hzero
    exact hclean hzero.2

/-- Where a name is read, there is one and all is well, or there is a report and no name, or something
wrong behind it. -/
def NameRead (text : Array Char) (k : Nat) (id : NodeId) (t : ParserState) : Prop :=
  ((scanned text k).kind.isName = true ∧ Arrived text (k + 1) t
      ∧ t.forest.IsIdentifier id (scanned text k).value)
    ∨ (0 < t.log.size ∧ ¬NameAt text k)

theorem nameOr_read (m : Message) (hok : s.Ok env.file.text) (h : Arrived env.file.text k s) :
    (nameOr m).Ends env s (NameRead env.file.text k) := by
  refine .ask (isName_inquires (o := true).asks hok) ?_
  rw [answer_isName, h.token]
  cases hname : (scanned env.file.text k).kind.isName with
  | true =>
    refine (identifierIf_shows m env s).mono fun id t ht => ?_
    obtain ⟨hword, hlog, htoken, -⟩ := ht
    rw [h.token] at hword
    rcases h.read htoken hlog with hnext | ⟨hreported, hwrong⟩
    · exact .inl ⟨hname, hnext, hword⟩
    · exact .inr ⟨hreported, fun hat => hwrong hat.2.1⟩
  | false =>
    have hmissing : (identifierIf false m).Ends env s fun _ t => 0 < t.log.size :=
      (countIdentifier_ends hok).bind fun _ t ht =>
        (missingHere_ends rfl m [] ht.ok).mono fun _ _ hu => hu.2
    refine hmissing.mono fun id t hreported => .inr ⟨hreported, ?_⟩
    rintro ⟨hyes, -⟩
    exact Bool.false_ne_true (hname.symm.trans hyes)

theorem answer_of_onSameLine {p : Parser Bool} (h : (onSameLine p).answer env s = true) :
    p.answer env s = true := by
  have hline : (onSameLine p).Ends env s fun found _ => found = true → p.answer env s = true :=
    .afterLineBreak (.ite (fun _ => .pure nofun) fun _ => id)
  exact hline h

/-- After a dot a name on the next line is left alone if another name follows it. Then two names stand
side by side. -/
theorem nameAfterDot_read (hok : s.Ok env.file.text) (h : Arrived env.file.text k s) :
    (nameAfterDot true).Ends env s (NameRead env.file.text k) := by
  have hpeek : (peek nameAfterDot.isNameOnSameLine).Asks env s :=
    (Inquires.peek (o := true) (Inquires.onSameLine isName_inquires).toScouts).asks hok
  have hname : isName.Asks env s := (isName_inquires (o := true)).asks hok
  have hasks : (afterLineBreak <&&> isName <&&> peek nameAfterDot.isNameOnSameLine).Asks env s :=
    (Inquires.afterLineBreak (o := true).and (isName_inquires.and
      (.peek (Inquires.onSameLine isName_inquires).toScouts))).asks hok
  refine .ask hasks (.ite (fun hyes => ?_) fun _ => .ite (fun _ => nameOr_read _ hok h) nofun)
  refine (missingBefore_ends rfl .identifierExpected [] hok).mono fun id t ht => .inr ⟨ht.2, ?_⟩
  rintro ⟨-, -, hno⟩
  obtain ⟨-, hnext⟩ := answer_and (answer_and hyes rfl).2 hname
  have hsecond : isName.answer env (nextToken env s).2 = true := answer_of_onSameLine hnext
  rw [answer_isName, nextToken, token_advance, h.token, read_scanned, hno] at hsecond
  cases hsecond

/-! ## 4. All of the name -/

/-- All has been well so far, and the node is the name that the tokens make which were read over. Or the
text is no dotted name, and that was noticed. -/
def NameSoFar (text : Array Char) (id : NodeId) (s : ParserState) : Prop :=
  (∃ k words, Arrived text k s ∧ DottedName ((List.range k).map (scanned text)) words
      ∧ s.forest.IsDottedName id words)
    ∨ Refuted text s

/-- The tokens of a dotted name are odd in number, and none of them is the end of the file. -/
theorem DottedName.before {words : List String}
    (h : DottedName ((List.range k).map (scanned text)) words) :
    k % 2 = 1 ∧ ∀ m < k, (scanned text m).kind ≠ .endOfFile := by
  obtain ⟨hodd, hfits⟩ := h.fitsAt
  simp only [List.length_map, List.length_range] at hodd hfits
  refine ⟨hodd, fun m hm => ?_⟩
  have hfit := hfits m hm
  simp only [List.getElem_map, List.getElem_range] at hfit
  exact hfit.ne_endOfFile

/-- Another dot and another name. -/
theorem DottedName.range_dot {words : List String}
    (h : DottedName ((List.range k).map (scanned text)) words)
    (hdot : (scanned text k).kind = .punct .dot)
    (hname : (scanned text (k + 1)).kind.isName = true) :
    DottedName ((List.range (k + 2)).map (scanned text)) (words ++ [(scanned text (k + 1)).value]) := by
  have hrange : (List.range (k + 2)).map (scanned text)
      = (List.range k).map (scanned text) ++ [scanned text k, scanned text (k + 1)] := by
    simp [List.range_succ]
  rw [hrange]
  exact .dot h hdot hname

/-- Behind the dot with number `k`, or where that was noticed to be wrong. -/
def DotRead (text : Array Char) (left : NodeId) (s : ParserState) : Prop :=
  (∃ k words, Arrived text (k + 1) s ∧ (scanned text k).kind = .punct .dot
      ∧ DottedName ((List.range k).map (scanned text)) words ∧ s.forest.IsDottedName left words)
    ∨ Refuted text s

theorem NameSoFar.readDot {left : NodeId} (h : NameSoFar env.file.text left s)
    (hrun : Run env.file.text s (nextToken env s).2 []) (hdot : s.token.kind = .punct .dot) :
    DotRead env.file.text left (nextToken env s).2 := by
  rcases h with ⟨k, words, harrived, hname, hleft⟩ | hrefuted
  · have hkind : (scanned env.file.text k).kind = .punct .dot := harrived.token ▸ hdot
    obtain ⟨hodd, hbefore⟩ := hname.before
    have hread := harrived.read (t := (nextToken env s).2) (token_advance .scan env s)
      (log_advance .scan env s)
    rcases hread with hnext | ⟨hreported, hwrong⟩
    · exact .inl ⟨k, words, hnext, hkind, hname, hleft.keeps hrun.toGrows.forest⟩
    · refine .inr ⟨hreported, fun hspells => hwrong (hspells.next ?_).1⟩
      intro m hm
      rcases Nat.lt_succ_iff_lt_or_eq.mp hm with hm | rfl
      · exact hbefore m hm
      · rw [hkind]
        nofun
  · exact .inr (hrefuted.mono hrun.log_le)

/-- Behind the name after a dot. -/
theorem DotRead.readName {left : NodeId} (h : DotRead env.file.text left s)
    (hok : s.Ok env.file.text) :
    (nameAfterDot true).Ends env s fun right t => Named env.file.text s right t
      ∧ ((∃ k words word, Arrived env.file.text k t
            ∧ DottedName ((List.range k).map (scanned env.file.text)) (words ++ [word])
            ∧ t.forest.IsDottedName left words ∧ t.forest.IsIdentifier right word)
          ∨ Refuted env.file.text t) := by
  have hnamed := nameAfterDot_ends true hok
  rcases h with ⟨k, words, harrived, hdot, hname, hleft⟩ | hrefuted
  · refine (hnamed.and (nameAfterDot_read hok harrived)).mono fun right t ht => ⟨ht.1, ?_⟩
    obtain ⟨hrun, ⟨hword, hnext, hright⟩ | ⟨hreported, hwrong⟩⟩ := ht
    · exact .inl ⟨k + 2, words, _, hnext, hname.range_dot hdot hword,
        hleft.keeps hrun.run.toGrows.forest, hright⟩
    · obtain ⟨hodd, hbefore⟩ := hname.before
      refine .inr ⟨hreported, fun hspells => hwrong (hspells.nameAt (by omega) ?_)⟩
      intro m hm
      rcases Nat.lt_succ_iff_lt_or_eq.mp hm with hm | rfl
      · exact hbefore m hm
      · rw [hdot]
        nofun
  · exact hnamed.mono fun right t ht => ⟨ht, .inr (hrefuted.mono ht.run.log_le)⟩

theorem qualifiedRest_soFar {first : NodeId} (hrun : Run env.file.text r s [.node first])
    (h : NameSoFar env.file.text first s) :
    (qualifiedRest r.pos true first).Ends env s fun id t =>
      Run env.file.text r t [.node id] ∧ NameSoFar env.file.text id t
        ∧ t.token.kind ≠ .punct .dot := by
  refine (repeating_ends
    (P := fun left t => Run env.file.text r t [.node left] ∧ NameSoFar env.file.text left t)
    (Q := fun left t => Run env.file.text r t [.node left] ∧ NameSoFar env.file.text left t
      ∧ t.token.kind ≠ .punct .dot)
    ⟨hrun, h⟩ (fun _ _ h => h.1.ok.pos_le_size) ?_).mono fun _ _ h => h.1
  rintro left t ⟨hrun, h⟩
  by_cases hdot : t.token.kind = .punct .dot
  · have hskip := nextToken_ends hrun.ok (hdot ▸ nofun)
    refine (accept_reads hdot).bind ?_
    rintro _ u ⟨rfl, rfl⟩
    have hread := h.readDot hskip.toRun hdot
    refine (hread.readName hskip.ok).bind fun right v hv => ?_
    obtain ⟨hnamed, hsofar⟩ := hv
    have hparts : Run env.file.text r v ([Part.node left] ++ [Part.node right]) :=
      (hrun.before hskip.toRun).trans hnamed.run
    have hfinish : (finishProduction .qualifiedName r.pos (.qualifiedName left right)).Ends env v _ :=
      finishProduction_ends hparts rfl rfl rfl
    refine (hfinish.and (finish_shows _ env v)).bind fun id w hw => ?_
    obtain ⟨hfinished, hshows, hgains, hlog, htoken, -⟩ := hw
    have htook : t.pos < w.pos := by
      have hpos : w.pos = v.pos := congrArg Token.fullStart htoken
      rw [hpos]
      exact Nat.lt_of_lt_of_le hskip.took hnamed.run.forward
    refine ⟨⟨hfinished.run, ?_⟩, htook⟩
    rcases hsofar with ⟨k, words, word, harrived, hname, hleft, hright⟩ | hrefuted
    · have hlog := (congrArg DiagnosticLog.size hlog).trans harrived.unreported
      exact .inl ⟨k, _, ⟨htoken.trans harrived.token, hlog, harrived.clean⟩, hname,
        .dot (hleft.keeps hgains.toKeeps) (hright.keeps hgains.toKeeps) hshows⟩
    · exact .inr (hrefuted.mono (Nat.le_of_eq (congrArg DiagnosticLog.size hlog.symm)))
  · refine (accept_ends (k := .punct .dot) hrun.ok nofun).bind ?_
    rintro _ u (⟨-, hyes, -⟩ | ⟨rfl, -, rfl⟩)
    · exact absurd hyes hdot
    · exact ⟨⟨hrun, h, hdot⟩, Nat.le_refl _⟩

/-- The first token is free of errors, or that was noticed. -/
theorem firstToken_arrived (context : ContextFlags) :
    nextToken.Ends env (.initial context) fun _ t =>
      Arrived env.file.text 0 t ∨ Refuted env.file.text t := by
  have hread : ReadingMode.scan.read env.file.text (ParserState.initial context).token
      = (scanned env.file.text 0, scanErrors env.file.text 0) := by
    rw [scanned_eq]
    rfl
  have htoken := token_advance .scan env (.initial context)
  have hlog := log_advance .scan env (.initial context)
  rw [hread] at htoken hlog
  by_cases hclean : scanErrors env.file.text 0 = []
  · refine .inl ⟨htoken, ?_, fun m hm => ?_⟩
    · rw [nextToken, hlog, hclean]
      rfl
    · rw [Nat.le_zero.mp hm]
      exact hclean
  · refine .inr ⟨Nat.pos_of_ne_zero fun hzero => ?_, fun hspells => hclean (hspells.next (by simp)).1⟩
    rw [nextToken, hlog, DiagnosticLog.size_reportScans_eq_zero_iff] at hzero
    exact hclean hzero.2

theorem entityName_soFar (m : Message) (hok : s.Ok env.file.text)
    (h : Arrived env.file.text 0 s ∨ Refuted env.file.text s) :
    (entityName true m).Ends env s fun id t =>
      Run env.file.text s t [.node id] ∧ NameSoFar env.file.text id t
        ∧ t.token.kind ≠ .punct .dot := by
  refine .nodePos (.ite (fun _ => ?_) (by simp))
  have hnamed := nameOr_ends m hok
  have hfirst : (nameOr m).Ends env s fun first t =>
      Run env.file.text s t [.node first] ∧ NameSoFar env.file.text first t := by
    rcases h with harrived | hrefuted
    · refine (hnamed.and (nameOr_read m hok harrived)).mono fun first t ht => ⟨ht.1.1.run, ?_⟩
      obtain ⟨-, ⟨hword, hnext, hfirst⟩ | ⟨hreported, hwrong⟩⟩ := ht
      · exact .inl ⟨1, _, hnext, .name hword, .name hfirst⟩
      · exact .inr ⟨hreported, fun hspells => hwrong (hspells.nameAt rfl (by simp))⟩
    · exact hnamed.mono fun first t ht => ⟨ht.1.run, .inr (hrefuted.mono ht.1.run.log_le)⟩
  exact hfirst.bind fun first t ht => qualifiedRest_soFar ht.1 ht.2

/-- Where all has been well up to the end of the file, the text is the name; and if it is a name, all is
well and the end of the file has been reached. -/
theorem NameSoFar.spellsName_iff {id : NodeId} (h : NameSoFar text id s)
    (hdot : s.token.kind ≠ .punct .dot) :
    (s.token.kind = .endOfFile ∧ s.log.size = 0 ↔ SpellsName text)
      ∧ (SpellsName text → ∃ words, DottedName (tokenize text) words ∧ s.forest.IsDottedName id words) := by
  rcases h with ⟨k, words, harrived, hname, hid⟩ | hrefuted
  · obtain ⟨hodd, hbefore⟩ := hname.before
    rw [harrived.token] at hdot ⊢
    have hend : SpellsName text → (scanned text k).kind = .endOfFile := by
      intro hspells
      rcases (hspells.next hbefore).2 with ⟨-, hkind⟩ | hfits
      · exact hkind
      · have hplace : ¬k % 2 = 0 := by omega
        simp only [Kind.fitsAt, hplace, if_false] at hfits
        exact absurd hfits hdot
    constructor
    · constructor
      · rintro ⟨hkind, -⟩
        have hlast : LastToken text k := ⟨hbefore, hkind⟩
        exact hlast.spellsName_iff.mpr ⟨harrived.clean, words, hname⟩
      · intro hspells
        exact ⟨hend hspells, harrived.unreported⟩
    · intro hspells
      have hlast : LastToken text k := ⟨hbefore, hend hspells⟩
      exact ⟨words, hlast.tokens_eq.1 ▸ hname, hid⟩
  · constructor
    · constructor
      · rintro ⟨-, hzero⟩
        exact absurd hrefuted.reported (by omega)
      · intro hspells
        exact absurd hspells hrefuted.wrong
    · intro hspells
      exact absurd hspells hrefuted.wrong

theorem emptyRoot_ends (hok : s.Ok env.file.text) :
    (root (.empty 0)).Ends env s fun _ t => t.fault = none ∧ s.forest.Keeps t.forest := by
  refine (tokenNode_ends hok).bind fun endOfFile t ht => .read ?_
  have hat (n : Node) : (finishAt n).Ends env t fun _ u => u.fault = none ∧ s.forest.Keeps u.forest := by
    refine ⟨ht.run.ok.faultless, ht.run.toGrows.forest.trans ⟨?_, .refl _⟩⟩
    intro id m hm
    exact ⟨m, (Arena.grows_push t.arena _).get? hm, m.parent, rfl⟩
  exact hat _

/-- No failure occurs, and there is a result exactly if the text is a dotted name. The result is that
name. -/
theorem wholeName_ends (file : SourceFacts) (context : ContextFlags) :
    wholeName.Ends file.surroundings (.initial context) fun found t =>
      t.fault = none ∧ (found.isSome = true ↔ SpellsName file.text)
        ∧ ∀ root id, found = some (root, id) →
          ∃ words, DottedName (tokenize file.text) words ∧ t.forest.IsDottedName id words := by
  refine (Ends.and firstToken_ends (firstToken_arrived context)).bind fun _ s hs => ?_
  obtain ⟨hs, hfirst⟩ := hs
  refine (entityName_soFar _ hs.ok hfirst).bind fun id t ht => ?_
  obtain ⟨hrun, hsofar, hdot⟩ := ht
  obtain ⟨hiff, hname⟩ := hsofar.spellsName_iff hdot
  have hanswer : (t.token.kind == .endOfFile && t.log.isEmpty) = true ↔ SpellsName file.text := by
    refine Iff.trans ?_ hiff
    simp [DiagnosticLog.isEmpty, DiagnosticLog.size]
  refine .kind (.get (.ite (fun hyes => ?_) fun hno => ?_))
  · have hspells := hanswer.mp hyes
    obtain ⟨words, htokens, hid⟩ := hname hspells
    refine (emptyRoot_ends hrun.ok).bind fun root u hu => .pure ⟨hu.1, by simp [hspells], ?_⟩
    rintro _ _ ⟨⟩
    exact ⟨words, htokens, hid.keeps hu.2⟩
  · have hspells : ¬SpellsName file.text := by simp [← hanswer, hno]
    refine .pure ⟨hrun.ok.faultless, by simp [hspells], ?_⟩
    rintro _ _ ⟨⟩

/-! ## 5. The text -/

/-- A text parses as one name exactly if scanning it meets no error and its tokens are names with dots
between them. What it parses as is then that name. -/
theorem parseEntityName_isSome_iff (text : String) :
    let chars := (SourceText.ofString text).chars
    ((parseEntityName text).isSome = true ↔
        (∀ scanned ∈ scanTokens chars, scanned.2 = []) ∧ ∃ words, DottedName (tokenize chars) words)
      ∧ ∀ f id, parseEntityName text = some (f, id) →
        ∃ words, DottedName (tokenize chars) words ∧ f.forest.IsDottedName id words := by
  intro chars
  let kind := ParseOptions.bare.scriptKindFor "entity.ts"
  let file : SourceFacts := .ofText "entity.ts" (.ofString text) kind
  have hwhole : (_ ∧ _ ∧ _ : Prop) := wholeName_ends file kind.context
  obtain ⟨hfault, hiff, hname⟩ := hwhole
  have hparse : parseEntityName text
      = (wholeName.runOn file kind.context).1.map fun found =>
        (completeFile "entity.ts" (.ofString text) .bare found.1
          (wholeName.runOn file kind.context).2, found.2) := by
    have hfault : (wholeName.runOn file kind.context).2.fault = none := hfault
    unfold parseEntityName
    dsimp only
    rw [hfault]
    cases (wholeName.runOn file kind.context).1 <;> rfl
  rw [hparse]
  constructor
  · rw [Option.isSome_map]
    exact hiff
  · intro f id hsome
    obtain ⟨⟨root, id'⟩, hfound, heq⟩ := Option.map_eq_some_iff.mp hsome
    cases heq
    obtain ⟨words, htokens, hid⟩ := hname root _ hfound
    exact ⟨words, htokens, hid.keeps (keeps_completeFile _ _ _ _ _)⟩

end ScriptSyntax
