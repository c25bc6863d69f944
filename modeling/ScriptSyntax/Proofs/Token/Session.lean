/-
  ScriptSyntax/Proofs/Token/Session.lean
  ======================================
  What the users of a scanner may do with it, in any order.

  They read, move, set marks and come back to them, and run trials that do all of this in turn.
  Whatever they did, the current token lies in the text, and so does every token that a mark
  remembers.  Coming back to a mark gives the scanner as it was, provided that the queue has not
  been cut below the mark meanwhile.
-/
import ScriptSyntax.Proofs.Token.Bounds

namespace ScriptSyntax

/-- A scanner, and the marks that have been set. -/
structure Session where
  scanner : Scanner
  saved : List Scanner.Mark := []

namespace Session

/-- The second session comes from the first one by operations of a scanner.

No mark is come back to that has fewer than `floor` errors in the queue.  A `quiet` use neither takes
errors out of the queue nor sets a listener.  What runs within a trial is a use itself, and the marks
that it sets stay. -/
inductive Uses (quiet : Bool) (floor : Nat) : Session → Session → Prop
  | none (p : Session) : Uses quiet floor p p
  | read {p q : Session} (mode : ReadingMode) (before : Uses quiet floor p q)
      (fits : mode.FitsToken q.scanner.token) :
      Uses quiet floor p ⟨(q.scanner.read mode).1, q.saved⟩
  | moveTo {p q : Session} (pos : Nat) (before : Uses quiet floor p q) :
      Uses quiet floor p ⟨q.scanner.moveTo pos, q.saved⟩
  | save {p q : Session} (before : Uses quiet floor p q) :
      Uses quiet floor p ⟨q.scanner, q.scanner.mark :: q.saved⟩
  | restore {p q : Session} (m : Scanner.Mark) (before : Uses quiet floor p q)
      (known : m ∈ q.saved) (above : floor ≤ m.queued) :
      Uses quiet floor p ⟨q.scanner.restore m, q.saved⟩
  | takeErrors {p q : Session} (before : Uses quiet floor p q) (loud : quiet = false) :
      Uses quiet floor p ⟨q.scanner.takeErrors.1, q.saved⟩
  | listen {p q : Session} (on : Bool) (before : Uses quiet floor p q) (loud : quiet = false) :
      Uses quiet floor p ⟨{ q.scanner with listening := on }, q.saved⟩
  | lookAhead {p q : Session} {α : Type} (f : Scanner → Scanner × α) (marks : List Scanner.Mark)
      (before : Uses quiet floor p q) (inside : Uses quiet floor q ⟨(f q.scanner).1, marks⟩) :
      Uses quiet floor p ⟨(q.scanner.lookAhead f).1, marks⟩
  | attempt {p q : Session} {α : Type} (keep : Scanner → Bool) (f : Scanner → Scanner × α)
      (marks : List Scanner.Mark) (before : Uses quiet floor p q)
      (inside : Uses quiet floor q ⟨(f q.scanner).1, marks⟩) :
      Uses quiet floor p ⟨(q.scanner.attempt keep f).1, marks⟩

variable {quiet : Bool} {floor : Nat} {text : Array Char} {p q r : Session}

/-- What is done within a trial is done from the start too. -/
theorem Uses.trans (hpq : Uses quiet floor p q) (hqr : Uses quiet floor q r) :
    Uses quiet floor p r := by
  induction hqr with
  | none => exact hpq
  | read mode _ fits ih => exact (ih hpq).read mode fits
  | moveTo pos _ ih => exact (ih hpq).moveTo pos
  | save _ ih => exact (ih hpq).save
  | restore m _ known above ih => exact (ih hpq).restore m known above
  | takeErrors _ loud ih => exact (ih hpq).takeErrors loud
  | listen on _ loud ih => exact (ih hpq).listen on loud
  | lookAhead f marks _ inside ih _ => exact (ih hpq).lookAhead f marks inside
  | attempt keep f marks _ inside ih _ => exact (ih hpq).attempt keep f marks inside

end Session

/-! ## 1. Tokens that a scanner may be at -/

/-- The token has been read from the text, or nothing has been read yet at its place. -/
def Token.Stands (text : Array Char) (t : Token) : Prop :=
  t.InText text ∨ ∃ pos ≤ text.size, t = Token.before pos

namespace Token.Stands

variable {text : Array Char} {t : Token}

theorem fullStart_le (h : t.Stands text) : t.fullStart ≤ t.start := by
  rcases h with h | ⟨pos, _, rfl⟩
  · exact h.fullStart_le
  · exact Nat.le_refl pos

theorem start_le (h : t.Stands text) : t.start ≤ t.stop := by
  rcases h with h | ⟨pos, _, rfl⟩
  · exact h.start_le
  · exact Nat.le_refl pos

theorem stop_le (h : t.Stands text) : t.stop ≤ text.size := by
  rcases h with h | ⟨pos, hpos, rfl⟩
  · exact h.stop_le
  · exact hpos

/-- Where nothing has been read yet, a token that would be read again stays as it is. -/
theorem read (mode : ReadingMode) (h : t.Stands text) (hfits : mode.FitsToken t) :
    (mode.read text t).1.Stands text := by
  rcases h with h | ⟨pos, hpos, rfl⟩
  · exact .inl (ReadingMode.read_inText mode h hfits.kind_ne).token
  · cases mode with
    | scan => exact .inl (scanAt_inText hpos).token
    | scanJsx => exact .inl (scanJsxAt_inText hpos).token
    | scanJsxAttributeValue => exact .inl (nextJsxAttributeValue_inText hpos).token
    | rescanJsx => exact .inl (scanJsxAt_inText hpos).token
    | rescanTemplate => nomatch hfits rfl
    | _ => exact .inr ⟨pos, hpos, rfl⟩

end Token.Stands

namespace Session

variable {quiet : Bool} {floor : Nat} {text : Array Char} {p q r : Session}

/-- The current token and all tokens that are remembered have been read from the text. -/
structure Stands (text : Array Char) (q : Session) : Prop where
  text_eq : q.scanner.text = text
  token : q.scanner.token.Stands text
  saved : ∀ m ∈ q.saved, m.token.Stands text

theorem stands_ofText (text : Array Char) : Stands text ⟨.ofText text, []⟩ where
  text_eq := rfl
  token := .inr ⟨0, Nat.zero_le _, rfl⟩
  saved _ hm := absurd hm List.not_mem_nil

/-- Coming back to a mark leaves the text and the marks as they are. -/
theorem Stands.restore {m : Scanner.Mark} (h : q.Stands text) (hm : m.token.Stands text) :
    Stands text ⟨q.scanner.restore m, q.saved⟩ where
  text_eq := h.text_eq
  token := hm
  saved := h.saved

theorem Uses.stands (h : Uses quiet floor p q) (hp : p.Stands text) : q.Stands text := by
  induction h with
  | none => exact hp
  | @read p q mode _ fits ih =>
    have hq := ih hp
    constructor
    · simpa using hq.text_eq
    · have hread := hq.token.read mode fits
      simpa [hq.text_eq] using hread
    · exact hq.saved
  | moveTo pos _ ih =>
    have hq := ih hp
    refine ⟨hq.text_eq, .inr ⟨_, ?_, rfl⟩, hq.saved⟩
    rw [hq.text_eq]
    exact Nat.min_le_right _ _
  | save _ ih =>
    have hq := ih hp
    refine ⟨hq.text_eq, hq.token, ?_⟩
    intro m hm
    rcases List.mem_cons.mp hm with rfl | hm
    · exact hq.token
    · exact hq.saved m hm
  | restore m _ known _ ih => exact (ih hp).restore ((ih hp).saved m known)
  | takeErrors _ _ ih => exact ⟨(ih hp).text_eq, (ih hp).token, (ih hp).saved⟩
  | listen _ _ _ ih => exact ⟨(ih hp).text_eq, (ih hp).token, (ih hp).saved⟩
  | lookAhead f marks _ _ ih ihInside => exact (ihInside (ih hp)).restore (ih hp).token
  | @attempt p q α keep f marks _ _ ih ihInside =>
    have hinside := ihInside (ih hp)
    cases hkeep : keep (f q.scanner).1 with
    | true => simpa [Scanner.attempt, hkeep] using hinside
    | false => simpa [Scanner.attempt, hkeep] using hinside.restore (m := q.scanner.mark) (ih hp).token

/-! ## 2. Errors below a mark -/

/-- The first errors in the queue, up to the given number, are still those that the first session had
there. -/
structure Keeps (floor : Nat) (p q : Session) : Prop where
  text_eq : q.scanner.text = p.scanner.text
  quiet : q.scanner.listening = false
  enough : floor ≤ q.scanner.queue.length
  same : q.scanner.queue.take floor = p.scanner.queue.take floor

theorem Keeps.trans (hpq : Keeps floor p q) (hqr : Keeps floor q r) : Keeps floor p r where
  text_eq := hqr.text_eq.trans hpq.text_eq
  quiet := hqr.quiet
  enough := hqr.enough
  same := hqr.same.trans hpq.same

/-- A mark above the floor cuts nothing off below it. -/
theorem Keeps.restore {m : Scanner.Mark} {saved : List Scanner.Mark} (h : Keeps floor p q)
    (hm : floor ≤ m.queued) : Keeps floor p ⟨q.scanner.restore m, saved⟩ where
  text_eq := h.text_eq
  quiet := h.quiet
  enough := by
    rw [Scanner.restore, List.length_take]
    exact Nat.le_min.mpr ⟨hm, h.enough⟩
  same := by
    rw [Scanner.restore, List.take_take, Nat.min_eq_left hm]
    exact h.same

theorem Uses.keeps (h : Uses true floor p q) (hquiet : p.scanner.listening = false)
    (hfloor : floor ≤ p.scanner.queue.length) : Keeps floor p q := by
  induction h with
  | none => exact ⟨rfl, hquiet, hfloor, rfl⟩
  | read mode _ _ ih =>
    have hq := ih hquiet hfloor
    constructor
    · simpa using hq.text_eq
    · simpa using hq.quiet
    · rw [Scanner.queue_read _ _ hq.quiet, List.length_append]
      exact Nat.le_add_right_of_le hq.enough
    · rw [Scanner.queue_read _ _ hq.quiet, List.take_append_of_le_length hq.enough]
      exact hq.same
  | moveTo pos _ ih =>
    have hq := ih hquiet hfloor
    exact ⟨hq.text_eq, hq.quiet, hq.enough, hq.same⟩
  | save _ ih =>
    have hq := ih hquiet hfloor
    exact ⟨hq.text_eq, hq.quiet, hq.enough, hq.same⟩
  | restore m _ _ above ih => exact (ih hquiet hfloor).restore above
  | takeErrors _ loud => exact absurd loud nofun
  | listen on _ loud => exact absurd loud nofun
  | lookAhead f marks _ _ ih ihInside =>
    have hq := ih hquiet hfloor
    have hinside := ihInside hq.quiet hq.enough
    exact (hq.trans hinside).restore hq.enough
  | @attempt p q α keep f marks _ _ ih ihInside =>
    have hq := ih hquiet hfloor
    have hinside := hq.trans (ihInside hq.quiet hq.enough)
    cases hkeep : keep (f q.scanner).1 with
    | true => simpa [Scanner.attempt, hkeep] using hinside
    | false =>
      have hback : Keeps floor p ⟨(f q.scanner).1.restore q.scanner.mark, marks⟩ :=
        hinside.restore hq.enough
      simpa [Scanner.attempt, hkeep] using hback

/-- Coming back gives the scanner as it was when the mark was set. -/
theorem Uses.restore_mark (h : Uses true p.scanner.queue.length p q)
    (hquiet : p.scanner.listening = false) : q.scanner.restore p.scanner.mark = p.scanner := by
  have hkeeps := h.keeps hquiet (Nat.le_refl _)
  have hqueue : q.scanner.queue.take p.scanner.queue.length = p.scanner.queue := by
    rw [hkeeps.same, List.take_length]
  have hlistening : q.scanner.listening = p.scanner.listening := hkeeps.quiet.trans hquiet.symm
  simp only [Scanner.restore, Scanner.mark, hkeeps.text_eq, hlistening, hqueue]

/-! ## 3. Any use from the start -/

/-- Whatever has been done with a scanner, its token lies in the text, in order.  And a mark brings
the scanner back as it was, if the queue has been left alone below the mark. -/
theorem uses_sound (h : Uses false 0 ⟨.ofText text, []⟩ q) :
    (q.scanner.text = text
      ∧ q.scanner.token.fullStart ≤ q.scanner.token.start
      ∧ q.scanner.token.start ≤ q.scanner.token.stop
      ∧ q.scanner.token.stop ≤ text.size
      ∧ (q.scanner.token.source text).length = q.scanner.token.stop - q.scanner.token.start)
    ∧ (∀ r, Uses false 0 q r → (r.scanner.restore q.scanner.mark).text = text
      ∧ (r.scanner.restore q.scanner.mark).token = q.scanner.token)
    ∧ (q.scanner.listening = false → ∀ r, Uses true q.scanner.queue.length q r →
      r.scanner.restore q.scanner.mark = q.scanner) := by
  have hq := h.stands (stands_ofText text)
  refine ⟨⟨hq.text_eq, hq.token.fullStart_le, hq.token.start_le, hq.token.stop_le, ?_⟩, ?_, ?_⟩
  · exact length_sliceOf hq.token.stop_le
  · intro r hr
    exact ⟨(hr.stands hq).text_eq, rfl⟩
  · intro hquiet r hr
    exact hr.restore_mark hquiet

/-- A character that starts no token is read twice, and then the second time is undone. -/
theorem uses_sound_readTwice :
    let once : Session := ⟨((Scanner.ofText #['\x01']).read .scan).1, []⟩
    let twice : Session := ⟨((once.scanner.moveTo 0).read .scan).1, []⟩
    once.scanner.token.stop = 1 ∧ (once.scanner.token.source #['\x01']).length = 1
      ∧ once.scanner.queue.length = 1 ∧ twice.scanner.queue.length = 2
      ∧ twice.scanner.restore once.scanner.mark = once.scanner := by
  intro once twice
  have honce : Uses false 0 ⟨.ofText #['\x01'], []⟩ once := .read .scan (.none _) nofun
  have htwice : Uses true once.scanner.queue.length once twice :=
    .read .scan (.moveTo 0 (.none _)) nofun
  obtain ⟨⟨_, _, _, _, hsource⟩, _, hback⟩ := uses_sound honce
  have hplace : once.scanner.token.start = 0 ∧ once.scanner.token.stop = 1 := by decide +kernel
  refine ⟨hplace.2, ?_, by decide +kernel, by decide +kernel, hback (by decide +kernel) twice htwice⟩
  rw [hsource, hplace.1, hplace.2]

/-- Errors that have been cut off below a mark do not come back with it. -/
theorem restore_mark_cut :
    ∃ q r : Session, Uses true 0 ⟨.ofText #['\x01'], []⟩ q ∧ Uses true 0 q r
      ∧ q.scanner.listening = false
      ∧ (r.scanner.restore q.scanner.mark).mark ≠ q.scanner.mark
      ∧ (r.scanner.restore q.scanner.mark).queue ≠ q.scanner.queue := by
  let start := Scanner.ofText #['\x01']
  let q : Session := ⟨(start.read .scan).1, [start.mark]⟩
  have hq : Uses true 0 ⟨start, []⟩ q := .read .scan (.save (.none _)) nofun
  have hr : Uses true 0 q ⟨q.scanner.restore start.mark, q.saved⟩ :=
    .restore start.mark (.none q) List.mem_cons_self (Nat.zero_le _)
  exact ⟨q, _, hq, hr, by decide +kernel, by decide +kernel, by decide +kernel⟩

end Session

end ScriptSyntax
