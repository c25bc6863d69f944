/-
  ScriptSyntax/Proofs/Grammar/Names.lean
  ======================================
  Identifiers, dotted names and the names of properties.

  A name takes the token, or it is missing and that has been reported: so a
  missing name is always accounted for.
-/
import ScriptSyntax.Proofs.Grammar.Calls
import ScriptSyntax.Proofs.Grammar.Endings

namespace ScriptSyntax

/-- A node for a name has been made. It took a token, or the name is missing and was reported. -/
structure Named (text : Array Char) (s : ParserState) (id : NodeId) (t : ParserState) : Prop where
  run : Run text s t [.node id]
  node : t.arena.Holds id .identifier s.pos t.pos []
  outcome : s.pos < t.pos ∨ (t.token = s.token ∧ 0 < t.log.size)

/-- If the node is missing, there is a report. -/
def Accounted (t : ParserState) (id : NodeId) : Prop :=
  ∃ n, t.arena.get? id = some n ∧ (n.isMissing = true → 0 < t.log.size)

theorem Named.accounted {text : Array Char} {s t : ParserState} {id : NodeId}
    (h : Named text s id t) : Accounted t id := by
  obtain ⟨n, hn, -, hpos, hstop, -⟩ := h.node
  refine ⟨n, hn, fun hmissing => ?_⟩
  rcases h.outcome with htook | ⟨-, hlog⟩
  · simp only [Node.isMissing, hpos, hstop, Bool.and_eq_true, beq_iff_eq] at hmissing
    omega
  · exact hlog

namespace Parser

variable {env : Surroundings} {rank : Nat} {took : Bool} {r s t : ParserState}

/-! ## 1. Identifiers -/

theorem answer_kind {α : Type} (f : Kind → Parser α) (env : Surroundings) (s : ParserState) :
    (kind >>= f).answer env s = (f s.token.kind).answer env s := rfl

theorem answer_isName : isName.answer env s = s.token.kind.isName := rfl

theorem ne_endOfFile_of_isName (h : s.token.kind.isName = true) : s.token.kind ≠ .endOfFile := by
  intro hkind
  rw [hkind] at h
  cases h

/-- What may be an identifier is a name. -/
theorem isName_of_isIdentifier (h : isIdentifier.answer env s = true) : s.token.kind.isName = true := by
  unfold isIdentifier at h
  rw [answer_kind] at h
  cases hkind : s.token.kind with
  | identifier => rfl
  | keyword k => rfl
  | _ =>
    rw [hkind] at h
    cases h

theorem identifierIf_ends {allowed : Bool} (m : Message) (h : s.Ok env.file.text)
    (hallowed : allowed = true → s.token.kind.isName = true) :
    (identifierIf allowed m).Ends env s fun id t =>
      Named env.file.text s id t ∧ (allowed = true → s.pos < t.pos) := by
  refine (countIdentifier_ends h).bind fun _ t ht => ?_
  have hpos : t.pos = s.pos := congrArg Token.fullStart ht.token
  refine .ite (fun hyes => .token ?_) fun hno => ?_
  · have hname := hallowed hyes
    rw [ht.token]
    have hintern : (intern s.token.value).Ends env t _ := intern_ends _ ht.ok
    refine (hintern.and (intern_enters _)).bind fun name u ⟨hu, henters⟩ => ?_
    have htoken : u.token = s.token := hu.token.trans ht.token
    rw [← htoken] at hname henters ⊢
    refine (become_ends hu.ok rfl rfl (.inr rfl) (by simp) fun _ _ heq => ?_).mono fun id v hv => ?_
    · cases heq
      exact ⟨hname, henters, rfl⟩
    have hpos : u.pos = s.pos := congrArg Token.fullStart htoken
    have htook : s.pos < v.pos := hpos ▸ hv.pos_lt hu.ok (ne_endOfFile_of_isName hname)
    exact ⟨⟨ht.toRun.after (hu.toRun.after hv.run), hpos ▸ hv.node, .inl htook⟩, fun _ => htook⟩
  · refine (missingHere_ends rfl m [] ht.ok).mono fun id u hu => ⟨?_, fun h => ?_⟩
    · exact ⟨ht.toRun.after hu.1.run, hpos ▸ hu.1.node, .inr ⟨hu.1.token.trans ht.token, hu.2⟩⟩
    · rw [hno] at h
      cases h

theorem identifierOr_ends (m : Message) (h : s.Ok env.file.text) :
    (identifierOr m).Ends env s fun id t =>
      Named env.file.text s id t ∧ (isIdentifier.answer env s = true → s.pos < t.pos) :=
  .ask (isIdentifier_inquires (o := true).asks h)
    (identifierIf_ends m h isName_of_isIdentifier)

theorem nameOr_ends (m : Message) (h : s.Ok env.file.text) :
    (nameOr m).Ends env s fun id t =>
      Named env.file.text s id t ∧ (s.token.kind.isName = true → s.pos < t.pos) :=
  .ask (isName_inquires (o := true).asks h) (identifierIf_ends m h id)

theorem identifierOr_gives (m : Message) (h : s.Ok env.file.text) :
    (identifierOr m).Gives env false s s :=
  (identifierOr_ends m h).mono fun _ _ ht => ht.1.run.handed

theorem identifier_gives (h : s.Ok env.file.text) : identifier.Gives env false s s :=
  identifierOr_gives _ h

theorem identifier_takes (h : s.Ok env.file.text) (hyes : isIdentifier.answer env s = true) :
    identifier.Gives env true s s :=
  (identifierOr_ends _ h).mono fun _ _ ht => ht.1.run.handedTook (ht.2 hyes)

theorem name_gives (h : s.Ok env.file.text) : name.Gives env false s s :=
  (nameOr_ends _ h).mono fun _ _ ht => ht.1.run.handed

theorem name_takes (h : s.Ok env.file.text) (hkind : s.token.kind.isName = true) :
    name.Gives env true s s :=
  (nameOr_ends _ h).mono fun _ _ ht => ht.1.run.handedTook (ht.2 hkind)

theorem optionalIdentifier_gives (h : s.Ok env.file.text) :
    optionalIdentifier.Gives env false s s := by
  refine .ask (isIdentifier_inquires (o := true).asks h) (.ite (fun _ => ?_) fun _ => ?_)
  · exact (identifier_gives h).bind fun _ _ ht => ht
  · exact (Run.refl h).handed

/-! ## 2. Dotted names -/

theorem nameAfterDot_ends (keywords : Bool) (h : s.Ok env.file.text) :
    (nameAfterDot keywords).Ends env s fun id t => Named env.file.text s id t := by
  have hasks : (afterLineBreak <&&> isName <&&> peek nameAfterDot.isNameOnSameLine).Asks env s :=
    (Inquires.afterLineBreak (o := true).and (isName_inquires.and
      (.peek (Inquires.onSameLine isName_inquires).toScouts))).asks h
  refine .ask hasks (.ite (fun _ => ?_) fun _ => .ite (fun _ => ?_) fun _ => ?_)
  · exact (missingBefore_ends rfl _ _ h).mono fun id t ht =>
      ⟨ht.1.run, ht.1.node, .inr ⟨ht.1.token, ht.2⟩⟩
  · exact (nameOr_ends _ h).mono fun _ _ ht => ht.1
  · exact (identifierOr_ends _ h).mono fun _ _ ht => ht.1

theorem nameAfterDot_gives (keywords : Bool) (h : s.Ok env.file.text) :
    (nameAfterDot keywords).Gives env false s s :=
  (nameAfterDot_ends keywords h).mono fun _ _ ht => ht.run.handed

theorem qualifiedRest_ends {first : NodeId} (keywords : Bool)
    (g : Sofar env rank took r s s [.node first]) (hfirst : Accounted s first) :
    (qualifiedRest r.pos keywords first).Ends env s fun id t =>
      Handed env.file.text took r s t [.node id] ∧ Accounted t id := by
  let inv id t := Sofar env rank took r s t [.node id] ∧ Accounted t id
  refine (repeating_ends (P := inv) (Q := inv) ⟨g, hfirst⟩ (fun _ _ h => h.1.ready.ok.pos_le_size)
    fun left t ⟨g, hleft⟩ => ?_).mono fun id t h => ⟨h.1.1.toHanded, h.1.2⟩
  refine g.mark.acceptPunct (fun u _ g' => ?_) fun _ => ⟨⟨g, hleft⟩, Nat.le_refl _⟩
  refine g'.step (nameAfterDot_gives keywords g'.ready.ok) fun right v g' => ?_
  refine (finishProduction_ends g'.run rfl rfl rfl).bind fun id w hw => ?_
  have hdone := g'.finished hw
  obtain ⟨n, hn, -, hstart, hstop, -⟩ := hw.node
  refine ⟨⟨g.resume hdone, n, hn, fun hmissing => ?_⟩, hdone.ahead rfl⟩
  have := g.run.forward
  have := hdone.ahead rfl
  simp only [Node.isMissing, hstart, hstop, Bool.and_eq_true, beq_iff_eq] at hmissing
  omega

theorem entityName_ends (keywords : Bool) (m : Message) (h : env.Ready rank s) :
    (entityName keywords m).Ends env s fun id t =>
      Handed env.file.text false s s t [.node id] ∧ Accounted t id := by
  refine .nodePos ?_
  have hrest (first : NodeId) (t : ParserState) (ht : Named env.file.text s first t) :
      (qualifiedRest s.pos keywords first).Ends env t fun id u =>
        Handed env.file.text false s s u [.node id] ∧ Accounted u id := by
    have g : Sofar env rank false s s t [.node first] := (Sofar.start h).go ht.run
    refine (qualifiedRest_ends keywords g.mark ht.accounted).mono fun id u hu => ⟨?_, hu.2⟩
    exact (g.resume hu.1).toHanded
  refine .ite (fun _ => ?_) fun _ => ?_
  · exact (nameOr_ends m h.ok).bind fun first t ht => hrest first t ht.1
  · exact (identifierOr_ends m h.ok).bind fun first t ht => hrest first t ht.1

theorem entityName_gives (keywords : Bool) (m : Message) (h : env.Ready rank s) :
    (entityName keywords m).Gives env false s s :=
  (entityName_ends keywords m h).mono fun _ _ ht => ht.1

/-! ## 3. Names of properties -/

theorem computedName_takes (h : env.Ready rank s) (hkind : s.token.kind = .punct .openBracket) :
    computedName.Gives env true s s := by
  refine .nodePos ((Sofar.start h).stepTook (expectPunct_takes h.ok hkind) fun _ t g => ?_)
  refine g.step (parseIn_gives .expression g.ready (by decide) trivial) fun inner t g => ?_
  refine g.step (expectPunct_gives _ g.ready.ok) fun _ t g => ?_
  exact g.finishProduction rfl (by simp [Payload.fields]) rfl

/-- The name of a property may be a string, a number, a word, or in brackets. -/
def startsPropertyName (k : Kind) : Bool :=
  k.isName || k.isPropertyLiteral || k == .punct .openBracket

/-- The name of a property takes a token where one starts. -/
theorem propertyName_ends (h : env.Ready rank s) :
    propertyName.Gives env (startsPropertyName s.token.kind) s s := by
  refine .kind ?_
  split
  · exact (literalNode_takes h.ok (by simp [*])).loosen
  · exact (literalNode_takes h.ok (by simp [*])).loosen
  · exact (computedName_takes h ‹_›).loosen
  · refine (nameOr_ends _ h.ok).mono fun id t ht => ⟨ht.1.run, ht.1.run.forward, fun hstarts => ?_⟩
    exact ht.2 (by grind [startsPropertyName, Kind.isPropertyLiteral])

theorem computedName_covers : computedName.CoversAll :=
  .nodePos fun _ => .bind fun _ => .bind fun _ => .bind fun _ => finishProduction_covers _ _ _

/-- Where the name of a property starts, the name is not missing. -/
theorem propertyName_present (h : env.Ready rank s)
    (hstarts : startsPropertyName s.token.kind = true) :
    propertyName.Ends env s fun id t => ∃ n, t.arena.get? id = some n ∧ n.isMissing = false := by
  have hpresent {id : NodeId} {t : ParserState} {n : Node} (hn : t.arena.get? id = some n)
      (hroom : n.pos < n.stop) : ∃ n, t.arena.get? id = some n ∧ n.isMissing = false := by
    refine ⟨n, hn, ?_⟩
    simp [Node.isMissing, Nat.ne_of_lt hroom]
  have hliteral (hkind : s.token.kind ≠ .endOfFile) : literalNode.Ends env s
      fun id t => ∃ n, t.arena.get? id = some n ∧ n.isMissing = false := by
    refine (literalNode_ends h.ok).mono fun id t ht => ?_
    obtain ⟨n, hn, -, hpos, hstop, -⟩ := ht.node
    exact hpresent hn (by rw [hpos, hstop]; exact ht.pos_lt h.ok hkind)
  refine .kind ?_
  split
  · exact hliteral (by simp [*])
  · exact hliteral (by simp [*])
  · refine (Ends.and (computedName_takes h ‹_›) (computedName_covers env s)).mono fun id t ht => ?_
    obtain ⟨htook, n, hn, hpos, hstop, -⟩ := ht
    exact hpresent hn (hpos ▸ Nat.lt_of_lt_of_le (htook.ahead rfl) hstop)
  · refine (nameOr_ends _ h.ok).mono fun id t ht => ?_
    obtain ⟨n, hn, -, hpos, hstop, -⟩ := ht.1.node
    refine hpresent hn ?_
    rw [hpos, hstop]
    exact ht.2 (by grind [startsPropertyName, Kind.isPropertyLiteral])

theorem propertyName_gives (h : env.Ready rank s) : propertyName.Gives env false s s :=
  (propertyName_ends h).weaken

end Parser

end ScriptSyntax
