import TailscaleDart.Fd.Transport

/-!
# Fd.Waiting — a transport whose writes are made one at a time

A caller that awaits each write before the next finds the transport `Idle`: open, nothing is pending. After
a write it `Waits` for one entry, and no event but the acknowledgement of that entry, or the end of the
transport, changes that. A transport that is `Dead` takes no write any more.
-/

namespace TailscaleDart.Fd.PosixFdTransport

def Idle (t : PosixFdTransport) : Prop :=
  t.closed = false → t.writeCompletions = [] ∧ t.pendingWriteBytes = 0

/-- The entry of `id` is pending alone, or was acknowledged. -/
def Waits (id byteCount : Nat) (t : PosixFdTransport) : Prop :=
  t.closed = false →
    t.writeCompletions = [⟨id, byteCount⟩] ∧ t.pendingWriteBytes = byteCount ∧ t.futures id = some .pending ∨
      t.writeCompletions = [] ∧ t.pendingWriteBytes = 0 ∧ t.futures id = some .value

def Dead (t : PosixFdTransport) : Prop := t.closed = true ∨ t.writeFinished = true

/-- The table, the account and the futures of a transport that stays open are left alone. -/
structure Quietly (t t' : PosixFdTransport) : Prop where
  config : t'.config = t.config
  dead : t.Dead → t'.Dead
  terminal : t.closed = true → t'.closed = true
  same : t'.closed = false →
    t'.writeCompletions = t.writeCompletions ∧ t'.pendingWriteBytes = t.pendingWriteBytes ∧ t'.futures = t.futures

theorem Quietly.refl (t : PosixFdTransport) : Quietly t t := ⟨rfl, id, id, fun _ => ⟨rfl, rfl, rfl⟩⟩

theorem Quietly.trans {t1 t2 t3 : PosixFdTransport} (h : Quietly t1 t2) (g : Quietly t2 t3) : Quietly t1 t3 where
  config := g.config.trans h.config
  dead := fun hd => g.dead (h.dead hd)
  terminal := fun hc => g.terminal (h.terminal hc)
  same := by
    intro hopen
    have hmid : t2.closed = false := by
      by_contra hne
      have := g.terminal (by simpa using hne)
      rw [hopen] at this
      cases this
    obtain ⟨htable, haccount, hfutures⟩ := g.same hopen
    obtain ⟨htable', haccount', hfutures'⟩ := h.same hmid
    exact ⟨htable.trans htable', haccount.trans haccount', hfutures.trans hfutures'⟩

variable {t : PosixFdTransport}

theorem Quietly.closed {t' : PosixFdTransport} (hconfig : t'.config = t.config) (hclosed : t'.closed = true) :
    Quietly t t' := by
  refine ⟨hconfig, fun _ => .inl hclosed, fun _ => hclosed, ?_⟩
  intro hopen
  rw [hclosed] at hopen
  cases hopen

theorem Quietly.teardown {u : PosixFdTransport} (hconfig : u.config = t.config)
    (doneError pendingWriteError : Option String) (closeInput : Bool) :
    Quietly t (u.teardown doneError pendingWriteError closeInput) := by
  obtain ⟨hclosed, hsame, -⟩ := teardown_terminal u doneError pendingWriteError closeInput
  exact .closed (hsame.trans hconfig) hclosed

theorem Quietly.post (t : PosixFdTransport) (command : Command) (result : SendResult) :
    Quietly t (t.post command result) := by
  rw [post_eq]
  exact ⟨rfl, id, id, fun _ => ⟨rfl, rfl, rfl⟩⟩

/-- A call that neither writes nor half-closes. -/
def Call.IsQuiet : Call → Prop
  | .write _ _ | .closeWrite _ => False
  | _ => True

variable {P : Call → Prop} {Q : Event → Prop} {posted : List Command} {results : List SendResult}
    {t' : PosixFdTransport}

theorem Quietly.move (hP : ∀ c, P c → c.IsQuiet) (hQ : ∀ id, ¬ Q (.writeOk id)) (hmove : Move P Q t t' posted results) :
    Quietly t t' := by
  cases hmove with
  | input | eof => exact ⟨rfl, id, id, fun _ => ⟨rfl, rfl, rfl⟩⟩
  | reading on =>
    have henabled : Quietly t { t with readEnabled := on } := ⟨rfl, id, id, fun _ => ⟨rfl, rfl, rfl⟩⟩
    exact henabled.trans (.post _ _ _)
  | credit => exact .post _ _ _
  | admitted hc _ _ hadmits | refused hc _ _ hadmits => cases hadmits <;> exact (hP _ hc).elim
  | failed | finished | ended => exact .teardown rfl _ _ _
  | dropped =>
    apply Quietly.teardown
    rfl
  | close =>
    rw [post_eq]
    apply Quietly.teardown
    rfl
  | acknowledged _ h => exact absurd h (hQ _)

theorem Quietly.moves (hP : ∀ c, P c → c.IsQuiet) (hQ : ∀ id, ¬ Q (.writeOk id)) (h : Moves P Q t t' posted results) :
    Quietly t t' :=
  h.related (R := fun t t' _ _ => Quietly t t') (fun t _ => .refl t) .trans (.move hP hQ)

theorem Quietly.maybeCompleteDone (t : PosixFdTransport) : Quietly t t.maybeCompleteDone :=
  .moves (fun _ => id) (fun _ => nofun) (moves_maybeCompleteDone (P := Call.IsQuiet) (Q := (· = .eof)) (.inl rfl) t [])

theorem Quietly.call {c : Call} (hc : c.IsQuiet) : Quietly t (c.run t) := by
  obtain ⟨_, hmoves⟩ := moves_call (P := Call.IsQuiet) (Q := fun _ => False) hc t
  exact .moves (fun _ => id) (fun _ => id) hmoves

variable {r : Reaction}

theorem Quietly.handleReactorEvent {event : Event} (hevent : ∀ id, event ≠ .writeOk id) (hr : ∀ c ∈ r, c.IsQuiet)
    (ack enable : SendResult) (t : PosixFdTransport) : Quietly t (t.handleReactorEvent event r ack enable) := by
  obtain ⟨_, hmoves⟩ := moves_event (Q := fun event => ∀ id, event ≠ .writeOk id) hevent hr ack enable t
  exact .moves (fun _ => id) (fun id h => h id rfl) hmoves

/-! ## Idle and waiting transports -/

theorem Idle.quietly {t' : PosixFdTransport} (h : t.Idle) (q : Quietly t t') : t'.Idle := by
  intro hopen
  obtain ⟨htable, haccount, -⟩ := q.same hopen
  rw [htable, haccount]
  apply h
  by_contra hne
  have := q.terminal (by simpa using hne)
  rw [hopen] at this
  cases this

variable {byteCount id : Nat}

theorem Waits.quietly {t' : PosixFdTransport} (h : t.Waits id byteCount) (q : Quietly t t') :
    t'.Waits id byteCount := by
  intro hopen
  obtain ⟨htable, haccount, hfutures⟩ := q.same hopen
  rw [htable, haccount, hfutures]
  apply h
  by_contra hne
  have := q.terminal (by simpa using hne)
  rw [hopen] at this
  cases this

theorem writeAcknowledged_absent (h : ∀ e ∈ t.writeCompletions, e.id ≠ id) : t.writeAcknowledged id = t := by
  have hfind : t.writeCompletions.find? (·.id = id) = none :=
    List.find?_eq_none.mpr fun e he => by simpa using h e he
  unfold writeAcknowledged
  rw [hfind]

/-- The acknowledgement of the one entry that is pending: it is completed, and nothing is pending. -/
theorem writeAcknowledged_alone
    (htable : t.writeCompletions = [⟨id, byteCount⟩]) (haccount : t.pendingWriteBytes = byteCount) :
    ∃ u : PosixFdTransport, u.writeCompletions = [] ∧ u.pendingWriteBytes = 0 ∧ u.futures id = some .value ∧
      u.config = t.config ∧ u.closed = t.closed ∧ (t.writeFinished = true → u.writeFinished = true) ∧
      (0 < byteCount → u.writeFinished = t.writeFinished) ∧
      (t.writeAcknowledged id = u ∨ byteCount = 0 ∧ t.writeAcknowledged id = u.maybeCompleteDone) := by
  have hfind : t.writeCompletions.find? (·.id = id) = some ⟨id, byteCount⟩ := by simp [htable]
  unfold writeAcknowledged
  rw [hfind]
  have hempty : (t.remove ⟨id, byteCount⟩).writeCompletions = [] := by simp [remove, htable]
  have hzero : (t.remove ⟨id, byteCount⟩).pendingWriteBytes = 0 := by simp [remove, haccount]
  by_cases hbytes : byteCount = 0
  · refine ⟨{ (t.remove ⟨id, byteCount⟩).complete id .value with writeFinished := true }, hempty, hzero, ?_, rfl, rfl,
      fun _ => rfl, ?_, .inr ⟨hbytes, ?_⟩⟩
    · simp [complete]
    · intro hpos
      omega
    · simp only [if_pos hbytes]
  · refine ⟨(t.remove ⟨id, byteCount⟩).complete id .value, hempty, hzero, ?_, rfl, rfl, fun h => h, fun _ => rfl,
      .inl ?_⟩
    · simp [complete]
    · simp only [if_neg hbytes]

/-- An event acknowledges a write of an open transport, or leaves the writes alone. -/
theorem handleReactorEvent_keeps {P : PosixFdTransport → Prop} (hsame : P t) (hquiet : ∀ {u}, Quietly t u → P u)
    (hack : t.closed = false → ∀ id, P (t.writeAcknowledged id)) (event : Event) (hr : ∀ c ∈ r, c.IsQuiet)
    (ack enable : SendResult) : P (t.handleReactorEvent event r ack enable) := by
  by_cases hwrite : ∃ id, event = .writeOk id
  · obtain ⟨id, rfl⟩ := hwrite
    unfold PosixFdTransport.handleReactorEvent
    split
    · exact hsame
    next hopen => exact hack (by simpa using hopen) id
  · exact hquiet (.handleReactorEvent (fun id heq => hwrite ⟨id, heq⟩) hr ack enable t)

theorem Idle.handleReactorEvent (h : t.Idle) (event : Event)
    (hr : ∀ c ∈ r, c.IsQuiet) (ack enable : SendResult) : (t.handleReactorEvent event r ack enable).Idle := by
  refine handleReactorEvent_keeps h h.quietly (fun hopen id => ?_) event hr ack enable
  have hsame : t.writeAcknowledged id = t := writeAcknowledged_absent (by simp [(h hopen).1])
  rw [hsame]
  exact h

theorem Waits.writeAcknowledged (h : t.Waits id byteCount) (hopen : t.closed = false) (id' : Nat) :
    (t.writeAcknowledged id').Waits id byteCount := by
  have hcase := h hopen
  by_cases hmine : t.writeCompletions = [⟨id, byteCount⟩] ∧ id' = id
  · obtain ⟨htable, rfl⟩ := hmine
    have haccount : t.pendingWriteBytes = byteCount := by
      cases hcase with
      | inl hpending => exact hpending.2.1
      | inr hdone =>
        rw [hdone.1] at htable
        cases htable
    obtain ⟨u, htable', haccount', hvalue, hconfig, -, -, -, hend⟩ := writeAcknowledged_alone htable haccount
    have hdone : u.Waits id' byteCount := fun _ => .inr ⟨htable', haccount', hvalue⟩
    cases hend with
    | inl hsame =>
      rw [hsame]
      exact hdone
    | inr hhalf =>
      rw [hhalf.2]
      exact hdone.quietly (.maybeCompleteDone u)
  · have hsame : t.writeAcknowledged id' = t := by
      apply writeAcknowledged_absent
      intro e he heq
      cases hcase with
      | inl hpending =>
        rw [hpending.1] at he
        cases List.mem_singleton.mp he
        exact hmine ⟨hpending.1, heq.symm⟩
      | inr hdone =>
        rw [hdone.1] at he
        cases he
    rw [hsame]
    exact h

theorem Waits.handleReactorEvent (h : t.Waits id byteCount) (event : Event) (hr : ∀ c ∈ r, c.IsQuiet)
    (ack enable : SendResult) : (t.handleReactorEvent event r ack enable).Waits id byteCount :=
  handleReactorEvent_keeps h h.quietly h.writeAcknowledged event hr ack enable

theorem Dead.handleReactorEvent (h : t.Dead) (event : Event)
    (hr : ∀ c ∈ r, c.IsQuiet) (ack enable : SendResult) : (t.handleReactorEvent event r ack enable).Dead := by
  refine handleReactorEvent_keeps h (·.dead h) (fun _ id => ?_) event hr ack enable
  unfold writeAcknowledged
  split
  · exact h
  split
  · exact (Quietly.maybeCompleteDone _).dead (.inr rfl)
  · exact h

theorem handleReactorEvent_config (t : PosixFdTransport) (event : Event) (hr : ∀ c ∈ r, c.IsQuiet)
    (ack enable : SendResult) : (t.handleReactorEvent event r ack enable).config = t.config := by
  refine handleReactorEvent_keeps (P := fun u => u.config = t.config) rfl (·.config)
    (fun _ id => ?_) event hr ack enable
  unfold writeAcknowledged
  split
  · rfl
  split
  · exact (Quietly.maybeCompleteDone _).config
  · rfl

/-- A future that is complete leaves the transport idle; one that failed ended it. -/
theorem Waits.settled (h : t.Waits id byteCount) (hsettled : t.futures id ≠ some .pending) : t.Idle := by
  intro hopen
  cases h hopen with
  | inl hpending => exact absurd hpending.2.2 hsettled
  | inr hdone => exact ⟨hdone.1, hdone.2.1⟩

theorem Waits.dead_of_error (h : t.Waits id byteCount) {message : String}
    (herror : t.futures id = some (.error message)) : t.Dead := by
  by_contra hne
  simp only [Dead, not_or, Bool.not_eq_true] at hne
  cases h hne.1 with
  | inl hpending => rw [herror] at hpending; cases hpending.2.2
  | inr hdone => rw [herror] at hdone; cases hdone.2.2

/-! ## Writing to an idle transport -/

/-- Registering an entry with an idle, open transport and posting its command. -/
theorem Idle.dispatch (h : t.Idle) (hopen : t.closed = false) (byteCount : Nat) (what : String)
    (command : Command) (result : SendResult) :
    ((t.register byteCount).dispatch what ⟨t.nextWriteId + 1, byteCount⟩ command result).Waits (t.nextWriteId + 1)
        byteCount ∧
      ((t.register byteCount).dispatch what ⟨t.nextWriteId + 1, byteCount⟩ command result).config = t.config := by
  obtain ⟨htable, haccount⟩ := h hopen
  have hregistered : (t.register byteCount).Waits (t.nextWriteId + 1) byteCount := by
    intro _
    refine .inl ⟨?_, ?_, ?_⟩
    · simp [register, htable]
    · simp [register, haccount]
    · simp [register]
  unfold PosixFdTransport.dispatch
  have hposted := Quietly.post (t.register byteCount) command result
  cases result.error with
  | none => exact ⟨hregistered.quietly hposted, hposted.config⟩
  | some error =>
    simp only [finishWithError]
    constructor
    · apply hregistered.quietly
      apply Quietly.teardown
      exact hposted.config
    · exact (teardown_terminal _ _ _ _).2.1.trans hposted.config

/-- A write to an idle transport is refused by one that is dead, or for its size, or it is the one that waits. -/
theorem Idle.write (h : t.Idle) {bytes : Bytes} (hne : bytes ≠ []) (result : SendResult) :
    (∃ message, t.write bytes result = (.now (.error message), t) ∧
        (t.Dead ∨ t.config.maxPendingWriteBytes < bytes.length)) ∨
      ¬ t.Dead ∧ bytes.length ≤ t.config.maxPendingWriteBytes ∧
        ∃ id u, t.write bytes result = (.later id, u) ∧ u.Waits id bytes.length ∧ u.config = t.config := by
  unfold PosixFdTransport.write
  rw [if_neg (by simpa using hne)]
  split
  · next hclosed => exact .inl ⟨_, rfl, .inl (.inl hclosed)⟩
  next hopen =>
  split
  · next hfinished => exact .inl ⟨_, rfl, .inl (.inr hfinished)⟩
  next hunfinished =>
  have hopen' : t.closed = false := by simpa using hopen
  rw [(h hopen').2, Nat.zero_add]
  split
  · next hlarge => exact .inl ⟨_, rfl, .inr hlarge⟩
  next hfits =>
  refine .inr ⟨?_, Nat.le_of_not_lt hfits, _, _, rfl, ?_⟩
  · rintro (hclosed | hfinished)
    · exact hopen hclosed
    · exact hunfinished hfinished
  · exact h.dispatch hopen' bytes.length _ _ result

/-- A half-close of an idle transport is done already, or waits; then the transport is dead. -/
theorem Idle.closeWrite (h : t.Idle) (result : SendResult) : t.closeWrite result = (.now .value, t) ∧ t.Dead ∨
      ∃ id u, t.closeWrite result = (.later id, u) ∧ u.Waits id 0 ∧ u.config = t.config ∧ u.Dead := by
  unfold PosixFdTransport.closeWrite
  split
  · next hdead => exact .inl ⟨rfl, by simpa [Dead] using hdead⟩
  next hopen =>
  simp only [Bool.or_eq_true, not_or, Bool.not_eq_true] at hopen
  have hhalf : { t with writeFinished := true }.Idle := h
  obtain ⟨hwaits, hconfig⟩ := hhalf.dispatch hopen.1 0 "fd closeWrite dispatch failed: "
    (.shutdownWrite (t.nextWriteId + 1)) result
  refine .inr ⟨_, _, rfl, hwaits, hconfig, ?_⟩
  unfold PosixFdTransport.dispatch
  cases result with
  | ok => exact .inr rfl
  | stopped | wakeFailed => exact .inl (teardown_terminal _ _ _ _).1

end TailscaleDart.Fd.PosixFdTransport
