import TailscaleDart.Fd.System
import TailscaleDart.Fd.Waiting

/-!
# Fd.Interest — what the poller is asked for, and what its reports do

The poller is level-triggered: it reports a condition again and again until it is gone or masked. So the loop owes it
two things. The mask it last pushed is the one the transport's state asks for; and a report it cannot mask, a hang-up or
an error, is answered by doing something to the transport.

Neither holds throughout. A half-close that goes through behind queued writes returns without a new mask
(`Masked`, `half_close_leaves_write_interest`), and a hang-up that finds reading paused, out of credit or finished is
passed over (`paused_hang_up_unanswered`).
-/

namespace TailscaleDart.Fd

/-! ## The poller -/

/-- The bits of an epoll event the poller looks at. -/
structure EpollEvents where
  epollin : Bool := false
  epollout : Bool := false
  epollrdhup : Bool := false
  epollhup : Bool := false
  epollerr : Bool := false
  deriving DecidableEq, Repr

/-- `epollInterestFlags`, of the readable and the writable bit of a mask. -/
def epollInterestFlags (interest : Bool × Bool) : EpollEvents where
  epollin := interest.1
  epollrdhup := interest.1
  epollout := interest.2
  epollhup := true
  epollerr := true

/-- What the kernel reports of a descriptor in the condition `ready` that is registered with `flags`. -/
def EpollEvents.reported (flags ready : EpollEvents) : EpollEvents where
  epollin := flags.epollin && ready.epollin
  epollout := flags.epollout && ready.epollout
  epollrdhup := flags.epollrdhup && ready.epollrdhup
  epollhup := flags.epollhup && ready.epollhup
  epollerr := flags.epollerr && ready.epollerr

/-- `ReactorEvent.Events`, without the wake bit of the wake descriptor. -/
structure ReactorEvents where
  read : Bool := false
  write : Bool := false
  hup : Bool := false
  error : Bool := false
  deriving DecidableEq, Repr

/-- The flags `epollReactorPoller.Wait` makes of an epoll event. -/
def reactorEvents (ev : EpollEvents) : ReactorEvents where
  read := ev.epollin
  write := ev.epollout
  hup := ev.epollhup || ev.epollrdhup
  error := ev.epollerr

/-- The entry reports bytes that were read, or the end. -/
def Trace.isInput : Trace → Bool
  | .sent (.data _) | .sent .eof => true
  | _ => false

namespace Reactor

/-- The mask last pushed. Registration pushes none. -/
def pushed (r : Reactor) : Bool × Bool := r.lastInterest.getD (false, false)

/-- What the system calls of one dispatch answer. -/
structure DispatchEnv where
  reads : List ReadAnswer := []
  readUpdateOk : Bool := true
  writes : List WriteAnswer := []
  writeUpdateOk : Bool := true
  shutdownOk : Bool := true
  lastReads : List ReadAnswer := []
  lastUpdateOk : Bool := true
  deriving DecidableEq, Repr

def dispatchRead (event : ReactorEvents) (e : DispatchEnv) (r : Reactor) : Option Reactor :=
  if r.closed then some r
  else if event.read then r.readReactorState e.reads false e.readUpdateOk
  else some r

def dispatchWrite (event : ReactorEvents) (e : DispatchEnv) (r : Reactor) : Option Reactor :=
  if r.closed then some r
  else if event.write then r.flushReactorWrites e.writes e.writeUpdateOk e.shutdownOk
  else some r

def dispatchHangUp (event : ReactorEvents) (e : DispatchEnv) (r : Reactor) : Option Reactor :=
  if r.closed then some r
  else if event.hup || event.error then r.readReactorState e.lastReads true e.lastUpdateOk
  else some r

/-- One event of the loop in `_runFdReactor`. -/
def dispatch (event : ReactorEvents) (e : DispatchEnv) (r : Reactor) : Option Reactor :=
  ((r.dispatchRead event e).bind (dispatchWrite event e)).bind (dispatchHangUp event e)

variable {event : ReactorEvents} {r r' : Reactor} {e : DispatchEnv}

/-- A stage of a dispatch passes over a closed transport, and does nothing for an event that did not come. -/
theorem stage_cases {on : Bool} {run : Option Reactor}
    (h : (if r.closed then some r else if on then run else some r) = some r') : r' = r ∨ run = some r' := by
  split at h
  · exact .inl (Option.some.inj h).symm
  split at h
  · exact .inr h
  · exact .inl (Option.some.inj h).symm

/-- What drains and flushes keep, a dispatch keeps. -/
theorem dispatch_keeps {P : Reactor → Prop} (hread : ∀ {answers eofOnAgain updateOk} {r r' : Reactor},
      r.readReactorState answers eofOnAgain updateOk = some r' → P r → P r')
    (hwrite : ∀ {answers updateOk shutdownOk} {r r' : Reactor},
      r.flushReactorWrites answers updateOk shutdownOk = some r' → P r → P r')
    (hrun : r.dispatch event e = some r') (h : P r) : P r' := by
  obtain ⟨r2, hrun2, hrun3⟩ := Option.bind_eq_some_iff.mp hrun
  obtain ⟨r1, hrun1, hrun2⟩ := Option.bind_eq_some_iff.mp hrun2
  have h1 : P r1 := by
    rcases stage_cases hrun1 with rfl | hrun1
    · exact h
    · exact hread hrun1 h
  have h2 : P r2 := by
    rcases stage_cases hrun2 with rfl | hrun2
    · exact h1
    · exact hwrite hrun2 h1
  rcases stage_cases hrun3 with rfl | hrun3
  · exact h2
  · exact hread hrun3 h2

/-! ## A hang-up is answered when reading is on -/

/-- From `r` to `r'` bytes that were read, or the end, were reported. -/
def Inputs (r r' : Reactor) : Prop := ∃ entry ∈ r'.trace.drop r.trace.length, entry.isInput = true

/-- The transport is not as it was: bytes were read, the end was reported, it was closed, or its mask is another. -/
def Changed (r r' : Reactor) : Prop := Inputs r r' ∨ r'.closed = true ∨ r'.pushed ≠ r.pushed

instance (r r' : Reactor) : Decidable (Changed r r') :=
  inferInstanceAs (Decidable ((∃ entry ∈ r'.trace.drop r.trace.length, entry.isInput = true) ∨ r'.closed = true ∨
    r'.pushed ≠ r.pushed))

theorem Inputs.of_append {more : List Trace} (h : r.trace ++ more <+: r'.trace) {entry : Trace}
    (hmem : entry ∈ more) (hinput : entry.isInput = true) : Inputs r r' := by
  obtain ⟨rest, hrest⟩ := h
  refine ⟨entry, ?_, hinput⟩
  rw [← hrest, List.append_assoc, List.drop_left]
  exact List.mem_append_left rest hmem

variable {r1 : Reactor}

theorem Inputs.mono (h : r.trace <+: r1.trace) (hinputs : Inputs r1 r') : Inputs r r' := by
  obtain ⟨entry, hmem, hinput⟩ := hinputs
  obtain ⟨more, hmore⟩ := h
  refine ⟨entry, ?_, hinput⟩
  rw [← hmore, List.length_append, ← List.drop_drop] at hmem
  exact List.mem_of_mem_drop hmem

theorem Inputs.extend (hinputs : Inputs r r1) (h : r1.trace <+: r'.trace) : Inputs r r' := by
  obtain ⟨entry, hmem, hinput⟩ := hinputs
  obtain ⟨more, hmore⟩ := h
  refine ⟨entry, ?_, hinput⟩
  rw [← hmore, List.drop_append]
  exact List.mem_append_left _ hmem

/-- The fields reading depends on. -/
structure SameReading (r r' : Reactor) : Prop where
  config : r'.config = r.config
  pendingInboundBytes : r'.pendingInboundBytes = r.pendingInboundBytes
  readEnabled : r'.readEnabled = r.readEnabled
  readClosed : r'.readClosed = r.readClosed

theorem SameReading.refl (r : Reactor) : SameReading r r := ⟨rfl, rfl, rfl, rfl⟩

theorem SameReading.trans (h : SameReading r r1) (g : SameReading r1 r') : SameReading r r' where
  config := g.config.trans h.config
  pendingInboundBytes := g.pendingInboundBytes.trans h.pendingInboundBytes
  readEnabled := g.readEnabled.trans h.readEnabled
  readClosed := g.readClosed.trans h.readClosed

theorem closeReactorState_trace (r : Reactor) (error : Option String) :
    r.trace <+: (r.closeReactorState error).trace := by
  unfold closeReactorState
  split
  · exact List.prefix_rfl
  · exact List.prefix_append _ _

theorem trace_readMoves (r : Reactor) : ReadMoves fun r' => r.trace <+: r'.trace where
  mask _ h := h
  note _ h := h.trans (List.prefix_append _ _)
  notice _ h := h.trans (List.prefix_append _ _)
  close error h := h.trans (closeReactorState_trace _ error)
  reading _ _ _ h := h
  read _ h := h.trans (List.prefix_append _ _)

theorem trace_flushMoves (r : Reactor) : FlushMoves fun r' => r.trace <+: r'.trace where
  toMoves := (trace_readMoves r).moves
  queue _ h := h
  write _ _ h := h.trans (List.prefix_append _ _)
  acknowledge _ h := h.trans (List.prefix_append _ _)
  shut _ h := h.trans (List.prefix_append _ _)

theorem closeReactorState_reading (r : Reactor) (error : Option String) :
    SameReading r (r.closeReactorState error) := by
  unfold closeReactorState
  split
  · exact .refl r
  · exact ⟨rfl, rfl, rfl, rfl⟩

theorem reading_flushMoves (r : Reactor) : FlushMoves (SameReading r) where
  mask _ h := { h with }
  readError _ h := { h with }
  writeError _ _ h := { h with }
  close error h := h.trans (closeReactorState_reading _ error)
  queue _ h := { h with }
  write _ _ h := { h with }
  acknowledge _ h := { h with }
  shut _ h := { h with }

theorem closeReactorState_isClosed (r : Reactor) (error : Option String) : (r.closeReactorState error).closed = true :=
  (closeReactorState_closed r error).1

theorem readFinished_inputs (r : Reactor) (updateOk : Bool) : Inputs r (r.readFinished updateOk) := by
  have hmoves := (trace_readMoves ({ r with readClosed := true, readEnabled := false }.sendEvent .eof)).moves
  have hextends : r.trace ++ [.sent .eof] <+: (r.readFinished updateOk).trace :=
    hmoves.closeIfFullyDone (hmoves.updateReactorInterest updateOk List.prefix_rfl)
  exact .of_append hextends (.head _) rfl

/-- A drain with credit reads something, ends, or fails; without a hang-up it may also find nothing. -/
theorem inputs_rule (hcredit : r.HasRoom) (eofOnAgain updateOk : Bool) :
    ReadRule (fun _ => True) eofOnAgain updateOk
      (fun budget r' => r.trace <+: r'.trace ∧ (Inputs r r' ∨ 0 < budget ∧ SameReading r r'))
      fun r' => Inputs r r' ∨ r'.closed = true ∨ eofOnAgain = false ∧ SameReading r r' where
  spent {budget r'} hspent h := by
    rcases h.2 with hinputs | ⟨hpos, hsame⟩
    · exact .inl (hinputs.extend ((trace_readMoves r').moves.updateReactorInterest updateOk List.prefix_rfl))
    · rw [hsame.config, hsame.pendingInboundBytes] at hspent
      omega
  data {budget r' bytes} _ _ _ h := by
    have hasked := h.1.trans ((trace_readMoves r').asked eofOnAgain budget (.data bytes) List.prefix_rfl)
    refine ⟨hasked.trans (List.prefix_append _ _), .inl ?_⟩
    exact (Inputs.of_append List.prefix_rfl (.head _) rfl).mono hasked
  interrupted {budget r'} hpos _ h := by
    have hasked := (trace_readMoves r').asked eofOnAgain budget .interrupted List.prefix_rfl
    refine ⟨h.1.trans hasked, ?_⟩
    rcases h.2 with hinputs | ⟨_, hsame⟩
    · exact .inl (hinputs.extend hasked)
    · exact .inr ⟨hpos, hsame.trans ⟨rfl, rfl, rfl, rfl⟩⟩
  ended {budget r' answer} _ _ _ h := by
    have hasked := h.1.trans ((trace_readMoves r').asked eofOnAgain budget answer List.prefix_rfl)
    exact .inl ((readFinished_inputs _ updateOk).mono hasked)
  again {budget r'} _ _ heof h := by
    rcases h.2 with hinputs | ⟨_, hsame⟩
    · exact .inl (hinputs.extend ((trace_readMoves r').asked eofOnAgain budget .again List.prefix_rfl))
    · exact .inr (.inr ⟨heof, hsame.trans ⟨rfl, rfl, rfl, rfl⟩⟩)
  failed _ _ _ _ _ := .inr (.inl (closeReactorState_isClosed _ _))

/-- Reading is on: the mask the state asks for has the readable bit. -/
theorem interest_fst : r.interest.1 = true ↔ r.readEnabled = true ∧ r.readClosed = false ∧ r.HasRoom := by
  simp [interest, and_assoc]

theorem interest_fst_of_same (h : SameReading r r') (hread : r.interest.1 = true) : r'.interest.1 = true := by
  rw [interest_fst] at hread ⊢
  rw [HasRoom, h.config, h.pendingInboundBytes, h.readEnabled, h.readClosed]
  exact hread

theorem readReactorState_inputs {eofOnAgain updateOk : Bool} {answers : List ReadAnswer} (hopen : r.closed = false)
    (hread : r.interest.1 = true) (hrun : r.readReactorState answers eofOnAgain updateOk = some r') :
    Inputs r r' ∨ r'.closed = true ∨ eofOnAgain = false ∧ SameReading r r' := by
  obtain ⟨henabled, hdone, hcredit⟩ := interest_fst.mp hread
  apply (inputs_rule hcredit eofOnAgain updateOk).readReactorState (fun _ _ => trivial) hrun
  · intro hidle
    simp [henabled, hdone, hopen] at hidle
  · intro _ _ _
    exact ⟨List.prefix_rfl, .inr ⟨by decide, .refl r⟩⟩

theorem dispatchRead_inputs (hopen : r.closed = false) (hread : r.interest.1 = true)
    (hrun : r.dispatchRead event e = some r') : Inputs r r' ∨ r'.closed = true ∨ SameReading r r' := by
  rcases stage_cases hrun with rfl | hrun
  · exact .inr (.inr (.refl r'))
  · rcases readReactorState_inputs hopen hread hrun with hinputs | hclosed | ⟨-, hsame⟩
    · exact .inl hinputs
    · exact .inr (.inl hclosed)
    · exact .inr (.inr hsame)

theorem dispatchWrite_frame (hrun : r.dispatchWrite event e = some r') : r.trace <+: r'.trace ∧ SameReading r r' := by
  rcases stage_cases hrun with rfl | hrun
  · exact ⟨List.prefix_rfl, .refl r'⟩
  · exact ⟨(trace_flushMoves r).flushReactorWrites hrun List.prefix_rfl,
      (reading_flushMoves r).flushReactorWrites hrun (.refl r)⟩

theorem dispatchRead_trace (hrun : r.dispatchRead event e = some r') : r.trace <+: r'.trace := by
  rcases stage_cases hrun with rfl | hrun
  · exact List.prefix_rfl
  · exact (trace_readMoves r).readReactorState hrun List.prefix_rfl

theorem dispatchHangUp_trace (hrun : r.dispatchHangUp event e = some r') : r.trace <+: r'.trace := by
  rcases stage_cases hrun with rfl | hrun
  · exact List.prefix_rfl
  · exact (trace_readMoves r).readReactorState hrun List.prefix_rfl

theorem dispatchHangUp_closed (hrun : r.dispatchHangUp event e = some r') (hclosed : r.closed = true) : r' = r := by
  rw [dispatchHangUp, hclosed, if_pos rfl] at hrun
  exact (Option.some.inj hrun).symm

theorem dispatch_inputs (hopen : r.closed = false)
    (hread : r.interest.1 = true) (hevent : event.hup = true ∨ event.error = true)
    (hrun : r.dispatch event e = some r') :
    Inputs r r' ∨ r'.closed = true := by
  obtain ⟨r2, hrun2, hrun3⟩ := Option.bind_eq_some_iff.mp hrun
  obtain ⟨r1, hrun1, hrun2⟩ := Option.bind_eq_some_iff.mp hrun2
  obtain ⟨htrace2, hsame2⟩ := dispatchWrite_frame hrun2
  have htrace3 := dispatchHangUp_trace hrun3
  have htrace1 := dispatchRead_trace hrun1
  rcases dispatchRead_inputs hopen hread hrun1 with hinputs | hclosed | hsame1
  · exact .inl (hinputs.extend (htrace2.trans htrace3))
  · -- the rest of the dispatch passes over a closed transport
    have hsame : r2 = r1 := by
      unfold dispatchWrite at hrun2
      rw [hclosed, if_pos rfl] at hrun2
      cases hrun2
      rfl
    subst hsame
    rw [dispatchHangUp_closed hrun3 hclosed]
    exact .inr hclosed
  · cases hclosed : r2.closed with
    | true =>
      rw [dispatchHangUp_closed hrun3 hclosed]
      exact .inr hclosed
    | false =>
      unfold dispatchHangUp at hrun3
      have hbits : (event.hup || event.error) = true := by simpa using hevent
      rw [hclosed, if_neg Bool.false_ne_true, if_pos hbits] at hrun3
      have hread2 := interest_fst_of_same (hsame1.trans hsame2) hread
      rcases readReactorState_inputs hclosed hread2 hrun3 with hinputs | hclosed | ⟨hfalse, -⟩
      · exact .inl (hinputs.mono (htrace1.trans htrace2))
      · exact .inr hclosed
      · cases hfalse

/-- A hang-up or an error that the poller reports to an open transport that wants to read is never passed over: the
dispatch reads something or tells the end of input, or the transport closes, or the mask changes. So a level-triggered
poller does not report the same condition for ever. -/
theorem hang_up_changes {r r' : Reactor} {ready : EpollEvents} {e : DispatchEnv} (hopen : r.closed = false)
    (hread : r.interest.1 = true)
    (hevent : (reactorEvents ((epollInterestFlags r.pushed).reported ready)).hup = true ∨
      (reactorEvents ((epollInterestFlags r.pushed).reported ready)).error = true)
    (hrun : r.dispatch (reactorEvents ((epollInterestFlags r.pushed).reported ready)) e = some r') : Changed r r' := by
  rcases dispatch_inputs hopen hread hevent hrun with hinputs | hclosed
  · exact .inl hinputs
  · exact .inr (.inl hclosed)

end Reactor

/-- The condition of a socket whose peer has closed it. -/
def EpollEvents.peerClosed : EpollEvents where
  epollin := true
  epollout := true
  epollrdhup := true
  epollhup := true

namespace System

/-- The reactor's half of a transport that was adopted and is listened to. -/
def listening : Reactor := { readEnabled := true, lastInterest := some (true, false) }

theorem hang_up_changes_listening :
    ∃ s r', Reachable (fun _ _ => True) {} s ∧ s.reactor = listening ∧
      listening.dispatch (reactorEvents ((epollInterestFlags listening.pushed).reported .peerClosed))
        { reads := [.again], lastReads := [.again] } = some r' ∧ Reactor.Changed listening r' := by
  have hreach : ∃ s, Reachable (fun _ _ => True) {} s ∧ s.reactor = listening :=
    ⟨_, .next (.next .start (.call (.listen .ok)) trivial rfl) (.command [] true true) trivial rfl, rfl⟩
  have hsome : (listening.dispatch (reactorEvents ((epollInterestFlags listening.pushed).reported .peerClosed))
      { reads := [.again], lastReads := [.again] }).isSome = true := by decide
  obtain ⟨s, hreach, hreactor⟩ := hreach
  obtain ⟨r', hrun⟩ := Option.isSome_iff_exists.mp hsome
  exact ⟨s, r', hreach, hreactor, hrun, Reactor.hang_up_changes rfl rfl (.inl rfl) hrun⟩

/-- The listener pauses, and then the peer closes: the hang-up is reported whatever the mask, and passed over. -/
theorem paused_hang_up_unanswered :
    ∃ s r', Reachable (fun _ _ => True) {} s ∧ s.reactor.closed = false ∧
      (reactorEvents ((epollInterestFlags s.reactor.pushed).reported .peerClosed)).hup = true ∧
      s.reactor.dispatch (reactorEvents ((epollInterestFlags s.reactor.pushed).reported .peerClosed)) {} = some r' ∧
      ¬Reactor.Changed s.reactor r' := by
  have h0 : Reachable (fun _ _ => True) {} (adopted {}) := .start
  have h1 := h0.next (.call (.listen .ok)) trivial rfl
  have h2 := h1.next (.command [] true true) trivial rfl
  have h3 := h2.next (.call (.pause .ok)) trivial rfl
  exact ⟨_, _, h3.next (.command [] true true) trivial rfl, rfl, rfl, rfl, by decide⟩

end System

/-! ## The mask follows the state -/

namespace Reactor

/-- The poller has been told what the state asks for. -/
def Masked (r : Reactor) : Prop := r.closed = false → r.pushed = r.interest

variable {r : Reactor}

theorem masked_of_closed (h : r.closed = true) : r.Masked := by
  intro hopen
  rw [h] at hopen
  cases hopen

theorem updateReactorInterest_masked (r : Reactor) (ok : Bool) : (r.updateReactorInterest ok).Masked := by
  unfold updateReactorInterest
  split
  · next hclosed => exact masked_of_closed hclosed
  split
  · next hsame =>
    intro _
    rw [pushed, hsame]
    rfl
  split
  · exact fun _ => rfl
  · exact masked_of_closed (closeReactorState_isClosed _ _)

theorem Masked.closeIfFullyDone (h : r.Masked) : r.closeIfFullyDone.Masked := by
  unfold Reactor.closeIfFullyDone
  split
  · exact masked_of_closed (closeReactorState_isClosed _ _)
  · exact h

/-- A drain that ends without a new mask found nothing to read, with credit left: the readable bit was on and stays. -/
theorem masked_readRule (eofOnAgain updateOk : Bool) : ReadRule (fun _ => True) eofOnAgain updateOk
      (fun _ r => r.readEnabled = true ∧ r.readClosed = false ∧
        (r.HasRoom → r.pushed = (true, !r.writes.isEmpty))) Masked where
  spent {_ r} _ _ := updateReactorInterest_masked r updateOk
  data _ hcredit _ h := ⟨h.1, h.2.1, fun _ => h.2.2 hcredit⟩
  interrupted _ _ h := h
  ended _ _ _ _ := (updateReactorInterest_masked _ updateOk).closeIfFullyDone
  again {_ r} _ hcredit _ h := by
    intro _
    show r.pushed = r.interest
    rw [h.2.2 hcredit, interest, h.1, h.2.1, decide_eq_true hcredit]
    rfl
  failed _ _ _ _ _ := masked_of_closed (closeReactorState_isClosed _ _)

variable {updateOk : Bool} {r' : Reactor}

theorem Masked.readReactorState {eofOnAgain : Bool} {answers : List ReadAnswer} (h : r.Masked)
    (hrun : r.readReactorState answers eofOnAgain updateOk = some r') : r'.Masked := by
  apply (masked_readRule eofOnAgain updateOk).readReactorState (fun _ _ => trivial) hrun (fun _ => h)
  intro henabled hdone hopen
  refine ⟨henabled, hdone, fun hcredit => ?_⟩
  rw [h hopen, interest, henabled, hdone, decide_eq_true hcredit]
  rfl

/-- A flush with no half-close waiting ends with a new mask, or with the end of the transport. -/
theorem masked_flushRule (updateOk shutdownOk : Bool) :
    FlushRule (fun _ => True) updateOk shutdownOk (fun _ r => r.closingWrite = false) Masked where
  finish {_ r} _ hwriting := by
    unfold finishFlush
    rw [hwriting, Bool.and_false, Bool.false_and, if_neg Bool.false_ne_true]
    exact updateReactorInterest_masked r updateOk
  accepted _ _ _ _ hwriting := by
    unfold advance
    split <;> exact hwriting
  interrupted _ _ hwriting := hwriting
  again _ _ _ := updateReactorInterest_masked _ updateOk
  failed _ _ _ _ _ _ _ _ := masked_of_closed (closeReactorState_isClosed _ _)

/-- No half-close is waiting: one that was asked for has gone through. -/
structure Settled (r : Reactor) : Prop where
  done : r.closingWrite = true → r.closed = true ∨ r.writeClosed = true
  asked : r.writeClosed = true → r.closingWrite = true

/-- What a step does to the half-close when it neither asks for one nor takes one back. -/
structure Holds (r r' : Reactor) : Prop where
  closingWrite : r'.closingWrite = r.closingWrite
  done : r.closed = true ∨ r.writeClosed = true → r'.closed = true ∨ r'.writeClosed = true
  asked : r'.writeClosed = true → r'.closingWrite = true

theorem Settled.holds (h : r.Settled) : Holds r r := ⟨rfl, id, h.asked⟩

theorem Holds.settled (h : Holds r r') (hsettled : r.Settled) : r'.Settled where
  done hclosing := h.done (hsettled.done (h.closingWrite ▸ hclosing))
  asked := h.asked

theorem closeReactorState_writeClosed (r : Reactor) (error : Option String) :
    (r.closeReactorState error).writeClosed = r.writeClosed := by
  unfold closeReactorState
  split <;> rfl

theorem holds_readMoves (r : Reactor) : ReadMoves (Holds r) where
  mask _ h := { h with }
  note _ h := { h with }
  notice _ h := { h with }
  close {next} error h := by
    have hwriting := (closeReactorState_config next error).2.1
    refine ⟨hwriting.trans h.closingWrite, fun _ => .inl (closeReactorState_isClosed next error), ?_⟩
    rw [closeReactorState_writeClosed, hwriting]
    exact h.asked
  reading _ _ _ h := { h with }
  read _ h := { h with }

theorem holds_flushMoves (r : Reactor) : FlushMoves (Holds r) where
  toMoves := (holds_readMoves r).moves
  queue _ h := { h with }
  write _ _ h := { h with }
  acknowledge _ h := { h with }
  shut hclosing h := ⟨h.closingWrite, fun _ => .inr rfl, fun _ => hclosing⟩

theorem Masked.flushReactorWrites {answers : List WriteAnswer} {shutdownOk : Bool} (h : r.Masked)
    (hsettled : r.Settled) (hrun : r.flushReactorWrites answers updateOk shutdownOk = some r') : r'.Masked := by
  apply (masked_flushRule updateOk shutdownOk).flushReactorWrites (fun _ _ => trivial) hrun (fun _ => h)
  intro hopen hunshut
  by_contra hwriting
  rcases hsettled.done (by simpa using hwriting) with hclosed | hshut
  · exact absurd (hopen.symm.trans hclosed) Bool.false_ne_true
  · exact absurd (hunshut.symm.trans hshut) Bool.false_ne_true

theorem closeIfFullyDone_shut (h : r.writeClosed = true) :
    r.closeIfFullyDone.closed = true ∨ r.closeIfFullyDone.writeClosed = true := by
  unfold Reactor.closeIfFullyDone
  split
  · exact .inl (closeReactorState_isClosed _ _)
  · exact .inr h

/-- A half-close that finds the queue empty goes through at once, and the mask needs no change. -/
theorem Masked.shutdownWrite {answers : List WriteAnswer} {shutdownOk : Bool} (h : r.Masked)
    (hsettled : r.Settled) (hempty : r.writes = []) (id : Nat)
    (hrun : r.process (.shutdownWrite id) answers updateOk shutdownOk = some r') : r'.Masked ∧ r'.Settled := by
  unfold Reactor.process at hrun
  split at hrun
  · cases hrun
    exact ⟨h, hsettled⟩
  have hasked := ((holds_flushMoves _).flushReactorWrites hrun ⟨rfl, fun h => h, fun _ => rfl⟩).asked
  simp only [Reactor.flushReactorWrites] at hrun
  split at hrun
  · next hopen hguard =>
    cases hrun
    exact ⟨h, fun _ => by simpa using hguard, hasked⟩
  next hopen hguard =>
  simp only [Bool.or_eq_true, not_or, Bool.not_eq_true] at hguard
  unfold flushLoop at hrun
  simp only [hempty] at hrun
  cases hrun
  refine ⟨?_, fun _ => ?_, hasked⟩
  · unfold finishFlush
    simp only [hguard.2, List.isEmpty_nil, Bool.and_true, Bool.not_false, if_true]
    split
    · apply Masked.closeIfFullyDone
      intro _
      show r.pushed = _
      rw [h hguard.1, interest, hempty]
      rfl
    · exact masked_of_closed (closeReactorState_isClosed _ _)
  · unfold finishFlush
    simp only [hguard.2, List.isEmpty_nil, Bool.and_true, Bool.not_false, if_true]
    split
    · exact closeIfFullyDone_shut rfl
    · exact .inl (closeReactorState_isClosed _ _)

end Reactor

/-! ## What the caller's half posts about writing -/

/-- The command ends the writing. -/
def Command.endsWriting : Command → Bool
  | .shutdownWrite _ => true
  | _ => false

/-- The command is a write or a half-close. -/
def Command.isWriting : Command → Bool
  | .write _ _ | .shutdownWrite _ => true
  | _ => false

namespace PosixFdTransport

/-- From `t` to `t'` it posted `posted`: nothing about writing once it is dead, and nothing after a half-close. -/
structure Posts (t t' : PosixFdTransport) (posted : List Command) : Prop where
  mailbox : t'.mailbox = t.mailbox ++ posted
  dead : t.Dead → t'.Dead ∧ ∀ c ∈ posted, c.isWriting = false
  order : posted.Pairwise fun a b => a.endsWriting = true → b.isWriting = false
  ended : ∀ c ∈ posted, c.endsWriting = true → t'.Dead

variable {t t' : PosixFdTransport}

theorem Posts.silent (hmailbox : t'.mailbox = t.mailbox) (hdead : t.Dead → t'.Dead) : Posts t t' [] where
  mailbox := by rw [hmailbox, List.append_nil]
  dead h := ⟨hdead h, nofun⟩
  order := .nil
  ended := nofun

theorem Posts.refl (t : PosixFdTransport) : Posts t t [] := .silent rfl id

theorem Posts.trans {t1 t2 t3 : PosixFdTransport} {p q : List Command} (h : Posts t1 t2 p) (g : Posts t2 t3 q) :
    Posts t1 t3 (p ++ q) where
  mailbox := by rw [g.mailbox, h.mailbox, List.append_assoc]
  dead := by
    intro hdead
    obtain ⟨hmid, hp⟩ := h.dead hdead
    obtain ⟨hend, hq⟩ := g.dead hmid
    refine ⟨hend, fun c hc => ?_⟩
    rcases List.mem_append.mp hc with hc | hc
    · exact hp c hc
    · exact hq c hc
  order := by
    apply List.pairwise_append.mpr
    refine ⟨h.order, g.order, fun a ha b hb hends => ?_⟩
    exact (g.dead (h.ended a ha hends)).2 b hb
  ended := by
    intro c hc hends
    rcases List.mem_append.mp hc with hc | hc
    · exact (g.dead (h.ended c hc hends)).1
    · exact g.ended c hc hends

theorem Posts.teardown (t : PosixFdTransport) (doneError pendingWriteError : Option String) (closeInput : Bool) :
    Posts t (t.teardown doneError pendingWriteError closeInput) [] := by
  obtain ⟨hclosed, -, hmailbox, -⟩ := teardown_terminal t doneError pendingWriteError closeInput
  exact .silent hmailbox fun _ => .inl hclosed

/-- One command is sent; one about writing by a transport that was not dead. -/
theorem Posts.sends {c : Command} {result : SendResult}
    (hmailbox : t'.mailbox = t.mailbox ++ postedBy c result) (hdead : t.Dead → t'.Dead ∧ c.isWriting = false)
    (hends : c.endsWriting = true → t'.Dead) : Posts t t' (postedBy c result) where
  mailbox := hmailbox
  dead h := ⟨(hdead h).1, fun d hd => mem_postedBy hd ▸ (hdead h).2⟩
  order := by
    unfold postedBy
    split
    · exact .nil
    · exact List.pairwise_singleton _ _
  ended d hd h := hends (mem_postedBy hd ▸ h)

/-- The same by a transport that ends then. -/
theorem Posts.sends_last {u : PosixFdTransport} {c : Command} {result : SendResult}
    {doneError pendingWriteError : Option String}
    {closeInput : Bool} (hmailbox : u.mailbox = t.mailbox ++ postedBy c result) (hdead : t.Dead → c.isWriting = false) :
    Posts t (u.teardown doneError pendingWriteError closeInput) (postedBy c result) := by
  obtain ⟨hclosed, -, hsame, -⟩ := teardown_terminal u doneError pendingWriteError closeInput
  exact .sends (hsame.trans hmailbox) (fun h => ⟨.inl hclosed, hdead h⟩) fun _ => .inl hclosed

theorem Posts.move {P : Call → Prop} {Q : Event → Prop} {posted : List Command}
    {results : List SendResult} (hmove : Move P Q t t' posted results) : Posts t t' posted := by
  cases hmove with
  | input | eof => exact .silent rfl id
  | reading on =>
    rw [post_eq]
    exact .sends rfl (fun h => ⟨h, by cases on <;> rfl⟩) (by cases on <;> nofun)
  | credit =>
    rw [post_eq]
    exact .sends rfl (fun h => ⟨h, rfl⟩) nofun
  | admitted _ hopen hunfinished hadmits =>
    have hlive : ¬t.Dead := by simp [Dead, hopen, hunfinished]
    have hsent : ∀ {c : Command}, [c] = postedBy c .ok := rfl
    rw [hsent]
    refine .sends rfl (fun h => absurd h hlive) fun hends => ?_
    cases hadmits with
    | write => cases hends
    | closeWrite => exact .inr rfl
  | refused _ hopen hunfinished _ result =>
    have hlive : ¬t.Dead := by simp [Dead, hopen, hunfinished]
    refine Posts.sends_last ?_ fun h => absurd h hlive
    rw [issue, post_eq]
    rfl
  | failed | finished | ended => exact .teardown t _ _ _
  | dropped => exact Posts.silent (teardown_terminal _ _ _ _).2.2.1 fun _ => .inl (teardown_terminal _ _ _ _).1
  | acknowledged => exact .silent rfl fun h => h.imp_right fun h => by simp [h]
  | close result =>
    refine Posts.sends_last ?_ fun _ => rfl
    rw [post_eq]

theorem Posts.moves {P : Call → Prop} {Q : Event → Prop} {posted : List Command}
    {results : List SendResult} (h : Moves P Q t t' posted results) : Posts t t' posted :=
  h.related (R := fun t t' posted _ => Posts t t' posted) (fun t _ => .refl t) .trans .move

end PosixFdTransport

namespace System

/-- A half-close is read by the reactor only when its queue is empty. -/
def EmptyAtHalfClose (s : System) : Action → Prop
  | .command _ _ _ => ∀ id mailbox, s.main.mailbox = .shutdownWrite id :: mailbox → s.reactor.writes = []
  | _ => True

/-- What the reactor has been told follows what the caller's half posts. -/
structure Tracks (s : System) : Prop where
  masked : s.reactor.Masked
  settled : s.reactor.Settled
  order : s.main.mailbox.Pairwise fun a b => a.endsWriting = true → b.isWriting = false
  ended : ∀ c ∈ s.main.mailbox, c.endsWriting = true → s.main.Dead
  closing : s.reactor.closingWrite = true → s.main.Dead ∧ ∀ c ∈ s.main.mailbox, c.isWriting = false

variable {s s' : System}

theorem tracks_adopted (config : Config) : Tracks (adopted config) where
  masked := by
    intro _
    show (false, false) = _
    rfl
  settled := ⟨nofun, nofun⟩
  order := .nil
  ended := nofun
  closing := nofun

variable {r : Reactor}

theorem Tracks.posts (h : s.Tracks) {t : PosixFdTransport} {posted : List Command} (hposts : s.main.Posts t posted)
    (hmasked : r.Masked) (hsettled : r.Settled) (hwriting : r.closingWrite = s.reactor.closingWrite)
    (accepted : List Bytes) : Tracks { main := t, reactor := r, accepted := accepted } where
  masked := hmasked
  settled := hsettled
  order := by
    show t.mailbox.Pairwise _
    rw [hposts.mailbox]
    apply List.pairwise_append.mpr
    refine ⟨h.order, hposts.order, fun a ha b hb hends => ?_⟩
    exact (hposts.dead (h.ended a ha hends)).2 b hb
  ended := by
    intro c hc hends
    have hc : c ∈ t.mailbox := hc
    rw [hposts.mailbox] at hc
    rcases List.mem_append.mp hc with hc | hc
    · exact (hposts.dead (h.ended c hc hends)).1
    · exact hposts.ended c hc hends
  closing := by
    intro hclosing
    obtain ⟨hdead, hplain⟩ := h.closing (hwriting ▸ hclosing)
    obtain ⟨hdead', hposted⟩ := hposts.dead hdead
    refine ⟨hdead', fun c hc => ?_⟩
    have hc : c ∈ t.mailbox := hc
    rw [hposts.mailbox] at hc
    rcases List.mem_append.mp hc with hc | hc
    · exact hplain c hc
    · exact hposted c hc

theorem Tracks.reactor (h : s.Tracks) (hmasked : r.Masked) (hsettled : r.Settled)
    (hwriting : r.closingWrite = s.reactor.closingWrite) : Tracks { s with reactor := r } :=
  h.posts (.refl s.main) hmasked hsettled hwriting s.accepted

variable {shutdownOk updateOk : Bool} {answers : List WriteAnswer}

theorem masked_process {command : Command} (hplain : command.isWriting = false)
    {r' : Reactor} (hmasked : r.Masked) (hsettled : r.Settled)
    (hrun : r.process command answers updateOk shutdownOk = some r') : r'.Masked ∧ r.Holds r' := by
  have hupdated : ∀ next : Reactor, r.Holds next →
      (next.updateReactorInterest updateOk).Masked ∧ r.Holds (next.updateReactorInterest updateOk) := by
    intro next hholds
    exact ⟨Reactor.updateReactorInterest_masked next updateOk,
      (Reactor.holds_readMoves r).moves.updateReactorInterest updateOk hholds⟩
  unfold Reactor.process at hrun
  split at hrun
  · cases hrun
    exact ⟨hmasked, hsettled.holds⟩
  cases command with
  | enableRead | disableRead | inboundConsumed bytes =>
    cases hrun
    exact hupdated _ ⟨rfl, id, hsettled.asked⟩
  | write id data => cases hplain
  | shutdownWrite id => cases hplain
  | close =>
    cases hrun
    exact ⟨Reactor.masked_of_closed (Reactor.closeReactorState_isClosed _ _),
      (Reactor.holds_readMoves r).close _ hsettled.holds⟩

theorem masked_write {id : Nat} {data : Bytes} {r' : Reactor}
    (hmasked : r.Masked) (hsettled : r.Settled) (hnone : r.closingWrite = false)
    (hrun : r.process (.write id data) answers updateOk shutdownOk = some r') : r'.Masked ∧ r.Holds r' := by
  have hunshut : r.writeClosed = false := by
    by_contra hshut
    rw [hsettled.asked (by simpa using hshut)] at hnone
    cases hnone
  unfold Reactor.process at hrun
  split at hrun
  · cases hrun
    exact ⟨hmasked, hsettled.holds⟩
  next hopen =>
  have hholds := (Reactor.holds_flushMoves r).flushReactorWrites hrun ⟨rfl, fun h => h, hsettled.asked⟩
  refine ⟨(Reactor.masked_flushRule updateOk shutdownOk).flushReactorWrites (fun _ _ => trivial) hrun ?_ ?_, hholds⟩
  · rintro (hclosed | hshut)
    · exact Reactor.masked_of_closed hclosed
    · exact absurd (hunshut.symm.trans hshut) Bool.false_ne_true
  · exact fun _ _ => hnone

theorem Tracks.command (h : s.Tracks) {command : Command} {mailbox : List Command}
    (hmailbox : s.main.mailbox = command :: mailbox)
    (hempty : ∀ id, command = .shutdownWrite id → s.reactor.writes = [])
    (hrun : s.reactor.process command answers updateOk shutdownOk = some r) :
    Tracks { s with main := { s.main with mailbox := mailbox }, reactor := r } := by
  have hpairs := h.order
  rw [hmailbox] at hpairs
  obtain ⟨hafter, horder⟩ := List.pairwise_cons.mp hpairs
  have hhead : command ∈ s.main.mailbox := hmailbox ▸ List.mem_cons_self
  have hended : ∀ c ∈ mailbox, c.endsWriting = true → s.main.Dead :=
    fun c hc => h.ended c (hmailbox ▸ List.mem_cons_of_mem command hc)
  have hclosing : s.reactor.closingWrite = true → s.main.Dead ∧ ∀ c ∈ mailbox, c.isWriting = false := by
    intro hclosing
    obtain ⟨hdead, hplain⟩ := h.closing hclosing
    exact ⟨hdead, fun c hc => hplain c (hmailbox ▸ List.mem_cons_of_mem command hc)⟩
  cases hwriting : command.isWriting with
  | false =>
    obtain ⟨hmasked, hholds⟩ := masked_process hwriting h.masked h.settled hrun
    exact ⟨hmasked, hholds.settled h.settled, horder, hended, fun hc => hclosing (hholds.closingWrite ▸ hc)⟩
  | true =>
    cases command with
    | write id data =>
      -- a half-close already asked for would have been the last of the writing
      have hnone : s.reactor.closingWrite = false := by
        by_contra hsome
        cases (h.closing (by simpa using hsome)).2 _ hhead
      obtain ⟨hmasked, hholds⟩ := masked_write h.masked h.settled hnone hrun
      exact ⟨hmasked, hholds.settled h.settled, horder, hended, fun hc => hclosing (hholds.closingWrite ▸ hc)⟩
    | shutdownWrite id =>
      obtain ⟨hmasked, hsettled⟩ := h.masked.shutdownWrite h.settled (hempty id rfl) id hrun
      exact ⟨hmasked, hsettled, horder, hended, fun _ => ⟨h.ended _ hhead rfl, fun c hc => hafter c hc rfl⟩⟩
    | _ => cases hwriting

theorem Tracks.step (h : s.Tracks) {a : Action} (ha : s.EmptyAtHalfClose a) (hstep : s.step a = some s') :
    s'.Tracks := by
  cases a with
  | call c =>
    cases hstep
    obtain ⟨posted, hmoves⟩ := PosixFdTransport.moves_call (P := fun _ => True) (Q := fun _ => True)
      (c := c) trivial s.main
    have hposts := PosixFdTransport.Posts.moves hmoves
    exact h.posts hposts h.masked h.settled rfl _
  | deliver r ack enable =>
    obtain ⟨event, outbox, houtbox, rfl⟩ := step_deliver hstep
    obtain ⟨posted, hmoves⟩ := PosixFdTransport.moves_event (P := fun _ => True)
      (Q := (· = event)) rfl (fun _ _ => trivial) ack enable s.main
    have hposts := PosixFdTransport.Posts.moves hmoves
    exact h.posts hposts (r := { s.reactor with outbox := outbox }) h.masked ⟨h.settled.done, h.settled.asked⟩ rfl _
  | command answers updateOk shutdownOk =>
    obtain ⟨command, mailbox, r, hmailbox, hrun, rfl⟩ := step_command hstep
    exact h.command hmailbox (fun id heq => ha id mailbox (heq ▸ hmailbox)) hrun
  | readable answers eofOnAgain updateOk =>
    obtain ⟨r, hrun, rfl⟩ := Option.map_eq_some_iff.mp hstep
    have hholds := (Reactor.holds_readMoves s.reactor).readReactorState hrun h.settled.holds
    exact h.reactor (h.masked.readReactorState hrun) (hholds.settled h.settled) hholds.closingWrite
  | writable answers updateOk shutdownOk =>
    obtain ⟨r, hrun, rfl⟩ := Option.map_eq_some_iff.mp hstep
    have hholds := (Reactor.holds_flushMoves s.reactor).flushReactorWrites hrun h.settled.holds
    exact h.reactor (h.masked.flushReactorWrites h.settled hrun) (hholds.settled h.settled) hholds.closingWrite
  | stop error =>
    cases hstep
    have hholds := (Reactor.holds_readMoves s.reactor).close error h.settled.holds
    exact h.reactor (Reactor.masked_of_closed (Reactor.closeReactorState_isClosed _ _)) (hholds.settled h.settled)
      hholds.closingWrite

theorem tracks_of_reachable {config : Config} (h : Reachable EmptyAtHalfClose config s) : s.Tracks := by
  exact h.invariant (tracks_adopted config) fun _ _ _ hs ha hstep => hs.step ha hstep

theorem Tracks.dispatch (h : s.Tracks) {event : ReactorEvents} {e : Reactor.DispatchEnv}
    (hrun : s.reactor.dispatch event e = some r) : Tracks { s with reactor := r } := by
  refine Reactor.dispatch_keeps (P := fun r => Tracks { s with reactor := r }) ?_ ?_ hrun h
  · intro answers eofOnAgain updateOk r r' hrun htracks
    apply htracks.step (a := .readable answers eofOnAgain updateOk) trivial
    simp only [System.step, hrun, Option.map_some]
  · intro answers updateOk shutdownOk r r' hrun htracks
    apply htracks.step (a := .writable answers updateOk shutdownOk) trivial
    simp only [System.step, hrun, Option.map_some]

/-- After every command and every event, an open transport's mask is the one its state asks for, if half-closes are read
with nothing queued. -/
theorem mask_follows_state {config : Config} (h : Reachable EmptyAtHalfClose config s) :
    (s.reactor.closed = false → s.reactor.pushed = s.reactor.interest) ∧
      ∀ event e r, s.reactor.dispatch event e = some r → r.closed = false → r.pushed = r.interest := by
  have htracks := tracks_of_reachable h
  constructor
  · exact htracks.masked
  · intro event e r hrun
    exact (htracks.dispatch hrun).masked

/-- A write that the socket takes in two calls, and then a half-close. -/
theorem mask_follows_half_close :
    ∃ s, Reachable EmptyAtHalfClose {} s ∧ s.reactor.writeClosed = true ∧ s.reactor.closed = false ∧
      s.reactor.pushed = s.reactor.interest := by
  have hreach : ∃ s, Reachable EmptyAtHalfClose {} s ∧ s.reactor.writeClosed = true ∧ s.reactor.closed = false := by
    have h0 : Reachable EmptyAtHalfClose {} (adopted {}) := .start
    have h1 := h0.next (.call (.write [7, 8] .ok)) trivial rfl
    have h2 := h1.next (.command [.accepted 1, .again] true true) nofun rfl
    have h3 := h2.next (.writable [.accepted 1] true true) trivial rfl
    have h4 := h3.next (.call (.closeWrite .ok)) trivial rfl
    exact ⟨_, h4.next (.command [] true true) (fun _ _ _ => rfl) rfl, rfl, rfl⟩
  obtain ⟨s, hreach, hshut, hopen⟩ := hreach
  exact ⟨s, hreach, hshut, hopen, (mask_follows_state hreach).1 hopen⟩

/-- A write waits for room, the half-close behind it goes through when there is some, and the poller is still asked for
room that nobody wants. -/
theorem half_close_leaves_write_interest :
    ∃ s, Reachable (fun _ _ => True) {} s ∧ s.reactor.closed = false ∧ s.reactor.writes = [] ∧
      s.reactor.pushed = (false, true) := by
  have h0 : Reachable (fun _ _ => True) {} (adopted {}) := .start
  have h1 := h0.next (.call (.write [7] .ok)) trivial rfl
  have h2 := h1.next (.command [.again] true true) trivial rfl
  have h3 := h2.next (.call (.closeWrite .ok)) trivial rfl
  have h4 := h3.next (.command [.again] true true) trivial rfl
  exact ⟨_, h4.next (.writable [.accepted 1] true true) trivial rfl, rfl, rfl, rfl⟩

end System

end TailscaleDart.Fd
