import TailscaleDart.Conc.Machine
import TailscaleDart.Data.Held

/-!
# Listener.Accepting — descriptors between native accept and the transports

`_FdTailscaleListener` and `_FdTailscaleHttpServer` share one design: an isolate loops on the native accept and sends
what it returns to a port of the main isolate, which adopts the descriptors or queues them while its stream is paused.
An accept carries one descriptor on the first and two on the second; `Kind` says which, and where the two loops treat
an error differently.

Each step is what one isolate does between two points where the other may run, or where its own event loop may run
something else. Descriptors are named in the order in which native accept returns them, so that a number the system
uses again is another descriptor.

A descriptor is an integer inside a message, and nobody owns it while it is under way: `close` kills the isolate
between the native call and the send, and shuts the port with messages in it (`descriptors_dropped_by_close`).
`Conserved` keeps such descriptors as `lost`.
-/

namespace TailscaleDart.Listener

open Data Conc

/-! ## The two servers -/

inductive Kind where
  /-- `_FdTailscaleListener` with `_tcpAcceptLoop`. -/
  | tcp
  /-- `_FdTailscaleHttpServer` with `_httpAcceptLoop`. -/
  | http
  deriving DecidableEq, Repr

/-- `_maxPendingAcceptedConnections` and `_maxPendingHttpAccepts`. -/
def maxPendingAccepts : Kind → Nat
  | .tcp => 128
  | .http => 128

def maxConsecutiveAcceptErrors : Nat := 20

/-- How many descriptors one accept returns: the connection's, or those of the request body and the response body. -/
def Kind.width : Kind → Nat
  | tcp => 1
  | http => 2

/-- The descriptors of an accept, when `next` were returned before it. -/
def Kind.fds (next : Nat) : Kind → List Nat
  | tcp => [next]
  | http => [next, next + 1]

inductive Message where
  /-- `null`: the loop is over. -/
  | closed
  | error
  | fatal
  | accepted (fds : List Nat)
  deriving DecidableEq, Repr

def Message.fds : Message → List Nat
  | accepted fds => fds
  | _ => []

/-- Where the accept isolate stands. -/
inductive AcceptLoop where
  -- there is no port yet
  | idle
  | spawning
  -- `Isolate.spawn` threw
  | failed
  -- inside the native accept
  | accepting (consecutiveErrors : Nat)
  -- native accept has returned descriptors, which are not sent yet
  | decoding (fds : List Nat)
  | ended
  deriving DecidableEq, Repr

def AcceptLoop.fds : AcceptLoop → List Nat
  | decoding fds => fds
  | _ => []

/-- How far `close` has come. -/
inductive Closing where
  | opened
  -- `_closed` is set and `_closeFn` awaited
  | closing
  -- the finally block has run
  | done
  deriving DecidableEq, Repr

structure FdServer where
  kind : Kind
  closing : Closing := .opened
  /-- Under way to the port, which is shut once `close` is done. -/
  messages : List Message := []
  /-- `_acceptIsolate`: the main isolate has the handle, and gets the exit notice. -/
  acceptIsolate : Bool := false
  killed : Bool := false
  loop : AcceptLoop := .idle
  exitPosted : Bool := false
  isPaused : Bool := false
  pendingAccepts : List (List Nat) := []
  /-- For each delivery the descriptors it has not handed to `adopt` yet. -/
  deliveries : List (List Nat) := []
  nextFD : Nat := 0
  -- what has happened
  adopted : List Nat := []
  closedDirectly : List Nat := []
  lost : List Nat := []
  deriving DecidableEq, Repr

namespace FdServer

variable (s : FdServer)

def closed : Bool := s.closing ≠ .opened

/-- The port exists. -/
def acceptEvents : Bool := s.loop ≠ .idle

/-! ## The main isolate -/

/-- `close` up to its await. -/
def close : FdServer :=
  if s.closing = .opened then { s with closing := .closing } else s

def closePendingAccepts : FdServer :=
  { s with pendingAccepts := [], closedDirectly := s.closedDirectly ++ s.pendingAccepts.flatten }

/-- `_closeFn` returns or throws: the finally block of `close`. -/
def finishClose : Option FdServer :=
  if s.closing = .closing then
    some (closePendingAccepts { s with
      closing := .done
      killed := s.acceptIsolate
      messages := []
      lost := s.lost ++ s.messages.flatMap Message.fds })
  else none

def startAcceptLoop : FdServer :=
  if s.closed ∨ s.acceptEvents then s else { s with loop := .spawning }

/-- The awaited `Isolate.spawn` returns to the main isolate; the new one may have run for a while. -/
def spawnReturns : Option FdServer :=
  match s.loop with
  | .idle | .spawning | .failed => none
  | _ => if s.acceptIsolate then none else some { s with acceptIsolate := true }

/-- `Isolate.spawn` throws; the stream is closed once `close` is done. -/
def spawnFails : Option FdServer :=
  match s.loop with
  | .spawning => some (if s.closing = .done then { s with loop := .failed } else close { s with loop := .failed })
  | _ => none

/-- `_deliverAccepted` up to its first await: the first descriptor goes to `adopt`. -/
def deliverAccepted (accept : List Nat) : FdServer :=
  match accept with
  | [] => s
  | fd :: rest => { s with adopted := s.adopted ++ [fd], deliveries := s.deliveries ++ [rest] }

/-- An `adopt` of `_deliverAccepted` returns or throws. A descriptor that is left is adopted too, also when the server
was closed in between, or closed directly. -/
def adoptReturns (i : Nat) (ok : Bool) : Option FdServer :=
  match s.deliveries[i]? with
  | some (fd :: rest) =>
    if ok then some { s with adopted := s.adopted ++ [fd], deliveries := s.deliveries.set i rest }
    else some { s with closedDirectly := s.closedDirectly ++ fd :: rest, deliveries := s.deliveries.set i [] }
  | _ => none

def enqueueAccepted (accept : List Nat) : FdServer :=
  if maxPendingAccepts s.kind ≤ s.pendingAccepts.length then
    { s with closedDirectly := s.closedDirectly ++ accept }
  else { s with pendingAccepts := s.pendingAccepts ++ [accept] }

/-- The loop of `_drainPendingAccepts` over what is pending. -/
def drainFrom : List (List Nat) → FdServer → FdServer
  | [], s => s
  | accept :: rest, s =>
    if s.closed ∨ s.isPaused then s else drainFrom rest (deliverAccepted { s with pendingAccepts := rest } accept)

def drainPendingAccepts : FdServer := drainFrom s.pendingAccepts s

def handleAcceptEvent (message : Message) : FdServer :=
  if s.closed then { s with closedDirectly := s.closedDirectly ++ message.fds }
  else
    match message with
    | .closed => s.close
    -- the listener only reports it, and its loop goes on
    | .error =>
      match s.kind with
      | .tcp => s
      | .http => s.close
    | .fatal => s.close
    | .accepted accept =>
      if s.isPaused ∨ s.pendingAccepts ≠ [] then s.enqueueAccepted accept else s.deliverAccepted accept

/-- The port delivers its first message. -/
def receive : Option FdServer :=
  match s.messages with
  | [] => none
  | message :: rest => some (handleAcceptEvent { s with messages := rest } message)

/-! ## The accept isolate -/

/-- `sendPort.send`; what is sent to a port that is shut is gone. -/
def send (message : Message) : FdServer :=
  if s.closing = .done then { s with lost := s.lost ++ message.fds }
  else { s with messages := s.messages ++ [message] }

/-- What native accept returns. -/
inductive Result where
  | closed
  | error
  | malformed
  | invalidFds
  | accepted
  deriving DecidableEq, Repr

def tcpAcceptLoop (consecutiveErrors : Nat) : Result → FdServer
  | .closed => { s.send .closed with loop := .ended }
  | .error =>
    if maxConsecutiveAcceptErrors ≤ consecutiveErrors + 1 then { s.send .fatal with loop := .ended }
    else { s.send .error with loop := .accepting (consecutiveErrors + 1) }
  | .malformed => { s.send .fatal with loop := .ended }
  | .invalidFds => { s.send .fatal with loop := .ended }
  | .accepted => { s with loop := .decoding (s.kind.fds s.nextFD), nextFD := s.nextFD + s.kind.width }

def httpAcceptLoop : Result → FdServer
  | .closed => { s.send .closed with loop := .ended }
  | .error => { s.send .error with loop := .ended }
  | .malformed => { s.send .fatal with loop := .ended }
  | .invalidFds => { s.send .error with loop := .ended }
  | .accepted => { s with loop := .decoding (s.kind.fds s.nextFD), nextFD := s.nextFD + s.kind.width }

/-- Native accept returns. -/
def accept (result : Result) : Option FdServer :=
  match s.loop with
  | .accepting consecutiveErrors =>
    match s.kind with
    | .tcp => some (s.tcpAcceptLoop consecutiveErrors result)
    | .http => some (s.httpAcceptLoop result)
  | _ => none

/-- The loop sends its `accepted` message and goes on. -/
def sendAccepted : Option FdServer :=
  match s.loop with
  | .decoding fds => some { s.send (.accepted fds) with loop := .accepting 0 }
  | _ => none

/-- The isolate that was killed stops, wherever it is. -/
def die : Option FdServer :=
  if s.killed then some { s with loop := .ended, lost := s.lost ++ s.loop.fds } else none

/-- The exit notice of an isolate that ended. -/
def exit : Option FdServer :=
  if s.loop = .ended ∧ s.acceptIsolate ∧ ¬ s.exitPosted then some { s.send .closed with exitPosted := true } else none

end FdServer

/-! ## Runs -/

inductive Action where
  /-- The consumer listens, pauses, resumes or cancels, or somebody calls `close`. -/
  | listen
  | pause
  | resume
  | close
  | finishClose
  /-- The new isolate begins to run. -/
  | started
  | spawnReturns
  | spawnFails
  | accept (result : FdServer.Result)
  | sendAccepted
  | die
  | exit
  | receive
  | adoptReturns (i : Nat) (ok : Bool)
  deriving DecidableEq, Repr

def FdServer.step (s : FdServer) : Action → Option FdServer
  | .listen => some s.startAcceptLoop
  | .pause => some { s with isPaused := true }
  | .resume => some (drainPendingAccepts { s with isPaused := false })
  | .close => some s.close
  | .finishClose => s.finishClose
  | .started => if s.loop = .spawning then some { s with loop := .accepting 0 } else none
  | .spawnReturns => s.spawnReturns
  | .spawnFails => s.spawnFails
  | .accept result => s.accept result
  | .sendAccepted => s.sendAccepted
  | .die => s.die
  | .exit => s.exit
  | .receive => s.receive
  | .adoptReturns i ok => s.adoptReturns i ok

/-- The states of the runs of a server whose steps all meet `ok` in the state before them. -/
abbrev Reachable (ok : Action → FdServer → Prop) (kind : Kind) : FdServer → Prop :=
  Machine.Reachable FdServer.step ok { kind := kind }

/-! ## Where every descriptor is -/

theorem created_width (kind : Kind) (next fd : Nat) :
    created (next + kind.width) fd = created next fd + (kind.fds next).count fd := by
  cases kind with
  | tcp => exact created_succ next fd
  | http =>
    have hsplit : (Kind.fds next .http).count fd = [next].count fd + [next + 1].count fd := by
      rw [← List.count_append]
      rfl
    rw [hsplit]
    show created (next + 1 + 1) fd = _
    rw [created_succ, created_succ]
    omega

/-- The descriptors a state still has to settle, and those it has settled or lost. -/
def FdServer.places (s : FdServer) (fd : Nat) : Nat :=
  s.loop.fds.count fd + held Message.fds s.messages fd + held id s.pendingAccepts fd + held id s.deliveries fd +
    s.adopted.count fd + s.closedDirectly.count fd + s.lost.count fd

/-- Nothing is under way to the main isolate, and nothing waits in it. -/
def FdServer.Through (s : FdServer) : Prop := s.loop.fds = [] ∧ s.messages = [] ∧ s.pendingAccepts = []

/-! ## What a step can do -/

/-- The descriptors stay, those in the hand of the step counted: none is lost, and once `close` is done nothing comes
up that could be. -/
structure Moves (hand : List Nat) (s s' : FdServer) : Prop where
  places : ∀ fd, s'.places fd + hand.count fd = s.places fd
  frame : (s'.nextFD, s'.lost, s'.killed) = (s.nextFD, s.lost, s.killed)
  closing : s'.closing = s.closing ∨ s.closing = .opened ∧ s'.closing = .closing
  through : s.closing = .done → s.Through → s'.Through

/-- What an action does to the descriptors. -/
inductive Step (s : FdServer) : Action → FdServer → Prop
  | moves {a : Action} {s' : FdServer} (h : Moves [] s s') : Step s a s'
  | finishes : Step s .finishClose (FdServer.closePendingAccepts { s with
      closing := .done
      killed := s.acceptIsolate
      messages := []
      lost := s.lost ++ s.messages.flatMap Message.fds })
  | returns (hnone : s.loop.fds = []) : Step s (.accept .accepted)
      { s with loop := .decoding (s.kind.fds s.nextFD), nextFD := s.nextFD + s.kind.width }
  /-- The port is shut, or the isolate is killed. -/
  | loses {a : Action} (loop : AcceptLoop) (hloop : loop.fds = []) (hwhen : s.closing = .done ∨ s.killed = true) :
      Step s a { s with loop := loop, lost := s.lost ++ s.loop.fds }

section Steps

variable {s s' : FdServer} {hand : List Nat}

theorem Moves.refl : Moves [] s s := ⟨fun _ => rfl, rfl, .inl rfl, fun _ => id⟩

theorem Moves.close (h : Moves [] s s') : Moves [] s s'.close := by
  unfold FdServer.close
  split
  case isTrue hopened =>
    refine ⟨h.places, h.frame, ?_, h.through⟩
    rcases h.closing with hsame | ⟨-, hclosing⟩
    · exact .inr ⟨hsame.symm.trans hopened, rfl⟩
    · cases hclosing.symm.trans hopened
  case isFalse => exact h

theorem Moves.not_done (h : Moves hand s s') (hopen : s'.closing ≠ .done) : s.closing ≠ .done := by
  rcases h.closing with hsame | ⟨hopened, -⟩
  · rwa [← hsame]
  · simp [hopened]

theorem Moves.deliverAccepted (h : Moves hand s s') : Moves [] s (s'.deliverAccepted hand) := by
  cases hand with
  | nil => exact h
  | cons first rest =>
    refine { h with places := fun fd => ?_ }
    have hfd := h.places fd
    simp only [FdServer.deliverAccepted, FdServer.places, held_append, held_cons, held_nil, List.count_append,
      List.count_cons, List.count_nil, id] at hfd ⊢
    omega

theorem Moves.closeDirectly (h : Moves hand s s') :
    Moves [] s { s' with closedDirectly := s'.closedDirectly ++ hand } := by
  refine { h with places := fun fd => ?_ }
  have hfd := h.places fd
  simp only [FdServer.places, List.count_append, List.count_nil] at hfd ⊢
  omega

theorem Moves.enqueueAccepted (h : Moves hand s s') (hopen : s'.closing ≠ .done) :
    Moves [] s (s'.enqueueAccepted hand) := by
  unfold FdServer.enqueueAccepted
  split
  · exact h.closeDirectly
  · refine { h with places := fun fd => ?_, through := fun hdone => absurd hdone (h.not_done hopen) }
    have hfd := h.places fd
    simp only [FdServer.places, held_append, held_cons, held_nil, List.count_nil, id] at hfd ⊢
    omega

theorem Moves.drainFrom {pending : List (List Nat)} (h : Moves [] s s') (hpending : s'.pendingAccepts = pending) :
    Moves [] s (FdServer.drainFrom pending s') := by
  induction pending generalizing s' with
  | nil => exact h
  | cons accept rest ih =>
    unfold FdServer.drainFrom
    split
    · exact h
    · refine ih ?_ (by cases accept <;> rfl)
      refine Moves.deliverAccepted { h with places := fun fd => ?_, through := fun hdone hthrough => ?_ }
      · have hfd := h.places fd
        simp only [FdServer.places, hpending, held_cons, List.count_nil, id] at hfd ⊢
        omega
      · cases hpending.symm.trans (h.through hdone hthrough).2.2

theorem Moves.handleAcceptEvent {message : Message} (h : Moves message.fds s s') :
    Moves [] s (s'.handleAcceptEvent message) := by
  unfold FdServer.handleAcceptEvent
  split
  case isTrue => exact h.closeDirectly
  case isFalse hopen =>
    cases message with
    | closed => exact Moves.close h
    | error =>
      dsimp only
      split
      · exact h
      · exact Moves.close h
    | fatal => exact Moves.close h
    | accepted accept =>
      dsimp only
      split
      · refine Moves.enqueueAccepted h fun hdone => hopen ?_
        simp [FdServer.closed, hdone]
      · exact Moves.deliverAccepted h

/-- The loop goes on where it holds nothing. -/
theorem moves_loop {loop : AcceptLoop} (hnone : s.loop.fds = []) (hloop : loop.fds = []) :
    Moves [] s { s with loop := loop } := by
  refine ⟨fun fd => ?_, rfl, .inl rfl, fun _ hthrough => ⟨hloop, hthrough.2⟩⟩
  simp only [FdServer.places, hnone, hloop, List.count_nil, Nat.add_zero]

/-- Sending a message and going on: the descriptors of the loop are those of the message. -/
theorem moves_send {message : Message} (hfds : s.loop.fds = message.fds)
    (hopen : s.closing = .done → message.fds = []) {loop : AcceptLoop} (hloop : loop.fds = []) {posted : Bool} :
    Moves [] s { s.send message with loop := loop, exitPosted := posted } := by
  unfold FdServer.send
  split
  case isTrue hdone =>
    have hnone := hopen hdone
    refine ⟨fun fd => ?_, ?_, .inl rfl, fun _ hthrough => ⟨hloop, hthrough.2⟩⟩
    · simp only [FdServer.places, hfds, hnone, hloop, List.append_nil, List.count_nil, Nat.add_zero]
    · simp only [hnone, List.append_nil]
  case isFalse hnotDone =>
    refine ⟨fun fd => ?_, rfl, .inl rfl, fun hdone => absurd hdone hnotDone⟩
    simp only [FdServer.places, hloop, hfds, held_append, held_cons, held_nil, List.count_nil]
    omega

theorem moves_receive (hstep : s.receive = some s') : Moves [] s s' := by
  unfold FdServer.receive at hstep
  split at hstep
  case h_1 => cases hstep
  case h_2 message rest hmessages =>
    cases hstep
    refine Moves.handleAcceptEvent ⟨fun fd => ?_, rfl, .inl rfl, fun _ hthrough => ?_⟩
    · simp only [FdServer.places, hmessages, held_cons]
      omega
    · cases hmessages.symm.trans hthrough.2.1

theorem moves_adoptReturns {i : Nat} {ok : Bool} (hstep : s.adoptReturns i ok = some s') : Moves [] s s' := by
  unfold FdServer.adoptReturns at hstep
  split at hstep
  case h_1 first rest hi =>
    split at hstep
    case isTrue =>
      cases hstep
      refine ⟨fun fd => ?_, rfl, .inl rfl, fun _ => id⟩
      have hset := held_set (f := id) hi rest fd
      simp only [FdServer.places, List.count_append, List.count_cons, List.count_nil, id] at hset ⊢
      omega
    case isFalse =>
      cases hstep
      refine ⟨fun fd => ?_, rfl, .inl rfl, fun _ => id⟩
      have hset := held_set (f := id) hi [] fd
      simp only [FdServer.places, List.count_append, List.count_cons, List.count_nil, id] at hset ⊢
      omega
  case h_2 => cases hstep

theorem step_accept {result : FdServer.Result} (hstep : s.accept result = some s') : Step s (.accept result) s' := by
  unfold FdServer.accept at hstep
  split at hstep
  case h_1 consecutiveErrors hloop =>
    have hnone : s.loop.fds = [] := by rw [hloop]; rfl
    split at hstep
    case h_1 =>
      cases hstep
      cases result with
      | accepted => exact .returns hnone
      | error =>
        simp only [FdServer.tcpAcceptLoop]
        split
        · exact .moves (moves_send hnone (fun _ => rfl) rfl)
        · exact .moves (moves_send hnone (fun _ => rfl) rfl)
      | closed | malformed | invalidFds => exact .moves (moves_send hnone (fun _ => rfl) rfl)
    case h_2 =>
      cases hstep
      cases result with
      | accepted => exact .returns hnone
      | error | closed | malformed | invalidFds => exact .moves (moves_send hnone (fun _ => rfl) rfl)
  case h_2 => cases hstep

theorem step_sendAccepted {a : Action} (hstep : s.sendAccepted = some s') : Step s a s' := by
  unfold FdServer.sendAccepted at hstep
  split at hstep
  case h_1 fds hloop =>
    cases hstep
    have hfds : s.loop.fds = fds := by rw [hloop]; rfl
    by_cases hdone : s.closing = .done
    · rw [FdServer.send, if_pos hdone, Message.fds, ← hfds]
      exact .loses (.accepting 0) rfl (.inl hdone)
    · exact .moves (moves_send hfds (fun h => absurd h hdone) rfl)
  case h_2 => cases hstep

theorem moves_exit (hstep : s.exit = some s') : Moves [] s s' := by
  unfold FdServer.exit at hstep
  split at hstep
  case isTrue hended =>
    cases hstep
    refine moves_send (by rw [hended.1]; rfl) (fun _ => rfl) ?_
    unfold FdServer.send
    split <;> simp only [hended.1, AcceptLoop.fds]
  case isFalse => cases hstep

theorem step_cases {a : Action} (hstep : s.step a = some s') : Step s a s' := by
  cases a with
  | listen =>
    cases hstep
    refine .moves ?_
    unfold FdServer.startAcceptLoop
    split
    case isTrue => exact .refl
    case isFalse hfirst =>
      have hloop : s.loop = .idle := by simpa [FdServer.acceptEvents] using (not_or.mp hfirst).2
      exact moves_loop (by rw [hloop]; rfl) rfl
  | pause =>
    cases hstep
    exact .moves { Moves.refl (s := s) with }
  | resume =>
    cases hstep
    exact .moves (Moves.drainFrom { Moves.refl (s := s) with } rfl)
  | close =>
    cases hstep
    exact .moves Moves.refl.close
  | finishClose =>
    obtain ⟨-, heq⟩ := Option.ite_none_right_eq_some.mp hstep
    cases heq
    exact .finishes
  | started =>
    obtain ⟨hloop, heq⟩ := Option.ite_none_right_eq_some.mp hstep
    cases heq
    exact .moves (moves_loop (by rw [hloop]; rfl) rfl)
  | spawnReturns =>
    simp only [FdServer.step, FdServer.spawnReturns] at hstep
    split at hstep
    case h_1 | h_2 | h_3 => cases hstep
    case h_4 =>
      obtain ⟨-, heq⟩ := Option.ite_none_left_eq_some.mp hstep
      cases heq
      exact .moves { Moves.refl (s := s) with }
  | spawnFails =>
    simp only [FdServer.step, FdServer.spawnFails] at hstep
    split at hstep
    case h_1 hloop =>
      have hfailed : Moves [] s { s with loop := .failed } := moves_loop (by rw [hloop]; rfl) rfl
      cases hstep
      split
      · exact .moves hfailed
      · exact .moves hfailed.close
    case h_2 => cases hstep
  | accept result => exact step_accept hstep
  | sendAccepted => exact step_sendAccepted hstep
  | die =>
    obtain ⟨hkilled, heq⟩ := Option.ite_none_right_eq_some.mp hstep
    cases heq
    exact .loses .ended rfl (.inr hkilled)
  | exit => exact .moves (moves_exit hstep)
  | receive => exact .moves (moves_receive hstep)
  | adoptReturns i ok => exact .moves (moves_adoptReturns hstep)

/-- Every descriptor native accept has returned is in one place. -/
def Conserved (s : FdServer) : Prop := ∀ fd, s.places fd = created s.nextFD fd

theorem Conserved.step (hs : Conserved s) {a : Action} (hstep : Step s a s') : Conserved s' := by
  intro fd
  have hfd := hs fd
  cases hstep with
  | moves h =>
    rw [(Prod.mk.inj h.frame).1, ← hs fd]
    exact h.places fd
  | finishes =>
    have hpending : s.pendingAccepts.flatten.count fd = held id s.pendingAccepts fd := by
      rw [held, List.flatMap_id]
    have hmessages : (s.messages.flatMap Message.fds).count fd = held Message.fds s.messages fd := rfl
    simp only [FdServer.places, FdServer.closePendingAccepts, List.count_append, held_nil] at hfd ⊢
    omega
  | returns hnone =>
    simp only [FdServer.places, hnone, List.count_nil] at hfd
    simp only [FdServer.places, created_width, AcceptLoop.fds]
    omega
  | loses _ hloop =>
    simp only [FdServer.places, hloop, List.count_append, List.count_nil] at hfd ⊢
    omega

/-! ## What is lost -/

/-- When `close` shuts the port, no descriptor is on its way from the isolate, and none comes out of native accept
after that. -/
def NoneUnderWay : Action → FdServer → Prop
  | .finishClose, s => s.loop.fds = [] ∧ ∀ message ∈ s.messages, message.fds = []
  | .accept .accepted, s => s.closing ≠ .done
  | _, _ => True

/-- Nothing is lost, and once `close` is done nothing is left that could be. -/
structure Kept (s : FdServer) : Prop where
  lost : s.lost = []
  killed : s.killed = true → s.closing = .done
  through : s.closing = .done → s.Through

theorem Kept.step (hs : Kept s) {a : Action} (hok : NoneUnderWay a s) (hstep : Step s a s') : Kept s' := by
  cases hstep with
  | moves h =>
    obtain ⟨-, hlost, hkilled⟩ : _ ∧ _ ∧ _ := by simpa only [Prod.mk.injEq] using h.frame
    refine ⟨hlost.trans hs.lost, fun hk => ?_, fun hdone => ?_⟩
    · have hdone := hs.killed (hkilled ▸ hk)
      rcases h.closing with hsame | ⟨hopened, -⟩
      · exact hsame.trans hdone
      · cases hopened.symm.trans hdone
    · rcases h.closing with hsame | ⟨-, hclosing⟩
      · have hbefore := hsame.symm.trans hdone
        exact h.through hbefore (hs.through hbefore)
      · cases hclosing.symm.trans hdone
  | finishes =>
    have hmessages : s.messages.flatMap Message.fds = [] := List.flatMap_eq_nil_iff.mpr hok.2
    refine ⟨?_, fun _ => rfl, fun _ => ⟨hok.1, rfl, rfl⟩⟩
    show s.lost ++ s.messages.flatMap Message.fds = []
    rw [hs.lost, hmessages, List.append_nil]
  | returns => exact ⟨hs.lost, hs.killed, fun hdone => absurd hdone hok⟩
  | loses _ hloop hwhen =>
    -- the loop held nothing: all was through before
    have hthrough := hs.through (hwhen.elim id hs.killed)
    refine ⟨?_, hs.killed, fun hdone => ⟨hloop, (hs.through hdone).2⟩⟩
    rw [hs.lost, hthrough.1, List.append_nil]

end Steps

/-! ## Every run -/

section Runs

variable {ok : Action → FdServer → Prop} {kind : Kind} {s : FdServer}

theorem conserved_of_reachable (h : Reachable ok kind s) : Conserved s := by
  refine h.invariant (fun fd => ?_) fun _ _ _ hs _ hstep => hs.step (step_cases hstep)
  simp [FdServer.places, AcceptLoop.fds, created]

theorem kept_of_reachable (h : Reachable NoneUnderWay kind s) : Kept s := by
  refine h.invariant ⟨rfl, ?_, ?_⟩ fun _ _ _ hs hok hstep => hs.step hok (step_cases hstep)
  · intro hkilled
    cases hkilled
  · intro hdone
    cases hdone

/-- No step with a descriptor is left: the loop holds none, none is under way or pending, no delivery has one left. -/
def AllRun (s : FdServer) : Prop :=
  s.loop.fds = [] ∧ s.messages = [] ∧ s.pendingAccepts = [] ∧ ∀ rest ∈ s.deliveries, rest = []

/-- How often a descriptor was handed to `adopt`, and how often it was closed directly. -/
def FdServer.settled (s : FdServer) (fd : Nat) : Nat × Nat := (s.adopted.count fd, s.closedDirectly.count fd)

instance (s : FdServer) : Decidable (AllRun s) := inferInstanceAs (Decidable (_ ∧ _))

instance (a : Action) (s : FdServer) : Decidable (NoneUnderWay a s) :=
  match a with
  | .finishClose => inferInstanceAs (Decidable (_ ∧ _))
  | .accept .accepted => inferInstanceAs (Decidable (_ ≠ _))
  | .accept .closed | .accept .error | .accept .malformed | .accept .invalidFds => isTrue trivial
  | .listen | .pause | .resume | .close | .started | .spawnReturns | .spawnFails | .sendAccepted | .die | .exit
  | .receive | .adoptReturns _ _ => isTrue trivial

/-! ## The result -/

/-- **Every descriptor is adopted or closed, once.** In the runs in which no descriptor is under way when `close` shuts
the port, and native accept returns none after that: no descriptor is ever handed to `adopt` or closed directly more
than once, nor both; and once all steps have run, each one that native accept returned was either handed to `adopt`
exactly once or closed directly exactly once. -/
theorem descriptors_settled_once (h : Reachable NoneUnderWay kind s) :
    (∀ fd, s.settled fd = (0, 0) ∨ s.settled fd = (1, 0) ∨ s.settled fd = (0, 1)) ∧
      (AllRun s → ∀ fd < s.nextFD, s.settled fd = (1, 0) ∨ s.settled fd = (0, 1)) := by
  have hconserved := conserved_of_reachable h
  simp only [FdServer.settled, Prod.mk.injEq]
  constructor
  · intro fd
    have hfd := hconserved fd
    have hlimit := created_le s.nextFD fd
    unfold FdServer.places at hfd
    omega
  · rintro ⟨hloop, hmessages, hpending, hdeliveries⟩ fd hlt
    have hfd := hconserved fd
    have hone : created s.nextFD fd = 1 := if_pos hlt
    have hrest : held id s.deliveries fd = 0 := held_eq_zero hdeliveries
    rw [FdServer.places, hloop, hmessages, hpending, (kept_of_reachable h).lost, hrest, hone] at hfd
    simp only [List.count_nil, held_nil] at hfd
    omega

end Runs

/-- An HTTP server up to its first native accept, and one request that reaches its port. -/
def oneRequest : List Action :=
  [.listen, .started, .spawnReturns, .accept .accepted, .sendAccepted]

/-- Two requests: the first is delivered, with its second `adopt` after the close, the other is queued while the
stream is paused and closed by `close`. -/
def deliveredAndPending : List Action :=
  oneRequest ++ [.receive, .pause, .accept .accepted, .sendAccepted, .receive, .close, .accept .closed, .exit,
    .finishClose, .adoptReturns 0 true]

theorem descriptors_settled_once_http :
    ∃ s, Reachable NoneUnderWay .http s ∧ AllRun s ∧ s.nextFD = 4 ∧ s.adopted = [0, 1] ∧ s.closedDirectly = [2, 3] ∧
      ∀ fd < s.nextFD, s.settled fd = (1, 0) ∨ s.settled fd = (0, 1) := by
  have hrun : (Machine.follow FdServer.step (fun a s => decide (NoneUnderWay a s)) { kind := .http }
      deliveredAndPending).isSome := by decide
  obtain ⟨s, hs⟩ := Option.isSome_iff_exists.mp hrun
  have hreach : Reachable NoneUnderWay .http s := Machine.Reachable.follow (fun _ _ => of_decide_eq_true) .start hs
  have hfacts : AllRun s ∧ s.nextFD = 4 ∧ s.adopted = [0, 1] ∧ s.closedDirectly = [2, 3] := by
    cases hs
    decide
  exact ⟨s, hreach, hfacts.1, hfacts.2.1, hfacts.2.2.1, hfacts.2.2.2, (descriptors_settled_once hreach).2 hfacts.1⟩

/-- The isolate of a listener is killed between the native accept and its send, and the port of a server is shut with
a request in it: all steps have run, and the descriptors were neither adopted nor closed. -/
theorem descriptors_dropped_by_close :
    (∃ s, Reachable (fun _ _ => True) .tcp s ∧ AllRun s ∧ s.closing = .done ∧ s.loop = .ended ∧ s.nextFD = 1 ∧
      s.settled 0 = (0, 0)) ∧
    ∃ s, Reachable (fun _ _ => True) .http s ∧ AllRun s ∧ s.closing = .done ∧ s.loop = .ended ∧ s.nextFD = 2 ∧
      s.settled 0 = (0, 0) ∧ s.settled 1 = (0, 0) := by
  constructor
  · have hrun : (Machine.follow FdServer.step (fun _ _ => true) { kind := .tcp }
        [.listen, .started, .spawnReturns, .close, .accept .accepted, .finishClose, .die]).isSome := by decide
    obtain ⟨s, hs⟩ := Option.isSome_iff_exists.mp hrun
    refine ⟨s, Machine.Reachable.follow (fun _ _ _ => trivial) .start hs, ?_⟩
    cases hs
    decide
  · have hrun : (Machine.follow FdServer.step (fun _ _ => true) { kind := .http }
        (oneRequest ++ [.close, .accept .closed, .finishClose])).isSome := by decide
    obtain ⟨s, hs⟩ := Option.isSome_iff_exists.mp hrun
    refine ⟨s, Machine.Reachable.follow (fun _ _ _ => trivial) .start hs, ?_⟩
    cases hs
    decide

end TailscaleDart.Listener
