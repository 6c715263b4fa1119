import TailscaleDart.Fd.Transport

/-!
# Fd.Reactor — the worker's half of an adopted descriptor

The reactor shard owns the descriptor. It reads the commands the caller's half posts, makes the system
calls, and sends events back. What a system call answers is the environment's choice; the answers a
flush or a drain meets are given as a list, one per call, and a list that ends before the loop does
describes no run (`none`).

`syscalls` is the history of the calls that move bytes, with the buffer each was given; `trace` is the history of
everything the shard did with the descriptor, in order.
-/

namespace TailscaleDart.Fd

def reactorReadBudgetBytes : Nat := 1024 * 1024
def reactorWriteChunkBytes : Nat := 64 * 1024
def reactorWriteBudgetBytes : Nat := 1024 * 1024

/-- The answer to `write(2)`: there was room for so many bytes, none were taken, interrupted, would block, or an
error. -/
inductive WriteAnswer where
  | accepted (room : Nat)
  | zero
  | interrupted
  | again
  | failed (errno : Nat)
  deriving DecidableEq, Repr

/-- The answer to `read(2)`. -/
inductive ReadAnswer where
  | data (bytes : Bytes)
  | eof
  | interrupted
  | again
  | failed (errno : Nat)
  deriving DecidableEq, Repr

/-- What a read into a buffer of `limit` bytes returns. -/
def ReadAnswer.cut (limit : Nat) : ReadAnswer → ReadAnswer
  | .data bytes => .data (bytes.take limit)
  | answer => answer

/-- The answer ends the input: nothing was read, or it would block after a hang-up or an error. -/
def ReadAnswer.ends (eofOnAgain : Bool) : ReadAnswer → Bool
  | .data bytes => bytes.isEmpty
  | .eof => true
  | .again => eofOnAgain
  | .interrupted | .failed _ => false

/-- A call that moves bytes: the buffer offered and how much of it was taken, or the size of the buffer read into. -/
inductive Syscall where
  | write (offered : Bytes) (taken : Nat)
  | read (limit : Nat)
  deriving DecidableEq, Repr

/-- What the shard did with the descriptor and told the caller's half. -/
inductive Trace where
  /-- A write joined the queue. -/
  | queued (id : Nat) (data : Bytes)
  | called (call : Syscall)
  /-- What a read returned, and whether it was made for a hang-up or an error. -/
  | got (eofOnAgain : Bool) (answer : ReadAnswer)
  /-- The caller's half gave credit back. -/
  | consumed (bytes : Nat)
  | shutWrite
  | sent (event : Event)
  deriving DecidableEq, Repr

/-- The entry tells of a write or of the half-close. -/
def Trace.isWriting : Trace → Bool
  | .queued _ _ | .called (.write _ _) | .shutWrite | .sent (.writeOk _) => true
  | _ => false

/-- `_ReactorWrite`. -/
structure ReactorWrite where
  id : Nat
  data : Bytes
  offset : Nat := 0
  deriving DecidableEq, Repr

/-- `_ReactorTransportState`. -/
structure Reactor where
  config : Config := {}
  writes : List ReactorWrite := []
  pendingInboundBytes : Nat := 0
  readEnabled : Bool := false
  readClosed : Bool := false
  closingWrite : Bool := false
  writeClosed : Bool := false
  closed : Bool := false
  shutdownWriteId : Option Nat := none
  -- the interest mask last pushed to the poller: readable, writable
  lastInterest : Option (Bool × Bool) := none
  -- sent to the caller's half and not yet handled there, oldest first
  outbox : List Event := []
  syscalls : List Syscall := []
  trace : List Trace := []
  deriving DecidableEq, Repr

namespace Reactor

def note (entry : Trace) (r : Reactor) : Reactor := { r with trace := r.trace ++ [entry] }

def sendEvent (event : Event) (r : Reactor) : Reactor :=
  { r with outbox := r.outbox ++ [event], trace := r.trace ++ [.sent event] }

def record (call : Syscall) (r : Reactor) : Reactor :=
  { r with syscalls := r.syscalls ++ [call], trace := r.trace ++ [.called call] }

/-- `_closeReactorState`: with an error, the writes still queued fail with it. -/
def closeReactorState (error : Option String) (r : Reactor) : Reactor :=
  if r.closed then r
  else
    let failures := match error with
      | none => []
      | some message => r.writes.map fun w => Event.writeError w.id message
    { r with
      closed := true
      writes := []
      outbox := r.outbox ++ failures ++ [.closed]
      trace := r.trace ++ (failures ++ [.closed]).map .sent }

def closeIfFullyDone (r : Reactor) : Reactor :=
  if r.readClosed && r.writeClosed then r.closeReactorState none else r

def interest (r : Reactor) : Bool × Bool :=
  (r.readEnabled && !r.readClosed && r.pendingInboundBytes < r.config.maxInboundQueuedBytes, !r.writes.isEmpty)

/-- `_updateReactorInterest`; `ok` is the poller's answer, asked only when the mask changed. -/
def updateReactorInterest (ok : Bool) (r : Reactor) : Reactor :=
  if r.closed then r
  else if r.lastInterest = some r.interest then r
  else if ok then { r with lastInterest := some r.interest }
  else (r.sendEvent (.readError "native reactor update failed")).closeReactorState
    (some "native reactor update failed")

/-! ## Writing -/

/-- A hard error of a write: reported for the head of the queue, and then for all of it. -/
def failWrite (id : Nat) (message : String) (r : Reactor) : Reactor :=
  (r.sendEvent (.writeError id message)).closeReactorState (some message)

/-- The bytes of the head write that one call offers. -/
def offered (w : ReactorWrite) (budget : Nat) : Bytes :=
  (w.data.drop w.offset).take (min reactorWriteChunkBytes (min (w.data.length - w.offset) budget))

/-- How much of the buffer the kernel takes when it has room for `n` bytes: at least one and at most all of it. -/
def taken (n : Nat) (buffer : Bytes) : Nat := min (max n 1) buffer.length

/-- `write(2)` took `count` bytes of the head: a finished write leaves the queue and is acknowledged. -/
def advance (w : ReactorWrite) (rest : List ReactorWrite) (count : Nat) (r : Reactor) : Reactor :=
  if w.offset + count = w.data.length then { r with writes := rest }.sendEvent (.writeOk w.id)
  else { r with writes := { w with offset := w.offset + count } :: rest }

/-- After the loop: a half-close that was waiting for the queue, or a new interest mask. -/
def finishFlush (updateOk shutdownOk : Bool) (r : Reactor) : Reactor :=
  if r.writes.isEmpty && r.closingWrite && !r.writeClosed then
    if shutdownOk then
      let r := { r with writeClosed := true }.note .shutWrite
      let r := match r.shutdownWriteId with
        | none => r
        | some id => r.sendEvent (.writeOk id)
      r.closeIfFullyDone
    else
      let r := match r.shutdownWriteId with
        | none => r.sendEvent (.readError "shutdown(SHUT_WR) failed")
        | some id => r.sendEvent (.writeError id "shutdown(SHUT_WR) failed")
      r.closeReactorState (some "shutdown(SHUT_WR) failed")
  else r.updateReactorInterest updateOk

/-- The loop of `_flushReactorWrites`: one answer for each call. -/
def flushLoop (updateOk shutdownOk : Bool) : List WriteAnswer → Nat → Reactor → Option Reactor
  | answers, budget, r =>
    match r.writes, answers with
    | [], _ => some (r.finishFlush updateOk shutdownOk)
    | w :: rest, answers =>
      if budget = 0 then some (r.finishFlush updateOk shutdownOk)
      else
        match answers with
        | [] => none
        | answer :: answers =>
          let buffer := offered w budget
          match answer with
          | .accepted n =>
            -- a call that offers nothing returns 0
            if buffer.isEmpty then some ((r.record (.write buffer 0)).failWrite w.id "write syscall returned 0")
            else
              let count := taken n buffer
              flushLoop updateOk shutdownOk answers (budget - count)
                ((r.record (.write buffer count)).advance w rest count)
          | .zero => some ((r.record (.write buffer 0)).failWrite w.id "write syscall returned 0")
          | .interrupted => flushLoop updateOk shutdownOk answers budget (r.record (.write buffer 0))
          | .again => some ((r.record (.write buffer 0)).updateReactorInterest updateOk)
          | .failed errno =>
            some ((r.record (.write buffer 0)).failWrite w.id ("write syscall failed errno=" ++ toString errno))

def flushReactorWrites (answers : List WriteAnswer) (updateOk shutdownOk : Bool) (r : Reactor) : Option Reactor :=
  if r.closed || r.writeClosed then some r
  else r.flushLoop updateOk shutdownOk answers reactorWriteBudgetBytes

/-! ## Reading -/

/-- The size of the buffer one read is given. A datagram is read whole or not at all. -/
def readLimit (r : Reactor) (budget : Nat) : Nat :=
  if r.config.datagram then r.config.maxReadChunkSize
  else min r.config.maxReadChunkSize (min (r.config.maxInboundQueuedBytes - r.pendingInboundBytes) budget)

def readFinished (updateOk : Bool) (r : Reactor) : Reactor :=
  let r := { r with readClosed := true, readEnabled := false }.sendEvent .eof
  (r.updateReactorInterest updateOk).closeIfFullyDone

/-- One call of `read(2)`, with what it answers. -/
def asked (eofOnAgain : Bool) (budget : Nat) (answer : ReadAnswer) (r : Reactor) : Reactor :=
  (r.record (.read (r.readLimit budget))).note (.got eofOnAgain (answer.cut (r.readLimit budget)))

/-- The loop of `_readReactorState`. A budget that a datagram overdraws is spent. -/
def readLoop (eofOnAgain updateOk : Bool) : List ReadAnswer → Nat → Reactor → Option Reactor
  | answers, budget, r =>
    if budget = 0 then some (r.updateReactorInterest updateOk)
    else if r.config.maxInboundQueuedBytes ≤ r.pendingInboundBytes then some (r.updateReactorInterest updateOk)
    else
      match answers with
      | [] => none
      | answer :: answers =>
        let limit := r.readLimit budget
        let r := r.asked eofOnAgain budget answer
        match answer with
        | .data bytes =>
          let received := bytes.take limit
          if received.isEmpty then some (r.readFinished updateOk)
          else
            let r := { r with pendingInboundBytes := r.pendingInboundBytes + received.length }
            readLoop eofOnAgain updateOk answers (budget - received.length) (r.sendEvent (.data received))
        | .eof => some (r.readFinished updateOk)
        | .interrupted => readLoop eofOnAgain updateOk answers budget r
        | .again => if eofOnAgain then some (r.readFinished updateOk) else some r
        | .failed errno =>
          let error := "read syscall failed errno=" ++ toString errno
          some ((r.sendEvent (.readError error)).closeReactorState (some error))

def readReactorState (answers : List ReadAnswer) (eofOnAgain updateOk : Bool) (r : Reactor) : Option Reactor :=
  if !r.readEnabled || r.readClosed || r.closed then some r
  else r.readLoop eofOnAgain updateOk answers reactorReadBudgetBytes

/-! ## Commands -/

/-- One command of `_processReactorCommands`. A command for a closed transport is dropped. -/
def process (command : Command) (answers : List WriteAnswer) (updateOk shutdownOk : Bool) (r : Reactor) :
    Option Reactor :=
  if r.closed then some r
  else match command with
    | .enableRead => some ({ r with readEnabled := true }.updateReactorInterest updateOk)
    | .disableRead => some ({ r with readEnabled := false }.updateReactorInterest updateOk)
    | .inboundConsumed bytes =>
      some (({ r with pendingInboundBytes := r.pendingInboundBytes - bytes }.note
        (.consumed bytes)).updateReactorInterest updateOk)
    | .write id data =>
      flushReactorWrites answers updateOk shutdownOk
        { r with writes := r.writes ++ [{ id := id, data := data }], trace := r.trace ++ [.queued id data] }
    | .shutdownWrite id =>
      flushReactorWrites answers updateOk shutdownOk { r with closingWrite := true, shutdownWriteId := some id }
    | .close => some (r.closeReactorState none)

/-! ## Rules: what the reactor can do to a property of its state

Each loop is met once, here. `P` speaks of the state before each call and of the budget left, `Q` of the state the loop
leaves; a rule asks what one call does to them. -/

/-- One call of a flush, when its answers meet `ok`. -/
structure FlushRule (ok : WriteAnswer → Prop) (updateOk shutdownOk : Bool) (P : Nat → Reactor → Prop)
    (Q : Reactor → Prop) : Prop where
  finish : ∀ {budget r}, r.writes = [] ∨ budget = 0 → P budget r → Q (r.finishFlush updateOk shutdownOk)
  accepted : ∀ {budget r w rest n}, r.writes = w :: rest → 0 < budget → ok (.accepted n) → offered w budget ≠ [] →
    P budget r → P (budget - taken n (offered w budget))
      ((r.record (.write (offered w budget) (taken n (offered w budget)))).advance w rest (taken n (offered w budget)))
  interrupted : ∀ {budget r w rest}, r.writes = w :: rest → 0 < budget → P budget r →
    P budget (r.record (.write (offered w budget) 0))
  again : ∀ {budget r w rest}, r.writes = w :: rest → 0 < budget → P budget r →
    Q ((r.record (.write (offered w budget) 0)).updateReactorInterest updateOk)
  failed : ∀ {budget r w rest answer} message, r.writes = w :: rest → 0 < budget → ok answer →
    (∀ n, answer = .accepted n → offered w budget = []) → answer ≠ .interrupted → answer ≠ .again → P budget r →
    Q ((r.record (.write (offered w budget) 0)).failWrite w.id message)

namespace FlushRule

variable {ok : WriteAnswer → Prop} {updateOk shutdownOk : Bool} {P : Nat → Reactor → Prop} {Q : Reactor → Prop}

theorem flushLoop (k : FlushRule ok updateOk shutdownOk P Q) {answers : List WriteAnswer} {budget : Nat}
    {r r' : Reactor} (hok : ∀ a ∈ answers, ok a) (hrun : r.flushLoop updateOk shutdownOk answers budget = some r')
    (h : P budget r) : Q r' := by
  induction answers generalizing budget r with
  | nil =>
    unfold Reactor.flushLoop at hrun
    split at hrun
    · next hempty =>
      cases hrun
      exact k.finish (.inl hempty) h
    split at hrun
    · next hspent =>
      cases hrun
      exact k.finish (.inr hspent) h
    · cases hrun
  | cons answer answers ih =>
    unfold Reactor.flushLoop at hrun
    split at hrun
    · next hempty =>
      cases hrun
      exact k.finish (.inl hempty) h
    next w rest hwrites =>
    split at hrun
    · next hspent =>
      cases hrun
      exact k.finish (.inr hspent) h
    next hbudget =>
    have hpos : 0 < budget := Nat.pos_of_ne_zero hbudget
    have hrest : ∀ a ∈ answers, ok a := fun a ha => hok a (List.mem_cons_of_mem answer ha)
    have hanswer := hok answer List.mem_cons_self
    cases answer with
    | accepted n =>
      simp only at hrun
      split at hrun
      · next hnone =>
        cases hrun
        exact k.failed _ hwrites hpos hanswer (fun _ _ => List.isEmpty_iff.mp hnone) nofun nofun h
      · next hsome => exact ih hrest hrun (k.accepted hwrites hpos hanswer (by simpa using hsome) h)
    | zero =>
      cases hrun
      exact k.failed _ hwrites hpos hanswer nofun nofun nofun h
    | interrupted => exact ih hrest hrun (k.interrupted hwrites hpos h)
    | again =>
      cases hrun
      exact k.again hwrites hpos h
    | failed errno =>
      cases hrun
      exact k.failed _ hwrites hpos hanswer nofun nofun nofun h

/-- A flush of a transport that is closed, or whose write half is, does nothing. -/
theorem flushReactorWrites (k : FlushRule ok updateOk shutdownOk P Q) {answers : List WriteAnswer} {r r' : Reactor}
    (hok : ∀ a ∈ answers, ok a) (hrun : r.flushReactorWrites answers updateOk shutdownOk = some r')
    (hidle : r.closed = true ∨ r.writeClosed = true → Q r)
    (h : r.closed = false → r.writeClosed = false → P reactorWriteBudgetBytes r) : Q r' := by
  unfold Reactor.flushReactorWrites at hrun
  split at hrun
  · next hguard =>
    cases hrun
    exact hidle (by simpa using hguard)
  · next hguard =>
    simp only [Bool.or_eq_true, not_or, Bool.not_eq_true] at hguard
    exact k.flushLoop hok hrun (h hguard.1 hguard.2)

end FlushRule

/-- The events that are not acknowledged leave room for another read. -/
abbrev HasRoom (r : Reactor) : Prop := r.pendingInboundBytes < r.config.maxInboundQueuedBytes

/-- One call of a drain, when its answers meet `ok`. -/
structure ReadRule (ok : ReadAnswer → Prop) (eofOnAgain updateOk : Bool) (P : Nat → Reactor → Prop)
    (Q : Reactor → Prop) : Prop where
  spent : ∀ {budget r}, budget = 0 ∨ r.config.maxInboundQueuedBytes ≤ r.pendingInboundBytes → P budget r →
    Q (r.updateReactorInterest updateOk)
  data : ∀ {budget r bytes}, 0 < budget → r.HasRoom →
    bytes.take (r.readLimit budget) ≠ [] → P budget r →
    P (budget - (bytes.take (r.readLimit budget)).length)
      ({ r.asked eofOnAgain budget (.data bytes) with
          pendingInboundBytes := r.pendingInboundBytes + (bytes.take (r.readLimit budget)).length }.sendEvent
        (.data (bytes.take (r.readLimit budget))))
  interrupted : ∀ {budget r}, 0 < budget → r.HasRoom → P budget r →
    P budget (r.asked eofOnAgain budget .interrupted)
  ended : ∀ {budget r answer}, 0 < budget → r.HasRoom →
    (answer.cut (r.readLimit budget)).ends eofOnAgain = true → P budget r →
    Q ((r.asked eofOnAgain budget answer).readFinished updateOk)
  again : ∀ {budget r}, 0 < budget → r.HasRoom → eofOnAgain = false →
    P budget r → Q (r.asked eofOnAgain budget .again)
  failed : ∀ {budget r errno} message, 0 < budget → r.HasRoom →
    ok (.failed errno) → P budget r →
    Q (((r.asked eofOnAgain budget (.failed errno)).sendEvent (.readError message)).closeReactorState (some message))

namespace ReadRule

variable {ok : ReadAnswer → Prop} {eofOnAgain updateOk : Bool} {P : Nat → Reactor → Prop} {Q : Reactor → Prop}

theorem readLoop (k : ReadRule ok eofOnAgain updateOk P Q) {answers : List ReadAnswer} {budget : Nat} {r r' : Reactor}
    (hok : ∀ a ∈ answers, ok a) (hrun : r.readLoop eofOnAgain updateOk answers budget = some r') (h : P budget r) :
    Q r' := by
  induction answers generalizing budget r with
  | nil =>
    unfold Reactor.readLoop at hrun
    split at hrun
    · next hspent =>
      cases hrun
      exact k.spent (.inl hspent) h
    split at hrun
    · next hfull =>
      cases hrun
      exact k.spent (.inr hfull) h
    · cases hrun
  | cons answer answers ih =>
    unfold Reactor.readLoop at hrun
    split at hrun
    · next hspent =>
      cases hrun
      exact k.spent (.inl hspent) h
    next hbudget =>
    split at hrun
    · next hfull =>
      cases hrun
      exact k.spent (.inr hfull) h
    next hcredit =>
    have hpos : 0 < budget := Nat.pos_of_ne_zero hbudget
    have hcredit : r.HasRoom := Nat.not_le.mp hcredit
    have hrest : ∀ a ∈ answers, ok a := fun a ha => hok a (List.mem_cons_of_mem answer ha)
    have hanswer := hok answer List.mem_cons_self
    cases answer with
    | data bytes =>
      simp only at hrun
      split at hrun
      · next hnone =>
        cases hrun
        exact k.ended hpos hcredit hnone h
      · next hsome => exact ih hrest hrun (k.data hpos hcredit (by simpa using hsome) h)
    | eof =>
      cases hrun
      exact k.ended hpos hcredit rfl h
    | interrupted => exact ih hrest hrun (k.interrupted hpos hcredit h)
    | again =>
      simp only at hrun
      split at hrun
      · next heof =>
        cases hrun
        exact k.ended hpos hcredit heof h
      · next heof =>
        cases hrun
        exact k.again hpos hcredit (by simpa using heof) h
    | failed errno =>
      cases hrun
      exact k.failed _ hpos hcredit hanswer h

/-- A drain that is off does nothing. -/
theorem readReactorState (k : ReadRule ok eofOnAgain updateOk P Q) {answers : List ReadAnswer} {r r' : Reactor}
    (hok : ∀ a ∈ answers, ok a) (hrun : r.readReactorState answers eofOnAgain updateOk = some r')
    (hidle : r.readEnabled = false ∨ r.readClosed = true ∨ r.closed = true → Q r)
    (h : r.readEnabled = true → r.readClosed = false → r.closed = false → P reactorReadBudgetBytes r) : Q r' := by
  unfold Reactor.readReactorState at hrun
  split at hrun
  · next hguard =>
    cases hrun
    exact hidle (by simpa [or_assoc] using hguard)
  · next hguard =>
    simp only [Bool.or_eq_true, Bool.not_eq_true', not_or, Bool.not_eq_false, Bool.not_eq_true] at hguard
    exact k.readLoop hok hrun (h hguard.1.1 hguard.1.2 hguard.2)

end ReadRule

/-! ### Frames: facts that look at a part of the state only -/

/-- The moves around writing and reading: a new mask, the report of a failure, and the close. -/
structure Moves (P : Reactor → Prop) : Prop where
  mask : ∀ {r} m, P r → P { r with lastInterest := m }
  readError : ∀ {r} message, P r → P (r.sendEvent (.readError message))
  writeError : ∀ {r} id message, P r → P (r.sendEvent (.writeError id message))
  close : ∀ {r} error, P r → P (r.closeReactorState error)

/-- The moves of a drain: an entry or an event tells of no write. -/
structure ReadMoves (P : Reactor → Prop) : Prop where
  mask : ∀ {r} m, P r → P { r with lastInterest := m }
  note : ∀ {r entry}, entry.isWriting = false → P r → P (r.note entry)
  notice : ∀ {r e}, (∀ id, e ≠ .writeOk id) → P r → P (r.sendEvent e)
  close : ∀ {r} error, P r → P (r.closeReactorState error)
  reading : ∀ {r} inbound enabled done, P r →
    P { r with pendingInboundBytes := inbound, readEnabled := enabled, readClosed := done }
  read : ∀ {r} budget, P r → P (r.record (.read (r.readLimit budget)))

/-- The moves of a flush. -/
structure FlushMoves (P : Reactor → Prop) : Prop extends Moves P where
  queue : ∀ {r} writes, P r → P { r with writes := writes }
  write : ∀ {r} offered taken, P r → P (r.record (.write offered taken))
  acknowledge : ∀ {r} id, P r → P (r.sendEvent (.writeOk id))
  shut : ∀ {r}, r.closingWrite = true → P r → P ({ r with writeClosed := true }.note .shutWrite)

/-- What holds around the writing while no half-close is asked for. -/
structure Keeps (P : Reactor → Prop) : Prop extends ReadMoves P where
  writing : ∀ {r}, P r → r.closingWrite = false

section Frames

variable {P : Reactor → Prop}

theorem ReadMoves.moves (k : ReadMoves P) : Moves P :=
  { k with
    readError _ := k.notice (by simp)
    writeError _ _ := k.notice (by simp) }

variable {r : Reactor}

theorem Moves.updateReactorInterest (k : Moves P) (ok : Bool) (h : P r) : P (r.updateReactorInterest ok) := by
  unfold Reactor.updateReactorInterest
  split
  · exact h
  split
  · exact h
  split
  · exact k.mask _ h
  · exact k.close _ (k.readError _ h)

theorem Moves.failWrite (k : Moves P) (id : Nat) (message : String) (h : P r) : P (r.failWrite id message) :=
  k.close _ (k.writeError _ _ h)

theorem Moves.closeIfFullyDone (k : Moves P) (h : P r) : P r.closeIfFullyDone := by
  unfold Reactor.closeIfFullyDone
  split
  · exact k.close _ h
  · exact h

theorem ReadMoves.asked (k : ReadMoves P) (eofOnAgain : Bool) (budget : Nat) (answer : ReadAnswer) (h : P r) :
    P (r.asked eofOnAgain budget answer) :=
  k.note rfl (k.read budget h)

theorem ReadMoves.readFinished (k : ReadMoves P) (updateOk : Bool) (h : P r) : P (r.readFinished updateOk) := by
  have hread := k.reading r.pendingInboundBytes false true h
  exact k.moves.closeIfFullyDone (k.moves.updateReactorInterest updateOk (k.notice (by simp) hread))

theorem ReadMoves.rule (k : ReadMoves P) (eofOnAgain updateOk : Bool) :
    ReadRule (fun _ => True) eofOnAgain updateOk (fun _ => P) P where
  spent _ h := k.moves.updateReactorInterest updateOk h
  data {_ r _} _ _ _ h := k.notice (by simp) (k.reading _ r.readEnabled r.readClosed (k.asked _ _ _ h))
  interrupted _ _ h := k.asked _ _ _ h
  ended _ _ _ h := k.readFinished updateOk (k.asked _ _ _ h)
  again _ _ _ h := k.asked _ _ _ h
  failed _ _ _ _ h := k.close _ (k.notice (by simp) (k.asked _ _ _ h))

variable {updateOk : Bool}

theorem ReadMoves.readReactorState (k : ReadMoves P) {answers : List ReadAnswer} {eofOnAgain : Bool}
    {r' : Reactor} (hrun : r.readReactorState answers eofOnAgain updateOk = some r') (h : P r) : P r' :=
  (k.rule eofOnAgain updateOk).readReactorState (fun _ _ => trivial) hrun (fun _ => h) fun _ _ _ => h

/-- Every command but a write or a half-close is made of moves around the writing. -/
theorem ReadMoves.process (k : ReadMoves P) {command : Command} {answers : List WriteAnswer} {shutdownOk : Bool}
    {r' : Reactor} (hwrite : ∀ id data, command ≠ .write id data) (hshutdown : ∀ id, command ≠ .shutdownWrite id)
    (hrun : r.process command answers updateOk shutdownOk = some r') (h : P r) : P r' := by
  unfold Reactor.process at hrun
  split at hrun
  · cases hrun
    exact h
  cases command with
  | enableRead =>
    cases hrun
    exact k.moves.updateReactorInterest updateOk (k.reading r.pendingInboundBytes true r.readClosed h)
  | disableRead =>
    cases hrun
    exact k.moves.updateReactorInterest updateOk (k.reading r.pendingInboundBytes false r.readClosed h)
  | inboundConsumed bytes =>
    cases hrun
    exact k.moves.updateReactorInterest updateOk (k.note rfl (k.reading _ r.readEnabled r.readClosed h))
  | write id data => exact absurd rfl (hwrite id data)
  | shutdownWrite id => exact absurd rfl (hshutdown id)
  | close =>
    cases hrun
    exact k.close none h

theorem FlushMoves.advance (k : FlushMoves P) (w : ReactorWrite) (rest : List ReactorWrite) (count : Nat)
    (h : P r) : P (r.advance w rest count) := by
  unfold Reactor.advance
  split
  · exact k.acknowledge _ (k.queue _ h)
  · exact k.queue _ h

theorem FlushMoves.finishFlush (k : FlushMoves P) (updateOk shutdownOk : Bool) (h : P r) :
    P (r.finishFlush updateOk shutdownOk) := by
  unfold Reactor.finishFlush
  split
  · next hwaiting =>
    simp only [Bool.and_eq_true] at hwaiting
    have hshut := k.shut hwaiting.1.2 h
    split
    · apply k.closeIfFullyDone
      split
      · exact hshut
      · exact k.acknowledge _ hshut
    · apply k.close
      split
      · exact k.readError _ h
      · exact k.writeError _ _ h
  · exact k.updateReactorInterest updateOk h

theorem FlushMoves.rule (k : FlushMoves P) (updateOk shutdownOk : Bool) :
    FlushRule (fun _ => True) updateOk shutdownOk (fun _ => P) P where
  finish _ h := k.finishFlush updateOk shutdownOk h
  accepted {_ _ w rest _} _ _ _ _ h := k.advance w rest _ (k.write _ _ h)
  interrupted _ _ h := k.write _ _ h
  again _ _ h := k.updateReactorInterest updateOk (k.write _ _ h)
  failed message _ _ _ _ _ _ h := k.failWrite _ message (k.write _ _ h)

theorem FlushMoves.flushReactorWrites (k : FlushMoves P) {answers : List WriteAnswer} {shutdownOk : Bool}
    {r' : Reactor} (hrun : r.flushReactorWrites answers updateOk shutdownOk = some r') (h : P r) : P r' :=
  (k.rule updateOk shutdownOk).flushReactorWrites (fun _ _ => trivial) hrun (fun _ => h) fun _ _ => h

/-- No half-close is waiting, so the end of a flush only sets the mask. -/
theorem Keeps.finishFlush (k : Keeps P) (updateOk shutdownOk : Bool) (h : P r) :
    P (r.finishFlush updateOk shutdownOk) := by
  unfold Reactor.finishFlush
  rw [k.writing h, Bool.and_false, Bool.false_and, if_neg Bool.false_ne_true]
  exact k.moves.updateReactorInterest updateOk h

end Frames

/-- What one call of a flush does to a property that may speak of the budget left: the call took nothing, or it
took `count` bytes of the head of the queue. `room` is what is known of the answers. -/
structure Flushes (P : Nat → Reactor → Prop) (room : Nat → Prop) : Prop where
  keeps : ∀ budget, Keeps (P budget)
  none : ∀ {budget r w rest}, r.writes = w :: rest → 0 < budget → P budget r →
    P budget (r.record (.write (offered w budget) 0))
  some : ∀ {budget r w rest n}, r.writes = w :: rest → 0 < budget → room n → offered w budget ≠ [] → P budget r →
    P (budget - taken n (offered w budget))
      ((r.record (.write (offered w budget) (taken n (offered w budget)))).advance w rest
        (taken n (offered w budget)))

/-- What is known of the answers of a flush. -/
def Roomy (room : Nat → Prop) (answers : List WriteAnswer) : Prop := ∀ n, .accepted n ∈ answers → room n

namespace Flushes

variable {P : Nat → Reactor → Prop} {room : Nat → Prop}

theorem rule (f : Flushes P room) (updateOk shutdownOk : Bool) :
    FlushRule (fun a => ∀ n, a = .accepted n → room n) updateOk shutdownOk P fun r => ∃ left, P left r where
  finish {budget _} _ h := ⟨budget, (f.keeps budget).finishFlush updateOk shutdownOk h⟩
  accepted hwrites hpos hroom hoffered h := f.some hwrites hpos (hroom _ rfl) hoffered h
  interrupted hwrites hpos h := f.none hwrites hpos h
  again {budget _ _ _} hwrites hpos h :=
    ⟨budget, (f.keeps budget).moves.updateReactorInterest updateOk (f.none hwrites hpos h)⟩
  failed {budget _ w _ _} message hwrites hpos _ _ _ _ h :=
    ⟨budget, (f.keeps budget).moves.failWrite w.id message (f.none hwrites hpos h)⟩

theorem flushReactorWrites (f : Flushes P room) {updateOk shutdownOk : Bool} {answers : List WriteAnswer}
    {r r' : Reactor} (hroom : Roomy room answers) (hrun : r.flushReactorWrites answers updateOk shutdownOk = .some r')
    (h : P reactorWriteBudgetBytes r) : ∃ left, P left r' := by
  apply (f.rule updateOk shutdownOk).flushReactorWrites _ hrun (fun _ => ⟨_, h⟩) fun _ _ => h
  intro a ha n heq
  exact hroom n (heq ▸ ha)

end Flushes

end Reactor

end TailscaleDart.Fd
