import Mathlib.Logic.Function.Basic
import TailscaleDart.Conc.Machine

/-!
# Fd.Transport — the caller's half of an adopted descriptor

`PosixFdTransport` lives on the caller's isolate and talks to the reactor by messages: commands out,
events in. A write or a half-close registers a COMPLETER under a fresh id, posts a command, and is
completed by a later event; `_teardown` is the one terminal path. Nothing else completes a future, so
a future whose entry is still registered when the transport is closed waits for ever.

The input controller is SYNCHRONOUS: adding data, an error or the end to it runs the listener before
the handler goes on, and the listener may call back into the transport. A `Reaction` is what it calls.

What is proved: in every run in which the end of input does not meet an unacknowledged half-close, and
a half-close is acknowledged last, no future is left waiting when the transport is closed. The first
condition cannot be dropped (`half_close_hangs`).
-/

namespace TailscaleDart.Fd

abbrev Bytes := List UInt8

/-- The arguments of `adopt`, with its defaults. -/
structure Config where
  maxReadChunkSize : Nat := 64 * 1024
  maxInboundQueuedBytes : Nat := 1024 * 1024
  maxPendingWriteBytes : Nat := 1024 * 1024
  datagram : Bool := false
  deriving DecidableEq, Repr

/-- What the transport posts to the reactor. -/
inductive Command where
  | enableRead
  | disableRead
  | inboundConsumed (bytes : Nat)
  | write (id : Nat) (data : Bytes)
  | shutdownWrite (id : Nat)
  | close
  deriving DecidableEq, Repr

/-- What the reactor sends back. -/
inductive Event where
  | data (bytes : Bytes)
  | eof
  | readError (message : String)
  | writeOk (id : Nat)
  | writeError (id : Nat) (message : String)
  | closed
  deriving DecidableEq, Repr

/-- How `_reactor.send` ends: posted; refused by a stopped proxy; or posted, but the wake failed and it throws. -/
inductive SendResult where
  | ok
  | stopped
  | wakeFailed
  deriving DecidableEq, Repr

def SendResult.error : SendResult → Option String
  | .ok => none
  | .stopped => some "fd reactor is stopped"
  | .wakeFailed => some "fd reactor wake failed"

/-- The sends of one proxy: once it is closed it refuses every one, and a wake that fails closes it. Another transport
may close it at any time. -/
def refusals : Bool → List SendResult → Option Bool
  | refused, [] => some refused
  | refused, result :: results =>
    if refused && result ≠ .stopped then none else refusals (refused || result ≠ .ok) results

variable {refused refused' : Bool}

theorem refusals_cons {result : SendResult} {results : List SendResult}
    (h : refusals refused (result :: results) = some refused') :
    (refused = true → result = .stopped) ∧ refusals (refused || decide (result ≠ .ok)) results = some refused' := by
  unfold refusals at h
  split at h
  · cases h
  · next hguard => exact ⟨fun hr => by simpa [hr] using hguard, h⟩

theorem refusals_append {results more : List SendResult} (h : refusals refused (results ++ more) = some refused') :
    ∃ mid, refusals refused results = some mid ∧ refusals mid more = some refused' := by
  induction results generalizing refused with
  | nil => exact ⟨refused, rfl, h⟩
  | cons result results ih =>
    rw [List.cons_append] at h
    unfold refusals at h
    split at h
    · cases h
    · next hguard =>
      obtain ⟨mid, hfirst, hmore⟩ := ih h
      refine ⟨mid, ?_, hmore⟩
      rw [refusals, if_neg hguard]
      exact hfirst

theorem refusals_mono {results : List SendResult} (h : refusals refused results = some refused')
    (hrefused : refused = true) : refused' = true := by
  induction results generalizing refused with
  | nil =>
    cases h
    exact hrefused
  | cons result results ih => exact ih (refusals_cons h).2 (by rw [hrefused, Bool.true_or])

inductive FutureState where
  | pending
  | value
  | error (message : String)
  deriving DecidableEq, Repr

/-- `_PendingWrite`, with the id it is registered under. -/
structure PendingWrite where
  id : Nat
  byteCount : Nat
  deriving DecidableEq, Repr

structure PosixFdTransport where
  config : Config := {}
  nextWriteId : Nat := 0
  pendingWriteBytes : Nat := 0
  readEnabled : Bool := false
  closed : Bool := false
  readFinished : Bool := false
  writeFinished : Bool := false
  writeCompletions : List PendingWrite := []
  -- the completers handed out so far, by the id they were registered under
  futures : Nat → Option FutureState := fun _ => none
  done : FutureState := .pending
  -- the input controller
  inputClosed : Bool := false
  hasListener : Bool := false
  paused : Bool := false
  -- what has been posted to the reactor and not yet read by it, oldest first
  mailbox : List Command := []

namespace PosixFdTransport

/-! ## Teardown -/

/-- `_failPendingWrites`. -/
def failPendingWrites (error : String) (t : PosixFdTransport) : PosixFdTransport :=
  { t with
    futures := fun id =>
      if t.writeCompletions.any (·.id = id) && t.futures id = some .pending then some (.error error)
      else t.futures id
    writeCompletions := []
    pendingWriteBytes := 0 }

/-- `_teardown`, the single terminal path. -/
def teardown (doneError pendingWriteError : Option String) (closeInput : Bool) (t : PosixFdTransport) :
    PosixFdTransport :=
  if t.closed then t
  else
    let t := { t with closed := true, readFinished := true, writeFinished := true }
    let t := match pendingWriteError with
      | some error => t.failPendingWrites error
      | none => t
    { t with
      inputClosed := t.inputClosed || closeInput
      done := if t.done = .pending then doneError.elim .value .error else t.done }

def finishWithError (error : String) (t : PosixFdTransport) : PosixFdTransport :=
  t.teardown (some error) (some error) true

/-- `_maybeCompleteDone`: both halves are finished. -/
def maybeCompleteDone (t : PosixFdTransport) : PosixFdTransport :=
  if t.closed then t
  else if !t.readFinished || !t.writeFinished then t
  else t.teardown none none false

/-! ## Messages to the reactor -/

/-- A stopped proxy posts nothing. -/
def post (command : Command) (result : SendResult) (t : PosixFdTransport) : PosixFdTransport :=
  if result = .stopped then t else { t with mailbox := t.mailbox ++ [command] }

def enableReadIfReady (result : SendResult) (t : PosixFdTransport) : PosixFdTransport :=
  if t.closed || t.readFinished || t.readEnabled then t
  else if !t.hasListener || t.paused || t.inputClosed then t
  else
    let t := { t with readEnabled := true }.post .enableRead result
    match result.error with
    | none => t
    | some error => t.finishWithError ("fd read enable failed: " ++ error)

def disableRead (result : SendResult) (t : PosixFdTransport) : PosixFdTransport :=
  if t.closed || !t.readEnabled then t else { t with readEnabled := false }.post .disableRead result

def ackInboundBytes (bytes : Nat) (result : SendResult) (t : PosixFdTransport) : PosixFdTransport :=
  if t.closed || bytes = 0 then t else t.post (.inboundConsumed bytes) result

/-! ## Calls -/

/-- Complete the future of an entry that leaves the table. -/
def complete (id : Nat) (state : FutureState) (t : PosixFdTransport) : PosixFdTransport :=
  { t with futures := Function.update t.futures id (some state) }

/-- Take an entry out of the table and its bytes out of the account. -/
def remove (entry : PendingWrite) (t : PosixFdTransport) : PosixFdTransport :=
  { t with
    writeCompletions := t.writeCompletions.filter (·.id ≠ entry.id)
    pendingWriteBytes := t.pendingWriteBytes - entry.byteCount }

/-- Register a completer under the next id. -/
def register (byteCount : Nat) (t : PosixFdTransport) : PosixFdTransport :=
  { t with
    nextWriteId := t.nextWriteId + 1
    pendingWriteBytes := t.pendingWriteBytes + byteCount
    writeCompletions := t.writeCompletions ++ [⟨t.nextWriteId + 1, byteCount⟩]
    futures := Function.update t.futures (t.nextWriteId + 1) (some .pending) }

/-- Post the command of an entry just registered; a dispatch that throws fails it and the transport. -/
def dispatch (what : String) (entry : PendingWrite) (command : Command) (result : SendResult)
    (t : PosixFdTransport) : PosixFdTransport :=
  let t := t.post command result
  match result.error with
  | none => t
  | some error =>
    let failure := what ++ error
    ((t.remove entry).complete entry.id (.error failure)).finishWithError failure

/-- What a call returns: a future that is complete already, or the one registered under an id. -/
inductive Returned where
  | now (state : FutureState)
  | later (id : Nat)
  deriving DecidableEq, Repr

def write (bytes : Bytes) (result : SendResult) (t : PosixFdTransport) : Returned × PosixFdTransport :=
  if bytes.isEmpty then (.now .value, t)
  else if t.closed then (.now (.error "fd transport is closed"), t)
  else if t.writeFinished then (.now (.error "fd transport write side is closed"), t)
  else if t.pendingWriteBytes + bytes.length > t.config.maxPendingWriteBytes then
    (.now (.error ("fd transport write queue exceeded " ++ toString t.config.maxPendingWriteBytes ++ " bytes")), t)
  else
    let id := t.nextWriteId + 1
    (.later id, (t.register bytes.length).dispatch "fd write dispatch failed: " ⟨id, bytes.length⟩
      (.write id bytes) result)

def closeWrite (result : SendResult) (t : PosixFdTransport) : Returned × PosixFdTransport :=
  if t.closed || t.writeFinished then (.now .value, t)
  else
    let id := t.nextWriteId + 1
    (.later id, ({ t with writeFinished := true }.register 0).dispatch "fd closeWrite dispatch failed: " ⟨id, 0⟩
      (.shutdownWrite id) result)

/-- A send that throws is swallowed: the reactor has released the descriptor on its way out. -/
def close (result : SendResult) (t : PosixFdTransport) : PosixFdTransport :=
  if t.closed then t else (t.post .close result).teardown none (some "fd transport is closed") true

/-- A call on the transport or on its input stream, with what each send of it does. -/
inductive Call where
  | write (bytes : Bytes) (result : SendResult)
  | closeWrite (result : SendResult)
  | close (result : SendResult)
  | listen (result : SendResult)
  | pause (result : SendResult)
  | resume (result : SendResult)
  | cancel
  deriving DecidableEq, Repr

def Call.run : Call → PosixFdTransport → PosixFdTransport
  | .write bytes result, t => (t.write bytes result).2
  | .closeWrite result, t => (t.closeWrite result).2
  | .close result, t => t.close result
  | .listen result, t => { t with hasListener := true }.enableReadIfReady result
  | .pause result, t => { t with paused := true }.disableRead result
  | .resume result, t => { t with paused := false }.enableReadIfReady result
  | .cancel, t => { t with hasListener := false }

/-- What the sends of a call answer, in order. -/
def Call.results : Call → List SendResult
  | .write _ result | .closeWrite result | .close result | .listen result | .pause result | .resume result => [result]
  | .cancel => []

/-- What the listener does while an event is delivered to it. -/
abbrev Reaction := List Call

def react (r : Reaction) (t : PosixFdTransport) : PosixFdTransport := r.foldl (fun t c => c.run t) t

/-! ## Events -/

/-- A write was acknowledged: its entry leaves the table. The acknowledgement of a half-close, the entry
without bytes, finishes the write half. -/
def writeAcknowledged (id : Nat) (t : PosixFdTransport) : PosixFdTransport :=
  match t.writeCompletions.find? (·.id = id) with
  | none => t
  | some entry =>
    if entry.byteCount = 0 then { (t.remove entry).complete id .value with writeFinished := true }.maybeCompleteDone
    else (t.remove entry).complete id .value

def writeFailed (id : Nat) (error : String) (t : PosixFdTransport) : PosixFdTransport :=
  match t.writeCompletions.find? (·.id = id) with
  | none => t
  | some entry => (t.remove entry).complete id (.error error)

/-- `_handleReactorEvent`. Adding to an input that was closed throws, and the rest of the handler is not run. -/
def handleReactorEvent (event : Event) (r : Reaction) (ack enable : SendResult) (t : PosixFdTransport) :
    PosixFdTransport :=
  if t.closed then t
  else match event with
    | .data bytes =>
      if t.inputClosed then t
      else ((t.react r).ackInboundBytes bytes.length ack).enableReadIfReady enable
    | .eof => ({ t with readFinished := true, inputClosed := true }.react r).maybeCompleteDone
    | .readError message =>
      if t.inputClosed then t else (t.react r).finishWithError ("fd read failed: " ++ message)
    | .writeOk id => t.writeAcknowledged id
    | .writeError id message =>
      (t.writeFailed id ("fd write failed: " ++ message)).finishWithError ("fd write failed: " ++ message)
    | .closed => t.teardown none (some "fd transport is closed") true

/-! ## Runs -/

inductive Stimulus where
  | call (c : Call)
  | event (event : Event) (r : Reaction) (ack enable : SendResult)
  deriving DecidableEq, Repr

def step (t : PosixFdTransport) : Stimulus → PosixFdTransport
  | .call c => c.run t
  | .event event r ack enable => t.handleReactorEvent event r ack enable

/-- A stimulus can come at any time. -/
def take (t : PosixFdTransport) (s : Stimulus) : Option PosixFdTransport := some (t.step s)

/-- A transport just adopted. -/
def adopted (config : Config) : PosixFdTransport := { config := config }

/-- The states a transport reaches by stimuli that meet `ok` in the state before them. -/
abbrev Reachable (ok : PosixFdTransport → Stimulus → Prop) (config : Config) : PosixFdTransport → Prop :=
  Conc.Machine.Reachable take (fun s t => ok t s) (adopted config)

/-- The end of input meets no outstanding half-close, neither one called before nor one the listener calls
on being told; a half-close acknowledged after the end of input is acknowledged last. -/
def InOrder (t : PosixFdTransport) : Stimulus → Prop
  | .event .eof r _ _ =>
    (t.writeFinished = true → t.writeCompletions = []) ∧ ∀ result, Call.closeWrite result ∉ r
  | .event (.writeOk id) _ _ _ =>
    t.readFinished = true → ⟨id, 0⟩ ∈ t.writeCompletions → ∀ e ∈ t.writeCompletions, e.id = id
  | _ => True

/-! ## What a call or an event can do -/

variable {t t' t'' : PosixFdTransport}

/-- What a send adds to the mailbox. -/
def postedBy (command : Command) (result : SendResult) : List Command := if result = .stopped then [] else [command]

theorem mem_postedBy {command c : Command} {result : SendResult} (h : c ∈ postedBy command result) : c = command := by
  unfold postedBy at h
  split at h
  · cases h
  · exact List.mem_singleton.mp h

theorem post_eq (command : Command) (result : SendResult) (t : PosixFdTransport) :
    t.post command result = { t with mailbox := t.mailbox ++ postedBy command result } := by
  unfold post postedBy
  split
  · rw [List.append_nil]
  · rfl

/-- The calls that register a completer, with the command of the entry, its bytes and what becomes of the write half. -/
inductive Admits (t : PosixFdTransport) : Call → Command → Nat → Bool → Prop
  | write (bytes : Bytes) (result : SendResult) (hne : bytes ≠ [])
      (hfits : t.pendingWriteBytes + bytes.length ≤ t.config.maxPendingWriteBytes) :
      Admits t (.write bytes result) (.write (t.nextWriteId + 1) bytes) bytes.length t.writeFinished
  | closeWrite (result : SendResult) : Admits t (.closeWrite result) (.shutdownWrite (t.nextWriteId + 1)) 0 true

/-- An entry is registered and its command posted. -/
def issue (t : PosixFdTransport) (command : Command) (byteCount : Nat) (finished : Bool) (result : SendResult) :
    PosixFdTransport :=
  ({ t with writeFinished := finished }.register byteCount).post command result

/-- One change of the transport, with what it posts and what its sends answered. The changes of a call are those of
calls in `P`, and those of an event are those of events in `Q`. -/
inductive Move (P : Call → Prop) (Q : Event → Prop) (t : PosixFdTransport) :
    PosixFdTransport → List Command → List SendResult → Prop
  | input (hasListener paused : Bool) : Move P Q t { t with hasListener := hasListener, paused := paused } [] []
  | reading (on : Bool) (result : SendResult) (results : List SendResult) (hopen : t.closed = false) :
      Move P Q t ({ t with readEnabled := on }.post (if on then .enableRead else .disableRead) result)
        (postedBy (if on then .enableRead else .disableRead) result) results
  | credit (bytes : Nat) (result : SendResult) (hopen : t.closed = false) :
      Move P Q t (t.post (.inboundConsumed bytes) result) (postedBy (.inboundConsumed bytes) result) [result]
  | admitted {c : Call} {command : Command} {byteCount : Nat} {finished : Bool} (hc : P c) (hopen : t.closed = false)
      (hunfinished : t.writeFinished = false) (hadmits : t.Admits c command byteCount finished) :
      Move P Q t (t.issue command byteCount finished .ok) [command] [.ok]
  | refused {c : Call} {command : Command} {byteCount : Nat} {finished : Bool} (hc : P c) (hopen : t.closed = false)
      (hunfinished : t.writeFinished = false) (hadmits : t.Admits c command byteCount finished) (result : SendResult)
      (hfailed : result ≠ .ok) (failure : String) :
      Move P Q t
        ((((t.issue command byteCount finished result).remove ⟨t.nextWriteId + 1, byteCount⟩).complete
          (t.nextWriteId + 1) (.error failure)).finishWithError failure) (postedBy command result) [result]
  | failed (error : String) (result : SendResult) (hfailed : result ≠ .ok) :
      Move P Q t (t.finishWithError error) [] [result]
  | close (result : SendResult) (hc : P (.close result)) (hopen : t.closed = false) :
      Move P Q t ((t.post .close result).teardown none (some "fd transport is closed") true)
        (postedBy .close result) [result]
  | eof (h : Q .eof) : Move P Q t { t with readFinished := true, inputClosed := true } [] []
  | acknowledged {entry : PendingWrite} (hmem : entry ∈ t.writeCompletions) (h : Q (.writeOk entry.id)) :
      Move P Q t { (t.remove entry).complete entry.id .value with
        writeFinished := t.writeFinished || entry.byteCount = 0 } [] []
  | finished (h : Q .eof ∨ ∃ id, Q (.writeOk id)) (hread : t.readFinished = true) (hwrite : t.writeFinished = true) :
      Move P Q t (t.teardown none none false) [] []
  | dropped {entry : PendingWrite} (hmem : entry ∈ t.writeCompletions) {message : String}
      (h : Q (.writeError entry.id message)) (error : String) :
      Move P Q t (((t.remove entry).complete entry.id (.error error)).finishWithError error) [] []
  | ended (h : (∃ message, Q (.readError message)) ∨ (∃ id message, Q (.writeError id message)) ∨ Q .closed)
      (doneError : Option String) (error : String) : Move P Q t (t.teardown doneError (some error) true) [] []

/-- Some changes, one after the other. -/
inductive Moves (P : Call → Prop) (Q : Event → Prop) :
    PosixFdTransport → PosixFdTransport → List Command → List SendResult → Prop
  | refl (t : PosixFdTransport) (results : List SendResult) : Moves P Q t t [] results
  | move {t t' : PosixFdTransport} {posted : List Command} {results : List SendResult}
      (h : Move P Q t t' posted results) : Moves P Q t t' posted results
  | trans {t t' t'' : PosixFdTransport} {posted more : List Command} {results answers : List SendResult}
      (h : Moves P Q t t' posted results) (g : Moves P Q t' t'' more answers) :
      Moves P Q t t'' (posted ++ more) (results ++ answers)

variable {P : Call → Prop} {Q : Event → Prop} {posted : List Command} {results : List SendResult}

theorem Moves.padded (h : Moves P Q t t' posted []) (results : List SendResult) : Moves P Q t t' posted results := by
  simpa using Moves.trans h (.refl t' results)

/-- A relation that composes and holds of each change holds of some. -/
theorem Moves.related {R : PosixFdTransport → PosixFdTransport → List Command → List SendResult → Prop}
    (hrefl : ∀ t results, R t t [] results)
    (htrans : ∀ {t t' t'' p q a b}, R t t' p a → R t' t'' q b → R t t'' (p ++ q) (a ++ b))
    (hmove : ∀ {t t' p a}, Move P Q t t' p a → R t t' p a) (h : Moves P Q t t' posted results) :
    R t t' posted results := by
  induction h with
  | refl t results => exact hrefl t results
  | move h => exact hmove h
  | trans _ _ ih1 ih2 => exact htrans ih1 ih2

theorem Moves.invariant {I : PosixFdTransport → Prop} (hmove : ∀ {t t' p a}, Move P Q t t' p a → I t → I t')
    (h : Moves P Q t t' posted results) : I t → I t' :=
  h.related (R := fun t t' _ _ => I t → I t') (fun _ _ => id) (fun h g ht => g (h ht)) hmove

theorem moves_enableReadIfReady (t : PosixFdTransport) (result : SendResult) :
    ∃ posted, Moves P Q t (t.enableReadIfReady result) posted [result] := by
  unfold enableReadIfReady
  split
  · exact ⟨_, .refl t _⟩
  next hguard =>
  split
  · exact ⟨_, .refl t _⟩
  have hopen : t.closed = false := by simp_all
  cases result with
  | ok => exact ⟨_, .move (.reading true .ok [.ok] hopen)⟩
  | stopped => exact ⟨_, .trans (.move (.reading true .stopped [] hopen)) (.move (.failed _ .stopped nofun))⟩
  | wakeFailed => exact ⟨_, .trans (.move (.reading true .wakeFailed [] hopen)) (.move (.failed _ .wakeFailed nofun))⟩

theorem moves_disableRead (t : PosixFdTransport) (result : SendResult) :
    ∃ posted, Moves P Q t (t.disableRead result) posted [result] := by
  unfold disableRead
  split
  · exact ⟨_, .refl t _⟩
  next hguard => exact ⟨_, .move (.reading false result [result] (by simp_all))⟩

theorem moves_ackInboundBytes (t : PosixFdTransport) (bytes : Nat) (result : SendResult) :
    ∃ posted, Moves P Q t (t.ackInboundBytes bytes result) posted [result] := by
  unfold ackInboundBytes
  split
  · exact ⟨_, .refl t _⟩
  next hguard => exact ⟨_, .move (.credit bytes result (by simp_all))⟩

theorem moves_dispatch {c : Call} {command : Command} {byteCount : Nat} {finished : Bool} (hc : P c)
    (hopen : t.closed = false) (hunfinished : t.writeFinished = false) (hadmits : t.Admits c command byteCount finished)
    (what : String) (result : SendResult) :
    ∃ posted, Moves P Q t (({ t with writeFinished := finished }.register byteCount).dispatch what
      ⟨t.nextWriteId + 1, byteCount⟩ command result) posted [result] := by
  cases result with
  | ok => exact ⟨_, .move (.admitted hc hopen hunfinished hadmits)⟩
  | stopped => exact ⟨_, .move (.refused hc hopen hunfinished hadmits .stopped nofun _)⟩
  | wakeFailed => exact ⟨_, .move (.refused hc hopen hunfinished hadmits .wakeFailed nofun _)⟩

theorem moves_call {c : Call} (hc : P c) (t : PosixFdTransport) : ∃ posted, Moves P Q t (c.run t) posted c.results := by
  have hinput (hasListener paused : Bool) :
      Moves P Q t { t with hasListener := hasListener, paused := paused } [] [] := .move (.input _ _)
  cases c with
  | write bytes result =>
    simp only [Call.run, PosixFdTransport.write]
    split
    · exact ⟨_, .refl t _⟩
    next hne =>
    split
    · exact ⟨_, .refl t _⟩
    next hopen =>
    split
    · exact ⟨_, .refl t _⟩
    next hunfinished =>
    split
    · exact ⟨_, .refl t _⟩
    next hfits =>
    exact moves_dispatch hc (by simpa using hopen) (by simpa using hunfinished)
      (.write bytes result (by simpa using hne) (Nat.le_of_not_lt hfits)) _ result
  | closeWrite result =>
    simp only [Call.run, PosixFdTransport.closeWrite]
    split
    · exact ⟨_, .refl t _⟩
    next hguard =>
    simp only [Bool.or_eq_true, not_or, Bool.not_eq_true] at hguard
    exact moves_dispatch hc hguard.1 hguard.2 (.closeWrite result) _ result
  | close result =>
    simp only [Call.run, PosixFdTransport.close]
    split
    · exact ⟨_, .refl t _⟩
    next hopen => exact ⟨_, .move (.close result hc (by simpa using hopen))⟩
  | listen result =>
    obtain ⟨posted, h⟩ := moves_enableReadIfReady (P := P) (Q := Q) { t with hasListener := true } result
    exact ⟨posted, .trans (hinput true t.paused) h⟩
  | pause result =>
    obtain ⟨posted, h⟩ := moves_disableRead (P := P) (Q := Q) { t with paused := true } result
    exact ⟨posted, .trans (hinput t.hasListener true) h⟩
  | resume result =>
    obtain ⟨posted, h⟩ := moves_enableReadIfReady (P := P) (Q := Q) { t with paused := false } result
    exact ⟨posted, .trans (hinput t.hasListener false) h⟩
  | cancel => exact ⟨[], hinput false t.paused⟩

theorem moves_react {r : Reaction} (hr : ∀ c ∈ r, P c) (t : PosixFdTransport) :
    ∃ posted, Moves P Q t (t.react r) posted (r.flatMap Call.results) := by
  induction r generalizing t with
  | nil => exact ⟨_, .refl t _⟩
  | cons c rest ih =>
    obtain ⟨posted, hfirst⟩ := moves_call (Q := Q) (hr c List.mem_cons_self) t
    obtain ⟨more, hrest⟩ := ih (fun d hd => hr d (List.mem_cons_of_mem c hd)) (c.run t)
    exact ⟨_, .trans hfirst hrest⟩

theorem moves_maybeCompleteDone (h : Q .eof ∨ ∃ id, Q (.writeOk id)) (t : PosixFdTransport)
    (results : List SendResult) : Moves P Q t t.maybeCompleteDone [] results := by
  unfold maybeCompleteDone
  split
  · exact .refl t _
  split
  · exact .refl t _
  next hguard =>
  simp only [Bool.or_eq_true, Bool.not_eq_true', not_or, Bool.not_eq_false] at hguard
  exact .padded (.move (.finished h hguard.1 hguard.2)) results

theorem find_id {id : Nat} {entry : PendingWrite}
    (h : t.writeCompletions.find? (·.id = id) = some entry) : entry ∈ t.writeCompletions ∧ entry.id = id :=
  ⟨List.mem_of_find?_eq_some h, by simpa using List.find?_some h⟩

theorem moves_writeAcknowledged {id : Nat} (h : Q (.writeOk id)) (t : PosixFdTransport) (results : List SendResult) :
    Moves P Q t (t.writeAcknowledged id) [] results := by
  unfold writeAcknowledged
  split
  · exact .refl t _
  next entry hfind =>
  obtain ⟨hmem, rfl⟩ := find_id hfind
  have hmove := Moves.move (.acknowledged (P := P) hmem h)
  split
  · next hzero =>
    simp only [hzero, decide_true, Bool.or_true] at hmove
    exact .trans hmove (moves_maybeCompleteDone (.inr ⟨entry.id, h⟩) _ results)
  · next hbytes =>
    simp only [hbytes, decide_false, Bool.or_false] at hmove
    exact hmove.padded results

/-- What the sends answer while an event is handled: those of the listener's calls, the acknowledgement of the bytes and
the one that enables reading. -/
theorem moves_event {event : Event} (hevent : Q event) {r : Reaction} (hr : ∀ c ∈ r, P c) (ack enable : SendResult)
    (t : PosixFdTransport) : ∃ posted, Moves P Q t (t.handleReactorEvent event r ack enable) posted
      (r.flatMap Call.results ++ [ack, enable]) := by
  unfold handleReactorEvent
  split
  · exact ⟨_, .refl t _⟩
  cases event with
  | data bytes =>
    dsimp only
    split
    · exact ⟨_, .refl t _⟩
    obtain ⟨_, hreact⟩ := moves_react (Q := Q) hr t
    obtain ⟨_, hack⟩ := moves_ackInboundBytes (P := P) (Q := Q) (t.react r) bytes.length ack
    obtain ⟨_, henable⟩ := moves_enableReadIfReady (P := P) (Q := Q)
      ((t.react r).ackInboundBytes bytes.length ack) enable
    exact ⟨_, .trans hreact (.trans hack henable)⟩
  | eof =>
    obtain ⟨_, hreact⟩ := moves_react (Q := Q) hr { t with readFinished := true, inputClosed := true }
    exact ⟨_, .trans (.trans (.move (.eof hevent)) hreact) (moves_maybeCompleteDone (.inl hevent) _ _)⟩
  | readError message =>
    dsimp only
    split
    · exact ⟨_, .refl t _⟩
    obtain ⟨_, hreact⟩ := moves_react (Q := Q) hr t
    exact ⟨_, .trans hreact (.padded (.move (.ended (.inl ⟨message, hevent⟩) _ _)) _)⟩
  | writeOk id => exact ⟨_, moves_writeAcknowledged hevent t _⟩
  | writeError id message =>
    dsimp only [writeFailed]
    split
    · exact ⟨_, .padded (.move (.ended (.inr (.inl ⟨id, message, hevent⟩)) _ _)) _⟩
    next entry hfind =>
    obtain ⟨hmem, rfl⟩ := find_id hfind
    exact ⟨_, .padded (.move (.dropped hmem hevent _)) _⟩
  | closed => exact ⟨_, .padded (.move (.ended (.inr (.inr hevent)) _ _)) _⟩

/-! ## Every waiting future has an entry, and a closed transport has none -/

/-- Every future that waits is registered. -/
def Tracked (t : PosixFdTransport) : Prop :=
  ∀ id, t.futures id = some .pending → ∃ e ∈ t.writeCompletions, e.id = id

structure Settled (t : PosixFdTransport) : Prop where
  tracked : t.Tracked
  terminal : t.closed = true → t.writeCompletions = []

theorem Tracked.failPendingWrites (h : t.Tracked) (error : String) : (t.failPendingWrites error).Tracked := by
  intro id hpending
  simp only [PosixFdTransport.failPendingWrites] at hpending
  split at hpending
  · cases hpending
  · next hno =>
    obtain ⟨e, he, rfl⟩ := h id hpending
    have hany : t.writeCompletions.any (·.id = e.id) = true := List.any_eq_true.mpr ⟨e, he, by simp⟩
    rw [hany, hpending] at hno
    exact absurd rfl hno

theorem Tracked.remove_complete (h : t.Tracked) (entry : PendingWrite) {state : FutureState}
    (hstate : state ≠ .pending) : ((t.remove entry).complete entry.id state).Tracked := by
  intro id hpending
  simp only [complete, remove] at hpending ⊢
  by_cases hid : id = entry.id
  · rw [hid, Function.update_self] at hpending
    exact absurd (Option.some.inj hpending) hstate
  · rw [Function.update_of_ne hid] at hpending
    obtain ⟨e, he, rfl⟩ := h id hpending
    exact ⟨e, List.mem_filter.mpr ⟨he, by simpa using hid⟩, rfl⟩

theorem Tracked.register (h : t.Tracked) (byteCount : Nat) : (t.register byteCount).Tracked := by
  intro id hpending
  simp only [PosixFdTransport.register] at hpending ⊢
  by_cases hid : id = t.nextWriteId + 1
  · exact ⟨⟨t.nextWriteId + 1, byteCount⟩, List.mem_append_right _ List.mem_cons_self, hid.symm⟩
  · rw [Function.update_of_ne hid] at hpending
    obtain ⟨e, he, heq⟩ := h id hpending
    exact ⟨e, List.mem_append_left _ he, heq⟩

/-- The terminal path closes the transport and leaves alone what was posted. -/
theorem teardown_terminal (t : PosixFdTransport) (doneError pendingWriteError : Option String) (closeInput : Bool) :
    (t.teardown doneError pendingWriteError closeInput).closed = true ∧
      (t.teardown doneError pendingWriteError closeInput).config = t.config ∧
      (t.teardown doneError pendingWriteError closeInput).mailbox = t.mailbox ∧
      (t.teardown doneError pendingWriteError closeInput).nextWriteId = t.nextWriteId := by
  unfold teardown
  split
  · next h => exact ⟨h, rfl, rfl, rfl⟩
  · cases pendingWriteError <;> exact ⟨rfl, rfl, rfl, rfl⟩

theorem Settled.teardown (h : t.Settled) (doneError : Option String) (error : String)
    (closeInput : Bool) : (t.teardown doneError (some error) closeInput).Settled := by
  unfold PosixFdTransport.teardown
  split
  · exact h
  · have htracked := h.tracked.failPendingWrites error
    exact ⟨htracked, fun _ => rfl⟩

theorem Settled.finishWithError (h : t.Settled) (error : String) :
    (t.finishWithError error).Settled := h.teardown (some error) error true

/-- The path of two finished halves fails nothing, so there must be nothing to fail. -/
theorem Settled.maybeCompleteDone (h : t.Settled)
    (hdone : t.readFinished = true → t.writeFinished = true → t.writeCompletions = []) :
    t.maybeCompleteDone.Settled := by
  unfold PosixFdTransport.maybeCompleteDone
  split
  · exact h
  split
  · exact h
  next hopen hfinished =>
    simp only [Bool.or_eq_true, Bool.not_eq_true', not_or, Bool.not_eq_false] at hfinished
    have hnone := hdone hfinished.1 hfinished.2
    unfold PosixFdTransport.teardown
    rw [if_neg hopen]
    exact ⟨h.tracked, fun _ => hnone⟩

theorem Settled.remove_complete (h : t.Settled) (entry : PendingWrite) {state : FutureState}
    (hstate : state ≠ .pending) : ((t.remove entry).complete entry.id state).Settled := by
  refine ⟨h.tracked.remove_complete entry hstate, ?_⟩
  intro hclosed
  simp only [complete, remove, h.terminal hclosed, List.filter_nil]

theorem Settled.register (h : t.Settled) (hopen : t.closed = false) (byteCount : Nat) :
    (t.register byteCount).Settled := by
  refine ⟨h.tracked.register byteCount, ?_⟩
  intro hclosed
  simp only [PosixFdTransport.register, hopen, Bool.false_eq_true] at hclosed

theorem Settled.issue (h : t.Settled) (hopen : t.closed = false) (command : Command) (byteCount : Nat) (finished : Bool)
    (result : SendResult) : (t.issue command byteCount finished result).Settled := by
  have hhalf : { t with writeFinished := finished }.Settled := { h with }
  rw [PosixFdTransport.issue, post_eq]
  exact { hhalf.register hopen byteCount with }

theorem Settled.move (hQ : ¬ Q .eof ∧ ∀ id, ¬ Q (.writeOk id)) (hmove : Move P Q t t' posted results) (h : t.Settled) :
    t'.Settled := by
  cases hmove with
  | input | eof => exact { h with }
  | reading | credit =>
    rw [post_eq]
    exact { h with }
  | admitted _ hopen => exact h.issue hopen _ _ _ _
  | refused _ hopen =>
    refine Settled.finishWithError ?_ _
    exact Settled.remove_complete (h.issue hopen _ _ _ _) ⟨t.nextWriteId + 1, _⟩ nofun
  | failed error => exact h.finishWithError error
  | close =>
    rw [post_eq]
    refine Settled.teardown ?_ none _ true
    exact { h with }
  | acknowledged _ hok => exact absurd hok (hQ.2 _)
  | finished hend => exact hend.elim (absurd · hQ.1) fun ⟨id, hok⟩ => absurd hok (hQ.2 id)
  | dropped =>
    refine Settled.finishWithError ?_ _
    exact h.remove_complete _ nofun
  | ended _ doneError error => exact h.teardown doneError error true

/-! ## The end of input -/

/-- The write half is open, or there is nothing to wait for: then the end of input leaves no future behind. -/
def Quiet (t : PosixFdTransport) : Prop := t.writeFinished = true → t.writeCompletions = []

theorem Quiet.teardown (doneError : Option String) (error : String) (closeInput : Bool)
    (h : t.Quiet) : (t.teardown doneError (some error) closeInput).Quiet := by
  unfold PosixFdTransport.teardown
  split
  · exact h
  · exact fun _ => rfl

theorem Quiet.move (hP : ∀ result, ¬ P (.closeWrite result)) (hmove : Move P (fun _ => False) t t' posted results)
    (h : t.Quiet) : t'.Quiet := by
  cases hmove with
  | input => exact h
  | reading | credit =>
    rw [post_eq]
    exact h
  | admitted hc _ hunfinished hadmits =>
    cases hadmits with
    | write =>
      intro hdone
      rw [issue, post_eq] at hdone
      exact absurd (hunfinished.symm.trans hdone) nofun
    | closeWrite => exact absurd hc (hP _)
  | refused hc _ hunfinished hadmits =>
    cases hadmits with
    | write =>
      refine Quiet.teardown _ _ _ fun hdone => ?_
      rw [issue, post_eq] at hdone
      exact absurd (hunfinished.symm.trans hdone) nofun
    | closeWrite => exact absurd hc (hP _)
  | failed => exact h.teardown _ _ _
  | close =>
    rw [post_eq]
    refine Quiet.teardown none _ true ?_
    exact h
  | eof h | acknowledged _ h | dropped _ h => exact h.elim
  | finished h => simp at h
  | ended h => simp at h

theorem Settled.writeAcknowledged (h : t.Settled) {id : Nat}
    (hlast : t.readFinished = true → ⟨id, 0⟩ ∈ t.writeCompletions → ∀ e ∈ t.writeCompletions, e.id = id) :
    (t.writeAcknowledged id).Settled := by
  unfold PosixFdTransport.writeAcknowledged
  split
  · exact h
  next entry hfind =>
  obtain ⟨hmem, rfl⟩ := find_id hfind
  have hremoved : ((t.remove entry).complete entry.id .value).Settled := h.remove_complete entry (by simp)
  split
  · next hzero =>
    refine Settled.maybeCompleteDone { hremoved with } ?_
    -- The half-close was the last entry, so taking it out empties the table.
    intro hread _
    have hentry : ⟨entry.id, 0⟩ ∈ t.writeCompletions := hzero ▸ hmem
    refine List.filter_eq_nil_iff.mpr ?_
    intro e he
    simpa using hlast hread hentry e he
  · exact hremoved

theorem Settled.eof (h : t.Settled) (hquiet : t.Quiet) {r : Reaction} (hr : ∀ result, Call.closeWrite result ∉ r)
    (ack enable : SendResult) : (t.handleReactorEvent .eof r ack enable).Settled := by
  unfold handleReactorEvent
  split
  · exact h
  have hsettled : { t with readFinished := true, inputClosed := true }.Settled := { h with }
  have hstill : { t with readFinished := true, inputClosed := true }.Quiet := hquiet
  obtain ⟨_, hmoves⟩ := moves_react (P := fun c => ∀ result, c ≠ .closeWrite result) (Q := fun _ => False)
    (fun c hc result heq => hr result (heq ▸ hc)) { t with readFinished := true, inputClosed := true }
  have hreacted := hmoves.invariant (Settled.move ⟨id, fun _ => id⟩) hsettled
  refine hreacted.maybeCompleteDone fun _ hwrite => ?_
  exact hmoves.invariant (Quiet.move fun result hne => hne result rfl) hstill hwrite

/-- One stimulus that comes in order keeps every waiting future registered, and leaves none at the end. -/
theorem Settled.step {t : PosixFdTransport} (h : t.Settled) {s : Stimulus} (hs : t.InOrder s) : (t.step s).Settled := by
  cases s with
  | call c =>
    obtain ⟨_, hmoves⟩ := moves_call (P := fun _ => True) (Q := fun _ => False) (c := c) trivial t
    exact hmoves.invariant (Settled.move ⟨id, fun _ => id⟩) h
  | event event r ack enable =>
    by_cases hother : event ≠ .eof ∧ ∀ id, event ≠ .writeOk id
    · obtain ⟨_, hmoves⟩ := moves_event (P := fun _ => True)
        (Q := fun event => event ≠ .eof ∧ ∀ id, event ≠ .writeOk id) hother (fun _ _ => trivial) ack enable t
      exact hmoves.invariant (Settled.move ⟨fun h => h.1 rfl, fun id h => h.2 id rfl⟩) h
    cases event with
    | eof => exact h.eof hs.1 hs.2 ack enable
    | writeOk id =>
      simp only [PosixFdTransport.step, handleReactorEvent]
      split
      · exact h
      · exact h.writeAcknowledged hs
    | _ => exact absurd ⟨nofun, nofun⟩ hother

theorem settled_of_reachable {config : Config} (h : Reachable InOrder config t) : t.Settled := by
  refine h.invariant ⟨fun id hpending => ?_, fun _ => rfl⟩ fun t s t' ht hs hstep => ?_
  · cases hpending
  · cases hstep
    exact ht.step hs

/-- In a closed transport no entry is left whose future waits, and no future waits at all. -/
theorem closed_leaves_no_future {config : Config} {t : PosixFdTransport} (h : Reachable InOrder config t)
    (hclosed : t.closed = true) :
    (∀ e ∈ t.writeCompletions, t.futures e.id ≠ some .pending) ∧ ∀ id, t.futures id ≠ some .pending := by
  have hsettled := settled_of_reachable h
  have hnone := hsettled.terminal hclosed
  constructor
  · intro e he
    rw [hnone] at he
    exact absurd he List.not_mem_nil
  · intro id hpending
    obtain ⟨e, he, -⟩ := hsettled.tracked id hpending
    rw [hnone] at he
    exact absurd he List.not_mem_nil

/-- A write and a half-close, acknowledged in order, and then the end of input. -/
def orderly : List Stimulus :=
  [.call (.write [7] .ok), .call (.closeWrite .ok), .event (.writeOk 1) [] .ok .ok, .event (.writeOk 2) [] .ok .ok,
    .event .eof [] .ok .ok]

theorem reachable_orderly : Reachable InOrder {} (orderly.foldl step (adopted {})) := by
  have h0 : Reachable InOrder {} (adopted {}) := .start
  have h1 := h0.next (.call (.write [7] .ok)) trivial rfl
  have h2 := h1.next (.call (.closeWrite .ok)) trivial rfl
  have h3 := h2.next (.event (.writeOk 1) [] .ok .ok) (fun hread => absurd hread (by decide)) rfl
  have h4 := h3.next (.event (.writeOk 2) [] .ok .ok) (fun hread => absurd hread (by decide)) rfl
  exact h4.next (.event .eof [] .ok .ok) ⟨fun _ => by decide, fun _ hmem => by cases hmem⟩ rfl

theorem closed_leaves_no_future_orderly :
    (orderly.foldl step (adopted {})).closed = true ∧
      ∀ id, (orderly.foldl step (adopted {})).futures id ≠ some .pending :=
  ⟨by decide, (closed_leaves_no_future reachable_orderly (by decide)).2⟩

/-- The peer ends its half while a half-close is outstanding: the transport closes, and neither the write nor
the half-close is ever completed. -/
def halfCloseThenEof : List Stimulus :=
  [.call (.write [7] .ok), .call (.closeWrite .ok), .event .eof [] .ok .ok]

theorem half_close_hangs :
    Reachable (fun _ _ => True) {} (halfCloseThenEof.foldl step (adopted {})) ∧
      (halfCloseThenEof.foldl step (adopted {})).closed = true ∧
      (halfCloseThenEof.foldl step (adopted {})).writeCompletions = [⟨1, 1⟩, ⟨2, 0⟩] ∧
      (halfCloseThenEof.foldl step (adopted {})).futures 1 = some .pending ∧
      (halfCloseThenEof.foldl step (adopted {})).futures 2 = some .pending := by
  have h0 : Reachable (fun _ _ => True) {} (adopted {}) := .start
  have h1 := h0.next (.call (.write [7] .ok)) trivial rfl
  have h2 := h1.next (.call (.closeWrite .ok)) trivial rfl
  have h3 := h2.next (.event .eof [] .ok .ok) trivial rfl
  exact ⟨h3, by decide, by decide, by decide, by decide⟩

/-! ## A future is completed once -/

/-- An id not given out yet has no future, the future of an entry waits, and what is complete in `final` is as it
was. -/
structure Waiting (final : Nat → Option FutureState) (t : PosixFdTransport) : Prop where
  unused : ∀ id, t.nextWriteId < id → t.futures id = none
  pending : ∀ e ∈ t.writeCompletions, t.futures e.id = some .pending
  kept : ∀ id state, final id = some state → state ≠ .pending → t.futures id = some state

variable {final : Nat → Option FutureState}

theorem Waiting.issue (h : t.Waiting final) (command : Command) (byteCount : Nat) (finished : Bool)
    (result : SendResult) : (t.issue command byteCount finished result).Waiting final := by
  obtain ⟨hunused, hpending, hkept⟩ := h
  rw [PosixFdTransport.issue, post_eq]
  constructor <;> simp only [register, Function.update_apply] <;> grind

theorem Waiting.remove_complete (h : t.Waiting final) {entry : PendingWrite} (hmem : entry ∈ t.writeCompletions)
    (state : FutureState) : ((t.remove entry).complete entry.id state).Waiting final := by
  obtain ⟨hunused, hpending, hkept⟩ := h
  constructor <;> simp only [remove, complete, Function.update_apply] <;> grind

theorem Waiting.teardown (h : t.Waiting final) (doneError pendingWriteError : Option String) (closeInput : Bool) :
    (t.teardown doneError pendingWriteError closeInput).Waiting final := by
  obtain ⟨hunused, hpending, hkept⟩ := h
  constructor <;> grind [PosixFdTransport.teardown, failPendingWrites]

theorem Waiting.move (hmove : Move P Q t t' posted results) (h : t.Waiting final) : t'.Waiting final := by
  cases hmove with
  | input | eof => exact { h with }
  | reading | credit =>
    rw [post_eq]
    exact { h with }
  | admitted => exact h.issue _ _ _ _
  | refused =>
    refine Waiting.teardown (Waiting.remove_complete (h.issue _ _ _ _) ?_ _) _ _ _
    rw [PosixFdTransport.issue, post_eq]
    exact List.mem_append_right _ List.mem_cons_self
  | close =>
    rw [post_eq]
    apply Waiting.teardown
    exact { h with }
  | acknowledged hmem => exact { h.remove_complete hmem .value with }
  | dropped hmem => exact (h.remove_complete hmem _).teardown _ _ _
  | failed | finished | ended => exact h.teardown _ _ _

theorem Waiting.run (h : t.Waiting final) (stimuli : List Stimulus) : (stimuli.foldl step t).Waiting final := by
  induction stimuli generalizing t with
  | nil => exact h
  | cons s rest ih =>
    have hstep : ∃ posted results, Moves (fun _ => True) (fun _ => True) t (t.step s) posted results := by
      cases s with
      | call c => exact (moves_call trivial t).imp fun _ h => ⟨_, h⟩
      | event event r ack enable => exact (moves_event trivial (fun _ _ => trivial) ack enable t).imp fun _ h => ⟨_, h⟩
    obtain ⟨_, _, hmoves⟩ := hstep
    exact ih (hmoves.invariant Waiting.move h)

/-- Whatever is called and whatever the reactor sends, in any order: the completers in the table are not complete, so
completing one does not throw, and a future that is complete is never completed again. -/
theorem future_completed_once (config : Config) (stimuli : List Stimulus) :
    (∀ e ∈ (stimuli.foldl step (adopted config)).writeCompletions,
        (stimuli.foldl step (adopted config)).futures e.id = some .pending) ∧
      ∀ id state, (stimuli.foldl step (adopted config)).futures id = some state → state ≠ .pending →
        ∀ more : List Stimulus, ((stimuli ++ more).foldl step (adopted config)).futures id = some state := by
  have hstart : (adopted config).Waiting fun _ => none :=
    ⟨fun _ _ => rfl, fun _ he => absurd he List.not_mem_nil, nofun⟩
  have hnow := hstart.run stimuli
  refine ⟨hnow.pending, fun id state hid hne more => ?_⟩
  rw [List.foldl_append]
  exact (Waiting.run { hnow with kept := fun _ _ hid _ => hid } more).kept id state hid hne

end PosixFdTransport

end TailscaleDart.Fd
