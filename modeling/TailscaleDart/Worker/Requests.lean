import Mathlib.Data.List.Nodup
import TailscaleDart.Worker.LifecycleQueue

/-!
# Worker.Requests — responses paired by position

The main isolate sends commands to its worker isolate and gets responses without identifiers: a response completes the
oldest pending completer. `handleCommand` is one turn of the worker's command port, with what the native call gave;
whatever it throws becomes a failure response. The two ports are FIFO, and the worker may end at any moment, with the
commands it has not handled.

The numbers that commands and responses carry here are those of the requests, and no function of the model reads them
off a response: that a response meets its own completer is what `Paired` says.
-/

namespace TailscaleDart.Worker

open Conc

/-! ## The worker's turn -/

inductive WorkerOperation
  | start | httpCloseBinding | tcpCloseFdListener | udpCloseBinding | whois | tlsDomains | diagMetrics | diagDERPMap
  | diagCheckUpdate | debugNodeState | status | peers | prefsGet | prefsUpdate | exitNodeSuggest | exitNodeUseAuto
  | serveClear | funnelClear | down | logout
  deriving DecidableEq

/-- A command, with what its handler reads besides the arguments of the native call. -/
inductive WorkerCommand
  | start | httpCloseBinding | tcpCloseFdListener | udpCloseBinding | whois | tlsDomains | diagMetrics | diagDERPMap
  | diagCheckUpdate | debugNodeState | status | peers | prefsGet | prefsUpdate | exitNodeSuggest | exitNodeUseAuto
  | serveClear (funnel : Bool)
  | down (runtimeToken : Int) (terminateAfterNativeResult : Bool)
  | logout (runtimeToken : Int) (terminateAfterNativeResult : Bool)

def WorkerCommand.operation : WorkerCommand → WorkerOperation
  | .start => .start
  | .httpCloseBinding => .httpCloseBinding
  | .tcpCloseFdListener => .tcpCloseFdListener
  | .udpCloseBinding => .udpCloseBinding
  | .whois => .whois
  | .tlsDomains => .tlsDomains
  | .diagMetrics => .diagMetrics
  | .diagDERPMap => .diagDERPMap
  | .diagCheckUpdate => .diagCheckUpdate
  | .debugNodeState => .debugNodeState
  | .status => .status
  | .peers => .peers
  | .prefsGet => .prefsGet
  | .prefsUpdate => .prefsUpdate
  | .exitNodeSuggest => .exitNodeSuggest
  | .exitNodeUseAuto => .exitNodeUseAuto
  | .serveClear funnel => if funnel then .funnelClear else .serveClear
  | .down _ _ => .down
  | .logout _ _ => .logout

/-- What a handler throws: the message of a `TailscaleException` or the text of another error, and the code and status
of a `TailscaleOperationException`. -/
structure Thrown where
  message : String
  code : String := "unknown"
  statusCode : Option Int := none

/-- What the native side gives a handler: the call with its decoding, the token in the result, and the contents. -/
structure Native (π : Type) where
  call : Except Thrown Unit
  token : Option Int
  contents : Except Thrown π

inductive WorkerResponse (π : Type)
  | start (runtimeToken : Int) (contents : π)
  | contents (operation : WorkerOperation) (contents : π)
  | ack (operation : WorkerOperation) (runtimeToken : Int)
  | lifecycle (operation : WorkerOperation) (runtimeToken : Int) (contents : π)
  | failure (operation : WorkerOperation) (error : Thrown)

variable {π : Type}

def WorkerResponse.operation : WorkerResponse π → WorkerOperation
  | .start _ _ => .start
  | .contents operation _ | .ack operation _ | .lifecycle operation _ _ | .failure operation _ => operation

/-- The `switch` over the command, up to its response. -/
def WorkerCommand.respond (command : WorkerCommand) (native : Native π) : Except Thrown (WorkerResponse π) := do
  native.call
  match command with
  | .start =>
    let runtimeToken := native.token.getD 0
    if runtimeToken ≤ 0 then throw { message := "Native runtime did not return its preparation token." }
    return .start runtimeToken (← native.contents)
  | .httpCloseBinding | .tcpCloseFdListener | .udpCloseBinding | .exitNodeUseAuto | .serveClear _ =>
    return .ack command.operation 0
  | .down runtimeToken _ | .logout runtimeToken _ =>
    return .lifecycle command.operation (native.token.getD runtimeToken) (← native.contents)
  | _ => return .contents command.operation (← native.contents)

/-- `Isolate.exit()` between the native result and the response. -/
def WorkerCommand.terminates : WorkerCommand → Bool
  | .down _ terminate | .logout _ terminate => terminate
  | _ => false

/-- One turn of the command port: the responses sent, and whether the isolate ended in it. -/
def handleCommand (command : WorkerCommand) (native : Native π) : List (WorkerResponse π) × Bool :=
  match command.respond native with
  | .error error => ([.failure command.operation error], false)
  | .ok response => if command.terminates then ([], true) else ([response], false)

/-- A response the handler of `command` sends. -/
def Answers (command : WorkerCommand) (response : WorkerResponse π) : Prop :=
  ∃ native, handleCommand command native = ([response], false)

theorem respond_operation {command : WorkerCommand} {native : Native π} {response : WorkerResponse π}
    (h : command.respond native = .ok response) : response.operation = command.operation := by
  unfold WorkerCommand.respond at h
  cases hcall : native.call with
  | error e => simp [hcall, bind, Except.bind] at h
  | ok u =>
    cases hcontents : native.contents <;> cases command <;>
      simp [hcall, hcontents, bind, Except.bind, pure, Except.pure, throw, throwThe, MonadExceptOf.throw] at h <;>
      first
        | (subst h; rfl)
        | (split at h <;> first | (cases h; rfl) | cases h)

/-- One turn sends one response, a failure for whatever was thrown; only a command that ends the isolate sends none, and
only with a native result. -/
theorem handleCommand_one (command : WorkerCommand) (native : Native π) :
    (handleCommand command native = ([], true) ∧ command.terminates = true ∧
      ∃ response, command.respond native = .ok response) ∨
    ∃ response, handleCommand command native = ([response], false) ∧ response.operation = command.operation ∧
      ∀ error, command.respond native = .error error → response = .failure command.operation error := by
  unfold handleCommand
  cases h : command.respond native with
  | error error => exact .inr ⟨_, rfl, rfl, fun _ herror => by cases herror; rfl⟩
  | ok response =>
    dsimp only
    split
    next hterminates => exact .inl ⟨rfl, hterminates, response, rfl⟩
    next => exact .inr ⟨response, rfl, respond_operation h, nofun⟩

/-! ## The two isolates -/

/-- A reply is a response, with the number of the command it was sent for, or `_workerTerminated`. -/
abbrev Reply (π : Type) := Except Unit (Nat × WorkerResponse π)

/-- Where a call of `_request` stands. -/
inductive RequestStage (π : Type)
  /-- At the await of `_sendPort`. -/
  | port
  | sent (completer : Completer (Reply π))
  | returned (reply : Reply π)

structure Request (π : Type) where
  command : WorkerCommand
  stage : RequestStage π

inductive Message (π : Type)
  | ready | bootstrapFailure | event
  | response (i : Nat) (response : WorkerResponse π)
  /-- The `null` that the end of the isolate posts. -/
  | exit

def Message.responds : Message π → Option Nat
  | .response i _ => some i
  | _ => none

def Message.isReady : Message π → Bool
  | .ready => true
  | _ => false

inductive Phase
  | starting | running | ended
  deriving DecidableEq

structure WorkerState (π : Type) where
  requests : List (Request π) := []
  /-- `_sendPortCompleter`: completed with the port, or with an error. -/
  sendPort : Completer Bool := none
  pendingRequests : List Nat := []
  disposed : Bool := false
  phase : Phase := .starting
  /-- What is on its way to the worker, and to the main isolate. -/
  commands : List Nat := []
  inbox : List (Message π) := []
  /-- The `StateError`s thrown by completing a future twice. -/
  stateErrors : Nat := 0
  /-- The commands the worker's port has handled, and the command of each response it has sent. -/
  handled : List Nat := []
  answered : List Nat := []

inductive WorkerEvent (π : Type)
  | request (command : WorkerCommand)
  /-- The call of `_request` number `i` goes on after an await. -/
  | turn (i : Nat)
  | deliver
  | spawnFails
  | boot (ok : Bool)
  | work (native : Native π)
  | push
  | kill

namespace WorkerState

variable {w w' : WorkerState π}

def setStage (w : WorkerState π) (i : Nat) (req : Request π) (stage : RequestStage π) : WorkerState π :=
  { w with requests := w.requests.set i { req with stage := stage } }

/-- `_dispose`, as far as the requests go. -/
def dispose (w : WorkerState π) : WorkerState π :=
  if w.disposed then w
  else { w with
    disposed := true
    sendPort := w.sendPort.or (some false)
    requests := w.requests.mapIdx fun i req =>
      if i ∈ w.pendingRequests then { req with stage := .sent (some (.error ())) } else req
    pendingRequests := [] }

/-- `complete` on the completer of request `i`. -/
def complete (w : WorkerState π) (i : Nat) (response : Nat × WorkerResponse π) : WorkerState π :=
  match w.requests[i]? with
  | some ⟨command, .sent completer⟩ =>
    let result := Completer.complete completer (.ok response)
    { w with
      requests := w.requests.set i ⟨command, .sent result.2⟩
      stateErrors := if result.1 then w.stateErrors else w.stateErrors + 1 }
  | _ => w

def handleWorkerMessage (w : WorkerState π) : Message π → WorkerState π
  | .exit | .bootstrapFailure => w.dispose
  | .ready =>
    let result := Completer.complete w.sendPort true
    { w with sendPort := result.2, stateErrors := if result.1 then w.stateErrors else w.stateErrors + 1 }
  | .event => w
  | .response k response =>
    match w.pendingRequests with
    | [] => w
    | first :: rest => { w with pendingRequests := rest }.complete first (k, response)

/-- A completer is queued and the command sent; a port that is closed drops it. -/
def send (w : WorkerState π) (i : Nat) : WorkerState π :=
  { w with
    pendingRequests := w.pendingRequests ++ [i]
    commands := if w.phase = .ended then w.commands else w.commands ++ [i] }

/-- There is no isolate any more to handle the commands on their way. -/
def dies (w : WorkerState π) : WorkerState π :=
  { w with phase := .ended, commands := [] }

def ends (w : WorkerState π) (posted : List (Message π)) : WorkerState π :=
  { w.dies with inbox := w.inbox ++ posted ++ [.exit] }

def step (w : WorkerState π) : WorkerEvent π → Option (WorkerState π)
  | .request command =>
    some { w with requests := w.requests ++ [⟨command, if w.disposed then .returned (.error ()) else .port⟩] }
  | .turn i => w.requests[i]?.bind fun req =>
    match req.stage, w.sendPort with
    | .port, some true =>
      if w.disposed then some (w.setStage i req (.returned (.error ())))
      else some ((w.send i).setStage i req (.sent none))
    | .port, some false => some (w.setStage i req (.returned (.error ())))
    | .sent (some reply), _ =>
      some ({ w with pendingRequests := w.pendingRequests.erase i }.setStage i req (.returned reply))
    | _, _ => none
  | .deliver =>
    -- a disposed worker has closed its receive port
    if w.disposed then none
    else match w.inbox with
      | [] => none
      | message :: inbox => some ({ w with inbox := inbox }.handleWorkerMessage message)
  | .spawnFails => if w.phase = .starting then some (w.dies.dispose) else none
  | .boot ok =>
    if w.phase ≠ .starting then none
    else if ok then some { w with phase := .running, inbox := w.inbox ++ [.ready] }
    else some (w.ends [.bootstrapFailure])
  | .work native =>
    if w.phase ≠ .running then none
    else match w.commands with
      | [] => none
      | i :: rest => w.requests[i]?.map fun req =>
        let (sent, exits) := handleCommand req.command native
        let w := { w with handled := w.handled ++ [i], answered := w.answered ++ sent.map fun _ => i }
        if exits then w.ends (sent.map (.response i))
        else { w with commands := rest, inbox := w.inbox ++ sent.map (.response i) }
  | .push => if w.phase = .running then some { w with inbox := w.inbox ++ [.event] } else none
  | .kill => if w.phase = .ended then none else some (w.ends [])

/-! ## The pairing -/

/-- The requests a response is on its way for, then those whose command is on its way, then those whose command was
lost: this is the order of the pending completers. -/
structure Paired (w : WorkerState π) : Prop where
  queue : w.disposed = false → ∃ lost, w.pendingRequests = w.inbox.filterMap Message.responds ++ w.commands ++ lost ∧
    (w.phase ≠ .ended → lost = [])
  nodup : w.pendingRequests.Nodup
  waiting : ∀ i, i ∈ w.pendingRequests ↔ ∃ req, w.requests[i]? = some req ∧ req.stage = .sent none
  answers : ∀ i response, .response i response ∈ w.inbox →
    ∃ req, w.requests[i]? = some req ∧ Answers req.command response
  replied : ∀ (i : Nat) (req : Request π), w.requests[i]? = some req → ∀ k response,
    req.stage = .sent (some (.ok (k, response))) ∨ req.stage = .returned (.ok (k, response)) →
      k = i ∧ Answers req.command response
  starting : w.phase = .starting → w.sendPort = none ∧ w.inbox = [] ∧ w.disposed = false
  ready : w.disposed = false → w.sendPort ≠ some false ∧
    w.inbox.countP Message.isReady + (if w.sendPort = none then 0 else 1) ≤ 1
  ended : w.phase = .ended → w.commands = []
  disposed : w.disposed = true → w.phase = .ended ∧ w.pendingRequests = [] ∧ w.sendPort ≠ none
  exit : .exit ∈ w.inbox ∨ .bootstrapFailure ∈ w.inbox → w.phase = .ended
  errors : w.stateErrors = 0
  responses : w.handled = w.answered ∨ w.phase = .ended ∧ ∃ i req, w.handled = w.answered ++ [i] ∧
    w.requests[i]? = some req ∧ req.command.terminates = true

variable {i : Nat} {req : Request π}

theorem Paired.request (h : Paired w) (command : WorkerCommand) :
    Paired { w with requests := w.requests ++ [⟨command, if w.disposed then .returned (.error ()) else .port⟩] } :=
  { h with
    waiting i := by grind [h.waiting i]
    answers i response hmem := by grind [h.answers i response hmem]
    replied i req hreq k response hstage := by grind [h.replied i req]
    responses := h.responses.imp_right fun ⟨hphase, i, req, hlast, hreq, hends⟩ =>
      ⟨hphase, i, req, hlast, by grind, hends⟩ }

variable {inbox : List (Message π)}

/-- One request changes its stage, and the queues change with it. -/
theorem Paired.restage (h : Paired w) (hreq : w.requests[i]? = some req) {stage : RequestStage π}
    {pending commands : List Nat}
    (hreply : ∀ k response, stage = .sent (some (.ok (k, response))) ∨ stage = .returned (.ok (k, response)) →
      k = i ∧ Answers req.command response)
    (hqueue : w.disposed = false → ∃ lost, pending = inbox.filterMap Message.responds ++ commands ++ lost ∧
      (w.phase ≠ .ended → lost = [])) (hnodup : pending.Nodup) (hself : i ∈ pending ↔ stage = .sent none)
    (hothers : ∀ j, j ≠ i → (j ∈ pending ↔ j ∈ w.pendingRequests)) (hinbox : inbox.Sublist w.inbox)
    (hended : w.phase = .ended → commands = []) (hdisposed : w.disposed = true → pending = []) : Paired { w with
      requests := w.requests.set i { req with stage := stage }
      pendingRequests := pending, commands := commands, inbox := inbox } :=
  { h with
    queue := hqueue
    nodup := hnodup
    waiting j := by
      by_cases hj : j = i
      · subst hj
        grind
      · rw [hothers j hj, h.waiting]
        grind
    answers j response hmem := by
      obtain ⟨other, hother, hanswer⟩ := h.answers j response (hinbox.subset hmem)
      grind
    replied j other hother k response hstage := by grind [h.replied j other]
    starting hphase := by
      obtain ⟨hport, hempty, hd⟩ := h.starting hphase
      exact ⟨hport, List.sublist_nil.mp (hempty ▸ hinbox), hd⟩
    ready hd := by
      obtain ⟨hport, hcount⟩ := h.ready hd
      exact ⟨hport, Nat.le_trans (Nat.add_le_add_right hinbox.countP_le _) hcount⟩
    ended := hended
    disposed hd := ⟨(h.disposed hd).1, hdisposed hd, (h.disposed hd).2.2⟩
    exit hmem := h.exit (hmem.imp (hinbox.subset ·) (hinbox.subset ·))
    responses := h.responses.imp_right fun ⟨hphase, j, last, hlast, hother, hends⟩ => by
      refine ⟨hphase, j, ?_⟩
      by_cases hj : j = i
      · exact ⟨{ req with stage := stage }, by grind⟩
      · exact ⟨last, by grind⟩ }

/-- `await completer.future` or the await of the port returns; the completer is not in the queue any more. -/
theorem Paired.returns (h : Paired w) (hreq : w.requests[i]? = some req) {reply : Reply π}
    (hstage : req.stage = .sent (some reply) ∨ req.stage = .port ∧ reply = .error ()) :
    Paired ({ w with pendingRequests := w.pendingRequests.erase i }.setStage i req (.returned reply)) := by
  have hnot : i ∉ w.pendingRequests := by
    rw [h.waiting]
    grind
  rw [List.erase_of_not_mem hnot]
  refine h.restage hreq (fun k response hresponse => ?_) h.queue h.nodup (by simp [hnot]) (fun _ _ => .rfl)
    (.refl _) h.ended fun hd => (h.disposed hd).2.1
  have hok : reply = .ok (k, response) := by simpa using hresponse
  rcases hstage with hsent | ⟨-, herror⟩
  · exact h.replied i req hreq k response (.inl (hok ▸ hsent))
  · cases herror.symm.trans hok

theorem Paired.send (h : Paired w) (hreq : w.requests[i]? = some req) (hstage : req.stage = .port)
    (hd : w.disposed = false) (hport : w.sendPort = some true) : Paired ((w.send i).setStage i req (.sent none)) := by
  have hnot : i ∉ w.pendingRequests := by
    rw [h.waiting]
    grind
  have hnodup : (w.pendingRequests ++ [i]).Nodup := by
    rw [List.nodup_append]
    grind [h.nodup]
  obtain ⟨lost, hpending, hlost⟩ := h.queue hd
  refine h.restage hreq nofun (fun _ => ?_) hnodup (by simp [WorkerState.send])
    (fun j hj => by simp [WorkerState.send, hj]) (.refl _) (fun hphase => ?_) fun hdisposed => ?_
  · cases hphase : w.phase with
    | starting =>
      rw [(h.starting hphase).1] at hport
      cases hport
    | running =>
      refine ⟨[], ?_, fun _ => rfl⟩
      simp [WorkerState.send, hpending, hphase, hlost (by simp [hphase])]
    | ended =>
      refine ⟨lost ++ [i], ?_, fun hne => (hne rfl).elim⟩
      simp [WorkerState.send, hpending, hphase]
  · simp [WorkerState.send, hphase, h.ended hphase]
  · cases hd.symm.trans hdisposed

theorem Paired.dispose (h : Paired w) (hphase : w.phase = .ended) : Paired w.dispose := by
  unfold WorkerState.dispose
  split
  · exact h
  next hd =>
  exact { h with
    queue := nofun
    nodup := .nil
    waiting j := by grind [h.waiting j]
    answers j response hmem := by
      obtain ⟨other, hother, hanswer⟩ := h.answers j response hmem
      grind
    replied j other hother k response hstage := by grind [h.replied j]
    starting hstarting := by cases hphase.symm.trans hstarting
    ready := nofun
    disposed _ := ⟨hphase, rfl, by cases w.sendPort <;> simp⟩
    responses := h.responses.imp_right fun ⟨_, j, last, hlast, hother, hends⟩ => by
      refine ⟨hphase, j, if j ∈ w.pendingRequests then { last with stage := .sent (some (.error ())) } else last, hlast,
        ?_⟩
      grind }

theorem Paired.drops {message : Message π} (h : Paired w) (hinbox : w.inbox = message :: inbox)
    (hresponds : message.responds = none) : Paired { w with inbox := inbox } :=
  { h with
    queue hd := by simpa [hinbox, List.filterMap_cons, hresponds] using h.queue hd
    answers j response hmem := h.answers j response (by simp [hinbox, hmem])
    starting hphase := by
      rw [(h.starting hphase).2.1] at hinbox
      cases hinbox
    ready hd := by
      have hcount := h.ready hd
      rw [hinbox, List.countP_cons] at hcount
      exact ⟨hcount.1, by have := hcount.2; dsimp only; omega⟩
    exit hmem := h.exit (by grind) }

/-- The next response is for the request whose completer is the oldest, and completes it. -/
theorem Paired.next {response : WorkerResponse π} (h : Paired w) (hd : w.disposed = false)
    (hinbox : w.inbox = .response i response :: inbox) :
    ∃ rest req, w.pendingRequests = i :: rest ∧ w.requests[i]? = some req ∧ req.stage = .sent none ∧
      Answers req.command response ∧ { w with inbox := inbox }.handleWorkerMessage (.response i response) = { w with
        requests := w.requests.set i { req with stage := .sent (some (.ok (i, response))) }
        pendingRequests := rest, inbox := inbox } := by
  obtain ⟨lost, hpending, -⟩ := h.queue hd
  rw [hinbox, List.filterMap_cons] at hpending
  obtain ⟨rest, hrest⟩ : ∃ rest, w.pendingRequests = i :: rest := ⟨_, hpending⟩
  obtain ⟨⟨command, stage⟩, hreq, hstage⟩ := (h.waiting i).mp (by simp [hrest])
  obtain rfl : stage = .sent none := hstage
  obtain ⟨req', hreq', hanswer⟩ := h.answers i response (by simp [hinbox])
  obtain rfl := Option.some.inj (hreq.symm.trans hreq')
  refine ⟨rest, _, hrest, hreq, rfl, hanswer, ?_⟩
  simp [handleWorkerMessage, hrest, WorkerState.complete, hreq, Completer.complete]

theorem Paired.complete {response : WorkerResponse π} (h : Paired w) (hd : w.disposed = false)
    (hinbox : w.inbox = .response i response :: inbox) :
    Paired ({ w with inbox := inbox }.handleWorkerMessage (.response i response)) := by
  obtain ⟨rest, req, hrest, hreq, -, hanswer, heq⟩ := h.next hd hinbox
  obtain ⟨lost, hpending, hlost⟩ := h.queue hd
  rw [hinbox, List.filterMap_cons] at hpending
  have hnodup := hrest ▸ h.nodup
  rw [heq]
  refine h.restage hreq (fun k response' hreply => ?_) (fun _ => ⟨lost, ?_, hlost⟩) hnodup.of_cons ?_ (fun j hj => ?_)
    (hinbox ▸ List.sublist_cons_self _ _) h.ended fun hdisposed => ?_
  · obtain ⟨rfl, rfl⟩ : i = k ∧ response = response' := by simpa using hreply
    exact ⟨rfl, hanswer⟩
  · exact List.cons.inj (hrest.symm.trans hpending) |>.2
  · simpa using (List.nodup_cons.mp hnodup).1
  · rw [hrest, List.mem_cons]
    simp [hj]
  · cases hd.symm.trans hdisposed

theorem Paired.getsPort (h : Paired w) (hd : w.disposed = false)
    (hinbox : w.inbox = .ready :: inbox) : Paired ({ w with inbox := inbox }.handleWorkerMessage .ready) := by
  have hcount := (h.ready hd).2
  rw [hinbox, List.countP_cons] at hcount
  have hport : w.sendPort = none := by
    by_contra hport
    simp [hport, Message.isReady] at hcount
  simp only [handleWorkerMessage, hport, Completer.complete]
  exact { h.drops hinbox rfl with
    starting hphase := by
      rw [(h.starting hphase).2.1] at hinbox
      cases hinbox
    ready _ := by
      simp [hport, Message.isReady] at hcount ⊢
      omega
    disposed hdisposed := by cases hd.symm.trans hdisposed }

/-- A live worker posts a message: the port at its start, a push, or the response to its first command. -/
theorem Paired.posts {message : Message π} {phase : Phase} {commands : List Nat} (h : Paired w)
    (hlive : w.phase ≠ .ended)
    (hphase : phase = .running) (hcommands : w.commands = message.responds.toList ++ commands)
    (hanswers : ∀ i response, message = .response i response →
      ∃ req, w.requests[i]? = some req ∧ Answers req.command response)
    (hready : message.isReady = true → w.phase = .starting) (hexit : message ≠ .exit ∧ message ≠ .bootstrapFailure) :
    Paired { w with phase := phase, commands := commands, inbox := w.inbox ++ [message] } := by
  have hd : w.disposed = false := by
    by_contra hd
    exact hlive (h.disposed (by simpa using hd)).1
  obtain ⟨lost, hpending, hlost⟩ := h.queue hd
  obtain ⟨hport, hcount⟩ := h.ready hd
  exact { h with
    queue _ := by
      refine ⟨lost, ?_, fun _ => hlost hlive⟩
      rw [hpending, hcommands]
      cases hresponds : message.responds <;> simp [hresponds]
    answers i response hmem := by
      rcases List.mem_append.mp hmem with hold | hnew
      · exact h.answers i response hold
      · exact hanswers i response (List.mem_singleton.mp hnew).symm
    starting hstarting := by cases hphase.symm.trans hstarting
    ready _ := by
      refine ⟨hport, ?_⟩
      cases hmessage : message.isReady with
      | false => simpa [hmessage] using hcount
      | true =>
        obtain ⟨hnone, hempty, -⟩ := h.starting (hready hmessage)
        simp [hempty, hnone, hmessage]
    ended hended := by cases hphase.symm.trans hended
    disposed hdisposed := by cases hd.symm.trans hdisposed
    exit hmem := absurd (h.exit (by simpa [hexit.1.symm, hexit.2.symm] using hmem)) hlive
    responses := .inl (h.responses.resolve_right fun hended => hlive hended.1) }

theorem Paired.dies (h : Paired w) : Paired w.dies :=
  { h with
    queue hd := by
      obtain ⟨lost, hpending, -⟩ := h.queue hd
      exact ⟨w.commands ++ lost, by simpa [WorkerState.dies] using hpending, fun hne => (hne rfl).elim⟩
    starting := nofun
    ended _ := rfl
    disposed hd := ⟨rfl, (h.disposed hd).2⟩
    exit _ := rfl
    responses := h.responses.imp_right fun hended => ⟨rfl, hended.2⟩ }

theorem Paired.ends (h : Paired w) {posted : List (Message π)}
    (hposted : ∀ message ∈ posted, message = .bootstrapFailure) : Paired (w.ends posted) := by
  have hquiet : posted.filterMap Message.responds = [] :=
    List.filterMap_eq_nil_iff.mpr fun message hmem => hposted message hmem ▸ rfl
  have hcount : posted.countP Message.isReady = 0 :=
    List.countP_eq_zero.mpr fun message hmem => hposted message hmem ▸ nofun
  exact { h.dies with
    queue hd := by
      simpa [WorkerState.ends, WorkerState.dies, hquiet, List.filterMap_cons, Message.responds] using h.dies.queue hd
    answers i response hmem := by
      refine h.answers i response ?_
      have hnot : Message.response i response ∉ posted := fun hmem => nomatch hposted _ hmem
      simpa [WorkerState.ends, WorkerState.dies, hnot] using hmem
    starting := nofun
    ready hd := by
      have hsame : (w.ends posted).inbox.countP Message.isReady = w.inbox.countP Message.isReady := by
        simp [WorkerState.ends, hcount, Message.isReady]
      rw [hsame]
      exact h.ready hd
    exit _ := rfl }

theorem Paired.works {native : Native π} {rest : List Nat} (h : Paired w) (hphase : w.phase = .running)
    (hcommands : w.commands = i :: rest) (hreq : w.requests[i]? = some req) {sent : List (WorkerResponse π)}
    {exits : Bool}
    (hsent : handleCommand req.command native = (sent, exits)) :
    let w := { w with handled := w.handled ++ [i], answered := w.answered ++ sent.map fun _ => i }
    Paired (if exits then w.ends (sent.map (.response i))
      else { w with commands := rest, inbox := w.inbox ++ sent.map (.response i) }) := by
  have hlive : w.phase ≠ .ended := by simp [hphase]
  have hhandled := h.responses.resolve_right fun hended => hlive hended.1
  rcases handleCommand_one req.command native with ⟨hone, hterminates, -⟩ | ⟨response, hone, -⟩
  · obtain ⟨rfl, rfl⟩ := Prod.mk.inj (hsent.symm.trans hone)
    have hends : Paired (w.ends []) := h.ends nofun
    exact { hends with responses := .inr ⟨rfl, i, req, by simp [WorkerState.ends, WorkerState.dies, hhandled], hreq,
      hterminates⟩ }
  · obtain ⟨rfl, rfl⟩ := Prod.mk.inj (hsent.symm.trans hone)
    have hposts : Paired { w with commands := rest, inbox := w.inbox ++ [.response i response] } := by
      refine h.posts hlive hphase (by simp [hcommands, Message.responds])
        (fun j response' heq => ?_) nofun ⟨nofun, nofun⟩
      obtain ⟨rfl, rfl⟩ := Message.response.inj heq
      exact ⟨req, hreq, native, hone⟩
    exact { hposts with responses := .inl (by simp [hhandled]) }

theorem Paired.step {e : WorkerEvent π} (h : Paired w) (hstep : w.step e = some w') : Paired w' := by
  cases e with
  | request command => exact Option.some.inj hstep ▸ h.request command
  | turn i =>
    obtain ⟨req, hreq, hstep⟩ := Option.bind_eq_some_iff.mp hstep
    have hfails (hstage : req.stage = .port) : Paired (w.setStage i req (.returned (.error ()))) := by
      have hnot : i ∉ w.pendingRequests := by
        rw [h.waiting]
        grind
      simpa [List.erase_of_not_mem hnot] using h.returns hreq (.inr ⟨hstage, rfl⟩)
    split at hstep
    next hstage hport =>
      split at hstep
      · exact Option.some.inj hstep ▸ hfails hstage
      next hd => exact Option.some.inj hstep ▸ h.send hreq hstage (by simpa using hd) hport
    next hstage hport => exact Option.some.inj hstep ▸ hfails hstage
    next reply hstage => exact Option.some.inj hstep ▸ h.returns hreq (.inl hstage)
    next => cases hstep
  | deliver =>
    simp only [WorkerState.step] at hstep
    split at hstep
    · cases hstep
    next hd =>
    have hd : w.disposed = false := by simpa using hd
    split at hstep
    · cases hstep
    next message inbox hinbox =>
    obtain rfl := Option.some.inj hstep
    have hends (hmem : .exit ∈ w.inbox ∨ .bootstrapFailure ∈ w.inbox) (hquiet : message.responds = none) :
        Paired { w with inbox := inbox }.dispose :=
      (h.drops hinbox hquiet).dispose (h.exit hmem)
    cases message with
    | ready => exact h.getsPort hd hinbox
    | bootstrapFailure => exact hends (by simp [hinbox]) rfl
    | event => exact h.drops hinbox rfl
    | response i response => exact h.complete hd hinbox
    | exit => exact hends (by simp [hinbox]) rfl
  | spawnFails =>
    simp only [WorkerState.step] at hstep
    split at hstep
    · exact Option.some.inj hstep ▸ h.dies.dispose rfl
    · cases hstep
  | boot ok =>
    simp only [WorkerState.step] at hstep
    split at hstep
    · cases hstep
    next hphase =>
    have hphase : w.phase = .starting := by simpa using hphase
    split at hstep
    · refine Option.some.inj hstep ▸ h.posts (by simp [hphase]) rfl rfl nofun (fun _ => hphase) ⟨nofun, nofun⟩
    · exact Option.some.inj hstep ▸ h.ends (by simp)
  | work native =>
    simp only [WorkerState.step] at hstep
    split at hstep
    · cases hstep
    next hphase =>
    have hphase : w.phase = .running := by simpa using hphase
    split at hstep
    · cases hstep
    next i rest hcommands =>
    obtain ⟨req, hreq, rfl⟩ := Option.map_eq_some_iff.mp hstep
    exact h.works hphase hcommands hreq rfl
  | push =>
    simp only [WorkerState.step] at hstep
    split at hstep
    next hphase => exact Option.some.inj hstep ▸ h.posts (by simp [hphase]) hphase rfl nofun nofun ⟨nofun, nofun⟩
    next => cases hstep
  | kill =>
    simp only [WorkerState.step] at hstep
    split at hstep
    · cases hstep
    · exact Option.some.inj hstep ▸ h.ends nofun

theorem paired_start : Paired ({} : WorkerState π) := by
  refine ⟨fun _ => ⟨[], rfl, fun _ => rfl⟩, .nil, ?_, ?_, ?_, fun _ => ⟨rfl, rfl, rfl⟩, ?_, fun _ => rfl, ?_, ?_, rfl,
    .inl rfl⟩
  all_goals simp

theorem paired_of_reachable (h : Machine.Reachable step (fun _ _ => True) ({} : WorkerState π) w) : Paired w :=
  h.invariant paired_start fun _ _ _ hw _ hstep => hw.step hstep

/-- What the `finally` of a request finds settled, one turn later it has returned with. -/
theorem Paired.settles (h : Paired w) (hd : w.disposed = true) (hreq : w.requests[i]? = some req) :
    ∃ reply, req.stage = .returned reply ∨ (req.stage = .sent (some reply) ∨ req.stage = .port ∧ reply = .error ()) ∧
        ∃ w', w.step (.turn i) = some w' ∧ w'.requests[i]? = some { req with stage := .returned reply } := by
  obtain ⟨-, hpending, hport⟩ := h.disposed hd
  have hlt := (List.getElem?_eq_some_iff.mp hreq).1
  cases hstage : req.stage with
  | returned reply => exact ⟨reply, .inl rfl⟩
  | port =>
    refine ⟨.error (), .inr ⟨.inr ⟨rfl, rfl⟩, w.setStage i req (.returned (.error ())), ?_, by simp [setStage, hlt]⟩⟩
    cases hopen : w.sendPort with
    | none => exact absurd hopen hport
    | some opened => cases opened <;> simp [WorkerState.step, hreq, hstage, hopen, hd]
  | sent completer =>
    cases completer with
    | none =>
      have hwaits : i ∈ w.pendingRequests := (h.waiting i).mpr ⟨req, hreq, hstage⟩
      simp [hpending] at hwaits
    | some reply =>
      refine ⟨reply, .inr ⟨.inl rfl,
        { w with pendingRequests := w.pendingRequests.erase i }.setStage i req (.returned reply), ?_, ?_⟩⟩
      · simp only [WorkerState.step, hreq, Option.bind_some, hstage]
      · simp [setStage, hlt]

/-- The disposal is a step of its own, which handles no response. -/
theorem dispose_of_step {e : WorkerEvent π} (hd : w.disposed = false) (hd' : w'.disposed = true)
    (hstep : w.step e = some w') :
    ∃ v : WorkerState π, w' = v.dispose ∧ v.requests = w.requests ∧ v.pendingRequests = w.pendingRequests ∧
      v.disposed = false := by
  cases e with
  | deliver =>
    simp only [WorkerState.step] at hstep
    split at hstep
    · cases hstep
    split at hstep
    · cases hstep
    next message inbox hinbox =>
    obtain rfl := Option.some.inj hstep
    cases message with
    | bootstrapFailure | exit => exact ⟨_, rfl, rfl, rfl, hd⟩
    | ready | event => cases hd.symm.trans hd'
    | response k response =>
      simp only [handleWorkerMessage, WorkerState.complete] at hd'
      grind
  | spawnFails =>
    simp only [WorkerState.step] at hstep
    split at hstep
    · exact ⟨w.dies, (Option.some.inj hstep).symm, rfl, rfl, hd⟩
    · cases hstep
  | _ =>
    simp only [WorkerState.step, setStage, WorkerState.send, WorkerState.ends, WorkerState.dies] at hstep
    grind

/-- Along every run of the two isolates: each response the worker has sent is the one to the command in that place,
and only a command that ended the isolate has none, which is one that asks for that and got its native result; a
response that is delivered completes the oldest completer, which is that of its own command, and what a request was
completed with is the response to its own command; no future is completed twice. The step that disposes the worker fails
every pending request, and in a disposed worker every request, also a later one, has returned or returns when it goes
on. -/
theorem responses_paired (h : Machine.Reachable step (fun _ _ => True) ({} : WorkerState π) w) :
    (w.handled = w.answered ∨ w.phase = .ended ∧ ∃ i req, w.handled = w.answered ++ [i] ∧
      w.requests[i]? = some req ∧ req.command.terminates = true) ∧
    (∀ (command : WorkerCommand) (native : Native π),
      (handleCommand command native = ([], true) ∧ command.terminates = true ∧
        ∃ response, command.respond native = .ok response) ∨
      ∃ response, handleCommand command native = ([response], false) ∧ response.operation = command.operation ∧
        ∀ error, command.respond native = .error error → response = .failure command.operation error) ∧
    (∀ i response inbox, w.disposed = false → w.inbox = .response i response :: inbox →
      ∃ rest req w', w.pendingRequests = i :: rest ∧ w.requests[i]? = some req ∧ req.stage = .sent none ∧
        Answers req.command response ∧ w.step .deliver = some w' ∧ w'.pendingRequests = rest ∧
        w'.requests[i]? = some { req with stage := .sent (some (.ok (i, response))) }) ∧
    (∀ (i : Nat) (req : Request π), w.requests[i]? = some req → ∀ k response,
      req.stage = .sent (some (.ok (k, response))) ∨ req.stage = .returned (.ok (k, response)) →
        k = i ∧ Answers req.command response) ∧
    w.stateErrors = 0 ∧
    (∀ e w', w.disposed = false → w.step e = some w' → w'.disposed = true →
      ∀ (i : Nat) (req : Request π), w.requests[i]? = some req → req.stage = .sent none →
        w'.requests[i]? = some { req with stage := .sent (some (.error ())) }) ∧
    (w.disposed = true → ∀ (i : Nat) (req : Request π), w.requests[i]? = some req →
      ∃ reply, req.stage = .returned reply ∨ (req.stage = .sent (some reply) ∨ req.stage = .port ∧ reply = .error ()) ∧
          ∃ w', w.step (.turn i) = some w' ∧ w'.requests[i]? = some { req with stage := .returned reply }) := by
  have hw := paired_of_reachable h
  refine ⟨hw.responses, handleCommand_one, fun i response inbox hd hinbox => ?_, hw.replied, hw.errors,
    fun e w' hd hstep hd' i req hreq hstage => ?_, fun hd i req hreq => hw.settles hd hreq⟩
  · obtain ⟨rest, req, hrest, hreq, hstage, hanswer, hnext⟩ := hw.next hd hinbox
    have hlt := (List.getElem?_eq_some_iff.mp hreq).1
    have hstep : w.step .deliver = some ({ w with inbox := inbox }.handleWorkerMessage (.response i response)) := by
      simp [WorkerState.step, hd, hinbox]
    exact ⟨rest, req, _, hrest, hreq, hstage, hanswer, hnext ▸ hstep, rfl, List.getElem?_set_self hlt⟩
  · obtain ⟨v, rfl, hrequests, hpending, hlive⟩ := dispose_of_step hd hd' hstep
    have hwaits : i ∈ w.pendingRequests := (hw.waiting i).mpr ⟨req, hreq, hstage⟩
    simp [WorkerState.dispose, hlive, hrequests, hpending, hreq, hwaits]

/-- The first native call throws, the second command ends the isolate before its response and takes the third with it;
a fourth request comes after the disposal. Before that the failure response is the next message, and the first completer
is the oldest. -/
theorem responses_paired_exit :
    (∃ w : WorkerState Unit, Machine.Reachable step (fun _ _ => True) {} w ∧ w.pendingRequests = [0, 1, 2] ∧
      w.inbox = [.response 0 (.failure .whois { message := "native" }), .exit] ∧
      ∃ w', w.step .deliver = some w' ∧ w'.pendingRequests = [1, 2] ∧ w'.requests[0]? =
        some ⟨.whois, .sent (some (.ok (0, .failure .whois { message := "native" })))⟩) ∧
    ∃ w : WorkerState Unit, Machine.Reachable step (fun _ _ => True) {} w ∧ w.disposed = true ∧ w.handled = [0, 1] ∧
      w.answered = [0] ∧ w.stateErrors = 0 ∧ (w.requests[1]?.map fun req => req.command.terminates) = some true ∧
      ∀ (i : Nat) (req : Request Unit), w.requests[i]? = some req → ∃ reply, req.stage = .returned reply ∨
        req.stage = .sent (some reply) ∨ req.stage = .port ∧ reply = .error () := by
  obtain ⟨w, hrun, hpending, hinbox, hfirst⟩ : ∃ w, Machine.follow step (fun _ _ => true) ({} : WorkerState Unit)
      [.request .whois, .boot true, .deliver, .turn 0, .request (.down 7 true), .turn 1, .request .status, .turn 2,
        .push, .work ⟨.error { message := "native" }, none, .ok ()⟩, .work ⟨.ok (), none, .ok ()⟩, .deliver] = some w ∧
      w.pendingRequests = [0, 1, 2] ∧ w.inbox = [.response 0 (.failure .whois { message := "native" }), .exit] ∧
      w.requests[0]? = some ⟨.whois, .sent none⟩ := ⟨_, rfl, rfl, rfl, rfl⟩
  have hreached : Machine.Reachable step (fun _ _ => True) {} w :=
    Machine.Reachable.follow (fun _ _ _ => trivial) .start hrun
  obtain ⟨w', hrun', hd, hhandled, hanswered, hends⟩ : ∃ w', Machine.follow step (fun _ _ => true) w
      [.deliver, .turn 0, .deliver, .request .peers] = some w' ∧ w'.disposed = true ∧ w'.handled = [0, 1] ∧
      w'.answered = [0] ∧ (w'.requests[1]?.map fun req => req.command.terminates) = some true := by
    cases hrun
    exact ⟨_, rfl, rfl, rfl, rfl, rfl⟩
  have hreached' := Machine.Reachable.follow (fun _ _ _ => trivial) hreached hrun'
  refine ⟨⟨w, hreached, hpending, hinbox, ?_⟩, w', hreached', hd, hhandled, hanswered, ?_, hends, fun i req hreq => ?_⟩
  · obtain ⟨-, -, hdelivers, -⟩ := responses_paired hreached
    obtain ⟨rest, req, v, hrest, hreq, -, -, hstep, hpending', hcompleted⟩ :=
      hdelivers 0 _ _ (by cases hrun; rfl) hinbox
    obtain rfl := Option.some.inj (hfirst.symm.trans hreq)
    obtain rfl : [1, 2] = rest := List.tail_eq_of_cons_eq (hpending.symm.trans hrest)
    exact ⟨v, hstep, hpending', hcompleted⟩
  · obtain ⟨-, -, -, -, herrors, -⟩ := responses_paired hreached'
    exact herrors
  · obtain ⟨-, -, -, -, -, -, hsettled⟩ := responses_paired hreached'
    obtain ⟨reply, hreply⟩ := hsettled hd i req hreq
    exact ⟨reply, hreply.imp_right And.left⟩

end WorkerState

end TailscaleDart.Worker
