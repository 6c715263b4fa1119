import TailscaleDart.Conc.Machine
import TailscaleDart.Data.Held

/-!
# Http.Binding — inbound requests between the handlers and HttpAccept

One `httpBindingState` with everything that runs on it: the handlers `net/http` has started
(`serveHTTPFdRequest`), the calls of `HttpAccept`, the calls of `httpBindingState.close` (the Serve goroutine's own,
when `http.Serve` returns, and at most one through the registry, from `HttpCloseBinding` or from the teardown of the
runtime). Each step is what one goroutine does between two points where another may run; a select is one step, and
which of its ready cases it takes is free.

A descriptor is named by the order of its creation, so that a number the system uses again is another descriptor.
`Conserved` says where every descriptor is. What it does not give is that the channel ends up empty: a handler may
enqueue after the last drain (`enqueue_after_drains`), because its select may take the send although `done` is closed.
-/

namespace TailscaleDart.Http.Binding

open Conc Data

/-! ## The binding -/

def httpAcceptBacklog : Nat := 128

/-- A request on its way to Dart: the Dart ends of its two socket pairs. -/
structure HttpIncomingRequest where
  requestBodyFD : Nat
  responseBodyFD : Nat
  deriving DecidableEq, Repr

def HttpIncomingRequest.fds (r : HttpIncomingRequest) : List Nat := [r.requestBodyFD, r.responseBodyFD]

/-- Where a run of `serveHTTPFdRequest` stands. -/
inductive Handler where
  | started
  | requestPair (requestDartFD : Nat)
  | lookup (incoming : HttpIncomingRequest)
  | selecting (incoming : HttpIncomingRequest)
  -- the request is on the channel; what is left only copies between the Go ends
  | responding
  | returned
  deriving DecidableEq, Repr

/-- The Dart ends a handler still has to hand over or close. -/
def Handler.fds : Handler → List Nat
  | started => []
  | requestPair requestDartFD => [requestDartFD]
  | lookup incoming => incoming.fds
  | selecting incoming => incoming.fds
  | responding => []
  | returned => []

/-- Where a call of `httpBindingState.close` stands. -/
inductive Closer where
  -- the Serve goroutine, before `http.Serve` returns
  | serving
  | atOnce
  | insideOnce
  | draining
  | holding (request : HttpIncomingRequest)
  | holdingResponse (request : HttpIncomingRequest)
  | finished
  deriving DecidableEq, Repr

def Closer.fds : Closer → List Nat
  | holding request => request.fds
  | holdingResponse request => [request.responseBodyFD]
  | _ => []

def Closer.requests : Closer → List HttpIncomingRequest
  | holding request => [request]
  | holdingResponse request => [request]
  | _ => []

/-- What a drain has closed of the request it holds. -/
def Closer.released : Closer → List Nat
  | holdingResponse request => [request.requestBodyFD]
  | _ => []

/-- The `sync.Once`, whose function first closes `done`. -/
inductive Once where
  | fresh
  | running
  | complete
  deriving DecidableEq, Repr

structure HttpBindingState where
  /-- In the registry of the current runtime. -/
  registered : Bool := true
  requests : List HttpIncomingRequest := []
  once : Once := .fresh
  handlers : List Handler := []
  /-- The Serve goroutine is the first. -/
  closers : List Closer := [.serving]
  /-- Calls of `HttpAccept` that have found the binding. -/
  accepting : Nat := 0
  nextFD : Nat := 0
  -- what has happened
  enqueued : List HttpIncomingRequest := []
  accepted : List HttpIncomingRequest := []
  drained : List HttpIncomingRequest := []
  closedByHandlers : List Nat := []
  closedByDrains : List Nat := []
  deriving DecidableEq, Repr

namespace HttpBindingState

variable (s : HttpBindingState)

/-- `done` is closed. -/
def done : Bool := s.once ≠ .fresh

/-! ## Handlers -/

/-- The ready cases of the select in `serveHTTPFdRequest`; the context may be done at any time. -/
inductive SelectCase where
  | enqueue
  | default
  | done
  | context
  deriving DecidableEq, Repr

/-- A socket pair is made, or not. -/
def newSocketPairConn (h : Nat) (ok : Bool) : Option HttpBindingState :=
  match s.handlers[h]? with
  | some .started =>
    if ok then
      some { s with handlers := s.handlers.set h (.requestPair s.nextFD), nextFD := s.nextFD + 1 }
    else some { s with handlers := s.handlers.set h .returned }
  | some (.requestPair requestDartFD) =>
    if ok then
      some { s with
        handlers := s.handlers.set h (.lookup ⟨requestDartFD, s.nextFD⟩), nextFD := s.nextFD + 1 }
    else
      some { s with
        handlers := s.handlers.set h .returned, closedByHandlers := s.closedByHandlers ++ [requestDartFD] }
  | _ => none

/-- `lookupNodeIdentity` returns, with whatever it found. -/
def lookupNodeIdentity (h : Nat) : Option HttpBindingState :=
  match s.handlers[h]? with
  | some (.lookup incoming) => some { s with handlers := s.handlers.set h (.selecting incoming) }
  | _ => none

/-- The handler closes all four ends and answers an error. -/
def reject (h : Nat) (incoming : HttpIncomingRequest) : HttpBindingState :=
  { s with
    handlers := s.handlers.set h .returned, closedByHandlers := s.closedByHandlers ++ incoming.fds }

/-- The select of `serveHTTPFdRequest`. -/
def select (h : Nat) (chosen : SelectCase) : Option HttpBindingState :=
  match s.handlers[h]? with
  | some (.selecting incoming) =>
    match chosen with
    | .enqueue =>
      if s.requests.length < httpAcceptBacklog then
        some { s with
          handlers := s.handlers.set h .responding
          requests := s.requests ++ [incoming]
          enqueued := s.enqueued ++ [incoming] }
      else none
    -- only when no other case is ready
    | .default =>
      if s.requests.length < httpAcceptBacklog ∨ s.done then none else some (s.reject h incoming)
    | .done => if s.done then some (s.reject h incoming) else none
    | .context => some (s.reject h incoming)
  | _ => none

/-! ## HttpAccept -/

/-- `HttpAccept` looks for its binding; one that is gone is closed for it. -/
def httpAccept : HttpBindingState :=
  if s.registered then { s with accepting := s.accepting + 1 } else s

/-- Its select receives a request. -/
def receive : Option HttpBindingState :=
  match s.accepting, s.requests with
  | accepting + 1, request :: rest =>
    some { s with accepting := accepting, requests := rest, accepted := s.accepted ++ [request] }
  | _, _ => none

/-- Its select sees that the binding is closed. -/
def receiveDone : Option HttpBindingState :=
  match s.accepting with
  | accepting + 1 => if s.done then some { s with accepting := accepting } else none
  | 0 => none

/-! ## Closing -/

/-- `HttpCloseBinding`, or the teardown of the runtime: whoever takes the binding from the registry closes it. -/
def httpCloseBinding : HttpBindingState :=
  if s.registered then { s with registered := false, closers := s.closers ++ [.atOnce] } else s

/-- `http.Serve` returns. -/
def serveReturns : Option HttpBindingState :=
  match s.closers.head? with
  | some .serving => some { s with closers := s.closers.set 0 .atOnce }
  | _ => none

/-- The Serve goroutine's `removeMatching`, after its `close`. -/
def removeMatching : Option HttpBindingState :=
  match s.closers.head? with
  | some .finished => some { s with registered := false }
  | _ => none

/-- The next step of a call of `httpBindingState.close`. -/
def close (i : Nat) : Option HttpBindingState :=
  match s.closers[i]? with
  | some .atOnce =>
    match s.once with
    | .fresh => some { s with once := .running, closers := s.closers.set i .insideOnce }
    -- `Do` returns only once the first call's function has
    | .running => none
    | .complete => some { s with closers := s.closers.set i .draining }
  -- the server and the listener are closed; running handlers are not waited for
  | some .insideOnce => some { s with once := .complete, closers := s.closers.set i .draining }
  | some .draining =>
    match s.requests with
    | [] => some { s with closers := s.closers.set i .finished }
    | request :: rest => some { s with requests := rest, closers := s.closers.set i (.holding request) }
  | some (.holding request) =>
    some { s with
      closers := s.closers.set i (.holdingResponse request)
      closedByDrains := s.closedByDrains ++ [request.requestBodyFD] }
  | some (.holdingResponse request) =>
    some { s with
      closers := s.closers.set i .draining
      closedByDrains := s.closedByDrains ++ [request.responseBodyFD]
      drained := s.drained ++ [request] }
  | _ => none

end HttpBindingState

open HttpBindingState (SelectCase)

/-! ## Runs -/

inductive Action where
  /-- `net/http` starts a handler. -/
  | serve
  | newSocketPairConn (h : Nat) (ok : Bool)
  | lookupNodeIdentity (h : Nat)
  | select (h : Nat) (chosen : SelectCase)
  | httpAccept
  | receive
  | receiveDone
  | httpCloseBinding
  | serveReturns
  | close (i : Nat)
  | removeMatching
  deriving DecidableEq, Repr

def HttpBindingState.step (s : HttpBindingState) : Action → Option HttpBindingState
  | .serve => some { s with handlers := s.handlers ++ [.started] }
  | .newSocketPairConn h ok => s.newSocketPairConn h ok
  | .lookupNodeIdentity h => s.lookupNodeIdentity h
  | .select h chosen => s.select h chosen
  | .httpAccept => some s.httpAccept
  | .receive => s.receive
  | .receiveDone => s.receiveDone
  | .httpCloseBinding => some s.httpCloseBinding
  | .serveReturns => s.serveReturns
  | .close i => s.close i
  | .removeMatching => s.removeMatching

/-- The states of the runs whose steps all meet `ok` in the state before them. -/
abbrev Reachable (ok : Action → HttpBindingState → Prop) : HttpBindingState → Prop :=
  Machine.Reachable HttpBindingState.step ok {}

/-! ## What a step can do -/

/-- The closer holds nothing. -/
def Closer.Idle (c : Closer) : Prop := c.fds = [] ∧ c.requests = [] ∧ c.released = []

/-- What an action does to the descriptors, the channel and the closers. -/
inductive Move (s : HttpBindingState) (a : Action) : HttpBindingState → Prop
  /-- Nothing. -/
  | stays (registered : Bool) (accepting : Nat) : Move s a { s with registered := registered, accepting := accepting }
  | serves : Move s a { s with handlers := s.handlers ++ [.started] }
  | passes {h : Nat} {x y : Handler} (hh : s.handlers[h]? = some x) (hfds : y.fds = x.fds) :
      Move s a { s with handlers := s.handlers.set h y }
  | makes {h : Nat} {x y : Handler} (hh : s.handlers[h]? = some x) (hfds : y.fds = x.fds ++ [s.nextFD]) :
      Move s a { s with handlers := s.handlers.set h y, nextFD := s.nextFD + 1 }
  | rejects {h : Nat} {x : Handler} (hh : s.handlers[h]? = some x) : Move s a { s with
      handlers := s.handlers.set h .returned, closedByHandlers := s.closedByHandlers ++ x.fds }
  | enqueues {h : Nat} {incoming : HttpIncomingRequest} (ha : a = .select h .enqueue)
      (hh : s.handlers[h]? = some (.selecting incoming)) : Move s a { s with
        handlers := s.handlers.set h .responding
        requests := s.requests ++ [incoming]
        enqueued := s.enqueued ++ [incoming] }
  | receives {request : HttpIncomingRequest} {rest : List HttpIncomingRequest} (accepting : Nat)
      (hrequests : s.requests = request :: rest) :
      Move s a { s with accepting := accepting, requests := rest, accepted := s.accepted ++ [request] }
  | closes : Move s a { s with registered := false, closers := s.closers ++ [.atOnce] }
  /-- A closer goes on with nothing in its hands; it ends its drain on an empty channel. -/
  | goesOn {i : Nat} {x y : Closer} (once : Once) (hi : s.closers[i]? = some x) (hx : x.Idle) (hy : y.Idle)
      (hend : y = .finished → s.requests = []) : Move s a { s with once := once, closers := s.closers.set i y }
  | takes {i : Nat} {request : HttpIncomingRequest} {rest : List HttpIncomingRequest}
      (hi : s.closers[i]? = some .draining) (hrequests : s.requests = request :: rest) :
      Move s a { s with requests := rest, closers := s.closers.set i (.holding request) }
  | closesRequest {i : Nat} {request : HttpIncomingRequest} (hi : s.closers[i]? = some (.holding request)) :
      Move s a { s with
        closers := s.closers.set i (.holdingResponse request)
        closedByDrains := s.closedByDrains ++ [request.requestBodyFD] }
  | closesResponse {i : Nat} {request : HttpIncomingRequest} (hi : s.closers[i]? = some (.holdingResponse request)) :
      Move s a { s with
        closers := s.closers.set i .draining
        closedByDrains := s.closedByDrains ++ [request.responseBodyFD]
        drained := s.drained ++ [request] }

section Steps

variable {s s' : HttpBindingState} {a : Action} {h : Nat}

theorem move_newSocketPairConn {ok : Bool} (hstep : s.newSocketPairConn h ok = some s') : Move s a s' := by
  unfold HttpBindingState.newSocketPairConn at hstep
  split at hstep
  case h_1 hh =>
    split at hstep
    case isTrue =>
      cases hstep
      exact .makes hh rfl
    case isFalse =>
      cases hstep
      exact .passes hh rfl
  case h_2 hh =>
    split at hstep
    case isTrue =>
      cases hstep
      exact .makes hh rfl
    case isFalse =>
      cases hstep
      exact .rejects hh
  case h_3 => cases hstep

theorem move_select {chosen : SelectCase} (hstep : s.select h chosen = some s') : Move s (.select h chosen) s' := by
  unfold HttpBindingState.select at hstep
  split at hstep
  case h_1 incoming hh =>
    cases chosen with
    | enqueue =>
      obtain ⟨-, heq⟩ := Option.ite_none_right_eq_some.mp hstep
      cases heq
      exact .enqueues rfl hh
    | default =>
      obtain ⟨-, heq⟩ := Option.ite_none_left_eq_some.mp hstep
      cases heq
      exact .rejects hh
    | done =>
      obtain ⟨-, heq⟩ := Option.ite_none_right_eq_some.mp hstep
      cases heq
      exact .rejects hh
    | context =>
      cases hstep
      exact .rejects hh
  case h_2 => cases hstep

theorem move_close {i : Nat} (hstep : s.close i = some s') : Move s a s' := by
  unfold HttpBindingState.close at hstep
  split at hstep
  case h_1 hi =>
    split at hstep
    case h_1 =>
      cases hstep
      exact .goesOn _ hi ⟨rfl, rfl, rfl⟩ ⟨rfl, rfl, rfl⟩ nofun
    case h_2 => cases hstep
    case h_3 =>
      cases hstep
      exact .goesOn s.once hi ⟨rfl, rfl, rfl⟩ ⟨rfl, rfl, rfl⟩ nofun
  case h_2 hi =>
    cases hstep
    exact .goesOn _ hi ⟨rfl, rfl, rfl⟩ ⟨rfl, rfl, rfl⟩ nofun
  case h_3 hi =>
    split at hstep
    case h_1 hrequests =>
      cases hstep
      exact .goesOn s.once hi ⟨rfl, rfl, rfl⟩ ⟨rfl, rfl, rfl⟩ fun _ => hrequests
    case h_2 hrequests =>
      cases hstep
      exact .takes hi hrequests
  case h_4 hi =>
    cases hstep
    exact .closesRequest hi
  case h_5 hi =>
    cases hstep
    exact .closesResponse hi
  case h_6 => cases hstep

theorem move_of_step (hstep : s.step a = some s') : Move s a s' := by
  cases a with
  | serve =>
    cases hstep
    exact .serves
  | newSocketPairConn h ok => exact move_newSocketPairConn hstep
  | lookupNodeIdentity h =>
    simp only [HttpBindingState.step, HttpBindingState.lookupNodeIdentity] at hstep
    split at hstep
    case h_1 hh =>
      cases hstep
      exact .passes hh rfl
    case h_2 => cases hstep
  | select h chosen => exact move_select hstep
  | httpAccept =>
    cases hstep
    unfold HttpBindingState.httpAccept
    split
    · exact .stays s.registered _
    · exact .stays s.registered s.accepting
  | receive =>
    simp only [HttpBindingState.step, HttpBindingState.receive] at hstep
    split at hstep
    case h_1 hrequests =>
      cases hstep
      exact .receives _ hrequests
    case h_2 => cases hstep
  | receiveDone =>
    simp only [HttpBindingState.step, HttpBindingState.receiveDone] at hstep
    split at hstep
    case h_1 =>
      obtain ⟨-, heq⟩ := Option.ite_none_right_eq_some.mp hstep
      cases heq
      exact .stays s.registered _
    case h_2 => cases hstep
  | httpCloseBinding =>
    cases hstep
    unfold HttpBindingState.httpCloseBinding
    split
    · exact .closes
    · exact .stays s.registered s.accepting
  | serveReturns =>
    simp only [HttpBindingState.step, HttpBindingState.serveReturns] at hstep
    split at hstep
    case h_1 hserving =>
      cases hstep
      rw [List.head?_eq_getElem?] at hserving
      exact .goesOn s.once hserving ⟨rfl, rfl, rfl⟩ ⟨rfl, rfl, rfl⟩ nofun
    case h_2 => cases hstep
  | close i => exact move_close hstep
  | removeMatching =>
    simp only [HttpBindingState.step, HttpBindingState.removeMatching] at hstep
    split at hstep
    case h_1 =>
      cases hstep
      exact .stays _ s.accepting
    case h_2 => cases hstep

/-! ## Where every descriptor is -/

/-- Every descriptor is in one place; every request that was put on the channel is on it, held by a drain, accepted
or drained; a drain has closed what it released. -/
structure Conserved (s : HttpBindingState) : Prop where
  fds : ∀ fd, held Handler.fds s.handlers fd + held HttpIncomingRequest.fds s.requests fd +
    held Closer.fds s.closers fd + held HttpIncomingRequest.fds s.accepted fd + s.closedByHandlers.count fd +
    s.closedByDrains.count fd = created s.nextFD fd
  requests : ∀ r, s.enqueued.count r = s.requests.count r + held Closer.requests s.closers r + s.accepted.count r +
    s.drained.count r
  drains : ∀ fd, s.closedByDrains.count fd = held HttpIncomingRequest.fds s.drained fd +
    held Closer.released s.closers fd

theorem count_fds (r : HttpIncomingRequest) (fd : Nat) :
    r.fds.count fd = [r.requestBodyFD].count fd + [r.responseBodyFD].count fd := by
  rw [HttpIncomingRequest.fds, ← List.count_append]
  rfl

/-- A handler moves, and the rest of the equation balances what it gave up. -/
theorem Conserved.handler (hs : Conserved s) {x : Handler} (hh : s.handlers[h]? = some x) (y : Handler) (fd : Nat) :
    held Handler.fds (s.handlers.set h y) fd + x.fds.count fd + held HttpIncomingRequest.fds s.requests fd +
      held Closer.fds s.closers fd + held HttpIncomingRequest.fds s.accepted fd + s.closedByHandlers.count fd +
      s.closedByDrains.count fd = created s.nextFD fd + y.fds.count fd := by
  have hset := held_set (f := Handler.fds) hh y fd
  have hfds := hs.fds fd
  omega

/-- A closer moves: what it gave up and took is all that changes of the three counts. -/
theorem Conserved.closer (hs : Conserved s) {i : Nat} {x y : Closer} (hi : s.closers[i]? = some x)
    (hfds : ∀ fd, held HttpIncomingRequest.fds s'.requests fd + y.fds.count fd + s'.closedByDrains.count fd =
      held HttpIncomingRequest.fds s.requests fd + x.fds.count fd + s.closedByDrains.count fd)
    (hrequests : ∀ r, s'.requests.count r + y.requests.count r + s'.drained.count r =
      s.requests.count r + x.requests.count r + s.drained.count r)
    (hdrains : ∀ fd, s'.closedByDrains.count fd + held HttpIncomingRequest.fds s.drained fd + x.released.count fd =
      s.closedByDrains.count fd + held HttpIncomingRequest.fds s'.drained fd + y.released.count fd)
    (hclosers : s'.closers = s.closers.set i y)
    (hsame : (s'.handlers, s'.accepted, s'.closedByHandlers, s'.nextFD, s'.enqueued) =
      (s.handlers, s.accepted, s.closedByHandlers, s.nextFD, s.enqueued)) : Conserved s' := by
  simp only [Prod.mk.injEq] at hsame
  obtain ⟨hhandlers, haccepted, hclosed, hnext, henqueued⟩ := hsame
  constructor
  · intro fd
    have hset := held_set (f := Closer.fds) hi y fd
    have hbefore := hs.fds fd
    have hbalance := hfds fd
    rw [hhandlers, haccepted, hclosed, hnext, hclosers]
    omega
  · intro r
    have hset := held_set (f := Closer.requests) hi y r
    have hbefore := hs.requests r
    have hbalance := hrequests r
    rw [henqueued, haccepted, hclosers]
    omega
  · intro fd
    have hset := held_set (f := Closer.released) hi y fd
    have hbefore := hs.drains fd
    have hbalance := hdrains fd
    rw [hclosers]
    omega

theorem Conserved.move (hs : Conserved s) (hmove : Move s a s') : Conserved s' := by
  cases hmove with
  | stays => exact { hs with }
  | serves => exact { hs with fds := fun fd => by simpa [Handler.fds] using hs.fds fd }
  | @passes _ _ y hh hsame =>
    refine { hs with fds := fun fd => ?_ }
    have hbalance := hs.handler hh y fd
    rw [hsame] at hbalance
    dsimp only
    omega
  | @makes _ _ y hh hmade =>
    refine { hs with fds := fun fd => ?_ }
    have hbalance := hs.handler hh y fd
    rw [hmade, List.count_append] at hbalance
    simp only [created_succ]
    omega
  | rejects hh =>
    refine { hs with fds := fun fd => ?_ }
    have hbalance := hs.handler hh .returned fd
    simp only [Handler.fds, List.count_nil, List.count_append] at hbalance ⊢
    omega
  | enqueues _ hh =>
    refine { hs with fds := fun fd => ?_, requests := fun r => ?_ }
    · have hbalance := hs.handler hh .responding fd
      simp only [Handler.fds, List.count_nil, held_append, held_cons, held_nil] at hbalance ⊢
      omega
    · have hrequests := hs.requests r
      simp only [List.count_append]
      omega
  | receives _ hrequests =>
    refine { hs with fds := fun fd => ?_, requests := fun r => ?_ }
    · have hfds := hs.fds fd
      simp only [hrequests, held_append, held_cons, held_nil] at hfds ⊢
      omega
    · have hr := hs.requests r
      simp only [hrequests, List.count_append, List.count_cons, List.count_nil] at hr ⊢
      omega
  | closes =>
    refine ⟨fun fd => ?_, fun r => ?_, fun fd => ?_⟩
    · simpa [Closer.fds] using hs.fds fd
    · simpa [Closer.requests] using hs.requests r
    · simpa [Closer.released] using hs.drains fd
  | goesOn _ hi hx hy =>
    refine hs.closer hi (fun fd => ?_) (fun r => ?_) (fun fd => ?_) rfl rfl
    all_goals simp only [hx.1, hx.2.1, hx.2.2, hy.1, hy.2.1, hy.2.2]
  | takes hi hrequests =>
    refine hs.closer hi (fun fd => ?_) (fun r => ?_) (fun fd => ?_) rfl rfl
    all_goals
      simp only [hrequests, Closer.fds, Closer.requests, Closer.released, held_cons, List.count_cons, List.count_nil]
      try omega
  | closesRequest hi =>
    refine hs.closer hi (fun fd => ?_) (fun r => ?_) (fun fd => ?_) rfl rfl
    all_goals
      simp only [Closer.fds, Closer.requests, Closer.released, count_fds, List.count_append, List.count_nil]
      try omega
  | closesResponse hi =>
    refine hs.closer hi (fun fd => ?_) (fun r => ?_) (fun fd => ?_) rfl rfl
    all_goals
      simp only [Closer.fds, Closer.requests, Closer.released, count_fds, List.count_append, List.count_nil,
        held_append, held_cons, held_nil]
      omega

/-! ## The channel after the last drain -/

/-- Some call of `close` has not returned; the Serve goroutine's counts from the start. -/
def Unfinished (s : HttpBindingState) : Prop := ∃ c ∈ s.closers, c ≠ .finished

instance (s : HttpBindingState) : Decidable (Unfinished s) := inferInstanceAs (Decidable (∃ c ∈ s.closers, _))

/-- Once every drain is over, nothing is left on the channel. -/
def Emptied (s : HttpBindingState) : Prop := Unfinished s ∨ s.requests = []

/-- A handler enqueues only while some drain is still to come. -/
def BeforeLastDrain (a : Action) (s : HttpBindingState) : Prop := ∀ h, a = .select h .enqueue → Unfinished s

theorem unfinished_set {i : Nat} {x y : Closer} (hi : s.closers[i]? = some x) (hy : y ≠ .finished)
    (hclosers : s'.closers = s.closers.set i y) : Unfinished s' := by
  refine ⟨y, ?_, hy⟩
  rw [hclosers]
  exact List.mem_set (List.getElem?_eq_some_iff.mp hi).1 y

theorem Emptied.move (hs : Emptied s) (hok : BeforeLastDrain a s) (hmove : Move s a s') : Emptied s' := by
  cases hmove with
  | stays | serves | passes | makes | rejects => exact hs
  | enqueues ha => exact .inl (hok _ ha)
  | receives _ hrequests => exact .inl (hs.resolve_right (by simp [hrequests]))
  | closes => exact .inl ⟨.atOnce, by simp, by decide⟩
  | @goesOn _ _ y _ hi _ _ hend =>
    -- the default case of the drain is taken only on an empty channel
    by_cases hy : y = .finished
    · exact .inr (hend hy)
    · exact .inl (unfinished_set hi hy rfl)
  | takes hi | closesRequest hi | closesResponse hi => exact .inl (unfinished_set hi (by simp) rfl)

end Steps

/-! ## Every run -/

variable {ok : Action → HttpBindingState → Prop} {s : HttpBindingState}

theorem Reachable.conserved (h : Reachable ok s) : Conserved s := by
  refine h.invariant ⟨fun fd => ?_, fun r => ?_, fun fd => ?_⟩ fun _ _ _ hs _ hstep => hs.move (move_of_step hstep)
  · simp [Closer.fds, created]
  · simp [Closer.requests]
  · simp [Closer.released]

theorem Reachable.emptied (h : Reachable BeforeLastDrain s) : Emptied s :=
  h.invariant (.inr rfl) fun _ _ _ hs hok hstep => hs.move hok (move_of_step hstep)

/-- A handler up to its select. -/
def arrive (h : Nat) : List Action :=
  [.serve, .newSocketPairConn h true, .newSocketPairConn h true, .lookupNodeIdentity h]

/-- Both closes of a binding, with nothing on the channel. -/
def closeBoth : List Action :=
  [.httpCloseBinding, .close 1, .close 1, .close 1, .serveReturns, .close 0, .close 0, .removeMatching]

instance (a : Action) (s : HttpBindingState) : Decidable (BeforeLastDrain a s) :=
  match a with
  | .select h .enqueue => decidable_of_iff (Unfinished s) ⟨fun hs _ _ => hs, fun hs => hs h rfl⟩
  | .select _ .default => isTrue fun _ h => by cases h
  | .select _ .done => isTrue fun _ h => by cases h
  | .select _ .context => isTrue fun _ h => by cases h
  | .serve | .newSocketPairConn _ _ | .lookupNodeIdentity _ | .httpAccept | .receive | .receiveDone
  | .httpCloseBinding | .serveReturns | .close _ | .removeMatching => isTrue fun _ h => by cases h

/-- Two requests, one accepted and one still on the channel when the binding is closed. -/
def oneOfEach : List Action :=
  arrive 0 ++ arrive 1 ++ [.select 0 .enqueue, .select 1 .enqueue, .httpAccept, .receive, .httpCloseBinding, .close 1,
    .close 1, .close 1, .close 1, .close 1, .close 1, .serveReturns, .close 0, .close 0]

/-! ## The result -/

/-- **Every request is accepted or drained, once.** In the runs in which a handler enqueues only while some drain is
still to come: when the Serve goroutine and every other closer are through, each request that was put on the channel
was either returned by exactly one `HttpAccept` and never closed on this side, or returned by none and both of its
descriptors closed exactly once, by a drain. -/
theorem requests_settled_once (h : Reachable BeforeLastDrain s) (hthrough : ∀ c ∈ s.closers, c = .finished) :
    ∀ r ∈ s.enqueued,
      (s.accepted.count r = 1 ∧ ∀ fd ∈ r.fds, s.closedByDrains.count fd = 0 ∧ s.closedByHandlers.count fd = 0) ∨
      (s.accepted.count r = 0 ∧ ∀ fd ∈ r.fds, s.closedByDrains.count fd = 1 ∧ s.closedByHandlers.count fd = 0) := by
  have hempty : s.requests = [] := by
    rcases h.emptied with ⟨c, hc, hne⟩ | hempty
    · exact absurd (hthrough c hc) hne
    · exact hempty
  have hconserved := h.conserved
  intro r hr
  have hcount : s.enqueued.count r = s.accepted.count r + s.drained.count r := by
    rw [hconserved.requests r, hempty, held_eq_zero fun c hc => by rw [hthrough c hc]; rfl]
    simp
  have hpos : 0 < s.enqueued.count r := List.count_pos_iff.mpr hr
  -- what one descriptor of the request says about the places the request can be in
  have hplace : ∀ fd ∈ r.fds, s.accepted.count r + s.drained.count r ≤ 1 ∧
      s.drained.count r ≤ s.closedByDrains.count fd ∧
      s.accepted.count r + s.closedByDrains.count fd + s.closedByHandlers.count fd ≤ 1 := by
    intro fd hfd
    have hfds := hconserved.fds fd
    have hdrains := hconserved.drains fd
    have hlimit := created_le s.nextFD fd
    have haccepted : s.accepted.count r ≤ held HttpIncomingRequest.fds s.accepted fd := count_le_held hfd
    have hdrained : s.drained.count r ≤ held HttpIncomingRequest.fds s.drained fd := count_le_held hfd
    omega
  have hone := (hplace r.requestBodyFD (by simp [HttpIncomingRequest.fds])).1
  by_cases haccepted : s.accepted.count r = 1
  · refine .inl ⟨haccepted, fun fd hfd => ?_⟩
    have hfd := hplace fd hfd
    omega
  · refine .inr ⟨by omega, fun fd hfd => ?_⟩
    have hfd := hplace fd hfd
    omega

theorem requests_settled_once_one_of_each :
    ∃ s, Reachable BeforeLastDrain s ∧ (∀ c ∈ s.closers, c = .finished) ∧ s.enqueued = [⟨0, 1⟩, ⟨2, 3⟩] ∧
      s.accepted = [⟨0, 1⟩] ∧ ∀ r ∈ s.enqueued,
        (s.accepted.count r = 1 ∧ ∀ fd ∈ r.fds, s.closedByDrains.count fd = 0 ∧ s.closedByHandlers.count fd = 0) ∨
        (s.accepted.count r = 0 ∧ ∀ fd ∈ r.fds, s.closedByDrains.count fd = 1 ∧ s.closedByHandlers.count fd = 0) := by
  have hrun : (Machine.follow HttpBindingState.step (fun a s => decide (BeforeLastDrain a s))
      {} oneOfEach).isSome := by decide
  obtain ⟨s, hs⟩ := Option.isSome_iff_exists.mp hrun
  have hreach : Reachable BeforeLastDrain s := Machine.Reachable.follow (fun _ _ => of_decide_eq_true) .start hs
  have hfacts : (∀ c ∈ s.closers, c = .finished) ∧ s.enqueued = [⟨0, 1⟩, ⟨2, 3⟩] ∧ s.accepted = [⟨0, 1⟩] := by
    cases hs
    decide
  exact ⟨s, hreach, hfacts.1, hfacts.2.1, hfacts.2.2, requests_settled_once hreach hfacts.1⟩

/-- A handler that was still in its identity lookup while both drains ran may enqueue after them: every closer is
through, the binding is out of the registry, and its request is left on the channel for good, with neither of its
descriptors closed. -/
theorem enqueue_after_drains : ∃ s r, Reachable (fun _ _ => True) s ∧ (∀ c ∈ s.closers, c = .finished) ∧
    s.registered = false ∧ s.accepting = 0 ∧ s.handlers = [.responding] ∧ s.requests = [r] ∧ r ∈ s.enqueued ∧
    s.accepted.count r = 0 ∧ ∀ fd ∈ r.fds, s.closedByDrains.count fd = 0 := by
  have hrun : (Machine.follow HttpBindingState.step (fun _ _ => true) {}
      (arrive 0 ++ closeBoth ++ [.select 0 .enqueue])).isSome := by decide
  obtain ⟨s, hs⟩ := Option.isSome_iff_exists.mp hrun
  refine ⟨s, ⟨0, 1⟩, Machine.Reachable.follow (fun _ _ _ => trivial) .start hs, ?_⟩
  cases hs
  decide

end TailscaleDart.Http.Binding
