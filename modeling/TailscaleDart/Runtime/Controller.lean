import Mathlib.Logic.Function.Basic
import TailscaleDart.Errors

/-!
# Runtime.Controller — the slots of the runtime controller

`runtimeController` is the single owner of the node runtimes of a process. At most one runtime is being
constructed (`candidate`), published (`current`) or torn down (`draining`); a persistent start begins with a
preparation, and a logout or a local reset keeps admission closed while it runs. Every call names the TOKEN
its supervisor made for it.

Objects live on a heap and are known by their number, so that two objects with one token stay apart. Each
function here is one critical section of `runtimes.mu`, as a function on the state; a channel that is only
ever closed is the flag that says so. Fields marked as bookkeeping are read by no function of the source.
-/

namespace TailscaleDart.Runtime

abbrev Error := GoError String

structure RuntimeConfig where
  hostname : String
  controlURL : String
  ephemeral : Bool
  deriving DecidableEq, Repr

/-- `nodeRuntime`, as far as its lifecycle goes. -/
structure NodeRuntime where
  generation : Nat := 0
  token : Nat := 0
  config : RuntimeConfig := ⟨"", "", false⟩
  -- `ctx.Err() != nil`
  cancelled : Bool := false
  preparationDone : Bool := false
  preparationErr : Option Error := none
  abandoned : Bool := false
  stateLease : Bool := false
  -- `closeOnce` has been entered, and has run with this result
  closing : Bool := false
  closed : Bool := false
  closeErr : Option Error := none
  deriving DecidableEq, Repr

inductive LifecycleOperation where
  | down
  | logout
  deriving DecidableEq, Repr

structure DrainingRuntime where
  runtime : Nat := 0
  done : Bool := false
  err : Option Error := none
  receiptOperation : Option LifecycleOperation := none
  deriving DecidableEq, Repr

structure LogoutOperation where
  token : Nat := 0
  done : Bool := false
  cleanupErr : Option Error := none
  -- bookkeeping: the runtime it was begun for
  runtime : Nat := 0
  deriving DecidableEq, Repr

/-- `localResetOperation`; what it does to the disk is another matter. -/
structure ResetOperation where
  token : Nat := 0
  ready : Bool := false
  finishing : Bool := false
  lease : Bool := false
  fs : Bool := false
  deriving DecidableEq, Repr

inductive CustodyDisposition where
  | none
  | compensateKey
  | preserveCoherentPair
  deriving DecidableEq, Repr

structure RuntimeCloseResult where
  token : Nat
  operation : Option LifecycleOperation := none
  matched : Bool := false
  started : Bool := false
  emitStopped : Bool := false
  pending : Bool := false
  noState : Bool := false
  cleanupFailed : Bool := false
  custodyHeld : Bool := false
  custodyDisposition : CustodyDisposition := .none
  deriving DecidableEq, Repr

structure LifecycleReceipt where
  result : RuntimeCloseResult
  err : Option Error
  deriving DecidableEq, Repr

structure CleanupFailure where
  token : Nat
  err : Error
  deriving DecidableEq, Repr

inductive StateLayout where
  | absent
  | encrypted
  deriving DecidableEq, Repr

inductive PreparationAction where
  | provision
  | open
  deriving DecidableEq, Repr

inductive EnvelopeWriteOutcome where
  | none
  | inFlight
  | notCommitted
  | committed
  deriving DecidableEq, Repr

/-- `persistentPreparation`. A channel is its number; `operation` is the one of the operation in flight. -/
structure PersistentPreparation where
  token : Nat := 0
  done : Bool := false
  acquisitionSettled : Bool := false
  abandoned : Bool := false
  custodyActive : Bool := false
  custodyCompleted : Bool := false
  custodyWriteAttempted : Bool := false
  layout : Option StateLayout := none
  custodyResolved : Bool := false
  custodyDEKPresent : Bool := false
  custodyResolveErr : Option Error := none
  action : Option PreparationAction := none
  storeEmpty : Bool := false
  statePrepareAttempted : Bool := false
  operation : Option Nat := none
  finishing : Bool := false
  adopted : Bool := false
  envelopeOutcome : EnvelopeWriteOutcome := .none
  writeDone : Option Nat := none
  lease : Bool := false
  dekSupplied : Bool := false
  store : Bool := false
  terminalErr : Option Error := none
  -- `custodyCleanupOnce` has been entered, and has run with this result
  custodyCleaning : Bool := false
  custodyCleanedUp : Bool := false
  custodyCleanupErr : Option Error := none
  deriving DecidableEq, Repr

structure Controller where
  candidate : Option Nat := none
  current : Option Nat := none
  draining : Option Nat := none
  logout : Option Nat := none
  reset : Option Nat := none
  persistentPreparation : Option Nat := none
  startCalls : Nat → Option Nat := fun _ => none
  abandonedTokens : Nat → Bool := fun _ => false
  completedPreparations : Nat → Option (Option Error) := fun _ => none
  completedLifecycle : Nat → Option LifecycleReceipt := fun _ => none
  cleanupFailure : Option CleanupFailure := none
  nodeEpoch : Nat := 0
  -- the heap; numbers from `next` on have never been used
  runtimes : Nat → NodeRuntime := fun _ => {}
  drains : Nat → DrainingRuntime := fun _ => {}
  logouts : Nat → LogoutOperation := fun _ => {}
  resets : Nat → ResetOperation := fun _ => {}
  preparations : Nat → PersistentPreparation := fun _ => {}
  closedChannels : Nat → Bool := fun _ => false
  next : Nat := 0

namespace Controller

def setRuntime (c : Controller) (r : Nat) (f : NodeRuntime → NodeRuntime) : Controller :=
  { c with runtimes := Function.update c.runtimes r (f (c.runtimes r)) }

def setPreparation (c : Controller) (p : Nat) (f : PersistentPreparation → PersistentPreparation) : Controller :=
  { c with preparations := Function.update c.preparations p (f (c.preparations p)) }

/-- `delete(c.abandonedTokens, token)` and `mak.Set`. -/
def setAbandoned (c : Controller) (token : Nat) (b : Bool) : Controller :=
  { c with abandonedTokens := Function.update c.abandonedTokens token b }

/-! ## Errors -/

def tokenZero : Error := .text "runtime preparation token must be non-zero"

def abandonedErr : Error := .note "%w: preparation token %d" (.sentinel .startupAbandoned)

def busy (what : String) : Error := .note ("%w: " ++ what) (.sentinel .lifecycleBusy)

def transition : Error := busy "another node lifecycle transition is in progress"

def mismatch : Error :=
  .note "%w: call down before changing hostname, control URL, or ephemeral mode" (.sentinel .configurationMismatch)

def stale (what : String) : Error := .note ("%w: " ++ what) (.sentinel .runtimeStale)

def cleanupFailureError (err : Error) : Error :=
  if err.is .runtimeCleanupFailed then err else .wrap "%w: %w" (.sentinel .runtimeCleanupFailed) err

/-- `errors.Join`, where nil errors are dropped. -/
def joinErrs : Option Error → Option Error → Option Error
  | none, second => second
  | first, none => first
  | some first, some second => some (.wrap "%w\n%w" first second)

/-! ## Cleanup failures and receipts -/

def cleanupAdmissionError (c : Controller) : Option Error :=
  c.cleanupFailure.map fun _ =>
    .note "%w: token %d left native cleanup incomplete; restart the process before further lifecycle work: %v"
      (.sentinel .runtimeCleanupFailed)

/-- `recordCleanupFailureLocked`: the first failure stays. -/
def recordCleanupFailure (token : Nat) (err : Option Error) (c : Controller) : Option Error × Controller :=
  match err.map cleanupFailureError with
  | none => (none, c)
  | some err =>
    (some err, { c with cleanupFailure := c.cleanupFailure.or (some { token := token, err := err }) })

def recordLifecycleReceipt (receipt : LifecycleReceipt) (c : Controller) : Controller :=
  if receipt.result.token = 0 then c
  else { c with completedLifecycle := Function.update c.completedLifecycle receipt.result.token (some receipt) }

def acknowledgeLifecycleResult (token : Nat) (c : Controller) : Controller :=
  { c with completedLifecycle := Function.update c.completedLifecycle token none }

/-! ## Start calls and tombstones -/

def beginStartCall (token : Nat) (c : Controller) : Except Error Nat × Controller :=
  if token = 0 then (.error tokenZero, c)
  else if (c.startCalls token).isSome then (.error (busy "start call for token %d is already active"), c)
  else (.ok c.next, { c with startCalls := Function.update c.startCalls token (some c.next), next := c.next + 1 })

def finishStartCall (token call : Nat) (c : Controller) : Controller :=
  if c.startCalls token = some call then
    { c with
      startCalls := Function.update c.startCalls token none
      abandonedTokens := Function.update c.abandonedTokens token false
      closedChannels := Function.update c.closedChannels call true }
  else c

def retireAbandonedRuntimeToken (token : Nat) (c : Controller) : Controller :=
  if token = 0 then c
  else if (c.startCalls token).isNone then c.setAbandoned token false
  else c

/-! ## Admission -/

/-- The checks that open every admission: a token, no recorded failure, no tombstone. A tombstone is consumed
by the call it stops. -/
def admission (token : Nat) (c : Controller) : Option (Error × Controller) :=
  if token = 0 then some (tokenZero, c)
  else match c.cleanupAdmissionError with
    | some err => some (err, c)
    | none => if c.abandonedTokens token then some (abandonedErr, c.setAbandoned token false) else none

/-- A new runtime in the candidate's place. -/
def newCandidate (token : Nat) (config : RuntimeConfig) (stateLease : Bool) (c : Controller) : Controller :=
  { c with
    runtimes := Function.update c.runtimes c.next
      { generation := c.nodeEpoch, token := token, config := config, stateLease := stateLease }
    candidate := some c.next
    next := c.next + 1 }

/-- What `reserve` returns: a candidate of its own, or the runtime that is active already. -/
inductive Reserved where
  | candidate (r : Nat)
  | active (r : Nat)

def reserve (token : Nat) (config : RuntimeConfig) (c : Controller) : Except Error Reserved × Controller :=
  match c.admission token with
  | some (err, c) => (.error err, c)
  | none =>
    if c.logout.isSome then (.error (busy "logout token %d is still in progress"), c)
    else if c.reset.isSome then (.error (busy "local reset token %d is still in progress"), c)
    else if c.persistentPreparation.isSome || c.candidate.isSome || c.draining.isSome then (.error transition, c)
    else match c.current with
      | some r => if (c.runtimes r).config = config then (.ok (.active r), c) else (.error mismatch, c)
      | none => (.ok (.candidate c.next), c.newCandidate token config false)

/-- The runtime an idempotent start may return. -/
def activeRuntimeForConfig (token : Nat) (config : RuntimeConfig) (c : Controller) :
    Except Error (Option Nat) × Controller :=
  match c.admission token with
  | some (err, c) => (.error err, c)
  | none =>
    if c.logout.isSome || c.reset.isSome || c.candidate.isSome || c.draining.isSome then (.error transition, c)
    else match c.persistentPreparation with
      | some p =>
        -- The start's own preparation does not compete with it.
        if (c.preparations p).token = token && c.current.isNone then (.ok none, c) else (.error transition, c)
      | none => match c.current with
        | none => (.ok none, c)
        | some r => if (c.runtimes r).config ≠ config then (.error mismatch, c) else (.ok (some r), c)

/-- Move the store and the lease of a completed preparation into a candidate. `validated` is the answer of the
lease's own check of its paths. -/
def adoptPersistentPreparation (token : Nat) (config : RuntimeConfig) (validated : Option Error) (c : Controller) :
    Except Error Nat × Controller :=
  match c.admission token with
  | some (err, c) => (.error err, c)
  | none =>
    if c.current.isSome || c.candidate.isSome || c.draining.isSome || c.logout.isSome || c.reset.isSome then
      (.error transition, c)
    else match c.persistentPreparation with
      | none => (.error (stale "prepared persistent token %d is not current"), c)
      | some p =>
        let prep := c.preparations p
        if prep.token ≠ token then (.error (busy "preparation token %d is active while token %d attempted adoption"), c)
        else if prep.abandoned then (.error abandonedErr, c)
        else if prep.finishing || prep.adopted then (.error (stale "preparation token %d is terminating"), c)
        else if prep.operation.isSome || prep.custodyActive || !prep.custodyCompleted then
          (.error (busy "persistent state custody is not complete"), c)
        else if !prep.store || !prep.lease then (.error (.text "persistent StateStore or lease was not prepared"), c)
        else match validated with
          | some err => (.error (.note "adopt persistent state lease boundary: %w" err), c)
          | none => (.ok c.next, { (c.setPreparation p fun prep => { prep with
                  store := false, lease := false, adopted := true, dekSupplied := false, done := true }).newCandidate
                    token config true with persistentPreparation := none })

/-! ## Commit and release -/

def commit (r : Nat) (c : Controller) : Option Error × Controller :=
  if (c.runtimes r).abandoned then (some abandonedErr, c)
  else if c.candidate ≠ some r || c.current.isSome || c.draining.isSome then
    (some (busy "runtime reservation is no longer current"), c)
  else (none, { c.setRuntime r fun rt => { rt with preparationDone := true } with
    candidate := none, current := some r })

/-- `release` up to the end of its critical section. -/
def release (r : Nat) (cleanupErr : Option Error) (c : Controller) : Option Error × Controller :=
  let (cleanupErr, c) := c.recordCleanupFailure (c.runtimes r).token cleanupErr
  if c.candidate = some r then
    let c := { c with candidate := none }
    (cleanupErr, if (c.runtimes r).abandoned then
      { c with completedPreparations :=
          Function.update c.completedPreparations (c.runtimes r).token (some cleanupErr) }
      else c)
  else (cleanupErr, c)

/-! ## Detaching and draining -/

/-- `detachRuntimeLocked`; the number is the new `drainingRuntime`'s. -/
def detachRuntime (r : Nat) (receiptOperation : Option LifecycleOperation) (c : Controller) : Nat × Controller :=
  (c.next, { c with
    current := none
    nodeEpoch := c.nodeEpoch + 1
    drains := Function.update c.drains c.next { runtime := r, receiptOperation := receiptOperation }
    draining := some c.next
    next := c.next + 1 })

/-- The receipt of a drain that was asked for. -/
def drainReceipt (d : Nat) (err : Option Error) (c : Controller) : Controller :=
  match (c.drains d).receiptOperation with
  | none => c
  | some op => c.recordLifecycleReceipt
      { result := { token := (c.runtimes (c.drains d).runtime).token, operation := some op, matched := true,
                    started := true, emitStopped := true, cleanupFailed := err.isSome }
        err := err }

/-- A logout of the drained runtime's token learns the result. -/
def noteLogoutCleanup (token : Nat) (err : Option Error) (c : Controller) : Controller :=
  match c.logout with
  | none => c
  | some l =>
    if (c.logouts l).token = token then
      { c with logouts := Function.update c.logouts l { c.logouts l with cleanupErr := err } }
    else c

def finishRuntimeDrain (d : Nat) (err : Option Error) (c : Controller) : Option Error × Controller :=
  if c.draining = some d then
    let token := (c.runtimes (c.drains d).runtime).token
    let (err, c) := c.recordCleanupFailure token err
    let c := { c with drains := Function.update c.drains d { c.drains d with err := err, done := true } }
    let c := (c.noteLogoutCleanup token err).drainReceipt d err
    (err, { c with draining := none })
  else (err, c)

/-- `detachRuntimeForPublicationFailure`. -/
def detachForPublicationFailure (r : Nat) (c : Controller) : Option Nat × Controller :=
  if c.current ≠ some r || (c.runtimes r).generation ≠ c.nodeEpoch then (none, c)
  else
    let (d, c) := c.detachRuntime r none
    (some d, c)

/-! ## Logout -/

def beginLogout (r : Nat) (c : Controller) : Except Error Nat × Controller :=
  if (c.runtimes r).token = 0 || c.current ≠ some r || (c.runtimes r).cancelled then
    (.error (stale "logout runtime is no longer current"), c)
  else if c.logout.isSome then (.error (busy "logout token %d is already in progress"), c)
  else (.ok c.next, { c with
    logouts := Function.update c.logouts c.next { token := (c.runtimes r).token, runtime := r }
    logout := some c.next
    next := c.next + 1 })

/-- `finishLogout`; `receipt` is what the deferred call makes of the logout's result. -/
def finishLogout (l : Nat) (receipt : LifecycleReceipt) (cleanupErr : Option Error) (c : Controller) : Controller :=
  if c.logout = some l then
    let (cleanupErr, c) := c.recordCleanupFailure (c.logouts l).token cleanupErr
    let op := { c.logouts l with cleanupErr := (c.logouts l).cleanupErr.or cleanupErr, done := true }
    let c := { c with logouts := Function.update c.logouts l op }
    { c.recordLifecycleReceipt receipt with logout := none }
  else c

/-! ## Abandonment -/

def custodyDisposition (p : Nat) (c : Controller) : CustodyDisposition :=
  if (c.preparations p).envelopeOutcome = .committed then .preserveCoherentPair
  else if (c.preparations p).custodyWriteAttempted then .compensateKey
  else .none

/-- Mark the preparation, and say whether custody is held, what to wait for, and how it would be settled now. -/
def abandonDisposition (p : Nat) (c : Controller) : (Bool × Option Nat × CustodyDisposition) × Controller :=
  let prep := c.preparations p
  let c' := c.setPreparation p fun prep => { prep with abandoned := true }
  if !prep.acquisitionSettled then ((false, none, .none), c')
  else
    let wait := match prep.operation with
      | some op => some op
      | none => if prep.envelopeOutcome = .inFlight then prep.writeDone else none
    ((prep.custodyActive, wait, c.custodyDisposition p), c')

/-- What one round of `AbandonRuntime` found. -/
inductive AbandonRound where
  | receipt (receipt : LifecycleReceipt)
  | preparation (p : Nat) (custodyHeld : Bool) (wait : Option Nat) (disposition : CustodyDisposition)
  | logout (l : Nat)
  | candidate
  | draining (d : Nat)
  | unmatched (pending : Bool)
  | detached (r d : Nat)

def abandonRound (token : Nat) (c : Controller) : AbandonRound × Controller :=
  match c.completedLifecycle token with
  | some receipt => (.receipt receipt, (c.acknowledgeLifecycleResult token).setAbandoned token false)
  | none =>
    let c := c.setAbandoned token true
    let mine (t : Nat) : Bool := t = token
    match c.persistentPreparation.filter fun p => mine (c.preparations p).token with
    | some p =>
      let ((held, wait, disposition), c) := c.abandonDisposition p
      (.preparation p held wait disposition, c)
    | none =>
    match c.logout.filter fun l => mine (c.logouts l).token with
    | some l => (.logout l, c)
    | none =>
    match c.candidate.filter fun r => mine (c.runtimes r).token with
    | some r => (.candidate, c.setRuntime r fun rt => { rt with abandoned := true, cancelled := true })
    | none =>
    match c.draining.filter fun d => mine (c.runtimes (c.drains d).runtime).token with
    | some d => (.draining d, c)
    | none =>
    match c.current.filter fun r => mine (c.runtimes r).token with
    | none => (.unmatched (c.startCalls token).isSome, c)
    | some r =>
      let (d, c) := c.detachRuntime r none
      (.detached r d, c)

/-! ## Closing -/

/-- What one round of `closeRuntime` found; the flags are those of its result. -/
inductive CloseRound where
  | logout (l : Nat)
  | candidate (r : Nat)
  | draining (d : Nat) (emitStopped : Bool)
  | unmatched
  | detached (r d : Nat)

def closeRound (token : Nat) (logoutOwner : Bool) (c : Controller) : CloseRound × Controller :=
  match c.logout.filter fun l => !logoutOwner && (c.logouts l).token = token with
  | some l => (.logout l, c)
  | none =>
  match c.candidate with
  | some r => if (c.runtimes r).token ≠ token then (.unmatched, c) else (.candidate r, c)
  | none =>
  match c.draining with
  | some d =>
    if (c.runtimes (c.drains d).runtime).token ≠ token then (.unmatched, c)
    else (.draining d ((c.drains d).receiptOperation = some .down), c)
  | none =>
  match c.current with
  | none => (.unmatched, c)
  | some r =>
    if (c.runtimes r).token ≠ token then (.unmatched, c)
    else
      let (d, c) := c.detachRuntime r (if logoutOwner then none else some .down)
      (.detached r d, c)

/-- One round of `closeCurrentRuntime`. -/
def closeCurrentRound (c : Controller) : CloseRound × Controller :=
  match c.logout with
  | some l => (.logout l, c)
  | none =>
  match c.candidate with
  | some r => (.candidate r, c)
  | none =>
  match c.draining with
  | some d => (.draining d false, c)
  | none =>
  match c.current with
  | none => (.unmatched, c)
  | some r =>
    let (d, c) := c.detachRuntime r none
    (.detached r d, c)

/-! ## Waiting for quiescence -/

/-- What one round of `AwaitRuntimeQuiescence` found. -/
inductive AwaitRound where
  | preparation (p : Nat)
  | logout (l : Nat)
  | completed (err : Option Error)
  | candidate (r : Nat)
  | draining (d : Nat)
  | startCall (call : Nat)
  | quiet

/-- The tombstone and the outcome of a token are consumed. -/
def forgetPreparation (token : Nat) (c : Controller) : Controller :=
  { c.setAbandoned token false with
    completedPreparations := Function.update c.completedPreparations token none }

def awaitRound (token : Nat) (c : Controller) : AwaitRound × Controller :=
  match c.persistentPreparation.filter fun p => (c.preparations p).token = token with
  | some p => (.preparation p, c)
  | none =>
  match c.logout.filter fun l => (c.logouts l).token = token with
  | some l => (.logout l, c)
  | none =>
  match c.completedPreparations token with
  | some err => (.completed err, c.forgetPreparation token)
  | none =>
  match c.candidate.filter fun r => (c.runtimes r).token = token with
  | some r => (.candidate r, c)
  | none =>
  match c.draining.filter fun d => (c.runtimes (c.drains d).runtime).token = token with
  | some d => (.draining d, c)
  | none =>
  match c.startCalls token with
  | some call => (.startCall call, c)
  | none => (.quiet, c)

end Controller

end TailscaleDart.Runtime
