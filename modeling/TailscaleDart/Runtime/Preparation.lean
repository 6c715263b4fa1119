import TailscaleDart.Conc.Pool
import TailscaleDart.Runtime.Controller

/-!
# Runtime.Preparation — the calls of a persistent preparation

A persistent start is prepared in phases, each a call of its own: the root is leased, its layout inspected, the
presence of the key resolved against it, the key supplied, the store opened or created, custody completed. The
record of a preparation is guarded by its `phaseMu`; the functions on `PersistentPreparation` here are the
critical sections of that lock, and the calls below them are the programs made of these.

Tokens are looked up under the controller's lock first (`persistentPreparationForToken`), so between the lookup
and the section another call may change the record.
-/

namespace TailscaleDart.Runtime

open Conc

namespace PersistentPreparation

variable (p : PersistentPreparation)

/-- `requireLiveLocked`: abandoned wins over terminating. -/
def requireLive : Option Error :=
  if p.abandoned then some Controller.abandonedErr
  else if p.finishing || p.adopted then some (Controller.stale "preparation token %d is terminating")
  else none

/-- A section that refuses a record which is not live. -/
def whenLive {α : Type} (p : PersistentPreparation) (body : Except Error α × PersistentPreparation) :
    Except Error α × PersistentPreparation :=
  match p.requireLive with
  | some err => (.error err, p)
  | none => body

def acquisitionPending : Error := Controller.busy "state lease acquisition has not completed"

def custodyInactive : Error := .text "state custody is not active for preparation token %d"

/-- `beginOperation` with a new channel `op`; `validated` is the lease's check of its paths. -/
def beginOperation (name : String) (op : Nat) (validated : Option Error) (p : PersistentPreparation) :
    Except Error Unit × PersistentPreparation :=
  p.whenLive <|
    if !p.acquisitionSettled || !p.lease then (.error acquisitionPending, p)
    else if p.operation.isSome then (.error (Controller.busy "another state preparation operation is active"), p)
    else match validated with
      | some err => (.error (.note (name ++ " lease boundary: %w") err), p)
      | none => (.ok (), { p with operation := some op })

/-- The end of an operation, if it is still the one in flight. -/
def finishOperation (op : Nat) (p : PersistentPreparation) : PersistentPreparation :=
  if p.operation = some op then { p with operation := none } else p

/-- What `InspectPersistentPreparation` does with the layout it found. -/
def recordLayout (layout : StateLayout) (p : PersistentPreparation) :
    Except Error StateLayout × PersistentPreparation :=
  p.whenLive <|
    if p.layout.isSome && p.layout ≠ some layout then
      (.error (.note "%w: persistent layout changed during preparation" (.sentinel .unexpectedStateResidue)), p)
    else (.ok layout, { p with layout := some layout })

def markCustodyActive : Except Error Unit × PersistentPreparation :=
  p.whenLive <|
    if !p.acquisitionSettled || !p.lease then (.error acquisitionPending, p)
    else if p.custodyActive || p.custodyCompleted then
      (.error (Controller.busy "state custody was already activated for token %d"), p)
    else (.ok (), { p with custodyActive := true })

/-- What a first resolution decides: an action, or that key and envelope do not come together. -/
def decideAction (layout : StateLayout) (dekPresent : Bool) : Except Error PreparationAction :=
  match layout, dekPresent with
  | .absent, true => .error (.sentinel .orphanedStateDEK)
  | .absent, false => .ok .provision
  | .encrypted, false => .error (.sentinel .missingStateDEK)
  | .encrypted, true => .ok .open

/-- `ResolvePersistentCustody`; the action is empty only if none was recorded. -/
def resolveCustody (dekPresent : Bool) (p : PersistentPreparation) :
    Except Error (Option PreparationAction) × PersistentPreparation :=
  p.whenLive <|
    if !p.custodyActive || p.custodyCompleted then (.error custodyInactive, p)
    else match p.layout with
      | none => (.error (.text "persistent layout was not inspected for token %d"), p)
      | some layout =>
        if p.custodyResolved then
          if p.custodyDEKPresent ≠ dekPresent then
            (.error (.text "custody presence changed for preparation token %d"), p)
          else match p.custodyResolveErr with
            | some err => (.error err, p)
            | none => (.ok p.action, p)
        else
          let resolved := { p with custodyResolved := true, custodyDEKPresent := dekPresent }
          match decideAction layout dekPresent with
          | .error err => (.error err, { resolved with custodyResolveErr := some err })
          | .ok action => (.ok (some action), { resolved with action := some action })

def markCustodyWriteAttempted : Except Error Unit × PersistentPreparation :=
  p.whenLive <|
    if !p.custodyActive then (.error (.text "custody is not active for preparation token %d"), p)
    else (.ok (), { p with custodyWriteAttempted := true })

def supplyPreparedDEK : Except Error Unit × PersistentPreparation :=
  p.whenLive <|
    if !p.custodyActive then (.error (.text "custody is not active for preparation token %d"), p)
    else if p.dekSupplied then (.error (.text "state encryption key was already supplied for token %d"), p)
    else if p.envelopeOutcome ≠ .none then
      (.error (.text "state encryption key was already consumed for token %d"), p)
    else (.ok (), { p with dekSupplied := true })

/-- What `PreparePersistentState` is to do: return a store it has, or act. -/
inductive Prepare where
  | prepared (empty : Bool)
  | act (action : PreparationAction)
  deriving DecidableEq, Repr

/-- The first section of `PreparePersistentState`, inside its operation. -/
def startPrepare : Except Error Prepare × PersistentPreparation :=
  if !p.custodyActive || p.custodyCompleted then (.error custodyInactive, p)
  else match p.custodyResolved, p.action with
    | true, some action =>
      if p.store then (.ok (.prepared p.storeEmpty), p)
      else if p.statePrepareAttempted then
        (.error (.text "persistent StateStore preparation was already attempted"), p)
      else (.ok (.act action), { p with statePrepareAttempted := true })
    | _, _ => (.error (.text "state custody was not resolved for preparation token %d"), p)

/-- `runInitialEnvelopeWrite` before the write; `channel` is `writeDone`. -/
def beginEnvelopeWrite (channel : Nat) (p : PersistentPreparation) : Except Error Unit × PersistentPreparation :=
  p.whenLive <|
    if !p.custodyWriteAttempted || !p.dekSupplied then
      (.error (.text "fresh encrypted-envelope write requires committed custody and a supplied key"), p)
    else if p.envelopeOutcome ≠ .none then (.error (.text "initial encrypted-envelope write already started"), p)
    else (.ok (), { p with dekSupplied := false, envelopeOutcome := .inFlight, writeDone := some channel })

/-- `recordCommitted`, called by the store right after its rename. -/
def recordCommitted : PersistentPreparation :=
  if p.envelopeOutcome = .inFlight then { p with envelopeOutcome := .committed } else p

/-- After the write: a store that was committed is kept, and the flag says so. -/
def endEnvelopeWrite (store : Bool) (p : PersistentPreparation) : Bool × PersistentPreparation :=
  let p := if p.envelopeOutcome = .inFlight then { p with envelopeOutcome := .notCommitted } else p
  let committed : Bool := p.envelopeOutcome = .committed
  (committed, if committed && store then { p with store := true } else p)

/-- The key of an existing envelope is taken out of the record. -/
def takeDEK : Except Error Unit × PersistentPreparation :=
  if !p.dekSupplied then (.error (.text "existing encrypted state requires a supplied key"), p)
  else (.ok (), { p with dekSupplied := false })

/-- An opened store is kept unless the preparation was abandoned meanwhile. -/
def keepStore : Bool × PersistentPreparation :=
  if p.abandoned then (false, p) else (true, { p with store := true })

/-- The last section of `PreparePersistentState`. -/
def recordEmpty (empty : Bool) (p : PersistentPreparation) : Except Error Bool × PersistentPreparation :=
  if p.abandoned then (.error Controller.abandonedErr, p) else (.ok empty, { p with storeEmpty := empty })

/-- `CompletePersistentCustody`. -/
def completeCustody : Except Error Unit × PersistentPreparation :=
  p.whenLive <|
    if p.operation.isSome then (.error (Controller.busy "state preparation operation is still active"), p)
    else if !p.custodyActive || p.custodyCompleted then (.error custodyInactive, p)
    else if !p.custodyResolved then
      (.error (.text "state custody was not resolved for preparation token %d"), p)
    else if p.custodyWriteAttempted && p.envelopeOutcome ≠ .committed then
      (.error (.text "fresh custody write has no committed encrypted envelope"), p)
    else (.ok (), { p with dekSupplied := false, custodyActive := false, custodyCompleted := true })

end PersistentPreparation

end TailscaleDart.Runtime
