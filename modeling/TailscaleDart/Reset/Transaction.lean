import TailscaleDart.Reset.Filesystem

/-!
# Reset.Transaction — forgetting the local identity

`forgetLocalIdentity` runs in Dart and has three parts: `BeginLocalReset` (native) makes the marker durable,
the key is deleted from Keybay, `FinishLocalReset` (native) removes the subtree and then the marker. The
state is the disk and the key.

What the runtime controller and the state lease answer is left to the environment here: whether the reset is
admitted, whether the active runtime closes, whether the lease is acquired and released. The lock file of
the lease is another entry of the root and is not on this disk. A runtime that is being closed may still
write to its store; the disk a reset starts from is the one after that.
-/

namespace TailscaleDart.Reset

open Conc Durable Store

/-- `localResetOperation`, kept by the controller between the two native calls. -/
structure LocalResetOperation where
  token : Nat
  ready : Bool := false
  finishing : Bool := false
  leased : Bool := false
  fs : Option ResetFilesystem := none

/-- What a native call leaves: the operation the controller still holds, and the error it returns. -/
structure Reply where
  reset : Option LocalResetOperation
  err : Option Err

/-! ## The native half -/

/-- `errors.Join`, where nil errors are dropped. -/
def joinErrs : Option Err → Option Err → Option Err
  | none, second => second
  | first, none => first
  | some first, some second => some (join first second)

def cleanupFailureError (err : Err) : Err :=
  if err.is .runtimeCleanupFailed then err else .wrap "%w: %w" (.sentinel .runtimeCleanupFailed) err

/-- The error of a call that may fail. -/
def failure {α : Type} : Except Err α → Option Err
  | .ok _ => none
  | .error err => some err

def closeHeldFilesystem : Option ResetFilesystem → Fallible Err Unit
  | some fs => fs.closeRoot
  | none => pure ()

/-- Close the file system, release the lease, and let go of the operation. -/
def finishLocalResetOperation (op : LocalResetOperation) (primary : Option Err) : Sys Reply := do
  let closed ← (closeHeldFilesystem op.fs).run
  let released ← (doIf op.leased (attempt (ε := Err) .foreign hook)).run
  let cleanup := (joinErrs (failure closed) (failure released)).map cleanupFailureError
  return { reset := none, err := joinErrs primary cleanup }

def configuredStateRootSnapshot (baseRoot : RootPath) (rootInfo : Info) : Fallible Err Unit := do
  let info ← attempt (described .configurationMismatch "%w: configured state root is unavailable: %v")
    (lstat baseRoot.parent baseRoot.name)
  require (sameFile rootInfo info = true)
    (.note "%w: configured state root was replaced" (.sentinel .configurationMismatch))

/-- The part of `BeginLocalReset` under the controller's mutex. -/
def admitLocalReset : Fallible Err Unit :=
  attempt (fun _ => .note "%w: another node lifecycle transition is in progress" (.sentinel .lifecycleBusy)) hook

/-- From the lease on: open the root and make the marker durable. An error gives the operation up. -/
def markLocalReset (op : LocalResetOperation) (baseRoot : RootPath) (expectedRoot : Info) : Sys Reply := do
  match ← (openStateResetFilesystem baseRoot expectedRoot).run with
  | .error err => finishLocalResetOperation op (some err)
  | .ok fs =>
    match ← fs.ensureDurableMarker.run with
    | .error err => finishLocalResetOperation { op with fs := some fs } (some err)
    | .ok fs => return { reset := some { op with fs := some fs, ready := true }, err := none }

/-- An active runtime hands over the lease it holds and is closed; without one the lease is acquired. -/
def takeLocalReset (active : Bool) (token : Nat) (baseRoot : RootPath) (expectedRoot : Info) : Sys Reply := do
  match ← (attempt (ε := Err) .foreign hook).run with
  | .error err =>
    if active then
      return { reset := some { token := token, leased := true }, err := some (cleanupFailureError err) }
    else finishLocalResetOperation { token := token } (some err)
  | .ok () => markLocalReset { token := token, leased := true } baseRoot expectedRoot

def beginLocalReset (active : Bool) (token : Nat) (baseRoot : RootPath) (expectedRoot : Info) : Sys Reply := do
  if token = 0 then return { reset := none, err := some (.text "local reset token must be non-zero") }
  else
    match ← (configuredStateRootSnapshot baseRoot expectedRoot).run with
    | .error err => return { reset := none, err := some err }
    | .ok () =>
      match ← admitLocalReset.run with
      | .error err => return { reset := none, err := some err }
      | .ok () => takeLocalReset active token baseRoot expectedRoot

/-- What `FinishLocalReset` does to the disk. -/
def completeLocalReset (fs : Option ResetFilesystem) (custodyDeletionSucceeded : Bool) : Sys (Option Err) := do
  if custodyDeletionSucceeded = false then
    return some (.note "%w: Keybay deletion was not confirmed" (.sentinel .localResetIncomplete))
  else
    match fs with
    | none => return some (.note "%w: reset filesystem is unavailable" (.sentinel .localResetIncomplete))
    | some fs => return failure (← fs.completeAfterCustodyDeletion.run)

def finishLocalReset (reset : Option LocalResetOperation) (token : Nat) (custodyDeletionSucceeded : Bool) :
    Sys Reply := do
  match reset with
  | none => return { reset := none, err := some (stale token) }
  | some op =>
    if op.token ≠ token then return { reset := some op, err := some (stale token) }
    else if op.ready = false ∨ op.finishing = true then
      return {
        reset := some op, err := some (.note "%w: local reset token %d is not ready" (.sentinel .lifecycleBusy)) }
    else do
      let operationErr ← completeLocalReset op.fs custodyDeletionSucceeded
      finishLocalResetOperation { op with finishing := true } operationErr
where
  stale (_ : Nat) : Err := .note "%w: local reset token %d is not current" (.sentinel .runtimeStale)

/-! ## The key -/

/-- Is the key in Keybay? -/
abbrev Keybay := Bool

abbrev World := Disk × Keybay

/-- Deletion is durable once it reports success, and may have happened when it reports a failure. -/
def deleteStateStoreDek : Prog Unit World Answer (Except Err Unit) :=
  Prog.step () fun ans w => some (match ans.fault with
    | none => (.ok (), w.1, false)
    | some code => (.error (.foreign (.fault code)), w.1, if ans.count = 0 then w.2 else false))

/-! ## The whole -/

/-- A reply of native code that does not reach the caller, or cannot be decoded. -/
def replyLost : Prog Unit World Answer Bool := Prog.step () fun ans w => some (ans.fault.isSome, w)

/-- The exception thrown when the begin result was lost, after the operation has been settled. -/
def lostBeginResult (settled : Option Err) : Err :=
  if settled.any (·.is .runtimeCleanupFailed) then
    .note "Local reset response recovery did not reach a proven quiescent state. Restart before retrying."
      (.sentinel .runtimeCleanupFailed)
  else
    .note "Local reset could not confirm its durable begin result. Call forgetLocalIdentity() again before starting the node."
      (.sentinel .localResetIncomplete)

/-- `_runForgetLocalIdentity`. -/
def runForgetLocalIdentity (active : Bool) (token : Nat) (baseRoot : RootPath) (expectedRoot : Info) :
    Prog Unit World Answer (Option Err) := do
  let begun ← (beginLocalReset active token baseRoot expectedRoot).onFst
  if ← replyLost then
    let settled ← (finishLocalReset begun.reset token false).onFst
    return some (lostBeginResult settled.err)
  else
    match begun.err with
    | some err => return some err
    | none =>
      let custody ← deleteStateStoreDek
      let finished ← (finishLocalReset begun.reset token (failure custody).isNone).onFst
      return joinErrs (failure custody) finished.err

end TailscaleDart.Reset
