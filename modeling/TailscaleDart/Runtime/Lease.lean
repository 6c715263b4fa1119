import TailscaleDart.Conc.Fresh
import TailscaleDart.Runtime.Controller

/-!
# Runtime.Lease — the lease of a state root

A state root is used by one owner at a time. Inside the process this is the table `stateLeaseAdmissions`, keyed by the
device and inode of the root; against other processes it is an advisory lock on a file below the root. A lease holds
both, and the two descriptors it needs for them.

An acquisition takes them one after the other and gives back what it took when something fails. When giving back fails
it is no longer known who owns the root: the entry in the table stays, with the error, and nobody gets the root again.

What a system call answers is up to the environment. An acquisition makes at most one admission and one lease, so both
are known by the number of the call that made them. The record which call opened a descriptor, how often a descriptor
was closed, and which call met a failure while it gave something up, is bookkeeping.
-/

namespace TailscaleDart.Runtime.Lease

open Conc

/-! ## Files and roots -/

structure RootID where
  device : Nat
  inode : Nat
  deriving DecidableEq, Repr

/-- What `info.Sys()` holds if it is a `*syscall.Stat_t`; `owned`: the user is the effective one. -/
structure Stat where
  device : Nat
  inode : Nat
  owned : Bool
  deriving DecidableEq, Repr

structure FileInfo where
  isDir : Bool
  isRegular : Bool
  perm : Nat
  sys : Option Stat
  deriving DecidableEq, Repr

/-- `os.SameFile`. -/
def sameFile (a b : FileInfo) : Bool :=
  match a.sys, b.sys with
  | some x, some y => x.device = y.device && x.inode = y.inode
  | _, _ => false

def verifyCurrentUserOwns (info : FileInfo) : Except Error Unit :=
  match info.sys with
  | none => .error (.text "ownership metadata is unavailable")
  | some stat => if stat.owned then .ok () else .error (.text "path is not owned by the current user")

def stateLeaseIdentity (info : FileInfo) : Except Error RootID :=
  match info.sys with
  | none => .error (.text "device and inode metadata is unavailable")
  | some stat => .ok ⟨stat.device, stat.inode⟩

/-- `unicode.IsSpace`. -/
def isSpaceRune (c : Char) : Bool :=
  let n := c.toNat
  (9 ≤ n && n ≤ 13) || n = 0x20 || n = 0x85 || n = 0xa0 || n = 0x1680 || (0x2000 ≤ n && n ≤ 0x200a) ||
    n = 0x2028 || n = 0x2029 || n = 0x202f || n = 0x205f || n = 0x3000

/-! ## The state -/

structure Options where
  expectedRoot : Option FileInfo := none
  validateRelease : Bool := true
  deriving DecidableEq, Repr

/-- `stateLeaseAdmission`; the root it was made for is bookkeeping. -/
structure Admission where
  rootID : RootID
  poisoned : Option Error := none
  deriving DecidableEq, Repr

structure StateLease where
  file : Nat
  root : Nat
  rootID : RootID
  options : Options
  -- the call that holds `mu`
  mu : Option Nat := none
  released : Bool := false
  releaseErr : Option Error := none
  deriving DecidableEq, Repr

structure World where
  byRoot : RootID → Option Nat := fun _ => none
  admission : Nat → Option Admission := fun _ => none
  lease : Nat → Option StateLease := fun _ => none
  -- `opened[n]` is the call that opened descriptor `n`
  opened : List Nat := []
  closes : Nat → Nat := fun _ => 0
  -- an unlock or close, or the validation before a release, failed in this call
  failed : Nat → Bool := fun _ => false

namespace World

/-- The root is given to nobody any more. -/
def Poisoned (w : World) (r : RootID) : Prop :=
  ∃ a adm, w.byRoot r = some a ∧ w.admission a = some adm ∧ adm.poisoned.isSome = true

def setLease (w : World) (l : Nat) (lease : StateLease) : World :=
  { w with lease := Function.update w.lease l (some lease) }

def setAdmission (w : World) (a : Nat) (adm : Admission) : World :=
  { w with admission := Function.update w.admission a (some adm) }

def fail (w : World) (i : Nat) : World := { w with failed := Function.update w.failed i true }

/-- A descriptor opened by call `i`. -/
def openAs (w : World) (i : Nat) : World := { w with opened := w.opened ++ [i] }

def close (w : World) (n : Nat) : World := { w with closes := Function.update w.closes n (w.closes n + 1) }

/-- `reserveStateLeaseAdmission`. -/
def reserve (w : World) (i : Nat) (rootID : RootID) : Except Error Unit × World :=
  match w.byRoot rootID with
  | some a =>
    if (w.admission a).any (·.poisoned.isSome) then
      (.error (.note "%w for %q: %v" (.sentinel .stateLeasePoisoned)), w)
    else (.error (.sentinel .stateLeaseBusy), w)
  | none =>
    (.ok (), { w.setAdmission i { rootID := rootID } with byRoot := Function.update w.byRoot rootID (some i) })

/-- `finishStateLeaseAdmission`. -/
def finish (w : World) (a : Nat) (rootID : RootID) (poison : Option Error) : World :=
  if w.byRoot rootID ≠ some a then w
  else match poison with
    | some err => w.setAdmission a { rootID := rootID, poisoned := some err }
    | none => { w with byRoot := Function.update w.byRoot rootID none }

end World

/-! ## System calls -/

structure Answer where
  err : Option Error := none
  info : FileInfo := ⟨false, false, 0, none⟩
  -- the lock is held elsewhere: `EWOULDBLOCK` or `EAGAIN`
  wouldBlock : Bool := false

/-- The two critical sections of the table, and everything else. -/
inductive Label where
  | reserve (rootID : RootID)
  | finish (rootID : RootID)
  | other
  deriving DecidableEq, Repr

abbrev Act (α : Type) := Prog Label World Answer α

abbrev Attempt (α : Type) := ExceptT Error (Prog Label World Answer) α

def ask : Act Answer := Prog.step .other fun ans w => some (ans, w)

/-- A step without a result. -/
def change (f : World → World) : Act Unit := Prog.step .other fun _ w => some ((), f w)

/-- A call whose failure is returned under `wrap`. -/
def syscallWith (wrap : Error → Error) : Attempt FileInfo := ExceptT.mk do
  let ans ← ask
  match ans.err with
  | some err => return .error (wrap err)
  | none => return .ok ans.info

def syscall (format : String) : Attempt FileInfo := syscallWith (.note format)

def require (condition : Bool) (err : Error) : Attempt Unit :=
  ExceptT.mk (pure (if condition then .ok () else .error err))

/-- A check, its failure under `format`. -/
def checked {α : Type} (format : String) (result : Except Error α) : Attempt α :=
  ExceptT.mk (pure (result.mapError (.note format)))

/-- Open a file. -/
def openFile (i : Nat) : Act (Except Error Nat) :=
  Prog.step .other fun ans w =>
    match ans.err with
    | some err => some (.error err, w)
    | none => some (.ok w.opened.length, w.openAs i)

/-- Close a descriptor: it is closed whatever the result is. -/
def closeFile (i n : Nat) (format : String) : Act (Option Error) :=
  Prog.step .other fun ans w =>
    match ans.err with
    | some err => some (some (.note format err), (w.close n).fail i)
    | none => some (none, w.close n)

def unlockFile (i : Nat) : Act (Option Error) :=
  Prog.step .other fun ans w =>
    match ans.err with
    | some err => some (some (.note "unlock persistent state lease: %w" err), w.fail i)
    | none => some (none, w)

def reserveStateLeaseAdmission (i : Nat) (rootID : RootID) : Act (Except Error Unit) :=
  Prog.step (.reserve rootID) fun _ w => some (w.reserve i rootID)

def finishStateLeaseAdmission (a : Nat) (rootID : RootID) (poison : Option Error) : Act Unit :=
  Prog.step (.finish rootID) fun _ w => some ((), w.finish a rootID poison)

/-! ## Acquisition -/

/-- `verifyStateLeasePath`: the name still leads to the opened file. -/
def verifyStateLeasePath (opened : FileInfo) : Attempt Unit := do
  let pathStat ← syscall "revalidate persistent state lease: %w"
  let openedID ← checked "identify persistent state lease: %w" (stateLeaseIdentity opened)
  require (pathStat.sys.any fun stat => openedID.device = stat.device && openedID.inode = stat.inode)
    (.text "persistent state lease path was replaced")

/-- The checks on the opened root, and what identifies it. -/
def secureRoot (options : Options) : Attempt (FileInfo × RootID) := do
  let rootInfo ← syscall "stat persistent state root: %w"
  require rootInfo.isDir (.text "persistent state root is not a directory")
  require (options.expectedRoot.all (sameFile · rootInfo))
    (.note "%w: configured state root changed before lease acquisition" (.sentinel .configurationMismatch))
  checked "verify persistent state root ownership: %w" (verifyCurrentUserOwns rootInfo)
  let _ ← syscall "secure persistent state root: %w"
  let rootInfo ← syscall "verify persistent state root: %w"
  require (rootInfo.perm = 0o700) (.text "persistent state root permissions are %04o, want 0700")
  let rootID ← checked "identify persistent state root: %w" (stateLeaseIdentity rootInfo)
  return (rootInfo, rootID)

/-- The checks on the opened lock file. -/
def secureLockFile : Attempt FileInfo := do
  let lockInfo ← syscall "stat persistent state lease: %w"
  require lockInfo.isRegular (.text "persistent state lease is not a regular file")
  checked "verify persistent state lease ownership: %w" (verifyCurrentUserOwns lockInfo)
  let _ ← syscall "secure persistent state lease: %w"
  let lockInfo ← syscall "verify persistent state lease: %w"
  require (lockInfo.perm = 0o600) (.text "persistent state lease permissions are %04o, want 0600")
  verifyStateLeasePath lockInfo
  return lockInfo

/-- The lock, without waiting. -/
def lockFile : Attempt Unit := ExceptT.mk do
  let ans ← ask
  match ans.err with
  | none => return .ok ()
  | some err =>
    if ans.wouldBlock then return .error (.sentinel .stateLeaseBusy)
    else return .error (.note "lock persistent state lease: %w" err)

/-- Once it is locked: the same lock file, the same root. -/
def revalidate (rootInfo lockInfo : FileInfo) : Attempt Unit := do
  verifyStateLeasePath lockInfo
  let currentRoot ← syscall "revalidate persistent state root: %w"
  require (sameFile rootInfo currentRoot) (.text "persistent state root was replaced")

/-- Give back the lock, if it was taken. -/
def unlockHeld (i : Nat) (held : Bool) : Act (Option Error) := if held then unlockFile i else pure none

/-- Close the lock file, if it was opened. -/
def closeOpened (i : Nat) : Option Nat → Act (Option Error)
  | some file => closeFile i file "close persistent state lease: %w"
  | none => pure none

/-- `abandonStateLeaseAcquisition`. -/
def abandonStateLeaseAcquisition (i : Nat) (rootID : RootID) (file : Option Nat) (root : Nat) (locked : Bool)
    (acquireErr : Error) : Act Error := do
  let unlocked ← unlockHeld i (locked && file.isSome)
  let closed ← closeOpened i file
  let closedRoot ← closeFile i root "close persistent state root: %w"
  let cleanupErr := Controller.joinErrs (Controller.joinErrs unlocked closed) closedRoot
  finishStateLeaseAdmission i rootID cleanupErr
  match cleanupErr with
  | none => return acquireErr
  | some err => return .wrap "%w\n%w" acquireErr (.wrap "%w: %w" (.sentinel .runtimeCleanupFailed) err)

/-- From the lock file to the lease. A failure says whether a descriptor was opened, and whether the lock was held. -/
def lockRoot (i : Nat) (rootInfo : FileInfo) : Act (Except (Option Nat × Bool × Error) Nat) := do
  match ← openFile i with
  | .error err => return .error (none, false, .note "open persistent state lease: %w" err)
  | .ok file =>
    match ← (do let lockInfo ← secureLockFile; lockFile; return lockInfo : Attempt FileInfo).run with
    | .error err => return .error (some file, false, err)
    | .ok lockInfo =>
      match ← (revalidate rootInfo lockInfo).run with
      | .error err => return .error (some file, true, err)
      | .ok () => return .ok file

/-- After the admission was reserved. -/
def acquireReserved (i root : Nat) (options : Options) (rootInfo : FileInfo) (rootID : RootID) :
    Act (Except Error Nat) := do
  match ← lockRoot i rootInfo with
  | .error (file, locked, err) => return .error (← abandonStateLeaseAcquisition i rootID file root locked err)
  | .ok file =>
    change (·.setLease i { file := file, root := root, rootID := rootID, options := options })
    return .ok i

/-- The root is created, unless it is known already. -/
def createRoot (options : Options) : Attempt Unit :=
  if options.expectedRoot.isNone then do let _ ← syscall "create persistent state root: %w" else pure ()

/-- `acquireStateLease` as call `i`. Until the admission is reserved, a failure only closes the root again, and what
that returns is ignored. -/
def acquireStateLease (i : Nat) (baseRoot : String) (options : Options) : Act (Except Error Nat) := do
  if baseRoot.toList.all isSpaceRune then return .error (.text "persistent state root is empty")
  else
    match ← (createRoot options).run with
    | .error err => return .error err
    | .ok () =>
      match ← openFile i with
      | .error err => return .error (.note "open persistent state root: %w" err)
      | .ok root =>
        match ← (secureRoot options).run with
        | .error err =>
          let _ ← closeFile i root "%w"
          return .error err
        | .ok (rootInfo, rootID) =>
          match ← reserveStateLeaseAdmission i rootID with
          | .error err =>
            let _ ← closeFile i root "%w"
            return .error err
          | .ok () => acquireReserved i root options rootInfo rootID

/-! ## Release -/

/-- `lease.mu.Lock()`, and the lease under it. A nil lease has no lock. -/
def lockLease (i l : Nat) : Act (Option StateLease) :=
  Prog.step .other fun _ w =>
    match w.lease l with
    | none => some (none, w)
    | some lease => if lease.mu.isSome then none else some (some lease, w.setLease l { lease with mu := some i })

/-- What a call does to the lease it has locked. -/
def onLease (l : Nat) (f : StateLease → StateLease) : Act Unit :=
  change fun w => match w.lease l with
    | none => w
    | some lease => w.setLease l (f lease)

def unlockLease (l : Nat) : Act Unit := onLease l fun lease => { lease with mu := none }

def validatePathsLocked (lease : StateLease) : Attempt Unit := do
  let rootInfo ← syscall "stat pinned persistent state root: %w"
  require rootInfo.isDir (.text "pinned persistent state root is not a directory")
  let rootID ← checked "identify pinned persistent state root: %w" (stateLeaseIdentity rootInfo)
  require (rootID = lease.rootID) (.text "pinned persistent state root identity changed")
  let currentRoot ← syscallWith fun _ =>
    .note "%w: revalidate persistent state root: %v" (.sentinel .configurationMismatch)
  require (sameFile rootInfo currentRoot)
    (.note "%w: persistent state root was replaced" (.sentinel .configurationMismatch))
  let lockInfo ← syscall "stat pinned persistent state lease: %w"
  require lockInfo.isRegular (.text "pinned persistent state lease is not a regular file")
  verifyStateLeasePath lockInfo

/-- The validation a release begins with. That it failed is put on record. -/
def validateRelease (i : Nat) (lease : StateLease) : Act (Option Error) := do
  if lease.options.validateRelease then
    match ← (validatePathsLocked lease).run with
    | .ok () => return none
    | .error err =>
      change (·.fail i)
      return some (.note "validate persistent state lease before release: %w" err)
  else return none

/-- The part of `Release` that is made once, with the lock held. -/
def releaseOnce (i l : Nat) (lease : StateLease) : Act (Option Error) := do
  let validated ← validateRelease i lease
  onLease l fun lease => { lease with released := true }
  let unlocked ← unlockFile i
  let closed ← closeFile i lease.file "close persistent state lease: %w"
  let closedRoot ← closeFile i lease.root "close persistent state root: %w"
  let cleanupErr := Controller.joinErrs (Controller.joinErrs (Controller.joinErrs validated unlocked) closed) closedRoot
  onLease l fun lease => { lease with releaseErr := cleanupErr }
  finishStateLeaseAdmission l lease.rootID cleanupErr
  return cleanupErr

/-- What a release returns: a lease is released once. -/
def releaseLocked (i l : Nat) (lease : StateLease) : Act (Option Error) :=
  if lease.released then pure lease.releaseErr else releaseOnce i l lease

/-- `Release` as call `i`. -/
def release (i l : Nat) : Act (Option Error) := do
  match ← lockLease i l with
  | none => return none
  | some lease =>
    let err ← releaseLocked i l lease
    unlockLease l
    return err

def validateUnreleased (lease : StateLease) : Attempt Unit :=
  if lease.released then throw (.text "persistent state lease is released") else validatePathsLocked lease

/-- `validatePaths` as call `i`. -/
def validatePaths (i l : Nat) : Act (Option Error) := do
  match ← lockLease i l with
  | none => return some (.text "persistent state lease is unavailable")
  | some lease =>
    let result ← (validateUnreleased lease).run
    unlockLease l
    match result with
    | .ok () => return none
    | .error err => return some err

/-! ## The calls of a process -/

inductive Call where
  | acquire (baseRoot : String) (options : Options)
  | release (l : Nat)
  | validate (l : Nat)
  deriving DecidableEq, Repr

inductive Ret where
  | acquired (result : Except Error Nat)
  | done (err : Option Error)

def body (i : Nat) : Call → Act Ret
  | .acquire baseRoot options => do return .acquired (← acquireStateLease i baseRoot options)
  | .release l => do return .done (← release i l)
  | .validate l => do return .done (← validatePaths i l)

end TailscaleDart.Runtime.Lease
