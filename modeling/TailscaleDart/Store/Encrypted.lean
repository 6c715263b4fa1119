import TailscaleDart.Durable.Syscall
import TailscaleDart.Store.Envelope

/-!
# Store.Encrypted — the encrypted store over its directory

The methods of `encryptedStateStore`, each a program of system calls. The store's memory (cache, key,
identity of its file) is passed along as a value; a method's mutex makes a call on it one piece. The
path of the store is the directory `name` under `parent` with the fixed file name in it; only the
holder of the state lease changes that directory, so the store keeps the directory's inode.

Deferred functions of the source are the code that stands after the body they belong to: what
`persistTemp` does after an error is the deferred close and removal, what `persistEnvelopeLocked` does
last is the deferred validation of the root.
-/

namespace TailscaleDart.Store

open Conc Durable JsonText

abbrev Err := GoError Errno

def encryptedStateFileName : String := "tailscaled.state.enc"
def encryptedStateTempFileName : String := ".tailscaled.state.enc.tmp"

/-! ## Errors of system calls -/

def noted (format : String) (e : Errno) : Err := .note format (.foreign e)

def under (s : Sentinel) (format : String) (e : Errno) : Err := .wrap format (.sentinel s) (.foreign e)

/-- `errors.Join`. -/
def join (first second : Err) : Err := .wrap "%w\n%w" first second

def verifyCurrentUserOwns (info : Info) : Fallible Err Unit :=
  require (info.owned = true) (.text "path is not owned by the current user")

/-! ## Directories -/

/-- The package's directory: real, owned, mode 0700. The inode it returns is what the path names. -/
def secureEncryptedStateDirectory (parent : Inode) (name : String) (create : Bool) : Fallible Err Inode := do
  doIf create makeDirectory
  let before ← attempt .foreign (lstat parent name)
  require (before.kind ≠ .symlink) (.text "path is a symbolic link")
  require (before.kind = .directory) (.text "path is not a directory")
  verifyCurrentUserOwns before
  let dir ← attempt .foreign (openAt parent name)
  let opened ← attempt .foreign (fstat dir)
  let current ← attempt .foreign (lstat parent name)
  require (current.kind = .directory ∧ sameFile opened current = true)
    (.text "directory identity changed while securing it")
  verifyCurrentUserOwns opened
  attempt .foreign (fchmod dir 0o700)
  let final ← attempt .foreign (lstat parent name)
  require (final.kind = .directory ∧ sameFile opened final = true)
    (.text "directory identity changed while securing it")
  verifyCurrentUserOwns final
  require (final.perm = 0o700) (.text "permissions are %04o, want 0700")
  return dir
where
  /-- `os.Mkdir`, where a directory that exists already is no error. -/
  makeDirectory : Fallible Err Unit := ExceptT.mk do
    match ← mkdirAt parent name 0o700 with
    | .ok () => return .ok ()
    | .error .exist => return .ok ()
    | .error e => return .error (.foreign e)

/-- Open, sync and close a directory. Once the sync is done an error of the close changes nothing. -/
def syncStateDirectory (dir : Inode) : Fallible Err Unit := do
  attempt .foreign (openDir dir)
  ExceptT.mk do
    match ← fsyncDir dir with
    | .error e =>
      let _ ← close dir
      return .error (.foreign e)
    | .ok () => return (← close dir).mapError .foreign

def cleanupFreshEncryptedStateDirectory (parent : Inode) (name : String) (created : Bool) (primary : Err) :
    Sys Err := do
  if created then
    match ← removeAt parent name with
    | .error (.fault code) =>
      return join primary (noted "remove uncommitted encrypted StateStore directory: %w" (.fault code))
    | .error .notEmpty =>
      return join primary (noted "remove uncommitted encrypted StateStore directory: %w" .notEmpty)
    | _ =>
      match ← (syncStateDirectory parent).run with
      | .error err => return join primary (.note "sync removal of uncommitted encrypted StateStore directory: %w" err)
      | .ok () => return primary
  else return primary

/-! ## Persisting -/

structure EncryptedStateStore where
  /-- The directory of the store's path. -/
  dir : Inode
  key : Key
  cache : StateMap
  fileInfo : Option Info
  closed : Bool
  limits : Limits

/-- A commit that has happened: the store after it, what went wrong since, and whether this was the
commit that created the file. -/
structure Committed where
  store : EncryptedStateStore
  diagnostics : List Err
  initial : Bool

inductive WriteStage where
  | beforeWrite
  | afterTempWrite
  | afterTempSync
  | beforeRename
  | afterRename
  deriving DecidableEq, Repr

def WriteStage.name : WriteStage → String
  | beforeWrite => "before-write"
  | afterTempWrite => "after-temp-write"
  | afterTempSync => "after-temp-sync"
  | beforeRename => "before-rename"
  | afterRename => "after-rename"

namespace EncryptedStateStore

variable (box : SecretBox) (s : EncryptedStateStore)

def validatePersistenceRoot : Fallible Err Unit :=
  attempt (under .encryptedStatePathSecurity "%w: validate persistent state root: %w") hook

def runFault (stage : WriteStage) : Fallible Err Unit :=
  attempt (noted ("encrypted StateStore fault at " ++ stage.name ++ ": %w")) hook

/-- What `validateDestination` makes of the `lstat` of the store's path. -/
def checkDestination (fileInfo : Option Info) (found : Except Errno Info) : Except Err Unit :=
  match fileInfo, found with
  | none, .error .notExist => .ok ()
  | none, .ok _ => .error (.sentinel .encryptedStateAlreadyExists)
  | none, .error e => .error (under .encryptedStatePathSecurity "%w: inspect destination: %w" e)
  | some _, .error e => .error (under .encryptedStatePathSecurity "%w: inspect destination: %w" e)
  | some known, .ok info =>
    if info.kind ≠ .regular then
      .error (.note "%w: destination is not a regular file" (.sentinel .encryptedStatePathSecurity))
    else if sameFile known info = false then
      .error (.note "%w: destination was replaced" (.sentinel .encryptedStatePathSecurity))
    else if info.owned = false then
      .error (.wrap "%w: verify destination owner: %w" (.sentinel .encryptedStatePathSecurity)
        (.text "path is not owned by the current user"))
    else if info.perm ≠ 0o600 then
      .error (.note "%w: destination permissions are %04o, want 0600" (.sentinel .encryptedStatePathSecurity))
    else .ok ()

def validateDestination : Fallible Err Unit :=
  ExceptT.mk do return checkDestination s.fileInfo (← lstat s.dir encryptedStateFileName)

/-- Fill the temporary file and make it durable, up to its close. -/
def writeTemp (temp : Inode) (envelope : Bytes) : Fallible Err Info := do
  attempt (noted "secure encrypted StateStore temporary file: %w") (fchmod temp 0o600)
  let tempInfo ← attempt (noted "stat encrypted StateStore temporary file: %w") (fstat temp)
  require (tempInfo.kind = .regular ∧ tempInfo.perm = 0o600)
    (.text "encrypted StateStore temporary file is not owner-only regular storage")
  wrapErr (.note "verify encrypted StateStore temporary owner: %w") (verifyCurrentUserOwns tempInfo)
  let n ← attempt (noted "write encrypted StateStore temporary file: %w") (write temp envelope)
  require (n = envelope.length)
    (.note "write encrypted StateStore temporary file: %w" (.text "short write"))
  runFault .afterTempWrite
  attempt (noted "sync encrypted StateStore temporary file: %w") (fsync temp)
  runFault .afterTempSync
  attempt (noted "close encrypted StateStore temporary file: %w") (close temp)
  return tempInfo

/-- From the closed temporary file to the rename, which is the commit point. -/
def renameTemp : Fallible Err Unit := do
  runFault .beforeRename
  validatePersistenceRoot
  s.validateDestination
  attempt (noted "commit encrypted StateStore file: %w")
    (renameAt s.dir encryptedStateTempFileName encryptedStateFileName)

/-- The deferred removal of the temporary file. -/
def removeTemp (err : Err) : Sys Err := do
  match ← removeAt s.dir encryptedStateTempFileName with
  | .ok () => return err
  | .error e => return join err (noted "remove encrypted StateStore temporary file: %w" e)

/-- What a step after the commit point reports. -/
def diagnose (format : String) (x : Fallible Err Unit) : Sys (List Err) := do
  match ← x.run with
  | .ok () => return []
  | .error err => return [.note format err]

/-- With the temporary file open: fill it, rename it, and only then publish the new cache. -/
def persistTemp (temp : Inode) (envelope : Bytes) (candidate : StateMap) :
    Fallible Err Committed := ExceptT.mk do
  match ← (writeTemp temp envelope).run with
  | .error err =>
    let _ ← close temp
    return .error (← s.removeTemp err)
  | .ok tempInfo =>
    match ← s.renameTemp.run with
    | .error err => return .error (← s.removeTemp err)
    | .ok () =>
      let store := { s with cache := candidate, fileInfo := some tempInfo }
      let fault ← diagnose "after encrypted StateStore rename: %w" (runFault .afterRename)
      let sync ← diagnose "sync encrypted StateStore directory: %w" (syncStateDirectory s.dir)
      return .ok { store := store, diagnostics := fault ++ sync, initial := s.fileInfo.isNone }

def persistBody (envelope : Bytes) (candidate : StateMap) : Fallible Err Committed := do
  runFault .beforeWrite
  s.validateDestination
  let temp ← attempt (noted "create encrypted StateStore temporary file: %w")
    (openExcl s.dir encryptedStateTempFileName 0o600)
  s.persistTemp temp envelope candidate

/-- The deferred validation: an error is a diagnostic once the commit has happened. -/
def settle (result : Except Err Committed) (root : Except Err Unit) : Except Err Committed :=
  match result, root with
  | result, .ok () => result
  | .ok c, .error err =>
    .ok { c with diagnostics := c.diagnostics ++ [.note "after encrypted StateStore persistence: %w" err] }
  | .error err, .error err' => .error (join err err')

def persistEnvelopeLocked (envelope : Bytes) (candidate : StateMap) :
    Fallible Err Committed := do
  validatePersistenceRoot
  ExceptT.mk do
    let result ← (s.persistBody envelope candidate).run
    let root ← validatePersistenceRoot.run
    return settle result root

/-- The nonce `io.ReadFull` fills from the random source. -/
def nonceOf (bytes : List UInt8) : Nonce :=
  ⟨(bytes ++ List.replicate encryptedStateNonceSize 0).take encryptedStateNonceSize, by simp⟩

/-- The last size check, and the write. -/
def commitEnvelope (envelope : Bytes) (candidate : StateMap) : Fallible Err Committed := do
  require (envelope.length ≤ s.limits.maxEnvelopeBytes) (oversized "envelope")
  wrapErr (.wrap "%w: %w" (.sentinel .encryptedStatePersistence)) (s.persistEnvelopeLocked envelope candidate)

def commitCandidateLocked (candidate : StateMap) : Fallible Err Committed := do
  let plaintext := marshalStateMap candidate
  require (plaintext.length ≤ s.limits.maxPlaintextBytes) (oversized "plaintext map")
  let random ← attempt (under .encryptedStatePersistence "%w: generate nonce: %w") readRandom
  let ciphertext := box.sealBox s.key (nonceOf random) plaintext
  require (ciphertext.length ≤ s.limits.maxCiphertextBytes) (oversized "ciphertext")
  s.commitEnvelope (marshalEncryptedStateEnvelope (nonceOf random) ciphertext) candidate

/-! ## The methods -/

/-- What the map holds for an identifier: identifiers that are not UTF-8 are never keys. -/
def find (id : Bytes) : Option Bytes :=
  (decodeUtf8 id).bind fun text => s.cache[String.ofList text]?

def readState (id : Bytes) : Except Err Bytes :=
  if s.closed then .error (.sentinel .encryptedStateClosed)
  else match s.find id with
    | none => .error (.sentinel .stateNotExist)
    | some value => .ok value

/-- The map with a new value under a key; a nil value deletes. -/
def candidate (key : String) (value : Option Bytes) : StateMap :=
  match value with
  | none => s.cache.erase key
  | some value => s.cache.insert key value

/-- The store after the call, and the error it returns. -/
def writeState (id : Bytes) (value : Option Bytes) : Sys (EncryptedStateStore × Option Err) :=
  match decodeUtf8 id with
  | none => return (s, some (.text "invalid StateStore key encoding"))
  | some text =>
    let key := String.ofList text
    if (value.getD []).length > s.limits.maxPlaintextBytes then
      return (s, some (.sentinel .encryptedStateOversized))
    else if s.closed then return (s, some (.sentinel .encryptedStateClosed))
    else do
      match ← validatePersistenceRoot.run with
      | .error err => return (s, some err)
      | .ok () =>
        if value = none ∧ key ∉ s.cache then return (s, none)
        else if value ≠ none ∧ s.cache[key]? = value then return (s, none)
        else
          match ← (s.commitCandidateLocked box (s.candidate key value)).run with
          | .error err => return (s, some err)
          -- what is left in `diagnostics` is only logged
          | .ok c => return (c.store, none)

/-- `Close`: the cache and the key are wiped. -/
def closeStore : EncryptedStateStore :=
  if s.closed then s
  else { s with cache := ∅, key := List.Vector.replicate _ 0, fileInfo := none, closed := true }

end EncryptedStateStore

/-! ## Creating and opening -/

/-- What the first `lstat` of the directory says: was it absent? -/
def directoryWasAbsent : Except Errno Info → Except Err Bool
  | .ok _ => .ok false
  | .error .notExist => .ok true
  | .error e => .error (under .encryptedStatePathSecurity "%w: inspect directory: %w" e)

/-- Undo what creation has done to the directory, unless the error is that a store is already there. -/
def orCleanup {α : Type} (parent : Inode) (name : String) (created : Bool) (x : Fallible Err α) :
    Fallible Err α := ExceptT.mk do
  match ← x.run with
  | .ok a => return .ok a
  | .error err => return .error (← cleanupFreshEncryptedStateDirectory parent name created err)

/-- What the `lstat` of a new store's path must say. -/
def destinationAbsent : Except Errno Info → Except Err Bool
  | .ok _ => .ok false
  | .error .notExist => .ok true
  | .error e => .error (under .encryptedStatePathSecurity "%w: inspect destination: %w" e)

variable (box : SecretBox)

/-- The directory, secured, and its entry in the parent made durable if it is new. -/
def secureNewDirectory (parent : Inode) (name : String) (created : Bool) : Fallible Err Inode := do
  let dir ← wrapErr (.wrap "%w: secure directory: %w" (.sentinel .encryptedStatePathSecurity))
    (secureEncryptedStateDirectory parent name true)
  doIf created
    (wrapErr (.wrap "%w: sync parent after creating state directory: %w" (.sentinel .encryptedStatePersistence))
      (syncStateDirectory parent))
  return dir

def createEncryptedStateStoreWithOptions (parent : Inode) (name : String) (key : Key) (limits : Limits) :
    Fallible Err EncryptedStateStore := do
  require (limits.valid = true) (.text "invalid encrypted StateStore size limits")
  let created ← ExceptT.mk (return directoryWasAbsent (← lstat parent name))
  let dir ← orCleanup parent name created (secureNewDirectory parent name created)
  let absent ← orCleanup parent name created
    (ExceptT.mk (return destinationAbsent (← lstat dir encryptedStateFileName)))
  require (absent = true) (.sentinel .encryptedStateAlreadyExists)
  let store : EncryptedStateStore :=
    { dir := dir, key := key, cache := ∅, fileInfo := none, closed := false, limits := limits }
  let c ← orCleanup parent name created (store.commitCandidateLocked box store.cache)
  return c.store

/-- A sum of two `int64` values, which wraps around. -/
def wrapInt64 (n : Int) : Int := (n + 2 ^ 63) % 2 ^ 64 - 2 ^ 63

/-- Read the file of the store, checking that it stays the same private regular file throughout. The reader is limited
to one byte more than the file may have; a limit that is not positive reads nothing. -/
def readPrivateEncryptedStateFile (dir : Inode) (maxBytes : Int) : Fallible Err (Bytes × Info) := do
  let before ← attempt
    (fun e => if e = .notExist then .sentinel .encryptedStateMissing
      else noted "inspect encrypted StateStore file: %w" e) (lstat dir encryptedStateFileName)
  require (before.kind ≠ .symlink) (.text "encrypted StateStore file is a symbolic link")
  require (before.kind = .regular) (.text "encrypted StateStore path is not a regular file")
  wrapErr (.note "verify encrypted StateStore owner: %w") (verifyCurrentUserOwns before)
  let file ← attempt (noted "open encrypted StateStore file: %w") (openAt dir encryptedStateFileName)
  let opened ← attempt (noted "stat encrypted StateStore file: %w") (fstat file)
  let current ← attempt (noted "revalidate encrypted StateStore file: %w") (lstat dir encryptedStateFileName)
  require (current.kind = .regular ∧ sameFile before opened = true ∧ sameFile opened current = true)
    (.text "encrypted StateStore file identity changed while opening it")
  attempt (noted "secure encrypted StateStore file: %w") (fchmod file 0o600)
  let final ← attempt (noted "verify encrypted StateStore file: %w") (fstat file)
  let current ← attempt (noted "revalidate encrypted StateStore file: %w") (lstat dir encryptedStateFileName)
  require (current.kind = .regular ∧ sameFile opened final = true ∧ sameFile final current = true)
    (.text "encrypted StateStore file identity changed while securing it")
  wrapErr (.note "verify encrypted StateStore owner: %w") (verifyCurrentUserOwns final)
  require (final.perm = 0o600) (.text "encrypted StateStore permissions are %04o, want 0600")
  require (final.size ≤ maxBytes) (oversized "raw envelope")
  let raw ← attempt (noted "read encrypted StateStore file: %w") (readAll file (wrapInt64 (maxBytes + 1)).toNat)
  require (raw.length ≤ maxBytes) (oversized "raw envelope")
  return (raw, final)

/-- `math.MaxInt64`. -/
def maxInt64 : Int := 2 ^ 63 - 1

/-- Below that, a read within the limit is the whole file: one byte more was asked for. -/
theorem take_limit {content : Bytes} {maxBytes : Int} (hint : IsInt64 maxBytes) (hmax : maxBytes ≠ maxInt64)
    (hread : (content.take (wrapInt64 (maxBytes + 1)).toNat).length ≤ maxBytes) :
    content.take (wrapInt64 (maxBytes + 1)).toNat = content := by
  have hwrap : wrapInt64 (maxBytes + 1) = maxBytes + 1 := by
    unfold wrapInt64
    unfold maxInt64 at hmax
    omega
  rw [hwrap] at hread ⊢
  refine List.take_of_length_le ?_
  rw [List.length_take] at hread
  omega

/-- The sentinel an error of the read is put under, unless it has its own. -/
def classifyRead (err : Err) : Err :=
  if err.is .encryptedStateMissing || err.is .encryptedStateOversized then err
  else .wrap "%w: %w" (.sentinel .encryptedStatePathSecurity) err

/-- A missing directory is a missing store. -/
def classifyDirectory (err : Err) : Err :=
  if err = .foreign .notExist then .sentinel .encryptedStateMissing
  else .wrap "%w: secure directory: %w" (.sentinel .encryptedStatePathSecurity) err

/-- The envelope in the store's file, with the directory it is in and the file's identity. -/
def loadEncryptedStateEnvelope (parent : Inode) (name : String) (limits : Limits) :
    Fallible Err (Inode × Envelope × Info) := do
  require (limits.valid = true) (.text "invalid encrypted StateStore size limits")
  let dir ← wrapErr classifyDirectory (secureEncryptedStateDirectory parent name false)
  let (raw, info) ← wrapErr classifyRead (readPrivateEncryptedStateFile dir limits.maxEnvelopeBytes)
  let envelope ← fromExcept (parseEncryptedStateEnvelope raw limits)
  return (dir, envelope, info)

def openEncryptedStateStoreWithOptions (parent : Inode) (name : String) (key : Key) (limits : Limits) :
    Fallible Err EncryptedStateStore := do
  let (dir, envelope, info) ← loadEncryptedStateEnvelope parent name limits
  let cache ← fromExcept (openEnvelope box limits key envelope)
  return { dir := dir, key := key, cache := cache, fileInfo := some info, closed := false, limits := limits }

end TailscaleDart.Store
