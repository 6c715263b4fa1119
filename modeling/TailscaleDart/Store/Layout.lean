import TailscaleDart.Store.Encrypted

/-!
# Store.Layout — the keyless inspection of the state root

`inspectPersistentStateLayout` decides, before any key is read, whether the state root holds nothing, an
encrypted store, or something that must not be touched. It may remove one thing: the temporary file of a
commit that did not reach its rename, and only after checking that it is a private regular file.

The runtime's sidecar directory is walked recursively; `depth` bounds the walk, and a tree that is not
deeper than that is walked to its end.
-/

namespace TailscaleDart.Store

open Conc Durable

def stateResetMarkerFilename : String := ".tailscale-state.reset"
def ownedStateSubdirectory : String := "tailscale"
def sidecarDirectory : String := "tsnet"
def legacyStateFilenames : List String := ["state.db", "state.db-wal", "state.db-shm"]
def legacyFileStoreFilename : String := "tailscaled.state"

inductive PersistentStateLayout where
  | absent
  | encrypted
  deriving DecidableEq, Repr

/-- An error under a sentinel whose cause is only printed (`%v`). -/
def described {E : Type} (s : Sentinel) (format : String) (_ : E) : Err := .note format (.sentinel s)

/-! ## The runtime's sidecar tree -/

def secureRuntimeSidecarFile (parent : Inode) (name : String) : Fallible Err Unit := do
  let before ← attempt .foreign (lstat parent name)
  require (before.kind = .regular) (.text "path is not a real regular file")
  verifyCurrentUserOwns before
  let file ← attempt .foreign (openAt parent name)
  let opened ← attempt .foreign (fstat file)
  let current ← attempt .foreign (lstat parent name)
  require (current.kind = .regular ∧ sameFile before opened = true ∧ sameFile opened current = true)
    (.text "file identity changed while securing it")
  verifyCurrentUserOwns opened
  attempt .foreign (fchmod file 0o600)
  let final ← attempt .foreign (fstat file)
  let current ← attempt .foreign (lstat parent name)
  require (current.kind = .regular ∧ sameFile opened final = true ∧ sameFile final current = true)
    (.text "file identity changed while securing it")
  verifyCurrentUserOwns final
  require (final.perm = 0o600) (.text "permissions are %04o, want 0600")

/-- Do the same for each of some names, stopping at the first error. -/
def forEach (names : List String) (body : String → Fallible Err Unit) : Fallible Err Unit :=
  match names with
  | [] => pure ()
  | name :: names => do
    body name
    forEach names body

/-- What the walk does at one entry: secure it, and say whether to go into it. -/
def secureSidecar (parent : Inode) (name : String) (info : Info) : Fallible Err (Option Inode) :=
  match info.kind with
  | .symlink => throw (.note "%w: runtime sidecar %q is a symbolic link" (.sentinel .unexpectedStateResidue))
  | .directory => do
    let dir ← wrapErr (described .unexpectedStateResidue "%w: secure runtime sidecar directory %q: %v")
      (secureEncryptedStateDirectory parent name false)
    return some dir
  | .regular => do
    wrapErr (described .unexpectedStateResidue "%w: secure runtime sidecar file %q: %v")
      (secureRuntimeSidecarFile parent name)
    return none
  | .other =>
    throw (.note "%w: runtime sidecar %q is not a directory or regular file" (.sentinel .unexpectedStateResidue))

/-- `filepath.WalkDir`: an entry, and below a directory its entries in order. -/
def walkSidecar : Nat → Inode → String → Fallible Err Unit
  | 0, _, _ => throw (.text "sidecar tree is deeper than the walk")
  | depth + 1, parent, name => do
    let info ← attempt (described .unexpectedStateResidue "%w: inspect runtime sidecar %q: %v") (lstat parent name)
    match ← secureSidecar parent name info with
    | none => pure ()
    | some dir =>
      let names ← attempt (described .unexpectedStateResidue "%w: inspect runtime sidecar %q: %v") (readDir dir)
      forEach names (walkSidecar depth dir)

def secureRuntimeSidecarTree (depth : Nat) (parent : Inode) (name : String) : Fallible Err Unit := do
  let _ ← attempt (described .unexpectedStateResidue "%w: inspect runtime sidecar %q: %v") (lstat parent name)
  walkSidecar depth parent name

/-! ## The leftover of an interrupted commit -/

def removeVerifiedEncryptedStateTemp (dir : Inode) (entries : List String) : Fallible Err Unit :=
  if encryptedStateTempFileName ∉ entries then pure ()
  else do
    let info ← attempt (described .atomicPersistenceFailure "%w: inspect temporary envelope: %v")
      (lstat dir encryptedStateTempFileName)
    require (info.kind = .regular)
      (.note "%w: temporary envelope is not a regular file" (.sentinel .atomicPersistenceFailure))
    wrapErr (described .atomicPersistenceFailure "%w: verify temporary envelope owner: %v")
      (verifyCurrentUserOwns info)
    require (info.perm = 0o600)
      (.note "%w: temporary envelope permissions are %04o, want 0600" (.sentinel .atomicPersistenceFailure))
    attempt (described .atomicPersistenceFailure "%w: remove temporary envelope: %v")
      (removeAt dir encryptedStateTempFileName)
    wrapErr (described .atomicPersistenceFailure "%w: sync temporary-envelope removal: %v")
      (syncStateDirectory dir)

/-! ## Classification -/

structure Residue where
  encrypted : Bool := false
  legacy : Bool := false
  unexpected : Bool := false
  deriving DecidableEq, Repr

/-- One entry of the package's directory. -/
def Residue.add (r : Residue) (name : String) : Residue :=
  if name = encryptedStateFileName then { r with encrypted := true }
  else if name ∈ legacyStateFilenames ∨ name = legacyFileStoreFilename then { r with legacy := true }
  else if name = sidecarDirectory then r
  else { r with unexpected := true }

def classify (entries : List String) : Residue := entries.foldl Residue.add {}

/-- What the entries found make of the subtree. -/
def Residue.verdict (r : Residue) : Except Err Unit :=
  if r.encrypted && r.legacy then .error (.sentinel .conflictingStateFormats)
  else if r.legacy then .error (.sentinel .legacyStateUnsupported)
  else if !r.encrypted then .error (.sentinel .unexpectedStateResidue)
  else if r.unexpected then .error (.sentinel .unexpectedStateResidue)
  else .ok ()

/-! ## The inspection -/

/-- `os.Lstat` of a name inside an entry of a directory; an entry that is not a directory has none. -/
def lstatBelow (dir : Inode) (entry name : String) : Sys (Except Errno Info) :=
  sysCall fun d => match d.lookup dir entry with
    | none => (.error .notExist, d)
    | some i =>
      if (d.nodes i).kind ≠ .directory then (.error (.fault 20), d)
      else match d.lookup i name with
        | some j => (.ok (d.stat j), d)
        | none => (.error .notExist, d)

/-- Present, absent, or an error that is only described. -/
def presence (s : Sentinel) (format : String) : Except Errno Info → Except Err (Option Info)
  | .ok info => .ok (some info)
  | .error .notExist => .ok none
  | .error e => .error (described s format e)

/-- Does the sidecar directory, once secured, hold a legacy file? -/
def inspectSidecar (depth : Nat) (dir : Inode) (entries : List String) : Fallible Err Bool :=
  if sidecarDirectory ∉ entries then pure false
  else do
    wrapErr (described .unexpectedStateResidue "%w: secure runtime sidecar directory: %v")
      (secureRuntimeSidecarTree depth dir sidecarDirectory)
    let found ← ExceptT.mk do
      return presence .unexpectedStateResidue "%w: inspect legacy runtime state: %v"
        (← lstatBelow dir sidecarDirectory legacyFileStoreFilename)
    return found.isSome

def inspectEncryptedStateEnvelopeFile (root : Inode) : Fallible Err Unit := do
  let _ ← loadEncryptedStateEnvelope root ownedStateSubdirectory defaultEncryptedStateStoreLimits

/-- The entries of the package's directory once the leftover of a commit is gone. -/
def listWithoutTemp (dir : Inode) : Fallible Err (List String) := do
  let entries ← attempt (described .unexpectedStateResidue "%w: list package subtree: %v") (readDir dir)
  removeVerifiedEncryptedStateTemp dir entries
  if encryptedStateTempFileName ∈ entries then
    attempt (described .unexpectedStateResidue "%w: relist package subtree: %v") (readDir dir)
  else return entries

/-- The inspection of a subtree that is there. -/
def inspectSubtree (depth : Nat) (root : Inode) (info : Info) : Fallible Err PersistentStateLayout := do
  require (info.kind = .directory)
    (.note "%w: package subtree is not a real directory" (.sentinel .unexpectedStateResidue))
  let dir ← wrapErr (described .unexpectedStateResidue "%w: secure package subtree: %v")
    (secureEncryptedStateDirectory root ownedStateSubdirectory false)
  let entries ← listWithoutTemp dir
  let legacy ← inspectSidecar depth dir entries
  let residue := classify entries
  fromExcept ({ residue with legacy := residue.legacy || legacy } : Residue).verdict
  inspectEncryptedStateEnvelopeFile root
  return .encrypted

def inspectPersistentStateLayout (depth : Nat) (root : Inode) : Fallible Err PersistentStateLayout := do
  let marker ← ExceptT.mk do
    return presence .localResetIncomplete "%w: inspect reset marker: %v" (← lstat root stateResetMarkerFilename)
  require (marker = none) (.note "%w: marker %q is present" (.sentinel .localResetIncomplete))
  let subtree ← ExceptT.mk do
    return presence .unexpectedStateResidue "%w: inspect package subtree: %v" (← lstat root ownedStateSubdirectory)
  match subtree with
  | none => return .absent
  | some info => inspectSubtree depth root info

end TailscaleDart.Store
