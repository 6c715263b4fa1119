import TailscaleDart.Store.Layout

/-!
# Reset.Filesystem — the file system half of a local reset

A local reset forgets the node's identity: the key in Keybay and the package's subtree of the state root.
So that a crash between the two cannot leave one without the other unnoticed, a marker file is made durable
first and removed last. The functions here are the methods of `stateResetFilesystem`, which holds the root
directory open throughout; names are relative to that directory.

The configured path is an entry of the root's parent directory. The checks of its text (empty, relative,
the root of the file system) are left out, and so is a descriptor for which `os.NewFile` gives nil.
-/

namespace TailscaleDart.Reset

open Conc Durable Store

def stateResetMarkerTempFilename : String := ".tailscale-state.reset.tmp"
def stateResetMaximumDepth : Nat := 256

def stateResetMarkerPayload : List UInt8 :=
  JsonText.encodeUtf8 "\x7b\"format\":\"tailscale-dart-state-reset\",\"version\":1\x7d\n".toList

/-- The configured root as a path. -/
structure RootPath where
  parent : Inode
  name : String
  deriving DecidableEq, Repr

structure ResetFilesystem where
  baseRoot : RootPath
  root : Inode
  rootInfo : Info
  markerDurable : Bool
  closed : Bool

/-- Same device and inode. -/
def sameStateResetFile (left right : Info) : Bool := left.device = right.device && left.inode = right.inode

def errStateResetMarkerInvalid : Err := .sentinel .stateResetMarkerInvalid

/-- A failure under `ErrLocalResetIncomplete`. -/
def incomplete (format : String) (err : Err) : Err := .wrap format (.sentinel .localResetIncomplete) err

/-- The descriptor is closed before an error is returned, and what the close reports is dropped. -/
def closeOnError {α : Type} (file : Inode) (x : Fallible Err α) : Fallible Err α := ExceptT.mk do
  match ← x.run with
  | .error err =>
    let _ ← close file
    return .error err
  | .ok a => return .ok a

/-- Present, absent, or an error. -/
def lstatAt (dir : Inode) (name : String) : Fallible Err (Option Info) := ExceptT.mk do
  match ← lstat dir name with
  | .ok info => return .ok (some info)
  | .error .notExist => return .ok none
  | .error e => return .error (.foreign e)

/-! ## The root -/

def verifyRootPath (baseRoot : RootPath) (rootInfo : Info) : Fallible Err Unit := do
  let current ← attempt (noted "revalidate configured reset root: %w") (lstat baseRoot.parent baseRoot.name)
  require (current.kind = .directory) (.text "configured reset root is no longer a real directory")
  require (sameStateResetFile rootInfo current = true) (.text "configured reset root was replaced")

/-- What `openStateResetFilesystem` checks of the directory it opened. -/
def verifyRoot (baseRoot : RootPath) (expectedRoot : Info) (root : Inode) : Fallible Err ResetFilesystem := do
  let rootInfo ← attempt (noted "stat reset root: %w") (fstat root)
  require (rootInfo.kind = .directory) (.text "reset root is not a directory")
  require (sameStateResetFile expectedRoot rootInfo = true) (.text "reset root does not match the configured root")
  wrapErr (.note "verify reset root owner: %w") (verifyCurrentUserOwns rootInfo)
  require (rootInfo.perm = 0o700) (.text "reset root permissions are %04o, want 0700")
  verifyRootPath baseRoot rootInfo
  return { baseRoot := baseRoot, root := root, rootInfo := rootInfo, markerDurable := false, closed := false }

def openStateResetFilesystem (baseRoot : RootPath) (expectedRoot : Info) : Fallible Err ResetFilesystem := do
  let root ← attempt (noted "open reset root: %w") (openDirectory baseRoot.parent baseRoot.name)
  ExceptT.mk do
    match ← (verifyRoot baseRoot expectedRoot root).run with
    | .ok r => return .ok r
    | .error err =>
      match ← close root with
      | .ok () => return .error err
      | .error e => return .error (join err (noted "close reset root: %w" e))

def ResetFilesystem.usable (r : ResetFilesystem) : Fallible Err Unit :=
  require (r.closed = false) (.text "reset filesystem is closed")

/-- `Close`: closing twice is no error, and a failed close is not tried again. -/
def ResetFilesystem.closeRoot (r : ResetFilesystem) : Fallible Err Unit :=
  if r.closed then pure () else attempt .foreign (close r.root)

/-! ## The marker -/

/-- Is what was opened at the marker's name the private file found there, of the right size? -/
def markerFileValid (pathInfo opened : Info) : Bool :=
  opened.kind = .regular && sameStateResetFile pathInfo opened && opened.owned && opened.perm = 0o600 &&
    opened.size = stateResetMarkerPayload.length

/-- The marker's content, and its identity once more. -/
def verifyMarkerContent (root file : Inode) (opened : Info) (syncFile : Bool) : Fallible Err Bool := do
  let payload ← attempt .foreign (readAll file (stateResetMarkerPayload.length + 1))
  if payload ≠ stateResetMarkerPayload then return false
  else do
    doIf syncFile (attempt .foreign (fsync file))
    let current ← attempt .foreign (lstat root stateResetMarkerFilename)
    require (sameStateResetFile opened current = true) (.text "reset marker path was replaced")
    return true

/-- A symbolic link put in the marker's place is no marker. -/
def openMarker (root : Inode) : Fallible Err (Option Inode) := ExceptT.mk do
  match ← openNoFollow root stateResetMarkerFilename with
  | .ok file => return .ok (some file)
  | .error e => return if e = .fault eloop then .ok none else .error (.foreign e)

/-- Is the marker the exact file a reset writes? With `syncFile` its content is synced too. -/
def verifyMarker (root : Inode) (syncFile : Bool) : Fallible Err Bool := do
  match ← lstatAt root stateResetMarkerFilename with
  | none => return false
  | some pathInfo =>
    if pathInfo.kind ≠ .regular then return false
    else do
      match ← openMarker root with
      | none => return false
      | some file =>
        let opened ← attempt .foreign (fstat file)
        if markerFileValid pathInfo opened = false then return false
        else verifyMarkerContent root file opened syncFile

def removeStaleMarkerTemp (root : Inode) : Fallible Err Unit := do
  match ← lstatAt root stateResetMarkerTempFilename with
  | none => return ()
  | some info => do
    require (info.kind ≠ .directory) (.text "reset marker temp is a directory")
    attempt .foreign (unlinkAt root stateResetMarkerTempFilename)

/-- Fill the temporary marker and make its content durable. -/
def fillMarkerTemp (file : Inode) : Fallible Err Info := do
  let written ← attempt (noted "write reset marker temp: %w") (write file stateResetMarkerPayload)
  require (written = stateResetMarkerPayload.length) (.note "write reset marker temp: %w" (.text "short write"))
  attempt (noted "secure reset marker temp: %w") (fchmod file 0o600)
  let info ← attempt (noted "stat reset marker temp: %w") (fstat file)
  require (info.kind = .regular) (.text "reset marker temp is not a regular file")
  wrapErr (.note "verify reset marker temp owner: %w") (verifyCurrentUserOwns info)
  require (info.perm = 0o600) (.text "reset marker temp permissions are %04o, want 0600")
  attempt (noted "sync reset marker temp: %w") (fsync file)
  return info

/-- Put the temporary marker in the marker's place. -/
def renameMarkerTemp (root file : Inode) (info : Info) : Fallible Err Unit := do
  attempt (noted "close reset marker temp: %w") (close file)
  let currentTemp ← attempt (noted "revalidate reset marker temp: %w") (lstat root stateResetMarkerTempFilename)
  require (sameStateResetFile info currentTemp = true) (.text "reset marker temp path was replaced")
  attempt (noted "commit reset marker: %w") (renameAt root stateResetMarkerTempFilename stateResetMarkerFilename)

/-- What happens to the temporary marker once it exists. -/
def commitMarkerTemp (root file : Inode) : Fallible Err Unit := do
  let info ← closeOnError file (fillMarkerTemp file)
  renameMarkerTemp root file info

/-- The deferred removal runs unless the temporary marker was renamed. -/
def replaceMarker (root : Inode) : Fallible Err Unit := do
  wrapErr (.note "prepare reset marker temp: %w") (removeStaleMarkerTemp root)
  let file ← attempt (noted "create reset marker temp: %w") (openExcl root stateResetMarkerTempFilename 0o600)
  ExceptT.mk do
    match ← (commitMarkerTemp root file).run with
    | .error err =>
      let _ ← unlinkAt root stateResetMarkerTempFilename
      return .error err
    | .ok () => return .ok ()

def replaceAndCommitMarker (root : Inode) : Fallible Err Unit := do
  replaceMarker root
  let valid ← verifyMarker root true
  require (valid = true) errStateResetMarkerInvalid
  attempt .foreign (fsyncDir root)

def ResetFilesystem.ensureDurableMarker (r : ResetFilesystem) : Fallible Err ResetFilesystem := do
  r.usable
  verifyRootPath r.baseRoot r.rootInfo
  let valid ← wrapErr (.note "verify reset marker: %w") (verifyMarker r.root false)
  doIf (!valid) (replaceMarker r.root)
  let valid ← wrapErr (.note "verify reset marker before commit: %w") (verifyMarker r.root true)
  require (valid = true) (.note "%w: marker did not match after creation" errStateResetMarkerInvalid)
  attempt (noted "sync reset marker directory: %w") (fsyncDir r.root)
  verifyRootPath r.baseRoot r.rootInfo
  let valid ← wrapErr (.note "revalidate durable reset marker: %w") (verifyMarker r.root false)
  require (valid = true) (.note "%w: marker changed during commit" errStateResetMarkerInvalid)
  return { r with markerDurable := true }

/-! ## Removing the subtree -/

def openDirectoryAt (parent : Inode) (name : String) (expected : Info) : Fallible Err (Inode × Info) := do
  let dir ← attempt .foreign (openDirectory parent name)
  closeOnError dir do
    let opened ← attempt .foreign (fstat dir)
    require (opened.kind = .directory ∧ sameStateResetFile expected opened = true)
      (.text "state directory %q was replaced")
    return (dir, opened)

/-- `unlinkat` where an entry that is gone already is no error. -/
def unlinkPresent (dir : Inode) (name : String) : Fallible Err Unit := ExceptT.mk do
  match ← unlinkAt dir name with
  | .ok () => return .ok ()
  | .error .notExist => return .ok ()
  | .error e => return .error (.foreign e)

/-- One name of a listing; `removeContents` is the recursive call. -/
def removeEntry (removeContents : Inode → Fallible Err Unit) (rootDevice : Nat) (dir : Inode) (name : String) :
    Fallible Err Unit := do
  require (name ≠ "." ∧ name ≠ "..") (.text "invalid directory entry %q")
  match ← lstatAt dir name with
  | none => return ()
  | some info =>
    if info.kind ≠ .directory then unlinkPresent dir name
    else do
      let (child, opened) ← openDirectoryAt dir name info
      closeOnError child do
        require (opened.device = rootDevice) (.text "state child %q crosses a filesystem boundary")
        removeContents child
      attempt .foreign (close child)
      let current ← attempt .foreign (lstat dir name)
      require (sameStateResetFile opened current = true) (.text "state child %q was replaced")
      attempt .foreign (rmdirAt dir name)

/-- `removeDirectoryContents` with `room` levels left below `stateResetMaximumDepth`. The names are those of
all the batches read, so a read that fails after some batch is the second `readNames`. -/
def removeDirectoryContents (rootDevice : Nat) : Nat → Inode → Fallible Err Unit
  | 0, _ => throw (.text "package-owned state exceeds maximum reset depth %d")
  | room + 1, dir => do
    let names ← attempt .foreign (readNames dir)
    forEach names (removeEntry (removeDirectoryContents rootDevice room) rootDevice dir)
    let _ ← attempt .foreign (readNames dir)
    attempt .foreign (fsyncDir dir)

def removeOwnedStateSubtree (root : Inode) (rootInfo : Info) : Fallible Err Unit := do
  match ← lstatAt root ownedStateSubdirectory with
  | none => return ()
  | some info =>
    if info.kind ≠ .directory then attempt .foreign (unlinkAt root ownedStateSubdirectory)
    else do
      let (dir, opened) ← openDirectoryAt root ownedStateSubdirectory info
      require (opened.device = rootInfo.device) (.text "package-owned state crosses a filesystem boundary")
      removeDirectoryContents rootInfo.device stateResetMaximumDepth dir
      let current ← attempt (noted "revalidate package-owned state directory: %w")
        (lstat root ownedStateSubdirectory)
      require (sameStateResetFile opened current = true) (.text "package-owned state directory was replaced")
      attempt .foreign (rmdirAt root ownedStateSubdirectory)

/-! ## Completion -/

/-- The error returned when the marker is gone but its removal could not be confirmed. The marker is put
back where that is possible; `markerDurable` is true already. -/
def restoreMarkerAfterCompletionFailure (root : Inode) (context : String) (primary : Err) : Sys Err := do
  match ← (replaceAndCommitMarker root).run with
  | .error _ => return incomplete ("%w: " ++ context ++ ": %w; restore marker: %v") primary
  | .ok () => return incomplete ("%w: " ++ context ++ ": %w") primary

/-- A step after the removal of the marker. -/
def restoringMarker {α : Type} (root : Inode) (context : String) (x : Fallible Err α) : Fallible Err α :=
  ExceptT.mk do
    match ← x.run with
    | .ok a => return .ok a
    | .error err => return .error (← restoreMarkerAfterCompletionFailure root context err)

def ResetFilesystem.completeAfterCustodyDeletion (r : ResetFilesystem) : Fallible Err ResetFilesystem := do
  r.usable
  require (r.markerDurable = true) (.text "refuse local-state deletion without a durable reset marker")
  wrapErr (incomplete "%w: %w") (verifyRootPath r.baseRoot r.rootInfo)
  let valid ← wrapErr (incomplete "%w: verify reset marker: %w") (verifyMarker r.root false)
  require (valid = true) (incomplete "%w: %w" errStateResetMarkerInvalid)
  wrapErr (incomplete "%w: remove package-owned state: %w") (removeOwnedStateSubtree r.root r.rootInfo)
  attempt (fun e => incomplete "%w: sync package-state removal: %w" (.foreign e)) (fsyncDir r.root)
  wrapErr (incomplete "%w: %w") (verifyRootPath r.baseRoot r.rootInfo)
  let valid ← wrapErr (incomplete "%w: revalidate reset marker: %w") (verifyMarker r.root false)
  require (valid = true) (incomplete "%w: %w" errStateResetMarkerInvalid)
  attempt (fun e => incomplete "%w: remove reset marker: %w" (.foreign e)) (unlinkAt r.root stateResetMarkerFilename)
  restoringMarker r.root "sync reset completion" (attempt .foreign (fsyncDir r.root))
  restoringMarker r.root "revalidate configured root after reset" (verifyRootPath r.baseRoot r.rootInfo)
  let marker ← restoringMarker r.root "verify reset marker absence" (lstatAt r.root stateResetMarkerFilename)
  require (marker = none) (.note "%w: reset marker was recreated" (.sentinel .localResetIncomplete))
  return { r with markerDurable := false }

end TailscaleDart.Reset
