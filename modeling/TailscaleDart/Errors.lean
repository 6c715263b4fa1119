import Mathlib.Logic.Basic

/-!
# Errors — sentinels, wrapping, and `errors.Is`

The native half of the package classifies failures by SENTINEL: a package-level error
value that `errors.Is` finds anywhere in a wrapped error. An error here is a sentinel, a
value of a foreign package, a message made on the spot, or one or two errors wrapped under
a format (`fmt.Errorf` with `%w` verbs, `errors.Join`). A nil error is `none`.
-/

namespace TailscaleDart

/-- The sentinels of the package that a modelled function returns or tests. -/
inductive Sentinel where
  /-- Every bounded ServeConfig attempt lost its ETag race. -/
  | serveConfigConflict
  /-- A publication operation failed before its ServeConfig mutation could apply. -/
  | publicationNotApplied
  /-- SetServeConfig may have applied but its result was lost. -/
  | publicationCommitIndeterminate
  /-- The captured runtime is no longer the current one. -/
  | runtimeStale
  /-- Upstream has not yet reached Running, so the mandatory first-Up reset has not started. -/
  | dataPlaneNotReady
  /-- The one allowed Server.Up/reset failed. -/
  | publicationBootstrapFailure
  /-- The closed store, and the ways an encrypted store can be refused or fail to persist. -/
  | encryptedStateClosed
  | encryptedStateMissing
  | encryptedStateAlreadyExists
  | encryptedStateInvalidFormat
  | encryptedStateUnsupported
  | encryptedStateOversized
  | encryptedStatePathSecurity
  | encryptedStatePersistence
  | encryptedStateAuthentication
  /-- `ipn.ErrStateNotExist`: no value under that key. -/
  | stateNotExist
  /-- The keyless layout matrix: a reset to be resumed, residue without a recognised layout, legacy
  formats, and a leftover that could not be cleaned. -/
  | localResetIncomplete
  | unexpectedStateResidue
  | legacyStateUnsupported
  | conflictingStateFormats
  | atomicPersistenceFailure
  /-- The reset marker is not the exact file a reset writes. -/
  | stateResetMarkerInvalid
  /-- Another lifecycle transition holds the controller; a cleanup failed for good; the configured root
  is not the one that was configured. -/
  | lifecycleBusy
  | runtimeCleanupFailed
  | configurationMismatch
  /-- A quarantined token tried to go on; an upstream logout was not confirmed. -/
  | startupAbandoned
  | logoutIndeterminate
  /-- The runtime configuration in the store is not one this package writes. -/
  | runtimeConfigMetadataInvalid
  | runtimeConfigMetadataVersion
  /-- Envelope and key do not come together: the key of an envelope is missing, a key has no envelope; a key that
  was supplied has the wrong length. -/
  | missingStateDEK
  | orphanedStateDEK
  | invalidStateKey
  /-- The lease of a root is held, or its ownership has become uncertain. -/
  | stateLeaseBusy
  | stateLeasePoisoned
  deriving DecidableEq, Repr

/-- A non-nil Go error; `F` is the type of error values that come from other packages. -/
inductive GoError (F : Type) where
  | sentinel (s : Sentinel)
  | foreign (e : F)
  | text (message : String)
  | note (format : String) (inner : GoError F)
  | wrap (format : String) (outer inner : GoError F)
  deriving DecidableEq, Repr

namespace GoError

variable {F : Type}

/-- `errors.Is(err, sentinel)`: the sentinel occurs somewhere in the wrapped tree. -/
def is : GoError F → Sentinel → Bool
  | sentinel s, target => s == target
  | foreign _, _ => false
  | text _, _ => false
  | note _ inner, target => inner.is target
  | wrap _ outer inner, target => outer.is target || inner.is target

end GoError

end TailscaleDart
