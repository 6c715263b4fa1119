import TailscaleDart.Store.Layout
import TailscaleDart.Store.Persist

/-!
# Store.Crash — a crash during a commit, and the next start

The next start inspects the layout and opens the store with the same key. `Valid` is what that needs of the
disk it finds (`inspectPersistentStateLayout_runs`, `OpensAt.store`): the store's file is a
private file that opens, the temporary file is absent or private, everything else in the package's directory
is valid. The stages of a commit (`Store.Persist`) leave exactly such disks behind, whatever the crash makes
of the directory entries and of content that was not synced.
-/

namespace TailscaleDart.Store

open Conc Durable Disk

/-! ## The parts of the next start, when no call fails -/

section Runs

variable {d : Disk} {parent dir i : Inode} {name : String}

theorem verifyCurrentUserOwns_runs {info : Info} (h : info.owned = true) :
    Runs (verifyCurrentUserOwns info) d () d := .require h

theorem secureEncryptedStateDirectory_runs (hlookup : d.lookup parent name = some i)
    (hkind : (d.nodes i).kind = .directory) (howned : (d.nodes i).owned = true) :
    Runs (secureEncryptedStateDirectory parent name false) d i (d.setPerm i 0o700) := by
  have hperm := permOnly_setPerm d i 0o700
  have hlookup' : (d.setPerm i 0o700).lookup parent name = some i := (hperm.lookup parent name).trans hlookup
  have hkind' : ((d.setPerm i 0o700).nodes i).kind = .directory := (hperm.kind i).trans hkind
  have howned' : ((d.setPerm i 0o700).nodes i).owned = true := (hperm.owned i).trans howned
  have hbits : ((d.setPerm i 0o700).nodes i).perm = 0o700 := by
    rw [setPerm_file, if_pos rfl]
  refine .bind (.pure ()) ?_
  refine .bind (.lstat hlookup) ?_
  refine .bind (.require (by simp [stat, hkind])) ?_
  refine .bind (.require hkind) ?_
  refine .bind (verifyCurrentUserOwns_runs howned) ?_
  refine .bind (.openAt hlookup) ?_
  refine .bind (.fstat i) ?_
  refine .bind (.lstat hlookup) ?_
  refine .bind (.require ⟨hkind, by simp [sameFile]⟩) ?_
  refine .bind (verifyCurrentUserOwns_runs howned) ?_
  refine .bind (.fchmod i _) ?_
  refine .bind (.lstat hlookup') ?_
  refine .bind (.require ⟨hkind', by simp [sameFile, stat]⟩) ?_
  refine .bind (verifyCurrentUserOwns_runs howned') ?_
  refine .bind (.require hbits) ?_
  exact .pure i

/-- What securing a private file needs, and what it leaves. -/
theorem setPerm_private (hlookup : d.lookup parent name = some i) (hkind : (d.nodes i).kind = .regular)
    (howned : (d.nodes i).owned = true) :
    (d.setPerm i 0o600).lookup parent name = some i ∧ ((d.setPerm i 0o600).nodes i).kind = .regular ∧
      ((d.setPerm i 0o600).nodes i).owned = true ∧ ((d.setPerm i 0o600).nodes i).perm = 0o600 := by
  have hperm := permOnly_setPerm d i 0o600
  refine ⟨(hperm.lookup parent name).trans hlookup, (hperm.kind i).trans hkind, (hperm.owned i).trans howned, ?_⟩
  rw [setPerm_file, if_pos rfl]

theorem secureRuntimeSidecarFile_runs (hlookup : d.lookup parent name = some i) (hkind : (d.nodes i).kind = .regular)
    (howned : (d.nodes i).owned = true) : Runs (secureRuntimeSidecarFile parent name) d () (d.setPerm i 0o600) := by
  obtain ⟨hlookup', hkind', howned', hbits⟩ := setPerm_private hlookup hkind howned
  refine .bind (.lstat hlookup) ?_
  refine .bind (.require hkind) ?_
  refine .bind (verifyCurrentUserOwns_runs howned) ?_
  refine .bind (.openAt hlookup) ?_
  refine .bind (.fstat i) ?_
  refine .bind (.lstat hlookup) ?_
  refine .bind (.require ⟨hkind, by simp [sameFile], by simp [sameFile]⟩) ?_
  refine .bind (verifyCurrentUserOwns_runs howned) ?_
  refine .bind (.fchmod i _) ?_
  refine .bind (.fstat i) ?_
  refine .bind (.lstat hlookup') ?_
  refine .bind (.require ⟨hkind', by simp [sameFile, stat], by simp [sameFile]⟩) ?_
  refine .bind (verifyCurrentUserOwns_runs howned') ?_
  exact .require hbits

/-- A file within the limit is read; the limit of the reader is one more, and nothing where that wraps around. -/
theorem readPrivateEncryptedStateFile_runs {maxBytes : Int} (hlookup : d.lookup dir encryptedStateFileName = some i)
    (hkind : (d.nodes i).kind = .regular) (howned : (d.nodes i).owned = true)
    (hsize : (d.nodes i).content.length ≤ maxBytes) : Runs (readPrivateEncryptedStateFile dir maxBytes) d
      ((d.nodes i).content.take (wrapInt64 (maxBytes + 1)).toNat, (d.setPerm i 0o600).stat i) (d.setPerm i 0o600) := by
  obtain ⟨hlookup', hkind', howned', hbits⟩ := setPerm_private hlookup hkind howned
  have hcontent : ((d.setPerm i 0o600).nodes i).content = (d.nodes i).content :=
    (permOnly_setPerm d i 0o600).content i
  have hshort : ((d.nodes i).content.take (wrapInt64 (maxBytes + 1)).toNat).length ≤ maxBytes :=
    Int.le_trans (by simp) hsize
  refine .bind (.lstat hlookup) ?_
  refine .bind (.require (by simp [stat, hkind])) ?_
  refine .bind (.require hkind) ?_
  refine .bind (.wrapErr (verifyCurrentUserOwns_runs howned)) ?_
  refine .bind (.openAt hlookup) ?_
  refine .bind (.fstat i) ?_
  refine .bind (.lstat hlookup) ?_
  refine .bind (.require ⟨hkind, by simp [sameFile], by simp [sameFile]⟩) ?_
  refine .bind (.fchmod i _) ?_
  refine .bind (.fstat i) ?_
  refine .bind (.lstat hlookup') ?_
  refine .bind (.require ⟨hkind', by simp [sameFile, stat], by simp [sameFile]⟩) ?_
  refine .bind (.wrapErr (verifyCurrentUserOwns_runs howned')) ?_
  refine .bind (.require hbits) ?_
  refine .bind (.require (by simpa only [stat, hcontent] using hsize)) ?_
  refine .bind (.attempt (congrArg (fun c : Bytes => (Except.ok (c.take _), _)) hcontent)) ?_
  refine .bind (.require hshort) ?_
  exact .pure _

end Runs

/-! ## The store's file -/

/-- A disk on which the store at a path opens to a map: its directory and its file are there, and the file's content
decrypts to the map. -/
structure OpensAt (box : SecretBox) (limits : Limits) (key : Key) (parent : Inode) (name : String) (dir : Inode)
    (state : StateMap) (d : Disk) : Prop where
  subtree : d.lookup parent name = some dir
  dirKind : (d.nodes dir).kind = .directory
  dirOwned : (d.nodes dir).owned = true
  file : ∃ i, d.lookup dir encryptedStateFileName = some i ∧ (d.nodes i).kind = .regular ∧ (d.nodes i).owned = true ∧
    openContents (F := Errno) box limits key (d.nodes i).content = .ok state

/-- The store of a state root, under the default limits. -/
abbrev Opens (box : SecretBox) (key : Key) (root dir : Inode) (state : StateMap) (d : Disk) : Prop :=
  OpensAt box defaultEncryptedStateStoreLimits key root ownedStateSubdirectory dir state d

section Opens

variable {box : SecretBox} {limits : Limits} {key : Key} {parent dir : Inode} {name : String} {state : StateMap}
  {d d' : Disk}

theorem OpensAt.permOnly (h : OpensAt box limits key parent name dir state d) (hperm : PermOnly d d') :
    OpensAt box limits key parent name dir state d' := by
  obtain ⟨i, hi, hkind, howned, hopen⟩ := h.file
  refine ⟨?_, ?_, ?_, i, ?_, ?_, ?_, ?_⟩
  · rw [hperm.lookup, h.subtree]
  · rw [hperm.kind, h.dirKind]
  · rw [hperm.owned, h.dirOwned]
  · rw [hperm.lookup, hi]
  · rw [hperm.kind, hkind]
  · rw [hperm.owned, howned]
  · rw [hperm.content, hopen]

/-- A content that opens is within the envelope limit and parses. -/
theorem parse_of_open {raw : Bytes} (h : openContents (F := Errno) box limits key raw = .ok state) :
    raw.length ≤ limits.maxEnvelopeBytes ∧ ∃ envelope,
      parseEncryptedStateEnvelope (F := Errno) raw limits = .ok envelope ∧
      openEnvelope (F := Errno) box limits key envelope = .ok state := by
  unfold openContents at h
  cases hparse : parseEncryptedStateEnvelope (F := Errno) raw limits with
  | error err =>
    rw [hparse] at h
    cases h
  | ok envelope =>
    rw [hparse] at h
    refine ⟨?_, envelope, rfl, h⟩
    unfold parseEncryptedStateEnvelope at hparse
    split at hparse
    case isTrue => cases hparse
    case isFalse hlength => exact Int.not_lt.mp hlength

theorem OpensAt.load (h : OpensAt box limits key parent name dir state d) (hvalid : limits.valid = true)
    (hmax : limits.maxEnvelopeBytes ≠ maxInt64) :
    ∃ envelope info d', Runs (loadEncryptedStateEnvelope parent name limits) d (dir, envelope, info) d' ∧
      PermOnly d d' ∧ openEnvelope (F := Errno) box limits key envelope = .ok state := by
  have hsecured := permOnly_setPerm d dir 0o700
  obtain ⟨i, hi, hkind, howned, hopen⟩ := (h.permOnly hsecured).file
  obtain ⟨hsize, envelope, hparse, henvelope⟩ := parse_of_open hopen
  have hshort : (((d.setPerm dir 0o700).nodes i).content.take (wrapInt64 (limits.maxEnvelopeBytes + 1)).toNat).length ≤
      limits.maxEnvelopeBytes := Int.le_trans (by simp) hsize
  have hwhole := take_limit limits.ints.1 hmax hshort
  refine ⟨envelope, ((d.setPerm dir 0o700).setPerm i 0o600).stat i, _, ?_,
    hsecured.trans (permOnly_setPerm _ i 0o600), henvelope⟩
  refine .bind (.require hvalid) ?_
  refine .bind (.wrapErr (secureEncryptedStateDirectory_runs h.subtree h.dirKind h.dirOwned)) ?_
  refine .bind (.wrapErr (readPrivateEncryptedStateFile_runs hi hkind howned hsize)) ?_
  refine .bind (.fromExcept (hwhole.symm ▸ hparse)) ?_
  exact .pure _

theorem OpensAt.store (h : OpensAt box limits key parent name dir state d) (hvalid : limits.valid = true)
    (hmax : limits.maxEnvelopeBytes ≠ maxInt64) :
    ∃ s d', Runs (openEncryptedStateStoreWithOptions box parent name key limits) d s d' ∧ PermOnly d d' ∧
      s.cache = state := by
  obtain ⟨envelope, info, d', hload, hperm, henvelope⟩ := h.load hvalid hmax
  let s : EncryptedStateStore :=
    { dir := dir, key := key, cache := state, fileInfo := some info, closed := false, limits := limits }
  refine ⟨s, d', ?_, hperm, rfl⟩
  refine .bind hload ?_
  refine .bind (.fromExcept henvelope) ?_
  exact .pure s

end Opens

/-! ## The sidecar tree -/

/-- A tree of owned directories and regular files, of this depth at most, that is durable as it stands and
does not come back to the package's directory. -/
inductive Sidecar (state : Inode) (d : Disk) : Nat → Inode → Prop
  | file {n : Nat} {i : Inode} (hbound : i < d.next) (hkind : (d.nodes i).kind = .regular)
      (howned : (d.nodes i).owned = true) : Sidecar state d (n + 1) i
  | dir {n : Nat} {i : Inode} (hbound : i < d.next) (hne : i ≠ state)
      (hkind : (d.nodes i).kind = .directory) (howned : (d.nodes i).owned = true)
      (hdurable : ∀ name, ∃ v, d.possible i name = [v])
      (hchild : ∀ name j, d.lookup i name = some j → Sidecar state d n j) : Sidecar state d (n + 1) i

section Sidecar

variable {state : Inode} {d d' : Disk} {n : Nat} {i : Inode}

/-- A tree survives whatever keeps its files and its entries. -/
theorem Sidecar.transfer (hnext : d.next ≤ d'.next) (hkind : ∀ j, j < d.next → (d'.nodes j).kind = (d.nodes j).kind)
    (howned : ∀ j, j < d.next → (d'.nodes j).owned = (d.nodes j).owned)
    (hentry : ∀ j name v, j < d.next → j ≠ state → d.possible j name = [v] → d'.possible j name = [v])
    (h : Sidecar state d n i) : Sidecar state d' n i := by
  induction h with
  | file hbound hk ho =>
    refine .file (Nat.lt_of_lt_of_le hbound hnext) ?_ ?_
    · rw [hkind _ hbound, hk]
    · rw [howned _ hbound, ho]
  | dir hbound hne hk ho hdurable hchild ih =>
    refine .dir (Nat.lt_of_lt_of_le hbound hnext) hne ?_ ?_ ?_ ?_
    · rw [hkind _ hbound, hk]
    · rw [howned _ hbound, ho]
    · intro name
      obtain ⟨v, hv⟩ := hdurable name
      exact ⟨v, hentry _ name v hbound hne hv⟩
    · intro name j hj
      obtain ⟨v, hv⟩ := hdurable name
      refine ih name j ?_
      rw [← hj]
      exact (lookup_of_possible ((hentry _ name v hbound hne hv).trans hv.symm)).symm

theorem Sidecar.permOnly (hperm : PermOnly d d') (h : Sidecar state d n i) : Sidecar state d' n i := by
  refine h.transfer (Nat.le_of_eq hperm.1.symm) (fun j _ => hperm.kind j) (fun j _ => hperm.owned j) ?_
  intro j name v _ _ hv
  rw [hperm.possible, hv]

/-- Running over names, each on a disk that differs from the first in permission bits only. -/
theorem forEach_runs {body : String → Fallible Err Unit} {d0 : Disk} (names : List String)
    (hbody : ∀ name ∈ names, ∀ d, PermOnly d0 d → ∃ d', Runs (body name) d () d' ∧ PermOnly d d') :
    ∀ d, PermOnly d0 d → ∃ d', Runs (forEach names body) d () d' ∧ PermOnly d d' := by
  induction names with
  | nil => exact fun d _ => ⟨d, .pure (), .refl d⟩
  | cons name names ih =>
    intro d hd
    obtain ⟨d1, hrun1, hperm1⟩ := hbody name (.head _) d hd
    obtain ⟨d2, hrun2, hperm2⟩ := ih (fun other hother => hbody other (.tail _ hother))
      d1 (hd.trans hperm1)
    exact ⟨d2, .bind hrun1 hrun2, hperm1.trans hperm2⟩

theorem walkSidecar_runs : ∀ (n : Nat) (parent : Inode) (name : String) (i : Inode) (d : Disk),
    Sidecar state d n i → d.lookup parent name = some i →
    ∃ d', Runs (walkSidecar n parent name) d () d' ∧ PermOnly d d' := by
  intro n
  induction n with
  | zero =>
    intro parent name i d h
    cases h
  | succ n ih =>
    intro parent name i d h hlookup
    cases h with
    | file hbound hkind howned =>
      refine ⟨_, ?_, permOnly_setPerm d i 0o600⟩
      refine .bind (.lstat hlookup) ?_
      have hsecure : Runs (secureSidecar parent name (d.stat i)) d none (d.setPerm i 0o600) := by
        simp only [secureSidecar, stat, hkind]
        exact .bind (.wrapErr (secureRuntimeSidecarFile_runs hlookup hkind howned)) (.pure none)
      exact .bind hsecure (.pure ())
    | dir hbound hne hkind howned hdurable hchild =>
      have hperm := permOnly_setPerm d i 0o700
      have hsecure : Runs (secureSidecar parent name (d.stat i)) d (some i) (d.setPerm i 0o700) := by
        simp only [secureSidecar, stat, hkind]
        exact .bind (.wrapErr (secureEncryptedStateDirectory_runs hlookup hkind howned)) (.pure _)
      obtain ⟨d', hrun, hperm'⟩ : ∃ d', Runs (forEach
          ((d.setPerm i 0o700).names i) (walkSidecar n i)) (d.setPerm i 0o700) () d' ∧
          PermOnly (d.setPerm i 0o700) d' := by
        refine forEach_runs _ ?_ _ (.refl _)
        intro child hmem d1 hd1
        obtain ⟨j, hj⟩ := Option.isSome_iff_exists.mp (mem_names.mp hmem)
        have hchild' := (hchild child j (by rw [← hperm.lookup, hj])).permOnly (hperm.trans hd1)
        exact ih i child j d1 hchild' (by rw [hd1.lookup, hj])
      refine ⟨d', ?_, hperm.trans hperm'⟩
      refine .bind (.lstat hlookup) ?_
      refine .bind hsecure ?_
      exact .bind (.readDir i) hrun

end Sidecar

/-! ## The layout -/

/-- What an inspection starts from when there is a directory of the package to look into. -/
structure Subtree (root dir : Inode) (d : Disk) : Prop where
  marker : d.lookup root stateResetMarkerFilename = none
  lookup : d.lookup root ownedStateSubdirectory = some dir
  kind : (d.nodes dir).kind = .directory
  owned : (d.nodes dir).owned = true

/-- A state root the inspection accepts, the temporary file apart. -/
structure Valid (box : SecretBox) (key : Key) (depth : Nat) (root dir : Inode) (state : StateMap) (d : Disk) :
    Prop where
  opens : Opens box key root dir state d
  marker : d.lookup root stateResetMarkerFilename = none
  sidecar : ∀ t, d.lookup dir sidecarDirectory = some t →
    (d.nodes t).kind = .directory ∧ Sidecar dir d depth t ∧ d.lookup t legacyFileStoreFilename = none
  others : ∀ name, name ≠ encryptedStateFileName → name ≠ encryptedStateTempFileName →
    name ≠ sidecarDirectory → d.lookup dir name = none

section Valid

variable {box : SecretBox} {key : Key} {depth : Nat} {root dir : Inode} {state : StateMap} {d d' : Disk}

theorem Valid.tree (h : Valid box key depth root dir state d) : Subtree root dir d :=
  ⟨h.marker, h.opens.subtree, h.opens.dirKind, h.opens.dirOwned⟩

theorem Subtree.permOnly (h : Subtree root dir d) (hd : PermOnly d d') : Subtree root dir d' :=
  ⟨(hd.lookup _ _).trans h.marker, (hd.lookup _ _).trans h.lookup, (hd.kind _).trans h.kind, (hd.owned _).trans h.owned⟩

theorem Subtree.marker_runs (h : Subtree root dir d) : Runs (ExceptT.mk do
    return presence .localResetIncomplete "%w: inspect reset marker: %v"
      (← lstat root stateResetMarkerFilename)) d none d := by
  refine .result (r := .error .notExist) ?_ rfl
  simp only [h.marker]

theorem Subtree.lookup_runs (h : Subtree root dir d) : Runs (ExceptT.mk do
    return presence .unexpectedStateResidue "%w: inspect package subtree: %v"
      (← lstat root ownedStateSubdirectory)) d (some (d.stat dir)) d := by
  refine .result (r := .ok (d.stat dir)) ?_ rfl
  simp only [h.lookup]

theorem Valid.permOnly (h : Valid box key depth root dir state d) (hperm : PermOnly d d') :
    Valid box key depth root dir state d' where
  opens := h.opens.permOnly hperm
  marker := (h.tree.permOnly hperm).marker
  sidecar := by
    intro t ht
    rw [hperm.lookup] at ht
    obtain ⟨hkind, htree, hlegacy⟩ := h.sidecar t ht
    refine ⟨?_, htree.permOnly hperm, ?_⟩
    · rw [hperm.kind, hkind]
    · rw [hperm.lookup, hlegacy]
  others := by
    intro name h1 h2 h3
    rw [hperm.lookup]
    exact h.others name h1 h2 h3

/-- The disk once the temporary file is gone. -/
def withoutTemp (dir : Inode) (d : Disk) : Disk :=
  (d.setEntry dir encryptedStateTempFileName none).syncEntries dir

theorem withoutTemp_lookup (j : Inode) (name : String) : (withoutTemp dir d).lookup j name =
      if j = dir ∧ name = encryptedStateTempFileName then none else d.lookup j name := by
  rw [withoutTemp, syncEntries_lookup, setEntry_lookup]

@[simp] theorem withoutTemp_file (j : Inode) : ((withoutTemp dir d).nodes j).toFile = (d.nodes j).toFile := by
  rw [withoutTemp, syncEntries_file, setEntry_file]

theorem withoutTemp_lookup_of_ne {name : String} (h : name ≠ encryptedStateTempFileName) (j : Inode) :
    (withoutTemp dir d).lookup j name = d.lookup j name := by
  rw [withoutTemp_lookup, if_neg fun hat => h hat.2]

theorem Subtree.withoutTemp (h : Subtree root dir d) : Subtree root dir (withoutTemp dir d) := by
  refine ⟨?_, ?_, ?_, ?_⟩
  · rw [withoutTemp_lookup_of_ne (by decide), h.marker]
  · rw [withoutTemp_lookup_of_ne (by decide), h.lookup]
  · rw [withoutTemp_file, h.kind]
  · rw [withoutTemp_file, h.owned]

theorem Valid.withoutTemp (h : Valid box key depth root dir state d) :
    Valid box key depth root dir state (withoutTemp dir d) := by
  obtain ⟨i, hi, hkind, howned, hopen⟩ := h.opens.file
  obtain ⟨hmarker, hlookup, hdirKind, hdirOwned⟩ := h.tree.withoutTemp
  refine ⟨⟨hlookup, hdirKind, hdirOwned, i, ?_, ?_, ?_, ?_⟩, hmarker, ?_, ?_⟩
  · rw [withoutTemp_lookup_of_ne (by decide), hi]
  · rw [withoutTemp_file, hkind]
  · rw [withoutTemp_file, howned]
  · rw [withoutTemp_file, hopen]
  · intro t ht
    rw [withoutTemp_lookup_of_ne (by decide)] at ht
    obtain ⟨hkind, htree, hlegacy⟩ := h.sidecar t ht
    refine ⟨?_, ?_, ?_⟩
    · rw [withoutTemp_file, hkind]
    · have hnext : d.next ≤ (Store.withoutTemp dir d).next := Nat.le_refl _
      refine htree.transfer hnext (fun j _ => by rw [withoutTemp_file]) (fun j _ => by rw [withoutTemp_file]) ?_
      intro j name v _ hj hv
      rw [Store.withoutTemp, syncEntries_possible, if_neg hj, setEntry_possible, if_neg fun hat => hj hat.1, hv]
    · rw [withoutTemp_lookup_of_ne (by decide), hlegacy]
  · intro name h1 h2 h3
    rw [withoutTemp_lookup_of_ne h2, h.others name h1 h2 h3]

theorem syncStateDirectory_runs (at_ : Inode) : Runs (syncStateDirectory at_) d () (d.syncEntries at_) := rfl

/-- The temporary file, if there is one, is private. -/
def TempPrivate (dir : Inode) (d : Disk) : Prop :=
  ∀ t, d.lookup dir encryptedStateTempFileName = some t → Private (d.nodes t).toFile

/-- The leftover of a commit is found, checked and removed. -/
theorem listWithoutTemp_runs (htemp : TempPrivate dir d) :
    ∃ d', Runs (listWithoutTemp dir) d (d'.names dir) d' ∧
      (d' = d ∨ d' = withoutTemp dir d) ∧ d'.lookup dir encryptedStateTempFileName = none := by
  cases hlookup : d.lookup dir encryptedStateTempFileName with
  | none =>
    have hnot : encryptedStateTempFileName ∉ d.names dir := by
      rw [mem_names, hlookup]
      exact nofun
    refine ⟨d, ?_, .inl rfl, hlookup⟩
    refine .bind (.readDir dir) ?_
    have hremove : removeVerifiedEncryptedStateTemp dir (d.names dir) = pure () :=
      if_pos hnot
    rw [hremove, if_neg hnot]
    exact .bind (.pure ()) (.pure _)
  | some t =>
    have hmem : encryptedStateTempFileName ∈ d.names dir := by
      rw [mem_names, hlookup]
      rfl
    have hprivate := htemp t hlookup
    refine ⟨withoutTemp dir d, ?_, .inr rfl, ?_⟩
    · refine .bind (.readDir dir) ?_
      have hremove : Runs (removeVerifiedEncryptedStateTemp dir (d.names dir)) d ()
          (withoutTemp dir d) := by
        rw [removeVerifiedEncryptedStateTemp, if_neg (not_not_intro hmem)]
        refine .bind (.lstat hlookup) ?_
        refine .bind (.require hprivate.kind) ?_
        refine .bind (.wrapErr (verifyCurrentUserOwns_runs hprivate.owned)) ?_
        refine .bind (.require hprivate.perm) ?_
        have hunlink : ¬ ((d.nodes t).kind = .directory ∧ (d.nodes t).entries.isEmpty = false) := by
          rw [hprivate.kind]
          rintro ⟨⟨⟩, -⟩
        refine .bind (.attempt (show _ = (Except.ok (), d.setEntry dir encryptedStateTempFileName none) from ?_)) ?_
        · simp only [hlookup, if_neg hunlink]
        · exact .wrapErr (syncStateDirectory_runs dir)
      rw [if_pos hmem]
      exact .bind hremove (.readDir dir)
    · rw [withoutTemp_lookup, if_pos ⟨rfl, rfl⟩]

theorem classify_store : ∀ (names : List String) (r : Residue),
    (∀ name ∈ names, name = encryptedStateFileName ∨ name = sidecarDirectory) →
    names.foldl Residue.add r = { r with encrypted := r.encrypted || decide (encryptedStateFileName ∈ names) } := by
  intro names
  induction names with
  | nil =>
    intro r _
    simp
  | cons name names ih =>
    intro r hnames
    have hrest := ih (r.add name) fun other hother => hnames other (.tail _ hother)
    rw [List.foldl_cons, hrest]
    rcases hnames name (.head _) with rfl | rfl
    · simp [Residue.add]
    · have hne : encryptedStateFileName ≠ sidecarDirectory := by decide
      have hadd : r.add sidecarDirectory = r := by
        unfold Residue.add
        rw [if_neg hne.symm, if_neg (by decide), if_pos rfl]
      simp [hadd, hne]

theorem Valid.names (h : Valid box key depth root dir state d)
    (hgone : d.lookup dir encryptedStateTempFileName = none) :
    ∀ name ∈ d.names dir, name = encryptedStateFileName ∨ name = sidecarDirectory := by
  intro name hname
  rw [mem_names] at hname
  by_cases h1 : name = encryptedStateFileName
  · exact .inl h1
  by_cases h3 : name = sidecarDirectory
  · exact .inr h3
  by_cases h2 : name = encryptedStateTempFileName
  · rw [h2, hgone] at hname
    cases hname
  · rw [h.others name h1 h2 h3] at hname
    cases hname

theorem inspectSidecar_runs (h : Valid box key depth root dir state d) :
    ∃ d', Runs (inspectSidecar depth dir (d.names dir)) d false d' ∧ PermOnly d d' := by
  cases ht : d.lookup dir sidecarDirectory with
  | none =>
    have hnot : sidecarDirectory ∉ d.names dir := by
      rw [mem_names, ht]
      exact nofun
    refine ⟨d, ?_, .refl _⟩
    rw [inspectSidecar, if_pos hnot]
    exact .pure false
  | some t =>
    have hmem : sidecarDirectory ∈ d.names dir := by
      rw [mem_names, ht]
      rfl
    obtain ⟨hkind, htree, hlegacy⟩ := h.sidecar t ht
    obtain ⟨d', hwalk, hperm⟩ := walkSidecar_runs depth dir sidecarDirectory t d htree ht
    refine ⟨d', ?_, hperm⟩
    rw [inspectSidecar, if_neg (not_not_intro hmem)]
    refine .bind (.wrapErr (.bind (.lstat ht) hwalk)) ?_
    have hbelow : Runs (ExceptT.mk do
        return presence .unexpectedStateResidue "%w: inspect legacy runtime state: %v"
          (← lstatBelow dir sidecarDirectory legacyFileStoreFilename)) d' none d' := by
      refine .result (r := .error .notExist) ?_ rfl
      simp [hperm.lookup, hperm.kind, ht, hkind, hlegacy]
    exact .bind hbelow (.pure false)

theorem inspectSubtree_runs (h : Valid box key depth root dir state d)
    (htemp : TempPrivate dir d) :
    ∃ d', Runs (inspectSubtree depth root (d.stat dir)) d .encrypted d' ∧
      Valid box key depth root dir state d' ∧ d'.lookup dir encryptedStateTempFileName = none := by
  have hsecured := permOnly_setPerm d dir 0o700
  -- the directory is not the temporary file, so securing it leaves that file private
  have htemp' : TempPrivate dir (d.setPerm dir 0o700) := by
    intro t ht
    rw [hsecured.lookup] at ht
    have hprivate := htemp t ht
    have hne : t ≠ dir := by
      rintro rfl
      have hboth := h.opens.dirKind.symm.trans hprivate.kind
      cases hboth
    rw [setPerm_file, if_neg hne]
    exact hprivate
  obtain ⟨d1, hlist, hd1, hgone⟩ := listWithoutTemp_runs htemp'
  have hvalid1 : Valid box key depth root dir state d1 := by
    rcases hd1 with rfl | rfl
    · exact h.permOnly hsecured
    · exact (h.permOnly hsecured).withoutTemp
  obtain ⟨i, hi, -⟩ := hvalid1.opens.file
  have hstore : encryptedStateFileName ∈ d1.names dir := by
    rw [mem_names, hi]
    rfl
  have hverdict : ({ classify (d1.names dir) with
      legacy := (classify (d1.names dir)).legacy || false } : Residue).verdict =
        .ok () := by
    rw [classify, classify_store _ _ (hvalid1.names hgone), decide_eq_true hstore]
    rfl
  obtain ⟨d2, hsidecar, hperm2⟩ := inspectSidecar_runs hvalid1
  have hvalid2 := hvalid1.permOnly hperm2
  obtain ⟨envelope, info, d3, hload, hperm3, -⟩ := hvalid2.opens.load rfl (by decide)
  refine ⟨d3, ?_, hvalid2.permOnly hperm3, ?_⟩
  · refine Runs.bind (Runs.require h.opens.dirKind) ?_
    refine Runs.bind (Runs.wrapErr (secureEncryptedStateDirectory_runs h.opens.subtree h.opens.dirKind
      h.opens.dirOwned)) ?_
    refine Runs.bind hlist (Runs.bind hsidecar (Runs.bind (Runs.fromExcept hverdict) ?_))
    exact Runs.bind (Runs.bind hload (Runs.pure ())) (Runs.pure _)
  · rw [hperm3.lookup, hperm2.lookup, hgone]

/-- The inspection accepts a valid root and removes the leftover of a commit. -/
theorem inspectPersistentStateLayout_runs (h : Valid box key depth root dir state d)
    (htemp : TempPrivate dir d) :
    ∃ d', Runs (inspectPersistentStateLayout depth root) d .encrypted d' ∧
      Valid box key depth root dir state d' ∧ d'.lookup dir encryptedStateTempFileName = none := by
  obtain ⟨d', hinspect, hd'⟩ := inspectSubtree_runs h htemp
  exact ⟨d', .bind h.tree.marker_runs (.bind (.require rfl) (.bind h.tree.lookup_runs hinspect)), hd'⟩

end Valid

/-! ## What a crash leaves -/

/-- A committed envelope: the root is valid, and everything but the temporary file is durable as it stands.
A leftover temporary file of an earlier commit is allowed. -/
structure Settled (box : SecretBox) (key : Key) (depth : Nat) (root dir : Inode) (state : StateMap) (d : Disk) :
    Prop where
  sound : d.Sound
  valid : Valid box key depth root dir state d
  rootEntries : ∀ name, name = stateResetMarkerFilename ∨ name = ownedStateSubdirectory →
    d.possible root name = [d.lookup root name]
  entries : ∀ name, name ≠ encryptedStateTempFileName → d.possible dir name = [d.lookup dir name]
  distinct : root ≠ dir
  stable : ∀ i, d.lookup dir encryptedStateFileName = some i → (d.nodes i).stable = true
  temp : ∀ t, some t ∈ d.possible dir encryptedStateTempFileName → Private (d.nodes t).toFile

section Survive

variable {box : SecretBox} {key : Key} {depth : Nat} {root dir : Inode} {state state' : StateMap}
  {nonce : Nonce} {d0 d d' : Disk}

variable {envelope : Bytes}

/-- What any stage of a commit has left alone. -/
theorem Progress.frame (h : Progress dir envelope d0 d) :
    d0.next ≤ d.next ∧ (∀ i, i ≠ d0.next → (d.nodes i).toFile = (d0.nodes i).toFile) ∧
    ∀ j name, j ≠ d0.next → ¬ (j = dir ∧ name ∈ [encryptedStateTempFileName, encryptedStateFileName]) →
      d.possible j name ⊆ d0.possible j name := by
  rcases h with rfl | h | h
  · exact ⟨Nat.le_refl _, fun _ _ => rfl, fun _ _ _ _ => List.Subset.refl _⟩
  · have hnames : [encryptedStateTempFileName] ⊆ [encryptedStateTempFileName, encryptedStateFileName] := by simp
    have hwide := h.frame.widen hnames
    exact ⟨Nat.le_of_lt (by rw [hwide.next]; exact Nat.lt_succ_self _), hwide.file, hwide.possible⟩
  · exact ⟨Nat.le_of_lt (by rw [h.frame.next]; exact Nat.lt_succ_self _), h.frame.file, h.frame.possible⟩

theorem Progress.temp (hstart : Settled box key depth root dir state d0) (h : Progress dir envelope d0 d) {t : Inode}
    (ht : some t ∈ d.possible dir encryptedStateTempFileName) : Private (d.nodes t).toFile := by
  have hcase : ∀ {names}, Frame dir names d0 d → TempOnly dir d0 d → Private (d.nodes t).toFile := by
    intro names hframe htemp
    by_cases hnew : t = d0.next
    · rw [hnew]
      exact hframe.fresh
    · rw [hframe.file t hnew]
      rcases htemp _ ht with hold | hnone | hsome
      · exact hstart.temp t hold
      · cases hnone
      · exact absurd (Option.some.inj hsome) hnew
  rcases h with rfl | h | h
  · exact hstart.temp t ht
  · exact hcase h.frame h.temp
  · exact hcase h.frame h.temp

/-- Whatever the store's name may stand for is a synced private file that opens to the old map or to the
new one. -/
theorem Progress.file (hstart : Settled box key depth root dir state d0)
    (hfits : Fits box defaultEncryptedStateStoreLimits key nonce state')
    (h : Progress dir (sealedContents box key nonce state') d0 d) {v : Option Inode}
    (hv : v ∈ d.possible dir encryptedStateFileName) :
    ∃ i, v = some i ∧ (d.nodes i).kind = .regular ∧ (d.nodes i).owned = true ∧ (d.nodes i).stable = true ∧
      ∃ m, (m = state ∨ m = state') ∧
        openContents (F := Errno) box defaultEncryptedStateStoreLimits key (d.nodes i).content = .ok m := by
  obtain ⟨i, hi, hkind, howned, hopen⟩ := hstart.valid.opens.file
  have hbound : i ≠ d0.next := Nat.ne_of_lt (hstart.sound _ _ i hi).2
  obtain ⟨-, hfile, hpossible⟩ := h.frame
  -- the file it stood for before
  have hold : v ∈ d0.possible dir encryptedStateFileName → ∃ i, v = some i ∧ (d.nodes i).kind = .regular ∧
      (d.nodes i).owned = true ∧ (d.nodes i).stable = true ∧ ∃ m, (m = state ∨ m = state') ∧
        openContents (F := Errno) box defaultEncryptedStateStoreLimits key (d.nodes i).content = .ok m := by
    intro hv
    rw [hstart.entries _ (by decide), hi, List.mem_singleton] at hv
    have hstable := hstart.stable i hi
    refine ⟨i, hv, ?_⟩
    rw [hfile i hbound]
    exact ⟨hkind, howned, hstable, state, .inl rfl, hopen⟩
  rcases h with rfl | h | h
  · exact hold hv
  · refine hold (h.frame.possible dir _ (Nat.ne_of_lt (hstart.sound _ _ i hi).1) ?_ hv)
    exact fun hmem => absurd hmem.2 (by decide)
  · rcases h.possible v hv with rfl | hv
    · refine ⟨d0.next, rfl, h.frame.fresh.kind, h.frame.fresh.owned, h.stable, state', .inr rfl, ?_⟩
      rw [h.content]
      exact open_sealedContents hfits
    · exact hold hv

/-- An entry that was durable before the commit is what it was after the crash. -/
theorem Progress.survives (h : Progress dir envelope d0 d) (hcrash : Crashed d d') {j : Inode}
    {name : String} {v : Option Inode} (hj : j < d0.next)
    (hname : ¬ (j = dir ∧ name ∈ [encryptedStateTempFileName, encryptedStateFileName]))
    (hv : d0.possible j name = [v]) : d'.possible j name = [v] := by
  obtain ⟨-, -, hpossible⟩ := h.frame
  obtain ⟨w, hw, heq⟩ := hcrash.possible j name
  have hmem := hpossible j name (Nat.ne_of_lt hj) hname hw
  rw [hv, List.mem_singleton] at hmem
  rw [heq, hmem]

/-- After a crash at any stage the root is valid, for the old map or for the new one. -/
theorem Progress.valid (hstart : Settled box key depth root dir state d0)
    (hfits : Fits box defaultEncryptedStateStoreLimits key nonce state')
    (h : Progress dir (sealedContents box key nonce state') d0 d) (hcrash : Crashed d d') :
    ∃ m, (m = state ∨ m = state') ∧ Valid box key depth root dir m d' := by
  obtain ⟨hroot, hdir⟩ := hstart.sound _ _ dir hstart.valid.opens.subtree
  obtain ⟨hnext, hfile, -⟩ := h.frame
  have hkeep : ∀ {j name v}, j < d0.next → ¬ (j = dir ∧ name ∈ [encryptedStateTempFileName, encryptedStateFileName]) →
      d0.possible j name = [v] → d'.lookup j name = v :=
    fun hj hname hv => (List.cons.inj (h.survives hcrash hj hname hv)).1
  have hkind : ∀ j, j < d0.next → (d'.nodes j).kind = (d0.nodes j).kind := by
    intro j hj
    rw [hcrash.kind, hfile j (Nat.ne_of_lt hj)]
  have howned : ∀ j, j < d0.next → (d'.nodes j).owned = (d0.nodes j).owned := by
    intro j hj
    rw [hcrash.owned, hfile j (Nat.ne_of_lt hj)]
  obtain ⟨i, hi, hikind, hiowned, histable, m, hm, hopen⟩ := h.file hstart hfits (hcrash.lookup_mem dir _)
  refine ⟨m, hm, ⟨?_, ?_, ?_, i, hi, ?_, ?_, ?_⟩, ?_, ?_, ?_⟩
  · rw [← hstart.valid.opens.subtree]
    exact hkeep hroot (fun hat => hstart.distinct hat.1) (hstart.rootEntries _ (.inr rfl))
  · rw [hkind dir hdir, hstart.valid.opens.dirKind]
  · rw [howned dir hdir, hstart.valid.opens.dirOwned]
  · rw [hcrash.kind, hikind]
  · rw [hcrash.owned, hiowned]
  · rw [hcrash.content i histable, hopen]
  · rw [← hstart.valid.marker]
    exact hkeep hroot (fun hat => hstart.distinct hat.1) (hstart.rootEntries _ (.inl rfl))
  · intro t ht
    rw [hkeep hdir (fun hat => absurd hat.2 (by decide)) (hstart.entries _ (by decide))] at ht
    obtain ⟨htkind, htree, hlegacy⟩ := hstart.valid.sidecar t ht
    have hbelow : t < d0.next ∧ t ≠ dir ∧ ∃ v, d0.possible t legacyFileStoreFilename = [v] := by
      cases htree with
      | file hbound hfilekind _ => exact absurd (htkind.symm.trans hfilekind) (by decide)
      | dir hbound hne _ _ hdurable _ => exact ⟨hbound, hne, hdurable _⟩
    obtain ⟨hbound, hne, v, hv⟩ := hbelow
    refine ⟨?_, ?_, ?_⟩
    · rw [hkind t hbound, htkind]
    · refine htree.transfer (hcrash.next ▸ hnext) hkind howned ?_
      intro j name w hj hjdir hw
      exact h.survives hcrash hj (fun hat => hjdir hat.1) hw
    · rw [hkeep hbound (fun hat => hne hat.1) hv, ← hlegacy]
      exact (List.cons.inj hv).1.symm
  · intro name h1 h2 h3
    rw [← hstart.valid.others name h1 h2 h3]
    refine hkeep hdir ?_ (hstart.entries name h2)
    rintro ⟨-, hmem⟩
    simp [h1, h2] at hmem

end Survive

/-! ## The next start -/

/-- What a start does with the state root before and after it has the key. -/
def recover (box : SecretBox) (depth : Nat) (root : Inode) (key : Key) :
    Fallible Err (PersistentStateLayout × EncryptedStateStore) := do
  let layout ← inspectPersistentStateLayout depth root
  let store ← openEncryptedStateStoreWithOptions box root ownedStateSubdirectory key defaultEncryptedStateStoreLimits
  return (layout, store)

/-- **A crash during a commit loses nothing.** From a committed envelope of `state`, stop the commit of
`state'` after any prefix of its steps, with any of them failing, and crash: the next start finds an encrypted
layout, opens exactly one of the two maps, and the temporary file is gone. -/
theorem crash_recovers (box : SecretBox) (depth : Nat) (root : Inode) (s : EncryptedStateStore)
    (state state' : StateMap) (nonce : Nonce) (answers : List Answer) (d0 d' : Disk)
    (hstart : Settled box s.key depth root s.dir state d0)
    (hfits : Fits box defaultEncryptedStateStoreLimits s.key nonce state')
    (hcrash : Crashed ((s.persistEnvelopeLocked (sealedContents box s.key nonce state') state').run.haltAfter
      answers d0) d') :
    ∃ store d'', Runs (recover box depth root s.key) d' (.encrypted, store) d'' ∧
      (store.cache = state ∨ store.cache = state') ∧ d''.lookup s.dir encryptedStateTempFileName = none := by
  obtain ⟨-, hdir⟩ := hstart.sound _ _ s.dir hstart.valid.opens.subtree
  have hsafe := s.persistEnvelopeLocked_safe (sealedContents box s.key nonce state') state' hstart.sound hdir
  have hprogress : Progress s.dir (sealedContents box s.key nonce state') d0
      ((s.persistEnvelopeLocked (sealedContents box s.key nonce state') state').run.haltAfter answers d0) :=
    hsafe.haltAfter (.inl rfl)
  obtain ⟨m, hm, hvalid⟩ := hprogress.valid hstart hfits hcrash
  have htemp : TempPrivate s.dir d' := by
    intro t ht
    have hmem := hcrash.lookup_mem s.dir encryptedStateTempFileName
    rw [ht] at hmem
    have hprivate := hprogress.temp hstart hmem
    exact ⟨(hcrash.kind t).trans hprivate.kind, (hcrash.owned t).trans hprivate.owned,
      (hcrash.perm t).trans hprivate.perm⟩
  obtain ⟨d1, hinspect, hvalid1, hgone⟩ := inspectPersistentStateLayout_runs hvalid htemp
  obtain ⟨store, d2, hopen, hperm, hcache⟩ := hvalid1.opens.store rfl (by decide)
  refine ⟨store, d2, Runs.bind hinspect (Runs.bind hopen (Runs.pure _)), ?_, ?_⟩
  · rw [hcache]
    exact hm
  · rw [hperm.lookup, hgone]

/-- A root with the committed envelope of the empty map. -/
def committedDisk (key : Key) (nonce : Nonce) : Disk :=
  ((emptyDisk.create 0 ownedStateSubdirectory { kind := .directory, owned := true, perm := 0o700 }).create 1
    encryptedStateFileName
    { kind := .regular, owned := true, perm := 0o600, content := sealedContents paddingBox key nonce ∅ }).settle

section Witness

variable (key : Key) (nonce : Nonce)

theorem committedDisk_root (name : String) :
    (committedDisk key nonce).lookup 0 name = if name = ownedStateSubdirectory then some 1 else none := by
  have hempty : emptyDisk.lookup 0 name = none := by simp [Disk.lookup, emptyDisk]
  have hinner := create_lookup emptyDisk 0 0 ownedStateSubdirectory name
    { kind := .directory, owned := true, perm := 0o700 } (by decide)
  rw [hempty] at hinner
  refine (create_lookup _ 1 0 _ name _ (show (0 : Inode) ≠ 2 by decide)).trans ?_
  rw [if_neg fun hat => absurd hat.1 (by decide), hinner]
  simp [emptyDisk]

theorem committedDisk_dir (name : String) :
    (committedDisk key nonce).lookup 1 name = if name = encryptedStateFileName then some 2 else none := by
  refine (create_lookup _ 1 1 _ name _ (show (1 : Inode) ≠ 2 by decide)).trans ?_
  have hnew : (emptyDisk.create 0 ownedStateSubdirectory
      { kind := .directory, owned := true, perm := 0o700 }).lookup 1 name = none := by
    simp [Disk.lookup, create, setEntry, update_nodes, emptyDisk]
  rw [hnew]
  by_cases hname : name = encryptedStateFileName
  · rw [if_pos ⟨rfl, hname⟩, if_pos hname]
    rfl
  · rw [if_neg fun hat => hname hat.2, if_neg hname]

theorem committedDisk_settled (hfits : Fits paddingBox defaultEncryptedStateStoreLimits key nonce ∅) :
    Settled paddingBox key 0 0 1 ∅ (committedDisk key nonce) := by
  have hfile : ((committedDisk key nonce).nodes 2).content = sealedContents paddingBox key nonce ∅ := rfl
  refine ⟨?_, ⟨⟨?_, rfl, rfl, 2, ?_, rfl, rfl, ?_⟩, ?_, ?_, ?_⟩, fun _ _ => rfl, fun _ _ => rfl, by decide,
    fun _ _ => rfl, ?_⟩
  · exact (emptyDisk_sound.create (by decide) rfl).create (by decide) rfl
  · rw [committedDisk_root, if_pos rfl]
  · rw [committedDisk_dir, if_pos rfl]
  · rw [hfile]
    exact open_sealedContents hfits
  · rw [committedDisk_root, if_neg (by decide)]
  · intro t ht
    rw [committedDisk_dir, if_neg (by decide)] at ht
    cases ht
  · intro name h1 _ _
    rw [committedDisk_dir, if_neg h1]
  · intro t ht
    have hnone : (committedDisk key nonce).lookup 1 encryptedStateTempFileName = none := by
      rw [committedDisk_dir, if_neg (by decide)]
    have hone : (committedDisk key nonce).possible 1 encryptedStateTempFileName = [none] :=
      congrArg (fun v => [v]) hnone
    rw [hone, List.mem_singleton] at ht
    cases ht

end Witness

/-- A store on that root. -/
def writer : EncryptedStateStore where
  dir := 1
  key := List.Vector.replicate _ 7
  cache := ∅
  fileInfo := some { inode := 2, kind := .regular, owned := true, perm := 0o600, size := 0, device := 0 }
  closed := false
  limits := defaultEncryptedStateStoreLimits

def oneKey : StateMap := (∅ : StateMap).insert "k" [1]

/-- The commit of one key, stopped in the middle of its write. -/
def tornCommit (nonce : Nonce) (d : Disk) : Disk :=
  (writer.persistEnvelopeLocked (sealedContents paddingBox writer.key nonce oneKey) oneKey).run.haltAfter
    (List.replicate 7 { count := 5 }) d

theorem crash_recovers_torn :
    ∃ store d'', Runs (recover paddingBox 0 0 writer.key)
        (tornCommit (List.Vector.replicate _ 9) (committedDisk writer.key (List.Vector.replicate _ 8))).settle
        (.encrypted, store) d'' ∧
      (store.cache = ∅ ∨ store.cache = oneKey) ∧ d''.lookup writer.dir encryptedStateTempFileName = none := by
  have hempty : Fits paddingBox defaultEncryptedStateStoreLimits writer.key (List.Vector.replicate _ 8) ∅ :=
    ⟨by decide +kernel, by decide +kernel, by decide +kernel⟩
  have hone : Fits paddingBox defaultEncryptedStateStoreLimits writer.key (List.Vector.replicate _ 9) oneKey :=
    ⟨by decide +kernel, by decide +kernel, by decide +kernel⟩
  exact crash_recovers paddingBox 0 0 writer ∅ oneKey (List.Vector.replicate _ 9) (List.replicate 7 { count := 5 })
    (committedDisk writer.key (List.Vector.replicate _ 8)) _ (committedDisk_settled _ _ hempty) hone
    (crashed_settle _)

end TailscaleDart.Store
