import TailscaleDart.Durable.Blind
import TailscaleDart.Store.Inspection

/-!
# Store.Reinspection — the inspection gives the same answer twice

An inspection leaves the disk with other permission bits than it found, and without the leftover of a commit.
After the listing nothing in it depends on permission bits (`Blind`): what is read back has been set just before.
The one test of permission bits is that of the leftover, which fails in the same way again or has removed the
file.

Runs here are runs in which no call fails: a fault may well make a second answer differ.
-/

namespace TailscaleDart.Store

open Conc Durable Disk

/-! ## The parts that secure something -/

theorem secureEncryptedStateDirectory_blind (parent : Inode) (name : String) :
    Blind (secureEncryptedStateDirectory parent name false) := by
  apply Blind.of_ends
  intro d
  cases hi : d.lookup parent name with
  | none =>
    refine ⟨.error (.foreign .notExist), fun d' hd => ⟨d', ?_, .refl d'⟩⟩
    have hi' := (hd.lookup parent name).trans hi
    exact (Ends.pure ()).andThen ((Ends.lstat_absent hi').stop _)
  | some i =>
    have hlstat : ∀ {d'}, PermOnly d d' → Runs (attempt (ε := Err) .foreign (lstat parent name)) d' (d'.stat i) d' :=
      fun hd => .lstat ((hd.lookup parent name).trans hi)
    by_cases hlink : (d.nodes i).kind = .symlink
    · refine ⟨.error (.text "path is a symbolic link"), fun d' hd => ⟨d', ?_, PermOnly.refl d'⟩⟩
      refine (Ends.pure ()).andThen ((hlstat hd).ends.andThen (Ends.stop (Ends.refuse ?_) _))
      simp [stat, hd.kind, hlink]
    by_cases hkind : (d.nodes i).kind = .directory
    · by_cases howned : (d.nodes i).owned = true
      · refine ⟨.ok i, fun d' hd => ⟨_, ?_, permOnly_setPerm d' i 0o700⟩⟩
        exact secureEncryptedStateDirectory_runs ((hd.lookup parent name).trans hi) ((hd.kind i).trans hkind)
          ((hd.owned i).trans howned)
      · refine ⟨.error (.text "path is not owned by the current user"), fun d' hd => ⟨d', ?_, .refl d'⟩⟩
        refine (Ends.pure ()).andThen ((hlstat hd).ends.andThen ?_)
        refine (Runs.require ?_).ends.andThen ((Runs.require ?_).ends.andThen (Ends.stop (Ends.refuse ?_) _))
        · simpa [stat, hd.kind] using hlink
        · simpa [stat, hd.kind] using hkind
        · simpa [stat, hd.owned] using howned
    · refine ⟨.error (.text "path is not a directory"), fun d' hd => ⟨d', ?_, .refl d'⟩⟩
      refine (Ends.pure ()).andThen ((hlstat hd).ends.andThen ?_)
      refine (Runs.require ?_).ends.andThen (Ends.stop (Ends.refuse ?_) _)
      · simpa [stat, hd.kind] using hlink
      · simpa [stat, hd.kind] using hkind

theorem secureRuntimeSidecarFile_blind (parent : Inode) (name : String) :
    Blind (secureRuntimeSidecarFile parent name) := by
  apply Blind.of_ends
  intro d
  cases hi : d.lookup parent name with
  | none =>
    refine ⟨.error (.foreign .notExist), fun d' hd => ⟨d', ?_, .refl d'⟩⟩
    exact (Ends.lstat_absent ((hd.lookup parent name).trans hi)).stop _
  | some i =>
    have hlstat : ∀ {d'}, PermOnly d d' → Runs (attempt (ε := Err) .foreign (lstat parent name)) d' (d'.stat i) d' :=
      fun hd => .lstat ((hd.lookup parent name).trans hi)
    by_cases hkind : (d.nodes i).kind = .regular
    · by_cases howned : (d.nodes i).owned = true
      · refine ⟨.ok (), fun d' hd => ⟨_, ?_, permOnly_setPerm d' i 0o600⟩⟩
        exact secureRuntimeSidecarFile_runs ((hd.lookup parent name).trans hi) ((hd.kind i).trans hkind)
          ((hd.owned i).trans howned)
      · refine ⟨.error (.text "path is not owned by the current user"), fun d' hd => ⟨d', ?_, PermOnly.refl d'⟩⟩
        refine (hlstat hd).ends.andThen ((Runs.require ?_).ends.andThen (Ends.stop (Ends.refuse ?_) _))
        · simpa [stat, hd.kind] using hkind
        · simpa [stat, hd.owned] using howned
    · refine ⟨.error (.text "path is not a real regular file"), fun d' hd => ⟨d', ?_, PermOnly.refl d'⟩⟩
      refine (hlstat hd).ends.andThen (.stop (.refuse ?_) _)
      simpa [stat, hd.kind] using hkind

variable {d : Disk} {dir : Inode}

/-- With a private regular file at the path the read goes as far as the size check. -/
theorem readPrivateEncryptedStateFile_oversized {i : Inode} {maxBytes : Int}
    (hlookup : d.lookup dir encryptedStateFileName = some i) (hkind : (d.nodes i).kind = .regular)
    (howned : (d.nodes i).owned = true) (hsize : ¬ (d.nodes i).content.length ≤ maxBytes) :
    Ends (readPrivateEncryptedStateFile dir maxBytes) d (.error (oversized "raw envelope")) (d.setPerm i 0o600) := by
  obtain ⟨hlookup', hkind', howned', hbits⟩ := setPerm_private hlookup hkind howned
  have hcontent : ((d.setPerm i 0o600).nodes i).content = (d.nodes i).content :=
    (permOnly_setPerm d i 0o600).content i
  apply (Runs.lstat hlookup).ends.andThen
  apply (Runs.require (by simp [stat, hkind])).ends.andThen
  apply (Runs.require hkind).ends.andThen
  apply (Runs.wrapErr (verifyCurrentUserOwns_runs howned)).ends.andThen
  apply (Runs.openAt hlookup).ends.andThen
  apply (Runs.fstat i).ends.andThen
  apply (Runs.lstat hlookup).ends.andThen
  apply (Runs.require ⟨hkind, by simp [sameFile], by simp [sameFile]⟩).ends.andThen
  apply (Runs.fchmod i _).ends.andThen
  apply (Runs.fstat i).ends.andThen
  apply (Runs.lstat hlookup').ends.andThen
  apply (Runs.require ⟨hkind', by simp [sameFile, stat], by simp [sameFile]⟩).ends.andThen
  apply (Runs.wrapErr (verifyCurrentUserOwns_runs howned')).ends.andThen
  apply (Runs.require hbits).ends.andThen
  apply Ends.stop (.refuse _)
  simpa only [stat, hcontent] using hsize

variable {d' : Disk}

theorem stat_setPerm (hd : PermOnly d d') (i : Inode) (perm : Nat) :
    (d'.setPerm i perm).stat i = (d.setPerm i perm).stat i := by
  have hperm := (permOnly_setPerm d i perm).symm.trans (hd.trans (permOnly_setPerm d' i perm))
  have hsame : ((d'.setPerm i perm).nodes i).perm = ((d.setPerm i perm).stat i).perm := by
    simp only [stat, setPerm_file, if_pos]
  rw [hperm.stat i, hsame]

theorem readPrivateEncryptedStateFile_blind (dir : Inode) (maxBytes : Int) :
    Blind (readPrivateEncryptedStateFile dir maxBytes) := by
  apply Blind.of_ends
  intro d
  cases hi : d.lookup dir encryptedStateFileName with
  | none =>
    refine ⟨.error (.sentinel .encryptedStateMissing), fun d' hd => ⟨d', ?_, .refl d'⟩⟩
    exact (Ends.lstat_absent ((hd.lookup dir _).trans hi)).stop _
  | some i =>
    have hlstat : ∀ {d'} (wrap : Errno → Err), PermOnly d d' →
        Runs (attempt wrap (lstat dir encryptedStateFileName)) d' (d'.stat i) d' :=
      fun _ hd => .lstat ((hd.lookup dir _).trans hi)
    by_cases hlink : (d.nodes i).kind = .symlink
    · refine ⟨.error (.text "encrypted StateStore file is a symbolic link"), fun d' hd => ⟨d', ?_, .refl d'⟩⟩
      apply (hlstat _ hd).ends.andThen
      apply Ends.stop (.refuse _)
      simp [stat, hd.kind, hlink]
    by_cases hkind : (d.nodes i).kind = .regular
    · by_cases howned : (d.nodes i).owned = true
      · by_cases hsize : (d.nodes i).content.length ≤ maxBytes
        · refine ⟨.ok ((d.nodes i).content.take (wrapInt64 (maxBytes + 1)).toNat, (d.setPerm i 0o600).stat i),
            fun d' hd => ⟨_, ?_, permOnly_setPerm d' i 0o600⟩⟩
          rw [← hd.content, ← stat_setPerm hd]
          rw [← hd.content] at hsize
          exact readPrivateEncryptedStateFile_runs ((hd.lookup dir _).trans hi) ((hd.kind i).trans hkind)
            ((hd.owned i).trans howned) hsize
        · refine ⟨.error (oversized "raw envelope"), fun d' hd => ⟨_, ?_, permOnly_setPerm d' i 0o600⟩⟩
          rw [← hd.content] at hsize
          exact readPrivateEncryptedStateFile_oversized ((hd.lookup dir _).trans hi) ((hd.kind i).trans hkind)
            ((hd.owned i).trans howned) hsize
      · refine ⟨.error (.note "verify encrypted StateStore owner: %w" (.text "path is not owned by the current user")),
          fun d' hd => ⟨d', ?_, .refl d'⟩⟩
        apply (hlstat _ hd).ends.andThen
        apply (Runs.require (by simpa [stat, hd.kind] using hlink)).ends.andThen
        apply (Runs.require (by simpa [stat, hd.kind] using hkind)).ends.andThen
        apply Ends.stop (.wrapErr (.refuse (by simpa [stat, hd.owned] using howned)))
    · refine ⟨.error (.text "encrypted StateStore path is not a regular file"), fun d' hd => ⟨d', ?_, .refl d'⟩⟩
      apply (hlstat _ hd).ends.andThen
      apply (Runs.require (by simpa [stat, hd.kind] using hlink)).ends.andThen
      apply Ends.stop (Ends.refuse _)
      simpa [stat, hd.kind] using hkind

theorem inspectEncryptedStateEnvelopeFile_blind (root : Inode) : Blind (inspectEncryptedStateEnvelopeFile root) := by
  apply Blind.andThen _ fun _ => .pure ()
  apply Blind.andThen (.require _ _)
  intro _
  apply Blind.andThen (secureEncryptedStateDirectory_blind _ _).wrapErr
  intro dir
  apply Blind.andThen (readPrivateEncryptedStateFile_blind dir _).wrapErr
  intro read
  exact .andThen (.fromExcept _) fun _ => .pure _

/-! ## The sidecar -/

theorem forEach_blind {body : String → Fallible Err Unit} (hbody : ∀ name, Blind (body name)) (names : List String) :
    Blind (forEach names body) := by
  induction names with
  | nil => exact .pure ()
  | cons name names ih => exact .andThen (hbody name) fun _ => ih

theorem secureSidecar_blind (parent : Inode) (name : String) (info : Info) :
    Blind (secureSidecar parent name info) := by
  unfold secureSidecar
  split
  · exact .fromExcept (.error _)
  · exact .andThen (secureEncryptedStateDirectory_blind parent name).wrapErr fun _ => .pure _
  · exact .andThen (secureRuntimeSidecarFile_blind parent name).wrapErr fun _ => .pure _
  · exact .fromExcept (.error _)

theorem walkSidecar_blind (n : Nat) : ∀ (parent : Inode) (name : String), Blind (walkSidecar n parent name) := by
  induction n with
  | zero => exact fun _ _ => .fromExcept (.error _)
  | succ n ih =>
    intro parent name
    apply Blind.lstat
    · intro info perm
      rfl
    · intro info
      apply Blind.andThen (secureSidecar_blind parent name info)
      intro found
      cases found with
      | none => exact .pure ()
      | some dir => exact .andThen (.readDir dir) fun names => forEach_blind (ih dir) names

/-- Whether a legacy file is in the sidecar does not depend on permission bits. -/
theorem legacyPresence_blind (dir : Inode) : Blind (do
    let found ← ExceptT.mk do
      return presence .unexpectedStateResidue "%w: inspect legacy runtime state: %v"
        (← lstatBelow dir sidecarDirectory legacyFileStoreFilename)
    return found.isSome : Fallible Err Bool) := by
  apply Blind.of_ends
  intro d
  -- What the call reports of a disk like this one, and the program made of it.
  have hends : ∀ {d' : Disk} (r : Except Errno Info),
      (lstatBelow dir sidecarDirectory legacyFileStoreFilename).always {} d' = some (r, d') → Ends (do
        let found ← ExceptT.mk do
          return presence .unexpectedStateResidue "%w: inspect legacy runtime state: %v"
            (← lstatBelow dir sidecarDirectory legacyFileStoreFilename)
        return found.isSome : Fallible Err Bool) d'
        ((presence .unexpectedStateResidue "%w: inspect legacy runtime state: %v" r).map Option.isSome) d' := by
    intro d' r hcall
    have hresult := Ends.result hcall (presence .unexpectedStateResidue "%w: inspect legacy runtime state: %v")
    cases hfound : presence .unexpectedStateResidue "%w: inspect legacy runtime state: %v" r with
    | ok found => exact (hfound ▸ hresult).andThen (Ends.pure _)
    | error err => exact Ends.stop (hfound ▸ hresult) _
  cases hi : d.lookup dir sidecarDirectory with
  | none =>
    refine ⟨.ok false, fun d' hd => ⟨d', hends (.error .notExist) ?_, PermOnly.refl d'⟩⟩
    simp only [lstatBelow, always_sysCall, hd.lookup, hi]
  | some i =>
    by_cases hkind : (d.nodes i).kind = .directory
    · cases hj : d.lookup i legacyFileStoreFilename with
      | none =>
        refine ⟨.ok false, fun d' hd => ⟨d', hends (.error .notExist) ?_, PermOnly.refl d'⟩⟩
        simp [lstatBelow, always_sysCall, hd.lookup, hd.kind, hi, hkind, hj]
      | some j =>
        refine ⟨.ok true, fun d' hd => ⟨d', hends (.ok (d'.stat j)) ?_, PermOnly.refl d'⟩⟩
        simp [lstatBelow, always_sysCall, hd.lookup, hd.kind, hi, hkind, hj]
    · refine ⟨.error (described .unexpectedStateResidue "%w: inspect legacy runtime state: %v" (Errno.fault 20)),
        fun d' hd => ⟨d', hends (.error (.fault 20)) ?_, PermOnly.refl d'⟩⟩
      simp [lstatBelow, always_sysCall, hd.lookup, hd.kind, hi, hkind]

theorem inspectSidecar_blind (depth : Nat) (dir : Inode) (entries : List String) :
    Blind (inspectSidecar depth dir entries) := by
  unfold inspectSidecar
  split
  · exact Blind.pure false
  · apply Blind.andThen
    · apply Blind.wrapErr
      exact Blind.lstat (fun _ _ => rfl) fun _ => walkSidecar_blind depth dir sidecarDirectory
    · intro _
      exact legacyPresence_blind dir

/-- What the inspection does with the entries it found. -/
def inspectEntries (depth : Nat) (root dir : Inode) (entries : List String) : Fallible Err PersistentStateLayout := do
  let legacy ← inspectSidecar depth dir entries
  let residue := classify entries
  fromExcept ({ residue with legacy := residue.legacy || legacy } : Residue).verdict
  inspectEncryptedStateEnvelopeFile root
  return .encrypted

theorem inspectEntries_blind (depth : Nat) (root dir : Inode) (entries : List String) :
    Blind (inspectEntries depth root dir entries) := by
  apply Blind.andThen (inspectSidecar_blind depth dir entries)
  intro legacy
  apply Blind.andThen (Blind.fromExcept _)
  intro _
  exact Blind.andThen (inspectEncryptedStateEnvelopeFile_blind root) fun _ => Blind.pure _

/-! ## The leftover and the whole -/

/-- A leftover that is not private is refused, in the same way on every disk where it looks the same. -/
theorem listWithoutTemp_refuses {t : Inode} (ht : d.lookup dir encryptedStateTempFileName = some t)
    (hprivate : ¬ Private (d.nodes t).toFile) :
    ∃ err, ∀ d', PermOnly d d' → ((d.nodes t).kind = .regular → (d'.nodes t).perm = (d.nodes t).perm) →
      Ends (listWithoutTemp dir) d' (.error err) d' := by
  -- The listing finds the leftover, and what is left to say is how its checks end.
  have hlist : ∀ {d' : Disk} {err : Err}, PermOnly d d' →
      Ends (removeVerifiedEncryptedStateTemp dir (d'.names dir)) d' (.error err) d' →
      Ends (listWithoutTemp dir) d' (.error err) d' :=
    fun _ hends => (Runs.readDir dir).ends.andThen (hends.stop _)
  have hmem : ∀ {d' : Disk}, PermOnly d d' →
      encryptedStateTempFileName ∈ d'.names dir := by
    intro d' hd
    rw [mem_names, hd.lookup, ht]
    rfl
  have hlstat : ∀ {d' : Disk} (wrap : Errno → Err), PermOnly d d' →
      Runs (attempt wrap (lstat dir encryptedStateTempFileName)) d' (d'.stat t) d' :=
    fun _ hd => Runs.lstat ((hd.lookup dir _).trans ht)
  by_cases hkind : (d.nodes t).kind = .regular
  · by_cases howned : (d.nodes t).owned = true
    · refine ⟨.note "%w: temporary envelope permissions are %04o, want 0600" (.sentinel .atomicPersistenceFailure),
        fun d' hd hperm => hlist hd ?_⟩
      rw [removeVerifiedEncryptedStateTemp, if_neg (not_not_intro (hmem hd))]
      apply (hlstat _ hd).ends.andThen
      apply (Runs.require (by simpa [stat, hd.kind] using hkind)).ends.andThen
      apply (Runs.wrapErr (verifyCurrentUserOwns_runs (by simpa [stat, hd.owned] using howned))).ends.andThen
      apply Ends.stop (Ends.refuse _)
      simp only [stat, hperm hkind]
      exact fun hbits => hprivate ⟨hkind, howned, hbits⟩
    · refine ⟨.note "%w: verify temporary envelope owner: %v" (.sentinel .atomicPersistenceFailure),
        fun d' hd _ => hlist hd ?_⟩
      rw [removeVerifiedEncryptedStateTemp, if_neg (not_not_intro (hmem hd))]
      apply (hlstat _ hd).ends.andThen
      apply (Runs.require (by simpa [stat, hd.kind] using hkind)).ends.andThen
      exact Ends.stop (Ends.wrapErr (Ends.refuse (by simpa [stat, hd.owned] using howned))) _
  · refine ⟨.note "%w: temporary envelope is not a regular file" (.sentinel .atomicPersistenceFailure),
      fun d' hd _ => hlist hd ?_⟩
    rw [removeVerifiedEncryptedStateTemp, if_neg (not_not_intro (hmem hd))]
    apply (hlstat _ hd).ends.andThen
    apply Ends.stop (Ends.refuse _)
    simpa [stat, hd.kind] using hkind

theorem listWithoutTemp_absent (h : d.lookup dir encryptedStateTempFileName = none) :
    Ends (listWithoutTemp dir) d (.ok (d.names dir)) d := by
  have hnot : encryptedStateTempFileName ∉ d.names dir := by
    rw [mem_names, h]
    exact Bool.false_ne_true
  apply (Runs.readDir dir).ends.andThen
  rw [removeVerifiedEncryptedStateTemp, if_pos hnot, if_neg hnot]
  exact (Ends.pure ()).andThen (Ends.pure _)

variable {root : Inode}

variable {depth : Nat} {r : Except Err PersistentStateLayout}

/-- There the inspection secures the directory, lists it, and goes on with the entries. -/
theorem Subtree.inspect (h : Subtree root dir d)
    (hrest : Ends (listWithoutTemp dir >>= inspectEntries depth root dir) (d.setPerm dir 0o700) r d') :
    Ends (inspectPersistentStateLayout depth root) d r d' := by
  apply h.marker_runs.ends.andThen
  apply (Runs.require rfl).ends.andThen
  apply h.lookup_runs.ends.andThen
  apply (Runs.require h.kind).ends.andThen
  apply (Runs.wrapErr (secureEncryptedStateDirectory_runs h.lookup h.kind h.owned)).ends.andThen
  exact hrest

/-- Without a leftover, the answer on one disk is the answer on every disk like it. -/
theorem Subtree.inspect_alike {e : Disk}
    (h : Subtree root dir d') (hd : PermOnly d d') (hgone : d.lookup dir encryptedStateTempFileName = none)
    (hends : Ends (inspectEntries depth root dir (d.names dir)) d r e) :
    ∃ e', Ends (inspectPersistentStateLayout depth root) d' r e' := by
  have hd' : PermOnly d (d'.setPerm dir 0o700) := hd.trans (permOnly_setPerm d' dir 0o700)
  obtain ⟨r', e1, e2, hends1, hends2, -⟩ := inspectEntries_blind depth root dir _ d _ hd'
  obtain ⟨rfl, -⟩ := hends.unique hends1
  have hgone' : (d'.setPerm dir 0o700).lookup dir encryptedStateTempFileName = none := (hd'.lookup _ _).trans hgone
  rw [← hd'.names dir] at hends2
  exact ⟨e2, h.inspect ((listWithoutTemp_absent hgone').andThen hends2)⟩

/-- The three ways an inspection can end before it has looked into the package's directory; the disk is as it was. -/
theorem inspect_stops (depth : Nat) (hnot : ∀ dir, ¬ Subtree root dir d) :
    ∃ r, Ends (inspectPersistentStateLayout depth root) d r d := by
  have hlook : ∀ {found : Except Errno Info} {name : String} (g : Except Errno Info → Except Err (Option Info)),
      (lstat root name).always {} d = some (found, d) →
      Ends (ExceptT.mk do return g (← lstat root name)) d (g found) d :=
    fun g hcall => Ends.result hcall g
  cases hmarker : d.lookup root stateResetMarkerFilename with
  | some m =>
    have hcall : (lstat root stateResetMarkerFilename).always {} d = some (.ok (d.stat m), d) := by
      simp only [lstat, always_sysCall, hmarker]
    exact ⟨_, (hlook _ hcall).andThen (Ends.stop (Ends.refuse (by simp)) _)⟩
  | none =>
    have hcall : (lstat root stateResetMarkerFilename).always {} d = some (.error .notExist, d) := by
      simp only [lstat, always_sysCall, hmarker]
    cases hsubtree : d.lookup root ownedStateSubdirectory with
    | none =>
      have hcall' : (lstat root ownedStateSubdirectory).always {} d = some (.error .notExist, d) := by
        simp only [lstat, always_sysCall, hsubtree]
      refine ⟨.ok .absent, (hlook _ hcall).andThen ?_⟩
      apply (Runs.require rfl).ends.andThen
      exact (hlook _ hcall').andThen (Ends.pure _)
    | some dir =>
      have hcall' : (lstat root ownedStateSubdirectory).always {} d = some (.ok (d.stat dir), d) := by
        simp only [lstat, always_sysCall, hsubtree]
      by_cases hkind : (d.nodes dir).kind = .directory
      · have howned : ¬ (d.stat dir).owned = true := fun howned => hnot dir ⟨hmarker, hsubtree, hkind, howned⟩
        have hsecure : Ends (secureEncryptedStateDirectory root ownedStateSubdirectory false) d
            (.error (.text "path is not owned by the current user")) d := by
          apply (Ends.pure ()).andThen
          apply (Runs.lstat hsubtree).ends.andThen
          apply (Runs.require (by simp [stat, hkind])).ends.andThen
          apply (Runs.require hkind).ends.andThen
          exact Ends.stop (Ends.refuse howned) _
        refine ⟨.error (.note "%w: secure package subtree: %v" (.sentinel .unexpectedStateResidue)),
          (hlook _ hcall).andThen ?_⟩
        apply (Runs.require rfl).ends.andThen
        apply (hlook _ hcall').andThen
        exact (Runs.require hkind).ends.andThen (Ends.stop hsecure.wrapErr _)
      · refine ⟨.error (.note "%w: package subtree is not a real directory" (.sentinel .unexpectedStateResidue)),
          (hlook _ hcall).andThen ?_⟩
        apply (Runs.require rfl).ends.andThen
        exact (hlook _ hcall').andThen (Ends.stop (Ends.refuse hkind) _)

/-- With nothing changed from outside and no call failing, an inspection that is made again ends as it did. -/
theorem inspectPersistentStateLayout_again {d1 : Disk} (h : Ends (inspectPersistentStateLayout depth root) d r d1) :
    ∃ d2, Ends (inspectPersistentStateLayout depth root) d1 r d2 := by
  by_cases hsubtree : ∃ dir, Subtree root dir d
  · obtain ⟨dir, hdir⟩ := hsubtree
    have hperm := permOnly_setPerm d dir 0o700
    by_cases htemp : TempPrivate dir (d.setPerm dir 0o700)
    · -- The leftover is gone or was not there; the rest does not look at permission bits.
      obtain ⟨w, hlist, hw, hgone⟩ := listWithoutTemp_runs htemp
      have hdir' : Subtree root dir w := by
        rcases hw with rfl | rfl
        · exact hdir.permOnly hperm
        · exact (hdir.permOnly hperm).withoutTemp
      obtain ⟨r', e, -, hends, -, hpermw, -⟩ := inspectEntries_blind depth root dir _ w w (PermOnly.refl w)
      obtain ⟨rfl, rfl⟩ := h.unique (hdir.inspect (hlist.ends.andThen hends))
      exact (hdir'.permOnly hpermw).inspect_alike hpermw hgone hends
    · -- The leftover is refused, and is still there.
      obtain ⟨t, ht, hprivate⟩ : ∃ t, (d.setPerm dir 0o700).lookup dir encryptedStateTempFileName = some t ∧
          ¬ Private ((d.setPerm dir 0o700).nodes t).toFile := by
        simpa [TempPrivate] using htemp
      obtain ⟨err, hrefuses⟩ := listWithoutTemp_refuses ht hprivate
      obtain ⟨rfl, rfl⟩ := h.unique (hdir.inspect ((hrefuses _ (PermOnly.refl _) fun _ => rfl).stop _))
      have hagain := permOnly_setPerm (d.setPerm dir 0o700) dir 0o700
      refine ⟨_, (hdir.permOnly hperm).inspect ((hrefuses _ hagain fun hregular => ?_).stop _)⟩
      have hne : t ≠ dir := by
        rintro rfl
        rw [hperm.kind, hdir.kind] at hregular
        cases hregular
      rw [setPerm_file, if_neg hne]
  · obtain ⟨r', hstops⟩ := inspect_stops depth fun dir hdir => hsubtree ⟨dir, hdir⟩
    obtain ⟨rfl, rfl⟩ := h.unique hstops
    exact ⟨_, h⟩

end TailscaleDart.Store
