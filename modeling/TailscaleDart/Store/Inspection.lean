import TailscaleDart.Durable.Achieves
import TailscaleDart.Durable.Blind
import TailscaleDart.Store.Crash

/-!
# Store.Inspection — what the keyless inspection accepts, removes and repeats

`inspectPersistentStateLayout` runs before any key is read, on whatever is found under the state root.

* What it accepts: nothing at all, or a directory of the package with a well-formed envelope in it and at most
  the sidecar and the leftover of a commit beside it (`EncryptedLayout`). The sidecar is secured then.
* What it removes: the leftover of a commit, which was a private regular file, and nothing else (`Cleaned`),
  whichever calls fail.
* Asked again, with nothing changed from outside and no call failing, it gives the same answer.
-/

namespace TailscaleDart.Store

open Conc Durable Disk

/-! ## Securing -/

/-- The permission bits an inode of this kind is secured with. -/
def privatePerm : Kind → Nat
  | .directory => 0o700
  | _ => 0o600

/-- Some inodes were secured, and nothing else changed. -/
structure Secures (d d' : Disk) : Prop where
  only : PermOnly d d'
  perm : ∀ i, (d'.nodes i).perm = (d.nodes i).perm ∨ (d'.nodes i).perm = privatePerm (d.nodes i).kind

/-- A tree of the user's own directories and regular files, of this depth at most, all of them private. -/
inductive SecuredTree (d : Disk) : Nat → Inode → Prop
  | file {n : Nat} {i : Inode} (hprivate : Private (d.nodes i).toFile) : SecuredTree d (n + 1) i
  | dir {n : Nat} {i : Inode} (hkind : (d.nodes i).kind = .directory) (howned : (d.nodes i).owned = true)
      (hperm : (d.nodes i).perm = 0o700) (hchild : ∀ name j, d.lookup i name = some j → SecuredTree d n j) :
      SecuredTree d (n + 1) i

section Secures

variable {d d' d'' : Disk} {i : Inode} {n : Nat}

theorem Secures.refl (d : Disk) : Secures d d := ⟨.refl d, fun _ => .inl rfl⟩

theorem Secures.trans (h : Secures d d') (h' : Secures d' d'') : Secures d d'' := by
  refine ⟨h.only.trans h'.only, fun i => ?_⟩
  rcases h'.perm i with hsame | hset
  · rw [hsame]
    exact h.perm i
  · rw [hset, h.only.kind i]
    exact .inr rfl

theorem secures_setPerm {perm : Nat} (h : perm = privatePerm (d.nodes i).kind) : Secures d (d.setPerm i perm) := by
  refine ⟨permOnly_setPerm d i perm, fun j => ?_⟩
  rw [setPerm_file]
  split
  · next hj =>
    rw [hj, ← h]
    exact .inr rfl
  · exact .inl rfl

theorem Secures.keeps (h : Secures d d') (hi : (d.nodes i).perm = privatePerm (d.nodes i).kind) :
    (d'.nodes i).perm = privatePerm (d.nodes i).kind := by
  rcases h.perm i with hsame | hset
  · rw [hsame, hi]
  · exact hset

theorem SecuredTree.secures (h : SecuredTree d n i) (hd : Secures d d') : SecuredTree d' n i := by
  induction h with
  | file hprivate =>
    refine .file ⟨?_, ?_, ?_⟩
    · rw [hd.only.kind, hprivate.kind]
    · rw [hd.only.owned, hprivate.owned]
    · have hkept := hd.keeps (i := _) (by rw [hprivate.kind, hprivate.perm]; rfl)
      rw [hkept, hprivate.kind]
      rfl
  | dir hkind howned hperm _ ih =>
    refine .dir ?_ ?_ ?_ ?_
    · rw [hd.only.kind, hkind]
    · rw [hd.only.owned, howned]
    · have hkept := hd.keeps (i := _) (by rw [hkind, hperm]; rfl)
      rw [hkept, hkind]
      rfl
    · intro name j hj
      exact ih name j (by rw [← hd.only.lookup, hj])

end Secures

/-! ## The calls that secure something -/

/-- An invariant that does not look at permission bits. -/
def PermClosed (I : Disk → Prop) : Prop := ∀ d i perm, I d → I (d.setPerm i perm)

section Secure

variable {I : Disk → Prop} (hI : PermClosed I) {d : Disk}
include hI

theorem secureEncryptedStateDirectory_achieves (parent : Inode) (name : String) (hd : I d) :
    Achieves I (fun dir d' => d.lookup parent name = some dir ∧ (d.nodes dir).kind = .directory ∧
        (d.nodes dir).owned = true ∧ d' = d.setPerm dir 0o700) (secureEncryptedStateDirectory parent name false) d := by
  apply Achieves.look (x := doIf false _) (.pure _) hd
  intro _
  apply Achieves.lstat hd
  intro i hi
  apply Achieves.require hd
  intro _
  apply Achieves.require hd
  intro hkind
  apply Achieves.require hd
  intro howned
  apply Achieves.openAt hd
  intro dir hdir
  obtain rfl : i = dir := Option.some.inj (hi.symm.trans hdir)
  apply Achieves.look (fstat_neutral _).attempt hd
  intro opened
  apply Achieves.look (lstat_neutral _ _).attempt hd
  intro current
  apply Achieves.require hd
  intro _
  apply Achieves.require hd
  intro _
  have hset := hI d i 0o700 hd
  apply Achieves.fchmod hd hset
  apply Achieves.look (lstat_neutral _ _).attempt hset
  intro final
  apply Achieves.require hset
  intro _
  apply Achieves.require hset
  intro _
  apply Achieves.require hset
  intro _
  exact .pure hset ⟨hi, hkind, howned, rfl⟩

theorem secureRuntimeSidecarFile_achieves (parent : Inode) (name : String) (hd : I d) :
    Achieves I (fun _ d' => ∃ i, d.lookup parent name = some i ∧ (d.nodes i).kind = .regular ∧
        (d.nodes i).owned = true ∧ d' = d.setPerm i 0o600) (secureRuntimeSidecarFile parent name) d := by
  apply Achieves.lstat hd
  intro i hi
  apply Achieves.require hd
  intro hkind
  apply Achieves.require hd
  intro howned
  apply Achieves.openAt hd
  intro file hfile
  obtain rfl : i = file := Option.some.inj (hi.symm.trans hfile)
  apply Achieves.look (fstat_neutral _).attempt hd
  intro opened
  apply Achieves.look (lstat_neutral _ _).attempt hd
  intro current
  apply Achieves.require hd
  intro _
  apply Achieves.require hd
  intro _
  have hset := hI d i 0o600 hd
  apply Achieves.fchmod hd hset
  apply Achieves.look (fstat_neutral _).attempt hset
  intro final
  apply Achieves.look (lstat_neutral _ _).attempt hset
  intro current
  apply Achieves.require hset
  intro _
  apply Achieves.require hset
  intro _
  exact .requires hset fun _ => ⟨i, hi, hkind, howned, rfl⟩

/-- What is read is the whole content of a private regular file at the store's path. -/
theorem readPrivateEncryptedStateFile_achieves (dir : Inode) {maxBytes : Int} (hint : JsonText.IsInt64 maxBytes)
    (hmax : maxBytes ≠ maxInt64) (hd : I d) :
    Achieves I (fun r d' => ∃ i, d.lookup dir encryptedStateFileName = some i ∧ (d.nodes i).kind = .regular ∧
        (d.nodes i).owned = true ∧ r.1 = (d.nodes i).content ∧ d' = d.setPerm i 0o600)
      (readPrivateEncryptedStateFile dir maxBytes) d := by
  apply Achieves.lstat hd
  intro i hi
  apply Achieves.require hd
  intro _
  apply Achieves.require hd
  intro hkind
  refine .andThen (Q := fun _ d' => d' = d ∧ (d.nodes i).owned = true)
    (.wrapErr (.requires hd fun howned => ⟨rfl, howned⟩)) ?_
  rintro - d' - ⟨rfl, howned⟩
  apply Achieves.openAt hd
  intro file hfile
  obtain rfl : i = file := Option.some.inj (hi.symm.trans hfile)
  apply Achieves.look (fstat_neutral _).attempt hd
  intro opened
  apply Achieves.look (lstat_neutral _ _).attempt hd
  intro current
  apply Achieves.require hd
  intro _
  have hset := hI d' i 0o600 hd
  apply Achieves.fchmod hd hset
  apply Achieves.look (fstat_neutral _).attempt hset
  intro final
  apply Achieves.look (lstat_neutral _ _).attempt hset
  intro current
  apply Achieves.require hset
  intro _
  apply Achieves.look (Neutral.require _ _).wrapErr hset
  intro _
  apply Achieves.require hset
  intro _
  apply Achieves.require hset
  intro _
  apply Achieves.readAll hset
  apply Achieves.require hset
  intro hlength
  refine .pure hset ⟨i, hi, hkind, howned, ?_, rfl⟩
  rw [(permOnly_setPerm d' i 0o600).content i] at hlength ⊢
  exact take_limit hint hmax hlength

/-- The envelope at the path is well formed. -/
theorem inspectEncryptedStateEnvelopeFile_achieves (root : Inode) (hd : I d) :
    Achieves I (fun _ d' => Secures d d' ∧ ∃ dir i envelope, d.lookup root ownedStateSubdirectory = some dir ∧
        d.lookup dir encryptedStateFileName = some i ∧ (d.nodes i).kind = .regular ∧ (d.nodes i).owned = true ∧
        parseEncryptedStateEnvelope (F := Errno) (d.nodes i).content defaultEncryptedStateStoreLimits = .ok envelope)
      (inspectEncryptedStateEnvelopeFile root) d := by
  refine .andThen (Q := fun _ d' => Secures d d' ∧ ∃ dir i envelope,
    d.lookup root ownedStateSubdirectory = some dir ∧ d.lookup dir encryptedStateFileName = some i ∧
      (d.nodes i).kind = .regular ∧ (d.nodes i).owned = true ∧
      parseEncryptedStateEnvelope (F := Errno) (d.nodes i).content defaultEncryptedStateStoreLimits = .ok envelope) ?_
    fun _ d' hd' hmid => .pure hd' hmid
  apply Achieves.require hd
  intro _
  apply Achieves.andThen (.wrapErr (secureEncryptedStateDirectory_achieves hI _ _ hd))
  rintro dir d1 hd1 ⟨hdir, hkind, -, rfl⟩
  have hsecured : Secures d (d.setPerm dir 0o700) := secures_setPerm (by rw [hkind]; rfl)
  apply Achieves.andThen (.wrapErr (readPrivateEncryptedStateFile_achieves hI dir
    defaultEncryptedStateStoreLimits.ints.1 (by decide) hd1))
  rintro ⟨raw, info⟩ d2 hd2 ⟨i, hi, hfileKind, hfileOwned, hraw, rfl⟩
  obtain rfl : raw = _ := hraw
  apply Achieves.fromExcept hd2
  intro envelope hparse
  refine .pure hd2 ⟨hsecured.trans (secures_setPerm (by rw [hfileKind]; rfl)), dir, i, envelope, hdir, ?_, ?_, ?_, ?_⟩
  · rw [← hsecured.only.lookup, hi]
  · rw [← hsecured.only.kind, hfileKind]
  · rw [← hsecured.only.owned, hfileOwned]
  · rw [← hsecured.only.content, hparse]

/-! ## The sidecar -/

omit hI in
/-- Securing entry after entry. -/
theorem forEach_achieves {body : String → Fallible Err Unit} {dir : Inode} {n : Nat}
    (hbody : ∀ name d, I d → Achieves I (fun _ d' => Secures d d' ∧ ∀ i, d.lookup dir name = some i →
      SecuredTree d' n i) (body name) d) (names : List String) : ∀ d, I d → Achieves I
      (fun _ d' => Secures d d' ∧ ∀ name ∈ names, ∀ i, d.lookup dir name = some i → SecuredTree d' n i)
      (forEach names body) d := by
  induction names with
  | nil => exact fun d hd => .pure hd ⟨.refl d, nofun⟩
  | cons name names ih =>
    intro d hd
    apply Achieves.andThen (hbody name d hd)
    rintro - d1 hd1 ⟨hsecures1, hhead⟩
    refine (ih d1 hd1).weaken ?_
    rintro - d2 - ⟨hsecures2, htail⟩
    refine ⟨hsecures1.trans hsecures2, fun other hother i hi => ?_⟩
    rcases List.mem_cons.mp hother with rfl | hother
    · exact (hhead i hi).secures hsecures2
    · exact htail other hother i (by rw [hsecures1.only.lookup, hi])

/-- One entry of the walk: a file is private now, and a directory is to be gone into. -/
theorem secureSidecar_achieves {parent i : Inode} {name : String} (hi : d.lookup parent name = some i) (hd : I d) :
    Achieves I (fun r d' => Secures d d' ∧ ((r = none ∧ Private (d'.nodes i).toFile) ∨
          (r = some i ∧ (d'.nodes i).kind = .directory ∧ (d'.nodes i).owned = true ∧ (d'.nodes i).perm = 0o700)))
      (secureSidecar parent name (d.stat i)) d := by
  unfold secureSidecar
  split
  · exact .throw hd
  · refine .andThen (.wrapErr (secureEncryptedStateDirectory_achieves hI parent name hd)) ?_
    rintro dir d' hd' ⟨hdir, hkind, howned, rfl⟩
    obtain rfl : i = dir := Option.some.inj (hi.symm.trans hdir)
    refine .pure hd' ⟨secures_setPerm (by rw [hkind]; rfl), .inr ⟨rfl, ?_, ?_, ?_⟩⟩
    · rw [setPerm_file, if_pos rfl, hkind]
    · rw [setPerm_file, if_pos rfl, howned]
    · rw [setPerm_file, if_pos rfl]
  · refine .andThen (.wrapErr (secureRuntimeSidecarFile_achieves hI parent name hd)) ?_
    rintro - d' hd' ⟨file, hfile, hkind, howned, rfl⟩
    obtain rfl : i = file := Option.some.inj (hi.symm.trans hfile)
    obtain ⟨-, hkind', howned', hperm'⟩ := setPerm_private hi hkind howned
    exact .pure hd' ⟨secures_setPerm (by rw [hkind]; rfl), .inl ⟨rfl, hkind', howned', hperm'⟩⟩
  · exact .throw hd

theorem walkSidecar_achieves : ∀ (n : Nat) (parent : Inode) (name : String) (d : Disk), I d →
    Achieves I (fun _ d' => Secures d d' ∧ ∀ i, d.lookup parent name = some i → SecuredTree d' n i)
      (walkSidecar n parent name) d := by
  intro n
  induction n with
  | zero => exact fun _ _ _ hd => .throw hd
  | succ n ih =>
    intro parent name d hd
    apply Achieves.lstat hd
    intro i hi
    have hfound : ∀ {d' : Disk}, SecuredTree d' (n + 1) i → ∀ j, d.lookup parent name = some j →
        SecuredTree d' (n + 1) j := by
      intro d' htree j hj
      cases hi.symm.trans hj
      exact htree
    apply Achieves.andThen (secureSidecar_achieves hI hi hd)
    rintro r d1 hd1 ⟨hsecures, ⟨rfl, hprivate⟩ | ⟨rfl, hkind, howned, hperm⟩⟩
    · exact .pure hd1 ⟨hsecures, hfound (.file hprivate)⟩
    · refine .readDir hd1 ?_
      refine (forEach_achieves (fun child d hd => ih i child d hd) _ d1 hd1).weaken ?_
      rintro - d2 - ⟨hsecures2, hchildren⟩
      refine ⟨hsecures.trans hsecures2, hfound (.dir ?_ ?_ ?_ ?_)⟩
      · rw [hsecures2.only.kind, hkind]
      · rw [hsecures2.only.owned, howned]
      · rw [hsecures2.keeps (by rw [hkind, hperm]; rfl), hkind]
        rfl
      · intro child j hj
        rw [hsecures2.only.lookup] at hj
        exact hchildren child (mem_names.mpr (by rw [hj]; rfl)) j hj

/-- The sidecar, if there is one, is a directory whose tree is secured, with no legacy file in it unless the answer
says so. -/
theorem inspectSidecar_achieves (depth : Nat) (dir : Inode) (entries : List String) (hd : I d) :
    Achieves I (fun legacy d' => Secures d d' ∧ (sidecarDirectory ∈ entries → ∃ i,
        d.lookup dir sidecarDirectory = some i ∧ (d.nodes i).kind = .directory ∧ SecuredTree d' depth i ∧
        (legacy = false → d.lookup i legacyFileStoreFilename = none))) (inspectSidecar depth dir entries) d := by
  unfold inspectSidecar
  split
  · next hnot => exact .pure hd ⟨.refl d, fun hmem => absurd hmem hnot⟩
  · refine .andThen (Q := fun _ d' => Secures d d' ∧ ∃ i, d.lookup dir sidecarDirectory = some i ∧
      SecuredTree d' depth i) ?_ ?_
    · refine .wrapErr (.lstat hd fun i hi => ?_)
      refine (walkSidecar_achieves hI depth dir sidecarDirectory d hd).weaken ?_
      rintro - d' - ⟨hsecures, htree⟩
      exact ⟨hsecures, i, hi, htree i hi⟩
    · rintro - d1 hd1 ⟨hsecures, i, hi, htree⟩
      refine .andThen (Q := fun found d' => d' = d1 ∧ (d.nodes i).kind = .directory ∧
        (found = none → d.lookup i legacyFileStoreFilename = none)) ?_ ?_
      · apply Achieves.result hd1 (nofun)
        rw [hsecures.only.lookup, hi]
        dsimp only
        split
        · exact ⟨hd1, nofun⟩
        · next hkind =>
          have hdir : (d.nodes i).kind = .directory := (hsecures.only.kind i).symm.trans (not_not.mp hkind)
          rw [hsecures.only.lookup]
          cases hlegacy : d.lookup i legacyFileStoreFilename with
          | some j => exact ⟨hd1, fun b hb => by cases hb; exact ⟨rfl, hdir, nofun⟩⟩
          | none => exact ⟨hd1, fun b hb => ⟨rfl, hdir, fun _ => rfl⟩⟩
      · rintro found d' hd' ⟨rfl, hkind, habsent⟩
        refine .pure hd' ⟨hsecures, fun _ => ⟨i, hi, hkind, htree, fun hnone => habsent ?_⟩⟩
        exact Option.isNone_iff_eq_none.mp (Option.isSome_eq_false_iff.mp hnone)

end Secure

/-! ## The leftover of a commit -/

theorem syncStateDirectory_achieves {I : Disk → Prop} {d : Disk} (dir : Inode) (hd : I d)
    (hsynced : I (d.syncEntries dir)) : Achieves I (fun _ d' => d' = d.syncEntries dir) (syncStateDirectory dir) d := by
  apply Achieves.look (.attempt (.sysCall fun _ => rfl)) hd
  intro _
  have hsync : Safe (alone I) (fun r d' => I d' ∧ (r = .ok () → d' = d.syncEntries dir)) (fsyncDir dir) d :=
    Safe.sysCall (fun code => ⟨hd, nofun⟩) hd ⟨hsynced, hsynced, fun _ => rfl⟩
  apply Safe.bind_alone hsync
  rintro r d' ⟨hd', hr⟩
  cases r with
  | error e =>
    apply Safe.bind_alone (close_neutral dir |>.safe hd' fun _ => hd')
    intro _ d'' hd''
    exact .pure_alone ⟨hd'', trivial⟩
  | ok u =>
    have hclose : Safe (alone I) (fun _ d'' => d'' = d') (close dir) d' := (close_neutral dir).safe hd' fun _ => rfl
    apply Safe.bind_alone hclose
    rintro closed d'' rfl
    cases closed with
    | ok v => exact .pure_alone ⟨hd', hr rfl⟩
    | error e => exact .pure_alone ⟨hd', trivial⟩

/-- The listing the classification works on. A leftover was a private regular file and is gone now. -/
theorem listWithoutTemp_achieves {I : Disk → Prop} {d : Disk} (dir : Inode) (hd : I d)
    (hremove : ∀ t, d.lookup dir encryptedStateTempFileName = some t → Private (d.nodes t).toFile →
      I (d.setEntry dir encryptedStateTempFileName none) ∧ I (withoutTemp dir d)) :
    Achieves I (fun names d' => names = d'.names dir ∧
        d'.lookup dir encryptedStateTempFileName = none ∧ (d' = d ∨ d' = withoutTemp dir d) ∧
        TempPrivate dir d)
      (listWithoutTemp dir) d := by
  apply Achieves.readDir hd
  have hnone : encryptedStateTempFileName ∉ d.names dir →
      d.lookup dir encryptedStateTempFileName = none := by
    intro hnot
    rw [mem_names] at hnot
    exact Option.not_isSome_iff_eq_none.mp hnot
  by_cases hmem : encryptedStateTempFileName ∈ d.names dir
  · rw [removeVerifiedEncryptedStateTemp, if_neg (not_not_intro hmem), if_pos hmem]
    apply Achieves.andThen (Q := fun _ d' => d' = withoutTemp dir d ∧ ∃ t,
      d.lookup dir encryptedStateTempFileName = some t ∧ Private (d.nodes t).toFile)
    · apply Achieves.lstat hd
      intro t ht
      apply Achieves.require hd
      intro hkind
      apply Achieves.andThen (Q := fun _ d' => d' = d ∧ (d.nodes t).owned = true)
        (.wrapErr (.requires hd fun howned => ⟨rfl, howned⟩))
      rintro - d' - ⟨rfl, howned⟩
      apply Achieves.require hd
      intro hperm
      have hprivate : Private (d'.nodes t).toFile := ⟨hkind, howned, hperm⟩
      obtain ⟨hunlinked, hsynced⟩ := hremove t ht hprivate
      apply Achieves.call hd
      · intro e d'' hf
        simp only [ht] at hf
        split at hf
        · exact (Prod.mk.inj hf).2.symm
        · cases hf
      · intro _ d'' hf
        have hfile : ¬ ((d'.nodes t).kind = .directory ∧ (d'.nodes t).entries.isEmpty = false) := by
          rw [hprivate.kind]
          rintro ⟨⟨⟩, -⟩
        simp only [ht, if_neg hfile] at hf
        obtain ⟨-, rfl⟩ := Prod.mk.inj hf
        refine ⟨hunlinked, ?_⟩
        apply Achieves.wrapErr
        apply (syncStateDirectory_achieves dir hunlinked hsynced).weaken
        rintro - d'' - rfl
        exact ⟨rfl, t, ht, hprivate⟩
    · rintro - d' hd' ⟨rfl, t, ht, hprivate⟩
      apply Achieves.readsDir hd'
      refine ⟨rfl, ?_, .inr rfl, fun t' ht' => ?_⟩
      · rw [withoutTemp_lookup, if_pos ⟨rfl, rfl⟩]
      · cases ht.symm.trans ht'
        exact hprivate
  · rw [removeVerifiedEncryptedStateTemp, if_pos hmem, if_neg hmem]
    apply Achieves.look (.pure _) hd
    intro _
    refine .pure hd ⟨rfl, hnone hmem, .inl rfl, fun t ht => ?_⟩
    rw [hnone hmem] at ht
    cases ht

/-! ## The classification -/

/-- An entry that is neither legacy nor unexpected is the envelope or the sidecar. -/
theorem add_passes {r : Residue} {name : String} (hlegacy : (r.add name).legacy = false)
    (hunexpected : (r.add name).unexpected = false) :
    (r.legacy = false ∧ r.unexpected = false) ∧ (name = encryptedStateFileName ∨ name = sidecarDirectory) ∧
      ((r.add name).encrypted = true → r.encrypted = true ∨ name = encryptedStateFileName) := by
  unfold Residue.add at *
  by_cases hencrypted : name = encryptedStateFileName
  · simp only [if_pos hencrypted] at hlegacy hunexpected
    exact ⟨⟨hlegacy, hunexpected⟩, .inl hencrypted, fun _ => .inr hencrypted⟩
  · simp only [if_neg hencrypted] at *
    by_cases hold : name ∈ legacyStateFilenames ∨ name = legacyFileStoreFilename
    · rw [if_pos hold] at hlegacy
      cases hlegacy
    · simp only [if_neg hold] at *
      by_cases hsidecar : name = sidecarDirectory
      · simp only [if_pos hsidecar] at *
        exact ⟨⟨hlegacy, hunexpected⟩, .inr hsidecar, .inl⟩
      · rw [if_neg hsidecar] at hunexpected
        cases hunexpected

theorem classify_passes (names : List String) : ∀ r : Residue, (names.foldl Residue.add r).legacy = false →
    (names.foldl Residue.add r).unexpected = false → (r.legacy = false ∧ r.unexpected = false) ∧
      (∀ name ∈ names, name = encryptedStateFileName ∨ name = sidecarDirectory) ∧
      ((names.foldl Residue.add r).encrypted = true → r.encrypted = true ∨ encryptedStateFileName ∈ names) := by
  induction names with
  | nil => exact fun r hlegacy hunexpected => ⟨⟨hlegacy, hunexpected⟩, nofun, .inl⟩
  | cons name names ih =>
    intro r hlegacy hunexpected
    obtain ⟨⟨hlegacy', hunexpected'⟩, hnames, hencrypted⟩ := ih (r.add name) hlegacy hunexpected
    obtain ⟨hr, hname, hadd⟩ := add_passes hlegacy' hunexpected'
    refine ⟨hr, List.forall_mem_cons.mpr ⟨hname, hnames⟩, fun htrue => ?_⟩
    rcases hencrypted htrue with hthere | hlater
    · rcases hadd hthere with hbefore | rfl
      · exact .inl hbefore
      · exact .inr (.head _)
    · exact .inr (.tail _ hlater)

/-- A listing that passes holds the envelope, and beside it at most the sidecar. -/
theorem verdict_passes {names : List String} {legacy : Bool}
    (h : ({ classify names with legacy := (classify names).legacy || legacy } : Residue).verdict = .ok ()) :
    encryptedStateFileName ∈ names ∧ legacy = false ∧
      ∀ name ∈ names, name = encryptedStateFileName ∨ name = sidecarDirectory := by
  unfold Residue.verdict at h
  dsimp only at h
  split at h
  · cases h
  split at h
  · cases h
  next hlegacy =>
  obtain ⟨hold, hsidecar⟩ := Bool.or_eq_false_iff.mp (Bool.not_eq_true _ ▸ hlegacy)
  split at h
  · cases h
  next hencrypted =>
  split at h
  · cases h
  next hunexpected =>
  obtain ⟨-, hnames, hstore⟩ := classify_passes names {} hold (Bool.not_eq_true _ ▸ hunexpected)
  refine ⟨?_, hsidecar, hnames⟩
  rcases hstore (by simpa [classify] using hencrypted) with hfalse | hmem
  · cases hfalse
  · exact hmem

/-! ## The inspection -/

/-- What has happened to a disk `d0` while its root is inspected: the leftover of a commit may be gone, which was a
private regular file. -/
structure Cleaned (root : Inode) (d0 d : Disk) : Prop where
  content : ∀ i, (d.nodes i).content = (d0.nodes i).content
  entry : ∀ dir name, d.lookup dir name = d0.lookup dir name ∨
    d.lookup dir name = none ∧ name = encryptedStateTempFileName ∧ d0.lookup root ownedStateSubdirectory = some dir ∧
      ∃ i, d0.lookup dir name = some i ∧ Private (d0.nodes i).toFile

theorem Cleaned.refl (root : Inode) (d0 : Disk) : Cleaned root d0 d0 := ⟨fun _ => rfl, fun _ _ => .inl rfl⟩

theorem cleaned_permClosed (root : Inode) (d0 : Disk) : PermClosed (Cleaned root d0) := by
  intro d i perm hd
  have hperm := permOnly_setPerm d i perm
  refine ⟨fun j => (hperm.content j).trans (hd.content j), fun dir name => ?_⟩
  rw [hperm.lookup]
  exact hd.entry dir name

/-- A root with an encrypted store in it, as it was found (`d`) and as it is left (`d'`). -/
structure EncryptedLayout (depth : Nat) (root dir : Inode) (d d' : Disk) : Prop where
  marker : d.lookup root stateResetMarkerFilename = none
  subtree : d.lookup root ownedStateSubdirectory = some dir
  kind : (d.nodes dir).kind = .directory
  owned : (d.nodes dir).owned = true
  entries : ∀ name i, d.lookup dir name = some i →
    name = encryptedStateFileName ∨ name = sidecarDirectory ∨ name = encryptedStateTempFileName
  envelope : ∃ i envelope, d.lookup dir encryptedStateFileName = some i ∧ (d.nodes i).kind = .regular ∧
    (d.nodes i).owned = true ∧
    parseEncryptedStateEnvelope (F := Errno) (d.nodes i).content defaultEncryptedStateStoreLimits = .ok envelope
  sidecar : ∀ i, d.lookup dir sidecarDirectory = some i → (d.nodes i).kind = .directory ∧
    d.lookup i legacyFileStoreFilename = none ∧ SecuredTree d' depth i
  temp : ∀ i, d.lookup dir encryptedStateTempFileName = some i → Private (d.nodes i).toFile

/-- What an answer of the inspection says. -/
def Finds (depth : Nat) (root : Inode) (d : Disk) (layout : PersistentStateLayout) (d' : Disk) : Prop :=
  match layout with
  | .absent => d.lookup root stateResetMarkerFilename = none ∧ d.lookup root ownedStateSubdirectory = none
  | .encrypted => ∃ dir, EncryptedLayout depth root dir d d'

/-- A directory is not a private file, so securing it leaves that file as it was. -/
theorem private_of_setPerm {d : Disk} {dir t : Inode} {perm : Nat} (hkind : (d.nodes dir).kind = .directory)
    (h : Private ((d.setPerm dir perm).nodes t).toFile) : Private (d.nodes t).toFile := by
  have hne : t ≠ dir := by
    rintro rfl
    have hregular := h.kind
    rw [(permOnly_setPerm d t perm).kind, hkind] at hregular
    cases hregular
  rwa [setPerm_file, if_neg hne] at h

/-- The leftover is gone from the directory that was secured. -/
theorem cleaned_of_removed {root dir t : Inode} {d d1 : Disk} (hdir : d.lookup root ownedStateSubdirectory = some dir)
    (ht : d.lookup dir encryptedStateTempFileName = some t) (hprivate : Private (d.nodes t).toFile)
    (hlookup : ∀ j name, d1.lookup j name =
      if j = dir ∧ name = encryptedStateTempFileName then none else (d.setPerm dir 0o700).lookup j name)
    (hfile : ∀ i, (d1.nodes i).toFile = ((d.setPerm dir 0o700).nodes i).toFile) : Cleaned root d d1 := by
  have hperm := permOnly_setPerm d dir 0o700
  refine ⟨fun i => (congrArg File.content (hfile i)).trans (hperm.content i), fun j name => ?_⟩
  rw [hlookup]
  split
  · next hat =>
    obtain ⟨rfl, rfl⟩ := hat
    exact .inr ⟨rfl, rfl, hdir, t, ht, hprivate⟩
  · exact .inl (hperm.lookup j name)

theorem inspectSubtree_achieves (depth : Nat) (root : Inode) (info : Info) (d : Disk)
    (hmarker : d.lookup root stateResetMarkerFilename = none) :
    Achieves (Cleaned root d) (fun layout d' => Finds depth root d layout d') (inspectSubtree depth root info) d := by
  have hclosed := cleaned_permClosed root d
  apply Achieves.require (.refl root d)
  intro _
  apply Achieves.andThen (.wrapErr (secureEncryptedStateDirectory_achieves hclosed root _ (.refl root d)))
  rintro dir d1 hd1 ⟨hdir, hkind, howned, rfl⟩
  have hperm := permOnly_setPerm d dir 0o700
  have hremove : ∀ t, (d.setPerm dir 0o700).lookup dir encryptedStateTempFileName = some t →
      Private ((d.setPerm dir 0o700).nodes t).toFile →
      Cleaned root d ((d.setPerm dir 0o700).setEntry dir encryptedStateTempFileName none) ∧
        Cleaned root d (withoutTemp dir (d.setPerm dir 0o700)) := by
    intro t ht hprivate
    rw [hperm.lookup] at ht
    have hprivate := private_of_setPerm hkind hprivate
    exact ⟨cleaned_of_removed hdir ht hprivate (fun _ _ => setEntry_lookup ..) (fun _ => setEntry_file ..),
      cleaned_of_removed hdir ht hprivate withoutTemp_lookup withoutTemp_file⟩
  apply Achieves.andThen (listWithoutTemp_achieves dir hd1 hremove)
  rintro names d2 hd2 ⟨rfl, hgone, hlisted, htemp⟩
  -- But for the leftover, what is classified is what was found.
  have hfile : ∀ i, (d2.nodes i).toFile = ((d.setPerm dir 0o700).nodes i).toFile := by
    rcases hlisted with rfl | rfl
    · exact fun _ => rfl
    · exact withoutTemp_file
  have hkept : ∀ j name, name ≠ encryptedStateTempFileName → d2.lookup j name = d.lookup j name := by
    intro j name hname
    rw [← hperm.lookup]
    rcases hlisted with rfl | rfl
    · rfl
    · exact withoutTemp_lookup_of_ne hname j
  apply Achieves.andThen (inspectSidecar_achieves hclosed depth dir _ hd2)
  rintro legacy d3 hd3 ⟨hsecures3, hsidecar⟩
  apply Achieves.fromExcept hd3
  intro _ hverdict
  obtain ⟨-, hlegacy, hnames⟩ := verdict_passes hverdict
  apply Achieves.andThen (inspectEncryptedStateEnvelopeFile_achieves hclosed root hd3)
  rintro - d4 hd4 ⟨hsecures4, dir', i, envelope, hdir', hi, hfileKind, hfileOwned, hparse⟩
  obtain rfl : dir = dir' := by
    rw [hsecures3.only.lookup, hkept _ _ (by decide), hdir] at hdir'
    exact Option.some.inj hdir'
  refine Achieves.pure hd4 ⟨dir, ⟨hmarker, hdir, hkind, howned, ?_, ⟨i, envelope, ?_, ?_, ?_, ?_⟩, ?_, ?_⟩⟩
  · intro name j hj
    by_cases hname : name = encryptedStateTempFileName
    · exact .inr (.inr hname)
    · rw [← hkept dir name hname] at hj
      rcases hnames name (mem_names.mpr (by rw [hj]; rfl)) with hstore | hside
      · exact .inl hstore
      · exact .inr (.inl hside)
  · rw [← hkept dir _ (by decide), ← hsecures3.only.lookup, hi]
  · rw [← hperm.kind, ← hfile, ← hsecures3.only.kind, hfileKind]
  · rw [← hperm.owned, ← hfile, ← hsecures3.only.owned, hfileOwned]
  · rw [← hperm.content, ← hfile, ← hsecures3.only.content, hparse]
  · intro s hs
    rw [← hkept dir _ (by decide)] at hs
    obtain ⟨s', hs', hsKind, htree, habsent⟩ := hsidecar (mem_names.mpr (by rw [hs]; rfl))
    obtain rfl : s = s' := Option.some.inj (hs.symm.trans hs')
    refine ⟨?_, ?_, htree.secures hsecures4⟩
    · rw [← hperm.kind, ← hfile, hsKind]
    · rw [← hkept s _ (by decide), habsent hlegacy]
  · intro t ht
    rw [← hperm.lookup] at ht
    exact private_of_setPerm hkind (htemp t ht)

/-- Whatever fails, only the leftover of a commit can have gone; and an answer is what was found. -/
theorem inspectPersistentStateLayout_achieves (depth : Nat) (root : Inode) (d : Disk) :
    Achieves (Cleaned root d) (fun layout d' => Finds depth root d layout d')
    (inspectPersistentStateLayout depth root) d := by
  have hd := Cleaned.refl root d
  have hpresence : ∀ (s : Sentinel) (format name : String),
      Achieves (Cleaned root d) (fun found d' => d' = d ∧ (found = none → d.lookup root name = none))
        (ExceptT.mk do return presence s format (← lstat root name) : Fallible Err (Option Info)) d := by
    intro s format name
    apply Achieves.result hd (fun code b hb => by cases hb)
    cases hlookup : d.lookup root name with
    | none => exact ⟨hd, fun b hb => ⟨rfl, fun _ => rfl⟩⟩
    | some i => exact ⟨hd, fun b hb => by cases hb; exact ⟨rfl, nofun⟩⟩
  apply Achieves.andThen (hpresence _ _ _)
  rintro marker d' - ⟨rfl, hmarker⟩
  apply Achieves.require hd
  intro hnone
  apply Achieves.andThen (hpresence _ _ _)
  rintro subtree d' - ⟨rfl, hsubtree⟩
  cases subtree with
  | none => exact Achieves.pure hd ⟨hmarker hnone, hsubtree rfl⟩
  | some info => exact inspectSubtree_achieves depth root info _ (hmarker hnone)

end TailscaleDart.Store
