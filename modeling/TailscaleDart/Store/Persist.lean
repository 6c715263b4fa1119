import TailscaleDart.Store.Encrypted

/-!
# Store.Persist — the stages of a commit on the disk

A commit goes through three stages, seen from the disk `d0` it started on: nothing has changed yet;
the temporary file exists and nothing else has changed (`Staged`); the temporary file, complete and
synced, stands under the store's name (`Renamed`). `persistEnvelopeLocked_safe` says that every state a
commit passes through is in one of them, that it returns success exactly from the last, and failure only
from the first two. Both the correctness of the store's calls and its behaviour at a crash are read off
that one result.
-/

namespace TailscaleDart.Store

open Conc Durable Disk

/-! ## The guards leave the disk alone -/

namespace EncryptedStateStore

theorem validatePersistenceRoot_neutral : Neutral validatePersistenceRoot.run :=
  Neutral.attempt hook_neutral

theorem runFault_neutral (stage : WriteStage) : Neutral (runFault stage).run :=
  Neutral.attempt hook_neutral

theorem validateDestination_neutral (s : EncryptedStateStore) : Neutral s.validateDestination.run :=
  Neutral.bind (lstat_neutral _ _) fun _ => .pure _

end EncryptedStateStore

/-! ## Stages -/

/-- A private file: what the store requires of its own file. -/
structure Private (f : File) : Prop where
  kind : f.kind = .regular
  owned : f.owned = true
  perm : f.perm = 0o600

/-- One new inode, and nothing else changed but these names of the directory `dir`. -/
structure Frame (dir : Inode) (names : List String) (d0 d : Disk) : Prop where
  next : d.next = d0.next + 1
  file : ∀ i, i ≠ d0.next → (d.nodes i).toFile = (d0.nodes i).toFile
  lookup : ∀ j name, j ≠ d0.next → ¬ (j = dir ∧ name ∈ names) → d.lookup j name = d0.lookup j name
  possible : ∀ j name, j ≠ d0.next → ¬ (j = dir ∧ name ∈ names) → d.possible j name ⊆ d0.possible j name
  sound : d.Sound
  fresh : Private (d.nodes d0.next).toFile

section Frame

variable {dir : Inode} {names : List String} {d0 d : Disk}

theorem Frame.update (h : Frame dir names d0 d) {f : Node → Node} (hentries : ∀ n, (f n).entries = n.entries)
    (hfresh : Private (f (d.nodes d0.next)).toFile) : Frame dir names d0 (d.update d0.next f) where
  next := h.next
  file := by
    intro i hi
    rw [update_nodes, if_neg hi]
    exact h.file i hi
  lookup := by
    intro j name hj hname
    rw [← h.lookup j name hj hname]
    simp only [Disk.lookup, update_nodes, if_neg hj]
  possible := by
    intro j name hj hname
    have hsame : (d.update d0.next f).possible j name = d.possible j name := by
      simp only [Disk.possible, Disk.lookup, update_nodes, if_neg hj]
    rw [hsame]
    exact h.possible j name hj hname
  sound := h.sound.update _ (hentries _)
  fresh := by
    rw [update_nodes, if_pos rfl]
    exact hfresh

theorem Frame.setEntry (h : Frame dir names d0 d) {name : String} {v : Option Inode} (hname : name ∈ names)
    (hdir : dir < d0.next) (hv : ∀ i, v = some i → i < d.next) : Frame dir names d0 (d.setEntry dir name v) where
  next := h.next
  file := by
    intro i hi
    rw [setEntry_file]
    exact h.file i hi
  lookup := by
    intro j other hj hother
    have hne : ¬ (j = dir ∧ other = name) := fun hat => hother ⟨hat.1, hat.2 ▸ hname⟩
    rw [setEntry_lookup, if_neg hne]
    exact h.lookup j other hj hother
  possible := by
    intro j other hj hother
    have hne : ¬ (j = dir ∧ other = name) := fun hat => hother ⟨hat.1, hat.2 ▸ hname⟩
    rw [setEntry_possible, if_neg hne]
    exact h.possible j other hj hother
  sound := h.sound.setEntry (h.next ▸ Nat.lt_succ_of_lt hdir) hv
  fresh := by
    rw [setEntry_file]
    exact h.fresh

theorem Frame.syncEntries (h : Frame dir names d0 d) (at_ : Inode) : Frame dir names d0 (d.syncEntries at_) where
  next := h.next
  file := by
    intro i hi
    rw [syncEntries_file]
    exact h.file i hi
  lookup := by
    intro j name hj hname
    rw [syncEntries_lookup]
    exact h.lookup j name hj hname
  possible := by
    intro j name hj hname
    exact List.Subset.trans (syncEntries_possible_subset d at_ j name) (h.possible j name hj hname)
  sound := h.sound.update _ rfl
  fresh := by
    rw [syncEntries_file]
    exact h.fresh

theorem Frame.widen (h : Frame dir names d0 d) {names' : List String} (hsub : names ⊆ names') : Frame dir names' d0 d :=
  { h with
    lookup := fun j name hj hname => h.lookup j name hj fun hat => hname ⟨hat.1, hsub hat.2⟩
    possible := fun j name hj hname => h.possible j name hj fun hat => hname ⟨hat.1, hsub hat.2⟩ }

end Frame

/-- What the name of the temporary file may stand for: what it did, nothing, or the new file. -/
def TempOnly (dir : Inode) (d0 d : Disk) : Prop :=
  ∀ v ∈ d.possible dir encryptedStateTempFileName,
    v ∈ d0.possible dir encryptedStateTempFileName ∨ v = none ∨ v = some d0.next

/-- The temporary file exists, or did; nothing else has changed. -/
structure Staged (dir : Inode) (d0 d : Disk) : Prop where
  frame : Frame dir [encryptedStateTempFileName] d0 d
  temp : TempOnly dir d0 d

/-- The temporary file has its name and this content. -/
structure Filled (dir : Inode) (content : Bytes) (d0 d : Disk) : Prop where
  staged : Staged dir d0 d
  lookup : d.lookup dir encryptedStateTempFileName = some d0.next
  content : (d.nodes d0.next).content = content

/-- The new file, complete and synced, has the store's name. -/
structure Renamed (dir : Inode) (envelope : Bytes) (d0 d : Disk) : Prop where
  frame : Frame dir [encryptedStateTempFileName, encryptedStateFileName] d0 d
  temp : TempOnly dir d0 d
  lookup : d.lookup dir encryptedStateFileName = some d0.next
  possible : ∀ v ∈ d.possible dir encryptedStateFileName, v = some d0.next ∨ v ∈ d0.possible dir encryptedStateFileName
  content : (d.nodes d0.next).content = envelope
  stable : (d.nodes d0.next).stable = true

/-- Every state of a commit. -/
def Progress (dir : Inode) (envelope : Bytes) (d0 d : Disk) : Prop :=
  d = d0 ∨ Staged dir d0 d ∨ Renamed dir envelope d0 d

section Stages

variable {dir : Inode} {envelope : Bytes} {d0 d : Disk}

theorem staged_create (hsound : d0.Sound) (hdir : dir < d0.next) :
    Staged dir d0 (d0.create dir encryptedStateTempFileName
      { kind := .regular, owned := true, perm := 0o600, stable := false }) where
  frame :=
    { next := rfl
      file := by
        intro i hi
        rw [create_file, if_neg hi]
      lookup := by
        intro j name hj hname
        have hne : ¬ (j = dir ∧ name = encryptedStateTempFileName) :=
          fun hat => hname ⟨hat.1, List.mem_singleton.mpr hat.2⟩
        rw [create_lookup _ _ _ _ _ _ hj, if_neg hne]
      possible := by
        intro j name hj hname
        have hne : ¬ (j = dir ∧ name = encryptedStateTempFileName) :=
          fun hat => hname ⟨hat.1, List.mem_singleton.mpr hat.2⟩
        rw [create_possible _ _ _ _ _ _ hj, if_neg hne]
        exact List.Subset.refl _
      sound := hsound.create hdir rfl
      fresh := by
        rw [create_file, if_pos rfl]
        exact ⟨rfl, rfl, rfl⟩ }
  temp := by
    intro v hv
    rw [create_possible _ _ _ _ _ _ (Nat.ne_of_lt hdir), if_pos ⟨rfl, rfl⟩] at hv
    rcases List.mem_cons.mp hv with rfl | hold
    · exact .inr (.inr rfl)
    · exact .inl hold

theorem Staged.update (h : Staged dir d0 d) (hdir : dir < d0.next) {f : Node → Node}
    (hentries : ∀ n, (f n).entries = n.entries) (hfresh : Private (f (d.nodes d0.next)).toFile) :
    Staged dir d0 (d.update d0.next f) where
  frame := h.frame.update hentries hfresh
  temp := by
    intro v hv
    refine h.temp v ?_
    simpa only [Disk.possible, Disk.lookup, update_nodes, if_neg (Nat.ne_of_lt hdir)] using hv

theorem Filled.update {content content' : Bytes} (h : Filled dir content d0 d) (hdir : dir < d0.next) {f : Node → Node}
    (hentries : ∀ n, (f n).entries = n.entries) (hfresh : Private (f (d.nodes d0.next)).toFile)
    (hcontent : (f (d.nodes d0.next)).content = content') : Filled dir content' d0 (d.update d0.next f) where
  staged := h.staged.update hdir hentries hfresh
  lookup := by
    rw [← h.lookup]
    simp only [Disk.lookup, update_nodes, if_neg (Nat.ne_of_lt hdir)]
  content := by
    rw [update_nodes, if_pos rfl]
    exact hcontent

theorem TempOnly.remove (h : TempOnly dir d0 d) : TempOnly dir d0 (d.setEntry dir encryptedStateTempFileName none) := by
  intro v hv
  rw [setEntry_possible, if_pos ⟨rfl, rfl⟩] at hv
  rcases List.mem_cons.mp hv with rfl | hold
  · exact .inr (.inl rfl)
  · exact h v hold

theorem Staged.remove (h : Staged dir d0 d) (hdir : dir < d0.next) :
    Staged dir d0 (d.setEntry dir encryptedStateTempFileName none) where
  frame := h.frame.setEntry (List.mem_singleton.mpr rfl) hdir nofun
  temp := h.temp.remove

/-- The commit point. -/
theorem Staged.rename (h : Staged dir d0 d) (hdir : dir < d0.next)
    (htemp : d.lookup dir encryptedStateTempFileName = some d0.next)
    (hcontent : (d.nodes d0.next).content = envelope) (hstable : (d.nodes d0.next).stable = true) :
    Renamed dir envelope d0 (d.rename dir encryptedStateTempFileName encryptedStateFileName) := by
  have hnames : encryptedStateFileName ≠ encryptedStateTempFileName := by decide
  have hframe : Frame dir [encryptedStateTempFileName, encryptedStateFileName] d0
      (d.rename dir encryptedStateTempFileName encryptedStateFileName) := by
    refine ((h.frame.widen (by simp)).setEntry (by simp) hdir ?_).setEntry (by simp) hdir (nofun)
    intro i hi
    exact (h.frame.sound _ _ i hi).2
  refine ⟨hframe, ?_, ?_, ?_, ?_, ?_⟩
  · refine .remove fun v hv => h.temp v ?_
    rwa [setEntry_possible, if_neg fun hat => hnames hat.2.symm] at hv
  · rw [Disk.rename, setEntry_lookup, if_neg fun hat => hnames hat.2, setEntry_lookup, if_pos ⟨rfl, rfl⟩, htemp]
  · intro v hv
    rw [Disk.rename, setEntry_possible, if_neg fun hat => hnames hat.2, setEntry_possible, if_pos ⟨rfl, rfl⟩,
      htemp] at hv
    rcases List.mem_cons.mp hv with rfl | hold
    · exact .inl rfl
    · refine .inr (h.frame.possible dir _ (Nat.ne_of_lt hdir) ?_ hold)
      rintro ⟨-, hmem⟩
      exact hnames (List.mem_singleton.mp hmem)
  · rw [rename_file]
    exact hcontent
  · rw [rename_file]
    exact hstable

theorem Renamed.syncEntries (h : Renamed dir envelope d0 d) : Renamed dir envelope d0 (d.syncEntries dir) where
  frame := h.frame.syncEntries dir
  temp := fun v hv => h.temp v (syncEntries_possible_subset d dir dir _ hv)
  lookup := by
    rw [syncEntries_lookup]
    exact h.lookup
  possible := fun v hv => h.possible v (syncEntries_possible_subset d dir dir _ hv)
  content := by
    rw [syncEntries_file]
    exact h.content
  stable := by
    rw [syncEntries_file]
    exact h.stable

end Stages

/-! ## The programs of a commit -/

namespace EncryptedStateStore

variable {dir : Inode} {envelope : Bytes} {d0 d : Disk}

/-- Filling the temporary file: a failure leaves it staged, success leaves it complete and synced. -/
theorem writeTemp_safe (hdir : dir < d0.next) (h : Filled dir [] d0 d) : Safe (alone (Progress dir envelope d0))
      (fun r d' => match r with
        | .error _ => Staged dir d0 d'
        | .ok info => info.inode = d0.next ∧ Filled dir envelope d0 d' ∧ (d'.nodes d0.next).stable = true)
      (writeTemp d0.next envelope).run d := by
  have hprogress : ∀ {content d'}, Filled dir content d0 d' → Progress dir envelope d0 d' :=
    fun h => .inr (.inl h.staged)
  have hfresh := h.staged.frame.fresh
  -- chmod
  refine Safe.call (hprogress h) (fun _ => h.staged) (fun _ _ hf => by cases hf) ?_
  rintro - d' ⟨⟩
  have hperm : Filled dir [] d0 (d.setPerm d0.next 0o600) :=
    h.update hdir (fun _ => rfl) ⟨hfresh.kind, hfresh.owned, rfl⟩ h.content
  refine ⟨hprogress hperm, ?_⟩
  generalize d.setPerm d0.next 0o600 = d at hperm
  -- stat, and the checks on what it says
  refine Safe.call (hprogress hperm) (fun _ => hperm.staged) (fun _ _ hf => by cases hf) ?_
  rintro info d' hinfo
  obtain ⟨rfl, rfl⟩ : d.stat d0.next = info ∧ d = d' := by simpa using hinfo
  refine ⟨hprogress hperm, ?_⟩
  refine Safe.pass (Neutral.require _ _) (hprogress hperm) (fun _ => hperm.staged) ?_
  rintro -
  refine Safe.pass (Neutral.require _ _).wrapErr (hprogress hperm) (fun _ => hperm.staged) ?_
  rintro -
  -- the write may stop anywhere, and only a full one passes the test on its count
  have hfresh := hperm.staged.frame.fresh
  refine Safe.write fun n => ?_
  have hwrite : Filled dir (envelope.take n) d0 (d.setContent d0.next ((d.nodes d0.next).content ++ envelope.take n)) :=
    hperm.update hdir (fun _ => rfl) { hfresh with } (by rw [hperm.content]; rfl)
  refine ⟨hprogress hwrite, fun _ => hwrite.staged, ?_⟩
  generalize d.setContent d0.next ((d.nodes d0.next).content ++ envelope.take n) = d at hwrite
  refine Safe.require (fun _ => hwrite.staged) ?_
  intro hcount
  have hall : envelope.take n = envelope := List.take_of_length_le (by simpa using hcount)
  rw [hall] at hwrite
  refine Safe.pass (runFault_neutral _) (hprogress hwrite) (fun _ => hwrite.staged) ?_
  rintro -
  -- fsync
  refine Safe.call (hprogress hwrite) (fun _ => hwrite.staged) (fun _ _ hf => by cases hf) ?_
  rintro - d' ⟨⟩
  have hfresh := hwrite.staged.frame.fresh
  have hsync : Filled dir envelope d0 (d.syncContent d0.next) :=
    hwrite.update hdir (fun _ => rfl) { hfresh with } hwrite.content
  have hstable : ((d.syncContent d0.next).nodes d0.next).stable = true := by
    rw [syncContent_file, if_pos rfl]
  refine ⟨hprogress hsync, ?_⟩
  generalize d.syncContent d0.next = d at hsync hstable
  refine Safe.pass (runFault_neutral _) (hprogress hsync) (fun _ => hsync.staged) ?_
  rintro -
  refine Safe.pass (close_neutral _).attempt (hprogress hsync) (fun _ => hsync.staged) ?_
  rintro -
  exact Safe.pure_alone ⟨rfl, hsync, hstable⟩

/-- The rename, behind its three guards. -/
theorem renameTemp_safe (s : EncryptedStateStore) (hdir : s.dir < d0.next) (h : Filled s.dir envelope d0 d)
    (hstable : (d.nodes d0.next).stable = true) : Safe (alone (Progress s.dir envelope d0)) (fun r d' => match r with
        | .error _ => Staged s.dir d0 d' | .ok () => Renamed s.dir envelope d0 d') s.renameTemp.run d := by
  have hprogress : Progress s.dir envelope d0 d := .inr (.inl h.staged)
  refine Safe.pass (runFault_neutral _) hprogress (fun _ => h.staged) ?_
  rintro -
  refine Safe.pass validatePersistenceRoot_neutral hprogress (fun _ => h.staged) ?_
  rintro -
  refine Safe.pass s.validateDestination_neutral hprogress (fun _ => h.staged) ?_
  rintro -
  have hrenamed := h.staged.rename hdir h.lookup h.content hstable
  refine Safe.attempt (Safe.sysCall (fun _ => h.staged) hprogress ?_)
  simp only [h.lookup]
  exact ⟨.inr (.inr hrenamed), hrenamed⟩

theorem removeTemp_safe (s : EncryptedStateStore) (err : Err) (hdir : s.dir < d0.next) (h : Staged s.dir d0 d) :
    Safe (alone (Progress s.dir envelope d0)) (fun _ d' => Staged s.dir d0 d') (s.removeTemp err) d := by
  have hremove : Safe (alone (Progress s.dir envelope d0)) (fun _ d' => Staged s.dir d0 d')
      (removeAt s.dir encryptedStateTempFileName) d := by
    refine Safe.sysCall (fun _ => h) (.inr (.inl h)) ?_
    split
    case h_1 => exact ⟨.inr (.inl h), h⟩
    case h_2 =>
      split
      · exact ⟨.inr (.inl h), h⟩
      · exact ⟨.inr (.inl (h.remove hdir)), h.remove hdir⟩
  refine Safe.bind_alone hremove ?_
  intro r d' hd
  cases r with
  | ok u => exact Safe.pure_alone hd
  | error e => exact Safe.pure_alone hd

theorem syncStateDirectory_keeps {P : Disk → Prop} (at_ : Inode) (hP : ∀ d, P d → P (d.syncEntries at_))
    (h : P d) : Safe (alone P) (fun _ d' => P d') (syncStateDirectory at_).run d := by
  refine Safe.pass (Neutral.sysCall fun _ => rfl).attempt h (fun _ => h) ?_
  rintro -
  have hsync : Safe (alone P) (fun _ d' => P d') (fsyncDir at_) d :=
    Safe.sysCall (fun _ => h) h ⟨hP d h, hP d h⟩
  refine Safe.bind_alone hsync ?_
  intro r d' hd
  refine Neutral.safe ?_ hd fun _ => hd
  cases r with
  | ok u | error e => exact (close_neutral at_).bind fun _ => Neutral.pure _

theorem diagnose_keeps {P : Disk → Prop} (format : String) {x : Fallible Err Unit}
    (h : Safe (alone P) (fun _ d' => P d') x.run d) : Safe (alone P) (fun _ d' => P d') (diagnose format x) d := by
  refine Safe.bind_alone h ?_
  intro r d' hd
  cases r with
  | ok u => exact Safe.pure_alone hd
  | error e => exact Safe.pure_alone hd

/-- What a commit leaves behind: success from the renamed stage, with the store that goes with it, and
failure from an earlier one. -/
def Outcome (s : EncryptedStateStore) (envelope : Bytes) (candidate : StateMap) (d0 : Disk)
    (r : Except Err Committed) (d : Disk) : Prop :=
  match r with
  | .error _ => d = d0 ∨ Staged s.dir d0 d
  | .ok c => Renamed s.dir envelope d0 d ∧
      ∃ info, info.inode = d0.next ∧ c.store = { s with cache := candidate, fileInfo := some info }

theorem persistTemp_safe (s : EncryptedStateStore) (candidate : StateMap) (hdir : s.dir < d0.next)
    (h : Filled s.dir [] d0 d) : Safe (alone (Progress s.dir envelope d0)) (Outcome s envelope candidate d0)
      (s.persistTemp d0.next envelope candidate).run d := by
  refine Safe.bind_alone (writeTemp_safe hdir h) ?_
  intro r d' hr
  cases r with
  | error err =>
    have hstaged : Staged s.dir d0 d' := hr
    refine Safe.bind_alone ((close_neutral _).safe (.inr (.inl hstaged)) fun _ => hstaged) ?_
    intro _ d' hstaged
    refine Safe.bind_alone (removeTemp_safe s err hdir hstaged) ?_
    intro err' d' hstaged
    exact Safe.pure_alone (.inr hstaged)
  | ok info =>
    obtain ⟨hinode, hfilled, hstable⟩ := hr
    refine Safe.bind_alone (renameTemp_safe s hdir hfilled hstable) ?_
    intro r d' hr
    cases r with
    | error err =>
      have hstaged : Staged s.dir d0 d' := hr
      refine Safe.bind_alone (removeTemp_safe s err hdir hstaged) ?_
      intro err' d' hstaged
      exact Safe.pure_alone (.inr hstaged)
    | ok u =>
      have hrenamed : Renamed s.dir envelope d0 d' := hr
      have hweak : ∀ d, Renamed s.dir envelope d0 d → Progress s.dir envelope d0 d := fun _ h => .inr (.inr h)
      have hfault := diagnose_keeps "after encrypted StateStore rename: %w"
        ((runFault_neutral .afterRename).safe hrenamed fun _ => hrenamed)
      refine Safe.bind_alone (Safe.weaken_alone hweak _ _ hfault) ?_
      intro fault d' hrenamed
      have hsync := diagnose_keeps "sync encrypted StateStore directory: %w"
        (syncStateDirectory_keeps s.dir (fun _ h => Renamed.syncEntries h) hrenamed)
      refine Safe.bind_alone (Safe.weaken_alone hweak _ _ hsync) ?_
      intro sync d' hrenamed
      exact Safe.pure_alone ⟨hrenamed, info, hinode, rfl⟩

theorem persistBody_safe (s : EncryptedStateStore) (candidate : StateMap) (hsound : d0.Sound) (hdir : s.dir < d0.next) :
    Safe (alone (Progress s.dir envelope d0)) (Outcome s envelope candidate d0)
      (s.persistBody envelope candidate).run d0 := by
  have hprogress : Progress s.dir envelope d0 d0 := .inl rfl
  refine Safe.pass (runFault_neutral _) hprogress (fun _ => .inl rfl) ?_
  rintro -
  refine Safe.pass s.validateDestination_neutral hprogress (fun _ => .inl rfl) ?_
  rintro -
  refine Safe.call hprogress (fun _ => .inl rfl) ?_ ?_
  · intro e d' hf
    split at hf
    case h_1 => exact (Prod.mk.inj hf).2.symm
    case h_2 => cases hf
  · intro temp d' hf
    split at hf
    case h_1 => cases hf
    case h_2 hnone =>
      cases hf
      have hstaged := staged_create hsound hdir
      refine ⟨.inr (.inl hstaged), persistTemp_safe s candidate hdir ⟨hstaged, ?_, ?_⟩⟩
      · rw [create_lookup _ _ _ _ _ _ (Nat.ne_of_lt hdir), if_pos ⟨rfl, rfl⟩]
      · rw [create_file, if_pos rfl]

/-- Every state a commit passes through is one of its stages, and its result says in which it ended. -/
theorem persistEnvelopeLocked_safe (s : EncryptedStateStore) (envelope : Bytes) (candidate : StateMap)
    (hsound : d0.Sound) (hdir : s.dir < d0.next) :
    Safe (alone (Progress s.dir envelope d0)) (Outcome s envelope candidate d0)
      (s.persistEnvelopeLocked envelope candidate).run d0 := by
  refine Safe.pass validatePersistenceRoot_neutral (.inl rfl) (fun _ => .inl rfl) ?_
  rintro -
  refine Safe.bind_alone (persistBody_safe s candidate hsound hdir) ?_
  intro r d hr
  have hprogress : Progress s.dir envelope d0 d := by
    cases r with
    | error err => exact hr.imp_right .inl
    | ok c => exact .inr (.inr hr.1)
  refine Safe.bind_alone (validatePersistenceRoot_neutral.safe hprogress fun _ => hr) ?_
  intro root d hr
  refine Safe.pure_alone ?_
  cases r with
  | error err | ok c =>
    cases root with
    | ok u => exact hr
    | error err' => exact hr

end EncryptedStateStore

end TailscaleDart.Store
