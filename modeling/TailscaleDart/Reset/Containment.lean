import TailscaleDart.Reset.Subtree

/-!
# Reset.Containment — what the removal of the subtree can reach

The disk is arbitrary here: any graph of entries, with links, mount points and files of others anywhere, and a
listing may give any names. A mount point is a directory whose device is not that of its parent.

* Only the package's own entry of the root disappears, or an entry of a directory that was reached from it
  (`Below`): by lookups, through directories proper, all on the device of the root.
* Such a directory is fewer than `stateResetMaximumDepth` levels below the first, and the recursion never asks
  for a level past the limit.
* When the removal succeeds the package's entry is gone.
-/

namespace TailscaleDart.Reset

open Conc Durable Disk Store

/-- A directory on the device, `depth` levels below the package's directory. -/
inductive Below (d : Disk) (root : Inode) (device : Nat) : Nat → Inode → Prop
  | top {i : Inode} (hentry : d.lookup root ownedStateSubdirectory = some i) (hkind : (d.nodes i).kind = .directory)
      (hdevice : (d.nodes i).device = device) : Below d root device 0 i
  | child {depth : Nat} {dir i : Inode} {name : String} (hdir : Below d root device depth dir)
      (hentry : d.lookup dir name = some i) (hkind : (d.nodes i).kind = .directory)
      (hdevice : (d.nodes i).device = device) : Below d root device (depth + 1) i

/-- The entries a removal may take. -/
def Removable (d : Disk) (root : Inode) (device : Nat) (dir : Inode) (name : String) : Prop :=
  (dir = root ∧ name = ownedStateSubdirectory) ∨ ∃ depth < stateResetMaximumDepth, Below d root device depth dir

/-- What has happened to a disk `d0` while its subtree is removed. -/
structure Contained (d0 : Disk) (root : Inode) (device : Nat) (d : Disk) : Prop where
  file : ∀ i, (d.nodes i).toFile = (d0.nodes i).toFile
  entry : ∀ dir name, d.lookup dir name = d0.lookup dir name ∨
    d.lookup dir name = none ∧ Removable d0 root device dir name

section Contained

variable {d0 d : Disk} {root dir : Inode} {device : Nat} {name : String}

theorem Contained.refl (d0 : Disk) (root : Inode) (device : Nat) : Contained d0 root device d0 :=
  ⟨fun _ => rfl, fun _ _ => .inl rfl⟩

theorem Contained.remove (h : Contained d0 root device d) (hat : Removable d0 root device dir name) :
    Contained d0 root device (d.setEntry dir name none) := by
  refine ⟨fun i => (setEntry_file d dir i name none).trans (h.file i), fun dir' name' => ?_⟩
  rw [setEntry_lookup]
  split
  · next heq =>
    obtain ⟨rfl, rfl⟩ := heq
    exact .inr ⟨rfl, hat⟩
  · exact h.entry dir' name'

theorem Contained.syncEntries (h : Contained d0 root device d) : Contained d0 root device (d.syncEntries dir) := by
  refine ⟨fun i => (syncEntries_file d dir i).trans (h.file i), fun dir' name' => ?_⟩
  rw [syncEntries_lookup]
  exact h.entry dir' name'

theorem Contained.lookup (h : Contained d0 root device d) {i : Inode} (hi : d.lookup dir name = some i) :
    d0.lookup dir name = some i := by
  rcases h.entry dir name with hsame | ⟨hnone, -⟩
  · rw [← hsame, hi]
  · rw [hnone] at hi
    cases hi

end Contained

/-- A directory that was opened: it stood there from the start. -/
inductive FoundBelow (d : Disk) (root : Inode) (device : Nat) : Nat → Inode → Prop
  | top {i : Inode} (hentry : d.lookup root ownedStateSubdirectory = some i) (hkind : (d.nodes i).kind = .directory) :
      FoundBelow d root device 0 i
  | child {depth : Nat} {dir i : Inode} {name : String} (hdir : Below d root device depth dir)
      (hentry : d.lookup dir name = some i) (hkind : (d.nodes i).kind = .directory) :
      FoundBelow d root device (depth + 1) i

theorem contained_confines (d0 : Disk) (root : Inode) (device : Nat) :
    Confines (Contained d0 root device) (FoundBelow d0 root device) (Below d0 root device) root device where
  removeTop := fun _ hd => hd.remove (.inl ⟨rfl, rfl⟩)
  remove := fun _ depth _ _ hd hdir hdepth => hd.remove (.inr ⟨depth, hdepth, hdir⟩)
  sync := fun _ _ hd => hd.syncEntries
  foundTop := fun _ i hd hi hkind => .top (hd.lookup hi) ((congrArg File.kind (hd.file i)).symm.trans hkind)
  found := fun _ _ _ _ i hd hdir hi hkind =>
    .child hdir (hd.lookup hi) ((congrArg File.kind (hd.file i)).symm.trans hkind)
  enter := by
    intro d depth i hd hfound hdevice
    have hsame : (d0.nodes i).device = device := (congrArg File.device (hd.file i)).symm.trans hdevice
    cases hfound with
    | top hentry hkind => exact .top hentry hkind hsame
    | child hdir hentry hkind => exact .child hdir hentry hkind hsame

/-! ## The depth of the recursion -/

/-- `removeDirectoryContents` with the source's own depth counter. There are `levels` levels of recursion to
spend, and what the level after the last does is `beyond`. -/
def removeDirectoryContentsFrom (beyond : Inode → Fallible Err Unit) (rootDevice : Nat) : Nat → Nat → Inode →
    Fallible Err Unit
  | 0, _, dir => beyond dir
  | levels + 1, depth, dir => do
    require (¬ stateResetMaximumDepth ≤ depth) (.text "package-owned state exceeds maximum reset depth %d")
    let names ← attempt .foreign (readNames dir)
    forEach names (removeEntry (removeDirectoryContentsFrom beyond rootDevice levels (depth + 1)) rootDevice dir)
    let _ ← attempt .foreign (readNames dir)
    attempt .foreign (fsyncDir dir)

/-- The level after the limit is not asked for, whatever it would do. -/
theorem removeDirectoryContentsFrom_eq (beyond : Inode → Fallible Err Unit) (rootDevice room : Nat) :
    ∀ depth, depth + room = stateResetMaximumDepth →
      removeDirectoryContentsFrom beyond rootDevice (room + 1) depth = removeDirectoryContents rootDevice room := by
  induction room with
  | zero =>
    intro depth hdepth
    funext dir
    have hover : require (ε := Err) (¬ stateResetMaximumDepth ≤ depth)
        (.text "package-owned state exceeds maximum reset depth %d") =
        throw (.text "package-owned state exceeds maximum reset depth %d") := if_neg (not_not.mpr (by omega))
    rw [removeDirectoryContentsFrom, hover, removeDirectoryContents]
    rfl
  | succ room ih =>
    intro depth hdepth
    funext dir
    have hwithin : require (ε := Err) (¬ stateResetMaximumDepth ≤ depth)
        (.text "package-owned state exceeds maximum reset depth %d") = pure () := if_pos (by omega)
    rw [removeDirectoryContentsFrom, hwithin, ih (depth + 1) (by omega), removeDirectoryContents]
    rfl

/-- **Removal stays inside the package's subtree.** Wherever the removal stops, on any disk and with any calls
failing, an entry that changed is gone, and it is the package's entry of the root or one of a directory that was
reached from that entry through directories on the root's device. A removal that succeeds has removed the package's
entry. And the recursion ends within the limit: what it would do one level further does not matter. -/
theorem removal_contained (d0 : Disk) (root : Inode) (rootInfo : Info) (answers : List Answer) :
    (∀ dir name,
      ((removeOwnedStateSubtree root rootInfo).run.haltAfter answers d0).lookup dir name ≠ d0.lookup dir name →
      ((removeOwnedStateSubtree root rootInfo).run.haltAfter answers d0).lookup dir name = none ∧
        ((dir = root ∧ name = ownedStateSubdirectory) ∨
          ∃ depth < stateResetMaximumDepth, Below d0 root rootInfo.device depth dir)) ∧
    (∀ d, (removeOwnedStateSubtree root rootInfo).run.exec answers d0 = some (.ok (), d) →
      d.lookup root ownedStateSubdirectory = none) ∧
    ∀ beyond, removeDirectoryContentsFrom beyond rootInfo.device (stateResetMaximumDepth + 1) 0 =
      removeDirectoryContents rootInfo.device stateResetMaximumDepth := by
  have hsafe := (contained_confines d0 root rootInfo.device).removeOwnedStateSubtree_safe (.refl d0 root _)
  refine ⟨fun dir name hchanged => ?_, fun d hrun => ?_, fun beyond => ?_⟩
  · have hkept : Contained d0 root rootInfo.device ((removeOwnedStateSubtree root rootInfo).run.haltAfter answers d0) :=
      hsafe.haltAfter (.refl d0 root rootInfo.device)
    exact (hkept.entry dir name).resolve_left hchanged
  · exact (hsafe.exec hrun).2 rfl
  · exact removeDirectoryContentsFrom_eq beyond _ _ 0 (Nat.zero_add _)

end TailscaleDart.Reset
