import TailscaleDart.Reset.Subtree

/-!
# Reset.Removal — the phases of a reset, and the removal of the subtree

A reset passes through three phases, each with one fact that a crash cannot take away.

* Until the marker is durable nothing of the package's subtree has changed (`Untouched`), and the key has
  not been asked for.
* While the key and the subtree are removed, the marker is the only value its name can come back with
  (`Marked`). Removal works inside the tree below the package's directory; the root is not in that tree.
* Once the removal of the subtree is durable its name can only come back absent (`Gone`), and the key is
  gone. The marker no longer matters, whether it is removed, lost or restored.
-/

namespace TailscaleDart.Reset

open Conc Durable Disk Store

/-! ## The phases -/

/-- Reachable from the package's directory. -/
def InTree (d : Disk) (sub : Inode) : Inode → Prop :=
  Relation.ReflTransGen (fun i j => ∃ name, d.lookup i name = some j) sub

/-- What a reset starts from: key and envelope are there (the key is the other half of the state), the
subtree is durable, and the root is not below it. The marker may or may not be there. -/
structure Coherent (root sub : Inode) (d : Disk) : Prop where
  sound : d.Sound
  rootBound : root < d.next
  subtree : d.possible root ownedStateSubdirectory = [some sub]
  envelope : ∃ file, d.lookup sub encryptedStateFileName = some file
  stable : ∀ j, InTree d sub j → (d.nodes j).stable = true
  durable : ∀ j, InTree d sub j → ∀ name, ∃ v, d.possible j name = [v]
  apart : ¬ InTree d sub root

variable {root sub : Inode} {d : Disk}

theorem Coherent.lookup_subtree (h : Coherent root sub d) :
    d.lookup root ownedStateSubdirectory = some sub := (List.cons.inj h.subtree).1

theorem Coherent.inTree_bound {j : Inode} (h : Coherent root sub d) (hj : InTree d sub j) : j < d.next := by
  induction hj with
  | refl => exact (h.sound _ _ _ h.lookup_subtree).2
  | tail _ hstep _ =>
    obtain ⟨name, hname⟩ := hstep
    exact (h.sound _ _ _ hname).2

/-- Until the marker is durable: old inodes keep what was stable, and only the two marker names of the root
can have changed. -/
structure Untouched (d0 : Disk) (root : Inode) (d : Disk) : Prop where
  next : d0.next ≤ d.next
  file : ∀ i, i < d0.next → (d0.nodes i).stable = true → (d.nodes i).toFile = (d0.nodes i).toFile
  entry : ∀ j name, j < d0.next →
    ¬ (j = root ∧ (name = stateResetMarkerFilename ∨ name = stateResetMarkerTempFilename)) →
    d.possible j name ⊆ d0.possible j name

theorem Untouched.refl (d0 : Disk) (root : Inode) : Untouched d0 root d0 :=
  ⟨Nat.le_refl _, fun _ _ _ => rfl, fun _ _ _ _ => List.Subset.refl _⟩

variable {d0 : Disk}

theorem Untouched.setEntry (h : Untouched d0 root d) {name : String}
    (hname : name = stateResetMarkerFilename ∨ name = stateResetMarkerTempFilename) (v : Option Inode) :
    Untouched d0 root (d.setEntry root name v) := by
  constructor
  · exact h.next
  · intro i hi hs
    rw [setEntry_file]
    exact h.file i hi hs
  · intro j other hj hother
    have hne : ¬ (j = root ∧ other = name) := by
      rintro ⟨rfl, rfl⟩
      exact hother ⟨rfl, hname⟩
    rw [setEntry_possible, if_neg hne]
    exact h.entry j other hj hother

theorem untouched_tolerates (d0 : Disk) (root : Inode) : Tolerates (Untouched d0 root) root d0.next where
  fresh := fun _ h => h.next
  unlinkTemp := fun _ h => h.setEntry (.inr rfl) none
  createTemp := by
    intro d node h
    constructor
    · exact Nat.le_succ_of_le h.next
    · intro i hi hs
      rw [create_file, if_neg (Nat.ne_of_lt (Nat.lt_of_lt_of_le hi h.next))]
      exact h.file i hi hs
    · intro j name hj hname
      have hne : ¬ (j = root ∧ name = stateResetMarkerTempFilename) := fun hat => hname ⟨hat.1, .inr hat.2⟩
      rw [create_possible _ _ _ _ _ _ (Nat.ne_of_lt (Nat.lt_of_lt_of_le hj h.next)), if_neg hne]
      exact h.entry j name hj hname
  rename := fun _ h => (h.setEntry (.inl rfl) _).setEntry (.inr rfl) none
  content := by
    intro d i bytes hi h
    refine ⟨h.next, ?_, fun j name hj hname => ?_⟩
    · intro j hj hs
      rw [setContent_file, if_neg (Nat.ne_of_lt (Nat.lt_of_lt_of_le hj hi))]
      exact h.file j hj hs
    · rw [setContent_possible]
      exact h.entry j name hj hname
  perm := by
    intro d i perm hi h
    refine ⟨h.next, ?_, fun j name hj hname => ?_⟩
    · intro j hj hs
      rw [setPerm_file, if_neg (Nat.ne_of_lt (Nat.lt_of_lt_of_le hj hi))]
      exact h.file j hj hs
    · rw [setPerm_possible]
      exact h.entry j name hj hname
  syncContent := by
    intro d i h
    refine ⟨h.next, ?_, fun j name hj hname => ?_⟩
    · intro j hj hs
      rw [syncContent_file]
      split
      · -- An old file that was stable is stable still.
        rw [h.file j hj hs, ← hs]
      · exact h.file j hj hs
    · rw [syncContent_possible]
      exact h.entry j name hj hname
  syncRoot := by
    intro d h
    refine ⟨h.next, ?_, fun j name hj hname => ?_⟩
    · intro j hj hs
      rw [syncEntries_file]
      exact h.file j hj hs
    · exact List.Subset.trans (syncEntries_possible_subset d root j name) (h.entry j name hj hname)

/-- While key and subtree are removed: the marker is durable, and below the package's directory there is
nothing that was not there before. -/
structure Marked (d0 : Disk) (root sub : Inode) (d : Disk) : Prop where
  bound : d0.next ≤ d.next
  marker : ∃ m, d.possible root stateResetMarkerFilename = [some m]
  top : d.lookup root ownedStateSubdirectory = none ∨ d.lookup root ownedStateSubdirectory = some sub
  inside : ∀ j, InTree d0 sub j → ∀ name, d.lookup j name = none ∨ d.lookup j name = d0.lookup j name

section Marked

variable {d0 d : Disk} {root sub dir : Inode} {name : String}

theorem Marked.remove (h : Marked d0 root sub d) (hne : ¬ (dir = root ∧ name = stateResetMarkerFilename)) :
    Marked d0 root sub (d.setEntry dir name none) := by
  have hlookup : ∀ j other, (d.setEntry dir name none).lookup j other = none ∨
      (d.setEntry dir name none).lookup j other = d.lookup j other := by
    intro j other
    rw [setEntry_lookup]
    split
    · exact .inl rfl
    · exact .inr rfl
  constructor
  · exact h.bound
  · obtain ⟨m, hm⟩ := h.marker
    have hat : ¬ (root = dir ∧ stateResetMarkerFilename = name) := fun hat => hne ⟨hat.1.symm, hat.2.symm⟩
    exact ⟨m, by rw [setEntry_possible, if_neg hat, hm]⟩
  · rcases hlookup root ownedStateSubdirectory with hnone | hsame
    · exact .inl hnone
    · rw [hsame]
      exact h.top
  · intro j hj other
    rcases hlookup j other with hnone | hsame
    · exact .inl hnone
    · rw [hsame]
      exact h.inside j hj other

theorem Marked.syncEntries (h : Marked d0 root sub d) : Marked d0 root sub (d.syncEntries dir) := by
  constructor
  · exact h.bound
  · obtain ⟨m, hm⟩ := h.marker
    refine ⟨m, ?_⟩
    rw [syncEntries_possible]
    split
    · rw [(List.cons.inj hm).1]
    · exact hm
  · rw [syncEntries_lookup]
    exact h.top
  · intro j hj other
    rw [syncEntries_lookup]
    exact h.inside j hj other

theorem Marked.child (h : Marked d0 root sub d) {i : Inode} (hdir : InTree d0 sub dir)
    (hi : d.lookup dir name = some i) : InTree d0 sub i := by
  rcases h.inside dir hdir name with hnone | hsame
  · rw [hnone] at hi
    cases hi
  · exact hdir.tail ⟨name, hsame ▸ hi⟩

end Marked

/-- Once the removal of the subtree is durable. -/
structure Gone (root bound : Inode) (d : Disk) : Prop where
  rootOld : root < bound
  next : bound ≤ d.next
  absent : d.possible root ownedStateSubdirectory = [none]

theorem Gone.setEntry {bound : Inode} (h : Gone root bound d) {name : String}
    (hname : name ≠ ownedStateSubdirectory) (v : Option Inode) : Gone root bound (d.setEntry root name v) := by
  refine ⟨h.rootOld, h.next, ?_⟩
  have hne : ¬ (root = root ∧ ownedStateSubdirectory = name) := fun hat => hname hat.2.symm
  rw [setEntry_possible, if_neg hne, h.absent]

theorem gone_tolerates (root bound : Inode) : Tolerates (Gone root bound) root bound where
  fresh := fun _ h => h.next
  unlinkTemp := fun _ h => h.setEntry (by decide) none
  createTemp := by
    intro d node h
    refine ⟨h.rootOld, Nat.le_succ_of_le h.next, ?_⟩
    have hne : ¬ (root = root ∧ ownedStateSubdirectory = stateResetMarkerTempFilename) :=
      fun hat => absurd hat.2 (by decide)
    rw [create_possible _ _ _ _ _ _ (Nat.ne_of_lt (Nat.lt_of_lt_of_le h.rootOld h.next)), if_neg hne, h.absent]
  rename := fun _ h => (h.setEntry (by decide) _).setEntry (by decide) none
  content := fun _ _ _ _ h => ⟨h.rootOld, h.next, by rw [setContent_possible, h.absent]⟩
  perm := fun _ _ _ _ h => ⟨h.rootOld, h.next, by rw [setPerm_possible, h.absent]⟩
  syncContent := fun _ _ h => ⟨h.rootOld, h.next, by rw [syncContent_possible, h.absent]⟩
  syncRoot := by
    intro d h
    refine ⟨h.rootOld, h.next, ?_⟩
    rw [syncEntries_possible, if_pos rfl, (List.cons.inj h.absent).1]

/-! ## Removing the subtree keeps the marker -/

/-- The removal works inside the tree below the package's directory, at any level and on any device. -/
theorem marked_confines (h0 : Coherent root sub d0) (device : Nat) :
    Confines (Marked d0 root sub) (fun _ => InTree d0 sub) (fun _ => InTree d0 sub) root device where
  removeTop := fun _ hd => hd.remove fun hat => absurd hat.2 (by decide)
  remove := fun _ _ _ _ hd hdir _ => hd.remove fun hat => h0.apart (hat.1 ▸ hdir)
  sync := fun _ _ hd => hd.syncEntries
  foundTop := by
    intro d i hd hi _
    rcases hd.top with hnone | hsome
    · rw [hnone] at hi
      cases hi
    · rw [hsome] at hi
      cases hi
      exact .refl
  found := fun _ _ _ _ _ hd hdir hi _ => hd.child hdir hi
  enter := fun _ _ _ _ hin _ => hin

theorem removeOwnedStateSubtree_safe (h0 : Coherent root sub d0) {rootInfo : Info} (hd : Marked d0 root sub d) :
    Safe (alone (Marked d0 root sub))
      (fun r d' => Marked d0 root sub d' ∧ (r = .ok () → d'.lookup root ownedStateSubdirectory = none))
      (removeOwnedStateSubtree root rootInfo).run d :=
  (marked_confines h0 rootInfo.device).removeOwnedStateSubtree_safe hd

end TailscaleDart.Reset
