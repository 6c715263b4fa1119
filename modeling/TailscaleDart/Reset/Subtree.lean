import TailscaleDart.Reset.Marker

/-!
# Reset.Subtree — the removal of the subtree and an invariant

What the recursive removal can do to the disk, said once: an invariant that survives the removal of entries
from the directories it may work in (`Confines`) is kept by every part of it, whatever the listings give and
whichever calls fail. Directories are followed level by level, from the lookup that finds one (`Found`) to the
comparison of devices that lets the removal in (`At`).
-/

namespace TailscaleDart.Reset

open Conc Durable Disk Store

/-- What the removal asks of an invariant. `Found depth` holds of a directory when it is opened, and `At depth` once its
device is that of the root. -/
structure Confines (I : Disk → Prop) (Found At : Nat → Inode → Prop) (root : Inode) (device : Nat) : Prop where
  removeTop : ∀ d, I d → I (d.setEntry root ownedStateSubdirectory none)
  remove : ∀ d depth dir name, I d → At depth dir → depth < stateResetMaximumDepth → I (d.setEntry dir name none)
  sync : ∀ d dir, I d → I (d.syncEntries dir)
  foundTop : ∀ d i, I d → d.lookup root ownedStateSubdirectory = some i → (d.nodes i).kind = .directory → Found 0 i
  found : ∀ d depth dir name i, I d → At depth dir → d.lookup dir name = some i → (d.nodes i).kind = .directory →
    Found (depth + 1) i
  enter : ∀ d depth i, I d → Found depth i → (d.nodes i).device = device → At depth i

section Calls

variable {I : Disk → Prop} {dir : Inode} {name : String}

/-- `unlinkat` takes the entry away, or has no effect. -/
theorem unlinkAt_effect (dir : Inode) (name : String) (d : Disk) : ∃ f, unlinkAt dir name = sysCall f ∧
      ((∃ e, f d = (.error e, d)) ∨ f d = (.ok (), d.setEntry dir name none)) := by
  refine ⟨_, rfl, ?_⟩
  cases d.lookup dir name with
  | none => exact .inl ⟨_, rfl⟩
  | some i =>
    dsimp only
    split
    · exact .inl ⟨_, rfl⟩
    · exact .inr rfl

theorem rmdirAt_effect (dir : Inode) (name : String) (d : Disk) : ∃ f, rmdirAt dir name = sysCall f ∧
      ((∃ e, f d = (.error e, d)) ∨ f d = (.ok (), d.setEntry dir name none)) := by
  refine ⟨_, rfl, ?_⟩
  cases d.lookup dir name with
  | none => exact .inl ⟨_, rfl⟩
  | some i =>
    dsimp only
    split
    · exact .inl ⟨_, rfl⟩
    · split
      · exact .inl ⟨_, rfl⟩
      · exact .inr rfl

/-- A call of either kind, with what its success says. -/
theorem removed_safe {call : Sys (Except Errno Unit)} {d : Disk} (hd : I d) (hremoved : I (d.setEntry dir name none))
    (hcall : ∃ f, call = sysCall f ∧ ((∃ e, f d = (.error e, d)) ∨ f d = (.ok (), d.setEntry dir name none))) :
    Safe (alone I) (fun r d' => I d' ∧ (r = .ok () → d'.lookup dir name = none)) call d := by
  obtain ⟨f, rfl, hf⟩ := hcall
  apply Safe.sysCall (fun code => ⟨hd, nofun⟩) hd
  rcases hf with ⟨e, he⟩ | hok
  · rw [he]
    exact ⟨hd, hd, nofun⟩
  · rw [hok]
    exact ⟨hremoved, hremoved, fun _ => by rw [setEntry_lookup, if_pos ⟨rfl, rfl⟩]⟩

theorem removed_keeps {call : Sys (Except Errno Unit)} (hremove : ∀ d, I d → I (d.setEntry dir name none))
    (hcall : ∀ d, ∃ f, call = sysCall f ∧ ((∃ e, f d = (.error e, d)) ∨ f d = (.ok (), d.setEntry dir name none))) :
    Keeps I (IfOk fun _ => True) call :=
  fun d hd => .weaken (fun r _ hr => ⟨hr.1, ifOk_true r⟩) _ _ (removed_safe hd (hremove d hd) (hcall d))

theorem forEach_keeps {body : String → Fallible Err Unit} (hbody : ∀ name, Keeps I (IfOk fun _ => True) (body name).run)
    (names : List String) : Keeps I (IfOk fun _ => True) (forEach names body).run := by
  induction names with
  | nil => exact .pure trivial
  | cons name names ih => exact .andThen (hbody name) fun _ _ => ih

end Calls

section Confines

variable {I : Disk → Prop} {Found At : Nat → Inode → Prop} {root dir : Inode} {device depth : Nat} {name : String}

/-- A directory opened under a name of which the invariant knows where it leads, and the device it reports. -/
theorem Confines.openDirectoryAt_keeps (h : Confines I Found At root device) {expected : Info}
    (hfound : ∀ d i, I d → d.lookup dir name = some i → (d.nodes i).kind = .directory → Found depth i) :
    Keeps I (IfOk fun opened => opened.2.device = device → At depth opened.1)
      (openDirectoryAt dir name expected).run := by
  apply Keeps.andThen (Q := Found depth)
  · apply Keeps.attempt
    apply Keeps.sysCall
    intro d hd
    cases hi : d.lookup dir name with
    | none => exact ⟨hd, trivial⟩
    | some i =>
      dsimp only
      split
      · next hkind => exact ⟨hd, hfound d i hd hi hkind⟩
      · exact ⟨hd, trivial⟩
  · intro child hchild
    apply closeOnError_keeps child
    apply Keeps.andThen (Q := fun opened : Info => opened.device = device → At depth child)
    · exact .attempt (.sysCall fun d hd => ⟨hd, h.enter d depth child hd hchild⟩)
    · intro opened henter
      exact .andThen (.require _ _) fun _ _ => .pure henter

theorem Confines.removeEntry_keeps (h : Confines I Found At root device) {removeContents : Inode → Fallible Err Unit}
    (hcontents : ∀ child, At (depth + 1) child → Keeps I (IfOk fun _ => True) (removeContents child).run)
    (hdir : At depth dir) (hdepth : depth < stateResetMaximumDepth) (name : String) :
    Keeps I (IfOk fun _ => True) (removeEntry removeContents device dir name).run := by
  have hremove := fun d hd => h.remove d depth dir name hd hdir hdepth
  apply Keeps.andThen (.require _ _)
  intro _ _
  apply Keeps.andThen (.ok (lstatAt_neutral dir name).keeps)
  intro found _
  cases found with
  | none => exact .pure trivial
  | some info =>
    dsimp only
    split
    · apply Keeps.bind (removed_keeps hremove (unlinkAt_effect dir name))
      intro r _
      split <;> exact .pure trivial
    · apply Keeps.andThen (h.openDirectoryAt_keeps fun d i hd => h.found d depth dir name i hd hdir)
      intro opened henter
      apply Keeps.andThen (Q := fun _ => True)
      · apply closeOnError_keeps opened.1
        -- The device is compared before anything of the child is listed.
        exact Keeps.andThen (Keeps.require _ _) fun _ hdevice => hcontents opened.1 (henter hdevice)
      intro _ _
      apply Keeps.andThen (Keeps.ok (Neutral.attempt (close_neutral _)).keeps)
      intro _ _
      apply Keeps.andThen (Keeps.ok (Neutral.attempt (lstat_neutral dir name)).keeps)
      intro current _
      apply Keeps.andThen (Keeps.require _ _)
      intro _ _
      exact Keeps.attempt (removed_keeps hremove (rmdirAt_effect dir name))

/-- Induction on the levels left: with none left nothing is removed. -/
theorem Confines.removeDirectoryContents_keeps (h : Confines I Found At root device) (room : Nat) :
    ∀ depth dir, depth + room = stateResetMaximumDepth → At depth dir →
      Keeps I (IfOk fun _ => True) (removeDirectoryContents device room dir).run := by
  induction room with
  | zero => exact fun depth dir _ _ => Keeps.pure trivial
  | succ room ih =>
    intro depth dir hroom hdir
    have hcontents := fun child => ih (depth + 1) child (by omega)
    apply Keeps.andThen (Keeps.ok (Neutral.attempt (readNames_neutral dir)).keeps)
    intro names _
    apply Keeps.andThen (forEach_keeps (h.removeEntry_keeps hcontents hdir (by omega)) names)
    intro _ _
    apply Keeps.andThen (Keeps.ok (Neutral.attempt (readNames_neutral dir)).keeps)
    intro _ _
    exact Keeps.attempt (Keeps.sysCall fun d hd => ⟨h.sync d dir hd, trivial⟩)

theorem Confines.removeOwnedStateSubtree_safe {rootInfo : Info} (h : Confines I Found At root rootInfo.device)
    {d : Disk}
    (hd : I d) : Safe (alone I) (fun r d' => I d' ∧ (r = .ok () → d'.lookup root ownedStateSubdirectory = none))
      (removeOwnedStateSubtree root rootInfo).run d := by
  have herror : ∀ (e : Err) d', I d' → I d' ∧
      ((.error e : Except Err Unit) = .ok () → d'.lookup root ownedStateSubdirectory = none) :=
    fun e d' hd' => ⟨hd', fun hr => by cases hr⟩
  -- The last call, in both branches.
  have hlast : ∀ {call : Sys (Except Errno Unit)} {d : Disk}, I d →
      (∃ f, call = sysCall f ∧ ((∃ e, f d = (.error e, d)) ∨
        f d = (.ok (), d.setEntry root ownedStateSubdirectory none))) →
      Safe (alone I) (fun r d' => I d' ∧ (r = .ok () → d'.lookup root ownedStateSubdirectory = none))
        (attempt (ε := Err) .foreign call).run d := by
    intro call d hd hcall
    refine Safe.attempt (Safe.weaken ?_ _ _ (removed_safe hd (h.removeTop d hd) hcall))
    intro r d' hr
    refine ⟨hr.1, fun hok => hr.2 ?_⟩
    cases r with
    | ok u => rfl
    | error e => cases hok
  apply Safe.lstatAt hd (fun e => herror e d hd)
  · intro hnone
    exact Safe.pure_alone ⟨hd, fun _ => hnone⟩
  intro info
  dsimp only
  split
  · exact hlast hd (unlinkAt_effect _ _ d)
  · apply Keeps.followed (h.openDirectoryAt_keeps h.foundTop) hd herror
    intro opened d1 hd1 henter
    apply Keeps.followed (Keeps.require _ _) hd1 herror
    intro _ d2 hd2 hdevice
    have hcontents := h.removeDirectoryContents_keeps _ 0 opened.1 (Nat.zero_add _) (henter hdevice)
    apply Keeps.followed hcontents hd2 herror
    intro _ d3 hd3 _
    apply Keeps.followed (Keeps.ok (Neutral.attempt (lstat_neutral _ _)).keeps) hd3 herror
    intro current d4 hd4 _
    apply Keeps.followed (Keeps.require _ _) hd4 herror
    intro _ d5 hd5 _
    exact hlast hd5 (rmdirAt_effect _ _ d5)

end Confines

end TailscaleDart.Reset
