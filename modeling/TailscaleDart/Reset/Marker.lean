import TailscaleDart.Reset.Transaction

/-!
# Reset.Marker — what the marker functions do to the disk

The marker is replaced through a temporary file beside it. What that can do to the disk is said once, as the
closure properties of `Tolerates`; an invariant that has them is kept by every marker function, whatever
fails on the way. The reset runs these functions in two phases, and each phase has such an invariant.
-/

namespace TailscaleDart.Reset

open Conc Durable Disk Store

/-! ## Parts that only look -/

section Neutral

variable (dir file : Inode) (name : String)

/-- Opening a name that is not a link leaves the disk as it was. -/
theorem openNoFollow_neutral : Neutral (openNoFollow dir name) := by
  refine .sysCall ?_
  intro d
  cases d.lookup dir name with
  | none => rfl
  | some i =>
    dsimp only
    split <;> rfl

theorem openDirectory_neutral : Neutral (openDirectory dir name) := by
  refine .sysCall ?_
  intro d
  cases d.lookup dir name with
  | none => rfl
  | some i =>
    dsimp only
    split <;> rfl

theorem readAll_neutral (limit : Nat) : Neutral (readAll file limit) := .sysCall fun _ => rfl

/-- The order in which the names are read is the environment's; the directory is not touched. -/
theorem readNames_neutral : Neutral (readNames dir) := by
  intro d
  refine .act_alone ?_
  intro ans r d' hf
  obtain ⟨-, rfl⟩ := Prod.mk.inj (Option.some.inj hf)
  exact ⟨rfl, .pure_alone rfl⟩

theorem lstatAt_neutral : Neutral (lstatAt dir name).run := by
  refine .bind (lstat_neutral dir name) ?_
  intro r
  split <;> exact .pure _

/-- A name found absent is absent. -/
theorem Safe.lstatAt {dir : Inode} {name : String} {β : Type} {crash : Disk → Prop} {post : Except Err β → Disk → Prop}
    {k : Option Info → Fallible Err β} {d : Disk} (hcrash : crash d) (herror : ∀ e, post (.error e) d)
    (hnone : d.lookup dir name = none → Safe (alone crash) post (k none).run d)
    (hsome : ∀ info, Safe (alone crash) post (k (some info)).run d) :
    Safe (alone crash) post (Reset.lstatAt dir name >>= k).run d := by
  apply Durable.Safe.andThen
  have hlook : Safe (alone crash) (fun r d' => d' = d ∧ (r = .error .notExist → d.lookup dir name = none))
      (lstat dir name) d := by
    apply Durable.Safe.sysCall (fun code => ⟨rfl, nofun⟩) hcrash
    cases hi : d.lookup dir name with
    | none => exact ⟨hcrash, rfl, fun _ => rfl⟩
    | some i => exact ⟨hcrash, rfl, nofun⟩
  apply Safe.bind_alone hlook
  intro r d' hr
  obtain ⟨rfl, habsent⟩ := hr
  split
  · exact .pure_alone (hsome _)
  · exact .pure_alone (hnone (habsent rfl))
  · exact .pure_alone (herror _)

theorem openMarker_neutral : Neutral (openMarker dir).run := by
  refine .bind (openNoFollow_neutral dir _) ?_
  intro r
  split <;> exact .pure _

/-- The root is looked at through its path only. -/
theorem verifyRootPath_neutral (baseRoot : RootPath) (rootInfo : Info) :
    Neutral (verifyRootPath baseRoot rootInfo).run := by
  refine .andThen (.attempt (lstat_neutral _ _)) ?_
  intro current
  refine .andThen (.require _ _) ?_
  intro _
  exact .require _ _

theorem closeRoot_neutral (fs : ResetFilesystem) : Neutral fs.closeRoot.run := by
  unfold ResetFilesystem.closeRoot
  split
  · exact .pure _
  · exact .attempt (close_neutral _)

theorem closeHeldFilesystem_neutral (fs : Option ResetFilesystem) : Neutral (closeHeldFilesystem fs).run := by
  cases fs with
  | none => exact .pure _
  | some fs => exact closeRoot_neutral fs

theorem releaseLease_neutral (leased : Bool) : Neutral (doIf leased (attempt (ε := Err) .foreign hook)).run := by
  cases leased with
  | false => exact .pure _
  | true => exact .attempt hook_neutral

/-- What ends an operation gives descriptors and the lease back, and no more. -/
theorem finishLocalResetOperation_neutral (op : LocalResetOperation) (primary : Option Err) :
    Neutral (finishLocalResetOperation op primary) :=
  Neutral.bind (closeHeldFilesystem_neutral _) fun _ => .bind (releaseLease_neutral _) fun _ => .pure _

end Neutral

/-- The close after a failure adds nothing to what the failed part may have done. -/
theorem closeOnError_keeps {I : Disk → Prop} {α : Type} {Q : α → Prop} {x : Fallible Err α} (file : Inode)
    (h : Keeps I (IfOk Q) x.run) : Keeps I (IfOk Q) (closeOnError file x).run := by
  apply Keeps.bind h
  intro r hr
  cases r with
  | ok a => exact .pure hr
  | error err => exact .bind (close_neutral file).keeps fun _ _ => .pure trivial

/-! ## The marker functions and an invariant

What `replaceMarker` and `verifyMarker` do to the disk, as closure properties: an invariant with these is
kept by them. Inodes from `bound` on are new. -/

/-- Every change the marker functions may make, one field for each call that makes it. -/
structure Tolerates (I : Disk → Prop) (root bound : Inode) : Prop where
  fresh : ∀ d, I d → bound ≤ d.next
  unlinkTemp : ∀ d, I d → I (d.setEntry root stateResetMarkerTempFilename none)
  createTemp : ∀ d node, I d → I (d.create root stateResetMarkerTempFilename node)
  rename : ∀ d, I d → I (d.rename root stateResetMarkerTempFilename stateResetMarkerFilename)
  content : ∀ d i bytes, bound ≤ i → I d → I (d.setContent i bytes)
  perm : ∀ d i perm, bound ≤ i → I d → I (d.setPerm i perm)
  syncContent : ∀ d i, I d → I (d.syncContent i)
  syncRoot : ∀ d, I d → I (d.syncEntries root)

section Marker

variable {I : Disk → Prop} {root bound : Inode} (hI : Tolerates I root bound)
include hI

/-- A failed `unlinkat` has no effect; one that succeeds removes the temporary name. -/
theorem Tolerates.unlinkAt_keeps : Keeps I (IfOk fun _ => True) (unlinkAt root stateResetMarkerTempFilename) := by
  refine .sysCall ?_
  intro d hd
  cases d.lookup root stateResetMarkerTempFilename with
  | none => exact ⟨hd, trivial⟩
  | some i =>
    dsimp only
    split
    · exact ⟨hd, trivial⟩
    · exact ⟨hI.unlinkTemp d hd, trivial⟩

/-- The temporary file is a new inode, so the writes that follow touch no file that was there before. -/
theorem Tolerates.openExcl_keeps (perm : Nat) :
    Keeps I (IfOk fun file => bound ≤ file) (openExcl root stateResetMarkerTempFilename perm) := by
  refine .sysCall ?_
  intro d hd
  cases d.lookup root stateResetMarkerTempFilename with
  | some i => exact ⟨hd, trivial⟩
  | none => exact ⟨hI.createTemp d _ hd, hI.fresh d hd⟩

variable {file : Inode}

/-- A short write leaves a beginning of the bytes, so the invariant must bear any content. -/
theorem Tolerates.write_keeps (hfile : bound ≤ file) (bytes : List UInt8) :
    Keeps I (IfOk fun _ => True) (write file bytes) := by
  intro d hd
  refine .act_alone ?_
  intro ans r d' hf
  obtain ⟨-, rfl⟩ := Prod.mk.inj (Option.some.inj hf)
  have hkept := hI.content d file ((d.nodes file).content ++ bytes.take ans.count) hfile hd
  exact ⟨hkept, .pure_alone ⟨hkept, ifOk_true _⟩⟩

theorem Tolerates.fchmod_keeps (hfile : bound ≤ file) (perm : Nat) : Keeps I (IfOk fun _ => True) (fchmod file perm) :=
  Keeps.sysCall fun d hd => ⟨hI.perm d file perm hfile hd, trivial⟩

theorem Tolerates.fsync_keeps (file : Inode) : Keeps I (IfOk fun _ => True) (fsync file) :=
  Keeps.sysCall fun d hd => ⟨hI.syncContent d file hd, trivial⟩

theorem Tolerates.fsyncDir_keeps : Keeps I (IfOk fun _ => True) (fsyncDir root) :=
  Keeps.sysCall fun d hd => ⟨hI.syncRoot d hd, trivial⟩

/-- The only step that gives the marker's own name another value. -/
theorem Tolerates.renameAt_keeps :
    Keeps I (IfOk fun _ => True) (renameAt root stateResetMarkerTempFilename stateResetMarkerFilename) := by
  refine .sysCall ?_
  intro d hd
  cases d.lookup root stateResetMarkerTempFilename with
  | none => exact ⟨hd, trivial⟩
  | some i => exact ⟨hI.rename d hd, trivial⟩

theorem Tolerates.removeStaleMarkerTemp_keeps : Keeps I (IfOk fun _ => True) (removeStaleMarkerTemp root).run := by
  refine .andThen (.ok (lstatAt_neutral root _).keeps) ?_
  intro found _
  cases found with
  | none => exact .pure trivial
  | some info => exact .andThen (.require _ _) fun _ _ => .attempt hI.unlinkAt_keeps

/-- The temporary file is written, given its bits, checked and synced before it is renamed. -/
theorem Tolerates.fillMarkerTemp_keeps (hfile : bound ≤ file) :
    Keeps I (IfOk fun _ => True) (fillMarkerTemp file).run := by
  refine .andThen (.attempt (hI.write_keeps hfile _)) ?_
  intro written _
  refine .andThen (.require _ _) fun _ _ => ?_
  refine .andThen (.attempt (hI.fchmod_keeps hfile _)) fun _ _ => ?_
  refine Keeps.andThen (Keeps.ok (Neutral.attempt (fstat_neutral file)).keeps) ?_
  intro info _
  refine .andThen (.require _ _) fun _ _ => ?_
  refine .andThen (.wrapErr (.require _ _)) fun _ _ => ?_
  refine .andThen (.require _ _) fun _ _ => ?_
  refine .andThen (.attempt (hI.fsync_keeps file)) fun _ _ => ?_
  exact .pure trivial

/-- The file that is renamed is the one that was written: its path is looked at once more. -/
theorem Tolerates.renameMarkerTemp_keeps (file : Inode) (info : Info) :
    Keeps I (IfOk fun _ => True) (renameMarkerTemp root file info).run := by
  refine Keeps.andThen (Keeps.ok (Neutral.attempt (close_neutral file)).keeps) fun _ _ => ?_
  refine Keeps.andThen (Keeps.ok (Neutral.attempt (lstat_neutral root _)).keeps) ?_
  intro currentTemp _
  refine .andThen (.require _ _) fun _ _ => ?_
  exact .attempt hI.renameAt_keeps

/-- The whole replacement, with the removal of the temporary file after a failure. -/
theorem Tolerates.replaceMarker_keeps : Keeps I (IfOk fun _ => True) (replaceMarker root).run := by
  refine .andThen (.wrapErr hI.removeStaleMarkerTemp_keeps) fun _ _ => ?_
  refine .andThen (.attempt (hI.openExcl_keeps _)) ?_
  intro file hfile
  have hcommit : Keeps I (IfOk fun _ => True) (commitMarkerTemp root file).run :=
    Keeps.andThen (closeOnError_keeps file (hI.fillMarkerTemp_keeps hfile))
      fun info _ => hI.renameMarkerTemp_keeps file info
  refine .bind hcommit ?_
  intro r _
  cases r with
  | ok _ => exact .pure trivial
  | error err => exact .bind hI.unlinkAt_keeps fun _ _ => .pure trivial

end Marker

/-- A marker that was verified is there. -/
def MarkerSeen (root : Inode) (r : Except Err Bool) (d : Disk) : Prop :=
  r = .ok true → ∃ m, d.lookup root stateResetMarkerFilename = some m

/-- Verifying syncs the marker's content at most, and answers yes only after it has looked at the name last. -/
theorem verifyMarker_safe {I : Disk → Prop} {root : Inode} {syncFile : Bool}
    (hsync : syncFile = true → ∀ d i, I d → I (d.syncContent i)) {d : Disk} (hd : I d) :
    Safe (alone I) (fun r d' => I d' ∧ MarkerSeen root r d') (verifyMarker root syncFile).run d := by
  have herror : ∀ (d : Disk) (e : Err), I d → I d ∧ MarkerSeen root (.error e) d :=
    fun d e h => ⟨h, nofun⟩
  have hinvalid : ∀ (d : Disk), I d → Safe (alone I) (fun r d' => I d' ∧ MarkerSeen root r d')
      (pure false : Fallible Err Bool).run d :=
    fun d h => .pure_alone ⟨h, nofun⟩
  apply Safe.pass (lstatAt_neutral root _) hd (fun e => herror d e hd)
  intro found
  cases found with
  | none => exact hinvalid d hd
  | some pathInfo =>
    dsimp only
    split
    · exact hinvalid d hd
    apply Safe.pass (openMarker_neutral root) hd (fun e => herror d e hd)
    intro opened
    cases opened with
    | none => exact hinvalid d hd
    | some file =>
      apply Safe.pass (.attempt (fstat_neutral file)) hd (fun e => herror d e hd)
      intro info
      split
      · exact hinvalid d hd
      apply Safe.pass (.attempt (readAll_neutral file _)) hd (fun e => herror d e hd)
      intro payload
      split
      · exact hinvalid d hd
      -- The last look at the name is what the verdict rests on; the sync before it moves no entry.
      have hlast : ∀ d', I d' → Safe (alone I) (fun r d' => I d' ∧ MarkerSeen root r d')
          (attempt .foreign (lstat root stateResetMarkerFilename) >>= fun current =>
            require (sameStateResetFile info current = true) (.text "reset marker path was replaced") >>=
              fun _ => pure true : Fallible Err Bool).run d' := by
        intro d' hd'
        apply Safe.lstat hd' (fun e => herror d' e hd')
        intro m hm
        exact Safe.require (fun _ => herror d' _ hd') fun _ => Safe.pure_alone ⟨hd', fun _ => ⟨m, hm⟩⟩
      cases syncFile with
      | false => exact hlast d hd
      | true =>
        apply Safe.call hd (fun e => herror d e hd)
        · intro e d' hf
          cases hf
        · intro u d' hf
          obtain ⟨-, rfl⟩ := Prod.mk.inj hf
          have hd' := hsync rfl d file hd
          exact ⟨hd', hlast _ hd'⟩

end TailscaleDart.Reset
