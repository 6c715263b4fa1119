import TailscaleDart.Reset.Removal

/-!
# Reset.Crash — a crash anywhere in a local reset

The two native calls move the disk from one phase of `Reset.Removal` to the next, and the key goes only
while the marker is durable. So at every step one of the three phases holds, and each of them survives a
crash as one of the three outcomes a reset may have.
-/

namespace TailscaleDart.Reset

open Conc Durable Disk Store

/-! ## Making the marker durable -/

section Marking

variable {d0 d : Disk} {root sub : Inode}

theorem verifyMarker_neutral (root : Inode) : Neutral (verifyMarker root false).run := by
  intro d
  have hsafe : Safe (alone (· = d)) (fun r d' => d' = d ∧ MarkerSeen root r d') (verifyMarker root false).run d :=
    verifyMarker_safe (nofun) rfl
  exact .weaken (fun _ _ h => h.1) _ d hsafe

theorem Untouched.marked (h0 : Coherent root sub d0) (h : Untouched d0 root d) {m : Inode}
    (hm : d.possible root stateResetMarkerFilename = [some m]) : Marked d0 root sub d := by
  refine ⟨h.next, ⟨m, hm⟩, .inr ?_, ?_⟩
  · have hmem := h.entry root ownedStateSubdirectory h0.rootBound (fun hat => absurd hat.2 (by decide))
      (lookup_mem_possible d _ _)
    rw [h0.subtree] at hmem
    exact List.mem_singleton.mp hmem
  · intro j hj name
    have hne : j ≠ root := fun heq => h0.apart (heq ▸ hj)
    have hmem := h.entry j name (h0.inTree_bound hj) (fun hat => hne hat.1) (lookup_mem_possible d _ _)
    obtain ⟨v, hv⟩ := h0.durable j hj name
    rw [hv] at hmem
    exact .inr ((List.mem_singleton.mp hmem).trans (List.cons.inj hv).1.symm)

theorem ensureDurableMarker_safe (h0 : Coherent root sub d0) {fs : ResetFilesystem} (hroot : fs.root = root)
    (hd : Untouched d0 root d) : Safe (alone (Untouched d0 root))
      (fun r d' => Untouched d0 root d' ∧ ∀ fs', r = .ok fs' → fs'.root = root ∧ Marked d0 root sub d')
      fs.ensureDurableMarker.run d := by
  subst hroot
  have hI := untouched_tolerates d0 fs.root
  have herror : ∀ (e : Err) d', Untouched d0 fs.root d' → Untouched d0 fs.root d' ∧
      ∀ fs', (.error e : Except Err ResetFilesystem) = .ok fs' → fs'.root = fs.root ∧ Marked d0 fs.root sub d' :=
    fun e d' h => ⟨h, nofun⟩
  apply Keeps.followed (.require _ _) hd herror
  intro _ d1 hd1 _
  apply Keeps.followed (.ok (verifyRootPath_neutral _ _).keeps) hd1 herror
  intro _ d2 hd2 _
  apply Keeps.followed (Keeps.ok (Neutral.wrapErr (verifyMarker_neutral _)).keeps) hd2 herror
  intro valid d3 hd3 _
  apply Keeps.followed (.doIf hI.replaceMarker_keeps) hd3 herror
  intro _ d4 hd4 _
  -- From here on the name is known to be there, and the sync of the root makes it durable.
  apply Safe.andThen
  apply Safe.bind_alone (verifyMarker_safe (fun _ => hI.syncContent) hd4)
  intro r d5 hr
  obtain ⟨hd5, hseen⟩ := hr
  cases r with
  | error e => exact Safe.pure_alone (herror _ d5 hd5)
  | ok valid =>
    apply Safe.pure_alone
    apply Safe.require (fun _ => herror _ d5 hd5)
    intro hvalid
    subst hvalid
    obtain ⟨m, hm⟩ := hseen rfl
    apply Safe.call hd5 (fun e => herror e d5 hd5)
    · intro e d' hf
      cases hf
    intro _ d6 hf
    obtain ⟨-, rfl⟩ := Prod.mk.inj hf
    have hd6 := hI.syncRoot d5 hd5
    have hmarked : Marked d0 fs.root sub (d5.syncEntries fs.root) := by
      apply hd6.marked h0 (m := m)
      rw [syncEntries_possible, if_pos rfl, hm]
    refine ⟨hd6, ?_⟩
    apply Safe.pass (verifyRootPath_neutral _ _) hd6 (fun e => herror e _ hd6)
    intro _
    apply Safe.pass (Neutral.wrapErr (verifyMarker_neutral _)) hd6 (fun e => herror e _ hd6)
    intro valid
    apply Safe.require (fun _ => herror _ _ hd6)
    intro _
    exact Safe.pure_alone ⟨hd6, fun fs' hr => by cases hr; exact ⟨rfl, hmarked⟩⟩

theorem openStateResetFilesystem_keeps {I : Disk → Prop} (baseRoot : RootPath) (expectedRoot : Info) :
    Keeps I (IfOk fun fs => fs.root = expectedRoot.inode) (openStateResetFilesystem baseRoot expectedRoot).run := by
  apply Keeps.andThen (Keeps.ok (Neutral.attempt (openDirectory_neutral _ _)).keeps)
  intro opened _
  have hverify : Keeps I (IfOk fun fs : ResetFilesystem => fs.root = expectedRoot.inode)
      (verifyRoot baseRoot expectedRoot opened).run := by
    have hstat : Keeps I (IfOk fun info : Info => info.inode = opened) (fstat opened) :=
      Keeps.sysCall fun d hd => ⟨hd, rfl⟩
    apply Keeps.andThen (Keeps.attempt hstat)
    intro rootInfo hinode
    apply Keeps.andThen (Keeps.require _ _)
    intro _ _
    apply Keeps.andThen (Keeps.require _ _)
    intro _ hsame
    apply Keeps.andThen (Keeps.wrapErr (Keeps.require _ _))
    intro _ _
    apply Keeps.andThen (Keeps.require _ _)
    intro _ _
    apply Keeps.andThen (Keeps.ok (verifyRootPath_neutral _ _).keeps)
    intro _ _
    have hroot : opened = expectedRoot.inode := by
      simp only [sameStateResetFile, Bool.and_eq_true, decide_eq_true_eq] at hsame
      rw [hsame.2, hinode]
    exact Keeps.pure hroot
  apply Keeps.bind hverify
  intro r hr
  cases r with
  | ok fs => exact Keeps.pure hr
  | error err =>
    apply Keeps.bind (close_neutral opened).keeps
    intro closed _
    cases closed <;> exact Keeps.pure trivial

theorem finishLocalResetOperation_keeps {I : Disk → Prop} (op : LocalResetOperation) (err : Err) :
    Keeps I (fun reply => reply.err ≠ none) (finishLocalResetOperation op (some err)) := by
  apply Keeps.bind (closeHeldFilesystem_neutral op.fs).keeps
  intro closed _
  apply Keeps.bind (releaseLease_neutral op.leased).keeps
  intro released _
  apply Keeps.pure
  dsimp only
  cases (joinErrs (failure closed) (failure released)).map cleanupFailureError <;> exact Option.some_ne_none _

/-- A reply without an error: the marker is durable, and the operation holds the root it was made in. -/
def Begun (d0 : Disk) (root sub : Inode) (reply : Reply) (d : Disk) : Prop :=
  Untouched d0 root d ∧ (reply.err = none → Marked d0 root sub d ∧
    ∀ op fs, reply.reset = some op → op.fs = some fs → fs.root = root)

theorem begun_of_error {reply : Reply} (h : Untouched d0 root d) (hne : reply.err ≠ none) :
    Begun d0 root sub reply d := ⟨h, fun hnone => absurd hnone hne⟩

theorem givenUp_safe (h : Untouched d0 root d) (op : LocalResetOperation) (err : Err) :
    Safe (alone (Untouched d0 root)) (Begun d0 root sub) (finishLocalResetOperation op (some err)) d :=
  Safe.weaken (fun _ _ hr => begun_of_error hr.1 hr.2) _ d (finishLocalResetOperation_keeps op err d h)

theorem beginLocalReset_safe (h0 : Coherent root sub d0) (active : Bool) (token : Nat) (baseRoot : RootPath)
    {expectedRoot : Info} (hroot : expectedRoot.inode = root) (h : Untouched d0 root d) :
    Safe (alone (Untouched d0 root)) (Begun d0 root sub) (beginLocalReset active token baseRoot expectedRoot) d := by
  have hfail : ∀ (reset : Option LocalResetOperation) (err : Err) d', Untouched d0 root d' →
      Safe (alone (Untouched d0 root)) (Begun d0 root sub) (.pure { reset := reset, err := some err } : Sys Reply) d' :=
    fun reset err d' h' => Safe.pure_alone (begun_of_error h' (Option.some_ne_none err))
  unfold beginLocalReset
  split
  · exact hfail none _ d h
  have hsnapshot : Neutral (configuredStateRootSnapshot baseRoot expectedRoot).run :=
    Neutral.andThen (Neutral.attempt (lstat_neutral _ _)) fun _ => Neutral.require _ _
  apply Safe.bind_alone (hsnapshot.keeps d h)
  intro r d1 h1
  cases r with
  | error err => exact hfail none err d1 h1.1
  | ok _ =>
    have hadmission : Neutral admitLocalReset.run := Neutral.attempt hook_neutral
    apply Safe.bind_alone (hadmission.keeps d1 h1.1)
    intro r d2 h2
    cases r with
    | error err => exact hfail none err d2 h2.1
    | ok _ =>
      have htake : Neutral (attempt (ε := Err) .foreign hook).run := Neutral.attempt hook_neutral
      apply Safe.bind_alone (htake.keeps d2 h2.1)
      intro r d3 h3
      cases r with
      | error err =>
        cases active with
        | true => exact hfail _ _ d3 h3.1
        | false => exact givenUp_safe h3.1 _ err
      | ok _ =>
        apply Safe.bind_alone (openStateResetFilesystem_keeps baseRoot expectedRoot d3 h3.1)
        intro r d4 h4
        cases r with
        | error err => exact givenUp_safe h4.1 _ err
        | ok fs =>
          have hfs : fs.root = root := h4.2.trans hroot
          apply Safe.bind_alone (ensureDurableMarker_safe h0 hfs h4.1)
          intro r d5 h5
          cases r with
          | error err => exact givenUp_safe h5.1 _ err
          | ok fs' =>
            obtain ⟨hfs', hmarked⟩ := h5.2 fs' rfl
            refine Safe.pure_alone ⟨h5.1, fun _ => ⟨hmarked, ?_⟩⟩
            intro op fs'' hop hfs''
            cases hop
            cases hfs''
            exact hfs'

end Marking

/-! ## Removing the subtree and the marker -/

section Completing

variable {d0 d : Disk} {root sub : Inode}

/-- The second and third phase. -/
def Removing (d0 : Disk) (root sub : Inode) (d : Disk) : Prop := Marked d0 root sub d ∨ Gone root d0.next d

/-- After the marker was unlinked, whatever happens to it. -/
theorem restoringMarker_keeps {I : Disk → Prop} {bound : Inode} (hI : Tolerates I root bound) {α : Type}
    {x : Fallible Err α} (context : String) (hx : Keeps I (fun _ => True) x.run) :
    Keeps I (IfOk fun _ => True) (restoringMarker root context x).run := by
  have hrestore : Keeps I (IfOk fun _ => True) (replaceAndCommitMarker root).run := by
    apply Keeps.andThen hI.replaceMarker_keeps
    intro _ _
    have hverify : Keeps I (IfOk fun _ => True) (verifyMarker root true).run := by
      intro d hd
      exact Safe.weaken (fun r d' h => ⟨h.1, ifOk_true r⟩) _ d (verifyMarker_safe (fun _ => hI.syncContent) hd)
    apply Keeps.andThen hverify
    intro valid _
    exact Keeps.andThen (Keeps.require _ _) fun _ _ => Keeps.attempt hI.fsyncDir_keeps
  apply Keeps.bind hx
  intro r _
  cases r with
  | ok a => exact Keeps.pure trivial
  | error err =>
    have hreport : Keeps I (fun _ => True) (restoreMarkerAfterCompletionFailure root context err) := by
      apply Keeps.bind hrestore
      intro r _
      cases r <;> exact Keeps.pure trivial
    exact Keeps.bind hreport fun _ _ => Keeps.pure trivial

theorem completeAfterCustodyDeletion_safe (h0 : Coherent root sub d0) {fs : ResetFilesystem} (hroot : fs.root = root)
    (hd : Marked d0 root sub d) : Safe (alone (Removing d0 root sub)) (fun _ d' => Removing d0 root sub d')
      fs.completeAfterCustodyDeletion.run d := by
  subst hroot
  apply Safe.require (fun _ => .inl hd)
  intro _
  apply Safe.require (fun _ => .inl hd)
  intro _
  apply Safe.pass (Neutral.wrapErr (verifyRootPath_neutral _ _)) (.inl hd) (fun _ => .inl hd)
  intro _
  apply Safe.pass (Neutral.wrapErr (verifyMarker_neutral _)) (.inl hd) (fun _ => .inl hd)
  intro valid
  apply Safe.require (fun _ => .inl hd)
  intro _
  apply Safe.andThen
  apply Safe.bind_alone (Safe.weaken_alone (fun _ h => .inl h) _ d (removeOwnedStateSubtree_safe h0 hd))
  intro r d1 hr
  obtain ⟨hd1, hremoved⟩ := hr
  cases r with
  | error e => exact Safe.pure_alone (.inl hd1)
  | ok _ =>
    apply Safe.pure_alone
    have habsent : d1.lookup fs.root ownedStateSubdirectory = none := hremoved rfl
    apply Safe.call (.inl hd1) (fun _ => .inl hd1)
    · intro e d' hf
      cases hf
    intro _ d2 hf
    obtain ⟨-, rfl⟩ := Prod.mk.inj hf
    have hgone : Gone fs.root d0.next (d1.syncEntries fs.root) := by
      refine ⟨h0.rootBound, hd1.bound, ?_⟩
      rw [syncEntries_possible, if_pos rfl, habsent]
    have hI := gone_tolerates fs.root d0.next
    -- From here on the third phase holds and is all that is needed.
    have hrest : ∀ (p : Sys (Except Err ResetFilesystem)), Keeps (Gone fs.root d0.next) (IfOk fun _ => True) p →
        Safe (alone (Removing d0 fs.root sub)) (fun _ d' => Removing d0 fs.root sub d') p (d1.syncEntries fs.root) :=
      fun p hp => Safe.weaken_alone (fun _ h => .inr h) p _
        (Safe.weaken (fun _ _ h => .inr h.1) p _ (hp _ hgone))
    refine ⟨.inr hgone, hrest _ ?_⟩
    apply Keeps.andThen (Keeps.ok (Neutral.wrapErr (verifyRootPath_neutral _ _)).keeps)
    intro _ _
    apply Keeps.andThen (Keeps.ok (Neutral.wrapErr (verifyMarker_neutral _)).keeps)
    intro valid _
    apply Keeps.andThen (Keeps.require _ _)
    intro _ _
    have hunlink : Keeps (Gone fs.root d0.next) (IfOk fun _ => True) (unlinkAt fs.root stateResetMarkerFilename) := by
      apply Keeps.sysCall
      intro d hd
      cases d.lookup fs.root stateResetMarkerFilename with
      | none => exact ⟨hd, trivial⟩
      | some i =>
        dsimp only
        split
        · exact ⟨hd, trivial⟩
        · exact ⟨hd.setEntry (by decide) none, trivial⟩
    apply Keeps.andThen (Keeps.attempt hunlink)
    intro _ _
    apply Keeps.andThen (restoringMarker_keeps hI _
      ((Keeps.attempt hI.fsyncDir_keeps).weaken fun _ _ => trivial))
    intro _ _
    apply Keeps.andThen (restoringMarker_keeps hI _ (verifyRootPath_neutral _ _).keeps)
    intro _ _
    apply Keeps.andThen (restoringMarker_keeps hI _ (lstatAt_neutral _ _).keeps)
    intro marker _
    exact Keeps.andThen (Keeps.require _ _) fun _ _ => Keeps.pure trivial

theorem finishLocalReset_unconfirmed (reset : Option LocalResetOperation) (token : Nat) :
    Neutral (finishLocalReset reset token false) := by
  cases reset with
  | none => exact Neutral.pure _
  | some op =>
    unfold finishLocalReset
    dsimp only
    split
    · exact Neutral.pure _
    · split
      · exact Neutral.pure _
      · exact Neutral.bind (Neutral.pure _) fun _ => finishLocalResetOperation_neutral _ _

theorem finishLocalReset_safe (h0 : Coherent root sub d0) {reset : Option LocalResetOperation} {token : Nat}
    (hfs : ∀ op fs, reset = some op → op.fs = some fs → fs.root = root) (hd : Marked d0 root sub d) :
    Safe (alone (Removing d0 root sub)) (fun _ d' => Removing d0 root sub d')
      (finishLocalReset reset token true) d := by
  cases reset with
  | none => exact Safe.pure_alone (.inl hd)
  | some op =>
    unfold finishLocalReset
    dsimp only
    split
    · exact Safe.pure_alone (.inl hd)
    split
    · exact Safe.pure_alone (.inl hd)
    have hcomplete : Safe (alone (Removing d0 root sub)) (fun _ d' => Removing d0 root sub d')
        (completeLocalReset op.fs true) d := by
      cases hop : op.fs with
      | none => exact Safe.pure_alone (.inl hd)
      | some fs =>
        apply Safe.bind_alone (completeAfterCustodyDeletion_safe h0 (hfs op fs rfl hop) hd)
        intro r d' hd'
        exact Safe.pure_alone hd'
    apply Safe.bind_alone hcomplete
    intro operationErr d' hd'
    exact (finishLocalResetOperation_neutral _ _).safe hd' fun _ => hd'

end Completing

/-! ## The whole reset -/

section Whole

variable {d0 : Disk} {root sub : Inode}

/-- What holds of disk and key at every step. -/
def Phase (d0 : Disk) (root sub : Inode) (w : World) : Prop :=
  (w.2 = true ∧ Untouched d0 root w.1) ∨ Marked d0 root sub w.1 ∨ (w.2 = false ∧ Gone root d0.next w.1)

/-- A native call seen from the whole. -/
theorem native_safe {α : Type} {I : Disk → Prop} {post : α → Disk → Prop} {p : Sys α} {w : World}
    (hp : Safe (alone I) post p w.1) (hphase : ∀ d, I d → Phase d0 root sub (d, w.2)) :
    Safe (alone (Phase d0 root sub)) (fun a w' => post a w'.1 ∧ w'.2 = w.2) p.onFst w := by
  apply Safe.weaken_alone _ _ w (Safe.onFst w.2 p w.1 hp)
  rintro ⟨d, key⟩ ⟨hd, rfl⟩
  exact hphase d hd

theorem runForgetLocalIdentity_safe (h0 : Coherent root sub d0) (active : Bool) (token : Nat)
    (baseRoot : RootPath) {expectedRoot : Info} (hroot : expectedRoot.inode = root) :
    Safe (alone (Phase d0 root sub)) (fun _ w => Phase d0 root sub w)
      (runForgetLocalIdentity active token baseRoot expectedRoot) (d0, true) := by
  apply Safe.bind_alone (native_safe
    (beginLocalReset_safe h0 active token baseRoot hroot (Untouched.refl d0 root)) fun d hd => .inl ⟨rfl, hd⟩)
  rintro begun ⟨d1, key⟩ ⟨⟨huntouched, hbegun⟩, hkey⟩
  obtain rfl : key = true := hkey
  have hphase : Phase d0 root sub (d1, true) := .inl ⟨rfl, huntouched⟩
  apply Safe.act_alone
  rintro ans lost w hf
  obtain ⟨rfl, rfl⟩ := Prod.mk.inj (Option.some.inj hf)
  refine ⟨hphase, ?_⟩
  cases ans.fault.isSome with
  | true =>
    -- The operation is settled as unconfirmed: nothing happens to disk or key.
    have hsettle := (finishLocalReset_unconfirmed begun.reset token).keeps d1 huntouched
    apply Safe.bind_alone (native_safe (w := (d1, true)) hsettle fun d hd => .inl ⟨rfl, hd⟩)
    rintro settled ⟨d2, key⟩ ⟨hd2, hkey⟩
    exact Safe.pure_alone (.inl ⟨hkey, hd2.1⟩)
  | false =>
    cases herr : begun.err with
    | some err => exact Safe.pure_alone hphase
    | none =>
      obtain ⟨hmarked, hfs⟩ := hbegun herr
      -- Whatever the deletion did to the key, the marker is durable.
      apply Safe.act_alone
      intro ans custody w hf
      have hw : w.1 = d1 ∧ (failure custody = none → w.2 = false) := by
        cases hans : ans.fault with
        | none =>
          simp only [hans, Option.some.injEq, Prod.mk.injEq] at hf
          obtain ⟨rfl, rfl⟩ := hf
          exact ⟨rfl, fun _ => rfl⟩
        | some code =>
          simp only [hans, Option.some.injEq, Prod.mk.injEq] at hf
          obtain ⟨rfl, rfl⟩ := hf
          exact ⟨rfl, fun hnone => by cases hnone⟩
      obtain ⟨d2, key⟩ := w
      obtain ⟨rfl, hdeleted⟩ : d2 = d1 ∧ (failure custody = none → key = false) := hw
      refine ⟨.inr (.inl hmarked), ?_⟩
      rw [Prog.pure_bind]
      cases hcustody : failure custody with
      | some err =>
        have hsettle := (finishLocalReset_unconfirmed begun.reset token).keeps d2 hmarked
        apply Safe.bind_alone (native_safe (w := (d2, key)) hsettle fun d hd => .inr (.inl hd))
        rintro finished ⟨d3, key'⟩ ⟨hd3, -⟩
        exact Safe.pure_alone (.inr (.inl hd3.1))
      | none =>
        obtain rfl := hdeleted hcustody
        have hstep : ∀ d, Removing d0 root sub d → Phase d0 root sub (d, false) := by
          intro d hd
          rcases hd with hmarked | hgone
          · exact .inr (.inl hmarked)
          · exact .inr (.inr ⟨rfl, hgone⟩)
        apply Safe.bind_alone (native_safe (w := (d2, false)) (finishLocalReset_safe h0 hfs hmarked) hstep)
        rintro finished ⟨d3, key'⟩ ⟨hd3, hkey⟩
        obtain rfl : key' = false := hkey
        exact Safe.pure_alone (hstep d3 hd3)

/-! ## What a crash leaves -/

/-- The durable state after a process has stopped: the key as it is, and the disk as it is or as a crash
leaves it. -/
def Remains (w w' : World) : Prop := w'.2 = w.2 ∧ (w'.1 = w.1 ∨ Crashed w.1 w'.1)

/-- The marker is visible, and the next inspection says so whatever the calls it makes report. -/
def MarkerVisible (root : Inode) (d : Disk) : Prop :=
  (∃ m, d.lookup root stateResetMarkerFilename = some m) ∧
    ∀ depth ans es, ∃ err, (inspectPersistentStateLayout depth root).run.exec (ans :: es) d = some (.error err, d) ∧
      err.is .localResetIncomplete = true

/-- The package's directory is there, and everything below it is as it was. -/
def SubtreeUntouched (d0 : Disk) (root sub : Inode) (d : Disk) : Prop :=
  d.lookup root ownedStateSubdirectory = some sub ∧
    ∀ j, InTree d0 sub j → (d.nodes j).toFile = (d0.nodes j).toFile ∧ ∀ name, d.lookup j name = d0.lookup j name

theorem inspect_marker {d : Disk} {m : Inode} (hm : d.lookup root stateResetMarkerFilename = some m) :
    MarkerVisible root d := by
  refine ⟨⟨m, hm⟩, ?_⟩
  intro depth ans es
  cases hfault : ans.fault with
  | some code =>
    refine ⟨described .localResetIncomplete "%w: inspect reset marker: %v" (Errno.fault code), ?_, rfl⟩
    simp only [inspectPersistentStateLayout, lstat, sysCall, Prog.step, ExceptT.run_bind, ExceptT.run_mk,
      Prog.bind_eq, Prog.act_bind, Prog.exec, hfault]
    rfl
  | none =>
    refine ⟨.note "%w: marker %q is present" (.sentinel .localResetIncomplete), ?_, rfl⟩
    simp only [inspectPersistentStateLayout, lstat, sysCall, Prog.step, ExceptT.run_bind, ExceptT.run_mk,
      Prog.bind_eq, Prog.act_bind, Prog.exec, hfault, hm]
    rfl

theorem Remains.lookup_mem {w w' : World} (h : Remains w w') (dir : Inode) (name : String) :
    w'.1.lookup dir name ∈ w.1.possible dir name := by
  rcases h.2 with hsame | hcrash
  · rw [hsame]
    exact lookup_mem_possible _ _ _
  · exact hcrash.lookup_mem dir name

theorem Remains.file {w w' : World} (h : Remains w w') {i : Inode} (hs : (w.1.nodes i).stable = true) :
    (w'.1.nodes i).toFile = (w.1.nodes i).toFile := by
  rcases h.2 with hsame | hcrash
  · rw [hsame]
  · exact hcrash.file hs

theorem Untouched.remains (h0 : Coherent root sub d0) {w w' : World} (h : Untouched d0 root w.1)
    (hleft : Remains w w') : SubtreeUntouched d0 root sub w'.1 := by
  constructor
  · have hmem := h.entry root ownedStateSubdirectory h0.rootBound (fun hat => absurd hat.2 (by decide))
      (hleft.lookup_mem _ _)
    rw [h0.subtree] at hmem
    exact List.mem_singleton.mp hmem
  intro j hj
  have hbound := h0.inTree_bound hj
  have hfile := h.file j hbound (h0.stable j hj)
  constructor
  · have hstable : (w.1.nodes j).stable = true := (congrArg File.stable hfile).trans (h0.stable j hj)
    exact (hleft.file hstable).trans hfile
  · intro name
    have hne : j ≠ root := fun heq => h0.apart (heq ▸ hj)
    have hmem := h.entry j name hbound (fun hat => hne hat.1) (hleft.lookup_mem _ _)
    obtain ⟨v, hv⟩ := h0.durable j hj name
    rw [hv] at hmem
    exact (List.mem_singleton.mp hmem).trans (List.cons.inj hv).1.symm

/-- Stop a reset after any prefix of its steps, with any call failing, and let the process or the machine
crash there: the marker is visible and the next inspection reports the interrupted reset, or key and
subtree are both untouched, or both are gone. -/
theorem reset_crash_safe (h0 : Coherent root sub d0) (active : Bool) (token : Nat) (baseRoot : RootPath)
    (expectedRoot : Info) (hroot : expectedRoot.inode = root) (answers : List Answer) (w : World)
    (hleft : Remains ((runForgetLocalIdentity active token baseRoot expectedRoot).haltAfter answers (d0, true)) w) :
    MarkerVisible root w.1 ∨ (w.2 = true ∧ SubtreeUntouched d0 root sub w.1) ∨
      (w.2 = false ∧ w.1.lookup root ownedStateSubdirectory = none) := by
  have hstart : Phase d0 root sub (d0, true) := .inl ⟨rfl, Untouched.refl d0 root⟩
  have hphase : Phase d0 root sub ((runForgetLocalIdentity active token baseRoot expectedRoot).haltAfter answers
      (d0, true)) := (runForgetLocalIdentity_safe h0 active token baseRoot hroot).haltAfter hstart
  rcases hphase with ⟨hkey, huntouched⟩ | hmarked | ⟨hkey, hgone⟩
  · exact .inr (.inl ⟨hleft.1.trans hkey, huntouched.remains h0 hleft⟩)
  · obtain ⟨m, hm⟩ := hmarked.marker
    have hmem := hleft.lookup_mem root stateResetMarkerFilename
    rw [hm] at hmem
    exact .inl (inspect_marker (List.mem_singleton.mp hmem))
  · have hmem := hleft.lookup_mem root ownedStateSubdirectory
    rw [hgone.absent] at hmem
    exact .inr (.inr ⟨hleft.1.trans hkey, List.mem_singleton.mp hmem⟩)

end Whole

/-! ## A reset that stops half way -/

/-- A root with an envelope in the package's directory. -/
def identityDisk : Disk :=
  (((emptyDisk.create 0 "root" { kind := .directory, owned := true, perm := 0o700 }).create 1
    ownedStateSubdirectory { kind := .directory, owned := true, perm := 0o700 }).create 2
    encryptedStateFileName { kind := .regular, owned := true, perm := 0o600 }).settle

theorem identityDisk_lookup {j i : Inode} {name : String} (h : identityDisk.lookup j name = some i) :
    (j = 0 ∧ i = 1) ∨ (j = 1 ∧ i = 2) ∨ (j = 2 ∧ i = 3) := by
  rcases lookup_of_create rfl h with hfile | h
  · exact .inr (.inr ⟨hfile.1, hfile.2.2⟩)
  rcases lookup_of_create rfl h with hsub | h
  · exact .inr (.inl ⟨hsub.1, hsub.2.2⟩)
  rcases lookup_of_create rfl h with hroot | h
  · exact .inl ⟨hroot.1, hroot.2.2⟩
  · simp [Disk.lookup, emptyDisk] at h

theorem identityDisk_tree {j : Inode} (h : InTree identityDisk 2 j) : 2 ≤ j := by
  induction h with
  | refl => exact Nat.le_refl 2
  | tail _ hstep ih =>
    obtain ⟨name, hname⟩ := hstep
    rcases identityDisk_lookup hname with ⟨rfl, rfl⟩ | ⟨rfl, rfl⟩ | ⟨rfl, rfl⟩
    · exact absurd ih (by decide)
    · decide
    · decide

theorem identityDisk_coherent : Coherent 1 2 identityDisk where
  sound := by
    intro dir name i h
    rcases identityDisk_lookup h with ⟨rfl, rfl⟩ | ⟨rfl, rfl⟩ | ⟨rfl, rfl⟩ <;> decide
  rootBound := by decide
  subtree := by decide +kernel
  envelope := ⟨3, by decide +kernel⟩
  stable := fun _ _ => rfl
  durable := fun j _ name => ⟨identityDisk.lookup j name, rfl⟩
  apart := fun h => absurd (identityDisk_tree h) (by decide)

/-- The reset of that root, stopped when the key and the envelope are gone and the directory is not. -/
def interruptedReset : World :=
  (runForgetLocalIdentity false 1 ⟨0, "root"⟩ (identityDisk.stat 1)).haltAfter
    (List.replicate 44 { count := 100, names := [encryptedStateFileName] }) (identityDisk, true)

theorem reset_crash_safe_interrupted :
    (interruptedReset.2 = false ∧ interruptedReset.1.lookup 1 ownedStateSubdirectory = some 2) ∧
      (MarkerVisible 1 interruptedReset.1.settle ∨
        (interruptedReset.2 = true ∧ SubtreeUntouched identityDisk 1 2 interruptedReset.1.settle) ∨
        (interruptedReset.2 = false ∧ interruptedReset.1.settle.lookup 1 ownedStateSubdirectory = none)) := by
  refine ⟨⟨by decide +kernel, by decide +kernel⟩, ?_⟩
  exact reset_crash_safe identityDisk_coherent false 1 ⟨0, "root"⟩ (identityDisk.stat 1) rfl
    (List.replicate 44 { count := 100, names := [encryptedStateFileName] })
    (interruptedReset.1.settle, interruptedReset.2) ⟨rfl, .inr (crashed_settle _)⟩

end TailscaleDart.Reset
