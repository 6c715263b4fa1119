import TailscaleDart.Runtime.Admission

/-!
# Runtime.Release — one owner per root, or none for good

A release holds the lock of its lease from its first look to its last step, so nobody else changes that lease's part of
the state in between. With the acquisitions of `Runtime.Admission` this covers every call of a process, and
`one_owner_per_root` is what holds in every state that any interleaving of them reaches.
-/

namespace TailscaleDart.Runtime.Lease

open Conc

/-! ## Releases are safe -/

/-- Call `i` holds the lock of a lease that is otherwise as `x`, and in order. -/
structure Looking (i l : Nat) (x : StateLease) (bad : Bool) (w : World) : Prop where
  lease : w.lease l = some { x with mu := some i }
  mu : x.mu = none
  inv : LeaseInv w l x
  failed : w.failed i = bad

/-- Call `i` is giving the lease up: how often it has closed the two descriptors, and whether something failed. -/
structure Releasing (i l : Nat) (x : StateLease) (file root : Nat) (bad : Bool) (w : World) : Prop where
  lease : w.lease l = some x
  mu : x.mu = some i
  held : Held w l x.rootID
  fileClosed : w.closes x.file = file
  rootClosed : w.closes x.root = root
  failed : w.failed i = bad

/-- What a call that releases knows, with the invariant. -/
def GivesUp (i l : Nat) (x : StateLease) (file root : Nat) (bad : Bool) (w : World) : Prop :=
  Inv w ∧ Releasing i l x file root bad w

section Release

variable {i l : Nat} {c : Call} {x : StateLease} {file root : Nat} {bad : Bool} {w w' : World} {α : Type}

theorem unchanged_of_locked {j : Nat} {c : Call} {lbl : Label} (hlease : w.lease l = some x) (hmu : x.mu = some i)
    (hj : j ≠ i) (h : Owes j c lbl w w') : Unchanged l w w' := by
  apply h.charge
  cases c with
  | acquire =>
    rintro ⟨rfl, hnone⟩
    cases hlease.symm.trans hnone
  | release l' | validate l' =>
    rintro ⟨rfl, y, hy, hfree⟩
    cases hlease.symm.trans hy
    rw [hmu] at hfree
    rcases hfree with hnone | hother
    · cases hnone
    · exact hj (Option.some.inj hother).symm

theorem stable_looking : discipline.Stable i (Looking i l x bad) := by
  rintro w w' ⟨-, j, c, lbl, hj, howes⟩ h
  have hsame := unchanged_of_locked h.lease rfl hj howes
  exact ⟨hsame.lease.trans h.lease, h.mu, hsame.leaseInv h.inv, (howes.failed i hj.symm).trans h.failed⟩

theorem stable_givesUp : discipline.Stable i (GivesUp i l x file root bad) := by
  rintro w w' ⟨hinv, j, c, lbl, hj, howes⟩ ⟨hw, h⟩
  have hsame := unchanged_of_locked h.lease h.mu hj howes
  have hx := (hw.parts l).lease x h.lease
  exact ⟨howes.inv, hsame.lease.trans h.lease, h.mu, hsame.held h.held, (hsame.closes _ hx.file).trans h.fileClosed,
    (hsame.closes _ hx.root).trans h.rootClosed, (howes.failed i hj.symm).trans h.failed⟩

theorem stable_poisoned (r : RootID) : discipline.Stable i fun w => w.Poisoned r := by
  rintro w w' ⟨-, j, c, lbl, -, howes⟩ h
  exact howes.poison r h

/-- A step that leaves the table and the descriptors' owners alone, and of the leases changes one whose lock the call
holds or takes. -/
theorem owes_of_lease {x' : StateLease} {lbl : Label} (hw : Inv w) (hc : c = .release l ∨ c = .validate l)
    (hlease : w.lease l = some x) (hmu : x.mu = none ∨ x.mu = some i) (hlease' : w'.lease l = some x')
    (hroot : x'.rootID = x.rootID) (hx' : LeaseInv w' l x') (hframe : w'.byRoot = w.byRoot ∧ w'.admission = w.admission)
    (hsame : ∀ k, k ≠ l → Unchanged k w w') (hunopened : ∀ n : Nat, w'.opened[n]? = none → w'.closes n = 0)
    (hfailed : ∀ j, j ≠ i → w'.failed j = w.failed j) (hlbl : ∀ r, lbl ≠ .finish r) : Owes i c lbl w w' where
  inv := by
    refine ⟨fun k => ?_, hunopened⟩
    by_cases hk : k = l
    · subst hk
      refine ⟨?_, ?_, fun y hy => ?_⟩
      · rw [hframe.1, hframe.2]
        exact (hw.parts k).table
      · rw [hframe.1, hframe.2]
        exact (hw.parts k).poisoned
      · cases hlease'.symm.trans hy
        exact hx'
    · exact (hsame k hk).invOf (hw.parts k)
  charge k hk := by
    apply hsame
    rintro rfl
    rcases hc with rfl | rfl
    all_goals exact hk ⟨rfl, x, hlease, hmu⟩
  failed := hfailed
  poison r hp := by
    unfold World.Poisoned
    rw [hframe.1, hframe.2]
    exact hp
  leases k y hy := by
    by_cases hk : k = l
    · subst hk
      cases hlease.symm.trans hy
      exact ⟨x', hlease', hroot⟩
    · exact ⟨y, (hsame k hk).lease.trans hy, rfl⟩
  made k y hnone hsome := by
    by_cases hk : k = l
    · subst hk
      cases hlease.symm.trans hnone
    · cases ((hsame k hk).lease.trans hnone).symm.trans hsome
  finish r hr := absurd hr (hlbl r)

/-- One step of a call that knows `P`. -/
theorem leaseSafe_act {P : World → Prop} (hP : discipline.Stable i P) {lbl : Label}
    {f : Answer → World → Option (α × World)} {post : α → World → Prop} (hpost : ∀ a, discipline.Stable i (post a))
    (h : P w) (hstep : ∀ w1, P w1 → ∀ ans a w2, f ans w1 = some (a, w2) → Owes i c lbl w1 w2 ∧ post a w2) :
    LeaseSafe i c post (Prog.step lbl f) w := by
  apply Safe.act_among P hP h
  intro w1 hw1 _ ans a w2 hf
  obtain ⟨howes, ha⟩ := hstep w1 hw1 ans a w2 hf
  exact ⟨howes, .pure_among (hpost a) ha⟩

/-- What a call that looks at a lease knows, with the invariant. -/
def Sees (i l : Nat) (x : StateLease) (bad : Bool) (w : World) : Prop := Inv w ∧ Looking i l x bad w

theorem stable_sees : discipline.Stable i (Sees i l x bad) := (Discipline.stable_inv i).and stable_looking

/-- What is known once the lock is held. -/
def KnowsLease (i l : Nat) : Option StateLease → World → Prop
  | none => fun w => Inv w ∧ w.failed i = false
  | some x => Sees i l x false

theorem stable_unfailed : discipline.Stable i fun w => Inv w ∧ w.failed i = bad := by
  rintro w w' ⟨-, j, c, lbl, hj, howes⟩ h
  exact ⟨howes.inv, (howes.failed i hj.symm).trans h.2⟩

theorem stable_knowsLease (found : Option StateLease) : discipline.Stable i (KnowsLease i l found) := by
  cases found with
  | none => exact stable_unfailed
  | some x => exact stable_sees

theorem lockLease_safe (hc : c = .release l ∨ c = .validate l) (hw : Inv w) (hfailed : w.failed i = false) :
    LeaseSafe i c (KnowsLease i l) (lockLease i l) w := by
  have hstable : discipline.Stable i fun w => Inv w ∧ w.failed i = false := stable_unfailed
  apply leaseSafe_act hstable stable_knowsLease ⟨hw, hfailed⟩
  intro w1 hw1 ans found w2 hstep
  cases hlease : w1.lease l with
  | none =>
    rw [hlease] at hstep
    cases hstep
    exact ⟨.idle hw1.1 nofun, hw1⟩
  | some x =>
    rw [hlease] at hstep
    dsimp only at hstep
    split at hstep
    · cases hstep
    · next hfree =>
      cases hstep
      have hmu : x.mu = none := by simpa using hfree
      have hx := (hw1.1.parts l).lease x hlease
      have hlease' : (w1.setLease l { x with mu := some i }).lease l = some { x with mu := some i } :=
        Function.update_self _ _ _
      have howes : Owes i c .other w1 (w1.setLease l { x with mu := some i }) :=
        owes_of_lease hw1.1 hc hlease (.inl hmu) hlease' rfl (hx.locked i).setLease ⟨rfl, rfl⟩
          (fun k hk => unchanged_setLease hk) hw1.1.unopened (fun _ _ => rfl) nofun
      exact ⟨howes, howes.inv, hlease', hmu, hx.setLease, hw1.2⟩

/-- The lock is given back with the lease in order, and what else is known (`R`) with it. -/
theorem unlockLease_safe (hc : c = .release l ∨ c = .validate l) {R post : World → Prop} (hR : discipline.Stable i R)
    (hpost : discipline.Stable i post) (h : Sees i l x bad w) (hr : R w)
    (hdone : ∀ w, Sees i l x bad w → R w → post (w.setLease l x)) :
    LeaseSafe i c (fun _ => post) (unlockLease l) w := by
  apply leaseSafe_act (stable_sees.and hR) (fun _ => hpost) ⟨h, hr⟩
  intro w1 hw1 ans _ w2 hstep
  obtain ⟨⟨hinv, hlease, hmu, hx, hfailed⟩, hr1⟩ := hw1
  have hback : ({ x with mu := none } : StateLease) = x := by rw [← hmu]
  simp only [hlease, hback] at hstep
  cases hstep
  have hlease' : (w1.setLease l x).lease l = some x := Function.update_self _ _ _
  have howes : Owes i c .other w1 (w1.setLease l x) :=
    owes_of_lease hinv hc hlease (.inr rfl) hlease' rfl hx.setLease ⟨rfl, rfl⟩ (fun k hk => unchanged_setLease hk)
      hinv.unopened (fun _ _ => rfl) nofun
  exact ⟨howes, hdone w1 ⟨hinv, hlease, hmu, hx, hfailed⟩ hr1⟩

/-- A step of a release before it has given up the root. -/
theorem GivesUp.step {x' : StateLease} {file' root' : Nat} {bad' : Bool} {lbl : Label}
    (h : GivesUp i l x file root bad w) (h' : Releasing i l x' file' root' bad' w')
    (hx : x'.file = x.file ∧ x'.root = x.root ∧ x'.rootID = x.rootID)
    (hreleased : x'.released = false → file' = 0 ∧ root' = 0)
    (hframe : w'.byRoot = w.byRoot ∧ w'.admission = w.admission) (hopened : w'.opened = w.opened)
    (hsame : ∀ k, k ≠ l → Unchanged k w w') (hunopened : ∀ n : Nat, w'.opened[n]? = none → w'.closes n = 0)
    (hfailed : ∀ j, j ≠ i → w'.failed j = w.failed j) (hlbl : ∀ r, lbl ≠ .finish r) :
    Owes i (.release l) lbl w w' ∧ GivesUp i l x' file' root' bad' w' := by
  have hinv := (h.1.parts l).lease x h.2.lease
  have hinv' : LeaseInv w' l x' := by
    refine ⟨?_, ?_, ?_, fun hunreleased => ?_, fun _ hmu => ?_⟩
    · rw [hopened, hx.1]
      exact hinv.file
    · rw [hopened, hx.2.1]
      exact hinv.root
    · rw [hx.1, hx.2.1]
      exact hinv.distinct
    · obtain ⟨rfl, rfl⟩ := hreleased hunreleased
      exact ⟨h'.held, h'.fileClosed, h'.rootClosed⟩
    · cases hmu.symm.trans h'.mu
  have howes : Owes i (.release l) lbl w w' :=
    owes_of_lease h.1 (.inl rfl) h.2.lease (.inr h.2.mu) h'.lease hx.2.2 hinv' hframe hsame hunopened hfailed hlbl
  exact ⟨howes, howes.inv, h'⟩

theorem Releasing.fail (h : Releasing i l x file root bad w) : Releasing i l x file root true (w.fail i) :=
  ⟨h.lease, h.mu, ⟨h.held.admission, h.held.byRoot⟩, h.fileClosed, h.rootClosed, Function.update_self _ _ _⟩

theorem GivesUp.fail (h : GivesUp i l x file root bad w) (hx : x.released = false → file = 0 ∧ root = 0) :
    Owes i (.release l) .other w (w.fail i) ∧ GivesUp i l x file root true (w.fail i) :=
  h.step h.2.fail ⟨rfl, rfl, rfl⟩ hx ⟨rfl, rfl⟩ rfl (fun k _ => unchanged_fail w i k) h.1.unopened
    (fun _ hj => Function.update_of_ne hj _ _) nofun

theorem silent_validatePathsLocked (x : StateLease) : Silent (· = .other) (validatePathsLocked x).run := by
  apply (silent_syscall _).andThen
  intro rootInfo
  apply (silent_require _ _).andThen
  intro _
  apply (silent_checked _ _).andThen
  intro rootID
  apply (silent_require _ _).andThen
  intro _
  apply (silent_syscallWith _).andThen
  intro currentRoot
  apply (silent_require _ _).andThen
  intro _
  apply (silent_syscall _).andThen
  intro lockInfo
  apply (silent_require _ _).andThen
  intro _
  exact silent_verifyStateLeasePath _

theorem validateRelease_safe (h : GivesUp i l x 0 0 false w) :
    LeaseSafe i (.release l) (fun err => GivesUp i l x 0 0 err.isSome) (validateRelease i x) w := by
  unfold validateRelease
  split
  · have hlook : LeaseSafe i (.release l) (fun _ => GivesUp i l x 0 0 false) (validatePathsLocked x).run w := by
      apply Safe.silent_among _ stable_givesUp (silent_validatePathsLocked x) h
      rintro lbl w rfl hw
      exact .idle hw.1 nofun
    apply Safe.bind_among hlook
    intro result w1 hw1
    cases result with
    | ok => exact .pure_among stable_givesUp hw1
    | error err =>
      have hfail : LeaseSafe i (.release l) (fun _ => GivesUp i l x 0 0 true) (change (·.fail i)) w1 := by
        apply leaseSafe_act stable_givesUp (fun _ => stable_givesUp) hw1
        intro w2 hw2 ans _ w3 hstep
        cases hstep
        exact hw2.fail fun _ => ⟨rfl, rfl⟩
      apply Safe.bind_among hfail
      intro _ w2 hw2
      exact .pure_among stable_givesUp hw2
  · exact .pure_among stable_givesUp h

/-- The fields of the lease that a release sets. -/
theorem onLease_safe {f : StateLease → StateLease}
    (hf : (f x).file = x.file ∧ (f x).root = x.root ∧ (f x).rootID = x.rootID ∧ (f x).mu = x.mu)
    (hreleased : (f x).released = false → file = 0 ∧ root = 0) (h : GivesUp i l x file root bad w) :
    LeaseSafe i (.release l) (fun _ => GivesUp i l (f x) file root bad) (onLease l f) w := by
  apply leaseSafe_act stable_givesUp (fun _ => stable_givesUp) h
  intro w1 hw1 ans _ w2 hstep
  simp only [hw1.2.lease] at hstep
  cases hstep
  have hnext : Releasing i l (f x) file root bad (w1.setLease l (f x)) := by
    refine ⟨Function.update_self _ _ _, hf.2.2.2.trans hw1.2.mu, ?_, ?_, ?_, hw1.2.failed⟩
    · rw [hf.2.2.1]
      exact ⟨hw1.2.held.admission, hw1.2.held.byRoot⟩
    · rw [hf.1]
      exact hw1.2.fileClosed
    · rw [hf.2.1]
      exact hw1.2.rootClosed
  exact hw1.step hnext ⟨hf.1, hf.2.1, hf.2.2.1⟩ hreleased ⟨rfl, rfl⟩ rfl (fun k hk => unchanged_setLease hk)
    hw1.1.unopened (fun _ _ => rfl) nofun

theorem unlockFile_safe_release (hx : x.released = true) (h : GivesUp i l x file root bad w) :
    LeaseSafe i (.release l) (fun err => GivesUp i l x file root (bad || err.isSome)) (unlockFile i) w := by
  apply leaseSafe_act stable_givesUp (fun _ => stable_givesUp) h
  intro w1 hw1 ans err w2 hstep
  split at hstep
  · cases hstep
    rw [Option.isSome_some, Bool.or_true]
    exact hw1.fail (by rw [hx]; nofun)
  · cases hstep
    rw [Option.isSome_none, Bool.or_false]
    exact ⟨.idle hw1.1 nofun, hw1⟩

/-- One of the two descriptors is closed. -/
theorem closeFile_safe_release {n file' root' : Nat} {format : String} (hx : x.released = true)
    (hn : (n = x.file ∧ file' = file + 1 ∧ root' = root) ∨ (n = x.root ∧ file' = file ∧ root' = root + 1))
    (h : GivesUp i l x file root bad w) :
    LeaseSafe i (.release l) (fun err => GivesUp i l x file' root' (bad || err.isSome)) (closeFile i n format) w := by
  apply leaseSafe_act stable_givesUp (fun _ => stable_givesUp) h
  intro w1 hw1 ans err w2 hstep
  have hinv := (hw1.1.parts l).lease x hw1.2.lease
  have hopened : w1.opened[n]? = some l := by
    rcases hn with ⟨rfl, -⟩ | ⟨rfl, -⟩
    · exact hinv.file
    · exact hinv.root
  have hnext : Releasing i l x file' root' bad (w1.close n) := by
    refine ⟨hw1.2.lease, hw1.2.mu, ⟨hw1.2.held.admission, hw1.2.held.byRoot⟩, ?_, ?_, hw1.2.failed⟩
    · rcases hn with ⟨rfl, rfl, -⟩ | ⟨rfl, rfl, -⟩
      · exact (Function.update_self _ _ _).trans (congrArg (· + 1) hw1.2.fileClosed)
      · exact (Function.update_of_ne hinv.distinct _ _).trans hw1.2.fileClosed
    · rcases hn with ⟨rfl, -, rfl⟩ | ⟨rfl, -, rfl⟩
      · exact (Function.update_of_ne hinv.distinct.symm _ _).trans hw1.2.rootClosed
      · exact (Function.update_self _ _ _).trans (congrArg (· + 1) hw1.2.rootClosed)
  split at hstep
  · cases hstep
    rw [Option.isSome_some, Bool.or_true]
    exact hw1.step hnext.fail ⟨rfl, rfl, rfl⟩ (by rw [hx]; nofun) ⟨rfl, rfl⟩ rfl
      (fun k hk => (unchanged_close hopened hk).trans (unchanged_fail _ i k)) (unopened_close hw1.1 hopened)
      (fun j hj => Function.update_of_ne hj _ _) nofun
  · cases hstep
    rw [Option.isSome_none, Bool.or_false]
    exact hw1.step hnext ⟨rfl, rfl, rfl⟩ (by rw [hx]; nofun) ⟨rfl, rfl⟩ rfl (fun k hk => unchanged_close hopened hk)
      (unopened_close hw1.1 hopened) (fun _ _ => rfl) nofun

/-- What a release has done when only its lock is left. -/
def GaveUp (i l : Nat) (w : World) : Prop :=
  ∃ x bad, Sees i l x bad w ∧ (bad = true → w.Poisoned x.rootID)

theorem stable_gaveUp : discipline.Stable i (GaveUp i l) := by
  rintro w w' hother ⟨x, bad, hsees, hpoisoned⟩
  exact ⟨x, bad, stable_sees w w' hother hsees, fun hbad => stable_poisoned _ w w' hother (hpoisoned hbad)⟩

theorem finish_safe_release {poison : Option Error} (hx : x.released = true) (h : GivesUp i l x 1 1 poison.isSome w) :
    LeaseSafe i (.release l) (fun _ => GaveUp i l) (finishStateLeaseAdmission l x.rootID poison) w := by
  apply leaseSafe_act stable_givesUp (fun _ => stable_gaveUp) h
  intro w1 hw1 ans _ w2 hstep
  cases hstep
  have hinv := (hw1.1.parts l).lease x hw1.2.lease
  obtain ⟨hopened, hcloses, hleases, hfailed⟩ := finish_frame w1 l x.rootID poison
  have hfailed1 : (w1.finish l x.rootID poison).failed i = poison.isSome := (congrFun hfailed i).trans hw1.2.failed
  have hlease : (w1.finish l x.rootID poison).lease l = some x := (congrFun hleases l).trans hw1.2.lease
  have hgiven : GivenUp (w1.finish l x.rootID poison) l x.rootID := hw1.2.held.finish_givenUp
  have hlooked : LeaseInv (w1.finish l x.rootID poison) l { x with mu := none } := by
    refine ⟨by rw [hopened]; exact hinv.file, by rw [hopened]; exact hinv.root, hinv.distinct, ?_, fun _ _ => ?_⟩
    · intro hunreleased
      cases hx.symm.trans hunreleased
    · rw [hcloses]
      exact ⟨hgiven, hw1.2.fileClosed, hw1.2.rootClosed⟩
  have hback : ({ ({ x with mu := none } : StateLease) with mu := some i } : StateLease) = x := by rw [← hw1.2.mu]
  have hinv' : Inv (w1.finish l x.rootID poison) := by
    constructor
    · intro k
      by_cases hk : k = l
      · subst hk
        refine ⟨hw1.2.held.finish_table (hw1.1.parts k), hgiven.poisoned, fun y hy => ?_⟩
        cases hlease.symm.trans hy
        rw [← hback]
        exact hlooked.locked i
      · exact (unchanged_finish hk).invOf (hw1.1.parts k)
    · rw [hopened, hcloses]
      exact hw1.1.unopened
  have howed := finish_owed hw1.2.held hfailed1
  refine ⟨⟨hinv', ?_, fun j _ => congrFun hfailed j, fun r hp => hw1.2.held.finish_poisoned hp, ?_, ?_, ?_⟩, ?_⟩
  · exact fun k hk => unchanged_finish fun heq => hk ⟨heq, x, heq ▸ hw1.2.lease, .inr hw1.2.mu⟩
  · intro k y hy
    rw [hleases]
    exact ⟨y, hy, rfl⟩
  · intro k y hnone hsome
    rw [hleases] at hsome
    cases hnone.symm.trans hsome
  · rintro r hr
    cases hr
    exact howed
  · refine ⟨{ x with mu := none }, poison.isSome, ⟨hinv', ?_, rfl, hlooked, hfailed1⟩, ?_⟩
    · rw [hback]
      exact hlease
    · rw [← hfailed1]
      exact howed.1

theorem releaseOnce_safe (hx : x.released = false) (h : Sees i l x false w) :
    LeaseSafe i (.release l) (fun _ => GaveUp i l) (releaseOnce i l x) w := by
  obtain ⟨hw, hlease, hmu, hinv, hfailed⟩ := h
  obtain ⟨hheld, hfile, hroot⟩ := hinv.held hx
  have hstart : GivesUp i l { x with mu := some i } 0 0 false w := ⟨hw, hlease, rfl, hheld, hfile, hroot, hfailed⟩
  apply Safe.bind_among (validateRelease_safe hstart)
  intro validated w1 hw1
  apply Safe.bind_among
    (onLease_safe (f := fun lease => { lease with released := true }) ⟨rfl, rfl, rfl, rfl⟩ nofun hw1)
  intro _ w2 hw2
  apply Safe.bind_among (unlockFile_safe_release rfl hw2)
  intro unlocked w3 hw3
  apply Safe.bind_among (closeFile_safe_release rfl (.inl ⟨rfl, rfl, rfl⟩) hw3)
  intro closed w4 hw4
  apply Safe.bind_among (closeFile_safe_release rfl (.inr ⟨rfl, rfl, rfl⟩) hw4)
  intro closedRoot w5 hw5
  rw [← isSome_joinErrs, ← isSome_joinErrs, ← isSome_joinErrs] at hw5
  have hreleased : ∀ err : Option Error,
      ({ x with mu := some i, released := true, releaseErr := err } : StateLease).released = false →
        0 + 1 = 0 ∧ 0 + 1 = 0 := nofun
  apply Safe.bind_among (onLease_safe (f := fun lease => { lease with releaseErr := _ }) ⟨rfl, rfl, rfl, rfl⟩
    (hreleased _) hw5)
  intro _ w6 hw6
  apply Safe.bind_among (finish_safe_release rfl hw6)
  intro _ w7 hw7
  exact .pure_among stable_gaveUp hw7

theorem releaseLocked_safe (h : Sees i l x false w) :
    LeaseSafe i (.release l) (fun _ => GaveUp i l) (releaseLocked i l x) w := by
  unfold releaseLocked
  split
  · exact .pure_among stable_gaveUp ⟨x, false, h, nofun⟩
  · next hx => exact releaseOnce_safe (Bool.not_eq_true _ ▸ hx) h

/-- A release that met a failure has poisoned the root. -/
def Uncertain (i l : Nat) (w : World) : Prop := w.failed i = true → ∃ x, w.lease l = some x ∧ w.Poisoned x.rootID

theorem stable_uncertain : discipline.Stable i (Uncertain i l) := by
  rintro w w' ⟨-, j, c, lbl, hj, howes⟩ h hbad
  rw [howes.failed i hj.symm] at hbad
  obtain ⟨x, hx, hpoisoned⟩ := h hbad
  obtain ⟨x', hx', hroot⟩ := howes.leases l x hx
  exact ⟨x', hx', hroot ▸ howes.poison _ hpoisoned⟩

theorem release_safe (hw : Inv w) (hfailed : w.failed i = false) :
    LeaseSafe i (.release l) (fun _ => Uncertain i l) (release i l) w := by
  apply Safe.bind_among (lockLease_safe (.inl rfl) hw hfailed)
  intro found w1 hw1
  cases found with
  | none => exact .pure_among stable_uncertain fun hbad => by cases hw1.2.symm.trans hbad
  | some x =>
    apply Safe.bind_among (releaseLocked_safe hw1)
    intro err w2 hw2
    obtain ⟨x', bad, hsees, hpoisoned⟩ := hw2
    have hstable : discipline.Stable i fun w => bad = true → w.Poisoned x'.rootID :=
      fun v v' hother hv hbad => stable_poisoned _ v v' hother (hv hbad)
    have hunlock : LeaseSafe i (.release l) (fun _ => Uncertain i l) (unlockLease l) w2 := by
      apply unlockLease_safe (.inl rfl) hstable stable_uncertain hsees hpoisoned
      intro w3 hw3 hpoisoned3 hbad
      exact ⟨x', Function.update_self _ _ _, hpoisoned3 (hw3.2.failed.symm.trans hbad)⟩
    apply Safe.bind_among hunlock
    intro _ w3 hw3
    exact .pure_among stable_uncertain hw3

theorem silent_validateUnreleased (x : StateLease) : Silent (· = .other) (validateUnreleased x).run := by
  unfold validateUnreleased
  split
  · exact .pure _
  · exact silent_validatePathsLocked x

theorem validatePaths_safe (hw : Inv w) (hfailed : w.failed i = false) :
    LeaseSafe i (.validate l) (fun _ _ => True) (validatePaths i l) w := by
  have htrue : discipline.Stable i fun _ => True := Discipline.stable_const i True
  apply Safe.bind_among (lockLease_safe (.inr rfl) hw hfailed)
  intro found w1 hw1
  cases found with
  | none => exact .pure_among htrue trivial
  | some x =>
    have hlook : LeaseSafe i (.validate l) (fun _ => Sees i l x false) (validateUnreleased x).run w1 := by
      apply Safe.silent_among _ stable_sees (silent_validateUnreleased x) hw1
      rintro lbl w rfl hw
      exact .idle hw.1 nofun
    apply Safe.bind_among hlook
    intro result w2 hw2
    apply Safe.bind_among (unlockLease_safe (.inr rfl) htrue htrue hw2 trivial fun _ _ _ => trivial)
    intro _ w3 _
    cases result with
    | ok | error => exact .pure_among htrue trivial

end Release

/-! ## Every interleaving -/

theorem untouched : discipline.Untouched {} fun i => Acquiring i [] [] none false where
  start i := by
    refine ⟨fun n => ?_, List.nodup_nil, nofun, nofun, rfl, rfl, fun r => ?_, rfl⟩
    · simp only [List.getElem?_nil, reduceCtorEq, List.not_mem_nil, or_self]
    · simp only [reduceCtorEq]
  stable _ := stable_acquiring

theorem inv_start : Inv {} := ⟨fun _ => ⟨nofun, nofun, nofun⟩, fun _ _ => rfl⟩

theorem respects : discipline.RespectsFresh (fun _ _ => True) (fun i => Acquiring i [] [] none false) body := by
  intro i c w hw hfresh
  cases c with
  | acquire baseRoot options =>
    apply Safe.bind_among (acquireStateLease_safe ⟨hw, hfresh⟩)
    intro result w1 hw1
    cases result with
    | error err => exact .pure_among (stable_abandoned) hw1
    | ok l => exact Safe.pure_among (Discipline.stable_const i True) trivial
  | release l =>
    apply Safe.bind_among (release_safe hw hfresh.failed)
    intro err w1 hw1
    exact .pure_among stable_uncertain hw1
  | validate l =>
    apply Safe.bind_among (validatePaths_safe hw hfresh.failed)
    intro err w1 _
    exact Safe.pure_among (Discipline.stable_const i True) trivial

theorem owes_of_step {p q : Pool Call Label World Answer Ret} (h : Pool.Reachable body (fun _ _ => True) {} p) {i : Nat}
    {c : Call} {lbl : Label} (hstep : Pool.Step body p (.step i c lbl) q) : Owes i c lbl p.shared q.shared := by
  have hmeets : (Pool.Event.step i c lbl).meets (fun _ _ => True) p.shared := trivial
  exact (Discipline.sound_fresh respects untouched inv_start h).2.2 _ q hmeets hstep

/-- Poison is for good: no lease of the root is made after it. -/
theorem poisoned_forever {p q : Pool Call Label World Answer Ret} (h : Pool.Reachable body (fun _ _ => True) {} p)
    (hlater : Pool.Later body p q) {r : RootID} (hp : p.shared.Poisoned r) :
    q.shared.Poisoned r ∧ ∀ l x, p.shared.lease l = none → q.shared.lease l = some x → x.rootID ≠ r := by
  apply hlater.keeps h (P := fun w =>
    w.Poisoned r ∧ ∀ l x, p.shared.lease l = none → w.lease l = some x → x.rootID ≠ r)
  · intro m m' i c lbl hreach hstep hm
    have howes := owes_of_step hreach hstep
    refine ⟨howes.poison r hm.1, fun l x hnone hsome => ?_⟩
    cases hlease : m.shared.lease l with
    | none =>
      intro heq
      subst heq
      exact (howes.made l x hlease hsome).not_poisoned hm.1
    | some y =>
      obtain ⟨x', hx', hroot⟩ := howes.leases l y hlease
      cases hsome.symm.trans hx'
      rw [hroot]
      exact hm.2 l y hnone hlease
  · exact ⟨hp, fun l x hnone hsome => by cases hnone.symm.trans hsome⟩

/-- **Leases.** In every state that any interleaving of acquisitions, releases and validations reaches, whatever the
system calls answered: a root has one unreleased lease at most. A release in which the validation, the unlock or a close
failed has poisoned its root, and so has a failed acquisition that had reserved its root and met a failure while it
gave up; from then on the root stays poisoned and no lease of it is made. A failed acquisition has closed each
descriptor it opened exactly once; if it had reserved a root and met no such failure, its reservation is gone, and
the root was free at that step; and it never changes an admission that is not its own. -/
theorem one_owner_per_root {p : Pool Call Label World Answer Ret} (h : Pool.Reachable body (fun _ _ => True) {} p) :
    (∀ l1 l2 x1 x2, p.shared.lease l1 = some x1 → p.shared.lease l2 = some x2 → x1.released = false →
      x2.released = false → x1.rootID = x2.rootID → l1 = l2) ∧
    (∀ i l err, p.Returned i (.release l) (.done err) → p.shared.failed i = true →
      ∃ x, p.shared.lease l = some x ∧ p.shared.Poisoned x.rootID) ∧
    (∀ i baseRoot options err, p.Returned i (.acquire baseRoot options) (.acquired (.error err)) →
      (∀ n : Nat, p.shared.opened[n]? = some i → p.shared.closes n = 1) ∧
      ∀ adm, p.shared.admission i = some adm → (p.shared.failed i = true → p.shared.Poisoned adm.rootID) ∧
        (p.shared.failed i = false → p.shared.byRoot adm.rootID ≠ some i)) ∧
    (∀ q, Pool.Later body p q → ∀ r, p.shared.Poisoned r →
      q.shared.Poisoned r ∧ ∀ l x, p.shared.lease l = none → q.shared.lease l = some x → x.rootID ≠ r) ∧
    (∀ q i c r, Pool.Step body p (.step i c (.finish r)) q →
      (q.shared.failed i = true → q.shared.Poisoned r) ∧ (q.shared.failed i = false → q.shared.byRoot r = none)) ∧
    ∀ q i baseRoot options lbl, Pool.Step body p (.step i (.acquire baseRoot options) lbl) q → ∀ k, k ≠ i →
      q.shared.admission k = p.shared.admission k ∧ ∀ r, q.shared.byRoot r = some k ↔ p.shared.byRoot r = some k := by
  obtain ⟨hinv, hpost, -⟩ := Discipline.sound_fresh respects untouched inv_start h
  refine ⟨?_, ?_, ?_, ?_, ?_, ?_⟩
  · intro l1 l2 x1 x2 h1 h2 hr1 hr2 hroot
    exact hinv.exclusive h1 h2 hr1 hr2 hroot
  · intro i l err hreturned
    exact hpost i _ _ hreturned
  · intro i baseRoot options err hreturned
    have habandoned : Abandoned i p.shared := hpost i _ _ hreturned
    refine ⟨habandoned.closed, fun adm hadm => ?_⟩
    have houtcome := habandoned.outcome
    simp only [hadm] at houtcome
    constructor
    · intro hfailed
      rw [if_pos hfailed] at houtcome
      exact ⟨i, adm, houtcome.2, hadm, houtcome.1⟩
    · intro hfailed
      simp only [hfailed, Bool.false_eq_true, if_false] at houtcome
      exact houtcome.2
  · intro q hlater r hpoisoned
    exact poisoned_forever h hlater hpoisoned
  · intro q i c r hstep
    exact (owes_of_step h hstep).finish r rfl
  · intro q i baseRoot options lbl hstep k hk
    have hsame : Unchanged k p.shared q.shared := (owes_of_step h hstep).charge k fun htouches => hk htouches.1
    exact ⟨hsame.admission, hsame.byRoot⟩

/-! ## A root that stays taken -/

def exampleRoot : RootID := ⟨1, 2⟩

def rootAnswer : Answer := { info := ⟨true, false, 0o700, some ⟨1, 2, true⟩⟩ }

def lockAnswer : Answer := { info := ⟨false, true, 0o600, some ⟨1, 3, true⟩⟩ }

/-- The first acquisition gets the root; the second finds it taken and closes what it opened. -/
def takenTwice : List (Pool.Choice Call Answer) :=
  [.start (.acquire "state" {}), .start (.acquire "state" {})] ++
    (List.replicate 7 rootAnswer ++ List.replicate 6 lockAnswer ++ List.replicate 2 rootAnswer).map (.step 0) ++
    (List.replicate 7 rootAnswer).map (.step 1)

/-- A thread whose acquisition was refused because the root is taken. -/
def refused : Thread Call Label World Answer Ret → Bool
  | ⟨.acquire baseRoot options, .pure (.acquired (.error (.sentinel .stateLeaseBusy)))⟩ =>
    baseRoot = "state" && options = {}
  | _ => false

theorem eq_of_refused {t : Thread Call Label World Answer Ret} (h : refused t = true) :
    t = ⟨.acquire "state" {}, .pure (.acquired (.error (.sentinel .stateLeaseBusy)))⟩ := by
  unfold refused at h
  split at h
  · simp only [Bool.and_eq_true, decide_eq_true_eq] at h
    rw [h.1, h.2]
  · cases h

/-- The second acquisition was refused, nothing failed, and the first one still has the root. -/
theorem takenTwice_ends : ∃ p : Pool Call Label World Answer Ret, Pool.Reachable body (fun _ _ => True) {} p ∧
    p.Returned 1 (.acquire "state" {}) (.acquired (.error (.sentinel .stateLeaseBusy))) ∧
    p.shared.byRoot exampleRoot = some 0 ∧ p.shared.admission 0 = some { rootID := exampleRoot } ∧
    p.shared.opened = [0, 0, 1] := by
  have hrun : (Pool.follow body (fun _ _ => true) takenTwice ⟨{}, []⟩).any (fun p => p.threads[1]?.any refused &&
      decide (p.shared.byRoot exampleRoot = some 0 ∧ p.shared.admission 0 = some { rootID := exampleRoot } ∧
        p.shared.opened = [0, 0, 1])) = true := by decide +kernel
  obtain ⟨p, hp, hends⟩ := (Option.any_eq_true _ _).mp hrun
  rw [Bool.and_eq_true, Option.any_eq_true] at hends
  obtain ⟨⟨t, ht, hrefused⟩, hstate⟩ := hends
  refine ⟨p, Pool.Reachable.follow (fun _ _ _ => trivial) .init hp, ?_, of_decide_eq_true hstate⟩
  rw [Pool.Returned, ht, eq_of_refused hrefused]

/-- A refused acquisition leaves the root as it found it: not poisoned, and not acquirable. -/
theorem refused_not_acquirable : ∃ p : Pool Call Label World Answer Ret, Pool.Reachable body (fun _ _ => True) {} p ∧
    p.Returned 1 (.acquire "state" {}) (.acquired (.error (.sentinel .stateLeaseBusy))) ∧
    ¬ p.shared.Poisoned exampleRoot ∧
    ∀ i, (p.shared.reserve i exampleRoot).1 = .error (.sentinel .stateLeaseBusy) := by
  obtain ⟨p, hreach, hreturned, hbyRoot, hadm, -⟩ := takenTwice_ends
  refine ⟨p, hreach, hreturned, Held.not_poisoned ⟨hadm, hbyRoot⟩, fun i => ?_⟩
  simp only [World.reserve, hbyRoot, hadm]
  rfl

/-- The refused acquisition of that run has closed the one descriptor it opened. -/
theorem one_owner_per_root_refused : ∃ p : Pool Call Label World Answer Ret,
    Pool.Reachable body (fun _ _ => True) {} p ∧ p.shared.opened = [0, 0, 1] ∧ p.shared.closes 2 = 1 := by
  obtain ⟨p, hreach, hreturned, -, -, hopened⟩ := takenTwice_ends
  have hclosed := ((one_owner_per_root hreach).2.2.1 1 _ _ _ hreturned).1 2
  rw [hopened] at hclosed
  exact ⟨p, hreach, hopened, hclosed rfl⟩

end TailscaleDart.Runtime.Lease
