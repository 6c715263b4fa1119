import TailscaleDart.Runtime.Lease

/-!
# Runtime.Admission — what one acquisition of a root may change

What a call of `Runtime.Lease` may change is stated per ACQUISITION: its descriptors and how often each was closed, its
admission and whether the table names it, its lease. `Unchanged l` says that one acquisition's part of the state stayed
as it was. An acquisition changes its own part until it has made a lease; after that, only the call that holds the
lease's lock does (`Touches`). So a call knows about the part it is in charge of whatever it last did to it, and nothing
a call does can make two parts claim one root.

`Inv` says that an unreleased lease is named by the table for its root, so there is one for each root at most;
`Abandoned` says what a failed acquisition leaves. Releases are in `Runtime.Release`.
-/

namespace TailscaleDart.Runtime.Lease

open Conc

/-! ## One acquisition's part of the state -/

structure Unchanged (l : Nat) (w w' : World) : Prop where
  opened : ∀ n : Nat, w'.opened[n]? = some l ↔ w.opened[n]? = some l
  closes : ∀ n : Nat, w.opened[n]? = some l → w'.closes n = w.closes n
  admission : w'.admission l = w.admission l
  lease : w'.lease l = w.lease l
  byRoot : ∀ r, w'.byRoot r = some l ↔ w.byRoot r = some l

theorem Unchanged.refl (l : Nat) (w : World) : Unchanged l w w :=
  ⟨fun _ => Iff.rfl, fun _ _ => rfl, rfl, rfl, fun _ => Iff.rfl⟩

section Unchanged

variable {w : World} {k l : Nat}

theorem unchanged_fail (w : World) (i k : Nat) : Unchanged k w (w.fail i) :=
  ⟨fun _ => Iff.rfl, fun _ _ => rfl, rfl, rfl, fun _ => Iff.rfl⟩

theorem unchanged_openAs (hk : k ≠ l) : Unchanged k w (w.openAs l) := by
  refine ⟨fun n => ?_, fun _ _ => rfl, rfl, rfl, fun _ => Iff.rfl⟩
  simp only [World.openAs, List.getElem?_append]
  split
  · exact Iff.rfl
  · next hn =>
    have hnone : w.opened[n]? = none := List.getElem?_eq_none (by omega)
    rw [hnone, List.getElem?_singleton]
    split
    · simp only [Option.some.injEq, reduceCtorEq, iff_false]
      exact fun h => hk h.symm
    · exact Iff.rfl

theorem unchanged_close {n : Nat} (hn : w.opened[n]? = some l) (hk : k ≠ l) : Unchanged k w (w.close n) := by
  refine ⟨fun _ => Iff.rfl, fun m hm => ?_, rfl, rfl, fun _ => Iff.rfl⟩
  have hmn : m ≠ n := by
    rintro rfl
    exact hk (Option.some.inj (hm.symm.trans hn))
  exact Function.update_of_ne hmn _ _

theorem unchanged_setLease {x : StateLease} (hk : k ≠ l) : Unchanged k w (w.setLease l x) :=
  ⟨fun _ => Iff.rfl, fun _ _ => rfl, rfl, Function.update_of_ne hk _ _, fun _ => Iff.rfl⟩

theorem Unchanged.trans {w1 w2 : World} (h1 : Unchanged k w w1) (h2 : Unchanged k w1 w2) : Unchanged k w w2 where
  opened n := (h2.opened n).trans (h1.opened n)
  closes n hn := (h2.closes n ((h1.opened n).mpr hn)).trans (h1.closes n hn)
  admission := h2.admission.trans h1.admission
  lease := h2.lease.trans h1.lease
  byRoot r := (h2.byRoot r).trans (h1.byRoot r)

theorem unchanged_reserve {r : RootID} (hr : w.byRoot r = none) (hk : k ≠ l) :
    Unchanged k w { w.setAdmission l { rootID := r } with byRoot := Function.update w.byRoot r (some l) } := by
  refine ⟨fun _ => Iff.rfl, fun _ _ => rfl, Function.update_of_ne hk _ _, rfl, fun r' => ?_⟩
  by_cases hr' : r' = r
  · subst hr'
    simp only [Function.update_self, hr, Option.some.injEq, reduceCtorEq, iff_false]
    exact fun h => hk h.symm
  · simp only [Function.update_of_ne hr']

theorem unchanged_finish {r : RootID} {poison : Option Error} (hk : k ≠ l) : Unchanged k w (w.finish l r poison) := by
  unfold World.finish
  split
  · exact .refl k w
  · next hr =>
    cases poison with
    | some err => exact ⟨fun _ => Iff.rfl, fun _ _ => rfl, Function.update_of_ne hk _ _, rfl, fun _ => Iff.rfl⟩
    | none =>
      refine ⟨fun _ => Iff.rfl, fun _ _ => rfl, rfl, rfl, fun r' => ?_⟩
      by_cases hr' : r' = r
      · subst hr'
        simp only [Function.update_self, not_not.mp hr, Option.some.injEq, reduceCtorEq, false_iff]
        exact fun h => hk h.symm
      · simp only [Function.update_of_ne hr']

end Unchanged

/-! ## The invariant -/

/-- The acquisition has the root, and nothing went wrong so far. -/
structure Held (w : World) (l : Nat) (r : RootID) : Prop where
  admission : w.admission l = some { rootID := r }
  byRoot : w.byRoot r = some l

/-- The acquisition has given the root up, or nobody will ever have it. -/
def GivenUp (w : World) (l : Nat) (r : RootID) : Prop :=
  ∃ adm, w.admission l = some adm ∧ adm.rootID = r ∧
    ((adm.poisoned.isSome = true ∧ w.byRoot r = some l) ∨ (adm.poisoned = none ∧ w.byRoot r ≠ some l))

structure LeaseInv (w : World) (l : Nat) (x : StateLease) : Prop where
  file : w.opened[x.file]? = some l
  root : w.opened[x.root]? = some l
  distinct : x.file ≠ x.root
  held : x.released = false → Held w l x.rootID ∧ w.closes x.file = 0 ∧ w.closes x.root = 0
  givenUp : x.released = true → x.mu = none → GivenUp w l x.rootID ∧ w.closes x.file = 1 ∧ w.closes x.root = 1

/-- What holds of each acquisition's part. -/
structure InvOf (l : Nat) (w : World) : Prop where
  table : ∀ r, w.byRoot r = some l → ∃ adm, w.admission l = some adm ∧ adm.rootID = r
  poisoned : ∀ adm, w.admission l = some adm → adm.poisoned.isSome = true → w.byRoot adm.rootID = some l
  lease : ∀ x, w.lease l = some x → LeaseInv w l x

structure Inv (w : World) : Prop where
  parts : ∀ l, InvOf l w
  unopened : ∀ n : Nat, w.opened[n]? = none → w.closes n = 0

variable {l : Nat} {w : World} {r : RootID} {w' : World}

theorem Unchanged.held (h : Unchanged l w w') (hw : Held w l r) : Held w' l r :=
  ⟨h.admission.trans hw.admission, (h.byRoot r).mpr hw.byRoot⟩

theorem Unchanged.givenUp (h : Unchanged l w w') (hw : GivenUp w l r) : GivenUp w' l r := by
  obtain ⟨adm, hadm, hr, hbyRoot⟩ := hw
  exact ⟨adm, h.admission.trans hadm, hr, by rwa [ne_eq, h.byRoot r]⟩

variable {x : StateLease}

theorem Unchanged.leaseInv (h : Unchanged l w w') (hx : LeaseInv w l x) : LeaseInv w' l x where
  file := (h.opened _).mpr hx.file
  root := (h.opened _).mpr hx.root
  distinct := hx.distinct
  held hreleased := by
    obtain ⟨hheld, hfile, hroot⟩ := hx.held hreleased
    exact ⟨h.held hheld, (h.closes _ hx.file).trans hfile, (h.closes _ hx.root).trans hroot⟩
  givenUp hreleased hmu := by
    obtain ⟨hgiven, hfile, hroot⟩ := hx.givenUp hreleased hmu
    exact ⟨h.givenUp hgiven, (h.closes _ hx.file).trans hfile, (h.closes _ hx.root).trans hroot⟩

theorem Unchanged.invOf (h : Unchanged l w w') (hw : InvOf l w) : InvOf l w' where
  table r hr := by
    rw [h.admission]
    exact hw.table r ((h.byRoot r).mp hr)
  poisoned adm hadm hpoisoned := by
    rw [h.admission] at hadm
    exact (h.byRoot _).mpr (hw.poisoned adm hadm hpoisoned)
  lease x hx := by
    rw [h.lease] at hx
    exact h.leaseInv (hw.lease x hx)

/-- What is in order stays so when a lease is written. -/
theorem LeaseInv.setLease {k : Nat} {y : StateLease} (h : LeaseInv w l x) : LeaseInv (w.setLease k y) l x :=
  { h with
    held hreleased := ⟨⟨(h.held hreleased).1.admission, (h.held hreleased).1.byRoot⟩, (h.held hreleased).2⟩ }

theorem LeaseInv.locked (h : LeaseInv w l x) (i : Nat) : LeaseInv w l { x with mu := some i } :=
  ⟨h.file, h.root, h.distinct, h.held, nofun⟩

/-- **One owner.** -/
theorem Inv.exclusive (h : Inv w) {l1 l2 : Nat} {x1 x2 : StateLease} (h1 : w.lease l1 = some x1)
    (h2 : w.lease l2 = some x2) (hr1 : x1.released = false) (hr2 : x2.released = false)
    (hroot : x1.rootID = x2.rootID) : l1 = l2 := by
  have hheld1 := (((h.parts l1).lease x1 h1).held hr1).1.byRoot
  have hheld2 := (((h.parts l2).lease x2 h2).held hr2).1.byRoot
  rw [hroot] at hheld1
  exact Option.some.inj (hheld1.symm.trans hheld2)

theorem Held.not_poisoned (h : Held w l r) : ¬ w.Poisoned r := by
  rintro ⟨a, adm, ha, hadm, hpoisoned⟩
  obtain rfl : a = l := Option.some.inj (ha.symm.trans h.byRoot)
  cases hadm.symm.trans h.admission
  cases hpoisoned

/-! ## What a step owes -/

/-- Whose part a call may change. -/
def Touches (c : Call) (j : Nat) (w : World) (l : Nat) : Prop :=
  match c with
  | .acquire _ _ => l = j ∧ w.lease j = none
  | .release l' | .validate l' => l = l' ∧ ∃ x, w.lease l = some x ∧ (x.mu = none ∨ x.mu = some j)

structure Owes (j : Nat) (c : Call) (lbl : Label) (w w' : World) : Prop where
  inv : Inv w'
  charge : ∀ k, ¬ Touches c j w k → Unchanged k w w'
  failed : ∀ i, i ≠ j → w'.failed i = w.failed i
  poison : ∀ r, w.Poisoned r → w'.Poisoned r
  leases : ∀ l x, w.lease l = some x → ∃ x', w'.lease l = some x' ∧ x'.rootID = x.rootID
  made : ∀ l x, w.lease l = none → w'.lease l = some x → Held w l x.rootID
  finish : ∀ r, lbl = .finish r → (w'.failed j = true → w'.Poisoned r) ∧ (w'.failed j = false → w'.byRoot r = none)

theorem Owes.idle {j : Nat} {c : Call} (hw : Inv w) {lbl : Label} (hlbl : ∀ r, lbl ≠ .finish r) : Owes j c lbl w w where
  inv := hw
  charge k _ := .refl k w
  failed _ _ := rfl
  poison _ h := h
  leases _ x hx := ⟨x, hx, rfl⟩
  made l x hnone hsome := by cases hnone.symm.trans hsome
  finish r h := absurd h (hlbl r)

/-! ## What an acquisition knows -/

/-- Call `i` has opened and not closed `kept`, opened and closed `closed`, reserved a root or none, and has met a
failure while it gave something up or not. -/
structure Acquiring (i : Nat) (kept closed : List Nat) (reserved : Option RootID) (bad : Bool) (w : World) : Prop where
  opened : ∀ n : Nat, w.opened[n]? = some i ↔ n ∈ kept ∨ n ∈ closed
  nodup : kept.Nodup
  kept : ∀ n ∈ kept, w.closes n = 0
  closed : ∀ n ∈ closed, w.closes n = 1
  lease : w.lease i = none
  admission : w.admission i = reserved.map fun r => { rootID := r }
  byRoot : ∀ r, w.byRoot r = some i ↔ reserved = some r
  failed : w.failed i = bad

/-- What a failed acquisition leaves: its descriptors closed once each, no lease, and either no admission, or one that
it poisoned, or one that the table does not name. -/
structure Abandoned (i : Nat) (w : World) : Prop where
  closed : ∀ n : Nat, w.opened[n]? = some i → w.closes n = 1
  lease : w.lease i = none
  outcome : match w.admission i with
    | none => True
    | some adm => if w.failed i then adm.poisoned.isSome = true ∧ w.byRoot adm.rootID = some i
      else adm.poisoned = none ∧ w.byRoot adm.rootID ≠ some i

section Acquiring

variable {i : Nat} {kept closed : List Nat} {reserved : Option RootID} {bad : Bool} {w w' : World}

theorem Acquiring.unchanged (h : Acquiring i kept closed reserved bad w) (hsame : Unchanged i w w')
    (hfailed : w'.failed i = w.failed i) : Acquiring i kept closed reserved bad w' where
  opened n := (hsame.opened n).trans (h.opened n)
  nodup := h.nodup
  kept n hn := (hsame.closes n ((h.opened n).mpr (.inl hn))).trans (h.kept n hn)
  closed n hn := (hsame.closes n ((h.opened n).mpr (.inr hn))).trans (h.closed n hn)
  lease := hsame.lease.trans h.lease
  admission := hsame.admission.trans h.admission
  byRoot r := (hsame.byRoot r).trans (h.byRoot r)
  failed := hfailed.trans h.failed

theorem Acquiring.invOf (h : Acquiring i kept closed reserved bad w) : InvOf i w where
  table r hr := by
    obtain rfl := (h.byRoot r).mp hr
    exact ⟨_, h.admission, rfl⟩
  poisoned adm hadm hpoisoned := by
    rw [h.admission] at hadm
    obtain ⟨r, -, rfl⟩ := Option.map_eq_some_iff.mp hadm
    cases hpoisoned
  lease x hx := by cases h.lease.symm.trans hx

variable {r : RootID}

theorem Acquiring.held (h : Acquiring i kept closed (some r) bad w) : Held w i r :=
  ⟨h.admission, (h.byRoot r).mpr rfl⟩

theorem Acquiring.openAs (hw : Inv w) (h : Acquiring i kept closed reserved bad w) :
    Acquiring i (w.opened.length :: kept) closed reserved bad (w.openAs i) :=
  { h with
    opened n := by
      simp only [World.openAs, List.getElem?_append, List.mem_cons]
      split
      · next hn =>
        rw [h.opened, or_assoc, or_iff_right (Nat.ne_of_lt hn)]
      · next hn =>
        have hnone : w.opened[n]? = none := List.getElem?_eq_none (by omega)
        have hmem : ¬ (n ∈ kept ∨ n ∈ closed) := by
          rw [← h.opened, hnone]
          exact nofun
        rw [or_assoc, or_iff_left hmem, List.getElem?_singleton]
        split
        · simp only [true_iff]
          omega
        · simp only [reduceCtorEq, false_iff]
          omega
    nodup := by
      rw [List.nodup_cons]
      refine ⟨fun hmem => ?_, h.nodup⟩
      have hlen := (h.opened w.opened.length).mpr (.inl hmem)
      rw [List.getElem?_eq_none (Nat.le_refl _)] at hlen
      cases hlen
    kept n hn := by
      rcases List.mem_cons.mp hn with rfl | hn
      · exact hw.unopened _ (List.getElem?_eq_none (Nat.le_refl _))
      · exact h.kept n hn }

theorem Acquiring.close {n : Nat} (h : Acquiring i (n :: kept) closed reserved bad w) :
    Acquiring i kept (n :: closed) reserved bad (w.close n) :=
  { h with
    opened m := by
      rw [List.mem_cons, or_left_comm, ← or_assoc, ← List.mem_cons]
      exact h.opened m
    nodup := (List.nodup_cons.mp h.nodup).2
    kept m hm := by
      have hmn : m ≠ n := fun heq => (List.nodup_cons.mp h.nodup).1 (heq ▸ hm)
      exact (Function.update_of_ne hmn _ _).trans (h.kept m (.tail n hm))
    closed m hm := by
      by_cases hmn : m = n
      · subst hmn
        simp only [World.close, Function.update_self, h.kept m (.head _)]
      · exact (Function.update_of_ne hmn _ _).trans (h.closed m ((List.mem_cons.mp hm).resolve_left hmn)) }

theorem Acquiring.fail (h : Acquiring i kept closed reserved bad w) :
    Acquiring i kept closed reserved true (w.fail i) :=
  { h with failed := Function.update_self _ _ _ }

theorem Acquiring.reserve (h : Acquiring i kept closed none bad w) : Acquiring i kept closed (some r) bad
      { w.setAdmission i { rootID := r } with byRoot := Function.update w.byRoot r (some i) } :=
  { h with
    admission := Function.update_self _ _ _
    byRoot := fun r' => by
      by_cases hr' : r' = r
      · subst hr'
        simp only [Function.update_self]
      · simp only [Function.update_of_ne hr', h.byRoot, reduceCtorEq, false_iff, Option.some.injEq]
        exact fun heq => hr' heq.symm }

theorem Acquiring.finish {poison : Option Error}
    (h : Acquiring i [] closed (some r) poison.isSome w) : Abandoned i (w.finish i r poison) := by
  have hbyRoot : ¬ (w.byRoot r ≠ some i) := not_not.mpr ((h.byRoot r).mpr rfl)
  unfold World.finish
  rw [if_neg hbyRoot]
  cases poison with
  | none =>
    refine ⟨fun n hn => ?_, h.lease, ?_⟩
    · exact h.closed n (((h.opened n).mp hn).resolve_left nofun)
    · simp only [h.admission, Option.map_some, h.failed]
      simp
  | some err =>
    refine ⟨fun n hn => ?_, h.lease, ?_⟩
    · exact h.closed n (((h.opened n).mp hn).resolve_left nofun)
    · simp [World.setAdmission, h.failed, (h.byRoot r).mpr rfl]

theorem Acquiring.abandoned (h : Acquiring i [] closed none bad w) : Abandoned i w where
  closed n hn := h.closed n (((h.opened n).mp hn).resolve_left nofun)
  lease := h.lease
  outcome := by
    rw [h.admission]
    trivial

theorem Abandoned.unchanged (h : Abandoned i w) (hsame : Unchanged i w w') (hfailed : w'.failed i = w.failed i) :
    Abandoned i w' where
  closed n hn := by
    have hn' := (hsame.opened n).mp hn
    exact (hsame.closes n hn').trans (h.closed n hn')
  lease := hsame.lease.trans h.lease
  outcome := by
    rw [hsame.admission, hfailed]
    have houtcome := h.outcome
    split
    · trivial
    · next adm hadm =>
      rw [hadm] at houtcome
      simp only [ne_eq, hsame.byRoot]
      exact houtcome

/-- What a call leaves behind. -/
def Post (i : Nat) (c : Call) (ret : Ret) (w : World) : Prop :=
  match c, ret with
  | .acquire _ _, .acquired (.error _) => Abandoned i w
  | .release l, .done _ => w.failed i = true → ∃ x, w.lease l = some x ∧ w.Poisoned x.rootID
  | _, _ => True

def discipline : Discipline Call Label World Ret where
  inv := Inv
  guar := Owes
  post := Post
  keeps := fun _ h => h.inv

theorem unchanged_of_other {j : Nat} {c : Call} {lbl : Label} (hlease : w.lease i = none) (hj : j ≠ i)
    (h : Owes j c lbl w w') : Unchanged i w w' := by
  apply h.charge
  cases c with
  | acquire => exact fun htouches => hj htouches.1.symm
  | release l | validate l =>
    rintro ⟨-, x, hx, -⟩
    cases hlease.symm.trans hx

theorem stable_acquiring : discipline.Stable i (Acquiring i kept closed reserved bad) := by
  rintro w w' ⟨-, j, c, lbl, hj, howes⟩ h
  exact h.unchanged (unchanged_of_other h.lease hj howes) (howes.failed i hj.symm)

theorem stable_abandoned : discipline.Stable i (Abandoned i) := by
  rintro w w' ⟨-, j, c, lbl, hj, howes⟩ h
  exact h.unchanged (unchanged_of_other h.lease hj howes) (howes.failed i hj.symm)

end Acquiring

/-! ## Acquisitions are safe -/

abbrev LeaseSafe {α : Type} (i : Nat) (c : Call) (post : α → World → Prop) (p : Act α) (w : World) : Prop :=
  Safe (discipline.contract (fun _ _ => True) i c) post p w

/-- What an acquisition knows, with the invariant. -/
def Knows (i : Nat) (kept closed : List Nat) (reserved : Option RootID) (bad : Bool) (w : World) : Prop :=
  Inv w ∧ Acquiring i kept closed reserved bad w

section Acquisition

variable {i : Nat} {baseRoot : String} {options : Options} {kept closed : List Nat} {reserved : Option RootID}
    {bad : Bool}
  {w w' : World} {α : Type}

theorem stable_knows : discipline.Stable i (Knows i kept closed reserved bad) :=
  (Discipline.stable_inv i).and stable_acquiring

/-- A step of an acquisition that changes its own part only, and does not end it. -/
theorem Knows.step {kept' closed' : List Nat} {reserved' : Option RootID} {bad' : Bool} {lbl : Label}
    (h : Knows i kept closed reserved bad w) (hnext : Acquiring i kept' closed' reserved' bad' w')
    (hsame : ∀ k, k ≠ i → Unchanged k w w') (hunopened : ∀ n : Nat, w'.opened[n]? = none → w'.closes n = 0)
    (hfailed : ∀ j, j ≠ i → w'.failed j = w.failed j) (hlbl : ∀ r, lbl ≠ .finish r) :
    Owes i (.acquire baseRoot options) lbl w w' ∧ Knows i kept' closed' reserved' bad' w' := by
  have hinv : Inv w' := by
    refine ⟨fun l => ?_, hunopened⟩
    by_cases hl : l = i
    · subst hl
      exact hnext.invOf
    · exact (hsame l hl).invOf (h.1.parts l)
  refine ⟨⟨hinv, fun k hk => hsame k fun heq => hk ⟨heq, h.2.lease⟩, hfailed, ?_, ?_, ?_, ?_⟩, hinv, hnext⟩
  · rintro r ⟨a, adm, ha, hadm, hpoisoned⟩
    have hai : a ≠ i := by
      rintro rfl
      rw [h.2.admission] at hadm
      obtain ⟨r, -, rfl⟩ := Option.map_eq_some_iff.mp hadm
      cases hpoisoned
    exact ⟨a, adm, ((hsame a hai).byRoot r).mpr ha, (hsame a hai).admission.trans hadm, hpoisoned⟩
  · intro l x hx
    have hli : l ≠ i := by
      rintro rfl
      cases h.2.lease.symm.trans hx
    exact ⟨x, (hsame l hli).lease.trans hx, rfl⟩
  · intro l x hnone hsome
    have hli : l ≠ i := by
      rintro rfl
      cases hnext.lease.symm.trans hsome
    cases ((hsame l hli).lease.trans hnone).symm.trans hsome
  · exact fun r hr => absurd hr (hlbl r)

theorem knows_silent {p : Act α} (hp : Silent (· = .other) p) (h : Knows i kept closed reserved bad w) :
    LeaseSafe i (.acquire baseRoot options) (fun _ => Knows i kept closed reserved bad) p w := by
  apply Safe.silent_among _ stable_knows hp h
  rintro lbl w rfl hw
  exact .idle hw.1 nofun

/-- One step, from what the acquisition knows to what it knows then. -/
theorem knows_act {lbl : Label} {f : Answer → World → Option (α × World)} {post : α → World → Prop}
    (hpost : ∀ a, discipline.Stable i (post a)) (h : Knows i kept closed reserved bad w)
    (hstep : ∀ w1, Knows i kept closed reserved bad w1 → ∀ ans a w2, f ans w1 = some (a, w2) →
      Owes i (.acquire baseRoot options) lbl w1 w2 ∧ post a w2) :
    LeaseSafe i (.acquire baseRoot options) post (Prog.step lbl f) w := by
  apply Safe.act_among _ stable_knows h
  intro w1 hw1 _ ans a w2 hf
  obtain ⟨howes, ha⟩ := hstep w1 hw1 ans a w2 hf
  exact ⟨howes, .pure_among (hpost a) ha⟩

/-- What is known after an `openFile`. -/
def KnowsOpened (i : Nat) (kept closed : List Nat) (reserved : Option RootID) (bad : Bool) :
    Except Error Nat → World → Prop
  | .error _ => Knows i kept closed reserved bad
  | .ok n => Knows i (n :: kept) closed reserved bad

theorem openFile_safe (h : Knows i kept closed reserved bad w) :
    LeaseSafe i (.acquire baseRoot options) (KnowsOpened i kept closed reserved bad) (openFile i) w := by
  apply knows_act _ h
  · intro w1 hw1 ans result w2 hstep
    split at hstep
    · cases hstep
      exact ⟨.idle hw1.1 nofun, hw1⟩
    · cases hstep
      refine hw1.step (hw1.2.openAs hw1.1) (fun k hk => unchanged_openAs hk) (fun n hn => ?_) (fun _ _ => rfl) nofun
      apply hw1.1.unopened
      rw [List.getElem?_eq_none_iff] at hn ⊢
      simp only [World.openAs, List.length_append, List.length_singleton] at hn
      omega
  · intro result
    cases result with
    | error => exact stable_knows
    | ok => exact stable_knows

variable {l : Nat}

/-- A close: only an opened descriptor counts its closes. -/
theorem unopened_close (hw : Inv w) {n : Nat} (hn : w.opened[n]? = some l) (m : Nat) (hm : w.opened[m]? = none) :
    (w.close n).closes m = 0 := by
  have hmn : m ≠ n := by
    rintro rfl
    cases hm.symm.trans hn
  exact (Function.update_of_ne hmn _ _).trans (hw.unopened m hm)

theorem closeFile_safe {n : Nat} {format : String} (h : Knows i (n :: kept) closed reserved bad w) :
    LeaseSafe i (.acquire baseRoot options) (fun err => Knows i kept (n :: closed) reserved (bad || err.isSome))
      (closeFile i n format) w := by
  apply knows_act (fun _ => stable_knows) h
  intro w1 hw1 ans err w2 hstep
  have hn : w1.opened[n]? = some i := (hw1.2.opened n).mpr (.inl (.head _))
  split at hstep
  · cases hstep
    rw [Option.isSome_some, Bool.or_true]
    exact hw1.step hw1.2.close.fail (fun k hk => (unchanged_close hn hk).trans (unchanged_fail _ i k))
      (unopened_close hw1.1 hn) (fun j hj => Function.update_of_ne hj _ _) nofun
  · cases hstep
    rw [Option.isSome_none, Bool.or_false]
    exact hw1.step hw1.2.close (fun k hk => unchanged_close hn hk) (unopened_close hw1.1 hn) (fun _ _ => rfl) nofun

theorem unlockFile_safe (h : Knows i kept closed reserved bad w) :
    LeaseSafe i (.acquire baseRoot options) (fun err => Knows i kept closed reserved (bad || err.isSome))
      (unlockFile i) w := by
  apply knows_act (fun _ => stable_knows) h
  intro w1 hw1 ans err w2 hstep
  split at hstep
  · cases hstep
    rw [Option.isSome_some, Bool.or_true]
    exact hw1.step hw1.2.fail (fun k _ => unchanged_fail _ i k) hw1.1.unopened
      (fun j hj => Function.update_of_ne hj _ _) nofun
  · cases hstep
    rw [Option.isSome_none, Bool.or_false]
    exact ⟨.idle hw1.1 nofun, hw1⟩

/-- What is known after the reservation. -/
def KnowsReserved (i : Nat) (kept closed : List Nat) (r : RootID) (bad : Bool) : Except Error Unit → World → Prop
  | .error _ => Knows i kept closed none bad
  | .ok () => Knows i kept closed (some r) bad

variable {r : RootID}

theorem reserve_safe (h : Knows i kept closed none bad w) :
    LeaseSafe i (.acquire baseRoot options) (KnowsReserved i kept closed r bad) (reserveStateLeaseAdmission i r) w := by
  apply knows_act _ h
  · intro w1 hw1 ans result w2 hstep
    simp only [World.reserve] at hstep
    split at hstep
    · split at hstep
      all_goals
        cases hstep
        exact ⟨.idle hw1.1 nofun, hw1⟩
    · next hfree =>
      cases hstep
      exact hw1.step hw1.2.reserve (fun k hk => unchanged_reserve hfree hk) hw1.1.unopened (fun _ _ => rfl) nofun
  · intro result
    cases result with
    | error => exact stable_knows
    | ok => exact stable_knows

theorem finish_poisons (hbyRoot : w.byRoot r = some l) (err : Error) : (w.finish l r (some err)).Poisoned r := by
  refine ⟨l, { rootID := r, poisoned := some err }, ?_⟩
  simp [World.finish, World.setAdmission, hbyRoot]

theorem finish_frees (hbyRoot : w.byRoot r = some l) : (w.finish l r none).byRoot r = none := by
  simp [World.finish, hbyRoot]

/-- Finishing keeps the lists of everything else. -/
theorem finish_frame (w : World) (l : Nat) (r : RootID) (poison : Option Error) :
    (w.finish l r poison).opened = w.opened ∧ (w.finish l r poison).closes = w.closes ∧
      (w.finish l r poison).lease = w.lease ∧ (w.finish l r poison).failed = w.failed := by
  unfold World.finish
  split
  · exact ⟨rfl, rfl, rfl, rfl⟩
  · cases poison <;> exact ⟨rfl, rfl, rfl, rfl⟩

variable {poison : Option Error}

theorem Held.finish_table (hw : InvOf l w) (h : Held w l r) (r' : RootID)
    (hr' : (w.finish l r poison).byRoot r' = some l) :
    ∃ adm, (w.finish l r poison).admission l = some adm ∧ adm.rootID = r' := by
  have hbyRoot : ¬ (w.byRoot r ≠ some l) := not_not.mpr h.byRoot
  have honly : w.byRoot r' = some l → r' = r := by
    intro hnamed
    obtain ⟨adm, hadm, rfl⟩ := hw.table r' hnamed
    cases hadm.symm.trans h.admission
    rfl
  unfold World.finish at hr' ⊢
  rw [if_neg hbyRoot] at hr' ⊢
  cases poison with
  | none =>
    dsimp only at hr'
    by_cases heq : r' = r
    · subst heq
      rw [Function.update_self] at hr'
      cases hr'
    · exact absurd (honly (by rwa [Function.update_of_ne heq] at hr')) heq
  | some err =>
    obtain rfl := honly hr'
    exact ⟨_, Function.update_self _ _ _, rfl⟩

theorem Held.finish_givenUp (h : Held w l r) : GivenUp (w.finish l r poison) l r := by
  have hbyRoot : ¬ (w.byRoot r ≠ some l) := not_not.mpr h.byRoot
  unfold World.finish
  rw [if_neg hbyRoot]
  cases poison with
  | none => exact ⟨_, h.admission, rfl, .inr ⟨rfl, by simp⟩⟩
  | some err => exact ⟨_, Function.update_self _ _ _, rfl, .inl ⟨rfl, h.byRoot⟩⟩

theorem GivenUp.poisoned (h : GivenUp w l r) (adm : Admission) (hadm : w.admission l = some adm)
    (hpoisoned : adm.poisoned.isSome = true) : w.byRoot adm.rootID = some l := by
  obtain ⟨adm', hadm', rfl, hcases⟩ := h
  cases hadm.symm.trans hadm'
  rcases hcases with hnamed | hfree
  · exact hnamed.2
  · rw [hfree.1] at hpoisoned
    cases hpoisoned

theorem Held.finish_poisoned {r' : RootID} (h : Held w l r) (hp : w.Poisoned r') :
    (w.finish l r poison).Poisoned r' := by
  obtain ⟨a, adm, ha, hadm, hpoisoned⟩ := hp
  have hal : a ≠ l := by
    rintro rfl
    cases hadm.symm.trans h.admission
    cases hpoisoned
  have hsame : Unchanged a w (w.finish l r poison) := unchanged_finish hal
  exact ⟨a, adm, (hsame.byRoot r').mpr ha, hsame.admission.trans hadm, hpoisoned⟩

theorem finish_owed {failed : Bool} (h : Held w l r) (hfailed : failed = poison.isSome) :
    (failed = true → (w.finish l r poison).Poisoned r) ∧ (failed = false → (w.finish l r poison).byRoot r = none) := by
  subst hfailed
  cases poison with
  | none => exact ⟨nofun, fun _ => finish_frees h.byRoot⟩
  | some err => exact ⟨fun _ => finish_poisons h.byRoot err, nofun⟩

theorem finish_safe (h : Knows i [] closed (some r) poison.isSome w) :
    LeaseSafe i (.acquire baseRoot options) (fun _ => Abandoned i) (finishStateLeaseAdmission i r poison) w := by
  apply knows_act (fun _ => stable_abandoned) h
  intro w1 hw1 ans result w2 hstep
  cases hstep
  have habandoned := hw1.2.finish
  obtain ⟨hopened, hcloses, hleases, hfailed⟩ := finish_frame w1 i r poison
  have hinv : Inv (w1.finish i r poison) := by
    constructor
    · intro l
      by_cases hl : l = i
      · subst hl
        refine ⟨hw1.2.held.finish_table (hw1.1.parts l), hw1.2.held.finish_givenUp.poisoned, fun x hx => ?_⟩
        cases habandoned.lease.symm.trans hx
      · exact (unchanged_finish hl).invOf (hw1.1.parts l)
    · rw [hopened, hcloses]
      exact hw1.1.unopened
  refine ⟨⟨hinv, ?_, ?_, ?_, ?_, ?_, ?_⟩, habandoned⟩
  · exact fun k hk => unchanged_finish fun heq => hk ⟨heq, hw1.2.lease⟩
  · exact fun j _ => congrFun hfailed j
  · exact fun r' hp => hw1.2.held.finish_poisoned hp
  · intro l x hx
    rw [hleases]
    exact ⟨x, hx, rfl⟩
  · intro l x hnone hsome
    rw [hleases] at hsome
    cases hnone.symm.trans hsome
  · rintro r' hr'
    cases hr'
    exact finish_owed hw1.2.held ((congrFun hfailed i).trans hw1.2.failed)

/-! ### The programs -/

theorem silent_ask : Silent (· = .other) ask := .act rfl (fun _ _ _ _ h => by cases h; rfl) fun _ => .pure _

theorem silent_syscallWith (wrap : Error → Error) : Silent (· = .other) (syscallWith wrap).run := by
  apply Silent.bind silent_ask
  intro ans
  split
  · exact .pure _
  · exact .pure _

theorem silent_syscall (format : String) : Silent (· = .other) (syscall format).run := silent_syscallWith _

theorem silent_require (condition : Bool) (err : Error) : Silent (· = .other) (require condition err).run := .pure _

theorem silent_checked (format : String) (result : Except Error α) : Silent (· = .other) (checked format result).run :=
  .pure _

theorem silent_verifyStateLeasePath (info : FileInfo) : Silent (· = .other) (verifyStateLeasePath info).run := by
  apply (silent_syscall _).andThen
  intro pathStat
  apply (silent_checked _ _).andThen
  intro openedID
  exact silent_require _ _

theorem silent_secureRoot (options : Options) : Silent (· = .other) (secureRoot options).run := by
  apply (silent_syscall _).andThen
  intro rootInfo
  apply (silent_require _ _).andThen
  intro _
  apply (silent_require _ _).andThen
  intro _
  apply (silent_checked _ _).andThen
  intro _
  apply (silent_syscall _).andThen
  intro _
  apply (silent_syscall _).andThen
  intro rootInfo
  apply (silent_require _ _).andThen
  intro _
  apply (silent_checked _ _).andThen
  intro rootID
  exact .pure _

theorem silent_secureLockFile : Silent (· = .other) secureLockFile.run := by
  apply (silent_syscall _).andThen
  intro lockInfo
  apply (silent_require _ _).andThen
  intro _
  apply (silent_checked _ _).andThen
  intro _
  apply (silent_syscall _).andThen
  intro _
  apply (silent_syscall _).andThen
  intro lockInfo
  apply (silent_require _ _).andThen
  intro _
  apply (silent_verifyStateLeasePath _).andThen
  intro _
  exact .pure _

theorem silent_lockFile : Silent (· = .other) lockFile.run := by
  apply Silent.bind silent_ask
  intro ans
  split
  · exact .pure _
  · split
    · exact .pure _
    · exact .pure _

theorem silent_revalidate (rootInfo lockInfo : FileInfo) : Silent (· = .other) (revalidate rootInfo lockInfo).run := by
  apply (silent_verifyStateLeasePath _).andThen
  intro _
  apply (silent_syscall _).andThen
  intro _
  exact silent_require _ _

theorem isSome_joinErrs (a b : Option Error) : (Controller.joinErrs a b).isSome = (a.isSome || b.isSome) := by
  cases a <;> cases b <;> rfl

/-- The descriptors an acquisition has when it gives up. -/
def keptWith (file : Option Nat) (root : Nat) : List Nat := file.toList ++ [root]

variable {root : Nat}

theorem abandonStateLeaseAcquisition_safe {file : Option Nat} {locked : Bool} {err : Error}
    (h : Knows i (keptWith file root) [] (some r) false w) :
    LeaseSafe i (.acquire baseRoot options) (fun _ => Abandoned i)
      (abandonStateLeaseAcquisition i r file root locked err) w := by
  have hunlock : LeaseSafe i (.acquire baseRoot options)
      (fun unlocked => Knows i (keptWith file root) [] (some r) unlocked.isSome)
      (unlockHeld i (locked && file.isSome)) w := by
    unfold unlockHeld
    split
    · exact unlockFile_safe h
    · exact .pure_among stable_knows h
  apply Safe.bind_among hunlock
  intro unlocked w1 hw1
  have hclose : ∃ closed, LeaseSafe i (.acquire baseRoot options)
      (fun result => Knows i [root] closed (some r) (unlocked.isSome || result.isSome))
      (closeOpened i file) w1 := by
    cases file with
    | none =>
      refine ⟨[], .pure_among stable_knows ?_⟩
      rwa [Option.isSome_none, Bool.or_false]
    | some file => exact ⟨[file], closeFile_safe hw1⟩
  obtain ⟨closed, hclose⟩ := hclose
  apply Safe.bind_among hclose
  intro result w2 hw2
  apply Safe.bind_among (closeFile_safe hw2)
  intro result' w3 hw3
  rw [← isSome_joinErrs, ← isSome_joinErrs] at hw3
  apply Safe.bind_among (finish_safe hw3)
  intro _ w4 hw4
  split
  · exact .pure_among stable_abandoned hw4
  · exact .pure_among stable_abandoned hw4

/-- What is known when the lock was tried for. -/
def KnowsLocked (i root : Nat) (r : RootID) : Except (Option Nat × Bool × Error) Nat → World → Prop
  | .error (file, _, _) => Knows i (keptWith file root) [] (some r) false
  | .ok file => Knows i [file, root] [] (some r) false

theorem stable_knowsLocked (result : Except (Option Nat × Bool × Error) Nat) :
    discipline.Stable i (KnowsLocked i root r result) := by
  cases result with
  | error => exact stable_knows
  | ok => exact stable_knows

theorem lockRoot_safe {rootInfo : FileInfo} (h : Knows i [root] [] (some r) false w) :
    LeaseSafe i (.acquire baseRoot options) (KnowsLocked i root r) (lockRoot i rootInfo) w := by
  apply Safe.bind_among (openFile_safe h)
  intro result w1 hw1
  cases result with
  | error err => exact .pure_among (stable_knowsLocked _) hw1
  | ok file =>
    have hlock : Silent (· = .other)
        (do let lockInfo ← secureLockFile; lockFile; return lockInfo : Attempt FileInfo).run := by
      apply silent_secureLockFile.andThen
      intro lockInfo
      apply silent_lockFile.andThen
      intro _
      exact .pure _
    apply Safe.bind_among (knows_silent hlock hw1)
    intro result w2 hw2
    cases result with
    | error err => exact .pure_among (stable_knowsLocked _) hw2
    | ok lockInfo =>
      apply Safe.bind_among (knows_silent (silent_revalidate rootInfo lockInfo) hw2)
      intro result w3 hw3
      cases result with
      | error err | ok => exact .pure_among (stable_knowsLocked _) hw3

theorem setLease_safe {file : Nat} (h : Knows i [file, root] [] (some r) false w) :
    LeaseSafe i (.acquire baseRoot options) (fun _ _ => True)
      (change (·.setLease i { file := file, root := root, rootID := r, options := options })) w := by
  apply knows_act (fun _ => Discipline.stable_const i True) h
  intro w1 hw1 ans result w2 hstep
  cases hstep
  have hlease : ∀ x, (w1.setLease i { file := file, root := root, rootID := r, options := options }).lease i = some x →
      x = { file := file, root := root, rootID := r, options := options } := by
    intro x hx
    exact Option.some.inj (hx.symm.trans (Function.update_self _ _ _))
  refine ⟨⟨⟨fun l => ?_, hw1.1.unopened⟩, ?_, fun _ _ => rfl, fun _ hp => hp, ?_, ?_, nofun⟩, trivial⟩
  · by_cases hl : l = i
    · subst hl
      refine ⟨(hw1.1.parts l).table, (hw1.1.parts l).poisoned, fun x hx => ?_⟩
      obtain rfl := hlease x hx
      exact {
        file := (hw1.2.opened file).mpr (.inl (.head _))
        root := (hw1.2.opened root).mpr (.inl (.tail _ (.head _)))
        distinct := fun heq => (List.nodup_cons.mp hw1.2.nodup).1 (List.mem_singleton.mpr heq)
        held := fun _ => ⟨⟨hw1.2.held.admission, hw1.2.held.byRoot⟩, hw1.2.kept file (.head _),
          hw1.2.kept root (.tail _ (.head _))⟩
        givenUp := nofun }
    · exact (unchanged_setLease hl).invOf (hw1.1.parts l)
  · exact fun k hk => unchanged_setLease fun heq => hk ⟨heq, hw1.2.lease⟩
  · intro l x hx
    have hli : l ≠ i := by
      rintro rfl
      cases hw1.2.lease.symm.trans hx
    exact ⟨x, (Function.update_of_ne hli _ _).trans hx, rfl⟩
  · intro l x hnone hsome
    by_cases hli : l = i
    · subst hli
      obtain rfl := hlease x hsome
      exact hw1.2.held
    · cases ((Function.update_of_ne hli _ _).trans hnone).symm.trans hsome

/-- What an acquisition returns with. -/
def Acquired (i : Nat) : Except Error Nat → World → Prop
  | .error _ => Abandoned i
  | .ok _ => fun _ => True

theorem stable_acquired (result : Except Error Nat) : discipline.Stable i (Acquired i result) := by
  cases result with
  | error => exact stable_abandoned
  | ok => exact Discipline.stable_const i True

theorem acquireReserved_safe {rootInfo : FileInfo} (h : Knows i [root] [] (some r) false w) :
    LeaseSafe i (.acquire baseRoot options) (Acquired i) (acquireReserved i root options rootInfo r) w := by
  apply Safe.bind_among (lockRoot_safe h)
  intro result w1 hw1
  cases result with
  | error failure =>
    obtain ⟨file, locked, err⟩ := failure
    apply Safe.bind_among (abandonStateLeaseAcquisition_safe hw1)
    intro err' w2 hw2
    exact .pure_among (stable_acquired _) hw2
  | ok file =>
    apply Safe.bind_among (setLease_safe hw1)
    intro _ w2 _
    exact .pure_among (stable_acquired _) trivial

theorem closeRoot_safe {err : Error} (h : Knows i [root] [] none false w) :
    LeaseSafe i (.acquire baseRoot options) (Acquired i)
      (do let _ ← closeFile i root "%w"; return .error err : Act (Except Error Nat)) w := by
  apply Safe.bind_among (closeFile_safe h)
  intro _ w1 hw1
  exact .pure_among (stable_acquired _) hw1.2.abandoned

theorem silent_createRoot (options : Options) : Silent (· = .other) (createRoot options).run := by
  unfold createRoot
  split
  · apply (silent_syscall _).andThen
    intro _
    exact .pure _
  · exact .pure _

theorem acquireStateLease_safe (h : Knows i [] [] none false w) :
    LeaseSafe i (.acquire baseRoot options) (Acquired i) (acquireStateLease i baseRoot options) w := by
  unfold acquireStateLease
  split
  · exact .pure_among (stable_acquired _) h.2.abandoned
  apply Safe.bind_among (knows_silent (silent_createRoot options) h)
  intro created w1 hw1
  cases created with
  | error err => exact .pure_among (stable_acquired _) hw1.2.abandoned
  | ok =>
    apply Safe.bind_among (openFile_safe hw1)
    intro result w2 hw2
    cases result with
    | error err => exact Safe.pure_among (stable_acquired _) (Acquiring.abandoned hw2.2)
    | ok root =>
      apply Safe.bind_among (knows_silent (silent_secureRoot options) hw2)
      intro result w3 hw3
      cases result with
      | error err => exact closeRoot_safe hw3
      | ok found =>
        apply Safe.bind_among (reserve_safe hw3)
        intro result w4 hw4
        cases result with
        | error err => exact closeRoot_safe hw4
        | ok => exact acquireReserved_safe hw4

end Acquisition

end TailscaleDart.Runtime.Lease
