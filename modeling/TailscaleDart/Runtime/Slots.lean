import Mathlib.Logic.Relation
import TailscaleDart.Conc.Pool
import TailscaleDart.Runtime.Controller

/-!
# Runtime.Slots — one lifecycle transition at a time

The five slots of the controller are written by critical sections with different guards. `Move` says once what any of
them can do to the slots, the epoch and the generations: fill a slot when all are free, pass what is in one slot on to
another, or free a slot; and the epoch moves exactly when `current` is taken away (`Section.moves`). What holds of every
state any interleaving of sections reaches follows from the moves alone.
-/

namespace TailscaleDart.Runtime

/-! ## The sections -/

namespace Controller

/-- The admission of `BeginPersistentPreparation`. -/
def beginPreparation (token : Nat) (c : Controller) : Except Error Nat × Controller :=
  match c.cleanupAdmissionError with
  | some err => (.error err, c)
  | none =>
    if c.abandonedTokens token then (.error abandonedErr, c.setAbandoned token false)
    else if c.persistentPreparation.isSome || c.candidate.isSome || c.current.isSome || c.draining.isSome ||
        c.logout.isSome || c.reset.isSome then (.error transition, c)
    else (.ok c.next, { c with
        preparations := Function.update c.preparations c.next { token := token }
        persistentPreparation := some c.next
        next := c.next + 1 })

/-- Its second section: the lease was acquired or not. -/
def settleAcquisition (p : Nat) (lease : Bool) (c : Controller) : Controller :=
  c.setPreparation p fun prep => { prep with acquisitionSettled := true, lease := lease }

def validateCurrent (r : Nat) (c : Controller) : Option Error :=
  if (c.runtimes r).cancelled || c.nodeEpoch ≠ (c.runtimes r).generation then some (.sentinel .runtimeStale) else none

/-- The preparation leaves its slot. `abandoned` was read a moment before. -/
def removePreparation (p : Nat) (err : Option Error) (abandoned : Bool) (c : Controller) : Controller :=
  if c.persistentPreparation = some p then
    let c' := { c with persistentPreparation := none }
    if abandoned then
      { c' with completedPreparations :=
          Function.update c.completedPreparations (c.preparations p).token (some err) }
    else c'
  else c

/-- The admission of a reset. The lease of an active runtime moves to the operation. -/
def beginReset (token : Nat) (c : Controller) : Except Error (Nat × Option Nat) × Controller :=
  match c.cleanupAdmissionError with
  | some err => (.error err, c)
  | none =>
    if c.reset.isSome || c.persistentPreparation.isSome || c.candidate.isSome || c.draining.isSome ||
        c.logout.isSome then (.error transition, c)
    else match c.current with
      | none => (.ok (c.next, none), { c with
            resets := Function.update c.resets c.next { token := token }
            reset := some c.next
            next := c.next + 1 })
      | some r =>
        if !(c.runtimes r).stateLease then
          (.error (.note "%w: active runtime does not own its state lease" (.sentinel .runtimeCleanupFailed)), c)
        else (.ok (c.next, some r), { c.setRuntime r (fun rt => { rt with stateLease := false }) with
            current := none
            nodeEpoch := c.nodeEpoch + 1
            resets := Function.update c.resets c.next { token := token, lease := true }
            reset := some c.next
            next := c.next + 1 })

def endReset (op : Nat) (c : Controller) : Controller :=
  if c.reset = some op then { c with reset := none } else c

structure Slots where
  persistentPreparation : Option Nat
  candidate : Option Nat
  current : Option Nat
  draining : Option Nat
  reset : Option Nat

def slots (c : Controller) : Slots := ⟨c.persistentPreparation, c.candidate, c.current, c.draining, c.reset⟩

def Slots.all (s : Slots) : List (Option Nat) := [s.persistentPreparation, s.candidate, s.current, s.draining, s.reset]

/-- What is not under `runtimes.mu` writes neither the slots nor the epoch nor a generation. -/
structure Keeps (c c' : Controller) : Prop where
  slots : c'.slots = c.slots
  epoch : c'.nodeEpoch = c.nodeEpoch
  next : c.next ≤ c'.next
  generation : ∀ r < c.next, (c'.runtimes r).generation = (c.runtimes r).generation

/-- A critical section of `runtimes.mu`, or a step of a call between two of them. -/
inductive Section (c : Controller) : Controller → Prop
  | elsewhere {c' : Controller} (h : Keeps c c') : Section c c'
  | beginStartCall (token : Nat) : Section c (c.beginStartCall token).2
  | finishStartCall (token call : Nat) : Section c (c.finishStartCall token call)
  | retire (token : Nat) : Section c (c.retireAbandonedRuntimeToken token)
  | acknowledge (token : Nat) : Section c (c.acknowledgeLifecycleResult token)
  | recordReceipt (receipt : LifecycleReceipt) : Section c (c.recordLifecycleReceipt receipt)
  | recordFailure (token : Nat) (err : Option Error) : Section c (c.recordCleanupFailure token err).2
  | beginPreparation (token : Nat) : Section c (c.beginPreparation token).2
  | settleAcquisition (p : Nat) (lease : Bool) : Section c (c.settleAcquisition p lease)
  | removePreparation (p : Nat) (err : Option Error) (abandoned : Bool) :
      Section c (c.removePreparation p err abandoned)
  | adopt (token : Nat) (config : RuntimeConfig) (validated : Option Error) :
      Section c (c.adoptPersistentPreparation token config validated).2
  | reserve (token : Nat) (config : RuntimeConfig) : Section c (c.reserve token config).2
  | probe (token : Nat) (config : RuntimeConfig) : Section c (c.activeRuntimeForConfig token config).2
  | commit (r : Nat) : Section c (c.commit r).2
  | release (r : Nat) (cleanupErr : Option Error) : Section c (c.release r cleanupErr).2
  | close (token : Nat) (logoutOwner : Bool) : Section c (c.closeRound token logoutOwner).2
  | closeCurrent : Section c c.closeCurrentRound.2
  | publicationFailure (r : Nat) : Section c (c.detachForPublicationFailure r).2
  | abandon (token : Nat) : Section c (c.abandonRound token).2
  | await (token : Nat) : Section c (c.awaitRound token).2
  | forget (token : Nat) : Section c (c.forgetPreparation token)
  | tombstone (token : Nat) (b : Bool) : Section c (c.setAbandoned token b)
  | finishDrain (d : Nat) (err : Option Error) : Section c (c.finishRuntimeDrain d err).2
  | beginLogout (r : Nat) : Section c (c.beginLogout r).2
  | finishLogout (l : Nat) (receipt : LifecycleReceipt) (cleanupErr : Option Error) :
      Section c (c.finishLogout l receipt cleanupErr)
  | beginReset (token : Nat) : Section c (c.beginReset token).2
  | endReset (op : Nat) : Section c (c.endReset op)

/-! ## What a section can do -/

/-- The change of the slots, and whether `current` was taken away. -/
inductive Move : Slots → Slots → Bool → Nat → Prop
  | stay (s : Slots) (n : Nat) : Move s s false n
  | prepare (p n : Nat) : Move ⟨none, none, none, none, none⟩ ⟨some p, none, none, none, none⟩ false n
  /-- A new runtime, numbered `n`, with or without a preparation to take over. -/
  | admission (p : Option Nat) (n : Nat) : Move ⟨p, none, none, none, none⟩ ⟨none, some n, none, none, none⟩ false n
  | publish (p reset : Option Nat) (r n : Nat) :
      Move ⟨p, some r, none, none, reset⟩ ⟨p, none, some r, none, reset⟩ false n
  | detach (s : Slots) (r d n : Nat) (h : s.current = some r) :
      Move s { s with current := none, draining := some d } true n
  | reset (op n : Nat) : Move ⟨none, none, none, none, none⟩ ⟨none, none, none, none, some op⟩ false n
  | detachToReset (r op n : Nat) : Move ⟨none, none, some r, none, none⟩ ⟨none, none, none, none, some op⟩ true n
  | free (s s' : Slots) (n : Nat) (h : s' = { s with persistentPreparation := none } ∨
      s' = { s with candidate := none } ∨ s' = { s with draining := none } ∨ s' = { s with reset := none }) :
      Move s s' false n

/-- A section makes a move; the epoch counts the detachments, and a generation is given once. -/
structure Moves (c c' : Controller) : Prop where
  move : ∃ b : Bool, Move c.slots c'.slots b c.next ∧ c'.nodeEpoch = c.nodeEpoch + b.toNat
  next : c.next ≤ c'.next
  generation : ∀ r < c.next, (c'.runtimes r).generation = (c.runtimes r).generation
  admitted : c.candidate = none → c'.candidate = some c.next →
    c.next < c'.next ∧ (c'.runtimes c.next).generation = c.nodeEpoch

/-- All that a move reads. -/
def moving (c : Controller) : Slots × Nat × Nat × (Nat → NodeRuntime) := (c.slots, c.nodeEpoch, c.next, c.runtimes)

variable {c c' c'' : Controller}

theorem Keeps.same (h : c'.moving = c.moving) : Keeps c c' := by
  simp only [moving, Prod.mk.injEq] at h
  obtain ⟨hslots, hepoch, hnext, hruntimes⟩ := h
  exact ⟨hslots, hepoch, Nat.le_of_eq hnext.symm, fun r _ => by rw [hruntimes]⟩

theorem Keeps.refl (c : Controller) : Keeps c c := .same rfl

theorem Keeps.trans (h : Keeps c c') (h' : Keeps c' c'') : Keeps c c'' where
  slots := h'.slots.trans h.slots
  epoch := h'.epoch.trans h.epoch
  next := Nat.le_trans h.next h'.next
  generation r hr := (h'.generation r (Nat.lt_of_lt_of_le hr h.next)).trans (h.generation r hr)

theorem Keeps.moves (h : Keeps c c') : Moves c c' :=
  { h with
    move := ⟨false, h.slots ▸ .stay _ _, h.epoch⟩
    admitted hnone hsome := by
      have hsame : c'.candidate = c.candidate := congrArg Slots.candidate h.slots
      rw [hsame, hnone] at hsome
      cases hsome }

theorem Moves.same (h : c'.moving = c.moving) : Moves c c' := (Keeps.same h).moves

theorem setRuntime_keeps (r : Nat) (f : NodeRuntime → NodeRuntime) (hf : ∀ rt, (f rt).generation = rt.generation)
    (c : Controller) : Keeps c (c.setRuntime r f) := by
  refine ⟨rfl, rfl, Nat.le_refl _, fun s _ => ?_⟩
  unfold setRuntime
  by_cases hs : s = r
  · subst hs
    simp [hf]
  · simp [hs]

theorem recordCleanupFailure_keeps (token : Nat) (err : Option Error) (c : Controller) :
    Keeps c (c.recordCleanupFailure token err).2 := by
  unfold recordCleanupFailure
  split <;> exact .same rfl

theorem recordLifecycleReceipt_keeps (receipt : LifecycleReceipt) (c : Controller) :
    Keeps c (c.recordLifecycleReceipt receipt) := by
  unfold recordLifecycleReceipt
  split <;> exact .same rfl

theorem noteLogoutCleanup_keeps (token : Nat) (err : Option Error) (c : Controller) :
    Keeps c (c.noteLogoutCleanup token err) := by
  unfold noteLogoutCleanup
  split
  · exact .refl c
  split
  · exact .same rfl
  · exact .refl c

theorem drainReceipt_keeps (d : Nat) (err : Option Error) (c : Controller) : Keeps c (c.drainReceipt d err) := by
  unfold drainReceipt
  split
  · exact .refl c
  · exact recordLifecycleReceipt_keeps _ c

theorem admission_keeps {token : Nat} {err : Error} (h : c.admission token = some (err, c')) : Keeps c c' := by
  unfold admission at h
  split at h
  · cases h
    exact .same rfl
  split at h
  · cases h
    exact .same rfl
  split at h
  · cases h
    exact .same rfl
  · cases h

/-- Something leaves a slot, and nothing else happens to the slots. -/
theorem Moves.free (h : Keeps c c') (hslots : c''.slots = { c'.slots with persistentPreparation := none } ∨
      c''.slots = { c'.slots with candidate := none } ∨ c''.slots = { c'.slots with draining := none } ∨
      c''.slots = { c'.slots with reset := none })
    (hepoch : c''.nodeEpoch = c'.nodeEpoch) (hnext : c''.next = c'.next) (hruntimes : c''.runtimes = c'.runtimes) :
    Moves c c'' where
  move := ⟨false, .free _ _ _ (h.slots ▸ hslots), hepoch.trans h.epoch⟩
  next := hnext ▸ h.next
  generation r hr := by rw [hruntimes, h.generation r hr]
  admitted hnone hsome := by
    have hcandidate : c'.candidate = c.candidate := congrArg Slots.candidate h.slots
    have hfreed : c''.candidate = c'.candidate ∨ c''.candidate = none := by
      rcases hslots with heq | heq | heq | heq
      · exact .inl (congrArg Slots.candidate heq)
      · exact .inr (congrArg Slots.candidate heq)
      · exact .inl (congrArg Slots.candidate heq)
      · exact .inl (congrArg Slots.candidate heq)
    rw [hcandidate, hnone, or_self] at hfreed
    rw [hfreed] at hsome
    cases hsome

theorem freeDraining (h : Keeps c c') : Moves c { c' with draining := none } :=
  .free h (.inr (.inr (.inl rfl))) rfl rfl rfl

theorem detach_moves {r : Nat} (hcurrent : c.current = some r) (op : Option LifecycleOperation) :
    Moves c (c.detachRuntime r op).2 where
  move := ⟨true, .detach _ r c.next _ hcurrent, rfl⟩
  next := Nat.le_succ _
  generation _ _ := rfl
  admitted hnone hsome := absurd (hnone.symm.trans hsome) nofun

theorem newCandidate_moves {token : Nat} {config : RuntimeConfig} {lease : Bool} (p : Option Nat)
    (hfree : c.slots = ⟨p, none, none, none, none⟩) (hslots : c'.slots = ⟨none, some c.next, none, none, none⟩)
    (hruntimes : c'.runtimes = (c.newCandidate token config lease).runtimes) (hnext : c'.next = c.next + 1)
    (hepoch : c'.nodeEpoch = c.nodeEpoch) : Moves c c' where
  move := ⟨false, by rw [hslots, hfree]; exact .admission p c.next, hepoch⟩
  next := by omega
  generation r hr := by
    rw [hruntimes]
    simp [newCandidate, Nat.ne_of_lt hr]
  admitted _ _ := by
    refine ⟨by omega, ?_⟩
    rw [hruntimes]
    simp [newCandidate]

theorem Section.moves (h : Section c c') : Moves c c' := by
  cases h with
  | elsewhere h => exact h.moves
  | beginStartCall token =>
    unfold Controller.beginStartCall
    split
    · exact .same rfl
    split
    · exact .same rfl
    · exact Keeps.moves ⟨rfl, rfl, Nat.le_succ _, fun _ _ => rfl⟩
  | finishStartCall token call =>
    unfold Controller.finishStartCall
    split <;> exact .same rfl
  | retire token =>
    unfold retireAbandonedRuntimeToken
    split
    · exact .same rfl
    split <;> exact .same rfl
  | acknowledge token => exact .same rfl
  | recordReceipt receipt => exact (recordLifecycleReceipt_keeps receipt c).moves
  | recordFailure token err => exact (recordCleanupFailure_keeps token err c).moves
  | beginPreparation token =>
    unfold Controller.beginPreparation
    split
    · exact .same rfl
    split
    · exact .same rfl
    split
    · exact .same rfl
    next hfree =>
    refine ⟨⟨false, ?_, rfl⟩, Nat.le_succ _, fun _ _ => rfl, fun hnone hsome => absurd (hnone.symm.trans hsome) nofun⟩
    simp_all only [Controller.slots, Bool.or_eq_true, Option.isSome_iff_ne_none, not_or, not_not]
    exact .prepare _ _
  | settleAcquisition p lease => exact .same rfl
  | removePreparation p err abandoned =>
    unfold Controller.removePreparation
    split
    · split <;> exact .free (.refl c) (.inl rfl) rfl rfl rfl
    · exact .same rfl
  | adopt token config validated =>
    unfold adoptPersistentPreparation
    split
    · next hrefused => exact (admission_keeps hrefused).moves
    split
    · exact .same rfl
    next hfree =>
    split
    · exact .same rfl
    next p hp =>
    dsimp only
    repeat' split
    all_goals try exact .same rfl
    refine newCandidate_moves (some p) ?_ ?_ rfl rfl rfl <;> simp_all [Controller.slots, newCandidate, setPreparation]
  | reserve token config =>
    unfold Controller.reserve
    split
    · next hrefused => exact (admission_keeps hrefused).moves
    repeat' split
    all_goals try exact .same rfl
    refine newCandidate_moves none ?_ ?_ rfl rfl rfl <;> simp_all [Controller.slots, newCandidate]
  | probe token config =>
    unfold activeRuntimeForConfig
    split
    · next hrefused => exact (admission_keeps hrefused).moves
    repeat' split
    all_goals exact .same rfl
  | commit r =>
    unfold Controller.commit
    split
    · exact .same rfl
    split
    · exact .same rfl
    next hfree =>
    have hkeeps := setRuntime_keeps r (fun rt => { rt with preparationDone := true }) (fun _ => rfl) c
    simp only [Bool.or_eq_true, decide_eq_true_eq, not_or, Option.not_isSome_iff_eq_none, ne_eq, not_not] at hfree
    obtain ⟨⟨hcandidate, hcurrent⟩, hdraining⟩ := hfree
    refine ⟨⟨false, ?_, rfl⟩, Nat.le_refl _, hkeeps.generation, fun hnone => ?_⟩
    · simp only [Controller.slots, setRuntime, hcandidate, hcurrent, hdraining]
      exact .publish _ _ _ _
    · rw [hcandidate] at hnone
      cases hnone
  | release r cleanupErr =>
    have hkeeps := recordCleanupFailure_keeps (c.runtimes r).token cleanupErr c
    unfold Controller.release
    dsimp only
    split
    · split <;> exact .free hkeeps (.inr (.inl rfl)) rfl rfl rfl
    · exact hkeeps.moves
  | close token logoutOwner =>
    unfold closeRound
    split
    · exact .same rfl
    split
    · split <;> exact .same rfl
    split
    · split <;> exact .same rfl
    split
    · exact .same rfl
    next hcurrent =>
    split
    · exact .same rfl
    · exact detach_moves hcurrent _
  | closeCurrent =>
    unfold closeCurrentRound
    split
    · exact .same rfl
    split
    · exact .same rfl
    split
    · exact .same rfl
    split
    · exact .same rfl
    next hcurrent => exact detach_moves hcurrent _
  | publicationFailure r =>
    unfold detachForPublicationFailure
    split
    · exact .same rfl
    next hcurrent =>
    have hcurrent : c.current = some r := by simp_all
    exact detach_moves hcurrent _
  | abandon token =>
    unfold abandonRound
    split
    · exact .same rfl
    dsimp only
    split
    · next p hp =>
      unfold abandonDisposition
      dsimp only
      split <;> exact .same rfl
    split
    · exact .same rfl
    split
    · next r hr =>
      have hmarked : Keeps c (c.setAbandoned token true) := .same rfl
      exact (hmarked.trans (setRuntime_keeps r (fun rt => { rt with abandoned := true, cancelled := true })
        (fun _ => rfl) _)).moves
    split
    · exact .same rfl
    split
    · exact .same rfl
    · next r hr =>
      have hcurrent : (c.setAbandoned token true).current = some r := (Option.filter_eq_some_iff.mp hr).1
      obtain ⟨hmove, hnext, hgeneration, hadmitted⟩ := detach_moves hcurrent none
      exact ⟨hmove, hnext, hgeneration, hadmitted⟩
  | await token =>
    unfold awaitRound
    repeat' split
    all_goals exact .same rfl
  | forget token => exact .same rfl
  | tombstone token b => exact .same rfl
  | finishDrain d err =>
    unfold finishRuntimeDrain
    split
    · have hrecorded := recordCleanupFailure_keeps (c.runtimes (c.drains d).runtime).token err c
      refine freeDraining (hrecorded.trans
        (.trans (.trans ?_ (noteLogoutCleanup_keeps _ _ _)) (drainReceipt_keeps _ _ _)))
      exact .same rfl
    · exact .same rfl
  | beginLogout r =>
    unfold Controller.beginLogout
    split
    · exact .same rfl
    split
    · exact .same rfl
    · exact Keeps.moves ⟨rfl, rfl, Nat.le_succ _, fun _ _ => rfl⟩
  | finishLogout l receipt cleanupErr =>
    unfold Controller.finishLogout
    split
    · have hrecorded := recordCleanupFailure_keeps (c.logouts l).token cleanupErr c
      have hreceipt : ∀ c : Controller, Keeps c { c.recordLifecycleReceipt receipt with logout := none } :=
        fun c => (recordLifecycleReceipt_keeps receipt c).trans (.same rfl)
      refine Keeps.moves (hrecorded.trans (.trans ?_ (hreceipt _)))
      exact .same rfl
    · exact .same rfl
  | beginReset token =>
    unfold Controller.beginReset
    split
    · exact .same rfl
    split
    · exact .same rfl
    next hfree =>
    simp only [Bool.or_eq_true, not_or, Option.not_isSome_iff_eq_none] at hfree
    obtain ⟨⟨⟨⟨hreset, hprep⟩, hcandidate⟩, hdraining⟩, -⟩ := hfree
    split
    case h_1 hcurrent =>
      refine ⟨⟨false, ?_, rfl⟩, Nat.le_succ _, fun _ _ => rfl, fun _ hsome =>
        absurd (hcandidate.symm.trans hsome) nofun⟩
      simp only [Controller.slots, hreset, hprep, hcandidate, hdraining, hcurrent]
      exact .reset _ _
    case h_2 r hcurrent =>
      split
      · exact .same rfl
      have hkeeps := setRuntime_keeps r (fun rt => { rt with stateLease := false }) (fun _ => rfl) c
      refine ⟨⟨true, ?_, rfl⟩, Nat.le_succ _, hkeeps.generation, fun _ hsome =>
        absurd (hcandidate.symm.trans hsome) nofun⟩
      simp only [Controller.slots, setRuntime, hreset, hprep, hcandidate, hdraining, hcurrent]
      exact .detachToReset _ _ _
  | endReset op =>
    unfold Controller.endReset
    split
    · exact .free (.refl c) (.inr (.inr (.inr rfl))) rfl rfl rfl
    · exact .same rfl

/-! ## What holds in every state -/

def Slots.AtMostOne (s : Slots) : Prop := s.all.countP Option.isSome ≤ 1

/-- A runtime that may still be published, or is. -/
def Slots.Holds (s : Slots) (r : Nat) : Prop := s.candidate = some r ∨ s.current = some r

variable {s s' : Slots} {b : Bool} {n r : Nat}

theorem Move.atMostOne (h : Move s s' b n) (hone : s.AtMostOne) : s'.AtMostOne := by
  cases h with
  | stay => exact hone
  | prepare | admission | reset | detachToReset => simp [Slots.AtMostOne, Slots.all]
  | publish p reset r => simpa [Slots.AtMostOne, Slots.all, List.countP_cons] using hone
  | detach _ r d _ hcurrent =>
    simp only [Slots.AtMostOne, Slots.all, List.countP_cons, List.countP_nil, hcurrent, Option.isSome_some,
      Option.isSome_none, if_true, Bool.false_eq_true, if_false] at hone ⊢
    omega
  | free _ _ _ hfree =>
    rcases hfree with rfl | rfl | rfl | rfl <;>
    · simp only [Slots.AtMostOne, Slots.all, List.countP_cons, List.countP_nil, Option.isSome_none, Bool.false_eq_true,
        if_false] at hone ⊢
      omega

/-- After a move a runtime is held that was held before, unless it is a new one; a detachment leaves none. -/
theorem Move.holds (h : Move s s' b n) (hone : s.AtMostOne) (hr : s'.Holds r) :
    b = false ∧ s.Holds r ∨ r = n ∧ s.candidate = none ∧ s'.candidate = some n ∧ b = false := by
  cases h with
  | stay => exact .inl ⟨rfl, hr⟩
  | prepare | reset | detachToReset => rcases hr with hr | hr <;> cases hr
  | admission =>
    rcases hr with hr | hr
    · cases hr
      exact .inr ⟨rfl, rfl, rfl, rfl⟩
    · cases hr
  | publish =>
    rcases hr with hr | hr
    · cases hr
    · exact .inl ⟨rfl, .inl hr⟩
  | detach _ r1 d _ hcurrent =>
    exfalso
    rcases hr with hr | hr
    · have hr : s.candidate = some r := hr
      simp only [Slots.AtMostOne, Slots.all, List.countP_cons, hcurrent, hr, Option.isSome_some, if_true] at hone
      omega
    · cases hr
  | free _ _ _ hfree =>
    refine .inl ⟨rfl, ?_⟩
    rcases hfree with rfl | rfl | rfl | rfl
    · exact hr
    · exact hr.elim nofun .inr
    · exact hr
    · exact hr

/-- The epoch moves when `current` is taken away. -/
theorem Move.current (h : Move s s' b n) : (b = true → ∃ r, s.current = some r ∧ s'.current = none) ∧
      (b = false → ∀ r, s.current = some r → s'.current = some r) := by
  cases h with
  | stay => exact ⟨nofun, fun _ _ hr => hr⟩
  | prepare | admission | reset | publish => exact ⟨nofun, nofun⟩
  | detach _ r d _ hcurrent => exact ⟨fun _ => ⟨r, hcurrent, rfl⟩, nofun⟩
  | detachToReset r => exact ⟨fun _ => ⟨r, rfl, rfl⟩, nofun⟩
  | free _ _ _ hfree =>
    refine ⟨nofun, fun _ r hr => ?_⟩
    rcases hfree with rfl | rfl | rfl | rfl <;> exact hr

structure Exclusive (c : Controller) : Prop where
  one : c.slots.AtMostOne
  dated : ∀ r, c.slots.Holds r → r < c.next ∧ (c.runtimes r).generation = c.nodeEpoch

theorem Exclusive.moves (h : Exclusive c) (hmoves : Moves c c') : Exclusive c' := by
  obtain ⟨b, hmove, hepoch⟩ := hmoves.move
  refine ⟨hmove.atMostOne h.one, fun r hr => ?_⟩
  rcases hmove.holds h.one hr with ⟨rfl, hheld⟩ | ⟨rfl, hnone, hsome, rfl⟩
  · obtain ⟨hlt, hgeneration⟩ := h.dated r hheld
    exact ⟨Nat.lt_of_lt_of_le hlt hmoves.next, by rw [hmoves.generation r hlt, hgeneration, hepoch]; rfl⟩
  · obtain ⟨hlt, hgeneration⟩ := hmoves.admitted hnone hsome
    exact ⟨hlt, by rw [hgeneration, hepoch]; rfl⟩

/-- The runtime belongs to an earlier epoch. -/
def Past (r : Nat) (c : Controller) : Prop := r < c.next ∧ (c.runtimes r).generation < c.nodeEpoch

theorem Past.moves (h : Past r c) (hmoves : Moves c c') : Past r c' := by
  obtain ⟨b, -, hepoch⟩ := hmoves.move
  refine ⟨Nat.lt_of_lt_of_le h.1 hmoves.next, ?_⟩
  rw [hmoves.generation r h.1, hepoch]
  exact Nat.lt_add_right _ h.2

/-- The states that any interleaving of sections reaches. -/
def Reachable : Controller → Prop := Relation.ReflTransGen Section { nodeEpoch := 1 }

theorem exclusive_of_reachable (h : Reachable c) : Exclusive c := by
  induction h with
  | refl => exact ⟨Nat.zero_le _, fun r hr => hr.elim nofun nofun⟩
  | tail _ hsection ih => exact ih.moves hsection.moves

/-- In every reachable state at most one slot is taken and the generation of a published runtime is the epoch; a section
takes the published runtime away and moves the epoch by one, or does neither; and a runtime that was taken away is stale
in every later state. -/
theorem one_transition_at_a_time (h : Reachable c) :
    [c.persistentPreparation, c.candidate, c.current, c.draining, c.reset].countP Option.isSome ≤ 1 ∧
      (∀ r, c.current = some r → (c.runtimes r).generation = c.nodeEpoch) ∧
      ∀ c', Section c c' → ((∃ r, c.current = some r ∧ c'.current = none ∧ c'.nodeEpoch = c.nodeEpoch + 1) ∨
          c'.nodeEpoch = c.nodeEpoch ∧ ∀ r, c.current = some r → c'.current = some r) ∧
        ∀ r, c.current = some r → c'.current = none →
          ∀ c'', Relation.ReflTransGen Section c' c'' → c''.validateCurrent r = some (.sentinel .runtimeStale) := by
  have hex := exclusive_of_reachable h
  refine ⟨hex.one, fun r hr => (hex.dated r (.inr hr)).2, fun c' hsection => ?_⟩
  have hmoves := hsection.moves
  obtain ⟨b, hmove, hepoch⟩ := hmoves.move
  constructor
  · cases b with
    | true =>
      obtain ⟨r, hr, hnone⟩ := hmove.current.1 rfl
      exact .inl ⟨r, hr, hnone, hepoch⟩
    | false => exact .inr ⟨hepoch, hmove.current.2 rfl⟩
  · intro r hr hnone c'' hlater
    have hdetached : b = true := by
      cases b with
      | true => rfl
      | false => exact absurd ((hmove.current.2 rfl r hr).symm.trans hnone) nofun
    obtain ⟨hlt, hgeneration⟩ := hex.dated r (.inr hr)
    have hpast : Past r c' := by
      refine ⟨Nat.lt_of_lt_of_le hlt hmoves.next, ?_⟩
      rw [hmoves.generation r hlt, hgeneration, hepoch, hdetached]
      exact Nat.lt_succ_self _
    have hpast : Past r c'' := by
      induction hlater with
      | refl => exact hpast
      | tail _ hsection ih => exact ih.moves hsection.moves
    have hstale : c''.nodeEpoch ≠ (c''.runtimes r).generation := Nat.ne_of_gt hpast.2
    simp [validateCurrent, hstale]

/-- A runtime that was reserved, published and closed. -/
theorem one_transition_at_a_time_closed :
    ∃ c, Reachable c ∧ c.draining = some 1 ∧ c.nodeEpoch = 2 ∧
      c.validateCurrent 0 = some (.sentinel .runtimeStale) := by
  let reserved := (Controller.reserve 7 ⟨"", "", true⟩ { nodeEpoch := 1 }).2
  let published := (reserved.commit 0).2
  have hpublished : Reachable published := .tail (.tail .refl (.reserve 7 ⟨"", "", true⟩)) (.commit 0)
  have hclose : Section published (published.closeRound 7 false).2 := .close 7 false
  refine ⟨_, .tail hpublished hclose, rfl, rfl, ?_⟩
  exact ((one_transition_at_a_time hpublished).2.2 _ hclose).2 0 rfl rfl _ .refl

/-- A runtime is published out of the candidate slot only. One that has left both slots, because its start failed or it
was detached, is in neither again, whatever sections follow. -/
theorem departed_never_returns (h : Reachable c) :
    (∀ c' r, Section c c' → c.current ≠ some r → c'.current = some r → c.candidate = some r) ∧
      ∀ r < c.next, c.candidate ≠ some r → c.current ≠ some r →
        ∀ c', Relation.ReflTransGen Section c c' → c'.candidate ≠ some r ∧ c'.current ≠ some r := by
  have hex := exclusive_of_reachable h
  constructor
  · intro c' r hsection hnew hcurrent
    obtain ⟨b, hmove, -⟩ := hsection.moves.move
    rcases hmove.holds hex.one (.inr hcurrent) with ⟨-, hheld⟩ | ⟨-, -, hcandidate, -⟩
    · exact hheld.resolve_right hnew
    · have hone := hmove.atMostOne hex.one
      have hcurrent : c'.slots.current = some r := hcurrent
      simp only [Slots.AtMostOne, Slots.all, List.countP_cons, hcandidate, hcurrent, Option.isSome_some, if_true]
        at hone
      omega
  · intro r hr hcandidate hcurrent c' hlater
    suffices r < c'.next ∧ ¬ c'.slots.Holds r from not_or.mp this.2
    induction hlater with
    | refl => exact ⟨hr, not_or.mpr ⟨hcandidate, hcurrent⟩⟩
    | tail hrun hsection ih =>
      obtain ⟨b, hmove, -⟩ := hsection.moves.move
      refine ⟨Nat.lt_of_lt_of_le ih.1 hsection.moves.next, fun hheld => ?_⟩
      -- What is held now was held before, or has a number that was not given out.
      rcases hmove.holds (exclusive_of_reachable (h.trans hrun)).one hheld with ⟨-, hheld⟩ | ⟨rfl, -⟩
      · exact ih.2 hheld
      · exact Nat.lt_irrefl _ ih.1

/-- A runtime that was reserved and released. -/
theorem departed_never_returns_released : ∃ c, Reachable c ∧ c.candidate = none ∧
    ∀ c', Relation.ReflTransGen Section c c' → c'.candidate ≠ some 0 ∧ c'.current ≠ some 0 := by
  have hreleased : Reachable _ := .tail (.tail .refl (Section.reserve 7 ⟨"", "", true⟩)) (Section.release 0 none)
  exact ⟨_, hreleased, rfl, (departed_never_returns hreleased).2 0 (by decide) nofun nofun⟩

end Controller

end TailscaleDart.Runtime
