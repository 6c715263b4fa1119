import TailscaleDart.Publication.Bootstrap

/-!
# Publication.StatusStream — what the first-Up gate guarantees across every interleaving

The invariant of the bootstrap and its status stream (`Inv`), what every step of every thread
keeps (`Keeps`), and the theorem about whole runs, `bootstrap_safe`.

The one delicate clause is `Inv.settled`: while the handler owes no post and no start, the last
posted status is the last observed state UNLESS that state is a suppressed Running. A suppressed
Running is settled by the worker's synthetic post, in the same step that opens the gate; a state
observed while the worker completes is settled by the handler's own post, because the worker reads
`latestState` and stays silent. `Inv.started` is what orders the masked Starting before the
synthetic Running: a start that the handler has not spawned yet has no worker.
-/

namespace TailscaleDart.Publication.Bootstrap

open TailscaleDart.Conc

/-- The invariant of one runtime's bootstrap. -/
structure Inv (s : BootState) : Prop where
  masked : .running ∈ s.posted → s.b.phase = .ready
  once : s.issued + s.workers + s.upCalls ≤ 1
  fresh : s.b.phase = .preRunning → s.issued + s.workers + s.upCalls = 0
  started : 0 < s.issued → s.b.phase ≠ .ready
  latest : ∀ x, s.observed.getLast? = some x → s.b.latestState = x
  seen : s.b.phase = .running ∨ s.b.phase = .ready → s.observed ≠ []
  idle : s.handling = false → s.pending = none ∧ s.issued = 0
  owed : s.pending = some .running → s.b.phase = .ready
  failed : s.b.phase = .failed → s.b.resultErr ≠ none
  settled : s.current = true → s.pending = none → s.issued = 0 → s.observed ≠ [] →
    s.b.latestState ≠ .running ∨ s.b.phase = .ready → s.posted.getLast? = some s.b.latestState
  unwatched : s.watcher = none → s.handling = false

/-- What no step of thread `i` can undo, and what only the watcher thread may touch. -/
structure Keeps (i : Nat) (s s' : BootState) : Prop where
  ready : s.b.phase = .ready → s'.b.phase = .ready
  closed : s.b.phase = .closed → s'.b.phase = .closed
  current : s'.current = true → s.current = true
  up : s.upCalls ≤ s'.upCalls
  watcher : ∀ j, s.watcher = some j → s'.watcher = some j
  handler : s.watcher ≠ some i → s'.observed = s.observed ∧ s'.b.latestState = s.b.latestState ∧
    s'.pending = s.pending ∧ s'.issued = s.issued ∧ s'.handling = s.handling

/-- A returned nil of `awaitDataPlaneReady` and a reported Running are answers of phase Ready. -/
def Returned : BootCall → BootRet → BootState → Prop
  | .await, .err none, s => s.b.phase = .ready
  | .mask _, .state reported, s => reported = IpnState.running.string → s.b.phase = .ready
  | _, _, _ => True

def discipline : Discipline BootCall Unit BootState BootRet where
  inv := Inv
  guar := fun i _ _ s s' => Inv s' ∧ Keeps i s s'
  post := fun _ c r s => Returned c r s
  keeps := fun _ h => h.1

abbrev BootSafe {α : Type} (i : Nat) (c : BootCall) (post : α → BootState → Prop) (p : BootProg α)
    (s : BootState) : Prop :=
  Safe (discipline.contract (fun _ _ => True) i c) post p s

/-- It keeps the invariant, whatever it returns. -/
abbrev KeepsInv {α : Type} (i : Nat) (c : BootCall) (p : BootProg α) (s : BootState) : Prop :=
  BootSafe i c (fun _ s' => Inv s') p s

theorem initial_inv : Inv {} where
  masked := nofun
  once := Nat.zero_le _
  fresh := fun _ => rfl
  started := fun h => absurd h (Nat.lt_irrefl 0)
  latest := nofun
  seen := fun h => by rcases h with h | h <;> cases h
  idle := fun _ => ⟨rfl, rfl⟩
  owed := nofun
  failed := nofun
  settled := fun _ _ _ h => absurd rfl h
  unwatched := fun _ => rfl

/-! ## Assertions that survive the other threads -/

theorem stable_ready (i : Nat) : discipline.Stable i fun s => s.b.phase = .ready := by
  rintro s s' ⟨-, j, c, lbl, -, -, hkeeps⟩ hs
  exact hkeeps.ready hs

theorem stable_upCalls (i : Nat) : discipline.Stable i fun s => 0 < s.upCalls := by
  rintro s s' ⟨-, j, c, lbl, -, -, hkeeps⟩ hs
  exact Nat.lt_of_lt_of_le hs hkeeps.up

/-- What the watcher thread knows about its own progress. -/
structure Handler (i : Nat) (pending : Option IpnState) (issued : Nat) (handling : Bool)
    (latest : Option IpnState) (s : BootState) : Prop where
  inv : Inv s
  watcher : s.watcher = some i
  pending : s.pending = pending
  issued : s.issued = issued
  handling : s.handling = handling
  latest : ∀ state, latest = some state → s.b.latestState = state

theorem stable_handler (i : Nat) (pending : Option IpnState) (issued : Nat) (handling : Bool)
    (latest : Option IpnState) : discipline.Stable i (Handler i pending issued handling latest) := by
  rintro s s' ⟨-, j, c, lbl, hj, hinv, hkeeps⟩ hs
  have hother : s.watcher ≠ some j := by
    rw [hs.watcher]
    intro h
    exact hj (Option.some.inj h).symm
  obtain ⟨-, hlatest, hpending, hissued, hhandling⟩ := hkeeps.handler hother
  refine ⟨hinv, hkeeps.watcher i hs.watcher, ?_, ?_, ?_, ?_⟩
  · rw [hpending, hs.pending]
  · rw [hissued, hs.issued]
  · rw [hhandling, hs.handling]
  · intro state h
    rw [hlatest, hs.latest state h]

/-! ## Steps outside the watcher -/

variable {reapers : List Error} {b : PublicationBootstrap}

theorem Inv.lose {s : BootState} (h : Inv s) : Inv { s with current := false } :=
  { h with settled := nofun }

theorem Keeps.gate {i : Nat} {s : BootState} (hready : s.b.phase = .ready → b.phase = .ready)
    (hclosed : s.b.phase = .closed → b.phase = .closed) (hlatest : b.latestState = s.b.latestState) :
    Keeps i s { s with b := b, reapers := reapers } :=
  ⟨hready, hclosed, id, Nat.le_refl _, fun _ => id, fun _ => ⟨rfl, hlatest, rfl, rfl, rfl⟩⟩

/-- A step that leaves the gate's phase for one that is neither fresh, running nor ready. -/
theorem Inv.leave {i : Nat} {s : BootState} (h : Inv s) (hready : s.b.phase ≠ .ready)
    (hclosed : s.b.phase = .closed → b.phase = .closed) (hlatest : b.latestState = s.b.latestState)
    (hpre : b.phase ≠ .preRunning) (hrun : b.phase ≠ .running) (hnot : b.phase ≠ .ready) (herr : b.resultErr ≠ none) :
    Inv { s with b := b, reapers := reapers } ∧ Keeps i s { s with b := b, reapers := reapers } := by
  refine ⟨{ h with
    masked := fun hmem => absurd (h.masked hmem) hready
    fresh := fun hp => absurd hp hpre
    started := fun _ => hnot
    latest := fun x hx => hlatest.trans (h.latest x hx)
    seen := fun hp => absurd hp (not_or.mpr ⟨hrun, hnot⟩)
    owed := fun hp => absurd (h.owed hp) hready
    failed := fun _ => herr
    settled := ?_ }, .gate (fun h => absurd h hready) hclosed hlatest⟩
  intro hcur hpend hissued hobs hstate
  simp only [hlatest] at hstate ⊢
  rcases hstate with hstate | hstate
  · exact h.settled hcur hpend hissued hobs (.inl hstate)
  · exact absurd hstate hnot

theorem Keeps.refl (i : Nat) (s : BootState) : Keeps i s s :=
  ⟨id, id, id, Nat.le_refl _, fun _ => id, fun _ => ⟨rfl, rfl, rfl, rfl, rfl⟩⟩

theorem Keeps.lose (i : Nat) (s : BootState) : Keeps i s { s with current := false } :=
  ⟨id, id, nofun, Nat.le_refl _, fun _ => id, fun _ => ⟨rfl, rfl, rfl, rfl, rfl⟩⟩

variable {α : Type} {i : Nat} {c : BootCall} {s : BootState}

/-- A single step of a thread that knows the stable assertion `P`. -/
theorem bootSafe_step {f : BootEnv → BootState → Option (α × BootState)} (P : BootState → Prop)
    (hP : discipline.Stable i P) {post : α → BootState → Prop}
    (hpost : ∀ a, discipline.Stable i (post a)) (hs : P s)
    (h : ∀ s', P s' → ∀ e a s'', f e s' = some (a, s'') → (Inv s'' ∧ Keeps i s' s'') ∧ post a s'') :
    BootSafe i c post (.step () f) s := by
  refine .act_among P hP hs fun s' hs' _ e a s'' hf => ?_
  obtain ⟨howed, ha⟩ := h s' hs' e a s'' hf
  exact ⟨howed, .pure_among (hpost a) ha⟩

theorem bootSafe_inv {f : BootEnv → BootState → Option (α × BootState)} (hs : Inv s)
    (h : ∀ s', Inv s' → ∀ e a s'', f e s' = some (a, s'') → Inv s'' ∧ Keeps i s' s'') :
    KeepsInv i c (.step () f) s := by
  refine bootSafe_step Inv (Discipline.stable_inv i) (fun _ => Discipline.stable_inv i) hs ?_
  intro s' hs' e a s'' hf
  have howed := h s' hs' e a s'' hf
  exact ⟨howed, howed.1⟩

theorem failPublicationBootstrap_safe (cause : Error) (hs : Inv s) :
    KeepsInv i c (failPublicationBootstrap cause) s := by
  refine bootSafe_inv hs fun s' hs' e a s'' hf => ?_
  by_cases hphase : s'.b.phase = .preRunning ∨ s'.b.phase = .running
  · simp only [hphase, if_true, Option.some.injEq, Prod.mk.injEq] at hf
    obtain ⟨-, rfl⟩ := hf
    have hready : s'.b.phase ≠ .ready := by
      rcases hphase with h | h <;> rw [h] <;> decide
    have hclosed : s'.b.phase ≠ .closed := by
      rcases hphase with h | h <;> rw [h] <;> decide
    exact hs'.leave hready (fun h => absurd h hclosed) rfl (by simp) (by simp) (by simp) (by simp)
  · simp only [hphase, if_false, Option.some.injEq, Prod.mk.injEq] at hf
    obtain ⟨-, rfl⟩ := hf
    exact ⟨hs', .refl i s'⟩

theorem finishBootstrapFailure_safe (failure : Error) (hs : Inv s) :
    KeepsInv i c (finishBootstrapFailure failure) s := by
  refine bootSafe_inv hs fun s' hs' e a s'' hf => ?_
  by_cases hphase : s'.b.phase = .failing
  · simp only [hphase, if_true, Option.some.injEq, Prod.mk.injEq] at hf
    obtain ⟨-, rfl⟩ := hf
    have hready : s'.b.phase ≠ .ready := by rw [hphase]; decide
    have hclosed : s'.b.phase ≠ .closed := by rw [hphase]; decide
    exact hs'.leave hready (fun h => absurd h hclosed) rfl (by simp) (by simp) (by simp) (by simp)
  · simp only [hphase, if_false, Option.some.injEq, Prod.mk.injEq] at hf
    obtain ⟨-, rfl⟩ := hf
    exact ⟨hs', .refl i s'⟩

theorem closeGate_safe (preserveFailure : Bool) (hs : Inv s) :
    KeepsInv i c (closeGate preserveFailure) s := by
  refine bootSafe_inv hs fun s' hs' e a s'' hf => ?_
  cases hf
  by_cases hclose : (!preserveFailure && decide (s'.b.phase ≠ .ready)) = true
  · have hready : s'.b.phase ≠ .ready := by
      simpa using (Bool.and_eq_true_iff.mp hclose).2
    simp only [hclose, if_true]
    exact hs'.leave hready (fun _ => rfl) rfl (by simp) (by simp) (by simp) (by simp)
  · simp only [hclose, Bool.false_eq_true, if_false]
    exact ⟨{ hs' with }, .gate id id rfl⟩

theorem joinWorker_safe (hs : Inv s) : KeepsInv i c joinWorker s := by
  refine bootSafe_inv hs fun s' hs' e a s'' hf => ?_
  simp only [Option.ite_none_right_eq_some, Option.some.injEq, Prod.mk.injEq] at hf
  obtain ⟨-, -, rfl⟩ := hf
  exact ⟨hs', .refl i s'⟩

theorem shutdownBootstrap_safe (preserveFailure : Bool) (hs : Inv s) :
    KeepsInv i c (shutdownBootstrap preserveFailure) s := by
  refine .bind_among (closeGate_safe preserveFailure hs) fun done s1 hs1 => ?_
  cases done with
  | none => exact Safe.pure_among (Discipline.stable_inv i) hs1
  | some _ => exact joinWorker_safe hs1

theorem loseRun_safe (hs : Inv s) : KeepsInv i c loseRun s := by
  refine bootSafe_inv hs fun s' hs' e a s'' hf => ?_
  cases hf
  exact ⟨hs'.lose, .lose i s'⟩

theorem takeReaper_safe (hs : Inv s) : KeepsInv i c takeReaper s := by
  refine bootSafe_inv hs fun s' hs' e a s'' hf => ?_
  split at hf
  · cases hf
  · cases hf
    exact ⟨{ hs' with }, .gate id id rfl⟩

theorem detachRuntime_safe (hs : Inv s) : KeepsInv i c detachRuntime s := by
  refine bootSafe_inv hs fun s' hs' e a s'' hf => ?_
  cases hf
  cases e.detached with
  | true =>
    simp only [Bool.not_true, Bool.and_false]
    exact ⟨hs'.lose, .lose i s'⟩
  | false =>
    simp only [Bool.not_false, Bool.and_true]
    exact ⟨hs', .refl i s'⟩

theorem closeResources_safe (hs : Inv s) : KeepsInv i c closeResources s := by
  refine bootSafe_inv hs fun s' hs' e a s'' hf => ?_
  cases hf
  exact ⟨hs', .refl i s'⟩

theorem reapPublicationBootstrapFailure_safe (hs : Inv s) :
    KeepsInv i c reapPublicationBootstrapFailure s := by
  refine .bind_among (takeReaper_safe hs) fun failure s1 hs1 => ?_
  refine .bind_among (detachRuntime_safe hs1) fun detached s2 hs2 => ?_
  cases detached with
  | false => exact Safe.pure_among (Discipline.stable_inv i) hs2
  | true =>
    refine .bind_among (shutdownBootstrap_safe true hs2) fun _ s3 hs3 => ?_
    refine .bind_among (closeResources_safe hs3) fun closeErr s4 hs4 => ?_
    exact finishBootstrapFailure_safe _ hs4

/-! ## The Up worker -/

theorem stable_worker (i : Nat) : discipline.Stable i fun s => Inv s ∧ 0 < s.upCalls :=
  (Discipline.stable_inv i).and (stable_upCalls i)

theorem enterUp_safe (hs : Inv s) : BootSafe i c (fun _ s' => Inv s' ∧ 0 < s'.upCalls) enterUp s := by
  refine bootSafe_step Inv (Discipline.stable_inv i) (fun _ => stable_worker i) hs ?_
  intro s' hs' e a s'' hf
  simp only [Option.ite_none_right_eq_some, Option.some.injEq, Prod.mk.injEq] at hf
  obtain ⟨hworker, -, rfl⟩ := hf
  have honce := hs'.once
  have hinv : Inv { s' with workers := s'.workers - 1, upCalls := s'.upCalls + 1 } := by
    refine { hs' with once := ?_, fresh := fun hp => ?_ }
    · show s'.issued + (s'.workers - 1) + (s'.upCalls + 1) ≤ 1
      omega
    · have := hs'.fresh hp
      omega
  exact ⟨⟨hinv, id, id, id, Nat.le_succ _, fun _ => id, fun _ => ⟨rfl, rfl, rfl, rfl, rfl⟩⟩, hinv, Nat.succ_pos _⟩

theorem upReturns_safe (hs : Inv s ∧ 0 < s.upCalls) :
    BootSafe i c (fun _ s' => Inv s' ∧ 0 < s'.upCalls) upReturns s := by
  refine bootSafe_step _ (stable_worker i) (fun _ => stable_worker i) hs ?_
  intro s' hs' e a s'' hf
  cases hf
  exact ⟨⟨hs'.1, .refl i s'⟩, hs'⟩

/-- Opening the gate keeps the invariant: the worker has entered Up, so no start is waiting to be
spawned, and the synthetic Running settles exactly the state that was suppressed. -/
theorem Inv.publish (hs : Inv s) (hup : 0 < s.upCalls) (hphase : s.b.phase = .running) (hready : b.phase = .ready)
    (hlatest : b.latestState = s.b.latestState) : Inv { s with
      posted := if s.b.latestState = .running then s.posted ++ [.running] else s.posted
      b := b } := by
  have honce := hs.once
  refine ⟨fun _ => hready, hs.once, fun hp => ?_, fun hissued => ?_,
    fun x hx => hlatest.trans (hs.latest x hx), fun _ => hs.seen (.inl hphase), hs.idle,
    fun _ => hready, fun hp => ?_, ?_, hs.unwatched⟩
  · rw [hready] at hp
    cases hp
  · have : 0 < s.issued := hissued
    omega
  · rw [hready] at hp
    cases hp
  · intro hcur hpend hissued hobs _
    show List.getLast? (if s.b.latestState = .running then _ else _) = some b.latestState
    by_cases hrun : s.b.latestState = .running
    · rw [if_pos hrun, List.getLast?_concat, hlatest, hrun]
    · rw [if_neg hrun, hlatest]
      exact hs.settled hcur hpend hissued hobs (.inl hrun)

theorem publishBootstrapSuccess_safe (hs : Inv s ∧ 0 < s.upCalls) :
    KeepsInv i c publishBootstrapSuccess s := by
  refine bootSafe_step _ (stable_worker i) (fun _ => Discipline.stable_inv i) hs ?_
  intro s' hs' e a s'' hf
  by_cases hopen : (s'.current && decide (s'.b.phase = .running)) = true
  · have hphase : s'.b.phase = .running := by
      simpa using (Bool.and_eq_true_iff.mp hopen).2
    simp only [hopen, if_true, Option.some.injEq, Prod.mk.injEq] at hf
    obtain ⟨-, rfl⟩ := hf
    have hinv := hs'.1.publish hs'.2 hphase
      (b := { s'.b with phase := .ready, resultErr := none, cancel := none, resultClosed := true })
      rfl rfl
    refine ⟨⟨hinv, fun _ => rfl, fun h => ?_, id, Nat.le_refl _, fun _ => id, fun _ => ⟨rfl, rfl, rfl, rfl, rfl⟩⟩, hinv⟩
    rw [hphase] at h
    cases h
  · simp only [hopen, Bool.false_eq_true, if_false, Option.some.injEq, Prod.mk.injEq] at hf
    obtain ⟨-, rfl⟩ := hf
    exact ⟨⟨hs'.1, .refl i s'⟩, hs'.1⟩

theorem settleUp_safe (upErr : Option Error) (hs : Inv s ∧ 0 < s.upCalls) :
    KeepsInv i c (settleUp upErr) s := by
  cases upErr with
  | some err => exact failPublicationBootstrap_safe _ hs.1
  | none =>
    refine .bind_among (publishBootstrapSuccess_safe hs) fun opened s1 hs1 => ?_
    cases opened with
    | true => exact Safe.pure_among (Discipline.stable_inv i) hs1
    | false => exact failPublicationBootstrap_safe _ hs1

theorem closeDone_safe (hs : Inv s) : KeepsInv i c closeDone s := by
  refine bootSafe_inv hs fun s' hs' e a s'' hf => ?_
  cases hf
  exact ⟨{ hs' with }, .gate id id rfl⟩

theorem runPublicationBootstrap_safe (hs : Inv s) : KeepsInv i c runPublicationBootstrap s := by
  refine .bind_among (enterUp_safe hs) fun _ s1 hs1 => ?_
  refine .bind_among (upReturns_safe hs1) fun upErr s2 hs2 => ?_
  refine .bind_among (settleUp_safe upErr hs2) fun _ s3 hs3 => ?_
  exact closeDone_safe hs3

/-! ## The watcher -/

/-- Between two notifications: the handler has returned and owes nothing. -/
abbrev Idle (i : Nat) (s : BootState) : Prop := Handler i none 0 false none s

/-- The state in which `observeState` has recorded what it saw. -/
def BootState.observe (s : BootState) (state : IpnState) : BootState :=
  { s with b := { s.b with latestState := state }, observed := s.observed ++ [state], handling := true }

variable {state : IpnState}

theorem latest_concat {observed : List IpnState} : ∀ x, (observed ++ [state]).getLast? = some x → state = x := by
  intro x hx
  rw [List.getLast?_concat] at hx
  exact Option.some.inj hx

/-- The observed state is going to be posted: Running only when the gate is open. -/
theorem Inv.observe_post (hs : Inv s) (hw : s.watcher = some i) (hpost : state = .running → s.b.phase = .ready) :
    Inv { s.observe state with pending := some state } :=
  { hs with
    latest := latest_concat
    seen := fun _ => List.concat_ne_nil _ _
    idle := nofun
    owed := fun h => hpost (Option.some.inj h)
    settled := nofun
    unwatched := fun h => by cases hw.symm.trans h }

theorem Inv.observe_start (hs : Inv s) (hw : s.watcher = some i) (hphase : s.b.phase = .preRunning)
    (hrunning : b.phase = .running) (hlatest : b.latestState = .running) :
    Inv { s.observe .running with b := b, issued := s.issued + 1 } where
  masked := fun hmem => by
    have := hs.masked hmem
    rw [hphase] at this
    cases this
  once := by
    have := hs.fresh hphase
    show s.issued + 1 + s.workers + s.upCalls ≤ 1
    omega
  fresh := fun hp => by
    rw [hrunning] at hp
    cases hp
  started := fun _ hp => by
    rw [hrunning] at hp
    cases hp
  latest := fun x hx => hlatest.trans (latest_concat x hx)
  seen := fun _ => List.concat_ne_nil _ _
  idle := nofun
  owed := fun hp => by
    have := hs.owed hp
    rw [hphase] at this
    cases this
  failed := fun hp => by
    rw [hrunning] at hp
    cases hp
  settled := fun _ _ h => absurd h (Nat.succ_ne_zero _)
  unwatched := fun h => by cases hw.symm.trans h

theorem Inv.observe_suppress (hs : Inv s) (hw : s.watcher = some i) (hready : s.b.phase ≠ .ready) :
    Inv (s.observe .running) :=
  { hs with
    latest := latest_concat
    seen := fun _ => List.concat_ne_nil _ _
    idle := nofun
    settled := fun _ _ _ _ h => by
      rcases h with h | h
      · exact absurd rfl h
      · exact absurd h hready
    unwatched := fun h => by cases hw.symm.trans h }

/-- The watcher's own steps keep what nobody may undo. -/
theorem Keeps.own {s s' : BootState} (hwatcher : s.watcher = some i) (hready : s.b.phase = .ready → s'.b.phase = .ready)
    (hclosed : s.b.phase = .closed → s'.b.phase = .closed) (hcur : s'.current = s.current)
    (hup : s'.upCalls = s.upCalls) (hsame : s'.watcher = s.watcher) : Keeps i s s' where
  ready := hready
  closed := hclosed
  current := fun h => hcur ▸ h
  up := Nat.le_of_eq hup.symm
  watcher := fun _ h => hsame.trans h
  handler := fun h => absurd hwatcher h

/-- What the handler knows after observing `state`: it owes the post of an unsuppressed state, and
the spawn of a start. -/
theorem observeState_safe (state : IpnState) (hs : Idle i s) :
    BootSafe i c (fun r s' => (r.2.isSome → r.1 = true ∧ state = .running) ∧
      Handler i (if r.1 then none else some state) (if r.2.isSome then 1 else 0) true (some state) s')
      (observeState state) s := by
  refine bootSafe_step _ (stable_handler i _ _ _ _)
    (fun _ => (Discipline.stable_const i _).and (stable_handler i _ _ _ _)) hs ?_
  intro s' hs' e a s'' hf
  have hw := hs'.watcher
  by_cases hstate : state = .running
  · subst hstate
    simp only [ne_eq, not_true_eq_false, if_false] at hf
    split at hf
    next hphase =>
      cases hf
      have hinv : Inv { s'.observe .running with pending := some .running } :=
        hs'.inv.observe_post hw fun _ => hphase
      exact ⟨⟨hinv, .own hw id id rfl rfl rfl⟩, nofun, hinv, hw, rfl, hs'.issued, rfl, by simp⟩
    next hphase =>
      cases hf
      have hphase' : s'.b.phase = .preRunning := hphase
      have hinv := hs'.inv.observe_start hw hphase'
        (b := { s'.b with latestState := .running, phase := .running, cancel := some false,
                          workerDone := some false }) rfl rfl
      have hissued : s'.issued + 1 = 1 := by rw [hs'.issued]
      refine ⟨⟨hinv, .own hw (fun h => ?_) (fun h => ?_) rfl rfl rfl⟩, fun _ => ⟨rfl, rfl⟩, hinv,
        hw, hs'.pending, hissued, rfl, by simp⟩
      · rw [hphase'] at h
        cases h
      · rw [hphase'] at h
        cases h
    next hnotReady hnotFresh =>
      cases hf
      have hinv : Inv (s'.observe .running) := hs'.inv.observe_suppress hw hnotReady
      exact ⟨⟨hinv, .own hw id id rfl rfl rfl⟩, nofun, hinv, hw, hs'.pending, hs'.issued, rfl, by simp⟩
  · simp only [ne_eq, hstate, not_false_eq_true, if_true, Option.some.injEq, Prod.mk.injEq] at hf
    obtain ⟨rfl, rfl⟩ := hf
    have hinv : Inv { s'.observe state with pending := some state } :=
      hs'.inv.observe_post hw fun h => absurd h hstate
    exact ⟨⟨hinv, .own hw id id rfl rfl rfl⟩, nofun, hinv, hw, rfl, hs'.issued, rfl, by simp⟩

/-- A post keeps the invariant when Running is only posted through an open gate and the post
either settles the observed state or precedes the spawn of a start. -/
theorem Inv.post (hs : Inv s) (hmask : state = .running → s.b.phase = .ready)
    (hsettles : 0 < s.issued ∨ s.b.latestState = state) : Inv (s.post state) := by
  refine { hs with masked := fun hmem => ?_, idle := fun hidle => ?_, owed := fun hp => ?_, settled := ?_ }
  · simp only [BootState.post] at hmem
    split at hmem
    · rcases List.mem_append.mp hmem with hmem | hmem
      · exact hs.masked hmem
      · exact hmask (List.mem_singleton.mp hmem).symm
    · exact hs.masked hmem
  · obtain ⟨hpend, hissued⟩ := hs.idle hidle
    simp only [BootState.post, hpend, reduceCtorEq, if_false, true_and]
    exact hissued
  · simp only [BootState.post] at hp
    split at hp
    · cases hp
    · exact hs.owed hp
  · intro hcur _ hissued _ _
    have hcur' : s.current = true := hcur
    have hissued' : s.issued = 0 := hissued
    have hlatest : s.b.latestState = state := by
      rcases hsettles with h | h
      · omega
      · exact h
    show List.getLast? (if s.current then s.posted ++ [state] else s.posted) = some s.b.latestState
    rw [if_pos hcur', List.getLast?_concat, hlatest]

/-- The masked Starting of a start, and the spawn of its worker after it. -/
theorem startBootstrap_safe (start : Option Start) {pending : Option IpnState}
    (hstart : start.isSome → pending = none ∧ state = .running)
    (hs : Handler i pending (if start.isSome then 1 else 0) true (some state) s) :
    BootSafe i c (fun _ s' => Handler i pending 0 true (some state) s') (startBootstrap start) s := by
  cases start with
  | none => exact .pure_among (stable_handler i _ _ _ _) hs
  | some start =>
  obtain ⟨rfl, rfl⟩ := hstart rfl
  have hpost : BootSafe i c (fun _ s' => Handler i none 1 true (some .running) s')
      (postWatcherMessage .starting) s := by
    refine bootSafe_step _ (stable_handler i none 1 true (some .running))
      (fun _ => stable_handler i _ _ _ _) hs ?_
    intro s' hs' e a s'' hf
    cases hf
    have hissued : 0 < s'.issued := by rw [hs'.issued]; exact Nat.one_pos
    have hinv : Inv (s'.post .starting) := hs'.inv.post (nofun) (.inl hissued)
    refine ⟨⟨hinv, .own hs'.watcher id id rfl rfl rfl⟩, { hs' with inv := hinv, pending := ?_ }⟩
    simp only [BootState.post, hs'.pending, reduceCtorEq, if_false]
  refine .bind_among hpost fun _ s1 hs1 => ?_
  refine bootSafe_step _ (stable_handler i none 1 true (some .running))
    (fun _ => stable_handler i _ _ _ _) hs1 ?_
  intro s' hs' e a s'' hf
  cases hf
  have hissued := hs'.issued
  have honce := hs'.inv.once
  have hnotReady := hs'.inv.started (by omega)
  have hinv : Inv { s' with issued := s'.issued - 1, workers := s'.workers + 1 } := by
    refine { hs'.inv with
      once := ?_, fresh := fun hp => ?_, started := fun _ => hnotReady, idle := fun h => ?_, settled := ?_ }
    · show s'.issued - 1 + (s'.workers + 1) + s'.upCalls ≤ 1
      omega
    · have := hs'.inv.fresh hp
      omega
    · have hhandling : s'.handling = false := h
      rw [hs'.handling] at hhandling
      cases hhandling
    · intro _ _ _ _ h
      rcases h with h | h
      · exact absurd (hs'.latest _ rfl) h
      · exact absurd h hnotReady
  refine ⟨⟨hinv, .own hs'.watcher id id rfl rfl rfl⟩, { hs' with inv := hinv, issued := ?_ }⟩
  show s'.issued - 1 = 0
  omega

theorem postObserved_safe (suppress : Bool)
    (hs : Handler i (if suppress then none else some state) 0 true (some state) s) :
    BootSafe i c (fun _ s' => Handler i none 0 true (some state) s') (postObserved suppress state) s := by
  cases suppress with
  | true => exact .pure_among (stable_handler i _ _ _ _) hs
  | false =>
    refine bootSafe_step _ (stable_handler i (some state) 0 true (some state))
      (fun _ => stable_handler i _ _ _ _) hs ?_
    intro s' hs' e a s'' hf
    cases hf
    have hinv : Inv (s'.post state) := by
      refine hs'.inv.post (fun h => ?_) (.inr (hs'.latest _ rfl))
      subst h
      exact hs'.inv.owed hs'.pending
    refine ⟨⟨hinv, .own hs'.watcher id id rfl rfl rfl⟩, { hs' with inv := hinv, pending := ?_ }⟩
    simp only [BootState.post, hs'.pending, if_true]

theorem handled_safe {state : Option IpnState} (hs : Handler i none 0 true state s) :
    BootSafe i c (fun _ s' => Idle i s') handled s := by
  refine bootSafe_step _ (stable_handler i none 0 true state) (fun _ => stable_handler i _ _ _ _) hs ?_
  intro s' hs' e a s'' hf
  cases hf
  have hinv : Inv { s' with handling := false } :=
    { hs'.inv with idle := fun _ => ⟨hs'.pending, hs'.issued⟩, unwatched := fun _ => rfl }
  exact ⟨⟨hinv, .own hs'.watcher id id rfl rfl rfl⟩, { hs' with inv := hinv, handling := rfl, latest := nofun }⟩

theorem handleWatcherState_safe (state : IpnState) (hs : Idle i s) :
    BootSafe i c (fun _ s' => Idle i s') (handleWatcherState state) s := by
  refine .bind_among (observeState_safe state hs) ?_
  rintro ⟨suppress, start⟩ s1 ⟨hstart, hs1⟩
  have hspawn : start.isSome → (if suppress then none else some state) = none ∧ state = .running := by
    intro h
    obtain ⟨hsup, hstate⟩ := hstart h
    exact ⟨if_pos hsup, hstate⟩
  refine .bind_among (startBootstrap_safe start hspawn hs1) fun _ s2 hs2 => ?_
  refine .bind_among (postObserved_safe suppress hs2) fun _ s3 hs3 => ?_
  exact handled_safe hs3

theorem watcherError_safe (hs : Inv s) : KeepsInv i c watcherError s := by
  refine bootSafe_inv hs fun s' hs' e a s'' hf => ?_
  split at hf
  · cases hf
    exact ⟨hs'.lose, .lose i s'⟩
  · cases hf
    exact ⟨hs', .refl i s'⟩

theorem watcherExit_safe (hs : Inv s) : KeepsInv i c watcherExit s := by
  refine .bind_among (watcherError_safe hs) fun preReady s1 hs1 => ?_
  cases preReady with
  | true => exact .bind_among (failPublicationBootstrap_safe _ hs1) fun _ _ hs2 => loseRun_safe hs2
  | false => exact loseRun_safe hs1

/-- The loop, by induction on the states the bus delivers. -/
theorem watchLoop_safe : ∀ (states : List IpnState) {s : BootState}, Idle i s →
    KeepsInv i c (watchLoop states) s
  | [], _, hs => watcherExit_safe hs.inv
  | state :: states, _, hs =>
    Safe.bind_among (handleWatcherState_safe state hs) fun _ _ hs1 => watchLoop_safe states hs1

theorem watchRun_safe (states : List IpnState) (hs : Inv s) :
    KeepsInv i c (watchRun i states) s := by
  have henter : BootSafe i c (fun _ s' => Idle i s') (enterWatch i) s := by
    refine bootSafe_step Inv (Discipline.stable_inv i) (fun _ => stable_handler i _ _ _ _) hs ?_
    intro s' hs' e a s'' hf
    simp only [Option.ite_none_right_eq_some, Option.some.injEq, Prod.mk.injEq] at hf
    obtain ⟨hnone, -, rfl⟩ := hf
    have hidle := hs'.unwatched hnone
    have hinv : Inv { s' with watcher := some i } := { hs' with unwatched := nofun }
    refine ⟨⟨hinv, id, id, id, Nat.le_refl _, fun j hj => ?_, fun _ => ⟨rfl, rfl, rfl, rfl, rfl⟩⟩,
      hinv, rfl, (hs'.idle hidle).1, (hs'.idle hidle).2, hidle, nofun⟩
    rw [hnone] at hj
    cases hj
  exact .bind_among henter fun _ _ hs1 => watchLoop_safe states hs1

/-! ## The readers -/

theorem readPhase_safe (hs : Inv s) : BootSafe i c (fun answer s' => Inv s' ∧
    (answer = some none → s'.b.phase = .ready)) readPhase s := by
  have hstable : ∀ answer : Option (Option Error), discipline.Stable i fun s => Inv s ∧
      (answer = some none → s.b.phase = .ready) := by
    rintro answer s1 s2 ⟨-, j, c', lbl, -, hinv, hkeeps⟩ ⟨-, h⟩
    exact ⟨hinv, fun hnil => hkeeps.ready (h hnil)⟩
  refine bootSafe_step Inv (Discipline.stable_inv i) hstable hs ?_
  intro s' hs' e a s'' hf
  cases hf
  refine ⟨⟨hs', .refl i s'⟩, hs', fun hnil => ?_⟩
  cases hphase : s'.b.phase with
  | ready => rfl
  | failed =>
    rw [hphase] at hnil
    exact absurd (Option.some.inj hnil) (hs'.failed hphase)
  | preRunning | running | failing | closed =>
    rw [hphase] at hnil
    cases hnil

theorem awaitResult_safe (hs : Inv s) : KeepsInv i c awaitResult s := by
  refine bootSafe_inv hs fun s' hs' e a s'' hf => ?_
  split at hf
  · cases hf
    exact ⟨hs', .refl i s'⟩
  · simp only [Option.ite_none_right_eq_some, Option.some.injEq, Prod.mk.injEq] at hf
    obtain ⟨-, -, rfl⟩ := hf
    exact ⟨hs', .refl i s'⟩

theorem stable_nil_ready (i : Nat) (answer : Option Error) :
    discipline.Stable i fun s => answer = none → s.b.phase = .ready := by
  rintro s1 s2 ⟨-, j, c', lbl, -, hinv, hkeeps⟩ h
  exact fun hnil => hkeeps.ready (h hnil)

theorem readResult_safe (hs : Inv s) : BootSafe i c (fun err s' => err = none → s'.b.phase = .ready) readResult s := by
  refine bootSafe_step Inv (Discipline.stable_inv i) (stable_nil_ready i) hs ?_
  intro s' hs' e a s'' hf
  cases hf
  refine ⟨⟨hs', .refl i s'⟩, fun hnil => ?_⟩
  refine Decidable.byContradiction fun hphase => ?_
  rw [if_neg hphase] at hnil
  cases hnil

theorem awaitDataPlaneReady_safe (hs : Inv s) :
    BootSafe i c (fun err s' => err = none → s'.b.phase = .ready) awaitDataPlaneReady s := by
  refine .bind_among (readPhase_safe hs) fun answer s1 hs1 => ?_
  cases answer with
  | some err =>
    refine .pure_among (stable_nil_ready i err) fun hnil => hs1.2 ?_
    rw [hnil]
  | none =>
  refine .bind_among (awaitResult_safe hs1.1) fun ctxErr s2 hs2 => ?_
  cases ctxErr with
  | some err => exact .pure_among (stable_nil_ready i (some err)) nofun
  | none => exact readResult_safe hs2

theorem maskRunningState_safe (state : String) (hs : Inv s) :
    BootSafe i c (fun reported s' => reported = IpnState.running.string → s'.b.phase = .ready)
      (maskRunningState state) s := by
  have hstable : ∀ reported : String, discipline.Stable i fun s =>
      reported = IpnState.running.string → s.b.phase = .ready := by
    rintro reported s1 s2 ⟨-, j, c', lbl, -, hinv, hkeeps⟩ h
    exact fun hrun => hkeeps.ready (h hrun)
  refine bootSafe_step Inv (Discipline.stable_inv i) hstable hs ?_
  intro s' hs' e a s'' hf
  cases hf
  refine ⟨⟨hs', .refl i s'⟩, fun hrun => ?_⟩
  refine Decidable.byContradiction fun hphase => ?_
  by_cases hstate : state = IpnState.running.string
  · rw [if_pos ⟨hstate, hphase⟩] at hrun
    exact absurd hrun (by decide)
  · rw [if_neg (fun h => hstate h.1)] at hrun
    exact hstate hrun

theorem beginInitiatingUp_safe (deadline : Option Nat) (hs : Inv s) :
    KeepsInv i c (beginInitiatingUp deadline) s := by
  refine bootSafe_inv hs fun s' hs' e a s'' hf => ?_
  split at hf
  · cases hf
    exact ⟨hs', .refl i s'⟩
  · cases hf
    exact ⟨{ hs' with }, .gate id id rfl⟩

theorem markInitiatingUpSettled_safe (hs : Inv s) : KeepsInv i c markInitiatingUpSettled s := by
  refine bootSafe_inv hs fun s' hs' e a s'' hf => ?_
  cases hf
  exact ⟨{ hs' with }, .gate id id rfl⟩

/-! ## Every interleaving -/

theorem returnsUnit_safe {p : BootProg Unit} (h : KeepsInv i c p s)
    (hc : ∀ s', Returned c .unit s') : BootSafe i c (discipline.post i c) (p.bind fun _ => .pure .unit) s :=
  Safe.bind_among h fun _ s' _ => .pure_among (fun _ s2 _ _ => hc s2) (hc s')

theorem body_respects : discipline.Respects (fun _ _ => True) body := by
  intro i c s hs
  cases c with
  | watch states => exact returnsUnit_safe (watchRun_safe states hs) fun _ => trivial
  | bootstrap => exact returnsUnit_safe (runPublicationBootstrap_safe hs) fun _ => trivial
  | reap => exact returnsUnit_safe (reapPublicationBootstrapFailure_safe hs) fun _ => trivial
  | fail cause => exact returnsUnit_safe (failPublicationBootstrap_safe cause hs) fun _ => trivial
  | shutdown preserve => exact returnsUnit_safe (shutdownBootstrap_safe preserve hs) fun _ => trivial
  | lose => exact returnsUnit_safe (loseRun_safe hs) fun _ => trivial
  | beginInitiatingUp d => exact returnsUnit_safe (beginInitiatingUp_safe d hs) fun _ => trivial
  | markInitiatingUpSettled => exact returnsUnit_safe (markInitiatingUpSettled_safe hs) fun _ => trivial
  | await =>
    refine .bind_among (awaitDataPlaneReady_safe hs) fun err s1 hs1 => ?_
    cases err with
    | none => exact .pure_among (stable_ready i) (hs1 rfl)
    | some err => exact Safe.pure_among (Discipline.stable_const i True) trivial
  | mask state =>
    refine .bind_among (maskRunningState_safe state hs) fun reported s1 hs1 => ?_
    refine .pure_among ?_ hs1
    rintro s2 s3 ⟨-, j, c', lbl, -, -, hkeeps⟩ h
    exact fun hrun => hkeeps.ready (h hrun)

abbrev BootPool := Pool BootCall Unit BootState BootEnv BootRet

/-- What a state of a run guarantees about the first-Up gate and the status stream. -/
structure Guarantee (p : BootPool) : Prop where
  upOnce : p.shared.upCalls ≤ 1
  postedMasked : .running ∈ p.shared.posted → p.shared.b.phase = .ready
  reportedMasked : ∀ i state, p.Returned i (.mask state) (.state IpnState.running.string) → p.shared.b.phase = .ready
  readyForever : ∀ ev q, Pool.Step body p ev q → p.shared.b.phase = .ready → q.shared.b.phase = .ready
  closedForever : ∀ ev q, Pool.Step body p ev q → p.shared.b.phase = .closed → q.shared.b.phase = .closed
  awaited : ∀ i, p.Returned i .await (.err none) → p.shared.b.phase = .ready
  lastPosted : p.shared.b.phase = .ready → p.shared.current = true → p.shared.handling = false →
    ∃ state, p.shared.observed.getLast? = some state ∧ p.shared.posted.getLast? = some state

/-- **The first-Up gate.** In every state of every run, over any sequence of observed states and
any interleaving of the watcher with the Up worker, failures, shutdowns and readers. -/
theorem bootstrap_safe (p : BootPool) (h : Pool.Reachable body (fun _ _ => True) {} p) :
    Guarantee p := by
  obtain ⟨hinv, hreturned, howed⟩ := Discipline.sound body_respects initial_inv h
  have hkeeps : ∀ ev q, Pool.Step body p ev q → (p.shared.b.phase = .ready → q.shared.b.phase = .ready) ∧
      (p.shared.b.phase = .closed → q.shared.b.phase = .closed) := by
    intro ev q hstep
    have hev : ev.meets (fun _ _ => True) p.shared := by
      cases ev <;> trivial
    have hstep' := howed ev q hev hstep
    cases ev with
    | start c =>
      have hsame : q.shared = p.shared := hstep'
      rw [hsame]
      exact ⟨id, id⟩
    | step i c lbl => exact ⟨hstep'.2.ready, hstep'.2.closed⟩
  refine ⟨?_, hinv.masked, ?_, fun ev q hs => (hkeeps ev q hs).1, fun ev q hs => (hkeeps ev q hs).2, ?_, ?_⟩
  · have := hinv.once
    omega
  · intro i state hi
    exact hreturned i _ _ hi rfl
  · intro i hi
    exact hreturned i _ _ hi
  · intro hready hcur hidle
    obtain ⟨hpend, hissued⟩ := hinv.idle hidle
    have hobs := hinv.seen (.inr hready)
    have hlast := List.getLast?_eq_some_getLast hobs
    refine ⟨_, hlast, ?_⟩
    rw [← hinv.latest _ hlast]
    exact hinv.settled hcur hpend hissued hobs (.inr hready)

/-- A bus that delivers Running, a successful Up, and a later Stopped. -/
def firstUp : List (Pool.Choice BootCall BootEnv) :=
  [.start (.watch [.running, .stopped]), .step 0 {}, .step 0 {}, .step 0 {}, .step 0 {},
    .start .bootstrap, .step 1 {}, .step 0 {}, .step 1 {}, .step 1 {},
    .step 0 {}, .step 0 {}, .step 0 {}]

theorem bootstrap_safe_firstUp : ∃ p : BootPool, Pool.follow body (fun _ _ => true) firstUp ⟨{}, []⟩ = some p ∧
    p.shared.posted = [.starting, .running, .stopped] ∧ p.shared.b.phase = .ready ∧ Guarantee p := by
  refine ⟨_, rfl, rfl, rfl, ?_⟩
  exact bootstrap_safe _ (.follow (fun _ _ _ => trivial) .init
    (show Pool.follow body (fun _ _ => true) firstUp ⟨{}, []⟩ = some _ from rfl))

end TailscaleDart.Publication.Bootstrap
