import TailscaleDart.Conc.Prog

/-!
# Thread pools — what holds across every interleaving

A pool is a shared state and a list of threads. A thread remembers the CALL it is
running and the rest of its program; its place in the list is its identity. At any
time a new call may be started or one thread may take one step.

`Discipline` is the rely-guarantee bookkeeping for one family of calls: an invariant of
the shared state, and what each step of each thread owes. What a thread may ASSUME about
the others is not a separate parameter: it is any finite sequence of the others' owed
steps (`Discipline.rely`), so the compatibility of assumptions and guarantees holds by
construction. `Discipline.sound` is the one theorem: when every call's program is
`Safe`, then in every run every step satisfies what its thread owes, and the invariant
holds in every state reached.

A condition on runs (`ok`, on the state before a labelled step) is threaded through, for
results about the runs whose steps all meet it.
-/

namespace TailscaleDart.Conc

/-- A running call: what was called, and what is left of it. -/
structure Thread (Call Lbl St Env Ret : Type) : Type 1 where
  call : Call
  rest : Prog Lbl St Env Ret

/-- A shared state and the threads started so far; a thread's index is its identity. -/
structure Pool (Call Lbl St Env Ret : Type) : Type 1 where
  shared : St
  threads : List (Thread Call Lbl St Env Ret)

variable {Call Lbl St Env Ret : Type}

namespace Pool

/-- What one step of a pool was: a call was started, or thread `i`, running `call`,
took the step labelled `lbl`. -/
inductive Event (Call Lbl : Type) where
  | start (call : Call)
  | step (i : Nat) (call : Call) (lbl : Lbl)

/-- One step of a pool. `body i c` is the program of call `c` run as thread `i`. -/
inductive Step (body : Nat → Call → Prog Lbl St Env Ret) :
    Pool Call Lbl St Env Ret → Event Call Lbl → Pool Call Lbl St Env Ret → Prop
  | start (p : Pool Call Lbl St Env Ret) (c : Call) :
      Step body p (.start c) ⟨p.shared, p.threads ++ [⟨c, body p.threads.length c⟩]⟩
  | step {p : Pool Call Lbl St Env Ret} {i : Nat} {c : Call} {β : Type} {lbl : Lbl}
      {f : Env → St → Option (β × St)} {k : β → Prog Lbl St Env Ret} {b : β} {s' : St} (e : Env)
      (hi : p.threads[i]? = some ⟨c, .act lbl f k⟩) (hf : f e p.shared = some (b, s')) :
      Step body p (.step i c lbl) ⟨s', p.threads.set i ⟨c, k b⟩⟩

/-- The condition an event of a run has to meet in the state before it. -/
def Event.meets (ok : Lbl → St → Prop) (s : St) : Event Call Lbl → Prop
  | .start _ => True
  | .step _ _ lbl => ok lbl s

/-- The pools reachable from an empty pool over `s0` by steps that all meet `ok`. -/
inductive Reachable (body : Nat → Call → Prog Lbl St Env Ret) (ok : Lbl → St → Prop)
    (s0 : St) : Pool Call Lbl St Env Ret → Prop
  | init : Reachable body ok s0 ⟨s0, []⟩
  | next {p q : Pool Call Lbl St Env Ret} {ev : Event Call Lbl} :
      Reachable body ok s0 p → ev.meets ok p.shared → Step body p ev q → Reachable body ok s0 q

/-- Thread `i`, running `c`, has returned `a`. -/
def Returned (p : Pool Call Lbl St Env Ret) (i : Nat) (c : Call) (a : Ret) : Prop :=
  p.threads[i]? = some ⟨c, .pure a⟩

/-- One decision of a scheduler: start a call, or let thread `i` take its next step with the
answer `e`. -/
inductive Choice (Call Env : Type) where
  | start (call : Call)
  | step (i : Nat) (e : Env)

/-- Follow a schedule. `none`: a thread that was scheduled was finished, was blocked, or its
step did not pass `check`. -/
def follow (body : Nat → Call → Prog Lbl St Env Ret) (check : Lbl → St → Bool) :
    List (Choice Call Env) → Pool Call Lbl St Env Ret → Option (Pool Call Lbl St Env Ret)
  | [], p => some p
  | .start c :: rest, p =>
    follow body check rest ⟨p.shared, p.threads ++ [⟨c, body p.threads.length c⟩]⟩
  | .step i e :: rest, p =>
    match p.threads[i]? with
    | some ⟨c, .act lbl f k⟩ =>
      if check lbl p.shared then
        match f e p.shared with
        | some (b, s') => follow body check rest ⟨s', p.threads.set i ⟨c, k b⟩⟩
        | none => none
      else none
    | _ => none

/-- A schedule that can be followed leads to a reachable pool. -/
theorem Reachable.follow {body : Nat → Call → Prog Lbl St Env Ret} {ok : Lbl → St → Prop}
    {check : Lbl → St → Bool} (hcheck : ∀ lbl s, check lbl s = true → ok lbl s) {s0 : St} :
    ∀ {schedule : List (Choice Call Env)} {p q : Pool Call Lbl St Env Ret},
      Reachable body ok s0 p → follow body check schedule p = some q → Reachable body ok s0 q
  | [], _, _, hp, h => by
    obtain rfl := Option.some.inj h
    exact hp
  | .start c :: _, p, _, hp, h => by
    have hmeets : (.start c : Event Call Lbl).meets ok p.shared := trivial
    exact .follow hcheck (hp.next hmeets (.start p c)) h
  | .step i e :: _, p, q, hp, h => by
    simp only [Pool.follow] at h
    split at h
    next c β lbl f k hi =>
      split at h
      next hok =>
        split at h
        next b s' hf =>
          have hmeets : (Event.step i c lbl).meets ok p.shared := hcheck _ _ hok
          exact .follow hcheck (hp.next hmeets (.step e hi hf)) h
        next => cases h
      next => cases h
    next => cases h

end Pool

/-! ## Disciplines -/

/-- The bookkeeping of a family of calls: an invariant, what the step labelled `lbl` of
thread `i` running `call` owes, and what holds of the value a call has returned. -/
structure Discipline (Call Lbl St Ret : Type) where
  inv : St → Prop
  guar : Nat → Call → Lbl → St → St → Prop
  post : Nat → Call → Ret → St → Prop
  /-- The invariant is kept by every owed step. -/
  keeps : ∀ {i c lbl s s'}, inv s → guar i c lbl s s' → inv s'

namespace Discipline

variable (D : Discipline Call Lbl St Ret)

/-- One owed step of a thread other than `i`, from a state in which the invariant holds. -/
def Other (i : Nat) (s s' : St) : Prop :=
  D.inv s ∧ ∃ j c lbl, j ≠ i ∧ D.guar j c lbl s s'

/-- What thread `i` may see between two of its own steps. -/
def rely (i : Nat) : St → St → Prop := Relation.ReflTransGen (D.Other i)

/-- The contract of thread `i` running `c`. -/
def contract (ok : Lbl → St → Prop) (i : Nat) (c : Call) : Contract Lbl St where
  rely := D.rely i
  ok := ok
  guar := D.guar i c

/-- An assertion of thread `i` that no other thread's owed step can falsify. -/
def Stable (i : Nat) (P : St → Prop) : Prop :=
  ∀ s s', D.Other i s s' → P s → P s'

variable {D} {s : St}

theorem Stable.rely {i : Nat} {P : St → Prop} (hP : D.Stable i P) {s' : St} (h : D.rely i s s') (hs : P s) : P s' := by
  induction h with
  | refl => exact hs
  | tail _ hstep ih => exact hP _ _ hstep ih

theorem Stable.and {i : Nat} {P Q : St → Prop} (hP : D.Stable i P) (hQ : D.Stable i Q) :
    D.Stable i fun s => P s ∧ Q s :=
  fun s s' h hs => ⟨hP s s' h hs.1, hQ s s' h hs.2⟩

theorem stable_const (i : Nat) (p : Prop) : D.Stable i fun _ => p := fun _ _ _ hp => hp

theorem stable_inv (i : Nat) : D.Stable i D.inv := by
  rintro s s' ⟨hinv, j, c, lbl, -, hg⟩ -
  exact D.keeps hinv hg

end Discipline

section Among

variable {D : Discipline Call Lbl St Ret} {s : St} {α : Type} {ok : Lbl → St → Prop} {i : Nat} {c : Call}
  {post : α → St → Prop}

/-- One step of a thread that knows the stable assertion `P`. -/
theorem Safe.act_among {β : Type} {lbl : Lbl} {f : Env → St → Option (β × St)}
    {k : β → Prog Lbl St Env α} (P : St → Prop) (hP : D.Stable i P) (hs : P s)
    (h : ∀ s', P s' → ok lbl s' → ∀ e b s'', f e s' = some (b, s'') →
      D.guar i c lbl s' s'' ∧ Safe (D.contract ok i c) post (k b) s'') :
    Safe (D.contract ok i c) post (.act lbl f k) s := by
  rw [safe_act_iff]
  intro s' hrely hok e b s'' hf
  exact h s' (hP.rely hrely hs) hok e b s'' hf

theorem Safe.pure_among {a : α} (hP : D.Stable i (post a))
    (hs : post a s) : Safe (D.contract ok i c) post (.pure a : Prog Lbl St Env α) s := by
  rw [safe_pure_iff]
  intro s' hrely
  exact hP.rely hrely hs

theorem Safe.bind_among {β : Type} {post' : β → St → Prop} {p : Prog Lbl St Env α} {g : α → Prog Lbl St Env β}
    (h : Safe (D.contract ok i c) post p s) (hg : ∀ a s', post a s' → Safe (D.contract ok i c) post' (g a) s') :
    Safe (D.contract ok i c) post' (p.bind g) s :=
  .bind (fun _ => Relation.ReflTransGen.refl) h hg

end Among

/-! ## Soundness -/

namespace Discipline

variable {D : Discipline Call Lbl St Ret} {ok : Lbl → St → Prop}

/-- Every thread of the pool is safe where it stands. -/
def Good (D : Discipline Call Lbl St Ret) (ok : Lbl → St → Prop) (p : Pool Call Lbl St Env Ret) : Prop :=
  D.inv p.shared ∧ ∀ i t, p.threads[i]? = some t → Safe (D.contract ok i t.call) (D.post i t.call) t.rest p.shared

/-- What an event of a pool owes. -/
def Owed (D : Discipline Call Lbl St Ret) : Pool.Event Call Lbl → St → St → Prop
  | .start _, s, s' => s' = s
  | .step i c lbl, s, s' => D.guar i c lbl s s'

variable {body : Nat → Call → Prog Lbl St Env Ret}

/-- Every call, started in a state that satisfies the invariant, is safe. -/
def Respects (D : Discipline Call Lbl St Ret) (ok : Lbl → St → Prop) (body : Nat → Call → Prog Lbl St Env Ret) : Prop :=
  ∀ i c s, D.inv s → Safe (D.contract ok i c) (D.post i c) (body i c) s

/-- One step of a good pool satisfies what is owed and leads to a good pool: the thread
that moved is safe by its own judgement, the others because its step is one they rely on. -/
theorem Good.step {p q : Pool Call Lbl St Env Ret} {ev : Pool.Event Call Lbl} (hp : D.Good ok p)
    (hok : ev.meets ok p.shared)
    (hnew : ∀ c, Safe (D.contract ok p.threads.length c) (D.post p.threads.length c) (body p.threads.length c) p.shared)
    (h : Pool.Step body p ev q) : D.Owed ev p.shared q.shared ∧ D.Good ok q := by
  obtain ⟨hinv, hthreads⟩ := hp
  cases h with
  | start c =>
    refine ⟨rfl, hinv, fun i t ht => ?_⟩
    rcases Nat.lt_trichotomy i p.threads.length with hi | rfl | hi
    · rw [List.getElem?_append_left hi] at ht
      exact hthreads i t ht
    · simp only [List.getElem?_concat_length, Option.some.injEq] at ht
      subst ht
      exact hnew c
    · rw [List.getElem?_eq_none (by simp only [List.length_append, List.length_singleton]; omega)] at ht
      cases ht
  | @step i c β lbl f k b s' e hi hf =>
    have hmoved := safe_act_iff.mp (hthreads i _ hi) p.shared .refl hok e b s' hf
    refine ⟨hmoved.1, D.keeps hinv hmoved.1, fun j t ht => ?_⟩
    rcases Decidable.em (j = i) with rfl | hj
    · have hlt : j < p.threads.length := (List.getElem?_eq_some_iff.mp hi).1
      simp only [List.getElem?_set_self hlt, Option.some.injEq] at ht
      subst ht
      exact hmoved.2
    · simp only [List.getElem?_set_ne (.symm hj)] at ht
      exact (hthreads j t ht).after Relation.ReflTransGen.trans
        (.single ⟨hinv, i, c, lbl, .symm hj, hmoved.1⟩)

theorem good_of_reachable (hbody : D.Respects ok body) {s0 : St} (h0 : D.inv s0) {p : Pool Call Lbl St Env Ret}
    (h : Pool.Reachable body ok s0 p) : D.Good ok p := by
  induction h with
  | init => exact ⟨h0, fun i t ht => by simp only [List.getElem?_nil, reduceCtorEq] at ht⟩
  | next _ hok hstep ih => exact (ih.step hok (fun c => hbody _ c _ ih.1) hstep).2

/-- **Soundness.** When every call is safe, then in every state a run reaches the invariant
holds, every value returned so far satisfies its postcondition, and every next step satisfies
what its thread owes. -/
theorem sound (hbody : D.Respects ok body) {s0 : St} (h0 : D.inv s0) {p : Pool Call Lbl St Env Ret}
    (h : Pool.Reachable body ok s0 p) : D.inv p.shared ∧ (∀ i c a, p.Returned i c a → D.post i c a p.shared) ∧
    (∀ ev q, ev.meets ok p.shared → Pool.Step body p ev q → D.Owed ev p.shared q.shared) := by
  have hgood := good_of_reachable hbody h0 h
  refine ⟨hgood.1, fun i c a hi => ?_, fun ev q hok hstep => ?_⟩
  · exact safe_pure_iff.mp (hgood.2 i _ hi) p.shared .refl
  · exact (hgood.step hok (fun c => hbody _ c _ hgood.1) hstep).1

end Discipline

end TailscaleDart.Conc
