import Mathlib.Data.List.Enum
import TailscaleDart.Conc.Machine

/-!
# Worker.LifecycleQueue — lifecycle operations, one at a time

`LifecycleQueue.run` reserves the place of an operation before anything asynchronous happens: it swaps `_tail` for the
future of a fresh completer `done`, and the closure it starts awaits the former tail, calls the operation, awaits its
future, and completes `done` whatever happened. The machine below has one event for each stretch of such a closure
between two awaits, one for what an operation does at its own time, and one for a call of `run`, which anybody may make
at any moment, a running operation included.

The order is a chain of futures: the tail awaited by call `i` is the `done` of call `i - 1`. `Chained` is this chain
with its outcomes so far, and every event moves along it by at most one call.
-/

namespace TailscaleDart.Worker

open Conc

variable {ε α : Type}

/-- A completer with its future: `none` until it is completed. -/
abbrev Completer (β : Type) := Option β

/-- `complete` and `completeError`, and whether they returned: on a completed future they throw a `StateError`. -/
def Completer.complete {β : Type} (c : Completer β) (outcome : β) : Bool × Completer β :=
  match c with
  | none => (true, some outcome)
  | some earlier => (false, some earlier)

/-- Where the closure of a call stands. -/
inductive Stage (ε α : Type)
  | previous
  /-- Inside the call of `operation`, which has not returned a future yet. -/
  | operation
  /-- At the await of the operation's future. -/
  | future (outcome : Completer (Except ε α))
  | left

structure Call (ε α : Type) where
  previous : Nat
  done : Nat
  result : Completer (Except ε α) := none
  stage : Stage ε α := .previous

/-- What can be seen of call number `i`: its operation begins and ends, and its future completes. -/
inductive Note (ε α : Type)
  | began (i : Nat)
  | ended (i : Nat) (outcome : Except ε α)
  | completed (i : Nat) (outcome : Except ε α)

structure LifecycleQueue (ε α : Type) where
  /-- The initial `Future.value()`, and the future of `done` of each call. -/
  futures : List (Completer Unit) := [some ()]
  tail : Nat := 0
  calls : List (Call ε α) := []
  /-- The closures that ended with an unhandled `StateError`. -/
  unhandled : Nat := 0
  log : List (Note ε α) := []

inductive Event (ε α : Type)
  | run
  /-- `await previous` returns and `operation` is entered. -/
  | invoke (i : Nat)
  /-- The operation throws before it returns a future. -/
  | throws (i : Nat) (error : ε)
  | returns (i : Nat)
  /-- The operation's future completes. -/
  | ends (i : Nat) (outcome : Except ε α)
  /-- `await operation()` returns or throws. -/
  | resume (i : Nat)

/-- The events by which the event loop goes on with a closure; all others are the operations' and the callers'. -/
def Event.isMicrotask : Event ε α → Bool
  | .invoke _ | .resume _ => true
  | _ => false

def Event.isRun : Event ε α → Bool
  | .run => true
  | _ => false

/-- The end of an operation, as the operation gives it. -/
def Event.outcome : Event ε α → Option (Nat × Except ε α)
  | .throws i error => some (i, .error error)
  | .ends i outcome => some (i, outcome)
  | _ => none

/-- The end of an operation, as the history has it. -/
def Note.outcome : Note ε α → Option (Nat × Except ε α)
  | .ended i outcome => some (i, outcome)
  | _ => none

namespace LifecycleQueue

variable {q q' : LifecycleQueue ε α}

def run (q : LifecycleQueue ε α) : LifecycleQueue ε α :=
  { q with
    futures := q.futures ++ [none]
    tail := q.futures.length
    calls := q.calls ++ [{ previous := q.tail, done := q.futures.length }] }

def set (q : LifecycleQueue ε α) (i : Nat) (call : Call ε α) (stage : Stage ε α) (seen : List (Note ε α)) :
    LifecycleQueue ε α :=
  { q with calls := q.calls.set i { call with stage := stage }, log := q.log ++ seen }

/-- The end of the closure. When completing `result` throws, so does the `completeError` of the catch clause; `done` is
completed in either case. -/
def settle (q : LifecycleQueue ε α) (i : Nat) (call : Call ε α) (outcome : Except ε α) (seen : List (Note ε α)) :
    LifecycleQueue ε α :=
  let result := Completer.complete call.result outcome
  let done := Completer.complete q.futures[call.done]?.join ()
  { q with
    futures := q.futures.set call.done done.2
    calls := q.calls.set i { call with result := result.2, stage := .left }
    unhandled := if result.1 && done.1 then q.unhandled else q.unhandled + 1
    log := q.log ++ seen ++ if result.1 then [.completed i outcome] else [] }

def step (q : LifecycleQueue ε α) : Event ε α → Option (LifecycleQueue ε α)
  | .run => some q.run
  | .invoke i => q.calls[i]?.bind fun call =>
    match call.stage, q.futures[call.previous]? with
    | .previous, some (some ()) => some (q.set i call .operation [.began i])
    | _, _ => none
  | .throws i error => q.calls[i]?.bind fun call =>
    match call.stage with
    | .operation => some (q.settle i call (.error error) [.ended i (.error error)])
    | _ => none
  | .returns i => q.calls[i]?.bind fun call =>
    match call.stage with
    | .operation => some (q.set i call (.future none) [])
    | _ => none
  | .ends i outcome => q.calls[i]?.bind fun call =>
    match call.stage with
    | .future none => some (q.set i call (.future (some outcome)) [.ended i outcome])
    | _ => none
  | .resume i => q.calls[i]?.bind fun call =>
    match call.stage with
    | .future (some outcome) => some (q.settle i call outcome [])
    | _ => none

/-! ## The chain -/

/-- The history of operations that were executed one after the other. -/
def oneByOne (outcomes : List (Except ε α)) : List (Note ε α) :=
  outcomes.zipIdx.flatMap fun (o, i) => [.began i, .ended i o, .completed i o]

theorem oneByOne_concat (outcomes : List (Except ε α)) (o : Except ε α) : oneByOne (outcomes ++ [o]) =
      oneByOne outcomes ++ [.began outcomes.length, .ended outcomes.length o, .completed outcomes.length o] := by
  simp [oneByOne, List.zipIdx_append]

/-- What call number `k` at the head of the chain has shown so far. -/
def shown (k : Nat) : Stage ε α → List (Note ε α)
  | .previous | .left => []
  | .operation | .future none => [.began k]
  | .future (some o) => [.began k, .ended k o]

/-- What call `i` looks like when the calls before number `outcomes.length` are settled and that one is at `stage`. -/
def expected (outcomes : List (Except ε α)) (stage : Stage ε α) (i : Nat) : Call ε α where
  previous := i
  done := i + 1
  result := outcomes[i]?
  stage := if i < outcomes.length then .left else if i = outcomes.length then stage else .previous

structure Chained (q : LifecycleQueue ε α) (outcomes : List (Except ε α)) (stage : Stage ε α) : Prop where
  tail : q.tail = q.calls.length
  futures : q.futures.length = q.calls.length + 1
  done : ∀ j < q.futures.length, q.futures[j]? = some (if j ≤ outcomes.length then some () else none)
  calls : ∀ i call, q.calls[i]? = some call → call = expected outcomes stage i
  settled : outcomes.length ≤ q.calls.length
  /-- Past the last call there is nothing to be at. -/
  current : stage = .previous ∨ outcomes.length < q.calls.length ∧ stage ≠ .left
  unhandled : q.unhandled = 0
  log : q.log = oneByOne outcomes ++ shown outcomes.length stage

variable {outcomes : List (Except ε α)} {stage : Stage ε α} {i : Nat} {call : Call ε α}

theorem chained_start : Chained ({} : LifecycleQueue ε α) [] .previous where
  tail := rfl
  futures := rfl
  done := by
    intro j hj
    obtain rfl : j = 0 := Nat.lt_one_iff.mp hj
    rfl
  calls := nofun
  settled := Nat.le_refl 0
  current := .inl rfl
  unhandled := rfl
  log := rfl

theorem Chained.run (h : Chained q outcomes stage) : Chained q.run outcomes stage where
  tail := by simp [LifecycleQueue.run, h.futures]
  futures := by simp [LifecycleQueue.run, h.futures]
  done := by
    intro j hj
    have hfutures := h.futures
    have hsettled := h.settled
    simp only [LifecycleQueue.run, List.length_append, List.length_singleton] at hj ⊢
    by_cases hlast : j < q.futures.length
    · rw [List.getElem?_append_left hlast, h.done j hlast]
    · obtain rfl : j = q.futures.length := by omega
      rw [List.getElem?_concat_length, if_neg (by omega)]
  calls := by
    intro i call hcall
    rw [LifecycleQueue.run, List.getElem?_append] at hcall
    split at hcall
    case isTrue => exact h.calls i call hcall
    case isFalse hlast =>
      have hsettled := h.settled
      obtain ⟨hi, rfl⟩ : i - q.calls.length = 0 ∧ _ = call := by simpa [List.getElem?_singleton] using hcall
      obtain rfl : i = q.calls.length := by omega
      rcases h.current with rfl | ⟨hlt, -⟩
      · simp [expected, h.tail, h.futures, hsettled]
      · simp [expected, h.tail, h.futures, Nat.not_lt.mpr hsettled, Nat.ne_of_gt hlt]
  settled := by
    have hsettled := h.settled
    simp only [LifecycleQueue.run, List.length_append, List.length_singleton]
    omega
  current := by
    refine h.current.imp_right fun hcurrent => ⟨?_, hcurrent.2⟩
    have hlt := hcurrent.1
    simp only [LifecycleQueue.run, List.length_append, List.length_singleton]
    omega
  unhandled := h.unhandled
  log := h.log

/-- A call that is not at its beginning, or whose turn has come, is the one at the head of the chain. -/
theorem Chained.head (h : Chained q outcomes stage) (hcall : q.calls[i]? = some call) {current : Stage ε α}
    (hcurrent : call.stage = current) (hleft : current ≠ .left)
    (hturn : current ≠ .previous ∨ q.futures[call.previous]? = some (some ())) :
    i = outcomes.length ∧ call = expected outcomes stage i ∧ current = stage ∧ i < q.calls.length := by
  subst hcurrent
  obtain ⟨hi, -⟩ := List.getElem?_eq_some_iff.mp hcall
  have hfutures := h.futures
  obtain rfl := h.calls i call hcall
  have hnot : ¬ i < outcomes.length := by
    intro hlt
    exact hleft (if_pos hlt)
  by_cases heq : i = outcomes.length
  · refine ⟨heq, rfl, ?_, hi⟩
    simp [expected, heq]
  · exfalso
    have hstage : (expected outcomes stage i).stage = .previous := by simp [expected, hnot, heq]
    have hopen : q.futures[i]? = some none := by rw [h.done i (by omega), if_neg (by omega)]
    rcases hturn with hturn | hturn
    · exact hturn hstage
    · rw [show (expected outcomes stage i).previous = i from rfl, hopen] at hturn
      cases hturn

/-- The call at the head goes on. -/
theorem Chained.set (h : Chained q outcomes stage) (next : Stage ε α) (hi : i = outcomes.length)
    (hlt : i < q.calls.length)
    (hleft : next ≠ .left) {seen : List (Note ε α)} (hseen : shown i next = shown i stage ++ seen) :
    Chained (q.set i (expected outcomes stage i) next seen) outcomes next where
  tail := by simp [LifecycleQueue.set, h.tail]
  futures := by simp [LifecycleQueue.set, h.futures]
  done := h.done
  calls := by
    intro j call hcall
    rw [LifecycleQueue.set, List.getElem?_set] at hcall
    split at hcall
    case isTrue heq =>
      subst heq
      obtain rfl := Option.some.inj hcall
      simp [expected, hi]
    case isFalse hne =>
      have hother : j ≠ outcomes.length := fun heq => hne (hi.trans heq.symm)
      rw [h.calls j call hcall]
      simp [expected, hother]
  settled := by simpa [LifecycleQueue.set] using h.settled
  current := .inr ⟨by simpa [LifecycleQueue.set, ← hi] using hlt, hleft⟩
  unhandled := h.unhandled
  log := by rw [LifecycleQueue.set, h.log, ← hi, hseen, List.append_assoc]

/-- The call at the head is settled. -/
theorem Chained.settle (h : Chained q outcomes stage) (hi : i = outcomes.length) (hlt : i < q.calls.length)
    {o : Except ε α} {seen : List (Note ε α)} (hseen : shown i stage ++ seen = [.began i, .ended i o]) :
    Chained (q.settle i (expected outcomes stage i) o seen) (outcomes ++ [o]) .previous := by
  subst hi
  have hfutures := h.futures
  have hopen : q.futures[outcomes.length + 1]? = some none := by rw [h.done _ (by omega), if_neg (by omega)]
  have hnew : Completer.complete (expected outcomes stage outcomes.length).result o = (true, some o) := by
    simp [expected, Completer.complete]
  have hdone : Completer.complete q.futures[(expected outcomes stage outcomes.length).done]?.join () =
      (true, some ()) := by
    rw [show (expected outcomes stage outcomes.length).done = outcomes.length + 1 from rfl, hopen]
    rfl
  unfold LifecycleQueue.settle
  rw [hnew, hdone]
  exact {
    tail := by simp [h.tail]
    futures := by simp [hfutures]
    done := by
      intro j hj
      simp only [List.length_set] at hj
      simp only [List.getElem?_set, expected, List.length_append, List.length_singleton]
      by_cases heq : outcomes.length + 1 = j
      · rw [if_pos heq, if_pos (by omega), if_pos (by omega)]
      · rw [if_neg heq, h.done j hj]
        congr 2
        simp only [eq_iff_iff]
        omega
    calls := by
      intro j call hcall
      rw [List.getElem?_set] at hcall
      split at hcall
      case isTrue heq =>
        obtain rfl := Option.some.inj hcall
        simp [expected, ← heq]
      case isFalse hne =>
        rw [h.calls j call hcall]
        have hother : j ≠ outcomes.length := fun heq => hne heq.symm
        have hlater : j < outcomes.length + 1 ↔ j < outcomes.length := by omega
        have hresult : (outcomes ++ [o])[j]? = outcomes[j]? := by
          rcases Nat.lt_or_gt_of_ne hother with hlt | hgt
          · exact List.getElem?_append_left hlt
          · rw [List.getElem?_eq_none (by simp; omega), List.getElem?_eq_none (by omega)]
        simp [expected, hother, hlater, hresult]
    settled := by
      simp only [List.length_append, List.length_singleton, List.length_set]
      omega
    current := .inl rfl
    unhandled := by simp [h.unhandled]
    log := by
      rw [h.log, List.append_assoc (oneByOne outcomes), hseen, oneByOne_concat]
      simp [shown] }

/-- How far the chain can still be moved by the event loop alone. -/
def remaining (q : LifecycleQueue ε α) (outcomes : List (Except ε α)) : Stage ε α → Nat
  | .previous => 2 * (q.calls.length - outcomes.length)
  | _ => 2 * (q.calls.length - outcomes.length) - 1

theorem Chained.step (h : Chained q outcomes stage) {e : Event ε α} (hstep : q.step e = some q') :
    ∃ outcomes' stage', Chained q' outcomes' stage' ∧
      (e.isMicrotask = true → q'.remaining outcomes' stage' < q.remaining outcomes stage) := by
  cases e with
  | run =>
    obtain rfl := Option.some.inj hstep
    exact ⟨outcomes, stage, h.run, nofun⟩
  | invoke i =>
    obtain ⟨call, hcall, hstep⟩ := Option.bind_eq_some_iff.mp hstep
    split at hstep
    case h_1 hstage hprevious =>
      obtain ⟨hi, rfl, rfl, hlt⟩ := h.head hcall hstage nofun (.inr hprevious)
      obtain rfl := Option.some.inj hstep
      refine ⟨outcomes, .operation, h.set .operation hi hlt nofun rfl, fun _ => ?_⟩
      simp only [remaining, LifecycleQueue.set, List.length_set]
      omega
    case h_2 => cases hstep
  | throws i error =>
    obtain ⟨call, hcall, hstep⟩ := Option.bind_eq_some_iff.mp hstep
    split at hstep
    case h_1 hstage =>
      obtain ⟨hi, rfl, rfl, hlt⟩ := h.head hcall hstage nofun (.inl nofun)
      obtain rfl := Option.some.inj hstep
      exact ⟨_, _, h.settle hi hlt rfl, nofun⟩
    case h_2 => cases hstep
  | returns i =>
    obtain ⟨call, hcall, hstep⟩ := Option.bind_eq_some_iff.mp hstep
    split at hstep
    case h_1 hstage =>
      obtain ⟨hi, rfl, rfl, hlt⟩ := h.head hcall hstage nofun (.inl nofun)
      obtain rfl := Option.some.inj hstep
      exact ⟨outcomes, .future none, h.set (.future none) hi hlt nofun rfl, nofun⟩
    case h_2 => cases hstep
  | ends i outcome =>
    obtain ⟨call, hcall, hstep⟩ := Option.bind_eq_some_iff.mp hstep
    split at hstep
    case h_1 hstage =>
      obtain ⟨hi, rfl, rfl, hlt⟩ := h.head hcall hstage nofun (.inl nofun)
      obtain rfl := Option.some.inj hstep
      exact ⟨outcomes, .future (some outcome), h.set (.future (some outcome)) hi hlt nofun rfl, nofun⟩
    case h_2 => cases hstep
  | resume i =>
    obtain ⟨call, hcall, hstep⟩ := Option.bind_eq_some_iff.mp hstep
    split at hstep
    case h_1 outcome hstage =>
      obtain ⟨hi, rfl, rfl, hlt⟩ := h.head hcall hstage nofun (.inl nofun)
      obtain rfl := Option.some.inj hstep
      refine ⟨_, _, h.settle hi hlt rfl, fun _ => ?_⟩
      simp only [remaining, LifecycleQueue.settle, List.length_set, List.length_append, List.length_singleton]
      omega
    case h_2 => cases hstep

theorem chained_of_reachable (h : Machine.Reachable step (fun _ _ => True) ({} : LifecycleQueue ε α) q) :
    ∃ outcomes stage, Chained q outcomes stage := by
  induction h with
  | start => exact ⟨_, _, chained_start⟩
  | next _ e _ hstep ih =>
    obtain ⟨outcomes, stage, hq⟩ := ih
    obtain ⟨outcomes', stage', hq', -⟩ := hq.step hstep
    exact ⟨outcomes', stage', hq'⟩

/-- One event: `run` alone adds a call, and the history gets the end of an operation from the operation. -/
theorem step_accounted {e : Event ε α} (hstep : q.step e = some q') :
    q'.calls.length = q.calls.length + [e].countP Event.isRun ∧
      q'.log.filterMap Note.outcome = q.log.filterMap Note.outcome ++ [e].filterMap Event.outcome := by
  cases e with
  | run =>
    obtain rfl := Option.some.inj hstep
    simp [LifecycleQueue.run, Event.isRun, Event.outcome]
  | _ =>
    obtain ⟨call, hcall, hstep⟩ := Option.bind_eq_some_iff.mp hstep
    split at hstep
    · obtain rfl := Option.some.inj hstep
      simp only [LifecycleQueue.set, LifecycleQueue.settle]
      grind [Event.isRun, Event.outcome, Note.outcome]
    · cases hstep

theorem follow_accounted {events : List (Event ε α)} {check : Event ε α → LifecycleQueue ε α → Bool}
    (hrun : Machine.follow step check q events = some q') :
    q'.calls.length = q.calls.length + events.countP Event.isRun ∧
      q'.log.filterMap Note.outcome = q.log.filterMap Note.outcome ++ events.filterMap Event.outcome := by
  induction events generalizing q with
  | nil =>
    obtain rfl := Option.some.inj hrun
    simp
  | cons e events ih =>
    simp only [Machine.follow] at hrun
    split at hrun
    case isTrue =>
      obtain ⟨between, hstep, hrest⟩ := Option.bind_eq_some_iff.mp hrun
      obtain ⟨hcalls, houtcomes⟩ := ih hrest
      obtain ⟨hcall, houtcome⟩ := step_accounted hstep
      rw [List.countP_cons, ← List.singleton_append, List.filterMap_append]
      exact ⟨by simp at hcall; omega, by rw [houtcomes, houtcome, List.append_assoc]⟩
    case isFalse => cases hrun

theorem Chained.microtasks (h : Chained q outcomes stage) {events : List (Event ε α)}
    (hrun : Machine.follow LifecycleQueue.step (fun e _ => e.isMicrotask) q events = some q') :
    events.length ≤ q.remaining outcomes stage := by
  induction events generalizing q outcomes stage with
  | nil => exact Nat.zero_le _
  | cons e events ih =>
    simp only [Machine.follow] at hrun
    split at hrun
    case isTrue hmicrotask =>
      obtain ⟨q1, hstep, hrest⟩ := Option.bind_eq_some_iff.mp hrun
      obtain ⟨outcomes1, stage1, h1, hless⟩ := h.step hstep
      have hlength := ih h1 hrest
      have hless := hless hmicrotask
      simp only [List.length_cons]
      omega
    case isFalse => cases hrun

/-- The event loop has nothing left to do for the queue. -/
def Quiescent (q : LifecycleQueue ε α) : Prop := ∀ e : Event ε α, e.isMicrotask = true → q.step e = none

theorem Chained.quiescent (h : Chained q outcomes stage) (hq : q.Quiescent) :
    outcomes.length = q.calls.length ∨ shown outcomes.length stage = [.began outcomes.length] := by
  rcases Nat.lt_or_eq_of_le h.settled with hlt | heq
  · right
    obtain ⟨call, hcall⟩ : ∃ call, q.calls[outcomes.length]? = some call := ⟨_, List.getElem?_eq_getElem hlt⟩
    have hexpected := h.calls _ call hcall
    have hstage : call.stage = stage := by
      rw [hexpected]
      simp [expected]
    have hfutures := h.futures
    have hprevious : q.futures[call.previous]? = some (some ()) := by
      rw [hexpected, show (expected outcomes stage outcomes.length).previous = outcomes.length from rfl,
        h.done _ (by omega), if_pos (Nat.le_refl _)]
    have hinvoke := hq (.invoke outcomes.length) rfl
    have hresume := hq (.resume outcomes.length) rfl
    simp only [LifecycleQueue.step, hcall, Option.bind_some, hstage, hprevious] at hinvoke hresume
    match stage, h.current with
    | .previous, _ => cases hinvoke
    | .operation, _ => rfl
    | .future none, _ => rfl
    | .future (some o), _ => cases hresume
    | .left, .inr hcurrent => exact absurd rfl hcurrent.2
  · exact .inl heq

/-- In every run the operations are executed one at a time in the order of the calls of `run`, which are as many as the
run has made; the outcomes in the history are those the operations gave, and each future is completed once, with the
outcome of its own operation. Left alone, the event loop comes to rest after at most two turns for each call, and then
every call is settled or waits for an operation that has not ended. -/
theorem operations_one_at_a_time {events : List (Event ε α)}
    (hrun : Machine.follow step (fun _ _ => true) ({} : LifecycleQueue ε α) events = some q) :
    q.calls.length = events.countP Event.isRun ∧
    q.log.filterMap Note.outcome = events.filterMap Event.outcome ∧
    ∃ outcomes : List (Except ε α), ∃ part : List (Note ε α), q.log = oneByOne outcomes ++ part ∧
      (part = [] ∨ outcomes.length < q.calls.length ∧
        (part = [.began outcomes.length] ∨ ∃ o, part = [.began outcomes.length, .ended outcomes.length o])) ∧
      (∀ (i : Nat) (call : Call ε α), q.calls[i]? = some call → call.result = outcomes[i]?) ∧
      outcomes.length ≤ q.calls.length ∧ q.unhandled = 0 ∧
      (∀ events q', Machine.follow step (fun e _ => e.isMicrotask) q events = some q' →
        events.length ≤ 2 * q.calls.length) ∧
      (q.Quiescent → outcomes.length = q.calls.length ∨ part = [.began outcomes.length]) := by
  obtain ⟨hcalls, houtcomes⟩ := follow_accounted hrun
  obtain ⟨outcomes, stage, hq⟩ :=
    chained_of_reachable (.follow (fun _ _ _ => trivial) .start hrun)
  refine ⟨by simpa using hcalls, by simpa using houtcomes, outcomes, shown outcomes.length stage, hq.log, ?_, ?_,
    hq.settled, hq.unhandled, ?_, hq.quiescent⟩
  · match stage, hq.current with
    | .previous, _ => exact .inl rfl
    | .operation, .inr hcurrent => exact .inr ⟨hcurrent.1, .inl rfl⟩
    | .future none, .inr hcurrent => exact .inr ⟨hcurrent.1, .inl rfl⟩
    | .future (some o), .inr hcurrent => exact .inr ⟨hcurrent.1, .inr ⟨o, rfl⟩⟩
    | .left, _ => exact .inl rfl
  · intro i call hcall
    rw [hq.calls i call hcall]
    rfl
  · intro events q' hrun
    have hlength := hq.microtasks hrun
    have hremaining : q.remaining outcomes stage ≤ 2 * q.calls.length := by
      unfold remaining
      split <;> omega
    omega

/-- The first operation throws at once, the second calls `run` and fails later; the third is called all the same. -/
def nested : List (Event String Nat) :=
  [.run, .run, .invoke 0, .throws 0 "sync", .invoke 1, .run, .returns 1, .ends 1 (.error "async"), .resume 1, .invoke 2]

theorem operations_one_at_a_time_nested :
    ∃ q, Machine.follow step (fun _ _ => true) {} nested = some q ∧ q.calls.length = 3 ∧
      q.log = [.began 0, .ended 0 (.error "sync"), .completed 0 (.error "sync"), .began 1, .ended 1 (.error "async"),
        .completed 1 (.error "async"), .began 2] ∧
      q.calls.map Call.result = [some (.error "sync"), some (.error "async"), none] ∧
      nested.countP Event.isRun = 3 ∧
      nested.filterMap Event.outcome = [(0, .error "sync"), (1, .error "async")] ∧ q.unhandled = 0 := by
  obtain ⟨q, hrun, hlog, hresults⟩ : ∃ q, Machine.follow step (fun _ _ => true) {} nested = some q ∧
      q.log = [.began 0, .ended 0 (.error "sync"), .completed 0 (.error "sync"), .began 1, .ended 1 (.error "async"),
        .completed 1 (.error "async"), .began 2] ∧
      q.calls.map Call.result = [some (.error "sync"), some (.error "async"), none] := ⟨_, rfl, rfl, rfl⟩
  obtain ⟨hcalls, houtcomes, -, -, -, -, -, -, hunhandled, -, -⟩ := operations_one_at_a_time hrun
  rw [hlog] at houtcomes
  exact ⟨q, hrun, hcalls, hlog, hresults, rfl, houtcomes.symm, hunhandled⟩

end LifecycleQueue

end TailscaleDart.Worker
