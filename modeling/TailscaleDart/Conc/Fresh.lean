import TailscaleDart.Conc.Pool

/-!
# Fresh threads, what holds from some point on, and programs that only look

Additions to the rules of `Conc.Pool`.

A thread that keeps a record of its own (what it opened, what failed) starts with an empty one. That is not an invariant
of the shared state, since the record is empty only until the thread starts: `Discipline.sound_fresh` is soundness for
programs that may assume it of the thread they run as.

What holds once and is kept by every step holds in every pool that may follow (`Pool.Later.keeps`).

A part of a program that only looks (`Silent`) keeps every stable assertion, whatever it is told
(`Safe.silent_among`).
-/

namespace TailscaleDart.Conc

variable {Call Lbl St Env Ret : Type} {α β : Type}

namespace Discipline

variable {D : Discipline Call Lbl St Ret} {ok : Lbl → St → Prop} {body : Nat → Call → Prog Lbl St Env Ret} {s0 : St}

/-- Something that holds of every thread until it takes a step. -/
structure Untouched (D : Discipline Call Lbl St Ret) (s0 : St) (fresh : Nat → St → Prop) : Prop where
  start : ∀ i, fresh i s0
  stable : ∀ i, D.Stable i (fresh i)

/-- Every call is safe as a thread that has not taken a step. -/
def RespectsFresh (D : Discipline Call Lbl St Ret) (ok : Lbl → St → Prop) (fresh : Nat → St → Prop)
    (body : Nat → Call → Prog Lbl St Env Ret) : Prop :=
  ∀ i c s, D.inv s → fresh i s → Safe (D.contract ok i c) (D.post i c) (body i c) s

/-- A step is made by a thread that has started, so threads to come stay untouched. -/
theorem Untouched.step {fresh : Nat → St → Prop} (hfresh : D.Untouched s0 fresh) {p q : Pool Call Lbl St Env Ret}
    {ev : Pool.Event Call Lbl} (hp : D.Good ok p) (howed : D.Owed ev p.shared q.shared) (h : Pool.Step body p ev q)
    (hnew : ∀ i, p.threads.length ≤ i → fresh i p.shared) (i : Nat) (hi : q.threads.length ≤ i) : fresh i q.shared := by
  cases h with
  | start c =>
    rw [List.length_append, List.length_singleton] at hi
    exact hnew i (by omega)
  | @step j c β lbl f k b s' e hj hf =>
    rw [List.length_set] at hi
    have hlt : j < p.threads.length := (List.getElem?_eq_some_iff.mp hj).1
    exact hfresh.stable i _ _ ⟨hp.1, j, c, lbl, by omega, howed⟩ (hnew i hi)

theorem good_of_reachable_fresh {fresh : Nat → St → Prop} (hbody : D.RespectsFresh ok fresh body)
    (hfresh : D.Untouched s0 fresh) (h0 : D.inv s0) {p : Pool Call Lbl St Env Ret}
    (h : Pool.Reachable body ok s0 p) : D.Good ok p ∧ ∀ i, p.threads.length ≤ i → fresh i p.shared := by
  induction h with
  | init => exact ⟨⟨h0, fun i t ht => by simp only [List.getElem?_nil, reduceCtorEq] at ht⟩, fun i _ => hfresh.start i⟩
  | next _ hok hstep ih =>
    obtain ⟨hgood, hnew⟩ := ih
    have hnext := hgood.step hok (fun c => hbody _ c _ hgood.1 (hnew _ (Nat.le_refl _))) hstep
    exact ⟨hnext.2, hfresh.step hgood hnext.1 hstep hnew⟩

/-- **Soundness** for programs that start untouched. -/
theorem sound_fresh {fresh : Nat → St → Prop} (hbody : D.RespectsFresh ok fresh body) (hfresh : D.Untouched s0 fresh)
    (h0 : D.inv s0) {p : Pool Call Lbl St Env Ret} (h : Pool.Reachable body ok s0 p) : D.inv p.shared ∧
    (∀ i c a, p.Returned i c a → D.post i c a p.shared) ∧
    (∀ ev q, ev.meets ok p.shared → Pool.Step body p ev q → D.Owed ev p.shared q.shared) := by
  obtain ⟨hgood, hnew⟩ := good_of_reachable_fresh hbody hfresh h0 h
  refine ⟨hgood.1, fun i c a hi => ?_, fun ev q hok hstep => ?_⟩
  · exact safe_pure_iff.mp (hgood.2 i _ hi) p.shared .refl
  · exact (hgood.step hok (fun c => hbody _ c _ hgood.1 (hnew _ (Nat.le_refl _))) hstep).1

end Discipline

/-! ## From some point on -/

/-- The pools that may follow, whatever is started and whichever thread goes on. -/
def Pool.Later (body : Nat → Call → Prog Lbl St Env Ret) : Pool Call Lbl St Env Ret → Pool Call Lbl St Env Ret → Prop :=
  Relation.ReflTransGen fun p q => ∃ ev, Pool.Step body p ev q

theorem Pool.Later.reachable {body : Nat → Call → Prog Lbl St Env Ret} {s0 : St} {p q : Pool Call Lbl St Env Ret}
    (h : Pool.Later body p q) (hp : Pool.Reachable body (fun _ _ => True) s0 p) :
    Pool.Reachable body (fun _ _ => True) s0 q := by
  induction h with
  | refl => exact hp
  | @tail m q _ hstep ih =>
    obtain ⟨ev, hstep⟩ := hstep
    have hmeets : ev.meets (fun _ _ => True) m.shared := by cases ev <;> trivial
    exact ih.next hmeets hstep

/-- What every step of a thread keeps. -/
theorem Pool.Later.keeps {body : Nat → Call → Prog Lbl St Env Ret} {s0 : St} {p q : Pool Call Lbl St Env Ret}
    (h : Pool.Later body p q) (hp : Pool.Reachable body (fun _ _ => True) s0 p) {P : St → Prop}
    (hkeeps : ∀ m m' i c lbl, Pool.Reachable body (fun _ _ => True) s0 m → Pool.Step body m (.step i c lbl) m' →
      P m.shared → P m'.shared) (hP : P p.shared) : P q.shared := by
  induction h with
  | refl => exact hP
  | @tail m q hbefore hstep ih =>
    obtain ⟨ev, hstep⟩ := hstep
    cases ev with
    | start c =>
      cases hstep
      exact ih
    | step i c lbl => exact hkeeps m q i c lbl (Pool.Later.reachable hbefore hp) hstep ih

/-! ## Programs that only look -/

/-- Every step has one of these labels and leaves the state as it was. -/
inductive Silent (Q : Lbl → Prop) : Prog Lbl St Env α → Prop
  | pure (a : α) : Silent Q (.pure a)
  | act {γ : Type} {lbl : Lbl} {f : Env → St → Option (γ × St)} {k : γ → Prog Lbl St Env α} (hlbl : Q lbl)
      (hf : ∀ e s b s', f e s = some (b, s') → s' = s) (hk : ∀ b, Silent Q (k b)) : Silent Q (.act lbl f k)

variable {Q : Lbl → Prop} {p : Prog Lbl St Env α}

theorem Silent.bind {g : α → Prog Lbl St Env β} (hp : Silent Q p) (hg : ∀ a, Silent Q (g a)) : Silent Q (p.bind g) := by
  induction hp with
  | pure a => exact hg a
  | act hlbl hf _ ih => exact .act hlbl hf fun b => ih b

theorem Silent.andThen {ε : Type} {x : ExceptT ε (Prog Lbl St Env) α} {g : α → ExceptT ε (Prog Lbl St Env) β}
    (hx : Silent Q x.run) (hg : ∀ a, Silent Q (g a).run) : Silent Q (x >>= g).run := by
  apply Silent.bind hx
  intro r
  cases r with
  | ok a => exact hg a
  | error e => exact .pure _

/-- A silent part keeps what the thread knows. -/
theorem Safe.silent_among {D : Discipline Call Lbl St Ret} {ok : Lbl → St → Prop} {i : Nat} {c : Call}
    {P : St → Prop} (hidle : ∀ lbl s, Q lbl → P s → D.guar i c lbl s s) (hP : D.Stable i P)
    (hp : Silent Q p) {s : St} (hs : P s) : Safe (D.contract ok i c) (fun _ => P) p s := by
  induction hp generalizing s with
  | pure a => exact .pure_among hP hs
  | act hlbl hf _ ih =>
    apply Safe.act_among P hP hs
    intro s' hs' _ e b s'' hstep
    obtain rfl := hf e s' b s'' hstep
    exact ⟨hidle _ _ hlbl hs', ih b hs'⟩

end TailscaleDart.Conc
