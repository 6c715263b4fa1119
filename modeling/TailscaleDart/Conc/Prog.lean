import Mathlib.Logic.Relation

/-!
# Resumptions — programs as trees of atomic steps

A program is either finished or one ATOMIC STEP followed by a continuation.
The step reads the shared state and one answer of the environment (did the
system call fail, which bytes did the random source give), and either blocks
(`none`) or produces a value and a new state. A critical section of a mutex
is one step; a channel receive is a step that blocks until the channel is
closed; a system call is one step.

Nothing here names a particular program. The module provides the tree, its
monad, an executor over a list of answers (`exec`), the state a program has
reached when it is stopped after some of its steps (`haltAfter`), and one
judgement, `Safe`, from which both the sequential and the concurrent program
logics are read off:

* with interference `Eq` it is a Hoare logic whose guarantee sees every
  intermediate state, which is what crash reasoning needs
  (`Safe.exec`, `Safe.haltAfter`);
* with the other threads' steps as interference it is rely-guarantee
  reasoning (`Conc.Pool`).

What this does NOT decide: that a program ever takes its next step. `Safe`
is a safety judgement; results about a call returning are stated with `exec`.
-/

namespace TailscaleDart.Conc

/-- A program over the state `St`: finished with a value, or one labelled
atomic step and a continuation. The label says which step of the source this
is, so that a property of runs can speak about one kind of step. -/
inductive Prog (Lbl St Env : Type) (α : Type) : Type 1 where
  | pure (a : α) : Prog Lbl St Env α
  | act {β : Type} (lbl : Lbl) (f : Env → St → Option (β × St))
      (k : β → Prog Lbl St Env α) : Prog Lbl St Env α

namespace Prog

variable {Lbl St Env : Type} {α β γ : Type}

/-- Sequencing: graft the continuation onto every leaf. -/
def bind : Prog Lbl St Env α → (α → Prog Lbl St Env β) → Prog Lbl St Env β
  | .pure a, g => g a
  | .act lbl f k, g => .act lbl f fun b => (k b).bind g

instance : Monad (Prog Lbl St Env) where
  pure := Prog.pure
  bind := Prog.bind

/-- One step, as a program that answers the step's value. -/
def step (lbl : Lbl) (f : Env → St → Option (β × St)) : Prog Lbl St Env β :=
  .act lbl f .pure

@[simp] theorem pure_eq (a : α) : (Pure.pure a : Prog Lbl St Env α) = .pure a := rfl

@[simp] theorem bind_eq (p : Prog Lbl St Env α) (g : α → Prog Lbl St Env β) : (p >>= g) = p.bind g := rfl

@[simp] theorem pure_bind (a : α) (g : α → Prog Lbl St Env β) : (Prog.pure a).bind g = g a := rfl

@[simp] theorem act_bind (lbl : Lbl) (f : Env → St → Option (γ × St))
    (k : γ → Prog Lbl St Env α) (g : α → Prog Lbl St Env β) :
    (Prog.act lbl f k).bind g = .act lbl f fun b => (k b).bind g := rfl

@[simp] theorem step_bind (lbl : Lbl) (f : Env → St → Option (α × St))
    (g : α → Prog Lbl St Env β) : (step lbl f).bind g = .act lbl f g := rfl

/-- Run a program to its end with the environment's answers taken from a list.
`none`: a step blocked, or the answers ran out before the program returned. -/
def exec : Prog Lbl St Env α → List Env → St → Option (α × St)
  | .pure a, _, s => some (a, s)
  | .act _ _ _, [], _ => none
  | .act _ f k, e :: es, s =>
    match f e s with
    | none => none
    | some (b, s') => (k b).exec es s'

/-- The state in which a program is found when it is stopped after as many of
its steps as there are answers: every prefix of every execution. -/
def haltAfter : Prog Lbl St Env α → List Env → St → St
  | .pure _, _, s => s
  | .act _ _ _, [], s => s
  | .act _ f k, e :: es, s =>
    match f e s with
    | none => s
    | some (b, s') => (k b).haltAfter es s'

/-- Run a program in an environment that gives the same answer at every step. -/
def always (e : Env) : Prog Lbl St Env α → St → Option (α × St)
  | .pure a, s => some (a, s)
  | .act _ f k, s =>
    match f e s with
    | none => none
    | some (b, s') => (k b).always e s'

theorem always_bind (e : Env) (g : α → Prog Lbl St Env β) : ∀ (p : Prog Lbl St Env α) (s : St),
      (p.bind g).always e s = (p.always e s).bind fun (a, s') => (g a).always e s'
  | .pure _, _ => rfl
  | .act _ f k, s => by
    simp only [act_bind, always]
    cases f e s with
    | none => rfl
    | some r => exact always_bind e g (k r.1) r.2

/-- The same program where the state has a second part, which it leaves alone. -/
def onFst {T : Type} : Prog Lbl St Env α → Prog Lbl (St × T) Env α
  | .pure a => .pure a
  | .act lbl f k => .act lbl (fun e w => (f e w.1).map fun (b, s) => (b, s, w.2)) fun b => (k b).onFst

end Prog

/-! ## The judgement -/

/-- What a program may assume about the steps around its own, and what it owes
for each of its own. `ok` is a condition on the state BEFORE a labelled step that
the runs under consideration satisfy; it is `True` everywhere for an unconditional
result. -/
structure Contract (Lbl St : Type) where
  /-- What others may do between two steps of this program. -/
  rely : St → St → Prop
  /-- What the runs considered promise before a step. -/
  ok : Lbl → St → Prop
  /-- What each step of this program owes. -/
  guar : Lbl → St → St → Prop

section Safe

variable {Lbl St Env : Type} {α β : Type}

/-- From `s`, under interference `rely`, every step of the program satisfies `guar`
and the value it returns satisfies `post` in whatever state it is delivered. -/
def Safe (C : Contract Lbl St) (post : α → St → Prop) : Prog Lbl St Env α → St → Prop
  | .pure a, s => ∀ s', C.rely s s' → post a s'
  | .act lbl f k, s => ∀ s', C.rely s s' → C.ok lbl s' → ∀ e b s'', f e s' = some (b, s'') →
      C.guar lbl s' s'' ∧ Safe C post (k b) s''

variable {C : Contract Lbl St} {post : α → St → Prop} {s : St}

theorem safe_pure_iff {a : α} : Safe C post (.pure a : Prog Lbl St Env α) s ↔ ∀ s', C.rely s s' → post a s' := Iff.rfl

theorem safe_act_iff {lbl : Lbl} {f : Env → St → Option (β × St)} {k : β → Prog Lbl St Env α} :
    Safe C post (.act lbl f k) s ↔ ∀ s', C.rely s s' → C.ok lbl s' → ∀ e b s'', f e s' = some (b, s'') →
      C.guar lbl s' s'' ∧ Safe C post (k b) s'' := Iff.rfl

-- A judgement about a program is opened step by step, through these two; the elaborator must not
-- run the program to see what the judgement says.
attribute [irreducible] Safe

theorem Safe.weaken {post' : α → St → Prop} (hpost : ∀ a s, post a s → post' a s)
    (p : Prog Lbl St Env α) : ∀ s, Safe C post p s → Safe C post' p s := by
  induction p with
  | pure a =>
    intro s h
    rw [safe_pure_iff] at h ⊢
    exact fun s' hs => hpost _ _ (h s' hs)
  | act lbl f k ih =>
    intro s h
    rw [safe_act_iff] at h ⊢
    intro s' hs hok e b s'' hf
    obtain ⟨hguar, hrest⟩ := h s' hs hok e b s'' hf
    exact ⟨hguar, ih b s'' hrest⟩

theorem Safe.after (htrans : ∀ {a b c}, C.rely a b → C.rely b c → C.rely a c) {p : Prog Lbl St Env α} {s' : St}
    (h : Safe C post p s) (hs : C.rely s s') : Safe C post p s' := by
  cases p with
  | pure a =>
    rw [safe_pure_iff] at h ⊢
    exact fun s'' hs' => h s'' (htrans hs hs')
  | act lbl f k =>
    rw [safe_act_iff] at h ⊢
    exact fun s'' hs' => h s'' (htrans hs hs')

theorem Safe.bind (hrefl : ∀ s, C.rely s s) {post' : β → St → Prop} {p : Prog Lbl St Env α} {g : α → Prog Lbl St Env β}
    (h : Safe C post p s) (hg : ∀ a s', post a s' → Safe C post' (g a) s') : Safe C post' (p.bind g) s := by
  induction p generalizing s with
  | pure a =>
    rw [safe_pure_iff] at h
    exact hg a s (h s (hrefl s))
  | act lbl f k ih =>
    rw [safe_act_iff] at h
    rw [Prog.act_bind, safe_act_iff]
    intro s' hs hok e b s'' hf
    obtain ⟨hguar, hrest⟩ := h s' hs hok e b s'' hf
    exact ⟨hguar, ih b hrest⟩

end Safe

/-! ## Sequential programs -/

section Sequential

variable {Lbl St Env : Type} {α : Type}

/-- The contract of a program that runs alone and owes `crash` of every state it
passes through. -/
def alone (crash : St → Prop) : Contract Lbl St where
  rely := Eq
  ok := fun _ _ => True
  guar := fun _ _ s' => crash s'

variable {crash : St → Prop} {post : α → St → Prop} {s : St} {β : Type}

theorem Safe.act_alone {lbl : Lbl} {f : Env → St → Option (β × St)} {k : β → Prog Lbl St Env α}
    (h : ∀ e b s', f e s = some (b, s') → crash s' ∧ Safe (alone crash) post (k b) s') :
    Safe (alone crash) post (.act lbl f k) s := by
  rw [safe_act_iff]
  rintro s' rfl - e b s'' hf
  exact h e b s'' hf

theorem Safe.step_alone {lbl : Lbl} {f : Env → St → Option (β × St)} {k : β → Prog Lbl St Env α}
    (h : Safe (alone crash) post (.act lbl f k) s) :
    ∀ e b s', f e s = some (b, s') → crash s' ∧ Safe (alone crash) post (k b) s' := by
  rw [safe_act_iff] at h
  exact h s rfl trivial

theorem Safe.pure_alone {a : α} (h : post a s) : Safe (alone crash) post (.pure a : Prog Lbl St Env α) s := by
  rw [safe_pure_iff]
  rintro s' rfl
  exact h

variable {p : Prog Lbl St Env α}

theorem Safe.bind_alone {post' : β → St → Prop} {g : α → Prog Lbl St Env β} (h : Safe (alone crash) post p s)
    (hg : ∀ a s', post a s' → Safe (alone crash) post' (g a) s') : Safe (alone crash) post' (p.bind g) s :=
  Safe.bind (fun _ => rfl) h hg

theorem Safe.weaken_alone {crash' : St → Prop} (hcrash : ∀ s, crash s → crash' s) (p : Prog Lbl St Env α) :
    ∀ s, Safe (alone crash) post p s → Safe (alone crash') post p s := by
  induction p with
  | pure a =>
    intro s h
    rw [safe_pure_iff] at h ⊢
    exact h
  | act lbl f k ih =>
    intro s h
    refine Safe.act_alone ?_
    intro e b s' hf
    obtain ⟨hs', hrest⟩ := h.step_alone e b s' hf
    exact ⟨hcrash s' hs', ih b s' hrest⟩

theorem Safe.onFst {T : Type} (t : T) (p : Prog Lbl St Env α) : ∀ s, Safe (alone crash) post p s →
      Safe (alone fun w => crash w.1 ∧ w.2 = t) (fun a w => post a w.1 ∧ w.2 = t) p.onFst (s, t) := by
  induction p with
  | pure a =>
    intro s h
    rw [safe_pure_iff] at h
    exact Safe.pure_alone ⟨h s rfl, rfl⟩
  | act lbl f k ih =>
    intro s h
    refine Safe.act_alone ?_
    intro e b w hf
    obtain ⟨⟨b', s'⟩, hf', hw⟩ := Option.map_eq_some_iff.mp hf
    obtain ⟨rfl, rfl⟩ := Prod.mk.inj hw
    obtain ⟨hcrash, hrest⟩ := h.step_alone e b' s' hf'
    exact ⟨⟨hcrash, rfl⟩, ih b' s' hrest⟩

theorem Prog.exec_act {lbl : Lbl} {f : Env → St → Option (β × St)} {k : β → Prog Lbl St Env α} {es : List Env}
    {r : α × St} (h : (Prog.act lbl f k).exec es s = some r) :
    ∃ e es' b s', es = e :: es' ∧ f e s = some (b, s') ∧ (k b).exec es' s' = some r := by
  cases es with
  | nil => simp only [Prog.exec, reduceCtorEq] at h
  | cons e es =>
    simp only [Prog.exec] at h
    cases hf : f e s with
    | none => simp only [hf, reduceCtorEq] at h
    | some r' =>
      simp only [hf] at h
      exact ⟨e, es, r'.1, r'.2, rfl, hf, h⟩

theorem Safe.exec {es : List Env} {s' : St} {a : α} (h : Safe (alone crash) post p s)
    (hrun : p.exec es s = some (a, s')) : post a s' := by
  induction p generalizing es s with
  | pure b =>
    obtain ⟨rfl, rfl⟩ := by simpa only [Prog.exec, Option.some.injEq, Prod.mk.injEq] using hrun
    rw [safe_pure_iff] at h
    exact h s rfl
  | act lbl f k ih =>
    obtain ⟨e, es', b, s1, rfl, hf, hrest⟩ := Prog.exec_act hrun
    exact ih b (h.step_alone e b s1 hf).2 hrest

theorem Safe.haltAfter {es : List Env} (h : Safe (alone crash) post p s) (hs : crash s) : crash (p.haltAfter es s) := by
  induction p generalizing es s with
  | pure a => exact hs
  | act lbl f k ih =>
    cases es with
    | nil => exact hs
    | cons e es =>
      simp only [Prog.haltAfter]
      cases hf : f e s with
      | none => exact hs
      | some r =>
        obtain ⟨hcrash, hrest⟩ := h.step_alone e r.1 r.2 hf
        exact ih r.1 hrest hcrash

end Sequential

end TailscaleDart.Conc
