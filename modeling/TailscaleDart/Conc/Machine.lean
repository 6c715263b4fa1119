import Mathlib.Data.Option.Basic

/-!
# Conc.Machine — machines that take one action after another

A machine is a step function `S → A → Option S`; an action that is not enabled gives no state. `Reachable step ok s0`
are the states of the runs from `s0` whose actions all meet `ok` in the state before them, so that a property of all
runs is the case where `ok` asks nothing. `Reachable.invariant` is the induction over a run, `Reachable.follow` follows
a given list of actions.
-/

namespace TailscaleDart.Conc.Machine

variable {S A : Type} {step : S → A → Option S} {ok : A → S → Prop} {s0 : S}

/-- The states of the runs from `s0` whose actions meet `ok`. -/
inductive Reachable (step : S → A → Option S) (ok : A → S → Prop) (s0 : S) : S → Prop
  | start : Reachable step ok s0 s0
  | next {s s' : S} (h : Reachable step ok s0 s) (a : A) (hok : ok a s) (hstep : step s a = some s') :
      Reachable step ok s0 s'

@[elab_as_elim]
theorem Reachable.invariant {inv : S → Prop} {s : S} (h : Reachable step ok s0 s) (hstart : inv s0)
    (hnext : ∀ s a s', inv s → ok a s → step s a = some s' → inv s') : inv s := by
  induction h with
  | start => exact hstart
  | next _ a hok hstep ih => exact hnext _ a _ ih hok hstep

/-- A run that goes on from where another ended. -/
theorem Reachable.trans {s s' : S} (h : Reachable step ok s0 s) (g : Reachable step ok s s') :
    Reachable step ok s0 s' := by
  induction g with
  | start => exact h
  | next _ a hok hstep ih => exact ih.next a hok hstep

theorem Reachable.mono {ok' : A → S → Prop} (hmono : ∀ a s, ok a s → ok' a s) {s : S} (h : Reachable step ok s0 s) :
    Reachable step ok' s0 s := by
  induction h with
  | start => exact .start
  | next _ a hok hstep ih => exact ih.next a (hmono a _ hok) hstep

/-- Follow a list of actions that all pass the check. -/
def follow (step : S → A → Option S) (check : A → S → Bool) (s : S) : List A → Option S
  | [] => some s
  | a :: rest => if check a s then (step s a).bind fun s' => follow step check s' rest else none

theorem Reachable.follow {check : A → S → Bool} (hcheck : ∀ a s, check a s = true → ok a s) {actions : List A}
    {s s' : S} (h : Reachable step ok s0 s) (hrun : follow step check s actions = some s') :
    Reachable step ok s0 s' := by
  induction actions generalizing s with
  | nil =>
    cases hrun
    exact h
  | cons a rest ih =>
    simp only [Machine.follow] at hrun
    split at hrun
    case isTrue hok =>
      obtain ⟨next, hstep, hrest⟩ := Option.bind_eq_some_iff.mp hrun
      exact ih (h.next a (hcheck a s hok) hstep) hrest
    case isFalse => cases hrun

end TailscaleDart.Conc.Machine
