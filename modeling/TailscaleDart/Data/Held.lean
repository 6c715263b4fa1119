import Mathlib.Data.List.Basic

/-!
# Data.Held — counting what the holders of a list hold

Each holder of a list holds some things; `held f holders x` is how often `x` is held among all of them. A
conservation law ("every descriptor is in exactly one place") is one equation between such counts, and a step
that changes one holder changes its count by what that holder gave up and took (`held_set`), so that the law
after a step is linear arithmetic.
-/

namespace TailscaleDart.Data

variable {α β : Type} [DecidableEq β] {f : α → List β} {holders : List α} {x : β}

/-- How often `x` is held, by all holders together. -/
def held (f : α → List β) (holders : List α) (x : β) : Nat := (holders.flatMap f).count x

@[simp] theorem held_nil : held f [] x = 0 := rfl

@[simp] theorem held_cons (a : α) : held f (a :: holders) x = (f a).count x + held f holders x := by
  rw [held, List.flatMap_cons, List.count_append, held]

@[simp] theorem held_append (more : List α) : held f (holders ++ more) x = held f holders x + held f more x := by
  rw [held, List.flatMap_append, List.count_append, held, held]

/-- One holder's change, as an equation without subtraction. -/
theorem held_set {i : Nat} {a : α} (h : holders[i]? = some a) (b : α) (x : β) :
    held f (holders.set i b) x + (f a).count x = held f holders x + (f b).count x := by
  induction holders generalizing i with
  | nil => cases h
  | cons c holders ih =>
    cases i with
    | zero =>
      cases h
      simp only [List.set_cons_zero, held_cons]
      omega
    | succ i =>
      have hrest := ih (i := i) h
      simp only [List.set_cons_succ, held_cons]
      omega

theorem held_eq_zero (h : ∀ a ∈ holders, f a = []) : held f holders x = 0 := by
  rw [held, List.flatMap_eq_nil_iff.mpr h, List.count_nil]

theorem count_le_held [DecidableEq α] {a : α} (h : x ∈ f a) : holders.count a ≤ held f holders x := by
  induction holders with
  | nil => exact Nat.zero_le _
  | cons b holders ih =>
    rw [List.count_cons, held_cons]
    split
    case isTrue heq =>
      obtain rfl : b = a := by simpa using heq
      have hone : 0 < (f b).count x := List.count_pos_iff.mpr h
      omega
    case isFalse => omega

/-! ## Things named in the order of their creation -/

/-- How many of `x` there are, when the first `next` have been made. -/
def created (next x : Nat) : Nat := if x < next then 1 else 0

theorem created_le (next x : Nat) : created next x ≤ 1 := by
  unfold created
  split <;> decide

theorem created_succ (next x : Nat) : created (next + 1) x = created next x + [next].count x := by
  rw [List.count_singleton]
  unfold created
  split <;> split <;> split <;> simp_all <;> omega

end TailscaleDart.Data
