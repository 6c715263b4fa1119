import Mathlib.Data.List.Induction

/-!
# Data.History — histories that grow by one entry at a time

A history is a list with its oldest entry first. `Always P` is a property of every entry in the light of the entries
before it, so it is kept by each new entry that meets `P` (`always_concat`), and it gives facts about every earlier
moment (`Always.throughout`).
-/

namespace TailscaleDart.Data

variable {α : Type} {P : List α → α → Prop} {log more : List α} {entry : α}

/-- Every entry of the history meets `P` in the light of the entries before it. -/
def Always (P : List α → α → Prop) (log : List α) : Prop :=
  ∀ before entry after, log = before ++ entry :: after → P before entry

theorem always_nil : Always P [] := by
  intro before entry after heq
  exact absurd heq (by simp)

theorem always_concat : Always P (log ++ [entry]) ↔ Always P log ∧ P log entry := by
  constructor
  · intro h
    refine ⟨fun before x after heq => h before x (after ++ [entry]) ?_, h log entry [] rfl⟩
    rw [heq]
    simp
  · rintro ⟨hlog, hentry⟩ before x after heq
    rcases List.eq_nil_or_concat after with rfl | ⟨after, last, rfl⟩
    · obtain ⟨rfl, hx⟩ := List.append_inj' heq rfl
      cases hx
      exact hentry
    · rw [List.concat_eq_append, ← List.cons_append, ← List.append_assoc] at heq
      exact hlog before x after (List.append_inj' heq rfl).1

theorem Always.mono {Q : List α → α → Prop} (h : Always P log) (hPQ : ∀ before entry, P before entry → Q before entry) :
    Always Q log :=
  fun before entry after heq => hPQ before entry (h before entry after heq)

/-- Entries that meet `P` whatever came before them. -/
theorem Always.append (h : Always P log) (hmore : ∀ entry ∈ more, ∀ before, P before entry) :
    Always P (log ++ more) := by
  induction more generalizing log with
  | nil =>
    rw [List.append_nil]
    exact h
  | cons entry more ih =>
    rw [← List.singleton_append, ← List.append_assoc]
    have hnext : Always P (log ++ [entry]) := always_concat.mpr ⟨h, hmore entry (.head _) log⟩
    exact ih hnext fun x hx => hmore x (.tail entry hx)

/-- What holds of the empty history and is kept by entries that meet `P` holds at every moment. -/
theorem Always.throughout {Q : List α → Prop} (h : Always P log) (hnil : Q [])
    (hstep : ∀ before entry, P before entry → Q before → Q (before ++ [entry])) {before : List α}
    (hbefore : before <+: log) : Q before := by
  induction before using List.reverseRecOn with
  | nil => exact hnil
  | append_singleton before entry ih =>
    have hentry : P before entry := by
      obtain ⟨after, rfl⟩ := hbefore
      exact h before entry after (by simp)
    exact hstep before entry hentry (ih ((List.prefix_append before [entry]).trans hbefore))

end TailscaleDart.Data
