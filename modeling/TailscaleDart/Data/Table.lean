import Mathlib.Data.Finmap

/-!
# Data.Table — finite maps whose values all have one type

Mathlib's `Finmap` allows the type of a value to depend on its key. For the tables of a program it does not, and what a
lookup finds after an update can be said by one equation.
-/

namespace TailscaleDart.Data

variable {κ ν : Type} [DecidableEq κ] {table : Finmap fun _ : κ => ν}

theorem lookup_insert_ite (table : Finmap fun _ : κ => ν) (k key : κ) (v : ν) :
    (table.insert k v).lookup key = if key = k then some v else table.lookup key := by
  by_cases hkey : key = k
  · subst hkey
    rw [if_pos rfl, Finmap.lookup_insert]
  · rw [if_neg hkey, Finmap.lookup_insert_of_ne _ hkey]

theorem lookup_erase_ite (table : Finmap fun _ : κ => ν) (k key : κ) :
    (table.erase k).lookup key = if key = k then none else table.lookup key := by
  by_cases hkey : key = k
  · subst hkey
    rw [if_pos rfl, Finmap.lookup_erase]
  · rw [if_neg hkey, Finmap.lookup_erase_ne hkey]

/-- What is found in a table after an erasure was there before, under another key. -/
theorem lookup_of_erase {k key : κ} {v : ν} (h : (table.erase k).lookup key = some v) :
    key ≠ k ∧ table.lookup key = some v := by
  rw [lookup_erase_ite] at h
  split at h
  · cases h
  · next hkey => exact ⟨hkey, h⟩

/-- One entry is enough, wherever the fold meets it. -/
theorem any_of_lookup {f : κ → ν → Bool} {k : κ} {v : ν} (h : table.lookup k = some v) (hf : f k v = true) :
    table.any f = true := by
  have hcomm : RightCommutative fun (b : Bool) (s : Sigma fun _ : κ => ν) => b || f s.1 s.2 :=
    ⟨fun b s s' => Bool.or_right_comm b (f s.1 s.2) (f s'.1 s'.2)⟩
  have hstays : ∀ l : Multiset (Sigma fun _ : κ => ν), l.foldl (fun b s => b || f s.1 s.2) true = true := by
    intro l
    induction l using Multiset.induction with
    | empty => rfl
    | cons s l ih => rw [Multiset.foldl_cons, Bool.true_or, ih]
  obtain ⟨rest, hrest⟩ := Multiset.exists_cons_of_mem (Finmap.mem_lookup_iff.mp h)
  unfold Finmap.any Finmap.foldl
  rw [hrest, Multiset.foldl_cons]
  show rest.foldl (fun b s => b || f s.1 s.2) (false || f k v) = true
  rw [hf]
  exact hstays rest

end TailscaleDart.Data
