import TailscaleDart.Durable.Syscall

/-!
# Durable.Blind — programs that do not look at permission bits

A program that secures what it finds sets permission bits and reads them back. Run it twice, and the second
run starts from a disk that differs from the first one's in permission bits only. `Blind` says that such a
difference cannot be told from the result: both runs end, with the same value or the same error. A blind program
gives the same answer a second time.

Runs here are runs in which no call fails.
-/

namespace TailscaleDart.Durable

open Conc Disk

section Ends

variable {ε α β : Type} {d d' d'' : Disk}

/-- With no fault anywhere the program returns `r` and leaves `d'`. -/
def Ends (x : Fallible ε α) (d : Disk) (r : Except ε α) (d' : Disk) : Prop := x.run.always {} d = some (r, d')

variable {x : Fallible ε α}

theorem Runs.ends {a : α} (h : Runs x d a d') : Ends x d (.ok a) d' := h

theorem Ends.pure (a : α) : Ends (pure a : Fallible ε α) d (.ok a) d := rfl

theorem Ends.andThen {k : α → Fallible ε β} {a : α} {r : Except ε β} (hx : Ends x d (.ok a) d')
    (hk : Ends (k a) d' r d'') : Ends (x >>= k) d r d'' := by
  unfold Ends at hx hk ⊢
  rw [always_andThen, hx]
  exact hk

/-- An error is the end, whatever would have followed. -/
theorem Ends.stop {e : ε} (hx : Ends x d (.error e) d') (k : α → Fallible ε β) : Ends (x >>= k) d (.error e) d' := by
  unfold Ends at hx ⊢
  rw [always_andThen, hx]
  rfl

theorem Ends.attempt {wrap : Errno → ε} {f : Disk → Except Errno α × Disk} {r : Except Errno α}
    (h : f d = (r, d')) : Ends (Durable.attempt wrap (Durable.sysCall f)) d (r.mapError wrap) d' := by
  have hrun : (Durable.attempt wrap (Durable.sysCall f)).run.always {} d = some ((f d).1.mapError wrap, (f d).2) := rfl
  rw [Ends, hrun, h]

theorem always_sysCall (f : Disk → Except Errno α × Disk) (d : Disk) : (Durable.sysCall f).always {} d = some (f d) :=
  rfl

theorem Ends.result {call : Sys (Except Errno α)} {r : Except Errno α} (h : call.always {} d = some (r, d'))
    (g : Except Errno α → Except ε β) : Ends (ExceptT.mk (do return g (← call))) d (g r) d' := by
  have hrun : (ExceptT.mk (do return g (← call) : Sys (Except ε β))).run = call.bind fun r => .pure (g r) := rfl
  rw [Ends, hrun, Prog.always_bind, h]
  rfl

theorem Ends.refuse {p : Prop} [Decidable p] {err : ε} (hp : ¬ p) : Ends (Durable.require p err) d (.error err) d := by
  have hrun : Durable.require p err = (throw err : Fallible ε Unit) := if_neg hp
  rw [hrun]
  rfl

theorem Ends.wrapErr {wrap : ε → ε} {r : Except ε α} (h : Ends x d r d') :
    Ends (Durable.wrapErr wrap x) d (r.mapError wrap) d' := by
  unfold Ends at h ⊢
  have hrun : (Durable.wrapErr wrap x).run = x.run.bind fun r => .pure (r.mapError wrap) := rfl
  rw [hrun, Prog.always_bind, h]
  rfl

theorem Ends.lstat_absent {wrap : Errno → ε} {dir : Inode} {name : String} (h : d.lookup dir name = none) :
    Ends (Durable.attempt wrap (Durable.lstat dir name)) d (.error (wrap .notExist)) d := by
  refine .attempt (r := .error .notExist) ?_
  simp only [h]

/-- Without faults there is one way to end. -/
theorem Ends.unique {r r' : Except ε α} (h : Ends x d r d') (h' : Ends x d r' d'') :
    r = r' ∧ d' = d'' := Prod.mk.inj (Option.some.inj (h.symm.trans h'))

end Ends

theorem Disk.PermOnly.symm {d d' : Disk} (h : PermOnly d d') : PermOnly d' d := by
  refine ⟨h.1.symm, fun i => ?_⟩
  rw [h.2 i]

theorem Disk.PermOnly.stat {d d' : Disk} (h : PermOnly d d') (i : Inode) :
    d'.stat i = { d.stat i with perm := (d'.nodes i).perm } := by
  simp only [Disk.stat]
  rw [h.2 i]

/-- From two disks that differ in permission bits only the program ends in the same way, and changes nothing but
permission bits. -/
def Blind {ε α : Type} (x : Fallible ε α) : Prop :=
  ∀ d d', PermOnly d d' → ∃ r e e', Ends x d r e ∧ Ends x d' r e' ∧ PermOnly d e ∧ PermOnly d' e'

section Blind

variable {ε α β : Type} {x : Fallible ε α}

/-- It is enough to know how the program ends on every disk that differs in permission bits from a given one. -/
theorem Blind.of_ends (h : ∀ d, ∃ r, ∀ d', PermOnly d d' → ∃ e, Ends x d' r e ∧ PermOnly d' e) : Blind x := by
  intro d d' hd
  obtain ⟨r, hr⟩ := h d
  obtain ⟨e, hends, hperm⟩ := hr d (.refl d)
  obtain ⟨e', hends', hperm'⟩ := hr d' hd
  exact ⟨r, e, e', hends, hends', hperm, hperm'⟩

theorem Blind.pure (a : α) : Blind (pure a : Fallible ε α) :=
  fun d d' _ => ⟨_, d, d', .pure a, .pure a, .refl d, .refl d'⟩

/-- The second part starts from disks that still differ in permission bits only. -/
theorem Blind.andThen {k : α → Fallible ε β} (hx : Blind x) (hk : ∀ a, Blind (k a)) : Blind (x >>= k) := by
  intro d d' hd
  obtain ⟨r, e, e', hends, hends', hperm, hperm'⟩ := hx d d' hd
  cases r with
  | error err => exact ⟨_, e, e', hends.stop k, hends'.stop k, hperm, hperm'⟩
  | ok a =>
    obtain ⟨r, f, f', hrest, hrest', hf, hf'⟩ := hk a e e' ((hperm.symm.trans hd).trans hperm')
    exact ⟨r, f, f', hends.andThen hrest, hends'.andThen hrest', hperm.trans hf, hperm'.trans hf'⟩

theorem Blind.fromExcept (r : Except ε α) : Blind (Durable.fromExcept r) :=
  fun d d' _ => ⟨r, d, d', rfl, rfl, .refl d, .refl d'⟩

theorem Blind.require (p : Prop) [Decidable p] (err : ε) : Blind (Durable.require p err) := by
  unfold Durable.require
  split
  · exact .pure ()
  · exact .fromExcept (.error err)

theorem Blind.wrapErr {wrap : ε → ε} (hx : Blind x) : Blind (Durable.wrapErr wrap x) := by
  intro d d' hd
  obtain ⟨r, e, e', hends, hends', hperm⟩ := hx d d' hd
  exact ⟨_, e, e', hends.wrapErr, hends'.wrapErr, hperm⟩

theorem Blind.readDir {wrap : Errno → ε} (dir : Inode) : Blind (Durable.attempt wrap (Durable.readDir dir)) := by
  intro d d' hd
  refine ⟨_, d, d', .attempt rfl, .attempt ?_, .refl d, .refl d'⟩
  simp only [hd.names]

/-- Looking at a name, when what follows does not look at the permission bits. -/
theorem Blind.lstat {wrap : Errno → ε} {dir : Inode} {name : String} {k : Info → Fallible ε β}
    (hsame : ∀ info perm, k { info with perm := perm } = k info) (hk : ∀ info, Blind (k info)) :
    Blind (Durable.attempt wrap (Durable.lstat dir name) >>= k) := by
  intro d d' hd
  cases hi : d.lookup dir name with
  | none =>
    have hi' : d'.lookup dir name = none := (hd.lookup dir name).trans hi
    exact ⟨_, d, d', (Ends.lstat_absent hi).stop k, (Ends.lstat_absent hi').stop k, PermOnly.refl d, PermOnly.refl d'⟩
  | some i =>
    have hi' : d'.lookup dir name = some i := (hd.lookup dir name).trans hi
    obtain ⟨r, e, e', hends, hends', hperm⟩ := hk (d.stat i) d d' hd
    rw [← hsame (d.stat i) (d'.nodes i).perm, ← hd.stat i] at hends'
    exact ⟨r, e, e', (Runs.lstat hi).ends.andThen hends, (Runs.lstat hi').ends.andThen hends', hperm⟩

end Blind

end TailscaleDart.Durable
