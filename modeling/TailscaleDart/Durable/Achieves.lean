import TailscaleDart.Durable.Syscall

/-!
# Durable.Achieves — an invariant throughout, and what a success says

`Achieves I post x d`: run from `d` the program keeps the invariant `I` at every step, whichever calls fail, and
where it returns a value that value and the disk satisfy `post`. The two halves of a verification of a program
that may fail anywhere are so proved in one pass. One rule for each call, and one for the sequence.
-/

namespace TailscaleDart.Durable

open Conc Disk

/-- The invariant holds throughout and the postcondition on success. -/
def Achieves {ε α : Type} (I : Disk → Prop) (post : α → Disk → Prop) (x : Fallible ε α) (d : Disk) : Prop :=
  Safe (alone I) (fun r d' => I d' ∧ OnOk post r d') x.run d

section Rules

variable {ε α β : Type} {I : Disk → Prop} {d : Disk}

theorem Achieves.pure {post : α → Disk → Prop} {a : α} (hd : I d) (h : post a d) :
    Achieves I post (pure a : Fallible ε α) d := .pure_alone ⟨hd, h⟩

variable {err : ε}

theorem Achieves.throw {post : α → Disk → Prop} (hd : I d) :
    Achieves I post (throw err : Fallible ε α) d := .pure_alone ⟨hd, trivial⟩

variable {post : β → Disk → Prop} {k : α → Fallible ε β} {x : Fallible ε α}

/-- Sequencing; a failure of the first part ends the program, and needs the invariant only. -/
theorem Achieves.andThen {Q : α → Disk → Prop} (hx : Achieves I Q x d)
    (hk : ∀ a d', I d' → Q a d' → Achieves I post (k a) d') : Achieves I post (x >>= k) d := by
  apply Safe.andThen
  apply Safe.weaken _ _ _ hx
  rintro r d' ⟨hd', hr⟩
  cases r with
  | ok a => exact hk a d' hd' hr
  | error e => exact ⟨hd', trivial⟩

theorem Achieves.weaken {post post' : α → Disk → Prop} (hx : Achieves I post x d)
    (h : ∀ a d', I d' → post a d' → post' a d') : Achieves I post' x d := by
  apply Safe.weaken _ _ _ hx
  rintro r d' ⟨hd', hr⟩
  cases r with
  | ok a => exact ⟨hd', h a d' hd' hr⟩
  | error e => exact ⟨hd', trivial⟩

/-- After a check the program knows what was checked. -/
theorem Achieves.require {p : Prop} [Decidable p] {k : Unit → Fallible ε β}
    (hd : I d) (hk : p → Achieves I post (k ()) d) : Achieves I post (Durable.require p err >>= k) d :=
  Safe.require (fun _ => ⟨hd, trivial⟩) hk

theorem Achieves.fromExcept {r : Except ε α} (hd : I d)
    (hk : ∀ a, r = .ok a → Achieves I post (k a) d) : Achieves I post (Durable.fromExcept r >>= k) d := by
  cases r with
  | ok a => exact hk a rfl
  | error e => exact .throw hd

theorem Achieves.wrapErr {post : α → Disk → Prop} {wrap : ε → ε} (hx : Achieves I post x d) :
    Achieves I post (Durable.wrapErr wrap x) d := by
  apply Safe.bind_alone hx
  rintro r d' ⟨hd', hr⟩
  cases r with
  | ok a => exact .pure_alone ⟨hd', hr⟩
  | error e => exact .pure_alone ⟨hd', trivial⟩

variable {wrap : Errno → ε}

/-- One call that fails without an effect, and the program after it. -/
theorem Achieves.call {f : Disk → Except Errno α × Disk} (hd : I d) (hquiet : ∀ e d', f d = (.error e, d') → d' = d)
    (hok : ∀ a d', f d = (.ok a, d') → I d' ∧ Achieves I post (k a) d') :
    Achieves I post (Durable.attempt wrap (Durable.sysCall f) >>= k) d :=
  Safe.call hd (fun _ => ⟨hd, trivial⟩) hquiet hok

/-- A part that only looks, when nothing is kept of what it saw. -/
theorem Achieves.look (hx : Neutral x.run) (hd : I d)
    (hk : ∀ a, Achieves I post (k a) d) : Achieves I post (x >>= k) d :=
  Safe.pass hx hd (fun _ => ⟨hd, trivial⟩) hk

variable {dir : Inode}

theorem Achieves.lstat {name : String} {k : Info → Fallible ε β}
    (hd : I d) (hk : ∀ i, d.lookup dir name = some i → Achieves I post (k (d.stat i)) d) :
    Achieves I post (Durable.attempt wrap (Durable.lstat dir name) >>= k) d :=
  Safe.lstat hd (fun _ => ⟨hd, trivial⟩) hk

theorem Achieves.openAt {name : String} {k : Inode → Fallible ε β}
    (hd : I d) (hk : ∀ i, d.lookup dir name = some i → Achieves I post (k i) d) :
    Achieves I post (Durable.attempt wrap (Durable.openAt dir name) >>= k) d := by
  apply Achieves.call hd
  · intro e d' hf
    split at hf
    · cases hf
    · exact (Prod.mk.inj hf).2.symm
  · intro i d' hf
    split at hf
    case h_1 _ hj =>
      obtain ⟨hok, rfl⟩ := Prod.mk.inj hf
      cases hok
      exact ⟨hd, hk i hj⟩
    case h_2 => cases hf

theorem Achieves.fchmod {i : Inode} {perm : Nat} {k : Unit → Fallible ε β}
    (hd : I d) (hset : I (d.setPerm i perm)) (hk : Achieves I post (k ()) (d.setPerm i perm)) :
    Achieves I post (Durable.attempt wrap (Durable.fchmod i perm) >>= k) d := by
  apply Achieves.call hd (fun _ _ hf => by cases hf)
  rintro - d' ⟨⟩
  exact ⟨hset, hk⟩

theorem Achieves.readDir {k : List String → Fallible ε β}
    (hd : I d) (hk : Achieves I post (k (d.names dir)) d) :
    Achieves I post (Durable.attempt wrap (Durable.readDir dir) >>= k) d := by
  apply Achieves.call hd (fun _ _ hf => by cases hf)
  rintro names d' ⟨⟩
  exact ⟨hd, hk⟩

theorem Achieves.readsDir {post : List String → Disk → Prop} (hd : I d)
    (h : post (d.names dir) d) :
    Achieves I post (Durable.attempt wrap (Durable.readDir dir)) d :=
  Safe.attempt (Safe.sysCall (fun _ => ⟨hd, trivial⟩) hd ⟨hd, hd, h⟩)

theorem Achieves.readAll {i : Inode} {limit : Nat}
    {k : List UInt8 → Fallible ε β} (hd : I d) (hk : Achieves I post (k ((d.nodes i).content.take limit)) d) :
    Achieves I post (Durable.attempt wrap (Durable.readAll i limit) >>= k) d := by
  apply Achieves.call hd (fun _ _ hf => by cases hf)
  rintro raw d' ⟨⟩
  exact ⟨hd, hk⟩

/-- A call whose result is looked at as it is, failures included. -/
theorem Achieves.result {f : Disk → Except Errno α × Disk} {g : Except Errno α → Except ε β}
    (hd : I d) (hfault : ∀ code b, g (.error (.fault code)) = .ok b → post b d)
    (hok : I (f d).2 ∧ ∀ b, g (f d).1 = .ok b → post b (f d).2) :
    Achieves I post (ExceptT.mk (do return g (← Durable.sysCall f))) d := by
  have hpost : ∀ {r : Except ε β} {d' : Disk}, I d' → (∀ b, r = .ok b → post b d') → I d' ∧ OnOk post r d' := by
    intro r d' hd' hr
    cases r with
    | ok b => exact ⟨hd', hr b rfl⟩
    | error e => exact ⟨hd', trivial⟩
  have hcall : Safe (alone I) (fun r d' => I d' ∧ ∀ b, g r = .ok b → post b d') (Durable.sysCall f) d :=
    Safe.sysCall (fun code => ⟨hd, hfault code⟩) hd ⟨hok.1, hok⟩
  apply Safe.bind_alone hcall
  intro r d' hr
  exact .pure_alone (hpost hr.1 hr.2)

theorem Achieves.requires {p : Prop} [Decidable p] {post : Unit → Disk → Prop} (hd : I d) (h : p → post () d) :
    Achieves I post (Durable.require p err) d := by
  unfold Durable.require
  split
  case isTrue hp => exact .pure hd (h hp)
  case isFalse => exact .throw hd

end Rules

end TailscaleDart.Durable
