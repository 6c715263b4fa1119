import TailscaleDart.Conc.Prog
import TailscaleDart.Durable.Disk

/-!
# Durable.Syscall — programs that call the file system

Every call is one atomic step on the disk. The environment's answer to a step may be a fault, and
then the call reports an error and has no effect; a write is the exception, it may leave any part
of what it was given. A descriptor is the inode it was opened on.

A program that returns early on an error is an `ExceptT` program over these steps. `Safe.call` and
`Safe.pass` are the two rules such a program is verified with: a call that changes the disk, and a part
that does not, each with the rest of the program behind it.
-/

namespace TailscaleDart.Durable

open Conc

inductive Errno where
  | notExist
  | exist
  | notEmpty
  /-- Any other failure; it says nothing about the disk. -/
  | fault (code : Nat)
  deriving DecidableEq, Repr

structure Answer where
  fault : Option Nat := none
  /-- How much of its argument a write call takes. -/
  count : Nat := 0
  /-- What a random source gives. -/
  bytes : List UInt8 := []
  /-- What a listing that runs while the directory changes gives. -/
  names : List String := []

abbrev Sys (α : Type) := Prog Unit Disk Answer α

/-- A Go `os.FileInfo`. -/
structure Info where
  inode : Inode
  kind : Kind
  owned : Bool
  perm : Nat
  size : Nat
  device : Nat
  deriving DecidableEq, Repr

/-- `os.SameFile`. -/
def sameFile (a b : Info) : Bool := a.inode = b.inode

def Disk.stat (d : Disk) (i : Inode) : Info where
  inode := i
  kind := (d.nodes i).kind
  owned := (d.nodes i).owned
  perm := (d.nodes i).perm
  size := (d.nodes i).content.length
  device := (d.nodes i).device

/-! ## The calls -/

/-- A call that a fault stops before it has any effect. -/
def sysCall {α : Type} (f : Disk → Except Errno α × Disk) : Sys (Except Errno α) :=
  Prog.step () fun ans d => some (match ans.fault with
    | some code => (.error (.fault code), d)
    | none => f d)

def lstat (dir : Inode) (name : String) : Sys (Except Errno Info) :=
  sysCall fun d => match d.lookup dir name with
    | some i => (.ok (d.stat i), d)
    | none => (.error .notExist, d)

/-- `os.Open`: a descriptor for reading. -/
def openAt (dir : Inode) (name : String) : Sys (Except Errno Inode) :=
  sysCall fun d => match d.lookup dir name with
    | some i => (.ok i, d)
    | none => (.error .notExist, d)

/-- The error codes a program looks at: not a directory, is a directory, too many symbolic links. -/
def enotdir : Nat := 20
def eisdir : Nat := 21
def eloop : Nat := 40

/-- `openat` with `O_NOFOLLOW`. -/
def openNoFollow (dir : Inode) (name : String) : Sys (Except Errno Inode) :=
  sysCall fun d => match d.lookup dir name with
    | some i => if (d.nodes i).kind = .symlink then (.error (.fault eloop), d) else (.ok i, d)
    | none => (.error .notExist, d)

/-- `openat` with `O_DIRECTORY|O_NOFOLLOW`. -/
def openDirectory (dir : Inode) (name : String) : Sys (Except Errno Inode) :=
  sysCall fun d => match d.lookup dir name with
    | some i => if (d.nodes i).kind = .directory then (.ok i, d) else (.error (.fault enotdir), d)
    | none => (.error .notExist, d)

/-- `os.Open` on a directory the caller knows to be there. -/
def openDir (_ : Inode) : Sys (Except Errno Unit) := sysCall fun d => (.ok (), d)

/-- `os.OpenFile` with `O_CREATE|O_EXCL`: the file is new. -/
def openExcl (dir : Inode) (name : String) (perm : Nat) : Sys (Except Errno Inode) :=
  sysCall fun d => match d.lookup dir name with
    | some _ => (.error .exist, d)
    | none => (.ok d.next, d.create dir name { kind := .regular, owned := true, perm := perm, stable := false })

def mkdirAt (dir : Inode) (name : String) (perm : Nat) : Sys (Except Errno Unit) :=
  sysCall fun d => match d.lookup dir name with
    | some _ => (.error .exist, d)
    | none => (.ok (), d.create dir name { kind := .directory, owned := true, perm := perm })

def fstat (i : Inode) : Sys (Except Errno Info) := sysCall fun d => (.ok (d.stat i), d)

def fchmod (i : Inode) (perm : Nat) : Sys (Except Errno Unit) := sysCall fun d => (.ok (), d.setPerm i perm)

def fsync (i : Inode) : Sys (Except Errno Unit) := sysCall fun d => (.ok (), d.syncContent i)

def fsyncDir (dir : Inode) : Sys (Except Errno Unit) := sysCall fun d => (.ok (), d.syncEntries dir)

def close (_ : Inode) : Sys (Except Errno Unit) := sysCall fun d => (.ok (), d)

/-- Append to the file. A fault may come after part of the bytes, and so may a short count. -/
def write (i : Inode) (bytes : List UInt8) : Sys (Except Errno Nat) :=
  Prog.step () fun ans d =>
    let written := bytes.take ans.count
    some (match ans.fault with
      | some code => .error (.fault code)
      | none => .ok written.length, d.setContent i ((d.nodes i).content ++ written))

def readAll (i : Inode) (limit : Nat) : Sys (Except Errno (List UInt8)) :=
  sysCall fun d => (.ok ((d.nodes i).content.take limit), d)

def readDir (dir : Inode) : Sys (Except Errno (List String)) :=
  sysCall fun d => (.ok (d.names dir), d)

def renameAt (dir : Inode) (source target : String) : Sys (Except Errno Unit) :=
  sysCall fun d => match d.lookup dir source with
    | some _ => (.ok (), d.rename dir source target)
    | none => (.error .notExist, d)

/-- `os.Remove`: unlink a file, or remove an empty directory. -/
def removeAt (dir : Inode) (name : String) : Sys (Except Errno Unit) :=
  sysCall fun d => match d.lookup dir name with
    | none => (.error .notExist, d)
    | some i =>
      if (d.nodes i).kind = .directory ∧ (d.nodes i).entries.isEmpty = false then (.error .notEmpty, d)
      else (.ok (), d.setEntry dir name none)

/-- `unlinkat` of something that is not a directory. -/
def unlinkAt (dir : Inode) (name : String) : Sys (Except Errno Unit) :=
  sysCall fun d => match d.lookup dir name with
    | none => (.error .notExist, d)
    | some i =>
      if (d.nodes i).kind = .directory then (.error (.fault eisdir), d) else (.ok (), d.setEntry dir name none)

/-- `unlinkat` with `AT_REMOVEDIR`: an empty directory. -/
def rmdirAt (dir : Inode) (name : String) : Sys (Except Errno Unit) :=
  sysCall fun d => match d.lookup dir name with
    | none => (.error .notExist, d)
    | some i =>
      if (d.nodes i).kind ≠ .directory then (.error (.fault enotdir), d)
      else if (d.nodes i).entries.isEmpty = false then (.error .notEmpty, d)
      else (.ok (), d.setEntry dir name none)

/-- Names read from a directory that is being changed: any names, in any order. -/
def readNames (_ : Inode) : Sys (Except Errno (List String)) :=
  Prog.step () fun ans d => some (match ans.fault with
    | some code => .error (.fault code)
    | none => .ok ans.names, d)

/-- A source of random bytes. -/
def readRandom : Sys (Except Errno (List UInt8)) :=
  Prog.step () fun ans d => some (match ans.fault with
    | some code => .error (.fault code)
    | none => .ok ans.bytes, d)

/-- A hook of the program's owner, which may report any failure. -/
def hook : Sys (Except Errno Unit) := sysCall fun d => (.ok (), d)

/-! ## Early return -/

/-- Programs that stop at the first error. -/
abbrev Fallible (ε α : Type) := ExceptT ε (Prog Unit Disk Answer) α

section Rules

variable {ε α β : Type}

/-- A call whose error is returned, wrapped as the caller does it. -/
def attempt (wrap : Errno → ε) (call : Sys (Except Errno α)) : Fallible ε α :=
  ExceptT.mk (call.bind fun r => .pure (r.mapError wrap))

/-- Return early unless a condition holds. -/
def require (p : Prop) [Decidable p] (err : ε) : Fallible ε Unit :=
  if p then pure () else throw err

/-- Return early with the error of a pure computation. -/
def fromExcept (r : Except ε α) : Fallible ε α := ExceptT.mk (.pure r)

/-- Do something only in one case. -/
def doIf (b : Bool) (x : Fallible ε Unit) : Fallible ε Unit := if b then x else pure ()

/-- Give an error that is returned early another form. -/
def wrapErr (wrap : ε → ε) (x : Fallible ε α) : Fallible ε α :=
  ExceptT.mk (x.run.bind fun r => .pure (r.mapError wrap))

/-- What is asked of a program that may still run: the early return has its postcondition, and after a
value the rest of the program is safe. -/
def Rest (crash : Disk → Prop) (post : Except ε β → Disk → Prop) (k : α → Fallible ε β) : Except ε α → Disk → Prop
  | .ok a, d => Safe (alone crash) post (k a).run d
  | .error e, d => post (.error e) d

variable {crash : Disk → Prop} {d : Disk} {post : Except ε β → Disk → Prop}

theorem Safe.andThen {x : Fallible ε α} {k : α → Fallible ε β}
    (h : Safe (alone crash) (Rest crash post k) x.run d) : Safe (alone crash) post (x >>= k).run d := by
  refine .bind_alone h ?_
  intro r d' hr
  cases r with
  | ok a => exact hr
  | error e => exact .pure_alone hr

theorem Safe.sysCall {post : Except Errno α → Disk → Prop} {f : Disk → Except Errno α × Disk}
    (hfault : ∀ code, post (.error (.fault code)) d) (hcrash : crash d)
    (hok : crash (f d).2 ∧ post (f d).1 (f d).2) : Safe (alone crash) post (sysCall f) d := by
  refine .act_alone ?_
  intro ans r d' hf
  cases hans : ans.fault with
  | none =>
    simp only [hans, Option.some.injEq] at hf
    rw [hf] at hok
    exact ⟨hok.1, .pure_alone hok.2⟩
  | some code =>
    simp only [hans, Option.some.injEq, Prod.mk.injEq] at hf
    obtain ⟨rfl, rfl⟩ := hf
    exact ⟨hcrash, .pure_alone (hfault code)⟩

variable {wrap : Errno → ε}

theorem Safe.attempt {post : Except ε α → Disk → Prop} {call : Sys (Except Errno α)}
    (h : Safe (alone crash) (fun r => post (r.mapError wrap)) call d) :
    Safe (alone crash) post (attempt wrap call).run d := by
  refine .bind_alone h ?_
  intro r d' hr
  exact .pure_alone hr

/-- One call that fails without an effect, and the program after it. -/
theorem Safe.call {f : Disk → Except Errno α × Disk} {k : α → Fallible ε β} (hcrash : crash d)
    (herror : ∀ e, post (.error e) d) (hquiet : ∀ e d', f d = (.error e, d') → d' = d)
    (hok : ∀ a d', f d = (.ok a, d') → crash d' ∧ Safe (alone crash) post (k a).run d') :
    Safe (alone crash) post (Durable.attempt wrap (Durable.sysCall f) >>= k).run d := by
  refine Safe.andThen (Safe.attempt (Safe.sysCall (fun code => herror _) hcrash ?_))
  cases hf : f d with
  | mk r d' =>
    cases r with
    | ok a => exact hok a d' hf
    | error e =>
      obtain rfl := hquiet e d' hf
      exact ⟨hcrash, herror _⟩

/-- A write leaves some part of its bytes in the file, whatever it reports. -/
theorem Safe.write {i : Inode} {bytes : List UInt8} {k : Nat → Fallible ε β}
    (h : ∀ n, crash (d.setContent i ((d.nodes i).content ++ bytes.take n)) ∧
      (∀ e, post (.error e) (d.setContent i ((d.nodes i).content ++ bytes.take n))) ∧
      Safe (alone crash) post (k (bytes.take n).length).run (d.setContent i ((d.nodes i).content ++ bytes.take n))) :
    Safe (alone crash) post (Durable.attempt wrap (Durable.write i bytes) >>= k).run d := by
  refine Safe.andThen (Safe.attempt (Safe.act_alone ?_))
  intro ans r d' hf
  obtain ⟨hcrash, herror, hok⟩ := h ans.count
  cases hf
  refine ⟨hcrash, Safe.pure_alone ?_⟩
  cases ans.fault with
  | none => exact hok
  | some code => exact herror _

theorem Safe.require {p : Prop} [Decidable p] {err : ε} {k : Unit → Fallible ε β} (herror : ¬ p → post (.error err) d)
    (hok : p → Safe (alone crash) post (k ()).run d) : Safe (alone crash) post (Durable.require p err >>= k).run d := by
  by_cases hp : p
  · have hrun : Durable.require p err = (pure () : Fallible ε Unit) := if_pos hp
    rw [hrun]
    exact hok hp
  · have hrun : Durable.require p err = (throw err : Fallible ε Unit) := if_neg hp
    rw [hrun]
    exact .pure_alone (herror hp)

end Rules

/-! ## Programs that leave the disk alone -/

/-- Whatever the environment answers, the program does not change the disk. -/
def Neutral {α : Type} (p : Sys α) : Prop := ∀ d, Safe (alone (· = d)) (fun _ d' => d' = d) p d

section Neutral

variable {ε α β : Type}

theorem Neutral.safe {p : Sys α} (h : Neutral p) {crash : Disk → Prop} {post : α → Disk → Prop} {d : Disk}
    (hcrash : crash d) (hpost : ∀ a, post a d) : Safe (alone crash) post p d := by
  have hgo : ∀ (q : Sys α), Safe (alone (· = d)) (fun _ d' => d' = d) q d → Safe (alone crash) post q d := by
    intro q
    induction q with
    | pure a =>
      intro _
      exact .pure_alone (hpost a)
    | act lbl f k ih =>
      intro hq
      refine .act_alone ?_
      intro e b d' hf
      obtain ⟨hd, hk⟩ := hq.step_alone e b d' hf
      have hd' : d' = d := hd
      subst hd'
      exact ⟨hcrash, ih b hk⟩
  exact hgo p (h d)

theorem Neutral.pure (a : α) : Neutral (.pure a) := fun _ => .pure_alone rfl

theorem Neutral.bind {p : Sys α} {g : α → Sys β} (hp : Neutral p) (hg : ∀ a, Neutral (g a)) : Neutral (p.bind g) := by
  intro d
  refine .bind_alone (hp d) ?_
  intro a d' hd
  subst hd
  exact hg a d'

theorem Neutral.sysCall {f : Disk → Except Errno α × Disk} (hf : ∀ d, (f d).2 = d) : Neutral (sysCall f) := by
  intro d
  refine Safe.sysCall (fun _ => rfl) rfl ?_
  rw [hf]
  exact ⟨rfl, rfl⟩

variable {x : Fallible ε α}

theorem Neutral.andThen {k : α → Fallible ε β} (hx : Neutral x.run)
    (hk : ∀ a, Neutral (k a).run) : Neutral (x >>= k).run := by
  refine .bind hx ?_
  intro r
  cases r with
  | ok a => exact hk a
  | error e => exact .pure _

theorem Neutral.attempt {wrap : Errno → ε} {call : Sys (Except Errno α)} (h : Neutral call) :
    Neutral (attempt wrap call).run :=
  Neutral.bind h fun _ => .pure _

theorem Neutral.require (p : Prop) [Decidable p] (err : ε) : Neutral (require p err).run := by
  unfold Durable.require
  split
  · exact .pure _
  · exact .pure _

theorem Neutral.wrapErr {wrap : ε → ε} (h : Neutral x.run) : Neutral (wrapErr wrap x).run :=
  Neutral.bind h fun _ => .pure _

/-- A part that leaves the disk alone, and the program after it. -/
theorem Safe.pass {crash : Disk → Prop} {post : Except ε β → Disk → Prop} {k : α → Fallible ε β} {d : Disk}
    (hx : Neutral x.run) (hcrash : crash d) (herror : ∀ e, post (.error e) d)
    (hok : ∀ a, Safe (alone crash) post (k a).run d) : Safe (alone crash) post (x >>= k).run d := by
  refine Safe.andThen (hx.safe hcrash ?_)
  intro r
  cases r with
  | ok a => exact hok a
  | error e => exact herror e

theorem lstat_neutral (dir : Inode) (name : String) : Neutral (lstat dir name) := by
  refine .sysCall ?_
  intro d
  cases d.lookup dir name <;> rfl

theorem fstat_neutral (i : Inode) : Neutral (fstat i) := .sysCall fun _ => rfl

theorem readRandom_neutral : Neutral readRandom := by
  intro d
  refine .act_alone ?_
  intro ans r d' hf
  obtain ⟨-, rfl⟩ := Prod.mk.inj (Option.some.inj hf)
  exact ⟨rfl, .pure_alone rfl⟩

theorem hook_neutral : Neutral hook := .sysCall fun _ => rfl

theorem close_neutral (i : Inode) : Neutral (close i) := .sysCall fun _ => rfl

end Neutral

/-- Looking at a name, and the program after it. -/
theorem Safe.lstat {ε β : Type} {crash : Disk → Prop} {post : Except ε β → Disk → Prop} {wrap : Errno → ε} {dir : Inode}
    {name : String} {k : Info → Fallible ε β} {d : Disk} (hcrash : crash d) (herror : ∀ e, post (.error e) d)
    (hok : ∀ i, d.lookup dir name = some i → Safe (alone crash) post (k (d.stat i)).run d) :
    Safe (alone crash) post (Durable.attempt wrap (Durable.lstat dir name) >>= k).run d := by
  apply Safe.call hcrash herror
  · intro e d' hf
    split at hf
    · cases hf
    · exact (Prod.mk.inj hf).2.symm
  · intro info d' hf
    split at hf
    case h_1 i hi =>
      obtain ⟨⟨⟩, rfl⟩ := Prod.mk.inj hf
      exact ⟨hcrash, hok i hi⟩
    case h_2 => cases hf

/-! ## Programs that keep an invariant of the disk -/

/-- A fact about the value of a successful return. -/
def IfOk {ε α : Type} (Q : α → Prop) : Except ε α → Prop
  | .ok a => Q a
  | .error _ => True

theorem ifOk_true {ε α : Type} (r : Except ε α) : IfOk (fun _ => True) r := by
  cases r with
  | ok a => exact trivial
  | error e => exact trivial

/-- Every step keeps the invariant, and the value returned satisfies `Q`. -/
def Keeps {α : Type} (I : Disk → Prop) (Q : α → Prop) (p : Sys α) : Prop :=
  ∀ d, I d → Safe (alone I) (fun a d' => I d' ∧ Q a) p d

section Keeps

variable {ε α β : Type} {I : Disk → Prop} {Q : α → Prop}

theorem Keeps.pure {a : α} (h : Q a) : Keeps I Q (.pure a) :=
  fun _ hd => .pure_alone ⟨hd, h⟩

variable {p : Sys α}

theorem Keeps.bind {R : β → Prop} {g : α → Sys β} (hp : Keeps I Q p)
    (hg : ∀ a, Q a → Keeps I R (g a)) : Keeps I R (p.bind g) := by
  intro d hd
  refine .bind_alone (hp d hd) ?_
  intro a d' ha
  exact hg a ha.2 d' ha.1

theorem Keeps.weaken {R : α → Prop} (h : Keeps I Q p) (hQR : ∀ a, Q a → R a) : Keeps I R p :=
  fun d hd => .weaken (fun a _ ha => ⟨ha.1, hQR a ha.2⟩) p d (h d hd)

theorem Neutral.keeps (h : Neutral p) : Keeps I (fun _ => True) p :=
  fun _ hd => h.safe hd fun _ => ⟨hd, trivial⟩

theorem Keeps.sysCall {f : Disk → Except Errno α × Disk}
    (h : ∀ d, I d → I (f d).2 ∧ IfOk Q (f d).1) : Keeps I (IfOk Q) (sysCall f) :=
  fun d hd => Safe.sysCall (fun _ => ⟨hd, trivial⟩) hd ⟨(h d hd).1, h d hd⟩

variable {x : Fallible ε α}

theorem Keeps.andThen {R : β → Prop} {k : α → Fallible ε β} (hx : Keeps I (IfOk Q) x.run)
    (hk : ∀ a, Q a → Keeps I (IfOk R) (k a).run) : Keeps I (IfOk R) (x >>= k).run := by
  refine .bind hx ?_
  intro r hr
  cases r with
  | ok a => exact hk a hr
  | error e => exact .pure trivial

theorem Keeps.mapError {ε' : Type} {wrap : ε → ε'} {p : Sys (Except ε α)}
    (h : Keeps I (IfOk Q) p) : Keeps I (IfOk Q) (p.bind fun r => .pure (r.mapError wrap)) := by
  refine .bind h ?_
  intro r hr
  cases r with
  | ok a => exact .pure hr
  | error e => exact .pure trivial

theorem Keeps.attempt {wrap : Errno → ε} {call : Sys (Except Errno α)}
    (h : Keeps I (IfOk Q) call) : Keeps I (IfOk Q) (Durable.attempt wrap call).run := .mapError h

theorem Keeps.wrapErr {wrap : ε → ε} (h : Keeps I (IfOk Q) x.run) :
    Keeps I (IfOk Q) (Durable.wrapErr wrap x).run := .mapError h

theorem Keeps.require (p : Prop) [Decidable p] (err : ε) : Keeps I (IfOk fun _ => p) (Durable.require p err).run := by
  unfold Durable.require
  split
  case isTrue hp => exact .pure hp
  case isFalse => exact .pure trivial

theorem Keeps.doIf {b : Bool} {x : Fallible ε Unit} (h : Keeps I (IfOk fun _ => True) x.run) :
    Keeps I (IfOk fun _ => True) (Durable.doIf b x).run := by
  cases b with
  | true => exact h
  | false => exact .pure trivial

/-- A part that keeps the invariant, inside a program of which more is asked. -/
theorem Keeps.followed {post : Except ε β → Disk → Prop} {k : α → Fallible ε β} {d : Disk} (hx : Keeps I (IfOk Q) x.run)
    (hd : I d) (herror : ∀ e d', I d' → post (.error e) d')
    (hok : ∀ a d', I d' → Q a → Safe (alone I) post (k a).run d') : Safe (alone I) post (x >>= k).run d := by
  apply Safe.andThen
  apply Safe.weaken _ _ _ (hx d hd)
  intro r d' hr
  cases r with
  | ok a => exact hok a d' hr.1 hr.2
  | error e => exact herror e d' hr.1

theorem Keeps.ok (h : Keeps I (fun _ => True) x.run) : Keeps I (IfOk fun _ => True) x.run :=
  h.weaken fun r _ => ifOk_true r

end Keeps

/-! ## What a successful return says -/

section OnOk

variable {ε α β : Type}

/-- A postcondition that speaks about success only. -/
def OnOk (post : α → Disk → Prop) : Except ε α → Disk → Prop
  | .ok a, d => post a d
  | .error _, _ => True

/-- A run to the end satisfies `post`; nothing is asked of one that is cut short. -/
abbrev Yields (post : α → Disk → Prop) (p : Sys α) (d : Disk) : Prop := Safe (alone fun _ => True) post p d

/-- Every program satisfies this: nothing is asked of it. -/
theorem Safe.nothing (p : Sys α) : ∀ d, Yields (fun _ _ => True) p d := by
  induction p with
  | pure a => exact fun d => .pure_alone trivial
  | act lbl f k ih => exact fun d => .act_alone fun e b d' _ => ⟨trivial, ih b d'⟩

variable {d : Disk} {post : β → Disk → Prop} {k : α → Fallible ε β} {x : Fallible ε α}

theorem Safe.seq {mid : α → Disk → Prop} (h : Yields (OnOk mid) x.run d)
    (hk : ∀ a d', mid a d' → Yields (OnOk post) (k a).run d') :
    Yields (OnOk post) (x >>= k).run d := by
  refine Safe.andThen (Safe.weaken ?_ _ _ h)
  intro r d' hr
  cases r with
  | ok a => exact hk a d' hr
  | error e => trivial

theorem Safe.wrapErr {post : α → Disk → Prop} {wrap : ε → ε} (h : Yields (OnOk post) x.run d) :
    Yields (OnOk post) (Durable.wrapErr wrap x).run d := by
  refine .bind_alone h ?_
  intro r d' hr
  cases r with
  | ok a => exact .pure_alone hr
  | error e => exact .pure_alone trivial

theorem Safe.look (hx : Neutral x.run) (hk : ∀ a, Yields (OnOk post) (k a).run d) :
    Yields (OnOk post) (x >>= k).run d :=
  Safe.pass hx trivial (fun _ => trivial) hk

theorem Safe.check {p : Prop} [Decidable p] {err : ε} {k : Unit → Fallible ε β}
    (hk : p → Yields (OnOk post) (k ()).run d) :
    Yields (OnOk post) (Durable.require p err >>= k).run d :=
  Safe.require (fun _ => trivial) hk

theorem Safe.fromExcept {r : Except ε α} (hk : ∀ a, r = .ok a → Yields (OnOk post) (k a).run d) :
    Yields (OnOk post) (Durable.fromExcept r >>= k).run d := by
  cases r with
  | ok a => exact hk a rfl
  | error e =>
    have hpure : Yields (OnOk post) (.pure (.error e) : Sys (Except ε β)) d :=
      Safe.pure_alone trivial
    exact hpure

theorem Safe.doIf {P : Disk → Prop} {b : Bool} {x : Fallible ε Unit} (hd : P d)
    (hx : b = true → Yields (OnOk fun _ => P) x.run d) :
    Yields (OnOk fun _ => P) (Durable.doIf b x).run d := by
  cases b with
  | true => exact hx rfl
  | false => exact .pure_alone hd

/-- Opening a name gives the inode it stands for. -/
theorem Safe.openAt {wrap : Errno → ε} {dir : Inode} {name : String} {k : Inode → Fallible ε β}
    (hk : ∀ i, d.lookup dir name = some i → Yields (OnOk post) (k i).run d) :
    Yields (OnOk post) (Durable.attempt wrap (Durable.openAt dir name) >>= k).run d := by
  refine Safe.call trivial (fun _ => trivial) ?_ ?_
  · intro e d' hf
    split at hf
    · cases hf
    · exact (Prod.mk.inj hf).2.symm
  · intro i d' hf
    split at hf
    · obtain ⟨⟨⟩, rfl⟩ := Prod.mk.inj hf
      exact ⟨trivial, hk _ (by assumption)⟩
    · cases hf

/-- Changing permission bits. -/
theorem Safe.fchmod {wrap : Errno → ε} {i : Inode} {perm : Nat} {k : Unit → Fallible ε β}
    (hk : Yields (OnOk post) (k ()).run (d.setPerm i perm)) :
    Yields (OnOk post) (Durable.attempt wrap (Durable.fchmod i perm) >>= k).run d := by
  refine Safe.call trivial (fun _ => trivial) (nofun) ?_
  rintro - d' ⟨⟩
  exact ⟨trivial, hk⟩

end OnOk

/-! ## Runs in which no call fails -/

section Runs

variable {ε α β : Type} {d d' d'' : Disk}

theorem always_andThen (x : Fallible ε α) (k : α → Fallible ε β) (d : Disk) :
    (x >>= k).run.always {} d = (x.run.always {} d).bind fun (r, d') => match r with
      | .ok a => (k a).run.always {} d' | .error e => some (.error e, d') := by
  have hrun : (x >>= k).run = x.run.bind (fun r => match r with
    | .ok a => (k a).run
    | .error e => .pure (.error e)) := by
    refine congrArg x.run.bind (funext fun r => ?_)
    cases r <;> rfl
  rw [hrun, Prog.always_bind]
  refine congrArg _ (funext fun (r, d') => ?_)
  cases r <;> rfl

/-- With no fault anywhere the program returns `a` and leaves `d'`. -/
def Runs (x : Fallible ε α) (d : Disk) (a : α) (d' : Disk) : Prop := x.run.always {} d = some (.ok a, d')

theorem Runs.pure (a : α) : Runs (pure a : Fallible ε α) d a d := rfl

variable {a : α}

theorem Runs.bind {x : Fallible ε α} {k : α → Fallible ε β} {b : β} (hx : Runs x d a d')
    (hk : Runs (k a) d' b d'') : Runs (x >>= k) d b d'' := by
  unfold Runs at hx hk ⊢
  rw [always_andThen, hx]
  exact hk

variable {wrap : Errno → ε}

theorem Runs.attempt {f : Disk → Except Errno α × Disk} (h : f d = (.ok a, d')) :
    Runs (Durable.attempt wrap (Durable.sysCall f)) d a d' := by
  have hrun : (Durable.attempt wrap (Durable.sysCall f)).run.always {} d = some ((f d).1.mapError wrap, (f d).2) := rfl
  rw [Runs, hrun, h]
  rfl

theorem Runs.result {f : Disk → Except Errno α × Disk} {g : Except Errno α → Except ε β} {r : Except Errno α} {b : β}
    (h : f d = (r, d')) (hg : g r = .ok b) : Runs (ExceptT.mk (do return g (← Durable.sysCall f))) d b d' := by
  have hrun : (ExceptT.mk (do return g (← Durable.sysCall f) : Sys (Except ε β))).run.always {} d =
      some (g (f d).1, (f d).2) := rfl
  rw [Runs, hrun, h]
  exact congrArg (fun b => some (b, d')) hg

theorem Runs.require {p : Prop} [Decidable p] {err : ε} (hp : p) : Runs (Durable.require p err) d () d := by
  have hrun : Durable.require p err = (.pure () : Fallible ε Unit) := if_pos hp
  rw [hrun]
  exact .pure ()

theorem Runs.fromExcept {r : Except ε α} (h : r = .ok a) : Runs (Durable.fromExcept r) d a d := by
  rw [h]
  exact .pure a

theorem Runs.wrapErr {x : Fallible ε α} {wrap : ε → ε} (h : Runs x d a d') : Runs (Durable.wrapErr wrap x) d a d' := by
  unfold Runs at h ⊢
  have hrun : (Durable.wrapErr wrap x).run = x.run.bind fun r => .pure (r.mapError wrap) := rfl
  rw [hrun, Prog.always_bind, h]
  rfl

theorem Runs.lstat {dir i : Inode} {name : String} (h : d.lookup dir name = some i) :
    Runs (Durable.attempt wrap (Durable.lstat dir name)) d (d.stat i) d := by
  refine .attempt ?_
  simp only [h]

theorem Runs.openAt {dir i : Inode} {name : String} (h : d.lookup dir name = some i) :
    Runs (Durable.attempt wrap (Durable.openAt dir name)) d i d := by
  refine .attempt ?_
  simp only [h]

theorem Runs.fstat (i : Inode) : Runs (Durable.attempt wrap (Durable.fstat i)) d (d.stat i) d := .attempt rfl

theorem Runs.fchmod (i : Inode) (perm : Nat) :
    Runs (Durable.attempt wrap (Durable.fchmod i perm)) d () (d.setPerm i perm) := .attempt rfl

theorem Runs.readDir (dir : Inode) :
    Runs (Durable.attempt wrap (Durable.readDir dir)) d (d.names dir) d :=
  Runs.attempt rfl

end Runs

end TailscaleDart.Durable
