import Mathlib.Data.List.Basic
import Mathlib.Logic.Function.Basic

/-!
# Durable.Disk — what a crash can leave of a file system

A disk is a graph of inodes. A regular file has a content, and `stable` says whether that content
has been synced since it was last written. A directory has its entries, and for every name the
values that name has had since the directory was last synced.

A crash (`Crashed`) keeps the content of stable files and may leave any other file with any content
at all. In every directory each name comes back, on its own, with its current value or with one of
its values since the last sync. This allows more than a journaling file system does (a rename may
survive at one of its two names only), so what holds here holds under an atomic rename too.

Owner, type and permission bits are kept by a crash.
-/

namespace TailscaleDart.Durable

/-- What an inode is, as far as the programs over it ask. -/
inductive Kind where
  | regular
  | directory
  | symlink
  | other
  deriving DecidableEq, Repr

abbrev Inode := Nat

/-- What an inode is, entries apart. -/
@[ext] structure File where
  kind : Kind
  /-- The file belongs to the current user. -/
  owned : Bool
  perm : Nat
  device : Nat := 0
  content : List UInt8 := []
  /-- The content has been synced since it was last written. -/
  stable : Bool := true
  deriving DecidableEq, Repr

/-- An inode with what it contains as a directory. -/
structure Node extends File where
  entries : Std.ExtTreeMap String Inode compare := ∅
  /-- What each name has stood for since the directory was last synced, its present value apart. -/
  past : String → List (Option Inode) := fun _ => []

/-- All inodes, used or not; a name is found by following entries from an inode that is held. -/
structure Disk where
  nodes : Inode → Node
  /-- Inodes from here on have never been used. -/
  next : Inode

namespace Disk

/-- What a name stands for now. -/
def lookup (d : Disk) (dir : Inode) (name : String) : Option Inode := (d.nodes dir).entries[name]?

/-- The names in a directory, in order. -/
def names (d : Disk) (dir : Inode) : List String := (d.nodes dir).entries.toList.map Prod.fst

/-- One inode changed. -/
def update (d : Disk) (i : Inode) (f : Node → Node) : Disk :=
  { d with nodes := Function.update d.nodes i (f (d.nodes i)) }

/-- Every value a crash may leave under a name. -/
def possible (d : Disk) (dir : Inode) (name : String) : List (Option Inode) :=
  d.lookup dir name :: (d.nodes dir).past name

/-- Give a name a new value, or none; the value it had may still come back. -/
def setEntry (d : Disk) (dir : Inode) (name : String) (value : Option Inode) : Disk :=
  d.update dir fun n =>
    { n with
      entries := match value with
        | some i => n.entries.insert name i
        | none => n.entries.erase name
      past := Function.update n.past name (n.entries[name]? :: n.past name) }

/-- A new inode under a name. -/
def create (d : Disk) (dir : Inode) (name : String) (node : Node) : Disk :=
  setEntry { nodes := Function.update d.nodes d.next node, next := d.next + 1 } dir name (some d.next)

/-- A write: until it is synced a crash may leave anything. -/
def setContent (d : Disk) (i : Inode) (content : List UInt8) : Disk :=
  d.update i fun n => { n with content := content, stable := false }

def setPerm (d : Disk) (i : Inode) (perm : Nat) : Disk := d.update i fun n => { n with perm := perm }

def syncContent (d : Disk) (i : Inode) : Disk := d.update i fun n => { n with stable := true }

/-- A directory sync: of each name only the present value is left. -/
def syncEntries (d : Disk) (dir : Inode) : Disk := d.update dir fun n => { n with past := fun _ => [] }

/-- Move a name over another within one directory. -/
def rename (d : Disk) (dir : Inode) (source target : String) : Disk :=
  (d.setEntry dir target (d.lookup dir source)).setEntry dir source none

/-! ## Reading back what an operation did -/

/-- The other inodes are as they were. -/
theorem update_nodes (d : Disk) (i j : Inode) (f : Node → Node) :
    (d.update i f).nodes j = if j = i then f (d.nodes j) else d.nodes j := by
  simp only [update, Function.update_apply]
  split
  case isTrue h => rw [h]
  case isFalse => rfl

section Files

variable (d : Disk) (dir i j : Inode) (name : String)

@[simp] theorem setEntry_file (v : Option Inode) : ((d.setEntry dir name v).nodes j).toFile = (d.nodes j).toFile := by
  simp only [setEntry, update_nodes]
  split <;> rfl

@[simp] theorem syncEntries_file : ((d.syncEntries dir).nodes j).toFile = (d.nodes j).toFile := by
  simp only [syncEntries, update_nodes]
  split <;> rfl

@[simp] theorem rename_file (source target : String) :
    ((d.rename dir source target).nodes j).toFile = (d.nodes j).toFile := by
  simp only [rename, setEntry_file]

theorem create_file (node : Node) :
    ((d.create dir name node).nodes j).toFile = if j = d.next then node.toFile else (d.nodes j).toFile := by
  simp only [create, setEntry_file, Function.update_apply]
  split <;> rfl

theorem setContent_file (content : List UInt8) : ((d.setContent i content).nodes j).toFile =
      if j = i then { (d.nodes j).toFile with content := content, stable := false } else (d.nodes j).toFile := by
  simp only [setContent, update_nodes]
  split <;> rfl

theorem setPerm_file (perm : Nat) : ((d.setPerm i perm).nodes j).toFile =
      if j = i then { (d.nodes j).toFile with perm := perm } else (d.nodes j).toFile := by
  simp only [setPerm, update_nodes]
  split <;> rfl

theorem syncContent_file : ((d.syncContent i).nodes j).toFile =
      if j = i then { (d.nodes j).toFile with stable := true } else (d.nodes j).toFile := by
  simp only [syncContent, update_nodes]
  split <;> rfl

end Files

section Entries

variable (d : Disk) (dir i j : Inode) (name other : String)

theorem setEntry_lookup (v : Option Inode) :
    (d.setEntry dir name v).lookup j other = if j = dir ∧ other = name then v else d.lookup j other := by
  simp only [lookup, setEntry, update_nodes]
  by_cases hdir : j = dir
  · subst hdir
    by_cases hname : other = name
    · subst hname
      cases v <;> simp
    · have hcmp : ¬ compare name other = .eq := fun h => hname (Std.LawfulEqCmp.eq_of_compare h).symm
      cases v <;> simp [hname, hcmp, Std.ExtTreeMap.getElem?_insert, Std.ExtTreeMap.getElem?_erase]
  · simp [hdir]

/-- A value that is replaced stays possible; only the sync of the directory takes it away. -/
theorem setEntry_possible (v : Option Inode) : (d.setEntry dir name v).possible j other =
      if j = dir ∧ other = name then v :: d.possible j other else d.possible j other := by
  simp only [possible, setEntry_lookup]
  by_cases h : j = dir ∧ other = name
  · obtain ⟨rfl, rfl⟩ := h
    simp [setEntry, update_nodes, lookup]
  · simp only [h, if_false, setEntry, update_nodes]
    split
    case isTrue hdir =>
      have hname : other ≠ name := fun hname => h ⟨hdir, hname⟩
      simp [hname]
    case isFalse => rfl

theorem create_lookup (node : Node) (h : j ≠ d.next) : (d.create dir name node).lookup j other =
      if j = dir ∧ other = name then some d.next else d.lookup j other := by
  rw [create, setEntry_lookup]
  simp only [lookup, Function.update_of_ne h]

/-- A new inode brings one entry: its own name. -/
theorem lookup_of_create {d : Disk} {dir i j : Inode} {name other : String} {node : Node}
    (hnode : node.entries = ∅) (h : (d.create dir name node).lookup j other = some i) :
    (j = dir ∧ other = name ∧ i = d.next) ∨ d.lookup j other = some i := by
  rw [create, setEntry_lookup] at h
  by_cases hat : j = dir ∧ other = name
  · rw [if_pos hat] at h
    cases h
    exact .inl ⟨hat.1, hat.2, rfl⟩
  · rw [if_neg hat] at h
    by_cases hnew : j = d.next
    · simp [lookup, hnew, hnode] at h
    · exact .inr (by simpa only [lookup, Function.update_of_ne hnew] using h)

theorem create_possible (node : Node) (h : j ≠ d.next) : (d.create dir name node).possible j other =
      if j = dir ∧ other = name then some d.next :: d.possible j other else d.possible j other := by
  rw [create, setEntry_possible]
  simp only [possible, lookup, Function.update_of_ne h]

@[simp] theorem setContent_possible (content : List UInt8) :
    (d.setContent i content).possible j other = d.possible j other := by
  simp only [possible, lookup, setContent, update_nodes]
  split <;> rfl

@[simp] theorem setPerm_possible (perm : Nat) : (d.setPerm i perm).possible j other = d.possible j other := by
  simp only [possible, lookup, setPerm, update_nodes]
  split <;> rfl

@[simp] theorem syncContent_possible : (d.syncContent i).possible j other = d.possible j other := by
  simp only [possible, lookup, syncContent, update_nodes]
  split <;> rfl

/-- After a sync each name of the directory has one possible value. -/
theorem syncEntries_possible :
    (d.syncEntries dir).possible j other = if j = dir then [d.lookup j other] else d.possible j other := by
  simp only [possible, lookup, syncEntries, update_nodes]
  split <;> rfl

@[simp] theorem syncEntries_lookup : (d.syncEntries dir).lookup j other = d.lookup j other := by
  simp only [lookup, syncEntries, update_nodes]
  split <;> rfl

theorem syncEntries_possible_subset : (d.syncEntries dir).possible j other ⊆ d.possible j other := by
  rw [syncEntries_possible]
  split
  case isTrue => exact List.cons_subset_cons _ (List.nil_subset _)
  case isFalse => exact List.Subset.refl _

/-- A crash may leave things as they are. -/
theorem lookup_mem_possible : d.lookup dir name ∈ d.possible dir name := .head _

theorem lookup_of_possible {d d' : Disk} {dir : Inode} {name : String}
    (h : d'.possible dir name = d.possible dir name) : d'.lookup dir name = d.lookup dir name :=
  (List.cons.inj h).1

end Entries

/-! ## Allocated inodes -/

/-- Whatever an entry names, and the directory it is in, has been allocated. -/
def Sound (d : Disk) : Prop := ∀ dir name i, d.lookup dir name = some i → dir < d.next ∧ i < d.next

variable {d : Disk}

/-- A change that leaves the entries alone. -/
theorem Sound.update (h : d.Sound) (i : Inode) {f : Node → Node}
    (hf : (f (d.nodes i)).entries = (d.nodes i).entries) : (d.update i f).Sound := by
  intro dir name j hj
  refine h dir name j ?_
  simp only [lookup, update_nodes] at hj ⊢
  split at hj
  case isTrue hdir =>
    subst hdir
    rwa [hf] at hj
  case isFalse => exact hj

variable {dir : Inode} {name : String}

theorem Sound.setEntry (h : d.Sound) {v : Option Inode}
    (hdir : dir < d.next) (hv : ∀ i, v = some i → i < d.next) : (d.setEntry dir name v).Sound := by
  intro dir' name' i hi
  rw [setEntry_lookup] at hi
  split at hi
  case isTrue hat => exact ⟨hat.1 ▸ hdir, hv i hi⟩
  case isFalse => exact h dir' name' i hi

/-- The new inode is below the new bound, and names nothing yet. -/
theorem Sound.create (h : d.Sound) {node : Node}
    (hdir : dir < d.next) (hnode : node.entries = ∅) : (d.create dir name node).Sound := by
  refine .setEntry ?_ (Nat.lt_succ_of_lt hdir) ?_
  · intro dir' name' i hi
    by_cases hnew : dir' = d.next
    · simp [lookup, hnew, hnode] at hi
    · have hold := h dir' name' i (by simpa [lookup, hnew] using hi)
      exact ⟨Nat.lt_succ_of_lt hold.1, Nat.lt_succ_of_lt hold.2⟩
  · intro i hi
    cases hi
    exact Nat.lt_succ_self _

/-- A disk with an empty root directory. -/
def emptyDisk : Disk where
  nodes := fun _ => { kind := .directory, owned := true, perm := 0o700 }
  next := 1

theorem emptyDisk_sound : emptyDisk.Sound := by
  intro dir name i hi
  simp [lookup, emptyDisk] at hi

/-! ## Changes of permission bits -/

/-- The same disk but for permission bits. -/
def PermOnly (d d' : Disk) : Prop :=
  d'.next = d.next ∧ ∀ i, d'.nodes i = { d.nodes i with perm := (d'.nodes i).perm }

theorem PermOnly.refl (d : Disk) : PermOnly d d := ⟨rfl, fun _ => rfl⟩

theorem PermOnly.trans {d' d'' : Disk} (h : PermOnly d d') (h' : PermOnly d' d'') : PermOnly d d'' := by
  refine ⟨h'.1.trans h.1, fun i => ?_⟩
  have hi' := h'.2 i
  rw [h.2 i] at hi'
  exact hi'

theorem permOnly_setPerm (d : Disk) (i : Inode) (perm : Nat) : PermOnly d (d.setPerm i perm) := by
  refine ⟨rfl, fun j => ?_⟩
  simp only [setPerm, update_nodes]
  split <;> rfl

section PermOnly

variable {d d' : Disk} (h : PermOnly d d')
include h

theorem PermOnly.kind (i : Inode) : (d'.nodes i).kind = (d.nodes i).kind := by rw [h.2 i]

theorem PermOnly.owned (i : Inode) : (d'.nodes i).owned = (d.nodes i).owned := by rw [h.2 i]

theorem PermOnly.content (i : Inode) : (d'.nodes i).content = (d.nodes i).content := by rw [h.2 i]

theorem PermOnly.entries (i : Inode) : (d'.nodes i).entries = (d.nodes i).entries := by rw [h.2 i]

theorem PermOnly.lookup (i : Inode) (name : String) : d'.lookup i name = d.lookup i name := by
  rw [Disk.lookup, h.entries i, Disk.lookup]

theorem PermOnly.names (i : Inode) : d'.names i = d.names i := by rw [Disk.names, h.entries i, Disk.names]

theorem PermOnly.possible (i : Inode) (name : String) : d'.possible i name = d.possible i name := by
  rw [Disk.possible, h.lookup i name, h.2 i, Disk.possible]

/-- Soundness is about entries, which the permission bits are not. -/
theorem PermOnly.sound (hsound : d.Sound) : d'.Sound := by
  intro dir name i hi
  rw [h.lookup] at hi
  rw [h.1]
  exact hsound dir name i hi

end PermOnly

theorem mem_names : name ∈ d.names dir ↔ (d.lookup dir name).isSome := by
  rw [names, Std.ExtTreeMap.map_fst_toList_eq_keys, Std.ExtTreeMap.mem_keys, Disk.lookup,
    Std.ExtTreeMap.isSome_getElem?_iff_mem]

end Disk

/-! ## Crashes -/

open Disk

/-- `d'` is what is found after a crash of `d`. -/
structure Crashed (d d' : Disk) : Prop where
  kind : ∀ i, (d'.nodes i).kind = (d.nodes i).kind
  owned : ∀ i, (d'.nodes i).owned = (d.nodes i).owned
  perm : ∀ i, (d'.nodes i).perm = (d.nodes i).perm
  device : ∀ i, (d'.nodes i).device = (d.nodes i).device
  content : ∀ i, (d.nodes i).stable = true → (d'.nodes i).content = (d.nodes i).content
  stable : ∀ i, (d'.nodes i).stable = true
  possible : ∀ dir name, ∃ v ∈ d.possible dir name, d'.possible dir name = [v]
  next : d'.next = d.next

/-- The disk on which the last state of everything has become durable. -/
def Disk.settle (d : Disk) : Disk :=
  { d with nodes := fun i => { d.nodes i with stable := true, past := fun _ => [] } }

theorem crashed_settle (d : Disk) : Crashed d d.settle where
  kind := fun _ => rfl
  owned := fun _ => rfl
  perm := fun _ => rfl
  device := fun _ => rfl
  content := fun _ _ => rfl
  stable := fun _ => rfl
  possible := fun dir name => ⟨d.lookup dir name, lookup_mem_possible d dir name, rfl⟩
  next := rfl

/-- A stable file is found as it was. -/
theorem Crashed.file {d d' : Disk} (h : Crashed d d') {i : Inode} (hs : (d.nodes i).stable = true) :
    (d'.nodes i).toFile = (d.nodes i).toFile := by
  exact File.ext (h.kind i) (h.owned i) (h.perm i) (h.device i) (h.content i hs) ((h.stable i).trans hs.symm)

/-- A name comes back with one of its possible values. -/
theorem Crashed.lookup_mem {d d' : Disk} (h : Crashed d d') (dir : Inode) (name : String) :
    d'.lookup dir name ∈ d.possible dir name := by
  obtain ⟨v, hv, heq⟩ := h.possible dir name
  rwa [(List.cons.inj heq).1]

end TailscaleDart.Durable
