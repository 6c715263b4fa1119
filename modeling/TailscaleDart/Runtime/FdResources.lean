import TailscaleDart.Conc.Machine
import TailscaleDart.Data.History
import TailscaleDart.Data.Table

/-!
# Runtime.FdResources — the registries of a runtime and its teardown sweep

A call that opens a listener, a binding or a bridge takes a gate on the runtime it was made for, works without any lock,
draws an id from a counter of the process and offers the resource to the registry of the gate's runtime. The registry
refuses it when the runtime was detached meanwhile (the epoch) or swept (`closed`). Every event below is one such
critical section, in any order; what a call does between them is not an event.

What happened to an id is read off the history (`about`). A resource that was accepted is in its registry until it
leaves it, which it does once (`Placed`), and `installed_then_left` says so for every run.
-/

namespace TailscaleDart.Runtime.FdResources

open Conc Data

variable {V : Type}

structure FdRegistry (V : Type) where
  closed : Bool := false
  entries : Finmap fun _ : Nat => V := ∅

namespace FdRegistry

variable (r : FdRegistry V)

def commit (stillCurrent : Bool) (id : Nat) (value : V) : Option (FdRegistry V) :=
  if r.closed || !stillCurrent then none else some { r with entries := r.entries.insert id value }

def take (id : Nat) : Option V × FdRegistry V :=
  match r.entries.lookup id with
  | some value => (some value, { r with entries := r.entries.erase id })
  | none => (none, r)

/-- Whether `id` still maps to `value`, and the registry without it. -/
def removeMatching [DecidableEq V] (id : Nat) (value : V) : Bool × FdRegistry V :=
  if r.entries.lookup id = some value then (true, { r with entries := r.entries.erase id }) else (false, r)

/-- What is left for the caller to close, and the registry. -/
def drain : (Finmap fun _ : Nat => V) × FdRegistry V := (r.entries, { closed := true, entries := ∅ })

end FdRegistry

/-- The registries of `fdResources`, and the counters their ids are drawn from. -/
inductive Family
  | tcpListeners | udpBridges | httpBindings
  deriving DecidableEq

structure NodeRuntime where
  generation : Nat
  token : Nat
  /-- `ctx.Err() != nil`. -/
  canceled : Bool := false

/-- A gate; a runtime is named by its place in the order of the starts. -/
structure NodeGate where
  runtime : Nat
  epoch : Nat

inductive Note (V : Type)
  /-- `commit` returned true for a resource opened under `gate`. -/
  | installed (gate : NodeGate) (runtime : Nat) (f : Family) (id : Nat) (value : V)
  | taken (runtime : Nat) (f : Family) (id : Nat) (value : V)
  | removed (runtime : Nat) (f : Family) (id : Nat) (value : V)
  | drained (runtime : Nat) (f : Family) (entries : Finmap fun _ : Nat => V)
  | detached (runtime : Nat)

/-- How a resource leaves its registry. -/
inductive Exit
  | take | drain | selfRemoval

inductive Fate (V : Type)
  | installed (runtime : Nat) (value : V)
  | left (runtime : Nat) (value : V) (how : Exit)

/-- What an entry of the history says about the resource `id` of family `f`. -/
def Note.about (f : Family) (id : Nat) : Note V → Option (Fate V)
  | .installed _ r g j value => if g = f ∧ j = id then some (.installed r value) else none
  | .taken r g j value => if g = f ∧ j = id then some (.left r value .take) else none
  | .removed r g j value => if g = f ∧ j = id then some (.left r value .selfRemoval) else none
  | .drained r g entries => if g = f then (entries.lookup id).map (.left r · .drain) else none
  | .detached _ => none

structure World (V : Type) where
  nodeEpoch : Nat := 1
  runtimes : List NodeRuntime := []
  current : Option Nat := none
  registries : Nat → Family → FdRegistry V := fun _ _ => {}
  lastID : Family → Nat := fun _ => 0
  gates : List NodeGate := []
  /-- The resources that have an id and were not offered to a registry yet. -/
  opened : Family → Nat → Option (NodeGate × V) := fun _ _ => none
  log : List (Note V) := []

inductive Event (V : Type)
  | start (token : Nat)
  | acquireNodeGateForRuntimeToken (runtimeToken : Nat)
  /-- The call that holds gate `i` has opened a resource and draws its id. -/
  | opens (i : Nat) (f : Family) (value : V)
  | commit (f : Family) (id : Nat)
  | take (runtime : Nat) (f : Family) (id : Nat)
  | removeMatching (runtime : Nat) (f : Family) (id : Nat) (value : V)
  | detachRuntimeLocked
  /-- The first step of a close, and its sweep of one registry. -/
  | cancel (runtime : Nat)
  | drain (runtime : Nat) (f : Family)

namespace World

variable {w w' : World V}

def setRegistry (w : World V) (r : Nat) (f : Family) (registry : FdRegistry V) (note : Note V) : World V :=
  { w with
    registries := Function.update w.registries r (Function.update (w.registries r) f registry)
    log := w.log ++ [note] }

def setOpened (w : World V) (f : Family) (id : Nat) (resource : Option (NodeGate × V)) : World V :=
  { w with opened := Function.update w.opened f (Function.update (w.opened f) id resource) }

def stillCurrent (w : World V) (gate : NodeGate) : Bool := w.nodeEpoch == gate.epoch

/-- `gate.runtime.fd.<family>.commit(gate, id, value)`. -/
def commit (w : World V) (f : Family) (id : Nat) (gate : NodeGate) (value : V) : World V :=
  match (w.registries gate.runtime f).commit (w.stillCurrent gate) id value with
  | some registry => w.setRegistry gate.runtime f registry (.installed gate gate.runtime f id value)
  | none => w

def step [DecidableEq V] (w : World V) : Event V → Option (World V)
  | .start token =>
    if w.current = none then
      some { w with runtimes := w.runtimes ++ [⟨w.nodeEpoch, token, false⟩], current := some w.runtimes.length }
    else none
  | .acquireNodeGateForRuntimeToken runtimeToken =>
    w.current.bind fun r => w.runtimes[r]?.bind fun runtime =>
      if runtimeToken = 0 ∨ runtime.token ≠ runtimeToken ∨ runtime.canceled = true then none
      else some { w with gates := w.gates ++ [⟨r, runtime.generation⟩] }
  | .opens i f value => w.gates[i]?.map fun gate =>
    { w with lastID := Function.update w.lastID f (w.lastID f + 1) }.setOpened f (w.lastID f + 1) (some (gate, value))
  | .commit f id => (w.opened f id).map fun (gate, value) => (w.setOpened f id none).commit f id gate value
  | .take r f id =>
    match (w.registries r f).take id with
    | (some value, registry) => some (w.setRegistry r f registry (.taken r f id value))
    | (none, _) => some w
  | .removeMatching r f id value =>
    match (w.registries r f).removeMatching id value with
    | (true, registry) => some (w.setRegistry r f registry (.removed r f id value))
    | (false, _) => some w
  | .detachRuntimeLocked => w.current.map fun r =>
    { w with current := none, nodeEpoch := w.nodeEpoch + 1, log := w.log ++ [.detached r] }
  | .cancel r => if w.current = some r then none else w.runtimes[r]?.map fun runtime =>
    { w with runtimes := w.runtimes.set r { runtime with canceled := true } }
  | .drain r f =>
    if w.current = some r then none
    else
      let (entries, registry) := (w.registries r f).drain
      some (w.setRegistry r f registry (.drained r f entries))

/-- What a resource with this id and family was and is: the part of the history that is about it. -/
def fate (w : World V) (f : Family) (id : Nat) : List (Fate V) := w.log.filterMap (Note.about f id)

def entry (w : World V) (f : Family) (id : Nat) (r : Nat) : Option V := (w.registries r f).entries.lookup id

theorem entry_setRegistry (r : Nat) (f : Family) (registry : FdRegistry V) (note : Note V) (g : Family) (id s : Nat) :
    (w.setRegistry r f registry note).entry g id s =
      if s = r ∧ g = f then registry.entries.lookup id else w.entry g id s := by
  unfold entry setRegistry
  by_cases hs : s = r
  · subst hs
    by_cases hg : g = f
    · subst hg
      simp
    · simp [hg]
  · simp [hs]

theorem fate_setRegistry (r : Nat) (f : Family) (registry : FdRegistry V) (note : Note V) (g : Family) (id : Nat) :
    (w.setRegistry r f registry note).fate g id = w.fate g id ++ (note.about g id).toList := by
  unfold fate setRegistry
  rw [List.filterMap_append]
  cases h : note.about g id <;> simp [h]

/-! ## Where a resource is -/

/-- A resource has not been accepted, is in the registry that accepted it, or has left it. -/
inductive Placed (w : World V) (f : Family) (id : Nat) : Prop
  | nowhere (hfate : w.fate f id = []) (hentry : ∀ r, w.entry f id r = none)
  | inside (r : Nat) (value : V) (hfate : w.fate f id = [.installed r value])
      (hentry : ∀ s, w.entry f id s = if s = r then some value else none)
  | gone (r : Nat) (value : V) (how : Exit) (hfate : w.fate f id = [.installed r value, .left r value how])
      (hentry : ∀ s, w.entry f id s = none)

variable {f : Family} {id : Nat}

theorem Placed.congr (h : Placed w f id) (hfate : w'.fate f id = w.fate f id)
    (hentry : ∀ r, w'.entry f id r = w.entry f id r) : Placed w' f id := by
  cases h with
  | nowhere h1 h2 => exact .nowhere (hfate.trans h1) fun r => (hentry r).trans (h2 r)
  | inside r value h1 h2 => exact .inside r value (hfate.trans h1) fun s => (hentry s).trans (h2 s)
  | gone r value how h1 h2 => exact .gone r value how (hfate.trans h1) fun s => (hentry s).trans (h2 s)

variable {r : Nat} {value : V}

/-- What a registry holds leaves it when it is not there afterwards and the history has its exit. -/
theorem Placed.leaves (h : Placed w f id) (hthere : w.entry f id r = some value)
    {how : Exit} (hfate : w'.fate f id = w.fate f id ++ [.left r value how])
    (hentry : ∀ s, w'.entry f id s = if s = r then none else w.entry f id s) : Placed w' f id := by
  cases h with
  | nowhere _ hnone => simp [hnone r] at hthere
  | inside r1 value1 h1 h2 =>
    rw [h2 r] at hthere
    split at hthere
    · next heq =>
      cases hthere
      subst heq
      refine .gone r value how (by rw [hfate, h1]; rfl) fun s => ?_
      rw [hentry, h2]
      split <;> rfl
    · cases hthere
  | gone _ _ _ _ hnone => simp [hnone r] at hthere

/-- The ids: what was not drawn, or not offered yet, is in no registry and no history. -/
structure Accounted (w : World V) : Prop where
  placed : ∀ f id, Placed w f id
  undrawn : ∀ f id, w.lastID f < id → w.fate f id = [] ∧ w.opened f id = none
  unoffered : ∀ f id, w.opened f id ≠ none → w.fate f id = []

theorem Accounted.frame (h : Accounted w) (hregistries : w'.registries = w.registries) (hlast : w'.lastID = w.lastID)
    (hopened : w'.opened = w.opened) (hfate : ∀ f id, w'.fate f id = w.fate f id) : Accounted w' where
  placed f id := (h.placed f id).congr (hfate f id) fun r => by rw [entry, hregistries, entry]
  undrawn f id hid := by
    rw [hfate, hopened]
    exact h.undrawn f id (hlast ▸ hid)
  unoffered f id hid := by
    rw [hfate]
    exact h.unoffered f id (hopened ▸ hid)

theorem opened_setOpened (f g : Family) (id j : Nat) (resource : Option (NodeGate × V)) :
    (w.setOpened f id resource).opened g j = if g = f ∧ j = id then resource else w.opened g j := by
  unfold setOpened
  by_cases hg : g = f
  · subst hg
    simp [Function.update_apply]
  · simp [hg]

theorem Accounted.opens (h : Accounted w) (f : Family) (resource : Option (NodeGate × V)) :
    Accounted ({ w with lastID := Function.update w.lastID f (w.lastID f + 1) }.setOpened f
      (w.lastID f + 1) resource) where
  placed g id := (h.placed g id).congr rfl fun _ => rfl
  undrawn g id hid := by
    have hid : w.lastID g < id ∧ ¬ (g = f ∧ id = w.lastID f + 1) := by
      by_cases hg : g = f
      · subst hg
        have hid : w.lastID g + 1 < id := by simpa [setOpened] using hid
        omega
      · exact ⟨by simpa [setOpened, hg] using hid, fun hboth => hg hboth.1⟩
    exact ⟨(h.undrawn g id hid.1).1, by rw [opened_setOpened, if_neg hid.2]; exact (h.undrawn g id hid.1).2⟩
  unoffered g id hid := by
    rw [opened_setOpened] at hid
    split at hid
    case isTrue hnew =>
      obtain ⟨rfl, rfl⟩ := hnew
      exact (h.undrawn g _ (Nat.lt_succ_self _)).1
    case isFalse => exact h.unoffered g id hid

theorem Accounted.offered (h : Accounted w) (f : Family) (id : Nat) : Accounted (w.setOpened f id none) where
  placed g j := (h.placed g j).congr rfl fun _ => rfl
  undrawn g j hj := by
    refine ⟨(h.undrawn g j hj).1, ?_⟩
    rw [opened_setOpened]
    split
    · rfl
    · exact (h.undrawn g j hj).2
  unoffered g j hj := by
    rw [opened_setOpened] at hj
    split at hj
    · exact absurd rfl hj
    · exact h.unoffered g j hj

theorem Placed.fate_ne_nil (h : Placed w f id) (hthere : w.entry f id r = some value) : w.fate f id ≠ [] := by
  cases h with
  | nowhere _ hnone => simp [hnone r] at hthere
  | inside r value hfate _ => simp [hfate]
  | gone _ _ _ hfate _ => simp [hfate]

/-- Some resources leave the registry they are in, and nothing else changes. -/
theorem Accounted.leave (h : Accounted w) (hlast : w'.lastID = w.lastID) (hopened : w'.opened = w.opened)
    (hmoves : ∀ f id, w'.fate f id = w.fate f id ∧ (∀ r, w'.entry f id r = w.entry f id r) ∨
      ∃ r value how, w.entry f id r = some value ∧ w'.fate f id = w.fate f id ++ [.left r value how] ∧
        ∀ s, w'.entry f id s = if s = r then none else w.entry f id s) : Accounted w' := by
  have hnil : ∀ f id, w.fate f id = [] → w'.fate f id = [] := by
    intro f id hfate
    rcases hmoves f id with ⟨hsame, -⟩ | ⟨r, value, how, hthere, -⟩
    · exact hsame.trans hfate
    · exact absurd hfate ((h.placed f id).fate_ne_nil hthere)
  refine ⟨fun f id => ?_, fun f id hid => ?_, fun f id hid => ?_⟩
  · rcases hmoves f id with ⟨hfate, hentry⟩ | ⟨r, value, how, hthere, hfate, hentry⟩
    · exact (h.placed f id).congr hfate hentry
    · exact (h.placed f id).leaves hthere hfate hentry
  · obtain ⟨hfate, hnone⟩ := h.undrawn f id (hlast ▸ hid)
    exact ⟨hnil f id hfate, by rw [hopened, hnone]⟩
  · exact hnil f id (h.unoffered f id (hopened ▸ hid))

/-- `take` and a matching `removeMatching`. -/
theorem Accounted.erase (h : Accounted w) {how : Exit} {note : Note V} (hthere : w.entry f id r = some value)
    (habout : ∀ g j, note.about g j = if f = g ∧ id = j then some (.left r value how) else none) :
    Accounted (w.setRegistry r f { w.registries r f with entries := (w.registries r f).entries.erase id } note) := by
  refine h.leave rfl rfl fun g j => ?_
  simp only [fate_setRegistry, entry_setRegistry, habout, lookup_erase_ite]
  by_cases heq : f = g ∧ id = j
  · obtain ⟨rfl, rfl⟩ := heq
    refine .inr ⟨r, value, how, hthere, by simp, fun s => ?_⟩
    by_cases hs : s = r <;> simp [hs]
  · refine .inl ⟨by simp [heq], fun s => ?_⟩
    split
    · next hs =>
      obtain ⟨rfl, rfl⟩ := hs
      exact if_neg fun hj => heq ⟨rfl, hj.symm⟩
    · rfl

theorem Accounted.drain (h : Accounted w) (r : Nat) (f : Family) :
    Accounted (w.setRegistry r f (w.registries r f).drain.2 (.drained r f (w.registries r f).drain.1)) := by
  refine h.leave rfl rfl fun g j => ?_
  simp only [fate_setRegistry, entry_setRegistry, Note.about, FdRegistry.drain, Finmap.lookup_empty]
  by_cases hg : g = f
  · subst hg
    cases hthere : w.entry g j r with
    | none =>
      rw [if_pos rfl, show (w.registries r g).entries.lookup j = none from hthere]
      refine .inl ⟨by simp, fun s => ?_⟩
      split
      · next hs => exact (hs.1 ▸ hthere).symm
      · rfl
    | some value =>
      rw [if_pos rfl, show (w.registries r g).entries.lookup j = some value from hthere]
      refine .inr ⟨r, value, .drain, hthere, rfl, fun s => ?_⟩
      by_cases hs : s = r <;> simp [hs]
  · exact .inl ⟨by simp [Ne.symm hg], fun s => by simp [hg]⟩

theorem Accounted.commit (h : Accounted w) (hfate : w.fate f id = []) (hid : id ≤ w.lastID f)
    (hopened : w.opened f id = none) (gate : NodeGate) (value : V) : Accounted (w.commit f id gate value) := by
  unfold World.commit FdRegistry.commit
  split
  case h_1 registry heq =>
    split at heq
    · cases heq
    obtain rfl := Option.some.inj heq
    have habout : ∀ g j, (Note.installed gate gate.runtime f id value).about g j =
        if f = g ∧ id = j then some (.installed gate.runtime value) else none := fun _ _ => rfl
    refine ⟨fun g j => ?_, fun g j hj => ?_, fun g j hj => ?_⟩
    · by_cases hsame : f = g ∧ id = j
      · obtain ⟨rfl, rfl⟩ := hsame
        have hnone : ∀ s, w.entry f id s = none := by
          intro s
          cases hentry : w.entry f id s with
          | none => rfl
          | some found => exact absurd hfate ((h.placed f id).fate_ne_nil hentry)
        refine .inside gate.runtime value (by simp [fate_setRegistry, habout, hfate]) fun s => ?_
        rw [entry_setRegistry, hnone]
        by_cases hs : s = gate.runtime <;> simp [hs]
      · refine (h.placed g j).congr (by simp [fate_setRegistry, habout, hsame]) fun s => ?_
        rw [entry_setRegistry]
        split
        · next hs =>
          obtain ⟨rfl, rfl⟩ := hs
          rw [lookup_insert_ite, if_neg fun hj => hsame ⟨rfl, hj.symm⟩]
          rfl
        · rfl
    · have hsame : ¬ (f = g ∧ id = j) := fun hsame => Nat.not_le_of_lt (hsame.1 ▸ hsame.2 ▸ hj) hid
      exact ⟨by simp [fate_setRegistry, habout, hsame, (h.undrawn g j hj).1], (h.undrawn g j hj).2⟩
    · have hsame : ¬ (f = g ∧ id = j) := fun hsame => hj (hsame.1 ▸ hsame.2 ▸ hopened)
      simp [fate_setRegistry, habout, hsame, h.unoffered g j hj]
  case h_2 => exact h

/-! ## Epochs and sweeps -/

def generation (w : World V) (r : Nat) : Option Nat := w.runtimes[r]?.map (·.generation)

/-- An entry of the history that installs a resource does so in a registry of the gate's runtime, which was neither
detached nor swept in that family before. -/
def Timely (before : List (Note V)) (note : Note V) : Prop :=
  ∀ gate r f id value, note = .installed gate r f id value →
    gate.runtime = r ∧ .detached r ∉ before ∧ ∀ entries, .drained r f entries ∉ before

structure Dated (w : World V) : Prop where
  drained : ∀ r f entries, .drained r f entries ∈ w.log → (w.registries r f).closed = true ∧ ∀ id, w.entry f id r = none
  detached : ∀ r, .detached r ∈ w.log → ∃ g < w.nodeEpoch, w.generation r = some g
  current : ∀ r, w.current = some r → w.generation r = some w.nodeEpoch
  gates : ∀ gate ∈ w.gates, w.generation gate.runtime = some gate.epoch
  opened : ∀ f id gate value, w.opened f id = some (gate, value) → gate ∈ w.gates
  installed : Always Timely w.log

theorem Dated.runtimes (h : Dated w) (runtimes : List NodeRuntime) (current : Option Nat)
    (hsame : ∀ r g, w.generation r = some g → (runtimes[r]?.map (·.generation)) = some g)
    (hcurrent : ∀ r, current = some r → (runtimes[r]?.map (·.generation)) = some w.nodeEpoch) :
    Dated { w with runtimes := runtimes, current := current } :=
  { h with
    detached r hr := by
      obtain ⟨g, hlt, hg⟩ := h.detached r hr
      exact ⟨g, hlt, hsame r g hg⟩
    current := hcurrent
    gates gate hgate := hsame _ _ (h.gates gate hgate) }

theorem Dated.opens (h : Dated w) (last : Family → Nat) {resource : Option (NodeGate × V)}
    (hgate : ∀ gate value, resource = some (gate, value) → gate ∈ w.gates) :
    Dated ({ w with lastID := last }.setOpened f id resource) :=
  { h with
    opened g j gate value hopened := by
      rw [opened_setOpened] at hopened
      split at hopened
      · exact hgate gate value hopened
      · exact h.opened g j gate value hopened }

theorem Dated.setRegistry (h : Dated w) {registry : FdRegistry V} {note : Note V}
    (hkeeps : (w.registries r f).closed = true → registry.closed = true ∧
      ∀ id, w.entry f id r = none → registry.entries.lookup id = none)
    (hdrained : ∀ s g entries, note = .drained s g entries → s = r ∧ g = f ∧ registry.closed = true ∧
      ∀ id, registry.entries.lookup id = none)
    (hdetached : ∀ s, note ≠ .detached s) (htimely : Timely w.log note) : Dated (w.setRegistry r f registry note) where
  drained s g entries hmem := by
    have hclosed : ((w.setRegistry r f registry note).registries s g).closed =
        if s = r ∧ g = f then registry.closed else (w.registries s g).closed := by
      by_cases hs : s = r
      · subst hs
        by_cases hg : g = f <;> simp [World.setRegistry, hg]
      · simp [World.setRegistry, hs]
    simp only [hclosed, entry_setRegistry]
    rcases List.mem_append.mp hmem with hold | hnew
    · obtain ⟨hc, hnone⟩ := h.drained s g entries hold
      split
      · next heq =>
        obtain ⟨rfl, rfl⟩ := heq
        exact ⟨(hkeeps hc).1, fun id => (hkeeps hc).2 id (hnone id)⟩
      · exact ⟨hc, hnone⟩
    · obtain ⟨rfl, rfl, hc, hnone⟩ := hdrained s g entries (List.mem_singleton.mp hnew).symm
      simpa using ⟨hc, hnone⟩
  detached s hmem := by
    rcases List.mem_append.mp hmem with hold | hnew
    · exact h.detached s hold
    · exact absurd (List.mem_singleton.mp hnew).symm (hdetached s)
  current := h.current
  gates := h.gates
  opened := h.opened
  installed := always_concat.mpr ⟨h.installed, htimely⟩

theorem Dated.erase (h : Dated w) {note : Note V} (hdrained : ∀ s g entries, note ≠ .drained s g entries)
    (hdetached : ∀ s, note ≠ .detached s) (hinstalled : ∀ gate s g j value, note ≠ .installed gate s g j value) :
    Dated (w.setRegistry r f { w.registries r f with entries := (w.registries r f).entries.erase id } note) := by
  refine h.setRegistry (fun hclosed => ⟨hclosed, fun j hnone => ?_⟩)
    (fun s g entries heq => absurd heq (hdrained s g entries))
    hdetached fun gate s g j value heq => absurd heq (hinstalled gate s g j value)
  rw [lookup_erase_ite]
  split
  · rfl
  · exact hnone

/-- The epoch is that of the gate's runtime, so the runtime was not detached; the registry is open, so it was not
swept. -/
theorem Dated.commit (h : Dated w) {gate : NodeGate} (hgate : gate ∈ w.gates) (f : Family) (id : Nat) (value : V) :
    Dated (w.commit f id gate value) := by
  unfold World.commit FdRegistry.commit
  split
  case h_1 registry heq =>
    split at heq
    · cases heq
    next hopen =>
    obtain rfl := Option.some.inj heq
    obtain ⟨hclosed, hcurrent⟩ : (w.registries gate.runtime f).closed = false ∧ w.nodeEpoch = gate.epoch := by
      simpa [stillCurrent] using hopen
    refine h.setRegistry (fun hc => ?_) nofun nofun ?_
    · rw [hclosed] at hc
      cases hc
    · intro gate' r g j value' hnote
      cases hnote
      refine ⟨rfl, fun hdetached => ?_, fun entries hdrained => ?_⟩
      · obtain ⟨g, hlt, hg⟩ := h.detached _ hdetached
        obtain rfl := Option.some.inj ((h.gates gate hgate).symm.trans hg)
        exact absurd hcurrent (Nat.ne_of_gt hlt)
      · rw [(h.drained _ _ _ hdrained).1] at hclosed
        cases hclosed
  case h_2 => exact h

def Consistent (w : World V) : Prop := Accounted w ∧ Dated w

theorem consistent_start : Consistent ({} : World V) := by
  refine ⟨⟨fun f id => .nowhere rfl fun _ => rfl, fun f id _ => ⟨rfl, rfl⟩, fun f id h => absurd rfl h⟩, ?_⟩
  exact ⟨nofun, nofun, nofun, nofun, nofun, always_nil⟩

variable [DecidableEq V]

theorem Consistent.step (h : Consistent w) {e : Event V} (hstep : w.step e = some w') : Consistent w' := by
  obtain ⟨hids, hdates⟩ := h
  cases e with
  | start token =>
    simp only [World.step] at hstep
    split at hstep
    · obtain rfl := Option.some.inj hstep
      refine ⟨hids.frame rfl rfl rfl fun _ _ => rfl, hdates.runtimes _ _ (fun r g hg => ?_) fun r hr => ?_⟩
      · obtain ⟨runtime, hr, rfl⟩ := Option.map_eq_some_iff.mp hg
        rw [List.getElem?_append_left (List.getElem?_eq_some_iff.mp hr).1, hr]
        rfl
      · obtain rfl := Option.some.inj hr
        rw [List.getElem?_concat_length]
        rfl
    · cases hstep
  | acquireNodeGateForRuntimeToken runtimeToken =>
    obtain ⟨r, hr, hstep⟩ := Option.bind_eq_some_iff.mp hstep
    obtain ⟨runtime, hruntime, hstep⟩ := Option.bind_eq_some_iff.mp hstep
    split at hstep
    · cases hstep
    · obtain rfl := Option.some.inj hstep
      refine ⟨hids.frame rfl rfl rfl fun _ _ => rfl, { hdates with gates := ?_, opened := ?_ }⟩
      · intro gate hgate
        rcases List.mem_append.mp hgate with hold | hnew
        · exact hdates.gates gate hold
        · obtain rfl := List.mem_singleton.mp hnew
          exact congrArg (Option.map (·.generation)) hruntime
      · intro f id gate value hopened
        exact List.mem_append_left _ (hdates.opened f id gate value hopened)
  | opens i f value =>
    obtain ⟨gate, hgate, rfl⟩ := Option.map_eq_some_iff.mp hstep
    refine ⟨hids.opens f _, hdates.opens _ fun gate' value' heq => ?_⟩
    cases heq
    exact List.mem_of_getElem? hgate
  | commit f id =>
    obtain ⟨⟨gate, value⟩, hopened, rfl⟩ := Option.map_eq_some_iff.mp hstep
    have hid : id ≤ w.lastID f := by
      refine Nat.le_of_not_lt fun hlt => ?_
      rw [(hids.undrawn f id hlt).2] at hopened
      cases hopened
    refine ⟨(hids.offered f id).commit (hids.unoffered f id (by simp [hopened])) hid
      (by simp [opened_setOpened]) gate value, ?_⟩
    have hoffered : Dated (w.setOpened f id none) := hdates.opens w.lastID nofun
    exact hoffered.commit (hdates.opened f id gate value hopened) f id value
  | take r f id =>
    simp only [World.step, FdRegistry.take] at hstep
    cases hthere : (w.registries r f).entries.lookup id with
    | none =>
      rw [hthere] at hstep
      obtain rfl := Option.some.inj hstep
      exact ⟨hids, hdates⟩
    | some value =>
      rw [hthere] at hstep
      obtain rfl := Option.some.inj hstep
      exact ⟨hids.erase hthere fun _ _ => rfl, hdates.erase nofun nofun nofun⟩
  | removeMatching r f id value =>
    simp only [World.step, FdRegistry.removeMatching] at hstep
    split at hstep
    case h_1 heq =>
      split at heq
      case isTrue hthere =>
        obtain rfl := Option.some.inj hstep
        cases heq
        exact ⟨hids.erase hthere fun _ _ => rfl, hdates.erase nofun nofun nofun⟩
      case isFalse => cases heq
    case h_2 =>
      obtain rfl := Option.some.inj hstep
      exact ⟨hids, hdates⟩
  | detachRuntimeLocked =>
    obtain ⟨r, hr, rfl⟩ := Option.map_eq_some_iff.mp hstep
    refine ⟨hids.frame rfl rfl rfl fun f id => by simp [fate, Note.about], { hdates with
      drained := ?_, detached := ?_, current := nofun, installed := always_concat.mpr ⟨hdates.installed, nofun⟩ }⟩
    · intro s f entries hmem
      exact hdates.drained s f entries (by simpa using hmem)
    · intro s hmem
      rcases List.mem_append.mp hmem with hold | hnew
      · obtain ⟨g, hlt, hg⟩ := hdates.detached s hold
        exact ⟨g, Nat.lt_succ_of_lt hlt, hg⟩
      · cases List.mem_singleton.mp hnew
        exact ⟨w.nodeEpoch, Nat.lt_succ_self _, hdates.current _ hr⟩
  | cancel r =>
    simp only [World.step] at hstep
    split at hstep
    · cases hstep
    · obtain ⟨runtime, hr, rfl⟩ := Option.map_eq_some_iff.mp hstep
      have hsame : ∀ s, ((w.runtimes.set r { runtime with canceled := true })[s]?.map (·.generation)) =
        w.generation s := by
        intro s
        rw [List.getElem?_set, generation]
        split
        · next heq =>
          subst heq
          rw [if_pos (List.getElem?_eq_some_iff.mp hr).1, hr]
          rfl
        · rfl
      exact ⟨hids.frame rfl rfl rfl fun _ _ => rfl, hdates.runtimes _ _ (fun s g hg => (hsame s).trans hg)
        fun s hs => (hsame s).trans (hdates.current s hs)⟩
  | drain r f =>
    simp only [World.step] at hstep
    split at hstep
    · cases hstep
    · obtain rfl := Option.some.inj hstep
      refine ⟨hids.drain r f, hdates.setRegistry (fun _ => ⟨rfl, fun _ _ => rfl⟩)
        (fun s g entries heq => ?_) nofun nofun⟩
      cases heq
      exact ⟨rfl, rfl, rfl, fun _ => rfl⟩

/-- In every run: a resource opened under the gate of a runtime is only ever installed in that runtime's registry, and
not after the runtime was detached or that registry swept; a swept registry stays empty; and a resource that was
installed is in its registry, or has left it once and is in none. -/
theorem installed_then_left (h : Machine.Reachable step (fun _ _ => True) ({} : World V) w) :
    Always (fun before note => ∀ gate r f id value, note = .installed gate r f id value →
        gate.runtime = r ∧ .detached r ∉ before ∧ ∀ entries, .drained r f entries ∉ before) w.log ∧
      (∀ r f entries, .drained r f entries ∈ w.log → ∀ id, w.entry f id r = none) ∧
      ∀ f id, w.fate f id = [] ∧ (∀ r, w.entry f id r = none) ∨
        ∃ r value, w.fate f id = [.installed r value] ∧ (∀ s, w.entry f id s = if s = r then some value else none) ∨
          ∃ how, w.fate f id = [.installed r value, .left r value how] ∧ ∀ s, w.entry f id s = none := by
  obtain ⟨hids, hdates⟩ : w.Consistent := h.invariant consistent_start fun _ _ _ hw _ hstep => hw.step hstep
  refine ⟨hdates.installed, fun r f entries hmem => (hdates.drained r f entries hmem).2, fun f id => ?_⟩
  cases hids.placed f id with
  | nowhere hfate hentry => exact .inl ⟨hfate, hentry⟩
  | inside r value hfate hentry => exact .inr ⟨r, value, .inl ⟨hfate, hentry⟩⟩
  | gone r value how hfate hentry => exact .inr ⟨r, value, .inr ⟨how, hfate, hentry⟩⟩

/-- Two listeners of one runtime: one is taken, the other is swept, and a third offered after the sweep is refused. -/
theorem installed_then_left_swept :
    ∃ w : World String, Machine.Reachable step (fun _ _ => True) {} w ∧
      w.fate .tcpListeners 1 = [.installed 0 "a", .left 0 "a" .take] ∧
      w.fate .tcpListeners 2 = [.installed 0 "b", .left 0 "b" .drain] ∧ w.fate .tcpListeners 3 = [] ∧
      ∀ id, w.entry .tcpListeners id 0 = none := by
  obtain ⟨w, hrun, h1, h2, h3, hmem⟩ : ∃ w, Machine.follow step (fun _ _ => true) ({} : World String)
      [.start 7, .acquireNodeGateForRuntimeToken 7, .opens 0 .tcpListeners "a", .opens 0 .tcpListeners "b",
        .opens 0 .tcpListeners "c", .commit .tcpListeners 1, .commit .tcpListeners 2, .take 0 .tcpListeners 1,
        .detachRuntimeLocked, .drain 0 .tcpListeners, .start 8, .commit .tcpListeners 3] = some w ∧
      w.fate .tcpListeners 1 = [.installed 0 "a", .left 0 "a" .take] ∧
      w.fate .tcpListeners 2 = [.installed 0 "b", .left 0 "b" .drain] ∧ w.fate .tcpListeners 3 = [] ∧
      ∃ entries, w.log.getLast? = some (.drained 0 .tcpListeners entries) := ⟨_, rfl, rfl, rfl, rfl, _, rfl⟩
  obtain ⟨entries, hmem⟩ := hmem
  have hreach := Machine.Reachable.follow (fun _ _ _ => trivial) .start hrun
  have hempty := (installed_then_left hreach).2.1 0 .tcpListeners entries (List.mem_of_getLast? hmem)
  exact ⟨w, hreach, h1, h2, h3, hempty⟩

end World

end TailscaleDart.Runtime.FdResources
