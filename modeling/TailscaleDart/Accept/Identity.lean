import Mathlib.Logic.Function.Basic
import TailscaleDart.Conc.Pool

/-!
# Accept.Identity — whose identity index answers for an accepted connection

A listener or an HTTP binding belongs to one runtime: it was opened on that runtime's server and
registered in that runtime's own registry. The identity attached to what it accepts is looked up
AFTER the accept, by `lookupNodeIdentity`, which asks `currentRuntime` again. The model keeps the
two apart: a connection remembers the runtime its listener was opened on, an identity remembers
the runtime that answered it.

`lookupNodeIdentity` is the one labelled step. The label carries the runtime that accepted, so that
a property of runs can say in which state that runtime's lookup reads `currentRuntime`; the source
does not pass it along, which is the whole point.

What is proved: as long as each lookup finds its own runtime current, or none, every identity that
was ever attached was answered by the accepting runtime's own index or LocalAPI, for the remote
address (`accepted_by_own_runtime`). Without that condition it is not so
(`accepted_through_replacement`): a replacement that is published between the accept and the lookup
answers for the old runtime's connection.
-/

namespace TailscaleDart.Accept

open TailscaleDart.Conc

/-- A listener, known by the runtime whose server opened it. -/
structure Listener where
  runtime : Nat
  deriving DecidableEq, Repr

/-- An identity together with the runtime that answered it and the address it was asked for. -/
structure Resolved (Addr Ident : Type) where
  via : Nat
  addr : Addr
  identity : Ident
  deriving DecidableEq, Repr

/-- The runtimes of the process, numbered in the order of their construction. `currentRuntime` and
`nodeEpoch` are the controller's; the rest belongs to the runtimes. -/
structure AcceptState (Addr Ident : Type) where
  current : Option Nat := none
  nodeEpoch : Nat := 1
  constructed : Nat := 0
  generation : Nat → Nat := fun _ => 0
  cancelled : Nat → Bool := fun _ => false
  -- `identityIndex.byAddr`; a nil map answers nothing, like an empty one
  identity : Nat → Addr → Option Ident := fun _ _ => none
  swept : Nat → Bool := fun _ => false
  tcpListeners : Nat → Nat → Option Listener := fun _ _ => none
  httpBindings : Nat → Nat → Option Listener := fun _ _ => none
  -- the listener that a binding's `http.Serve` goroutine serves, also after its registry is drained
  served : Nat → Option Listener := fun _ => none
  tcpFdListenerID : Nat := 0
  httpBindingID : Nat := 0
  -- every answer an index or a LocalAPI has given
  answered : List (Resolved Addr Ident) := []

/-- What a step learns from the network and from the LocalAPI. -/
structure AcceptEnv (Addr Ident : Type) where
  -- the remote address of an accepted connection as `netip.ParseAddr` reads it
  remote : Option Addr := none
  failed : Bool := false
  whoIs : Option Ident := none

/-- What was accepted: the listener it came in on, the remote address, the attached identity. -/
structure Accepted (Addr Ident : Type) where
  listener : Listener
  remote : Option Addr
  identity : Option (Resolved Addr Ident)
  deriving DecidableEq, Repr

inductive AcceptCall (Addr Ident : Type) where
  -- lifecycle: a runtime is constructed and published, detached, and its registries drained
  | publish
  | detach (runtime : Nat)
  | drain (runtime : Nat)
  -- the watcher's updates of a runtime's index
  | replace (runtime : Nat) (byAddr : Addr → Option Ident)
  | invalidate (runtime : Nat)
  | tcpListen (runtime : Nat)
  | httpBind (runtime : Nat)
  | tcpAccept (listenerID : Nat)
  -- the handler goroutine of one request on a binding's listener
  | serveHTTP (bindingID : Nat)

inductive AcceptRet (Addr Ident : Type) where
  | unit
  | closed
  | accepted (a : Accepted Addr Ident)

/-- The steps. `lookup runtime` is the read of `currentRuntime` by the identity lookup for what
`runtime` accepted. -/
inductive AcceptStep where
  | lookup (runtime : Nat)
  | other
  deriving DecidableEq, Repr

variable {Addr Ident : Type}

abbrev AcceptProg (Addr Ident : Type) := Prog AcceptStep (AcceptState Addr Ident) (AcceptEnv Addr Ident)

/-- `nodeRuntime.validateCurrent`. -/
def AcceptState.stale (s : AcceptState Addr Ident) (r : Nat) : Bool :=
  s.cancelled r || s.nodeEpoch ≠ s.generation r

/-! ## Lifecycle -/

/-- `runtimeController.commit` of a freshly reserved candidate, whose generation is the epoch it was
reserved in; admission requires that no runtime is current. -/
def publish : AcceptProg Addr Ident Unit :=
  .step .other fun _ s => match s.current with
    | some _ => some ((), s)
    | none => some ((), { s with
        current := some s.constructed
        constructed := s.constructed + 1
        generation := Function.update s.generation s.constructed s.nodeEpoch })

/-- `detachRuntimeLocked`. -/
def detach (r : Nat) : AcceptProg Addr Ident Unit :=
  .step .other fun _ s =>
    if s.current = some r then
      some ((), { s with current := none, nodeEpoch := s.nodeEpoch + 1,
                         cancelled := Function.update s.cancelled r true })
    else some ((), s)

/-- `fdResources.closeAll`. -/
def drain (r : Nat) : AcceptProg Addr Ident Unit :=
  .step .other fun _ s => some ((), { s with
    swept := Function.update s.swept r true
    tcpListeners := Function.update s.tcpListeners r fun _ => none
    httpBindings := Function.update s.httpBindings r fun _ => none })

def replaceIndex (r : Nat) (byAddr : Addr → Option Ident) : AcceptProg Addr Ident Unit :=
  .step .other fun _ s => some ((), { s with identity := Function.update s.identity r byAddr })

/-- `gateForRuntimeToken` admits the exact current runtime. -/
def gateForRuntime (r : Nat) : AcceptProg Addr Ident Bool :=
  .step .other fun _ s => some (s.current = some r && !s.cancelled r, s)

/-- `fdRegistry.commit` under the gate of `r`, for the family chosen by `http`. -/
def commitListener (http : Bool) (r : Nat) : AcceptProg Addr Ident Unit :=
  .step .other fun _ s =>
    if s.swept r || s.nodeEpoch ≠ s.generation r then some ((), s)
    else if http then some ((), { s with
        httpBindingID := s.httpBindingID + 1
        served := Function.update s.served (s.httpBindingID + 1) (some ⟨r⟩)
        httpBindings := Function.update s.httpBindings r
          (Function.update (s.httpBindings r) (s.httpBindingID + 1) (some ⟨r⟩)) })
    else some ((), { s with
        tcpFdListenerID := s.tcpFdListenerID + 1
        tcpListeners := Function.update s.tcpListeners r
          (Function.update (s.tcpListeners r) (s.tcpFdListenerID + 1) (some ⟨r⟩)) })

/-- `TcpListenFd` and `HttpBind`, as far as registration is concerned. -/
def listen (http : Bool) (r : Nat) : AcceptProg Addr Ident Unit := do
  if ← gateForRuntime r then commitListener http r else pure ()

/-! ## The lookup -/

/-- `lcOr`: the current runtime, whichever it is by now. -/
def lcOr (accepting : Nat) : AcceptProg Addr Ident (Option Nat) :=
  .step (.lookup accepting) fun _ s => some (s.current, s)

/-- `identityIndex.lookup`. -/
def indexLookup (r : Nat) (addr : Addr) : AcceptProg Addr Ident (Option (Resolved Addr Ident)) :=
  .step .other fun _ s => match s.identity r addr with
    | some id => some (some ⟨r, addr, id⟩, { s with answered := s.answered ++ [⟨r, addr, id⟩] })
    | none => some (none, s)

/-- `lc.WhoIs` on the LocalAPI of runtime `r`. -/
def whoIs (r : Nat) (addr : Addr) : AcceptProg Addr Ident (Option (Resolved Addr Ident)) :=
  .step .other fun e s => match e.whoIs with
    | some id => some (some ⟨r, addr, id⟩, { s with answered := s.answered ++ [⟨r, addr, id⟩] })
    | none => some (none, s)

/-- `lc.resultError`: a runtime that is stale by now answers nothing. -/
def resultError (r : Nat) (answer : Option (Resolved Addr Ident)) :
    AcceptProg Addr Ident (Option (Resolved Addr Ident)) :=
  .step .other fun _ s => some (if s.stale r then none else answer, s)

def lookupNodeIdentityViaLocalAPIWithClient (r : Nat) (addr : Addr) :
    AcceptProg Addr Ident (Option (Resolved Addr Ident)) := do
  resultError r (← whoIs r addr)

/-- `lookupNodeIdentity`. `accepting` is only the label's. -/
def lookupNodeIdentity (accepting : Nat) : Option Addr → AcceptProg Addr Ident (Option (Resolved Addr Ident))
  | none => pure none
  | some addr => do
    match ← lcOr accepting with
    | none => pure none
    | some r =>
      match ← indexLookup r addr with
      | some resolved => pure (some resolved)
      | none => lookupNodeIdentityViaLocalAPIWithClient r addr

/-! ## The accept paths -/

/-- `currentTcpListeners().get(listenerID)`. -/
def getListener (listenerID : Nat) : AcceptProg Addr Ident (Option Listener) :=
  .step .other fun _ s => some (s.current.bind fun r => s.tcpListeners r listenerID, s)

/-- The blocking `Accept`, or the arrival of a request, and the socket pairs: the remote address,
unless something failed. -/
def acceptConn : AcceptProg Addr Ident (Option (Option Addr)) :=
  .step .other fun e s => some (if e.failed then none else some e.remote, s)

/-- What both accept paths do with an accepted connection. -/
def attachIdentity (listener : Listener) : AcceptProg Addr Ident (AcceptRet Addr Ident) := do
  match ← acceptConn with
  | none => return .closed
  | some remote =>
    let identity ← lookupNodeIdentity listener.runtime remote
    return .accepted ⟨listener, remote, identity⟩

def tcpAcceptFd (listenerID : Nat) : AcceptProg Addr Ident (AcceptRet Addr Ident) := do
  match ← getListener listenerID with
  | none => return .closed
  | some listener => attachIdentity listener

/-- A request arrives on the listener of a binding that is being served. -/
def requestArrives (bindingID : Nat) : AcceptProg Addr Ident Listener :=
  .step .other fun _ s => (s.served bindingID).map fun listener => (listener, s)

def serveHTTPFdRequest (bindingID : Nat) : AcceptProg Addr Ident (AcceptRet Addr Ident) := do
  attachIdentity (← requestArrives bindingID)

def body (_ : Nat) : AcceptCall Addr Ident → AcceptProg Addr Ident (AcceptRet Addr Ident)
  | .publish => do publish; return .unit
  | .detach r => do detach r; return .unit
  | .drain r => do drain r; return .unit
  | .replace r byAddr => do replaceIndex r byAddr; return .unit
  | .invalidate r => do replaceIndex r (fun _ => none); return .unit
  | .tcpListen r => do listen false r; return .unit
  | .httpBind r => do listen true r; return .unit
  | .tcpAccept id => tcpAcceptFd id
  | .serveHTTP id => serveHTTPFdRequest id

/-! ## What the accepting runtime owns -/

/-- Every registered listener was opened on the runtime whose registry holds it. -/
structure OwnListeners (s : AcceptState Addr Ident) : Prop where
  tcp : ∀ r id ln, s.tcpListeners r id = some ln → ln.runtime = r
  http : ∀ r id ln, s.httpBindings r id = some ln → ln.runtime = r

/-- The identity attached to `a` is nil, or an answer that the runtime of `a`'s listener gave for
`a`'s remote address. -/
def OwnAnswer (s : AcceptState Addr Ident) (a : Accepted Addr Ident) : Prop :=
  ∀ resolved, a.identity = some resolved →
    resolved.via = a.listener.runtime ∧ a.remote = some resolved.addr ∧ resolved ∈ s.answered

def AcceptPost : AcceptRet Addr Ident → AcceptState Addr Ident → Prop
  | .accepted a, s => OwnAnswer s a
  | _, _ => True

/-- Each lookup finds the runtime it looks up for current, or none. -/
def FindsOwn : AcceptStep → AcceptState Addr Ident → Prop
  | .lookup r, s => s.current = some r ∨ s.current = none
  | .other, _ => True

def discipline (Addr Ident : Type) :
    Discipline (AcceptCall Addr Ident) AcceptStep (AcceptState Addr Ident) (AcceptRet Addr Ident) where
  inv := OwnListeners
  guar := fun _ _ _ s s' => OwnListeners s' ∧ ∀ x ∈ s.answered, x ∈ s'.answered
  post := fun _ _ r s => AcceptPost r s
  keeps := fun _ h => h.1

abbrev AcceptSafe {α : Type} (i : Nat) (c : AcceptCall Addr Ident)
    (post : α → AcceptState Addr Ident → Prop) (p : AcceptProg Addr Ident α) (s : AcceptState Addr Ident) : Prop :=
  Safe ((discipline Addr Ident).contract FindsOwn i c) post p s

variable {α : Type} {i : Nat} {c : AcceptCall Addr Ident} {s : AcceptState Addr Ident}

theorem stable_answered (i : Nat) (x : Resolved Addr Ident) :
    (discipline Addr Ident).Stable i fun s => x ∈ s.answered := by
  rintro s s' ⟨-, j, c, lbl, -, -, hmono⟩ hx
  exact hmono x hx

theorem stable_ownAnswer (i : Nat) (a : Accepted Addr Ident) :
    (discipline Addr Ident).Stable i fun s => OwnAnswer s a := by
  rintro s s' hother ha resolved hres
  obtain ⟨hvia, haddr, hmem⟩ := ha resolved hres
  exact ⟨hvia, haddr, stable_answered i resolved s s' hother hmem⟩

/-- A step, from the invariant. -/
theorem acceptSafe_step {lbl : AcceptStep}
    {f : AcceptEnv Addr Ident → AcceptState Addr Ident → Option (α × AcceptState Addr Ident)}
    {post : α → AcceptState Addr Ident → Prop}
    (hpost : ∀ a, (discipline Addr Ident).Stable i (post a)) (hs : OwnListeners s)
    (h : ∀ s', OwnListeners s' → FindsOwn lbl s' → ∀ e a s'', f e s' = some (a, s'') →
      (OwnListeners s'' ∧ ∀ x ∈ s'.answered, x ∈ s''.answered) ∧ post a s'') : AcceptSafe i c post (.step lbl f) s := by
  refine Safe.act_among OwnListeners (Discipline.stable_inv i) hs fun s' hs' hok e a s'' hf => ?_
  obtain ⟨howed, ha⟩ := h s' hs' hok e a s'' hf
  exact ⟨howed, Safe.pure_among (hpost a) ha⟩

abbrev KeepsListeners (i : Nat) (c : AcceptCall Addr Ident) (p : AcceptProg Addr Ident α) (s : AcceptState Addr Ident) :
    Prop := AcceptSafe i c (fun _ => OwnListeners) p s

/-- A step that changes neither the registries nor the answers given. -/
theorem acceptSafe_quiet {f : AcceptEnv Addr Ident → AcceptState Addr Ident → Option (α × AcceptState Addr Ident)}
    (hs : OwnListeners s) (h : ∀ e s' a s'', f e s' = some (a, s'') → s''.tcpListeners = s'.tcpListeners ∧
      s''.httpBindings = s'.httpBindings ∧ s''.answered = s'.answered) :
    KeepsListeners i c (.step .other f) s := by
  refine acceptSafe_step (fun _ => Discipline.stable_inv i) hs fun s' hs' _ e a s'' hf => ?_
  obtain ⟨htcp, hhttp, hans⟩ := h e s' a s'' hf
  have hown : OwnListeners s'' := ⟨htcp ▸ hs'.tcp, hhttp ▸ hs'.http⟩
  exact ⟨⟨hown, fun x hx => hans ▸ hx⟩, hown⟩

/-! ## Each function -/

theorem publish_safe (hs : OwnListeners s) : KeepsListeners i c publish s := by
  refine acceptSafe_quiet hs fun e s' a s'' hf => ?_
  split at hf <;>
  · cases hf
    exact ⟨rfl, rfl, rfl⟩

theorem detach_safe (r : Nat) (hs : OwnListeners s) : KeepsListeners i c (detach r) s := by
  refine acceptSafe_quiet hs fun e s' a s'' hf => ?_
  split at hf <;>
  · cases hf
    exact ⟨rfl, rfl, rfl⟩

theorem replaceIndex_safe (r : Nat) (byAddr : Addr → Option Ident) (hs : OwnListeners s) :
    KeepsListeners i c (replaceIndex r byAddr) s := by
  refine acceptSafe_quiet hs fun e s' a s'' hf => ?_
  cases hf
  exact ⟨rfl, rfl, rfl⟩

theorem own_of_update_none {registry : Nat → Nat → Option Listener} (r : Nat)
    (h : ∀ r id ln, registry r id = some ln → ln.runtime = r) :
    ∀ r' id ln, Function.update registry r (fun _ => none) r' id = some ln → ln.runtime = r' := by
  intro r' id ln hln
  by_cases hr : r' = r
  · subst hr
    simp only [Function.update_self, reduceCtorEq] at hln
  · rw [Function.update_of_ne hr] at hln
    exact h r' id ln hln

/-- Registering a listener of `r` in the registry of `r`. -/
theorem own_of_update_listener {registry : Nat → Nat → Option Listener} (r id : Nat)
    (h : ∀ r id ln, registry r id = some ln → ln.runtime = r) :
    ∀ r' id' ln, Function.update registry r (Function.update (registry r) id (some ⟨r⟩)) r' id' =
      some ln → ln.runtime = r' := by
  intro r' id' ln hln
  by_cases hr : r' = r
  · subst hr
    rw [Function.update_self] at hln
    by_cases hid : id' = id
    · subst hid
      rw [Function.update_self] at hln
      obtain rfl := Option.some.inj hln
      rfl
    · rw [Function.update_of_ne hid] at hln
      exact h r' id' ln hln
  · rw [Function.update_of_ne hr] at hln
    exact h r' id' ln hln

theorem drain_safe (r : Nat) (hs : OwnListeners s) : KeepsListeners i c (drain r) s := by
  refine acceptSafe_step (fun _ => Discipline.stable_inv i) hs fun s' hs' _ e a s'' hf => ?_
  cases hf
  have hown : OwnListeners { s' with
      swept := Function.update s'.swept r true
      tcpListeners := Function.update s'.tcpListeners r fun _ => none
      httpBindings := Function.update s'.httpBindings r fun _ => none } :=
    ⟨own_of_update_none r hs'.tcp, own_of_update_none r hs'.http⟩
  exact ⟨⟨hown, fun _ hx => hx⟩, hown⟩

theorem commitListener_safe (http : Bool) (r : Nat) (hs : OwnListeners s) :
    KeepsListeners i c (commitListener http r) s := by
  refine acceptSafe_step (fun _ => Discipline.stable_inv i) hs fun s' hs' _ e a s'' hf => ?_
  split at hf
  · cases hf
    exact ⟨⟨hs', fun _ hx => hx⟩, hs'⟩
  · cases http with
    | true =>
      simp only [if_true, Option.some.injEq, Prod.mk.injEq] at hf
      obtain ⟨-, rfl⟩ := hf
      have hhttp := own_of_update_listener r (s'.httpBindingID + 1) hs'.http
      exact ⟨⟨⟨hs'.tcp, hhttp⟩, fun _ hx => hx⟩, ⟨hs'.tcp, hhttp⟩⟩
    | false =>
      simp only [Bool.false_eq_true, if_false, Option.some.injEq, Prod.mk.injEq] at hf
      obtain ⟨-, rfl⟩ := hf
      have htcp := own_of_update_listener r (s'.tcpFdListenerID + 1) hs'.tcp
      exact ⟨⟨⟨htcp, hs'.http⟩, fun _ hx => hx⟩, ⟨htcp, hs'.http⟩⟩

theorem listen_safe (http : Bool) (r : Nat) (hs : OwnListeners s) :
    KeepsListeners i c (listen http r) s := by
  have hgate : KeepsListeners i c (gateForRuntime r) s := by
    refine acceptSafe_quiet hs fun e s' a s'' hf => ?_
    cases hf
    exact ⟨rfl, rfl, rfl⟩
  refine Safe.bind_among hgate fun admitted s1 hs1 => ?_
  cases admitted with
  | true => exact commitListener_safe http r hs1
  | false => exact Safe.pure_among (Discipline.stable_inv i) hs1

/-- What the lookup has in hand: nothing, or an answer that `r` gave for `addr`. -/
def AnswerOf (r : Nat) (addr : Addr) (answer : Option (Resolved Addr Ident)) (s : AcceptState Addr Ident) : Prop :=
  OwnListeners s ∧ ∀ resolved, answer = some resolved → resolved.via = r ∧ resolved.addr = addr ∧ resolved ∈ s.answered

theorem stable_answerOf (i r : Nat) (addr : Addr) (answer : Option (Resolved Addr Ident)) :
    (discipline Addr Ident).Stable i (AnswerOf r addr answer) := by
  rintro s s' hother ⟨hown, ha⟩
  refine ⟨Discipline.stable_inv i s s' hother hown, fun resolved hres => ?_⟩
  obtain ⟨hvia, haddr, hmem⟩ := ha resolved hres
  exact ⟨hvia, haddr, stable_answered i resolved s s' hother hmem⟩

theorem answerOf_snoc {r : Nat} {addr : Addr} {id : Ident} (hs : OwnListeners s) :
    AnswerOf r addr (some ⟨r, addr, id⟩) { s with answered := s.answered ++ [⟨r, addr, id⟩] } := by
  refine ⟨⟨hs.tcp, hs.http⟩, fun resolved hres => ?_⟩
  obtain rfl := Option.some.inj hres
  exact ⟨rfl, rfl, List.mem_append_right _ (List.mem_singleton.mpr rfl)⟩

/-- An index that finds an identity or none, in the state or in the environment's answer. -/
theorem lookup_safe {r : Nat} {addr : Addr} {found : AcceptEnv Addr Ident → AcceptState Addr Ident → Option Ident}
    (hs : OwnListeners s) : AcceptSafe i c (fun answer s' => AnswerOf r addr answer s') (.step .other fun e s =>
      match found e s with
      | some id => some (some ⟨r, addr, id⟩, { s with answered := s.answered ++ [⟨r, addr, id⟩] })
      | none => some (none, s)) s := by
  refine acceptSafe_step (stable_answerOf i r addr) hs fun s' hs' _ e a s'' hf => ?_
  split at hf
  · cases hf
    exact ⟨⟨⟨hs'.tcp, hs'.http⟩, fun _ hx => List.mem_append_left _ hx⟩, answerOf_snoc hs'⟩
  · cases hf
    exact ⟨⟨hs', fun _ hx => hx⟩, hs', nofun⟩

theorem resultError_safe (r : Nat) (addr : Addr) (answer : Option (Resolved Addr Ident))
    (hs : AnswerOf r addr answer s) :
    AcceptSafe i c (fun answer' s' => AnswerOf r addr answer' s') (resultError r answer) s := by
  refine Safe.act_among (AnswerOf r addr answer) (stable_answerOf i r addr answer) hs ?_
  intro s' hs' _ e a s'' hf
  cases hf
  refine ⟨⟨hs'.1, fun _ hx => hx⟩, Safe.pure_among (stable_answerOf i r addr _) ⟨hs'.1, ?_⟩⟩
  intro resolved hres
  split at hres
  · cases hres
  · exact hs'.2 resolved hres

/-- The lookup for `accepting`, in a run where it finds `accepting` current or nothing. -/
theorem lookupNodeIdentity_safe (accepting : Nat) (remote : Option Addr) (hs : OwnListeners s) :
    AcceptSafe i c (fun identity s' => OwnAnswer s' ⟨⟨accepting⟩, remote, identity⟩)
      (lookupNodeIdentity accepting remote) s := by
  have hnil : ∀ s' : AcceptState Addr Ident, OwnAnswer s' ⟨⟨accepting⟩, remote, none⟩ :=
    fun s' _ h => by cases h
  cases remote with
  | none => exact Safe.pure_among (stable_ownAnswer i _) (hnil s)
  | some addr =>
  have hown : ∀ (answer : Option (Resolved Addr Ident)) s', AnswerOf accepting addr answer s' →
      OwnAnswer s' ⟨⟨accepting⟩, some addr, answer⟩ := by
    intro answer s' ha resolved hres
    obtain ⟨hvia, haddr, hmem⟩ := ha.2 resolved hres
    exact ⟨hvia, by rw [haddr], hmem⟩
  have hlc : AcceptSafe i c (fun found s' => OwnListeners s' ∧ (found = some accepting ∨ found = none))
      (lcOr accepting) s := by
    refine acceptSafe_step (fun _ => (Discipline.stable_inv i).and (Discipline.stable_const i _)) hs ?_
    intro s' hs' hok e a s'' hf
    cases hf
    exact ⟨⟨hs', fun _ hx => hx⟩, hs', hok⟩
  refine Safe.bind_among hlc ?_
  rintro found s1 ⟨hs1, rfl | rfl⟩
  · refine Safe.bind_among (lookup_safe hs1) fun answer s2 hs2 => ?_
    cases answer with
    | some resolved => exact Safe.pure_among (stable_ownAnswer i _) (hown _ s2 hs2)
    | none =>
      refine Safe.weaken (fun answer s' => hown answer s') _ _ ?_
      refine Safe.bind_among (lookup_safe hs2.1) fun answer s3 hs3 => ?_
      exact resultError_safe accepting addr answer hs3
  · exact Safe.pure_among (stable_ownAnswer i _) (hnil s1)

theorem attachIdentity_safe (listener : Listener) (hs : OwnListeners s) :
    AcceptSafe i c AcceptPost (attachIdentity listener) s := by
  have haccept : KeepsListeners i c acceptConn s := by
    refine acceptSafe_quiet hs fun e s' a s'' hf => ?_
    cases hf
    exact ⟨rfl, rfl, rfl⟩
  refine Safe.bind_among haccept fun arrived s1 hs1 => ?_
  cases arrived with
  | none => exact Safe.pure_among (Discipline.stable_const i True) trivial
  | some remote =>
    refine Safe.bind_among (lookupNodeIdentity_safe listener.runtime remote hs1) fun id s2 hs2 => ?_
    exact Safe.pure_among (stable_ownAnswer i _) hs2

theorem tcpAcceptFd_safe (listenerID : Nat) (hs : OwnListeners s) :
    AcceptSafe i c AcceptPost (tcpAcceptFd listenerID) s := by
  have hget : KeepsListeners i c (getListener listenerID) s := by
    refine acceptSafe_quiet hs fun e s' a s'' hf => ?_
    cases hf
    exact ⟨rfl, rfl, rfl⟩
  refine Safe.bind_among hget fun found s1 hs1 => ?_
  cases found with
  | none => exact Safe.pure_among (Discipline.stable_const i True) trivial
  | some listener => exact attachIdentity_safe listener hs1

theorem serveHTTPFdRequest_safe (bindingID : Nat) (hs : OwnListeners s) :
    AcceptSafe i c AcceptPost (serveHTTPFdRequest bindingID) s := by
  have harrive : KeepsListeners i c (requestArrives bindingID) s := by
    refine acceptSafe_quiet hs fun e s' a s'' hf => ?_
    obtain ⟨listener, -, hpair⟩ := Option.map_eq_some_iff.mp hf
    obtain ⟨-, rfl⟩ := Prod.mk.inj hpair
    exact ⟨rfl, rfl, rfl⟩
  exact Safe.bind_among harrive fun listener s1 hs1 => attachIdentity_safe listener hs1

theorem returnsUnit_safe {p : AcceptProg Addr Ident Unit} (h : KeepsListeners i c p s) :
    AcceptSafe i c AcceptPost (p.bind fun _ => .pure .unit) s :=
  Safe.bind_among h fun _ _ _ => Safe.pure_among (Discipline.stable_const i True) trivial

theorem body_respects : (discipline Addr Ident).Respects FindsOwn body := by
  intro i c s hs
  cases c with
  | publish => exact returnsUnit_safe (publish_safe hs)
  | detach r => exact returnsUnit_safe (detach_safe r hs)
  | drain r => exact returnsUnit_safe (drain_safe r hs)
  | replace r byAddr => exact returnsUnit_safe (replaceIndex_safe r byAddr hs)
  | invalidate r => exact returnsUnit_safe (replaceIndex_safe r _ hs)
  | tcpListen r => exact returnsUnit_safe (listen_safe false r hs)
  | httpBind r => exact returnsUnit_safe (listen_safe true r hs)
  | tcpAccept id => exact tcpAcceptFd_safe id hs
  | serveHTTP id => exact serveHTTPFdRequest_safe id hs

theorem initial_own : OwnListeners ({} : AcceptState Addr Ident) :=
  ⟨(fun _ _ _ h => nomatch h), (fun _ _ _ h => nomatch h)⟩

/-! ## Every run -/

abbrev AcceptPool (Addr Ident : Type) :=
  Pool (AcceptCall Addr Ident) AcceptStep (AcceptState Addr Ident) (AcceptEnv Addr Ident) (AcceptRet Addr Ident)

/-- Everything that was accepted so far carries nil or its own runtime's answer. -/
def AllOwnAnswers (p : AcceptPool Addr Ident) : Prop :=
  ∀ i c a, p.Returned i c (.accepted a) → OwnAnswer p.shared a

/-- **Identity at accept.** In every run in which each identity lookup reads `currentRuntime` while
the runtime that accepted is current, or none is, every attached identity is nil or an answer of the
accepting runtime's own index or LocalAPI for the remote address. -/
theorem accepted_by_own_runtime (p : AcceptPool Addr Ident) (h : Pool.Reachable body FindsOwn {} p) :
    AllOwnAnswers p := by
  obtain ⟨-, hreturned, -⟩ := Discipline.sound body_respects initial_own h
  exact fun i c a ha => hreturned i c _ ha

/-- A connection accepted on runtime 0 and resolved there. -/
def acceptOnOwn : List (Pool.Choice (AcceptCall Nat String) (AcceptEnv Nat String)) :=
  [.start .publish, .step 0 {}, .start (.tcpListen 0), .step 1 {}, .step 1 {},
    .start (.replace 0 fun _ => some "node-a"), .step 2 {},
    .start (.tcpAccept 1), .step 3 {}, .step 3 { remote := some 7 }, .step 3 {}, .step 3 {}]

/-- A decidable form of the condition on the lookups. -/
def findsOwn (lbl : AcceptStep) (s : AcceptState Addr Ident) : Bool :=
  match lbl with
  | .lookup r => s.current = some r || s.current = none
  | .other => true

theorem findsOwn_sound (lbl : AcceptStep) (s : AcceptState Addr Ident) (h : findsOwn lbl s = true) :
    FindsOwn lbl s := by
  cases lbl with
  | lookup r => simpa only [findsOwn, FindsOwn, Bool.or_eq_true, decide_eq_true_eq] using h
  | other => trivial

theorem accepted_by_own_runtime_zero : ∃ p : AcceptPool Nat String,
    Pool.follow body findsOwn acceptOnOwn ⟨{}, []⟩ = some p ∧
    p.Returned 3 (.tcpAccept 1) (.accepted ⟨⟨0⟩, some 7, some ⟨0, 7, "node-a"⟩⟩) ∧
    AllOwnAnswers p := by
  refine ⟨_, rfl, rfl, ?_⟩
  exact accepted_by_own_runtime _ (Pool.Reachable.follow findsOwn_sound .init
    (show Pool.follow body findsOwn acceptOnOwn ⟨{}, []⟩ = some _ from rfl))

/-- The accept of runtime 0 returns, runtime 0 is replaced, and only then the lookup runs. -/
def acceptThenReplace : List (Pool.Choice (AcceptCall Nat String) (AcceptEnv Nat String)) :=
  [.start .publish, .step 0 {}, .start (.tcpListen 0), .step 1 {}, .step 1 {},
    .start (.tcpAccept 1), .step 2 {}, .step 2 { remote := some 7 },
    .start (.detach 0), .step 3 {}, .start (.drain 0), .step 4 {}, .start .publish, .step 5 {},
    .start (.replace 1 fun _ => some "node-b"), .step 6 {}, .step 2 {}, .step 2 {}]

/-- Without the condition an accepted connection may carry another runtime's identity: the replacement answers for the
old runtime's connection. -/
theorem accepted_through_replacement :
    ¬ ∀ p : AcceptPool Nat String, Pool.Reachable body (fun _ _ => True) {} p → AllOwnAnswers p := by
  intro h
  have hrun := h _ (Pool.Reachable.follow (fun _ _ _ => trivial) .init
    (show Pool.follow body (fun _ _ => true) acceptThenReplace ⟨{}, []⟩ = some _ from rfl))
  have hown := hrun 2 (.tcpAccept 1) ⟨⟨0⟩, some 7, some ⟨1, 7, "node-b"⟩⟩ rfl
  exact absurd (hown _ rfl).1 (by decide)

end TailscaleDart.Accept
