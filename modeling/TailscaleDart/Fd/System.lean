import Mathlib.Algebra.Ring.Nat
import TailscaleDart.Fd.Reactor

/-!
# Fd.System — the two halves together

The caller's half posts commands into a FIFO mailbox and the reactor posts events into another; either
may fall behind. The one fact both users of the descriptor rest on is an ACCOUNT: as long as the
caller's half is open, its table of pending writes is, in order, the writes the reactor has finished and
not yet reported, the writes it has queued, and the writes it has not read. So the bound on pending bytes,
which only the caller's half checks, bounds what the reactor holds.

Half-closing is left to the callers that use it: the runs here have no `closeWrite`.
-/

namespace TailscaleDart.Fd

/-- The data of the writes among some commands, in order. -/
def payloads (commands : List Command) : List Bytes :=
  commands.filterMap fun
    | .write _ data => some data
    | _ => none

/-- The entries registered for some commands. -/
def mailed (commands : List Command) : List PendingWrite :=
  commands.filterMap fun
    | .write id data => some ⟨id, data.length⟩
    | _ => none

/-- The writes some events acknowledge. -/
def acknowledged (events : List Event) : List Nat :=
  events.filterMap fun
    | .writeOk id => some id
    | _ => none

/-- The entries registered for the writes the reactor has queued. -/
def entries (writes : List ReactorWrite) : List PendingWrite := writes.map fun w => ⟨w.id, w.data.length⟩

def total (pending : List PendingWrite) : Nat := (pending.map (·.byteCount)).sum

@[simp] theorem total_nil : total [] = 0 := rfl

@[simp] theorem total_cons (e : PendingWrite) (pending : List PendingWrite) :
    total (e :: pending) = e.byteCount + total pending := rfl

@[simp] theorem total_append (a b : List PendingWrite) : total (a ++ b) = total a + total b := by
  simp [total]

@[simp] theorem mailed_append (a b : List Command) : mailed (a ++ b) = mailed a ++ mailed b :=
  List.filterMap_append

@[simp] theorem payloads_append (a b : List Command) : payloads (a ++ b) = payloads a ++ payloads b :=
  List.filterMap_append

@[simp] theorem acknowledged_append (a b : List Event) : acknowledged (a ++ b) = acknowledged a ++ acknowledged b :=
  List.filterMap_append

structure System where
  main : PosixFdTransport
  reactor : Reactor
  -- history: the data of every write that was posted, in order
  accepted : List Bytes := []

namespace System

def adopted (config : Config) : System := { main := .adopted config, reactor := { config := config } }

inductive Action where
  /-- A call on the caller's half. -/
  | call (c : PosixFdTransport.Call)
  /-- The oldest event is handled; the listener reacts to it. -/
  | deliver (r : PosixFdTransport.Reaction) (ack enable : SendResult)
  /-- The reactor reads the oldest command. -/
  | command (answers : List WriteAnswer) (updateOk shutdownOk : Bool)
  /-- The poller reports the descriptor readable, or hung up. -/
  | readable (answers : List ReadAnswer) (eofOnAgain updateOk : Bool)
  | writable (answers : List WriteAnswer) (updateOk shutdownOk : Bool)
  /-- The reactor loop ends: its wait failed, or the shard exits. -/
  | stop (error : Option String)
  deriving DecidableEq, Repr

/-- The caller's half moves on; what it posted is accepted. -/
def continued (t : PosixFdTransport) (s : System) : System :=
  { s with main := t, accepted := s.accepted ++ payloads (t.mailbox.drop s.main.mailbox.length) }

def step (s : System) : Action → Option System
  | .call c => some (s.continued (c.run s.main))
  | .deliver r ack enable =>
    match s.reactor.outbox with
    | [] => none
    | event :: outbox =>
      some ({ s with reactor := { s.reactor with outbox := outbox } }.continued
        (s.main.handleReactorEvent event r ack enable))
  | .command answers updateOk shutdownOk =>
    match s.main.mailbox with
    | [] => none
    | command :: mailbox =>
      (s.reactor.process command answers updateOk shutdownOk).map fun reactor =>
        { s with main := { s.main with mailbox := mailbox }, reactor := reactor }
  | .readable answers eofOnAgain updateOk =>
    (s.reactor.readReactorState answers eofOnAgain updateOk).map fun reactor => { s with reactor := reactor }
  | .writable answers updateOk shutdownOk =>
    (s.reactor.flushReactorWrites answers updateOk shutdownOk).map fun reactor => { s with reactor := reactor }
  | .stop error => some { s with reactor := s.reactor.closeReactorState error }

section

variable {s s' : System}

theorem step_deliver {r : PosixFdTransport.Reaction} {ack enable : SendResult}
    (h : s.step (.deliver r ack enable) = some s') : ∃ event outbox, s.reactor.outbox = event :: outbox ∧
      s' = { s with reactor := { s.reactor with outbox := outbox } }.continued
        (s.main.handleReactorEvent event r ack enable) := by
  cases houtbox : s.reactor.outbox with
  | nil => simp [step, houtbox] at h
  | cons event outbox => exact ⟨event, outbox, rfl, by simpa [step, houtbox] using h.symm⟩

theorem step_command {answers : List WriteAnswer} {updateOk shutdownOk : Bool}
    (h : s.step (.command answers updateOk shutdownOk) = some s') : ∃ command mailbox r,
      s.main.mailbox = command :: mailbox ∧ s.reactor.process command answers updateOk shutdownOk = some r ∧
      s' = { s with main := { s.main with mailbox := mailbox }, reactor := r } := by
  cases hmailbox : s.main.mailbox with
  | nil => simp [step, hmailbox] at h
  | cons command mailbox =>
    simp only [step, hmailbox] at h
    obtain ⟨r, hrun, rfl⟩ := Option.map_eq_some_iff.mp h
    exact ⟨command, mailbox, r, rfl, hrun, rfl⟩

end

/-- The states reached by actions that meet `ok` in the state before them. -/
abbrev Reachable (ok : System → Action → Prop) (config : Config) : System → Prop :=
  Conc.Machine.Reachable step (fun a s => ok s a) (adopted config)

end System

namespace PosixFdTransport

/-! ## What the caller's half can do

From `t` to `t'` it posted `posted`. -/

/-- A call that writes only data of a kind, and does not half-close. -/
def Call.Writes (P : Bytes → Prop) : Call → Prop
  | .write bytes _ => P bytes
  | .closeWrite _ => False
  | _ => True

structure Grows (P : Bytes → Prop) (t t' : PosixFdTransport) (posted : List Command) : Prop where
  mailbox : t'.mailbox = t.mailbox ++ posted
  config : t'.config = t.config
  terminal : t.closed = true → t'.closed = true ∧ posted = []
  open_shutdown : ∀ id, Command.shutdownWrite id ∉ posted
  writes : ∀ {id data}, Command.write id data ∈ posted → data ≠ [] ∧ P data
  fresh : ∀ e ∈ mailed posted, t.nextWriteId < e.id ∧ e.id ≤ t'.nextWriteId
  ordered : (mailed posted).Pairwise (·.id < ·.id)
  nextWriteId : t.nextWriteId ≤ t'.nextWriteId
  table : t'.closed = false → t'.writeCompletions = t.writeCompletions ++ mailed posted
  account : t'.closed = false → t'.pendingWriteBytes = t.pendingWriteBytes + total (mailed posted)
  bound : t.pendingWriteBytes ≤ t.config.maxPendingWriteBytes →
    t.pendingWriteBytes + total (mailed posted) ≤ t.config.maxPendingWriteBytes

variable {P : Bytes → Prop} {t t' : PosixFdTransport}

/-- Nothing was posted, and an open transport has its table and its account. -/
theorem Grows.silent (hmailbox : t'.mailbox = t.mailbox) (hconfig : t'.config = t.config)
    (hterminal : t.closed = true → t'.closed = true) (hid : t.nextWriteId ≤ t'.nextWriteId) (hopen : t'.closed = false →
      t'.writeCompletions = t.writeCompletions ∧ t'.pendingWriteBytes = t.pendingWriteBytes) : Grows P t t' [] where
  mailbox := by rw [hmailbox, List.append_nil]
  config := hconfig
  terminal := fun h => ⟨hterminal h, rfl⟩
  open_shutdown := nofun
  writes := nofun
  fresh := nofun
  ordered := .nil
  nextWriteId := hid
  table := fun h => by rw [(hopen h).1]; simp [mailed]
  account := fun h => by rw [(hopen h).2]; rfl
  bound := fun h => by simpa [mailed] using h

theorem Grows.refl (t : PosixFdTransport) : Grows P t t [] := .silent rfl rfl id (Nat.le_refl _) fun _ => ⟨rfl, rfl⟩

theorem Grows.trans {t1 t2 t3 : PosixFdTransport} {p q : List Command} (h : Grows P t1 t2 p) (g : Grows P t2 t3 q) :
    Grows P t1 t3 (p ++ q) where
  mailbox := by rw [g.mailbox, h.mailbox, List.append_assoc]
  config := g.config.trans h.config
  terminal := by
    intro hclosed
    obtain ⟨hmid, rfl⟩ := h.terminal hclosed
    obtain ⟨hend, rfl⟩ := g.terminal hmid
    exact ⟨hend, rfl⟩
  open_shutdown := by
    intro id hmem
    cases List.mem_append.mp hmem with
    | inl hp => exact h.open_shutdown id hp
    | inr hq => exact g.open_shutdown id hq
  writes := by
    intro id data hmem
    cases List.mem_append.mp hmem with
    | inl hp => exact h.writes hp
    | inr hq => exact g.writes hq
  fresh := by
    intro e he
    rw [mailed_append] at he
    have hle := h.nextWriteId
    have hle' := g.nextWriteId
    cases List.mem_append.mp he with
    | inl hp =>
      have := h.fresh e hp
      omega
    | inr hq =>
      have := g.fresh e hq
      omega
  ordered := by
    rw [mailed_append]
    refine List.pairwise_append.mpr ⟨h.ordered, g.ordered, ?_⟩
    intro a ha b hb
    have := h.fresh a ha
    have := g.fresh b hb
    omega
  nextWriteId := Nat.le_trans h.nextWriteId g.nextWriteId
  table := by
    intro hopen
    have hmid : t2.closed = false := by
      by_contra hne
      exact absurd (g.terminal (by simpa using hne)).1 (by simp [hopen])
    rw [g.table hopen, h.table hmid, mailed_append, List.append_assoc]
  account := by
    intro hopen
    have hmid : t2.closed = false := by
      by_contra hne
      exact absurd (g.terminal (by simpa using hne)).1 (by simp [hopen])
    rw [g.account hopen, h.account hmid, mailed_append, total_append, Nat.add_assoc]
  bound := by
    intro hle
    have hfirst := h.bound hle
    rw [mailed_append, total_append]
    by_cases hmid : t2.closed = true
    · -- a transport that closed in between posted nothing after
      obtain ⟨-, rfl⟩ := g.terminal hmid
      simpa [mailed] using hfirst
    · have haccount := h.account (by simpa using hmid)
      have hsecond := g.bound (by rw [haccount, h.config]; exact hfirst)
      rw [haccount, h.config] at hsecond
      omega

/-- A transport that ends is asked for its mailbox only: its table and its account are gone. -/
theorem Grows.teardown {u : PosixFdTransport} (hmailbox : u.mailbox = t.mailbox) (hconfig : u.config = t.config)
    (hid : t.nextWriteId ≤ u.nextWriteId) (doneError pendingWriteError : Option String) (closeInput : Bool) :
    Grows P t (u.teardown doneError pendingWriteError closeInput) [] := by
  obtain ⟨hclosed, hc, hm, hn⟩ := teardown_terminal u doneError pendingWriteError closeInput
  refine .silent (hm.trans hmailbox) (hc.trans hconfig) (fun _ => hclosed) (hn ▸ hid) ?_
  intro hopen
  rw [hclosed] at hopen
  cases hopen

theorem mailed_postedBy (c : Command) (result : SendResult) :
    mailed (postedBy c result) = [] ∨ ∃ id data, c = .write id data ∧
    mailed (postedBy c result) = [⟨id, data.length⟩] := by
  unfold postedBy
  split
  · exact .inl rfl
  · cases c with
    | write id data => exact .inr ⟨id, data, rfl, rfl⟩
    | _ => exact .inl rfl

/-- One command is sent, which is no half-close; a write has the next id and fits. -/
theorem Grows.sends {c : Command} {result : SendResult} (hopen : t.closed = false)
    (hmailbox : t'.mailbox = t.mailbox ++ postedBy c result) (hconfig : t'.config = t.config)
    (hid : t.nextWriteId ≤ t'.nextWriteId) (hshutdown : ∀ id, c ≠ .shutdownWrite id)
    (hwrite : ∀ id data, c = .write id data → (data ≠ [] ∧ P data) ∧ (t.nextWriteId < id ∧ id ≤ t'.nextWriteId) ∧
      t.pendingWriteBytes + data.length ≤ t.config.maxPendingWriteBytes)
    (htable : t'.closed = false → t'.writeCompletions = t.writeCompletions ++ mailed (postedBy c result) ∧
      t'.pendingWriteBytes = t.pendingWriteBytes + total (mailed (postedBy c result))) :
    Grows P t t' (postedBy c result) where
  mailbox := hmailbox
  config := hconfig
  terminal := fun hclosed => absurd (hopen.symm.trans hclosed) nofun
  open_shutdown := fun id hmem => hshutdown id (mem_postedBy hmem).symm
  writes := fun hmem => (hwrite _ _ (mem_postedBy hmem).symm).1
  fresh := by
    intro e he
    rcases mailed_postedBy c result with hnone | ⟨id, data, hc, hone⟩
    · rw [hnone] at he
      cases he
    · rw [hone, List.mem_singleton] at he
      rw [he]
      exact (hwrite id data hc).2.1
  ordered := by
    rcases mailed_postedBy c result with hnone | ⟨id, data, -, hone⟩
    · rw [hnone]
      exact .nil
    · rw [hone]
      exact List.pairwise_singleton _ _
  nextWriteId := hid
  table := fun h => (htable h).1
  account := fun h => (htable h).2
  bound := by
    intro hle
    rcases mailed_postedBy c result with hnone | ⟨id, data, hc, hone⟩
    · rw [hnone]
      exact hle
    · rw [hone]
      exact (hwrite id data hc).2.2

/-- The same by a transport that ends then. -/
theorem Grows.sends_last {u : PosixFdTransport} {c : Command} {result : SendResult} (hopen : t.closed = false)
    (hmailbox : u.mailbox = t.mailbox ++ postedBy c result) (hconfig : u.config = t.config)
    (hid : t.nextWriteId ≤ u.nextWriteId) (hshutdown : ∀ id, c ≠ .shutdownWrite id)
    (hwrite : ∀ id data, c = .write id data → (data ≠ [] ∧ P data) ∧ (t.nextWriteId < id ∧ id ≤ u.nextWriteId) ∧
      t.pendingWriteBytes + data.length ≤ t.config.maxPendingWriteBytes) (doneError pendingWriteError : Option String)
    (closeInput : Bool) : Grows P t (u.teardown doneError pendingWriteError closeInput) (postedBy c result) := by
  obtain ⟨hclosed, hc, hm, hn⟩ := teardown_terminal u doneError pendingWriteError closeInput
  refine .sends hopen (hm.trans hmailbox) (hc.trans hconfig) (hn ▸ hid) hshutdown (hn ▸ hwrite) fun h => ?_
  exact absurd (hclosed.symm.trans h) nofun

theorem Grows.move {Q : Event → Prop} (hQ : ∀ id, ¬ Q (.writeOk id)) {posted : List Command}
    {results : List SendResult} (hmove : Move (Call.Writes P) Q t t' posted results) : Grows P t t' posted := by
  cases hmove with
  | input | eof => exact .silent rfl rfl id (Nat.le_refl _) fun _ => ⟨rfl, rfl⟩
  | reading on result _ hopen =>
    rw [post_eq]
    refine .sends hopen rfl rfl (Nat.le_refl _) (by cases on <;> simp) (by cases on <;> simp) fun _ => ?_
    cases on <;> cases result <;> exact ⟨(List.append_nil _).symm, rfl⟩
  | credit bytes result hopen =>
    rw [post_eq]
    refine .sends hopen rfl rfl (Nat.le_refl _) (by simp) (by simp) fun _ => ?_
    cases result <;> exact ⟨(List.append_nil _).symm, rfl⟩
  | admitted hc hopen _ hadmits =>
    cases hadmits with
    | closeWrite => exact hc.elim
    | write bytes result hne hfits =>
      have hsent : ∀ {c : Command}, [c] = postedBy c .ok := rfl
      rw [hsent]
      refine .sends hopen rfl rfl (Nat.le_succ _) (by simp) (fun id data heq => ?_) fun _ => ⟨rfl, rfl⟩
      cases heq
      exact ⟨⟨hne, hc⟩, ⟨Nat.lt_succ_self _, Nat.le_refl _⟩, hfits⟩
  | refused hc hopen _ hadmits result =>
    cases hadmits with
    | closeWrite => exact hc.elim
    | write bytes _ hne hfits =>
      rw [issue, post_eq]
      refine Grows.sends_last hopen ?_ ?_ ?_ ?_ (fun id data heq => ?_) _ _ _
      · rfl
      · rfl
      · exact Nat.le_succ _
      · simp
      · cases heq
        exact ⟨⟨hne, hc⟩, ⟨Nat.lt_succ_self _, Nat.le_refl _⟩, hfits⟩
  | failed | finished | ended => exact .teardown rfl rfl (Nat.le_refl _) _ _ _
  | dropped =>
    apply Grows.teardown
    · rfl
    · rfl
    · exact Nat.le_refl _
  | close result _ hopen =>
    rw [post_eq]
    refine Grows.sends_last hopen ?_ ?_ ?_ ?_ ?_ _ _ _
    · rfl
    · rfl
    · exact Nat.le_refl _
    · simp
    · simp
  | acknowledged _ h => exact absurd h (hQ _)

theorem Grows.moves {Q : Event → Prop} (hQ : ∀ id, ¬ Q (.writeOk id)) {posted : List Command}
    {results : List SendResult} (h : Moves (Call.Writes P) Q t t' posted results) : Grows P t t' posted :=
  h.related (R := fun t t' posted _ => Grows P t t' posted) (fun t _ => .refl t) .trans (.move hQ)

theorem Grows.call (t : PosixFdTransport) {c : Call} (hc : c.Writes P) : ∃ posted, Grows P t (c.run t) posted := by
  obtain ⟨posted, hmoves⟩ := moves_call (Q := fun _ => False) hc t
  exact ⟨posted, .moves (fun _ => id) hmoves⟩

/-- Every event but an acknowledgement. -/
theorem Grows.handleReactorEvent (t : PosixFdTransport) {event : Event} (hevent : ∀ id, event ≠ .writeOk id)
    {r : Reaction} (hr : ∀ c ∈ r, c.Writes P) (ack enable : SendResult) :
    ∃ posted, Grows P t (t.handleReactorEvent event r ack enable) posted := by
  obtain ⟨posted, hmoves⟩ := moves_event (Q := fun event => ∀ id, event ≠ .writeOk id) hevent hr ack enable t
  exact ⟨posted, .moves (fun id h => h id rfl) hmoves⟩

theorem Grows.maybeCompleteDone (t : PosixFdTransport) : Grows P t t.maybeCompleteDone [] :=
  .moves (fun _ => nofun) (moves_maybeCompleteDone (Q := (· = .eof)) (.inl rfl) t [])

theorem writeAcknowledged_frame (t : PosixFdTransport) (id : Nat) :
    (t.writeAcknowledged id).mailbox = t.mailbox ∧ (t.writeAcknowledged id).config = t.config := by
  unfold writeAcknowledged
  split
  · exact ⟨rfl, rfl⟩
  next entry _ =>
  split
  · have h : Grows (fun _ => True) { (t.remove entry).complete id .value with writeFinished := true } _ [] :=
      .maybeCompleteDone _
    exact ⟨h.mailbox.trans (List.append_nil _), h.config⟩
  · exact ⟨rfl, rfl⟩

/-- Every event: it posts writes of the kind, after what was posted before. -/
theorem handleReactorEvent_posts (t : PosixFdTransport) (event : Event) {r : Reaction} (hr : ∀ c ∈ r, c.Writes P)
    (ack enable : SendResult) : ∃ posted, (t.handleReactorEvent event r ack enable).mailbox = t.mailbox ++ posted ∧
      (t.handleReactorEvent event r ack enable).config = t.config ∧
      ∀ id data, Command.write id data ∈ posted → data ≠ [] ∧ P data := by
  by_cases hack : ∃ id, event = .writeOk id
  · obtain ⟨id, rfl⟩ := hack
    unfold handleReactorEvent
    split
    · exact ⟨[], by rw [List.append_nil], rfl, nofun⟩
    · obtain ⟨hmailbox, hconfig⟩ := writeAcknowledged_frame t id
      exact ⟨[], by rw [List.append_nil]; exact hmailbox, hconfig, nofun⟩
  · obtain ⟨posted, h⟩ := Grows.handleReactorEvent t (fun id heq => hack ⟨id, heq⟩) hr ack enable
    exact ⟨posted, h.mailbox, h.config, fun _ _ hmem => h.writes hmem⟩

/-- The oldest entry is acknowledged: it alone leaves the table. -/
theorem writeAcknowledged_head {e : PendingWrite} {rest : List PendingWrite}
    (htable : t.writeCompletions = e :: rest) (hfresh : ∀ f ∈ rest, f.id ≠ e.id) :
    ∃ u : PosixFdTransport, u.writeCompletions = rest ∧ u.pendingWriteBytes = t.pendingWriteBytes - e.byteCount ∧
      u.mailbox = t.mailbox ∧ u.config = t.config ∧ u.nextWriteId = t.nextWriteId ∧ u.closed = t.closed ∧
      u.futures = Function.update t.futures e.id (some .value) ∧
      (t.writeAcknowledged e.id = u ∧ (0 < e.byteCount → u.writeFinished = t.writeFinished) ∨
        e.byteCount = 0 ∧ t.writeAcknowledged e.id = u.maybeCompleteDone) := by
  have hfilter : t.writeCompletions.filter (·.id ≠ e.id) = rest := by
    rw [htable, List.filter_cons_of_neg (by simp)]
    exact List.filter_eq_self.mpr fun f hf => by simpa using hfresh f hf
  have hfind : t.writeCompletions.find? (·.id = e.id) = some e := by simp [htable]
  unfold writeAcknowledged
  rw [hfind]
  by_cases hzero : e.byteCount = 0
  · refine ⟨{ (t.remove e).complete e.id .value with writeFinished := true }, hfilter, rfl, rfl, rfl, rfl, rfl, rfl, ?_⟩
    exact .inr ⟨hzero, by simp only [if_pos hzero]⟩
  · refine ⟨(t.remove e).complete e.id .value, hfilter, rfl, rfl, rfl, rfl, rfl, rfl, ?_⟩
    exact .inl ⟨by simp only [if_neg hzero], fun _ => rfl⟩

end PosixFdTransport

namespace Reactor

/-! ## What the reactor can do

From `r` to `r'` it finished the writes `done` at the head of its queue, and acknowledged each. -/

structure Drains (r r' : Reactor) (done : List PendingWrite) : Prop where
  config : r'.config = r.config
  writing : r'.closingWrite = false
  acks : acknowledged r'.outbox = acknowledged r.outbox ++ done.map (·.id)
  terminal : r.closed = true → r'.closed = true ∧ done = []
  empty : r'.closed = true → r'.writes = []
  queue : ∃ left, entries r.writes = done ++ left ∧ (r'.closed = false → left = entries r'.writes)
  members : ∀ w ∈ r'.writes, ∃ v ∈ r.writes, w.data = v.data

variable {r : Reactor}

theorem Drains.refl (hwriting : r.closingWrite = false) (hempty : r.closed = true → r.writes = []) : Drains r r [] where
  config := rfl
  writing := hwriting
  acks := (List.append_nil _).symm
  terminal := fun h => ⟨h, rfl⟩
  empty := hempty
  queue := ⟨entries r.writes, rfl, fun _ => rfl⟩
  members := fun w hw => ⟨w, hw, rfl⟩

variable {done : List PendingWrite} {r' : Reactor}

theorem acknowledged_failures (writes : List ReactorWrite) (message : String) :
    acknowledged (writes.map fun w => Event.writeError w.id message) = [] := by
  induction writes with
  | nil => rfl
  | cons w rest ih => exact ih

theorem closeReactorState_acknowledged (r : Reactor) (error : Option String) :
    acknowledged (r.closeReactorState error).outbox = acknowledged r.outbox := by
  unfold closeReactorState
  split
  · rfl
  cases error with
  | none => simp [acknowledged]
  | some message =>
    simp only [acknowledged_append, acknowledged_failures, List.append_nil]
    simp [acknowledged]

theorem closeReactorState_config (r : Reactor) (error : Option String) : (r.closeReactorState error).config = r.config ∧
      (r.closeReactorState error).closingWrite = r.closingWrite ∧
      (r.closeReactorState error).syscalls = r.syscalls := by
  unfold closeReactorState
  split <;> exact ⟨rfl, rfl, rfl⟩

theorem closeReactorState_closed (r : Reactor) (error : Option String) : (r.closeReactorState error).closed = true ∧
      (r.closed = true ∧ r.closeReactorState error = r ∨ (r.closeReactorState error).writes = []) := by
  unfold closeReactorState
  split
  · next h => exact ⟨h, .inl ⟨h, rfl⟩⟩
  · exact ⟨rfl, .inr rfl⟩

theorem Drains.closeReactorState (h : Drains r r' done)
    (error : Option String) : Drains r (r'.closeReactorState error) done := by
  obtain ⟨hclosed, hcase⟩ := closeReactorState_closed r' error
  obtain ⟨hconfig, hwriting, -⟩ := closeReactorState_config r' error
  cases hcase with
  | inl hsame =>
    rw [hsame.2]
    exact h
  | inr hnone =>
    refine ⟨hconfig.trans h.config, hwriting.trans h.writing, (closeReactorState_acknowledged r' error).trans h.acks,
      fun hc => ⟨hclosed, (h.terminal hc).2⟩, fun _ => hnone, ?_, ?_⟩
    · obtain ⟨left, hqueue, -⟩ := h.queue
      refine ⟨left, hqueue, ?_⟩
      intro hopen
      rw [hclosed] at hopen
      cases hopen
    · intro w hw
      rw [hnone] at hw
      cases hw

theorem acknowledged_notice {e : Event} (he : ∀ id, e ≠ .writeOk id) : acknowledged [e] = [] := by
  cases e with
  | writeOk id => exact absurd rfl (he id)
  | _ => rfl

theorem Drains.keeps (r : Reactor) : Keeps fun r' => ∃ done, Drains r r' done where
  writing := fun ⟨_, h⟩ => h.writing
  mask := fun _ ⟨done, h⟩ => ⟨done, { h with }⟩
  note := fun _ ⟨done, h⟩ => ⟨done, { h with }⟩
  notice := by
    rintro r' e he ⟨done, h⟩
    have hacks : acknowledged (r'.sendEvent e).outbox = acknowledged r'.outbox := by
      simp only [sendEvent, acknowledged_append, acknowledged_notice he, List.append_nil]
    exact ⟨done, { h with acks := hacks.trans h.acks }⟩
  reading := fun _ _ _ ⟨done, h⟩ => ⟨done, { h with }⟩
  read := fun _ ⟨done, h⟩ => ⟨done, { h with }⟩
  close := fun error ⟨done, h⟩ => ⟨done, h.closeReactorState error⟩

/-- The head of the queue took bytes: it stays with a larger offset, or it is finished. -/
theorem Drains.advance (h : Drains r r' done) {w : ReactorWrite} {rest : List ReactorWrite}
    (hwrites : r'.writes = w :: rest) (count : Nat) : ∃ more, Drains r (r'.advance w rest count) (done ++ more) := by
  have hopen : r'.closed = false := by
    by_contra hne
    have := h.empty (by simpa using hne)
    rw [this] at hwrites
    cases hwrites
  obtain ⟨left, hqueue, hleft⟩ := h.queue
  obtain rfl := hleft hopen
  rw [hwrites] at hqueue
  unfold Reactor.advance
  split
  · refine ⟨[⟨w.id, w.data.length⟩], { h with
      acks := ?_
      terminal := fun hc => absurd (hopen.symm.trans (h.terminal hc).1) nofun
      empty := fun hc => absurd (hopen.symm.trans hc) nofun
      queue := ⟨entries rest, by rw [hqueue, List.append_assoc]; rfl, fun _ => rfl⟩
      members := fun v hv => h.members v (hwrites ▸ List.mem_cons_of_mem w hv) }⟩
    simp only [sendEvent, acknowledged_append, h.acks, List.map_append]
    simp [acknowledged]
  · refine ⟨[], ?_⟩
    rw [List.append_nil]
    refine { h with
      empty := fun hc => absurd (hopen.symm.trans hc) nofun
      queue := ⟨entries (w :: rest), hqueue, fun _ => rfl⟩
      members := ?_ }
    · intro v hv
      cases List.mem_cons.mp hv with
      | inl heq =>
        obtain ⟨u, hu, hdata⟩ := h.members w (hwrites ▸ List.mem_cons_self)
        exact ⟨u, hu, by rw [heq]; exact hdata⟩
      | inr htail => exact h.members v (hwrites ▸ List.mem_cons_of_mem w htail)

theorem Drains.flushes (r : Reactor) : Flushes (fun _ r' => ∃ done, Drains r r' done) fun _ => True where
  keeps := fun _ => Drains.keeps r
  none := fun _ _ ⟨done, h⟩ => ⟨done, { h with }⟩
  some := by
    rintro budget r' w rest n hwrites - - - ⟨done, h⟩
    have hlogged : Drains r (r'.record (.write (offered w budget) (taken n (offered w budget)))) done :=
      { h with }
    obtain ⟨more, hmore⟩ := hlogged.advance hwrites (taken n (offered w budget))
    exact ⟨_, hmore⟩

end Reactor

namespace System

/-! ## The account -/

/-- The writes finished and not reported, `acked`, and the writes the reactor holds or has dropped, `held`, make
up with the mailbox the table of an open caller's half. -/
structure AccountedBy (P : Bytes → Prop) (acked held : List PendingWrite) (s : System) : Prop where
  acks : acked.map (·.id) = acknowledged s.reactor.outbox
  queue : s.reactor.closed = false → held = entries s.reactor.writes
  empty : s.reactor.closed = true → s.reactor.writes = []
  table : s.main.closed = false → s.main.writeCompletions = acked ++ held ++ mailed s.main.mailbox
  account : s.main.closed = false → s.main.pendingWriteBytes = total s.main.writeCompletions
  bound : s.main.closed = false → s.main.pendingWriteBytes ≤ s.main.config.maxPendingWriteBytes
  ordered : s.main.closed = false → s.main.writeCompletions.Pairwise (·.id < ·.id)
  fresh : s.main.closed = false → ∀ e ∈ s.main.writeCompletions, e.id ≤ s.main.nextWriteId
  load : total (entries s.reactor.writes) + total (mailed s.main.mailbox) ≤ s.main.config.maxPendingWriteBytes
  writes : ∀ {id data}, Command.write id data ∈ s.main.mailbox → data ≠ [] ∧ P data
  queued : ∀ w ∈ s.reactor.writes, w.data ≠ [] ∧ P w.data
  open_shutdown : ∀ id, Command.shutdownWrite id ∉ s.main.mailbox
  writing : s.reactor.closingWrite = false

/-- Some such account exists. -/
def Accounted (P : Bytes → Prop) (s : System) : Prop := ∃ acked held, AccountedBy P acked held s

variable {P : Bytes → Prop} {acked held : List PendingWrite} {s : System}

theorem accounted_adopted (config : Config) : Accounted P (adopted config) :=
  ⟨[], [], rfl, fun _ => rfl, fun _ => rfl, fun _ => rfl, fun _ => rfl, fun _ => Nat.zero_le _, fun _ => .nil,
    fun _ => nofun, Nat.zero_le _, nofun, nofun, fun _ => nofun, rfl⟩

theorem AccountedBy.load_le (h : AccountedBy P acked held s) (hopen : s.main.closed = false) :
    total (entries s.reactor.writes) + total (mailed s.main.mailbox) ≤ s.main.pendingWriteBytes := by
  rw [h.account hopen, h.table hopen]
  simp only [total_append]
  by_cases hclosed : s.reactor.closed = true
  · rw [h.empty hclosed]
    simp only [entries, List.map_nil, total_nil]
    omega
  · rw [h.queue (by simpa using hclosed)]
    omega

theorem AccountedBy.grows (h : AccountedBy P acked held s) {t : PosixFdTransport} {posted : List Command}
    (g : PosixFdTransport.Grows P s.main t posted) : AccountedBy P acked held (s.continued t) := by
  have hback : t.closed = false → s.main.closed = false := by
    intro hopen
    by_contra hne
    have := (g.terminal (by simpa using hne)).1
    rw [hopen] at this
    cases this
  refine { h with table := ?_, account := ?_, bound := ?_, ordered := ?_, fresh := ?_, load := ?_, writes := ?_,
                  open_shutdown := ?_ }
  · intro hopen
    show t.writeCompletions = acked ++ held ++ mailed t.mailbox
    rw [g.table hopen, h.table (hback hopen), g.mailbox, mailed_append, List.append_assoc]
  · intro hopen
    show t.pendingWriteBytes = total t.writeCompletions
    rw [g.account hopen, g.table hopen, h.account (hback hopen), total_append]
  · intro hopen
    show t.pendingWriteBytes ≤ t.config.maxPendingWriteBytes
    rw [g.account hopen, g.config]
    exact g.bound (h.bound (hback hopen))
  · intro hopen
    show t.writeCompletions.Pairwise _
    rw [g.table hopen]
    refine List.pairwise_append.mpr ⟨h.ordered (hback hopen), g.ordered, ?_⟩
    intro a ha b hb
    have := h.fresh (hback hopen) a ha
    have := g.fresh b hb
    omega
  · intro hopen e he
    have he' : e ∈ s.main.writeCompletions ++ mailed posted := g.table hopen ▸ he
    have hid := g.nextWriteId
    show e.id ≤ t.nextWriteId
    cases List.mem_append.mp he' with
    | inl hold =>
      have := h.fresh (hback hopen) e hold
      omega
    | inr hnew => exact (g.fresh e hnew).2
  · show total (entries s.reactor.writes) + total (mailed t.mailbox) ≤ t.config.maxPendingWriteBytes
    rw [g.mailbox, g.config, mailed_append, total_append]
    by_cases hclosed : s.main.closed = true
    · obtain ⟨-, rfl⟩ := g.terminal hclosed
      have := h.load
      simpa [mailed] using this
    · have hopen : s.main.closed = false := by simpa using hclosed
      have := h.load_le hopen
      have := g.bound (h.bound hopen)
      omega
  · intro id data hmem
    have hmem' : Command.write id data ∈ s.main.mailbox ++ posted := g.mailbox ▸ hmem
    cases List.mem_append.mp hmem' with
    | inl hold => exact h.writes hold
    | inr hnew => exact g.writes hnew
  · intro id hmem
    have hmem' : Command.shutdownWrite id ∈ s.main.mailbox ++ posted := g.mailbox ▸ hmem
    cases List.mem_append.mp hmem' with
    | inl hold => exact h.open_shutdown id hold
    | inr hnew => exact g.open_shutdown id hnew

variable {r : Reactor}

/-- The reactor moves: what it finishes goes from `held` to `acked`. -/
theorem AccountedBy.drains (h : AccountedBy P acked held s) {done : List PendingWrite}
    (d : Reactor.Drains s.reactor r done) : ∃ held', AccountedBy P (acked ++ done) held' { s with reactor := r } := by
  obtain ⟨left, hqueue, hleft⟩ := d.queue
  have hsplit : ∃ held', acked ++ held = acked ++ done ++ held' ∧ (r.closed = false → held' = entries r.writes) := by
    by_cases hclosed : s.reactor.closed = true
    · obtain ⟨hstill, rfl⟩ := d.terminal hclosed
      refine ⟨held, by rw [List.append_nil], ?_⟩
      intro hopen
      rw [hstill] at hopen
      cases hopen
    · refine ⟨left, ?_, hleft⟩
      rw [h.queue (by simpa using hclosed), hqueue, List.append_assoc]
  obtain ⟨held', heq, hheld'⟩ := hsplit
  have hload : total (entries r.writes) ≤ total (entries s.reactor.writes) := by
    by_cases hclosed : r.closed = true
    · rw [d.empty hclosed]
      exact Nat.zero_le _
    · rw [hqueue, hleft (by simpa using hclosed), total_append]
      omega
  refine ⟨held', { h with queue := hheld', empty := d.empty, writing := d.writing,
                          acks := ?_, table := ?_, load := ?_, queued := ?_ }⟩
  · show (acked ++ done).map _ = acknowledged r.outbox
    rw [d.acks, List.map_append, h.acks]
  · intro hopen
    show s.main.writeCompletions = _
    rw [h.table hopen, heq]
  · exact Nat.le_trans (Nat.add_le_add_right hload _) h.load
  · intro w hw
    obtain ⟨v, hv, hdata⟩ := d.members w hw
    rw [hdata]
    exact h.queued v hv

variable {id : Nat} {mailbox : List Command}

/-- The reactor reads a write: its entry goes from the mailbox to what the reactor holds, or has dropped. -/
theorem AccountedBy.readWrite (h : AccountedBy P acked held s) {data : Bytes}
    (hmailbox : s.main.mailbox = .write id data :: mailbox) (houtbox : r.outbox = s.reactor.outbox)
    (hclosed : r.closed = s.reactor.closed) (hwriting : r.closingWrite = s.reactor.closingWrite)
    (hwrites : r.writes = if s.reactor.closed then [] else s.reactor.writes ++ [{ id := id, data := data }]) :
    AccountedBy P acked (held ++ [⟨id, data.length⟩])
      { s with main := { s.main with mailbox := mailbox }, reactor := r } := by
  have hmailed : mailed s.main.mailbox = ⟨id, data.length⟩ :: mailed mailbox := by rw [hmailbox]; rfl
  refine { h with acks := ?_, queue := ?_, empty := ?_, table := ?_, load := ?_, writes := ?_, queued := ?_,
                  open_shutdown := ?_, writing := hwriting.trans h.writing }
  · show acked.map _ = acknowledged r.outbox
    rw [houtbox]
    exact h.acks
  · intro hopen
    have hopen' : s.reactor.closed = false := hclosed ▸ hopen
    show held ++ _ = entries r.writes
    rw [hwrites, hopen', h.queue hopen']
    simp [entries]
  · intro hc
    have hc' : s.reactor.closed = true := hclosed ▸ hc
    show r.writes = []
    rw [hwrites, if_pos hc']
  · intro hopen
    show s.main.writeCompletions = acked ++ (held ++ _) ++ mailed mailbox
    rw [h.table hopen, hmailed]
    simp
  · show total (entries r.writes) + total (mailed mailbox) ≤ _
    have hload := h.load
    rw [hmailed, total_cons] at hload
    rw [hwrites]
    by_cases hc : s.reactor.closed = true
    · rw [if_pos hc]
      simp only [entries, List.map_nil, total_nil]
      omega
    · rw [if_neg hc]
      simp only [entries, List.map_append, List.map_cons, List.map_nil, total_append, total_cons, total_nil] at hload ⊢
      omega
  · intro id' data' hmem
    exact h.writes (hmailbox ▸ List.mem_cons_of_mem _ hmem)
  · intro w hw
    have hw' : w ∈ r.writes := hw
    rw [hwrites] at hw'
    split at hw'
    · cases hw'
    cases List.mem_append.mp hw' with
    | inl hold => exact h.queued w hold
    | inr hnew =>
      rw [List.mem_singleton.mp hnew]
      exact h.writes (hmailbox ▸ List.mem_cons_self)
  · intro id' hmem
    exact h.open_shutdown id' (hmailbox ▸ List.mem_cons_of_mem _ hmem)

/-- The reactor reads another command. -/
theorem AccountedBy.readOther (h : AccountedBy P acked held s) {command : Command}
    (hmailbox : s.main.mailbox = command :: mailbox) (hother : ∀ id data, command ≠ .write id data) :
    AccountedBy P acked held { s with main := { s.main with mailbox := mailbox } } := by
  have hmailed : mailed s.main.mailbox = mailed mailbox := by
    rw [hmailbox]
    cases command with
    | write id data => exact absurd rfl (hother id data)
    | _ => rfl
  have htable := h.table
  have hload := h.load
  rw [hmailed] at htable hload
  exact { h with
    table := htable
    load := hload
    writes := fun hmem => h.writes (hmailbox ▸ List.mem_cons_of_mem _ hmem)
    open_shutdown := fun id hmem => h.open_shutdown id (hmailbox ▸ List.mem_cons_of_mem _ hmem) }

/-- The reactor reads a write and flushes its queue. -/
theorem AccountedBy.processWrite (h : AccountedBy P acked held s) {data : Bytes}
    (hmailbox : s.main.mailbox = .write id data :: mailbox) {answers : List WriteAnswer} {updateOk shutdownOk : Bool}
    (hrun : s.reactor.process (.write id data) answers updateOk shutdownOk = some r) :
    Accounted P { s with main := { s.main with mailbox := mailbox }, reactor := r } := by
  unfold Reactor.process at hrun
  split at hrun
  · next hclosed =>
    cases hrun
    exact ⟨_, _, h.readWrite hmailbox rfl rfl rfl (by rw [if_pos hclosed, h.empty hclosed])⟩
  · next hopen =>
    have hread := h.readWrite hmailbox (r := { s.reactor with
      writes := s.reactor.writes ++ [{ id := id, data := data }], trace := s.reactor.trace ++ [.queued id data] })
      rfl rfl rfl (by rw [if_neg hopen])
    obtain ⟨-, done, hdone⟩ := (Reactor.Drains.flushes _).flushReactorWrites (fun _ _ => trivial) hrun
      ⟨[], .refl hread.writing hread.empty⟩
    obtain ⟨held', hafter⟩ := hread.drains hdone
    exact ⟨_, held', hafter⟩

/-- The oldest event is an acknowledgement: the oldest entry leaves the table. -/
theorem AccountedBy.acknowledge (h : AccountedBy P acked held s) {outbox : List Event}
    (houtbox : s.reactor.outbox = .writeOk id :: outbox) (r : PosixFdTransport.Reaction) (ack enable : SendResult) :
    Accounted P ({ s with reactor := { s.reactor with outbox := outbox } }.continued
      (s.main.handleReactorEvent (.writeOk id) r ack enable)) := by
  obtain ⟨e, acked', rfl, rfl, hacks⟩ : ∃ e acked', acked = e :: acked' ∧ e.id = id ∧
      acked'.map (·.id) = acknowledged outbox := by
    have hmap := h.acks
    rw [houtbox] at hmap
    cases acked with
    | nil => cases hmap
    | cons e acked' => exact ⟨e, acked', rfl, (List.cons.inj hmap).1, (List.cons.inj hmap).2⟩
  -- whatever the caller's half does, the rest of the account stands
  have hpopped : s.main.closed = true → Accounted P { s with reactor := { s.reactor with outbox := outbox } } := by
    intro hclosed
    exact ⟨acked', held, { h with acks := hacks, table := fun hopen => absurd (hclosed.symm.trans hopen) nofun }⟩
  unfold PosixFdTransport.handleReactorEvent
  split
  · next hclosed =>
    obtain ⟨acked'', held'', hafter⟩ := hpopped hclosed
    exact ⟨acked'', held'', hafter.grows (.refl _)⟩
  next hclosed =>
  have hopen : s.main.closed = false := by simpa using hclosed
  have htable : s.main.writeCompletions = e :: (acked' ++ held ++ mailed s.main.mailbox) := h.table hopen
  have hordered := h.ordered hopen
  rw [htable] at hordered
  have hfresh : ∀ f ∈ acked' ++ held ++ mailed s.main.mailbox, f.id ≠ e.id :=
    fun f hf => Nat.ne_of_gt ((List.pairwise_cons.mp hordered).1 f hf)
  obtain ⟨u, hrest, hpending, hmailbox, hconfig, hnext, hstill, -, hend⟩ :=
    PosixFdTransport.writeAcknowledged_head htable hfresh
  have hbytes : s.main.pendingWriteBytes = e.byteCount + total (acked' ++ held ++ mailed s.main.mailbox) := by
    rw [h.account hopen, htable, total_cons]
  have hmoved : AccountedBy P acked' held
      { s with main := u, reactor := { s.reactor with outbox := outbox } } := by
    refine { h with acks := hacks, table := ?_, account := ?_, bound := ?_, ordered := ?_, fresh := ?_, load := ?_,
                    writes := fun hmem => h.writes (hmailbox ▸ hmem),
                    open_shutdown := fun id hmem => h.open_shutdown id (hmailbox ▸ hmem) }
    · intro _
      show u.writeCompletions = _
      rw [hrest, hmailbox]
    · intro _
      show u.pendingWriteBytes = total u.writeCompletions
      rw [hpending, hrest, hbytes, Nat.add_sub_cancel_left]
    · intro _
      show u.pendingWriteBytes ≤ u.config.maxPendingWriteBytes
      rw [hpending, hconfig]
      exact Nat.le_trans (Nat.sub_le _ _) (h.bound hopen)
    · intro _
      show u.writeCompletions.Pairwise _
      rw [hrest]
      exact (List.pairwise_cons.mp hordered).2
    · intro _ f hf
      have hf' : f ∈ acked' ++ held ++ mailed s.main.mailbox := hrest ▸ hf
      show f.id ≤ u.nextWriteId
      rw [hnext]
      exact h.fresh hopen f (htable ▸ List.mem_cons_of_mem e hf')
    · show total (entries s.reactor.writes) + total (mailed u.mailbox) ≤ u.config.maxPendingWriteBytes
      rw [hmailbox, hconfig]
      exact h.load
  cases hend with
  | inl hsame =>
    simp only [hsame.1]
    exact ⟨acked', held, { hmoved with }⟩
  | inr hhalf =>
    -- an entry without bytes would end the write half; the account does not depend on it
    simp only [hhalf.2]
    exact ⟨acked', held, { hmoved.grows (.maybeCompleteDone u) with }⟩

/-- What the callers write in an action is of a kind, and they do not half-close. -/
def Action.Writes (P : Bytes → Prop) : Action → Prop
  | .call c => c.Writes P
  | .deliver r _ _ => ∀ c ∈ r, c.Writes P
  | _ => True

theorem Accounted.step (h : Accounted P s) {a : Action} (ha : a.Writes P) {s' : System} (hstep : s.step a = some s') :
    Accounted P s' := by
  obtain ⟨acked, held, h⟩ := h
  have hidle : ∃ done, Reactor.Drains s.reactor s.reactor done := ⟨[], .refl h.writing h.empty⟩
  cases a with
  | call c =>
    cases hstep
    obtain ⟨posted, hposted⟩ := PosixFdTransport.Grows.call s.main ha
    exact ⟨acked, held, h.grows hposted⟩
  | deliver r ack enable =>
    obtain ⟨event, outbox, houtbox, rfl⟩ := step_deliver hstep
    by_cases hack : ∃ id, event = .writeOk id
    · obtain ⟨id, rfl⟩ := hack
      exact h.acknowledge houtbox r ack enable
    · have hevent : ∀ id, event ≠ .writeOk id := fun id heq => hack ⟨id, heq⟩
      obtain ⟨posted, hposted⟩ := PosixFdTransport.Grows.handleReactorEvent s.main hevent ha ack enable
      have hacks : acknowledged outbox = acknowledged s.reactor.outbox := by
        rw [houtbox]
        cases event with
        | writeOk id => exact absurd rfl (hevent id)
        | _ => rfl
      have hdrop : Reactor.Drains s.reactor { s.reactor with outbox := outbox } [] :=
        { Reactor.Drains.refl h.writing h.empty with acks := by simpa using hacks }
      obtain ⟨held', hpopped⟩ := h.drains hdrop
      exact ⟨_, held', hpopped.grows hposted⟩
  | command answers updateOk shutdownOk =>
    obtain ⟨command, mailbox, r, hmailbox, hrun, rfl⟩ := step_command hstep
    by_cases hwrite : ∃ id data, command = .write id data
    · obtain ⟨id, data, rfl⟩ := hwrite
      exact h.processWrite hmailbox hrun
    · have hother : ∀ id data, command ≠ .write id data := fun id data heq => hwrite ⟨id, data, heq⟩
      have hshutdown : ∀ id, command ≠ .shutdownWrite id := by
        intro id heq
        exact h.open_shutdown id (hmailbox ▸ heq ▸ List.mem_cons_self)
      obtain ⟨done, hdone⟩ := (Reactor.Drains.keeps s.reactor).process hother hshutdown hrun hidle
      obtain ⟨held', hafter⟩ := (h.readOther hmailbox hother).drains hdone
      exact ⟨_, held', hafter⟩
  | readable answers eofOnAgain updateOk =>
    obtain ⟨r, hrun, rfl⟩ := Option.map_eq_some_iff.mp hstep
    obtain ⟨done, hdone⟩ := (Reactor.Drains.keeps s.reactor).readReactorState hrun hidle
    obtain ⟨held', hafter⟩ := h.drains hdone
    exact ⟨_, held', hafter⟩
  | writable answers updateOk shutdownOk =>
    obtain ⟨r, hrun, rfl⟩ := Option.map_eq_some_iff.mp hstep
    obtain ⟨-, done, hdone⟩ :=
      (Reactor.Drains.flushes s.reactor).flushReactorWrites (fun _ _ => trivial) hrun hidle
    obtain ⟨held', hafter⟩ := h.drains hdone
    exact ⟨_, held', hafter⟩
  | stop error =>
    cases hstep
    obtain ⟨done, hdone⟩ := (Reactor.Drains.keeps s.reactor).close error hidle
    obtain ⟨held', hafter⟩ := h.drains hdone
    exact ⟨_, held', hafter⟩

/-- Without half-closes, the bytes the reactor holds or has not read are within the bound that only the caller's half
checks, and the acknowledgements on their way to an open half are for its oldest entries, in order. -/
theorem outbound_accounted {config : Config} (h : Reachable (fun _ a => a.Writes fun _ => True) config s) :
    total (entries s.reactor.writes) + total (mailed s.main.mailbox) ≤ s.main.config.maxPendingWriteBytes ∧
      (s.main.closed = false → acknowledged s.reactor.outbox <+: s.main.writeCompletions.map (·.id)) := by
  obtain ⟨acked, held, haccount⟩ : Accounted (fun _ => True) s :=
    h.invariant (accounted_adopted config) fun _ _ _ hs ha hstep => hs.step ha hstep
  refine ⟨haccount.load, fun hopen => ?_⟩
  rw [haccount.table hopen, ← haccount.acks, List.append_assoc, List.map_append]
  exact List.prefix_append _ _

/-- Three writes: the acknowledgement of the first is on its way, the second waits in the reactor for room, and the
third has not been read. -/
theorem outbound_accounted_under_way :
    ∃ s, Reachable (fun _ a => a.Writes fun _ => True) {} s ∧ acknowledged s.reactor.outbox = [1] ∧
      entries s.reactor.writes = [⟨2, 2⟩] ∧ mailed s.main.mailbox = [⟨3, 1⟩] ∧ s.main.closed = false ∧
      2 + 1 ≤ s.main.config.maxPendingWriteBytes ∧ [1] <+: s.main.writeCompletions.map (·.id) ∧
      s.main.writeCompletions.map (·.id) = [1, 2, 3] := by
  have h0 : Reachable (fun _ a => a.Writes fun _ => True) {} (adopted {}) := .start
  have h1 := h0.next (.call (.write [7] .ok)) trivial rfl
  have h2 := h1.next (.command [.accepted 1] true true) trivial rfl
  have h3 := h2.next (.call (.write [8, 9] .ok)) trivial rfl
  have h4 := h3.next (.command [.again] true true) trivial rfl
  have h5 := h4.next (.call (.write [6] .ok)) trivial rfl
  obtain ⟨hbound, hacks⟩ := outbound_accounted h5
  exact ⟨_, h5, rfl, rfl, rfl, rfl, hbound, hacks rfl, rfl⟩

end System

end TailscaleDart.Fd
