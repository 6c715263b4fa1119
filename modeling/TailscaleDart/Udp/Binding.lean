import TailscaleDart.Fd.System
import TailscaleDart.Udp.Envelope

/-!
# Udp.Binding — one datagram, one system call

A datagram socket keeps message boundaries only as far as each `write(2)` is given a whole envelope and
each `read(2)` a buffer that holds one. The reactor cuts what it writes twice: to a chunk limit, and to
what is left of the budget of one flush. The first limit is above the largest envelope. The second is
not, in general: what saves the envelope at the end of a flush is the caller's half, which lets in at
most one budget of pending bytes, and counts them until they are acknowledged.

The environment's part is what a datagram socket promises: a write takes the datagram or nothing.
-/

namespace TailscaleDart.Udp

open TailscaleDart.Fd

/-! ## The binding -/

/-- What `createFdTailscaleDatagramBinding` adopts the descriptor with. -/
def datagramConfig : Config := { datagram := true, maxReadChunkSize := udpMaxEnvelopeBytes }

/-- `_FdTailscaleDatagramBinding` and the transport under it. -/
structure DatagramBinding where
  transport : System
  closed : Bool := false

namespace DatagramBinding

/-- The constructor listens to the transport's input. -/
def createFdTailscaleDatagramBinding (result : SendResult) : DatagramBinding :=
  let transport := System.adopted datagramConfig
  { transport := transport.continued (PosixFdTransport.Call.run (.listen result) transport.main) }

def call (c : PosixFdTransport.Call) (b : DatagramBinding) : DatagramBinding :=
  { b with transport := b.transport.continued (c.run b.transport.main) }

/-- `send`: a closed binding and an envelope that does not encode throw before the transport is touched. -/
def send (payload : Bytes) (remote : TailscaleEndpoint) (result : SendResult) (b : DatagramBinding) : DatagramBinding :=
  if b.closed then b
  else match encodeDatagramEnvelope remote payload with
    | .error _ => b
    | .ok envelope => b.call (.write envelope result)

/-- `close` up to its first await: the subscription is cancelled. -/
def close (b : DatagramBinding) : DatagramBinding :=
  if b.closed then b else { b with closed := true }.call .cancel

/-- `close` after the bridge was torn down: the transport is closed. -/
def release (result : SendResult) (b : DatagramBinding) : DatagramBinding :=
  if b.closed then b.call (.close result) else b

/-- The subscription is cancelled by an error, and does nothing else to the transport. -/
def reaction : Event → PosixFdTransport.Reaction
  | .readError _ => [.cancel]
  | _ => []

inductive Action where
  | send (payload : Bytes) (remote : TailscaleEndpoint) (result : SendResult)
  | close
  | release (result : SendResult)
  | deliver (ack enable : SendResult)
  | command (answers : List WriteAnswer) (updateOk shutdownOk : Bool)
  | readable (answers : List ReadAnswer) (eofOnAgain updateOk : Bool)
  | writable (answers : List WriteAnswer) (updateOk shutdownOk : Bool)
  | stop (error : Option String)

/-- The transport makes an action of its own. -/
def transportStep (a : System.Action) (b : DatagramBinding) : Option DatagramBinding :=
  (b.transport.step a).map fun transport => { b with transport := transport }

def step (b : DatagramBinding) : Action → Option DatagramBinding
  | .send payload remote result => some (b.send payload remote result)
  | .close => some b.close
  | .release result => some (b.release result)
  | .deliver ack enable =>
    match b.transport.reactor.outbox with
    | [] => none
    | event :: _ => b.transportStep (.deliver (reaction event) ack enable)
  | .command answers updateOk shutdownOk => b.transportStep (.command answers updateOk shutdownOk)
  | .readable answers eofOnAgain updateOk => b.transportStep (.readable answers eofOnAgain updateOk)
  | .writable answers updateOk shutdownOk => b.transportStep (.writable answers updateOk shutdownOk)
  | .stop error => b.transportStep (.stop error)

/-- A datagram write that takes bytes has room for every envelope. -/
def AllOrNone : Action → Prop
  | .command answers _ _ | .writable answers _ _ => Reactor.Roomy (udpMaxEnvelopeBytes ≤ ·) answers
  | _ => True

/-- The states of a binding whose creation was answered with `result`. -/
abbrev Reachable (result : SendResult) : DatagramBinding → Prop :=
  Conc.Machine.Reachable step (fun a _ => AllOrNone a) (createFdTailscaleDatagramBinding result)

end DatagramBinding

/-! ## The reactor passes envelopes whole -/

/-- The envelopes the kernel took, in order. -/
def delivered (calls : List Syscall) : List Bytes :=
  calls.filterMap fun
    | .write offered taken => if taken = 0 then none else some offered
    | .read _ => none

@[simp] theorem delivered_append (a b : List Syscall) : delivered (a ++ b) = delivered a ++ delivered b :=
  List.filterMap_append

/-- One call: a write is given a whole envelope of `posted` and takes it or nothing, and a read has room for the
largest. -/
def WholeCall (posted : List Bytes) : Syscall → Prop
  | .write offered taken => offered ∈ posted ∧ (taken = 0 ∨ taken = offered.length)
  | .read limit => limit = udpMaxEnvelopeBytes

theorem WholeCall.append {posted : List Bytes} {call : Syscall} (h : WholeCall posted call) (more : List Bytes) :
    WholeCall (posted ++ more) call := by
  cases call with
  | write offered taken => exact ⟨List.mem_append_left more h.1, h.2⟩
  | read limit => exact h

/-- The reactor has read the envelopes `posted`. What it has not passed on it holds, whole and within `budget`. -/
structure Whole (posted : List Bytes) (budget : Nat) (r : Reactor) : Prop where
  config : r.config = datagramConfig
  writing : r.closingWrite = false
  empty : r.closed = true → r.writes = []
  calls : ∀ call ∈ r.syscalls, WholeCall posted call
  order : r.closed = false → delivered r.syscalls ++ r.writes.map (·.data) = posted
  passed : delivered r.syscalls <+: posted
  held : ∀ w ∈ r.writes, w.offset = 0 ∧ w.data ≠ [] ∧ w.data.length ≤ udpMaxEnvelopeBytes
  within : total (entries r.writes) ≤ budget

variable {posted : List Bytes} {budget : Nat} {r : Reactor}

theorem Whole.record (h : Whole posted budget r) {call : Syscall} (hcall : WholeCall posted call)
    (hnone : delivered [call] = []) : Whole posted budget (r.record call) :=
  { h with
    calls := by
      intro c hmem
      cases List.mem_append.mp hmem with
      | inl hold => exact h.calls c hold
      | inr hnew => exact List.mem_singleton.mp hnew ▸ hcall
    order := fun hopen => by
      show delivered (r.syscalls ++ [call]) ++ _ = posted
      rw [delivered_append, hnone, List.append_nil]
      exact h.order hopen
    passed := by
      show delivered (r.syscalls ++ [call]) <+: posted
      rw [delivered_append, hnone, List.append_nil]
      exact h.passed }

theorem Whole.closeReactorState (h : Whole posted budget r) (error : Option String) :
    Whole posted budget (r.closeReactorState error) := by
  obtain ⟨hclosed, hcase⟩ := Reactor.closeReactorState_closed r error
  obtain ⟨hconfig, hwriting, hcalls⟩ := Reactor.closeReactorState_config r error
  cases hcase with
  | inl hsame =>
    rw [hsame.2]
    exact h
  | inr hnone =>
    constructor
    · exact hconfig.trans h.config
    · exact hwriting.trans h.writing
    · exact fun _ => hnone
    · exact fun call hmem => h.calls call (hcalls ▸ hmem)
    · intro hopen
      rw [hclosed] at hopen
      cases hopen
    · exact hcalls ▸ h.passed
    · intro w hw
      rw [hnone] at hw
      cases hw
    · rw [hnone]
      exact Nat.zero_le _

theorem Whole.keeps (posted : List Bytes) (budget : Nat) : Reactor.Keeps (Whole posted budget) where
  writing := fun h => h.writing
  mask := fun _ h => { h with }
  note := fun _ h => { h with }
  notice := fun _ h => { h with }
  reading := fun _ _ _ h => { h with }
  read := by
    intro r left h
    refine h.record ?_ rfl
    show r.readLimit left = udpMaxEnvelopeBytes
    rw [Reactor.readLimit, h.config]
    rfl
  close := fun error h => h.closeReactorState error

/-- The head of the queue is offered whole: neither the chunk limit nor the budget left cuts it. -/
theorem Whole.offered_eq (h : Whole posted budget r) {w : ReactorWrite} {rest : List ReactorWrite}
    (hwrites : r.writes = w :: rest) : Reactor.offered w budget = w.data := by
  obtain ⟨hoffset, -, hlength⟩ := h.held w (hwrites ▸ (.head _))
  have hwithin := h.within
  rw [hwrites] at hwithin
  have hbudget : w.data.length ≤ budget := Nat.le_trans (Nat.le_add_right _ _) hwithin
  have hchunk : w.data.length ≤ reactorWriteChunkBytes := Nat.le_trans hlength (by decide)
  rw [Reactor.offered, hoffset, List.drop_zero, Nat.sub_zero]
  exact List.take_of_length_le (by omega)

theorem Whole.head_mem (h : Whole posted budget r) {w : ReactorWrite} {rest : List ReactorWrite}
    (hwrites : r.writes = w :: rest) : r.closed = false ∧ w.data ∈ posted := by
  have hopen : r.closed = false := by
    by_contra hne
    rw [h.empty (by simpa using hne)] at hwrites
    cases hwrites
  refine ⟨hopen, ?_⟩
  rw [← h.order hopen, hwrites]
  simp

theorem Whole.flushes (posted : List Bytes) : Reactor.Flushes (Whole posted) (udpMaxEnvelopeBytes ≤ ·) where
  keeps := Whole.keeps posted
  none := by
    intro budget r w rest hwrites _ h
    refine h.record ⟨?_, .inl rfl⟩ rfl
    rw [h.offered_eq hwrites]
    exact (h.head_mem hwrites).2
  some := by
    intro budget r w rest n hwrites _ hroom _ h
    obtain ⟨hoffset, hne, hlength⟩ := h.held w (hwrites ▸ (.head _))
    obtain ⟨hopen, hmem⟩ := h.head_mem hwrites
    have hpos := List.length_pos_iff.mpr hne
    have htaken : Reactor.taken n w.data = w.data.length := by
      unfold Reactor.taken
      omega
    rw [h.offered_eq hwrites, htaken]
    unfold Reactor.advance
    rw [hoffset, Nat.zero_add, if_pos rfl]
    have hdelivered : delivered [Syscall.write w.data w.data.length] = [w.data] := by
      simp [delivered, hne]
    have horder := h.order hopen
    rw [hwrites, List.map_cons] at horder
    have hwithin := h.within
    rw [hwrites] at hwithin
    refine { h with empty := ?_, calls := ?_, order := ?_, passed := ?_, held := ?_, within := ?_ }
    · intro hc
      have : r.closed = true := hc
      rw [hopen] at this
      cases this
    · intro call hcall
      cases List.mem_append.mp hcall with
      | inl hold => exact h.calls call hold
      | inr hnew => exact List.mem_singleton.mp hnew ▸ ⟨hmem, .inr rfl⟩
    · intro _
      show delivered (r.syscalls ++ [_]) ++ rest.map _ = posted
      rw [delivered_append, hdelivered, List.append_assoc]
      exact horder
    · show delivered (r.syscalls ++ [_]) <+: posted
      rw [delivered_append, hdelivered, ← horder]
      exact ⟨rest.map (·.data), by simp⟩
    · intro v hv
      exact h.held v (hwrites ▸ .tail w hv)
    · show total (entries rest) ≤ budget - w.data.length
      have : w.data.length + total (entries rest) ≤ budget := hwithin
      omega

/-- The reactor reads an envelope: it is queued behind the others, or dropped by a reactor that is closed. -/
theorem Whole.enqueue (h : Whole posted budget r) {i : Nat} {data : Bytes} (hne : data ≠ [])
    (hlength : data.length ≤ udpMaxEnvelopeBytes) (hopen : r.closed = false)
    (hwithin : total (entries r.writes) + data.length ≤ budget) : Whole (posted ++ [data]) budget { r with
      writes := r.writes ++ [{ id := i, data := data }], trace := r.trace ++ [.queued i data] } := by
  refine { h with empty := ?_, calls := ?_, order := ?_, passed := ?_, held := ?_, within := ?_ }
  · intro hc
    have : r.closed = true := hc
    rw [hopen] at this
    cases this
  · exact fun call hmem => (h.calls call hmem).append [data]
  · intro _
    simp only [List.map_append, List.map_cons, List.map_nil]
    rw [← List.append_assoc, h.order hopen]
  · exact h.passed.trans (List.prefix_append posted [data])
  · intro w hw
    cases List.mem_append.mp hw with
    | inl hold => exact h.held w hold
    | inr hnew => exact List.mem_singleton.mp hnew ▸ ⟨rfl, hne, hlength⟩
  · simpa [entries] using hwithin

theorem Whole.drop (h : Whole posted budget r) (hclosed : r.closed = true) (data : Bytes) :
    Whole (posted ++ [data]) budget r := by
  refine { h with
    calls := fun call hmem => (h.calls call hmem).append [data]
    order := fun hopen => ?_
    passed := h.passed.trans (List.prefix_append posted [data]) }
  rw [hclosed] at hopen
  cases hopen

/-! ## Runs of the binding -/

namespace DatagramBinding

/-- The envelopes `_encodeDatagramEnvelope` makes. -/
def IsEnvelope (bytes : Bytes) : Prop := ∃ remote payload, encodeDatagramEnvelope remote payload = .ok bytes

theorem IsEnvelope.length_le {bytes : Bytes} (h : IsEnvelope bytes) : bytes.length ≤ udpMaxEnvelopeBytes := by
  obtain ⟨remote, payload, h⟩ := h
  simp only [encodeDatagramEnvelope] at h
  split at h
  · cases h
  split at h
  · cases h
  split at h
  · cases h
  next hpayload =>
  split at h
  · cases h
  next haddress =>
    cases h
    have hlength : payload.length ≤ udpMaxPayloadBytes := Nat.le_of_not_lt hpayload
    simp only [udpMaxEnvelopeBytes, udpEnvelopeHeaderBytes, udpMaxAddressBytes, List.length_append,
      List.length_cons, List.length_nil]
    omega

/-- What a datagram socket promises, for an action of the transport. -/
def RoomyAction : System.Action → Prop
  | .command answers _ _ | .writable answers _ _ => Reactor.Roomy (udpMaxEnvelopeBytes ≤ ·) answers
  | _ => True

/-- The transport of a binding: the account holds for envelopes, and what was accepted is what the reactor has
read, passed on whole as far as it was passed on, and then the mailbox. -/
structure Sound (s : System) : Prop where
  config : s.main.config = datagramConfig
  accounted : System.Accounted IsEnvelope s
  envelopes : ∀ bytes ∈ s.accepted, IsEnvelope bytes
  whole : ∃ posted, s.accepted = posted ++ payloads s.main.mailbox ∧ Whole posted reactorWriteBudgetBytes s.reactor

variable {s : System}

/-- The caller's half moves. -/
theorem Sound.continued (h : Sound s) {t : PosixFdTransport} {posted : List Command}
    {o : List Event} (haccounted : System.Accounted IsEnvelope
      ({ s with reactor := { s.reactor with outbox := o } }.continued t))
    (hmailbox : t.mailbox = s.main.mailbox ++ posted) (hconfig : t.config = s.main.config)
    (hwrites : ∀ id data, .write id data ∈ posted → data ≠ [] ∧ IsEnvelope data) :
    Sound ({ s with reactor := { s.reactor with outbox := o } }.continued t) := by
  have haccepted : ({ s with reactor := { s.reactor with outbox := o } }.continued t).accepted =
      s.accepted ++ payloads posted := by
    simp only [System.continued, hmailbox, List.drop_left]
  constructor
  · exact hconfig.trans h.config
  · exact haccounted
  · intro bytes hmem
    rw [haccepted] at hmem
    cases List.mem_append.mp hmem with
    | inl hold => exact h.envelopes bytes hold
    | inr hnew =>
      obtain ⟨command, hcommand, heq⟩ := List.mem_filterMap.mp hnew
      cases command with
      | write id envelope =>
        cases heq
        exact (hwrites id bytes hcommand).2
      | _ => cases heq
  · obtain ⟨base, heq, hwhole⟩ := h.whole
    refine ⟨base, ?_, { hwhole with }⟩
    rw [haccepted, heq, List.append_assoc, ← payloads_append, ← hmailbox]
    rfl

theorem Sound.call (h : Sound s) {c : PosixFdTransport.Call} (hc : c.Writes IsEnvelope) :
    Sound (s.continued (c.run s.main)) := by
  obtain ⟨posted, hposted⟩ := PosixFdTransport.Grows.call s.main hc
  have haccounted : System.Accounted IsEnvelope (s.continued (c.run s.main)) := h.accounted.step (a := .call c) hc rfl
  have hwrites : ∀ id data, .write id data ∈ posted → data ≠ [] ∧ IsEnvelope data :=
    fun _ _ hmem => hposted.writes hmem
  exact h.continued (o := s.reactor.outbox) haccounted hposted.mailbox hposted.config hwrites

/-- The reactor moves, and the mailbox keeps its writes. -/
theorem Sound.reactor (h : Sound s) {mailbox : List Command} {r : Reactor} {posted : List Bytes}
    {left : Nat} (haccounted : System.Accounted IsEnvelope
      { s with main := { s.main with mailbox := mailbox }, reactor := r })
    (heq : s.accepted = posted ++ payloads mailbox) (hwhole : Whole posted left r) :
    Sound { s with main := { s.main with mailbox := mailbox }, reactor := r } := by
  constructor
  · exact h.config
  · exact haccounted
  · exact h.envelopes
  · obtain ⟨acked, held, hby⟩ := haccounted
    -- the bound on pending bytes is the budget of the next flush
    have hload := hby.load
    have hbudget : s.main.config.maxPendingWriteBytes = reactorWriteBudgetBytes := by rw [h.config]; rfl
    have hle : total (entries r.writes) ≤ s.main.config.maxPendingWriteBytes :=
      Nat.le_trans (Nat.le_add_right _ _) hload
    exact ⟨posted, heq, { hwhole with within := hbudget ▸ hle }⟩

/-- The reactor reads one command. -/
theorem process_whole {acked held : List PendingWrite} (hby : System.AccountedBy IsEnvelope acked held s)
    (hconfig : s.main.config = datagramConfig) {command : Command} {mailbox : List Command}
    (hmailbox : s.main.mailbox = command :: mailbox) {posted : List Bytes}
    (heq : s.accepted = posted ++ payloads (command :: mailbox))
    (hwhole : Whole posted reactorWriteBudgetBytes s.reactor) {answers : List WriteAnswer} {updateOk shutdownOk : Bool}
    (hroom : Reactor.Roomy (udpMaxEnvelopeBytes ≤ ·) answers) {r : Reactor}
    (hrun : s.reactor.process command answers updateOk shutdownOk = some r) :
    ∃ posted' left, s.accepted = posted' ++ payloads mailbox ∧ Whole posted' left r := by
  cases command with
  | write id data =>
    have heq' : s.accepted = (posted ++ [data]) ++ payloads mailbox := by
      rw [heq, List.append_assoc]
      rfl
    unfold Reactor.process at hrun
    split at hrun
    · next hclosed =>
      cases hrun
      exact ⟨posted ++ [data], _, heq', hwhole.drop hclosed data⟩
    · next hopen =>
      obtain ⟨hne, henvelope⟩ := hby.writes (hmailbox ▸ List.mem_cons_self)
      have hload := hby.load
      have hmailed : mailed (.write id data :: mailbox) = ⟨id, data.length⟩ :: mailed mailbox := rfl
      have hbudget : s.main.config.maxPendingWriteBytes = reactorWriteBudgetBytes := by rw [hconfig]; rfl
      rw [hmailbox, hbudget, hmailed, total_cons, ← Nat.add_assoc] at hload
      have hqueued := hwhole.enqueue (i := id) hne henvelope.length_le (by simpa using hopen)
        (Nat.le_trans (Nat.le_add_right _ _) hload)
      obtain ⟨left, hafter⟩ := (Whole.flushes (posted ++ [data])).flushReactorWrites hroom hrun hqueued
      exact ⟨posted ++ [data], left, heq', hafter⟩
  | shutdownWrite id => exact absurd (hmailbox ▸ List.mem_cons_self) (hby.open_shutdown id)
  | enableRead | disableRead | inboundConsumed bytes | close =>
    exact ⟨posted, _, heq, (Whole.keeps posted _).process (by simp) (by simp) hrun hwhole⟩

theorem Sound.step {s s' : System} (h : Sound s) {a : System.Action} (ha : a.Writes IsEnvelope)
    (hroom : RoomyAction a) (hstep : s.step a = some s') : Sound s' := by
  have haccounted := h.accounted.step ha hstep
  obtain ⟨posted, heq, hwhole⟩ := h.whole
  cases a with
  | call c =>
    cases hstep
    exact h.call ha
  | deliver r ack enable =>
    obtain ⟨event, outbox, houtbox, rfl⟩ := System.step_deliver hstep
    obtain ⟨more, hmailbox, hconfig, hwrites⟩ :=
      PosixFdTransport.handleReactorEvent_posts s.main event ha ack enable
    exact h.continued haccounted hmailbox hconfig hwrites
  | command answers updateOk shutdownOk =>
    obtain ⟨command, mailbox, r, hmailbox, hrun, rfl⟩ := System.step_command hstep
    rw [hmailbox] at heq
    obtain ⟨acked, held, hby⟩ := h.accounted
    obtain ⟨more, left, heq', hafter⟩ :=
      process_whole hby h.config hmailbox heq hwhole hroom hrun
    exact h.reactor haccounted heq' hafter
  | readable answers eofOnAgain updateOk =>
    obtain ⟨r, hrun, rfl⟩ := Option.map_eq_some_iff.mp hstep
    exact h.reactor haccounted heq ((Whole.keeps posted _).readReactorState hrun hwhole)
  | writable answers updateOk shutdownOk =>
    obtain ⟨r, hrun, rfl⟩ := Option.map_eq_some_iff.mp hstep
    obtain ⟨left, hafter⟩ := (Whole.flushes posted).flushReactorWrites hroom hrun hwhole
    exact h.reactor haccounted heq hafter
  | stop error =>
    cases hstep
    exact h.reactor haccounted heq (hwhole.closeReactorState error)

theorem sound_adopted : Sound (System.adopted datagramConfig) := by
  constructor
  · rfl
  · exact System.accounted_adopted datagramConfig
  · exact fun _ hmem => absurd hmem List.not_mem_nil
  · refine ⟨[], rfl, ?_⟩
    constructor
    · rfl
    · rfl
    · exact fun _ => rfl
    · exact fun _ hmem => absurd hmem List.not_mem_nil
    · exact fun _ => rfl
    · exact List.prefix_refl _
    · exact fun _ hmem => absurd hmem List.not_mem_nil
    · exact Nat.zero_le _

variable {b : DatagramBinding}

theorem Sound.send (h : Sound b.transport) (payload : Bytes) (remote : TailscaleEndpoint)
    (result : SendResult) : Sound (b.send payload remote result).transport := by
  unfold DatagramBinding.send
  split
  · exact h
  cases hencoded : encodeDatagramEnvelope remote payload with
  | error err => exact h
  | ok envelope => exact h.call (c := .write envelope result) ⟨remote, payload, hencoded⟩

theorem reaction_writes (event : Event) : ∀ c ∈ reaction event, c.Writes IsEnvelope := by
  intro c hmem
  cases event with
  | readError message =>
    rw [List.mem_singleton.mp hmem]
    trivial
  | _ => exact absurd hmem List.not_mem_nil

theorem Sound.transportStep {b' : DatagramBinding} (h : Sound b.transport) {a : System.Action}
    (ha : a.Writes IsEnvelope) (hroom : RoomyAction a) (hstep : b.transportStep a = some b') : Sound b'.transport := by
  obtain ⟨s, hs, rfl⟩ := Option.map_eq_some_iff.mp hstep
  exact h.step ha hroom hs

theorem Sound.bindingStep {b' : DatagramBinding} (h : Sound b.transport) {a : Action} (ha : AllOrNone a)
    (hstep : b.step a = some b') : Sound b'.transport := by
  cases a with
  | send payload remote result =>
    cases hstep
    exact h.send payload remote result
  | close =>
    cases hstep
    unfold DatagramBinding.close
    split
    · exact h
    · exact h.call (c := .cancel) trivial
  | release result =>
    cases hstep
    unfold DatagramBinding.release
    split
    · exact h.call (c := .close result) trivial
    · exact h
  | deliver ack enable =>
    simp only [DatagramBinding.step] at hstep
    split at hstep
    · cases hstep
    next event _ _ =>
    exact h.transportStep (a := .deliver (reaction event) ack enable) (reaction_writes event) trivial hstep
  | command answers updateOk shutdownOk =>
    exact h.transportStep (a := .command answers updateOk shutdownOk) trivial ha hstep
  | readable answers eofOnAgain updateOk =>
    exact h.transportStep (a := .readable answers eofOnAgain updateOk) trivial trivial hstep
  | writable answers updateOk shutdownOk =>
    exact h.transportStep (a := .writable answers updateOk shutdownOk) trivial ha hstep
  | stop error => exact h.transportStep (a := .stop error) trivial trivial hstep

theorem sound_of_reachable {result : SendResult} (h : Reachable result b) : Sound b.transport :=
  h.invariant (sound_adopted.call (c := .listen result) trivial) fun _ _ _ hb ha hstep => hb.bindingStep ha hstep

/-- In every run of a binding: an accepted envelope is within the bound; every write call is given one accepted
envelope, whole, and takes it or nothing; the envelopes taken are the accepted ones, each once and in order, and as
long as the reactor is open the others are still held whole, by the reactor or in its mailbox; and every read has a
buffer of the full envelope size. -/
theorem datagrams_whole {result : SendResult} {b : DatagramBinding} (h : Reachable result b) :
    (∀ envelope ∈ b.transport.accepted, IsEnvelope envelope ∧ envelope.length ≤ 4 + 255 + 61440) ∧
      (∀ offered taken, Syscall.write offered taken ∈ b.transport.reactor.syscalls →
        offered ∈ b.transport.accepted ∧ (taken = 0 ∨ taken = offered.length)) ∧
      delivered b.transport.reactor.syscalls <+: b.transport.accepted ∧
      (b.transport.reactor.closed = false →
        delivered b.transport.reactor.syscalls ++ b.transport.reactor.writes.map (·.data) ++
          payloads b.transport.main.mailbox = b.transport.accepted ∧
        ∀ w ∈ b.transport.reactor.writes, w.offset = 0) ∧
      ∀ limit, Syscall.read limit ∈ b.transport.reactor.syscalls → limit = 4 + 255 + 61440 := by
  have hsound := sound_of_reachable h
  obtain ⟨posted, heq, hwhole⟩ := hsound.whole
  constructor
  · intro envelope hmem
    have henvelope := hsound.envelopes envelope hmem
    exact ⟨henvelope, henvelope.length_le⟩
  constructor
  · intro offered taken hmem
    obtain ⟨hposted, htaken⟩ := hwhole.calls _ hmem
    exact ⟨heq ▸ List.mem_append_left _ hposted, htaken⟩
  constructor
  · rw [heq]
    exact hwhole.passed.trans (List.prefix_append _ _)
  constructor
  · intro hopen
    constructor
    · rw [heq, hwhole.order hopen]
    · exact fun w hw => (hwhole.held w hw).1
  · exact fun limit hmem => hwhole.calls _ hmem

/-- A binding that has sent one datagram of one byte and has been polled for input. -/
theorem datagrams_whole_one :
    ∃ b, Reachable .ok b ∧ Syscall.write [1, 1, 0, 9, 97, 7] 6 ∈ b.transport.reactor.syscalls ∧
      [1, 1, 0, 9, 97, 7] ∈ b.transport.accepted ∧ Syscall.read (4 + 255 + 61440) ∈ b.transport.reactor.syscalls := by
  have h0 : Reachable .ok (createFdTailscaleDatagramBinding .ok) := .start
  have h1 := h0.next (.send [7] ⟨['a'], 9⟩ .ok) trivial rfl
  have h2 := h1.next (.command [] true true) (by simp [AllOrNone, Reactor.Roomy]) rfl
  have h3 := h2.next (.command [.accepted udpMaxEnvelopeBytes] true true) (by simp [AllOrNone, Reactor.Roomy]) rfl
  have h4 := h3.next (.readable [.again] false true) trivial rfl
  have hwrite := (datagrams_whole h4).2.1 [1, 1, 0, 9, 97, 7] 6 (by decide)
  exact ⟨_, h4, by decide, hwrite.1, by decide⟩

end DatagramBinding

end TailscaleDart.Udp
