import TailscaleDart.Fd.System
import TailscaleDart.Fd.Waiting

/-!
# Fd.Stream — bytes written one chunk at a time

A writer that awaits each write hands its chunks to a stream transport one after the other. Whatever the
reactor does with them (partial writes, interrupted calls, a full socket, chunks larger than one call), the
descriptor takes the bytes of the chunks in order, and as long as the peer accepts bytes the writer finishes.

The account of `Fd.System` says where each write is; here `Streams` says where each byte is. `Calm` and `Open`
say that nothing has gone wrong in either half, which is what the peer's behaviour gives.
-/

namespace TailscaleDart.Fd

/-! ## Bytes in the reactor -/

/-- The bytes the descriptor took, in order. -/
def wire (calls : List Syscall) : Bytes :=
  calls.flatMap fun
    | .write offered taken => offered.take taken
    | .read _ => []

/-- The bytes queued and not yet written. -/
def unwritten (writes : List ReactorWrite) : Bytes := writes.flatMap fun w => w.data.drop w.offset

@[simp] theorem wire_append (a b : List Syscall) : wire (a ++ b) = wire a ++ wire b := List.flatMap_append

/-- The reactor has read the bytes `base`: it wrote the first of them and holds the rest. -/
structure Streams (base : Bytes) (r : Reactor) : Prop where
  writing : r.closingWrite = false
  empty : r.closed = true → r.writes = []
  within : ∀ w ∈ r.writes, w.offset < w.data.length
  bytes : r.closed = false → wire r.syscalls ++ unwritten r.writes = base

theorem Streams.keeps (base : Bytes) : Reactor.Keeps (Streams base) where
  writing := fun h => h.writing
  mask := fun _ h => { h with }
  note := fun _ h => { h with }
  notice := fun _ h => { h with }
  reading := fun _ _ _ h => { h with }
  read := fun _ h => { h with bytes := by simpa [Reactor.record, wire] using h.bytes }
  close := by
    intro r error h
    obtain ⟨hclosed, hcase⟩ := Reactor.closeReactorState_closed r error
    obtain ⟨-, hwriting, -⟩ := Reactor.closeReactorState_config r error
    cases hcase with
    | inl hsame =>
      rw [hsame.2]
      exact h
    | inr hnone =>
      constructor
      · exact hwriting.trans h.writing
      · exact fun _ => hnone
      · intro w hw
        rw [hnone] at hw
        cases hw
      · intro hopen
        rw [hclosed] at hopen
        cases hopen

variable {budget : Nat} {w : ReactorWrite}

theorem offered_pos (h : w.offset < w.data.length) (hbudget : 0 < budget) : 0 < (Reactor.offered w budget).length := by
  simp only [Reactor.offered, List.length_take, List.length_drop, reactorWriteChunkBytes]
  omega

/-- The kernel takes at least one byte, and no more than is left. -/
theorem taken_bounds (h : w.offset < w.data.length) (hbudget : 0 < budget) (n : Nat) :
    0 < Reactor.taken n (Reactor.offered w budget) ∧
      Reactor.taken n (Reactor.offered w budget) ≤ (Reactor.offered w budget).length ∧
      w.offset + Reactor.taken n (Reactor.offered w budget) ≤ w.data.length := by
  have hpos := offered_pos h hbudget
  have hle : (Reactor.offered w budget).length ≤ w.data.length - w.offset := by
    simp only [Reactor.offered, List.length_take, List.length_drop]
    omega
  unfold Reactor.taken
  omega

theorem take_offered {count : Nat} (h : count ≤ (Reactor.offered w budget).length) :
    (Reactor.offered w budget).take count = (w.data.drop w.offset).take count := by
  unfold Reactor.offered at h ⊢
  rw [List.length_take] at h
  rw [List.take_take]
  congr 1
  omega

theorem Streams.flushes (base : Bytes) : Reactor.Flushes (fun _ => Streams base) fun _ => True where
  keeps := fun _ => Streams.keeps base
  none := fun _ _ h => { h with bytes := by simpa [Reactor.record, wire] using h.bytes }
  some := by
    intro budget r w rest n hwrites hbudget _ _ h
    have hw := h.within w (hwrites ▸ (.head _))
    obtain ⟨hpos, hcount, hfits⟩ := taken_bounds hw hbudget n
    generalize hc : Reactor.taken n (Reactor.offered w budget) = count at hpos hcount hfits ⊢
    have hbytes := h.bytes
    have hwire : wire (r.syscalls ++ [.write (Reactor.offered w budget) count]) =
        wire r.syscalls ++ (w.data.drop w.offset).take count := by
      rw [wire_append, ← take_offered hcount]
      simp [wire]
    have hunwritten : unwritten r.writes = w.data.drop w.offset ++ unwritten rest := by rw [hwrites]; rfl
    unfold Reactor.advance
    split
    · next hdone =>
      constructor
      · exact h.writing
      · intro hclosed
        have := h.empty hclosed
        rw [hwrites] at this
        cases this
      · exact fun v hv => h.within v (hwrites ▸ .tail w hv)
      · intro hopen
        show wire (r.syscalls ++ [_]) ++ unwritten rest = base
        rw [hwire, ← hbytes hopen, hunwritten, List.take_of_length_le (by rw [List.length_drop]; omega),
          List.append_assoc]
    · next hmore =>
      constructor
      · exact h.writing
      · intro hclosed
        have := h.empty hclosed
        rw [hwrites] at this
        cases this
      · intro v hv
        cases List.mem_cons.mp hv with
        | inl heq =>
          rw [heq]
          show w.offset + count < w.data.length
          omega
        | inr hrest => exact h.within v (hwrites ▸ .tail w hrest)
      · intro hopen
        show wire (r.syscalls ++ [_]) ++ (w.data.drop (w.offset + count) ++ unwritten rest) = base
        rw [hwire, ← hbytes hopen, hunwritten, ← List.drop_drop, ← List.append_assoc, ← List.append_assoc,
          List.append_assoc (wire r.syscalls), List.take_append_drop]

theorem Streams.queue {base : Bytes} {r : Reactor} (h : Streams base r) (hopen : r.closed = false) (id : Nat)
    {data : Bytes} (hne : data ≠ []) : Streams (base ++ data) { r with
      writes := r.writes ++ [{ id := id, data := data }], trace := r.trace ++ [.queued id data] } where
  writing := h.writing
  empty := by
    intro hclosed
    rw [hopen] at hclosed
    cases hclosed
  within := by
    intro w hw
    cases List.mem_append.mp hw with
    | inl hold => exact h.within w hold
    | inr hnew =>
      rw [List.mem_singleton.mp hnew]
      exact List.length_pos_iff.mpr hne
  bytes := by
    intro _
    show wire r.syscalls ++ unwritten (r.writes ++ [{ id := id, data := data }]) = base ++ data
    rw [← h.bytes hopen]
    simp [unwritten]

/-! ## Nothing goes wrong in the reactor -/

/-- The answers of a peer that accepts bytes: it may make the writer wait, but it does not fail. -/
def WriteAnswer.IsBenign : WriteAnswer → Prop
  | .accepted _ | .interrupted | .again => True
  | .zero | .failed _ => False

def ReadAnswer.IsBenign : ReadAnswer → Prop
  | .failed _ => False
  | _ => True

def Event.IsCalm : Event → Prop
  | .data _ | .eof | .writeOk _ => True
  | _ => False

namespace Reactor

structure Calm (r : Reactor) : Prop where
  opened : r.closed = false
  unclosed : r.writeClosed = false
  writing : r.closingWrite = false
  events : ∀ e ∈ r.outbox, e.IsCalm

variable {r : Reactor} {r' : Reactor}

theorem Calm.sendEvent (h : r.Calm) {e : Event} (he : e.IsCalm) : (r.sendEvent e).Calm :=
  { h with
    events := by
      intro f hf
      cases List.mem_append.mp hf with
      | inl hold => exact h.events f hold
      | inr hnew => exact List.mem_singleton.mp hnew ▸ he }

theorem Calm.updateReactorInterest (h : r.Calm) : (r.updateReactorInterest true).Calm := by
  unfold Reactor.updateReactorInterest
  split
  · exact h
  split
  · exact h
  · exact { h with }

theorem Calm.finishFlush (h : r.Calm) (shutdownOk : Bool) : (r.finishFlush true shutdownOk).Calm := by
  unfold Reactor.finishFlush
  rw [h.writing, Bool.and_false, Bool.false_and, if_neg nofun]
  exact h.updateReactorInterest

theorem Calm.advance (h : r.Calm) (w : ReactorWrite) (rest : List ReactorWrite) (count : Nat) :
    (r.advance w rest count).Calm := by
  unfold Reactor.advance
  split
  · have hqueue : { r with writes := rest }.Calm := { h with }
    exact hqueue.sendEvent trivial
  · exact { h with }

theorem Calm.flushRule (base : Bytes) (shutdownOk : Bool) :
    FlushRule WriteAnswer.IsBenign true shutdownOk (fun _ r => Streams base r ∧ r.Calm) Calm where
  finish _ h := h.2.finishFlush shutdownOk
  accepted {_ r w rest n} hwrites hpos _ hoffered h := by
    have hrecorded : ∀ call, (r.record call).Calm := fun call => { h.2 with }
    exact ⟨(Streams.flushes base).some hwrites hpos trivial hoffered h.1, (hrecorded _).advance w rest _⟩
  interrupted hwrites hpos h := ⟨(Streams.flushes base).none hwrites hpos h.1, { h.2 with }⟩
  again {_ r _ _} _ _ h := by
    have hrecorded : ∀ call, (r.record call).Calm := fun call => { h.2 with }
    exact (hrecorded _).updateReactorInterest
  failed {_ _ w _ answer} _ hwrites hpos hbenign hnone hinterrupted hagain h := by
    cases answer with
    | accepted n =>
      have hoffered := offered_pos (h.1.within w (hwrites ▸ (.head _))) hpos
      rw [hnone n rfl] at hoffered
      exact absurd hoffered (Nat.lt_irrefl 0)
    | zero => exact hbenign.elim
    | interrupted => exact absurd rfl hinterrupted
    | again => exact absurd rfl hagain
    | failed errno => exact hbenign.elim

variable {base : Bytes}

theorem Calm.flushReactorWrites {shutdownOk : Bool} {answers : List WriteAnswer} (hbenign : ∀ a ∈ answers, a.IsBenign)
    (hstream : Streams base r) (h : r.Calm) (hrun : r.flushReactorWrites answers true shutdownOk = some r') : r'.Calm :=
  (Calm.flushRule base shutdownOk).flushReactorWrites hbenign hrun (fun _ => h) fun _ _ => ⟨hstream, h⟩

theorem Calm.readFinished (h : r.Calm) : (r.readFinished true).Calm := by
  have hread : { r with readClosed := true, readEnabled := false }.Calm := { h with }
  have hupdated := (hread.sendEvent (e := .eof) trivial).updateReactorInterest
  show (closeIfFullyDone _).Calm
  unfold closeIfFullyDone
  rw [hupdated.unclosed, Bool.and_false, if_neg nofun]
  exact hupdated

theorem Calm.readRule (eofOnAgain : Bool) : ReadRule ReadAnswer.IsBenign eofOnAgain true (fun _ => Calm) Calm where
  spent _ h := h.updateReactorInterest
  data _ _ _ h := by
    refine Calm.sendEvent ?_ trivial
    exact { h with }
  interrupted _ _ h := { h with }
  ended _ _ _ h := by
    refine Calm.readFinished ?_
    exact { h with }
  again _ _ _ h := { h with }
  failed _ _ _ hbenign _ := hbenign.elim

theorem Calm.readReactorState {answers : List ReadAnswer} (hbenign : ∀ a ∈ answers, a.IsBenign) {eofOnAgain : Bool}
    (h : r.Calm) (hrun : r.readReactorState answers eofOnAgain true = some r') : r'.Calm :=
  (Calm.readRule eofOnAgain).readReactorState hbenign hrun (fun _ => h) fun _ _ _ => h

theorem Calm.process {command : Command} (hclose : command ≠ .close) (hshutdown : ∀ id, command ≠ .shutdownWrite id)
    (hdata : ∀ id data, command = .write id data → data ≠ []) {shutdownOk : Bool} {answers : List WriteAnswer}
    (hbenign : ∀ a ∈ answers, a.IsBenign) (hstream : Streams base r) (h : r.Calm)
    (hrun : r.process command answers true shutdownOk = some r') : r'.Calm := by
  unfold Reactor.process at hrun
  split at hrun
  · cases hrun
    exact h
  cases command with
  | enableRead =>
    cases hrun
    have henabled : { r with readEnabled := true }.Calm := { h with }
    exact henabled.updateReactorInterest
  | disableRead =>
    cases hrun
    have hdisabled : { r with readEnabled := false }.Calm := { h with }
    exact hdisabled.updateReactorInterest
  | inboundConsumed bytes =>
    cases hrun
    have hcounted : ({ r with pendingInboundBytes := r.pendingInboundBytes - bytes }.note (.consumed bytes)).Calm :=
      { h with }
    exact hcounted.updateReactorInterest
  | write id data =>
    have hqueued : Calm { r with
        writes := r.writes ++ [{ id := id, data := data }], trace := r.trace ++ [.queued id data] } :=
      { h with }
    exact hqueued.flushReactorWrites hbenign (hstream.queue h.opened id (hdata id data rfl)) hrun
  | shutdownWrite id => exact absurd rfl (hshutdown id)
  | close => exact absurd rfl hclose

theorem flushReactorWrites_again (r : Reactor) (updateOk shutdownOk : Bool) :
    ∃ r', r.flushReactorWrites [.again] updateOk shutdownOk = some r' := by
  unfold Reactor.flushReactorWrites
  split
  · exact ⟨r, rfl⟩
  unfold Reactor.flushLoop
  split
  · exact ⟨_, rfl⟩
  split
  · exact ⟨_, rfl⟩
  · exact ⟨_, rfl⟩

theorem process_again (r : Reactor) (command : Command) (updateOk shutdownOk : Bool) :
    ∃ r', r.process command [.again] updateOk shutdownOk = some r' := by
  unfold Reactor.process
  split
  · exact ⟨r, rfl⟩
  cases command with
  | write id data | shutdownWrite id => exact flushReactorWrites_again _ updateOk shutdownOk
  | enableRead => exact ⟨_, rfl⟩
  | disableRead => exact ⟨_, rfl⟩
  | inboundConsumed bytes => exact ⟨_, rfl⟩
  | close => exact ⟨_, rfl⟩

theorem updateReactorInterest_writes (r : Reactor) : (r.updateReactorInterest true).writes = r.writes := by
  unfold Reactor.updateReactorInterest
  split
  · rfl
  split
  · rfl
  · rfl

/-- A socket with room takes all of the queue, when the budget covers it. -/
theorem flushLoop_completes (shutdownOk : Bool) {budget : Nat} (h : Streams base r)
    (hopen : r.closed = false) (hbudget : (unwritten r.writes).length ≤ budget) :
    ∃ answers r', (∀ a ∈ answers, a.IsBenign) ∧ r.flushLoop true shutdownOk answers budget = some r' ∧
      r'.writes = [] := by
  -- each call takes at least one byte of what is left
  induction hleft : (unwritten r.writes).length using Nat.strongRecOn generalizing budget r with
  | ind left ih =>
  cases hwrites : r.writes with
  | nil =>
    refine ⟨[], r.finishFlush true shutdownOk, ?_, ?_, ?_⟩
    · exact fun a ha => absurd ha List.not_mem_nil
    · unfold Reactor.flushLoop
      rw [hwrites]
    · unfold Reactor.finishFlush
      rw [h.writing, Bool.and_false, Bool.false_and, if_neg Bool.false_ne_true, updateReactorInterest_writes, hwrites]
  | cons w rest =>
    have hw := h.within w (hwrites ▸ List.mem_cons_self)
    have hhead : 0 < (w.data.drop w.offset).length := by
      rw [List.length_drop]
      omega
    have hqueue : (unwritten r.writes).length = (w.data.drop w.offset).length + (unwritten rest).length := by
      rw [hwrites]
      exact List.length_append
    have hpos : 0 < budget := by omega
    obtain ⟨htaken, hcount, -⟩ := taken_bounds hw hpos 1
    let next := (r.record (.write (offered w budget) (taken 1 (offered w budget)))).advance w rest
      (taken 1 (offered w budget))
    have hoffered := List.ne_nil_of_length_pos (offered_pos hw hpos)
    have hstream : Streams base next := (Streams.flushes base).some hwrites hpos trivial hoffered h
    have hstill : next.closed = false := by
      show (Reactor.advance _ _ _ _).closed = false
      unfold Reactor.advance
      split <;> exact hopen
    have hcalls : next.syscalls = r.syscalls ++ [.write (offered w budget) (taken 1 (offered w budget))] := by
      show (Reactor.advance _ _ _ _).syscalls = _
      unfold Reactor.advance
      split <;> rfl
    have hmoved : (unwritten next.writes).length + taken 1 (offered w budget) = (unwritten r.writes).length := by
      have hbefore := congrArg List.length (h.bytes hopen)
      have hafter := congrArg List.length (hstream.bytes hstill)
      rw [List.length_append] at hbefore hafter
      rw [hcalls, wire_append, List.length_append] at hafter
      have hone : (wire [.write (offered w budget) (taken 1 (offered w budget))]).length =
          taken 1 (offered w budget) := by
        simp only [wire, List.flatMap_cons, List.flatMap_nil, List.append_nil, List.length_take]
        omega
      omega
    have hbudget' : (unwritten next.writes).length ≤ budget - taken 1 (offered w budget) := by omega
    obtain ⟨answers, r', hbenign, hrun, hdone⟩ := ih _ (by omega) hstream hstill hbudget' rfl
    refine ⟨.accepted 1 :: answers, r', ?_, ?_, hdone⟩
    · intro a ha
      cases List.mem_cons.mp ha with
      | inl heq => exact heq ▸ trivial
      | inr hrest => exact hbenign a hrest
    · unfold Reactor.flushLoop
      rw [hwrites]
      simp only [if_neg (Nat.ne_of_gt hpos), List.isEmpty_eq_false_iff.mpr hoffered, Bool.false_eq_true, if_false]
      exact hrun

end Reactor

namespace PosixFdTransport

/-! ## Nothing goes wrong in the caller's half -/

structure Open (t : PosixFdTransport) : Prop where
  opened : t.closed = false
  unfinished : t.writeFinished = false
  uncalled : Command.close ∉ t.mailbox
  weight : ∀ e ∈ t.writeCompletions, 0 < e.byteCount

variable {t t' : PosixFdTransport}

theorem Open.post (h : t.Open) {command : Command} (hclose : command ≠ .close) (result : SendResult) :
    (t.post command result).Open := by
  rw [post_eq]
  refine ⟨h.opened, h.unfinished, fun hmem => ?_, h.weight⟩
  cases List.mem_append.mp hmem with
  | inl hold => exact h.uncalled hold
  | inr hnew => exact hclose (mem_postedBy hnew).symm

/-- A call on the input stream, while the reactor runs. -/
def Call.IsInput : Call → Prop
  | .listen result | .pause result | .resume result => result = .ok
  | .cancel => True
  | .write _ _ | .closeWrite _ | .close _ => False

variable {c : Call}

theorem Call.IsInput.isQuiet (h : c.IsInput) : c.IsQuiet := by
  cases c with
  | write bytes result => exact h
  | closeWrite result => exact h
  | _ => trivial

theorem Call.IsInput.writes (h : c.IsInput) (P : Bytes → Prop) : c.Writes P := by
  cases c with
  | write bytes result => exact h.elim
  | closeWrite result => exact h
  | _ => trivial

theorem Call.IsInput.results (h : c.IsInput) : ∀ result ∈ c.results, result = .ok := by
  cases c with
  | listen result | pause result | resume result => exact fun _ hmem => (List.mem_singleton.mp hmem).trans h
  | cancel => nofun
  | write | closeWrite | close => exact h.elim

/-- While no send fails, a change by a call on the input or an event of a calm reactor. -/
theorem Open.move {Q : Event → Prop} (hQ : ∀ event, Q event → event.IsCalm)
    {posted : List Command} {results : List SendResult} (hmove : Move Call.IsInput Q t t' posted results)
    (hok : ∀ result ∈ results, result = .ok) (h : t.Open) : t'.Open := by
  cases hmove with
  | input | eof => exact { h with }
  | reading on =>
    have henabled : { t with readEnabled := on }.Open := { h with }
    exact henabled.post (by cases on <;> nofun) _
  | credit => exact h.post (by simp) _
  | admitted hc _ _ hadmits | refused hc _ _ hadmits => cases hadmits <;> exact hc.elim
  | failed _ result hfailed => exact absurd (hok result (List.mem_singleton_self _)) hfailed
  | close _ hc => exact hc.elim
  | acknowledged hmem =>
    -- the acknowledgement of a write with bytes leaves the write half open
    have hweight := Nat.ne_of_gt (h.weight _ hmem)
    refine ⟨h.opened, by simp [hweight, h.unfinished], h.uncalled, fun e he => h.weight e (List.mem_filter.mp he).1⟩
  | finished _ _ hwrite => exact absurd (h.unfinished.symm.trans hwrite) nofun
  | dropped _ hevent => exact (hQ _ hevent).elim
  | ended hevent =>
    rcases hevent with ⟨_, hevent⟩ | ⟨_, _, hevent⟩ | hevent
    all_goals exact (hQ _ hevent).elim

theorem Open.moves {Q : Event → Prop} (hQ : ∀ event, Q event → event.IsCalm)
    {posted : List Command} {results : List SendResult} (hmoves : Moves Call.IsInput Q t t' posted results) :
    (∀ result ∈ results, result = .ok) → t.Open → t'.Open := by
  refine hmoves.related (R := fun t t' _ results => (∀ result ∈ results, result = .ok) → t.Open → t'.Open)
    (fun _ _ _ => id) (fun h g hok ht => ?_) (Open.move hQ)
  exact g (fun r hr => hok r (List.mem_append_right _ hr)) (h (fun r hr => hok r (List.mem_append_left _ hr)) ht)

theorem Open.call (h : t.Open) (hc : c.IsInput) : (c.run t).Open := by
  obtain ⟨_, hmoves⟩ := moves_call (Q := fun _ => False) hc t
  exact .moves (fun _ => False.elim) hmoves hc.results h

theorem Open.handleReactorEvent (h : t.Open) {event : Event} (hevent : event.IsCalm)
    {r : Reaction} (hr : ∀ c ∈ r, c.IsInput) : (t.handleReactorEvent event r .ok .ok).Open := by
  obtain ⟨_, hmoves⟩ := moves_event hevent hr .ok .ok t
  refine .moves (fun _ => id) hmoves (fun result hmem => ?_) h
  rcases List.mem_append.mp hmem with hmem | hmem
  · obtain ⟨c, hc, hmem⟩ := List.mem_flatMap.mp hmem
    exact (hr c hc).results result hmem
  · simpa using hmem

/-- A write that an open transport has room for. -/
theorem Open.write (h : t.Open) {bytes : Bytes} (hne : bytes ≠ [])
    (hfits : t.pendingWriteBytes + bytes.length ≤ t.config.maxPendingWriteBytes) :
    ∃ u, t.write bytes .ok = (.later (t.nextWriteId + 1), u) ∧ u.Open ∧
      u.mailbox = t.mailbox ++ [.write (t.nextWriteId + 1) bytes] := by
  refine ⟨(t.register bytes.length).post (.write (t.nextWriteId + 1) bytes) .ok, ?_, ?_, rfl⟩
  · unfold PosixFdTransport.write
    rw [if_neg (by simpa using hne), h.opened, if_neg Bool.false_ne_true, h.unfinished, if_neg Bool.false_ne_true,
      if_neg (Nat.not_lt.mpr hfits)]
    rfl
  · have hregistered : (t.register bytes.length).Open := by
      refine ⟨h.opened, h.unfinished, h.uncalled, ?_⟩
      intro e he
      cases List.mem_append.mp he with
      | inl hold => exact h.weight e hold
      | inr hnew =>
        cases List.mem_singleton.mp hnew
        exact List.length_pos_iff.mpr hne
    exact hregistered.post (by simp) .ok

end PosixFdTransport

namespace System

/-! ## Bytes flow through both halves -/

/-- What the environment does while the transport is in use and its peer takes bytes: calls on the input, and
system calls that do not fail. -/
def Action.IsBenign : Action → Prop
  | .call c => c.IsInput
  | .deliver r ack enable => (∀ c ∈ r, c.IsInput) ∧ ack = .ok ∧ enable = .ok
  | .command answers updateOk _ => (∀ a ∈ answers, a.IsBenign) ∧ updateOk = true
  | .readable answers _ updateOk => (∀ a ∈ answers, a.IsBenign) ∧ updateOk = true
  | .writable answers updateOk _ => (∀ a ∈ answers, a.IsBenign) ∧ updateOk = true
  | .stop _ => False

structure Flowing (s : System) : Prop where
  accounted : Accounted (fun _ => True) s
  opened : s.main.Open
  calm : s.reactor.Calm
  bytes : ∃ base, Streams base s.reactor ∧ base ++ (payloads s.main.mailbox).flatten = s.accepted.flatten

theorem flowing_adopted (config : Config) : Flowing (adopted config) where
  accounted := accounted_adopted config
  opened := ⟨rfl, rfl, List.not_mem_nil, fun _ h => absurd h List.not_mem_nil⟩
  calm := ⟨rfl, rfl, rfl, fun _ h => absurd h List.not_mem_nil⟩
  bytes := ⟨[], ⟨rfl, fun _ => rfl, fun _ h => absurd h List.not_mem_nil, fun _ => rfl⟩, rfl⟩

theorem continued_accepted {s : System} {t : PosixFdTransport} {posted : List Command}
    (h : t.mailbox = s.main.mailbox ++ posted) : (s.continued t).accepted = s.accepted ++ payloads posted := by
  show s.accepted ++ payloads (t.mailbox.drop s.main.mailbox.length) = _
  rw [h, List.drop_left]

theorem payloads_eq_nil {commands : List Command}
    (h : ∀ id data, Command.write id data ∈ commands → data ≠ [] ∧ False) : payloads commands = [] := by
  refine List.filterMap_eq_nil_iff.mpr ?_
  intro command hmem
  cases command with
  | write id data => exact (h id data hmem).2.elim
  | _ => rfl

variable {s s' : System}

/-- The caller's half moves on without a write. -/
theorem Flowing.bytes_quiet (h : s.Flowing) {t : PosixFdTransport} {posted : List Command}
    (hmailbox : t.mailbox = s.main.mailbox ++ posted)
    (hquiet : ∀ id data, Command.write id data ∈ posted → data ≠ [] ∧ False) : (s.continued t).accepted = s.accepted ∧
      ∃ base, Streams base s.reactor ∧ base ++ (payloads t.mailbox).flatten = (s.continued t).accepted.flatten := by
  have hnone := payloads_eq_nil hquiet
  have hsame : (s.continued t).accepted = s.accepted := by
    rw [continued_accepted hmailbox, hnone, List.append_nil]
  obtain ⟨base, hstream, hbytes⟩ := h.bytes
  refine ⟨hsame, base, hstream, ?_⟩
  rw [hsame, hmailbox, payloads_append, hnone, List.append_nil]
  exact hbytes

theorem Flowing.command (h : s.Flowing) {command : Command} {mailbox : List Command}
    (hmailbox : s.main.mailbox = command :: mailbox) : command ≠ .close ∧ ∀ id, command ≠ .shutdownWrite id := by
  obtain ⟨acked, held, haccount⟩ := h.accounted
  have hmem : command ∈ s.main.mailbox := hmailbox ▸ List.mem_cons_self
  constructor
  · intro heq
    exact h.opened.uncalled (heq ▸ hmem)
  · intro id heq
    exact haccount.open_shutdown id (heq ▸ hmem)

/-- The reactor reads a command: the bytes of a write go from the mailbox to its queue. -/
theorem Flowing.bytes_process (h : s.Flowing) {command : Command} {mailbox : List Command}
    (hmailbox : s.main.mailbox = command :: mailbox) {answers : List WriteAnswer} {updateOk shutdownOk : Bool}
    {r : Reactor} (hrun : s.reactor.process command answers updateOk shutdownOk = some r) :
    ∃ base, Streams base r ∧ base ++ (payloads mailbox).flatten = s.accepted.flatten := by
  obtain ⟨base, hstream, hbytes⟩ := h.bytes
  obtain ⟨acked, held, haccount⟩ := h.accounted
  obtain ⟨-, hshutdown⟩ := h.command hmailbox
  by_cases hwrite : ∃ id data, command = .write id data
  · obtain ⟨id, data, rfl⟩ := hwrite
    have hne : data ≠ [] := (haccount.writes (hmailbox ▸ List.mem_cons_self)).1
    unfold Reactor.process at hrun
    rw [if_neg (by simp [h.calm.opened])] at hrun
    have hqueued := hstream.queue h.calm.opened id hne
    obtain ⟨-, hafter⟩ := (Streams.flushes _).flushReactorWrites (fun _ _ => trivial) hrun hqueued
    refine ⟨base ++ data, hafter, ?_⟩
    rw [← hbytes, hmailbox, List.append_assoc]
    rfl
  · have hother : ∀ id data, command ≠ .write id data := fun id data heq => hwrite ⟨id, data, heq⟩
    refine ⟨base, (Streams.keeps base).process hother hshutdown hrun hstream, ?_⟩
    rw [← hbytes, hmailbox]
    cases command with
    | write id data => exact absurd rfl (hother id data)
    | _ => rfl

theorem Action.IsBenign.writes {a : Action} (h : a.IsBenign) (P : Bytes → Prop) : a.Writes P := by
  cases a with
  | call c => exact PosixFdTransport.Call.IsInput.writes h P
  | deliver r ack enable => exact fun c hc => (h.1 c hc).writes P
  | _ => trivial

/-- One benign action: bytes flow on, nothing is accepted, and who waited waits. -/
theorem Flowing.step (h : s.Flowing) {a : Action} (ha : a.IsBenign) (hstep : s.step a = some s') :
    s'.Flowing ∧ s'.accepted = s.accepted ∧ s'.main.config = s.main.config ∧ (s.main.Idle → s'.main.Idle) ∧
      ∀ id byteCount, s.main.Waits id byteCount → s'.main.Waits id byteCount := by
  have haccounted := h.accounted.step (ha.writes _) hstep
  cases a with
  | call c =>
    cases hstep
    have hinput : c.IsInput := ha
    have hquiet : PosixFdTransport.Quietly s.main (c.run s.main) := .call hinput.isQuiet
    obtain ⟨posted, hposted⟩ := PosixFdTransport.Grows.call s.main (hinput.writes fun _ => False)
    obtain ⟨hsame, hbytes⟩ := h.bytes_quiet hposted.mailbox fun _ _ hmem => hposted.writes hmem
    exact ⟨⟨haccounted, h.opened.call hinput, h.calm, hbytes⟩, hsame, hquiet.config, fun hidle => hidle.quietly hquiet,
      fun _ _ hwaits => hwaits.quietly hquiet⟩
  | deliver r ack enable =>
    obtain ⟨hr, rfl, rfl⟩ := ha
    have hquiet : ∀ c ∈ r, c.IsQuiet := fun c hc => (hr c hc).isQuiet
    obtain ⟨event, outbox, houtbox, rfl⟩ := step_deliver hstep
    have hevent : event.IsCalm := h.calm.events event (houtbox ▸ List.mem_cons_self)
    have hcalm : { s.reactor with outbox := outbox }.Calm :=
      { h.calm with events := fun e he => h.calm.events e (houtbox ▸ List.mem_cons_of_mem event he) }
    obtain ⟨posted, hmailbox, hconfig, hnone⟩ := PosixFdTransport.handleReactorEvent_posts s.main event
      (fun c hc => (hr c hc).writes fun _ => False) .ok .ok
    obtain ⟨hsame, base, hstream, hbytes⟩ := h.bytes_quiet hmailbox hnone
    have hpopped : Streams base { s.reactor with outbox := outbox } := { hstream with }
    exact ⟨⟨haccounted, h.opened.handleReactorEvent hevent hr, hcalm, base, hpopped, hbytes⟩, hsame, hconfig,
      fun hidle => hidle.handleReactorEvent event hquiet .ok .ok,
      fun _ _ hwaits => hwaits.handleReactorEvent event hquiet .ok .ok⟩
  | command answers updateOk shutdownOk =>
    obtain ⟨hbenign, rfl⟩ := ha
    obtain ⟨command, mailbox, r, hmailbox, hrun, rfl⟩ := step_command hstep
    obtain ⟨hclose, hshutdown⟩ := h.command hmailbox
    have hopened : { s.main with mailbox := mailbox }.Open :=
      ⟨h.opened.opened, h.opened.unfinished, fun hmem =>
        h.opened.uncalled (hmailbox ▸ List.mem_cons_of_mem command hmem), h.opened.weight⟩
    obtain ⟨base, hstream, -⟩ := h.bytes
    obtain ⟨acked, held, haccount⟩ := h.accounted
    have hdata : ∀ id data, command = .write id data → data ≠ [] := by
      rintro id data rfl
      exact (haccount.writes (hmailbox ▸ List.mem_cons_self)).1
    have hcalm := h.calm.process hclose hshutdown hdata hbenign hstream hrun
    exact ⟨⟨haccounted, hopened, hcalm, h.bytes_process hmailbox hrun⟩, rfl, rfl,
      fun hidle => hidle, fun _ _ hwaits => hwaits⟩
  | readable answers eofOnAgain updateOk =>
    obtain ⟨hbenign, rfl⟩ := ha
    obtain ⟨r, hrun, rfl⟩ := Option.map_eq_some_iff.mp hstep
    obtain ⟨base, hstream, hbytes⟩ := h.bytes
    have hafter := (Streams.keeps base).readReactorState hrun hstream
    exact ⟨⟨haccounted, h.opened, h.calm.readReactorState hbenign hrun, base, hafter, hbytes⟩, rfl, rfl,
      fun hidle => hidle, fun _ _ hwaits => hwaits⟩
  | writable answers updateOk shutdownOk =>
    obtain ⟨hbenign, rfl⟩ := ha
    obtain ⟨r, hrun, rfl⟩ := Option.map_eq_some_iff.mp hstep
    obtain ⟨base, hstream, hbytes⟩ := h.bytes
    obtain ⟨-, hafter⟩ := (Streams.flushes base).flushReactorWrites (fun _ _ => trivial) hrun hstream
    exact ⟨⟨haccounted, h.opened, h.calm.flushReactorWrites hbenign hstream hrun, base, hafter, hbytes⟩, rfl, rfl,
      fun hidle => hidle, fun _ _ hwaits => hwaits⟩
  | stop error => exact ha.elim

theorem Flowing.wire_of_empty (h : s.Flowing) (hnone : s.main.writeCompletions = []) :
    wire s.reactor.syscalls = s.accepted.flatten := by
  obtain ⟨acked, held, haccount⟩ := h.accounted
  obtain ⟨base, hstream, hbytes⟩ := h.bytes
  have htable := haccount.table h.opened.opened
  rw [hnone] at htable
  obtain ⟨hboth, hmailed⟩ := List.append_eq_nil_iff.mp htable.symm
  have hentries : entries s.reactor.writes = [] :=
    (haccount.queue h.calm.opened).symm.trans (List.append_eq_nil_iff.mp hboth).2
  have hwrites : s.reactor.writes = [] := List.map_eq_nil_iff.mp hentries
  have hpayloads : payloads s.main.mailbox = [] := by
    refine List.filterMap_eq_nil_iff.mpr ?_
    intro command hmem
    have hno := List.filterMap_eq_nil_iff.mp hmailed command hmem
    cases command with
    | write id data => cases hno
    | _ => rfl
  have hwire := hstream.bytes h.calm.opened
  rw [hwrites] at hwire
  rw [← hbytes, hpayloads, ← hwire]
  simp [unwritten]

theorem Flowing.wire_leads (h : s.Flowing) : wire s.reactor.syscalls <+: s.accepted.flatten := by
  obtain ⟨base, hstream, hbytes⟩ := h.bytes
  rw [← hbytes, ← hstream.bytes h.calm.opened, List.append_assoc]
  exact List.prefix_append _ _

/-! ## What was written is acknowledged -/

/-- A run of benign actions. -/
abbrev Run : System → System → Prop := Conc.Machine.Reachable step fun a _ => a.IsBenign

theorem Flowing.run (h : s.Flowing) (hrun : Run s s') :
    s'.Flowing ∧ s'.accepted = s.accepted ∧ s'.main.config = s.main.config ∧ (s.main.Idle → s'.main.Idle) ∧
      ∀ id byteCount, s.main.Waits id byteCount → s'.main.Waits id byteCount := by
  refine hrun.invariant ⟨h, rfl, rfl, id, fun _ _ hwaits => hwaits⟩ fun mid a after hmid ha hstep => ?_
  obtain ⟨hmid, haccepted, hconfig, hidle, hwaits⟩ := hmid
  obtain ⟨hend, haccepted', hconfig', hidle', hwaits'⟩ := hmid.step ha hstep
  exact ⟨hend, haccepted'.trans haccepted, hconfig'.trans hconfig, fun hi => hidle' (hidle hi),
    fun id n hw => hwaits' id n (hwaits id n hw)⟩

theorem drain_mailbox (s : System) : ∃ s', Run s s' ∧ s'.main.mailbox = [] := by
  induction hmailbox : s.main.mailbox generalizing s with
  | nil => exact ⟨s, .start, hmailbox⟩
  | cons command mailbox ih =>
    obtain ⟨r, hrun⟩ := s.reactor.process_again command true true
    let next : System := { s with main := { s.main with mailbox := mailbox }, reactor := r }
    have hstep : s.step (.command [.again] true true) = some next := by
      simp only [System.step, hmailbox, hrun]
      rfl
    have hbenign : (Action.command [.again] true true).IsBenign :=
      ⟨fun a ha => List.mem_singleton.mp ha ▸ trivial, rfl⟩
    obtain ⟨s', hrest, hdone⟩ := ih next rfl
    exact ⟨s', .trans (.next .start _ hbenign hstep) hrest, hdone⟩

/-- A socket with room takes all the reactor holds: the account bounds it by the budget of one flush. -/
theorem Flowing.flush (h : s.Flowing) (hconfig : s.main.config.maxPendingWriteBytes ≤ reactorWriteBudgetBytes) :
    ∃ s', Run s s' ∧ s'.reactor.writes = [] ∧ s'.main = s.main := by
  obtain ⟨acked, held, haccount⟩ := h.accounted
  obtain ⟨base, hstream, -⟩ := h.bytes
  have hentries : ∀ writes : List ReactorWrite, (unwritten writes).length ≤ total (entries writes) := by
    intro writes
    induction writes with
    | nil => exact Nat.le_refl _
    | cons w rest ih =>
      have hlength : (unwritten (w :: rest)).length = (w.data.drop w.offset).length + (unwritten rest).length :=
        List.length_append
      have htotal : total (entries (w :: rest)) = w.data.length + total (entries rest) := rfl
      rw [List.length_drop] at hlength
      omega
  have hload := haccount.load
  have hfits : (unwritten s.reactor.writes).length ≤ reactorWriteBudgetBytes :=
    Nat.le_trans (hentries _) (by omega)
  obtain ⟨answers, r, hbenign, hrun, hdone⟩ :=
    Reactor.flushLoop_completes true hstream h.calm.opened hfits
  refine ⟨{ s with reactor := r }, .next .start (.writable answers true true) ⟨hbenign, rfl⟩ ?_, hdone, rfl⟩
  simp only [System.step, Reactor.flushReactorWrites, h.calm.opened, h.calm.unclosed, Bool.or_false,
    if_neg Bool.false_ne_true, hrun]
  rfl

/-- The caller's half can handle all the events there are, and the reactor's queue is left alone. -/
theorem deliver_outbox (s : System) : ∃ s', Run s s' ∧ s'.reactor.outbox = [] ∧ s'.reactor.writes = s.reactor.writes ∧
      (payloads s.main.mailbox = [] → payloads s'.main.mailbox = []) := by
  induction houtbox : s.reactor.outbox generalizing s with
  | nil => exact ⟨s, .start, houtbox, rfl, id⟩
  | cons event outbox ih =>
    let next : System := { s with reactor := { s.reactor with outbox := outbox } }.continued
      (s.main.handleReactorEvent event [] .ok .ok)
    have hstep : s.step (.deliver [] .ok .ok) = some next := by
      simp only [System.step, houtbox]
      rfl
    have hbenign : (Action.deliver [] .ok .ok).IsBenign := ⟨fun c hc => absurd hc List.not_mem_nil, rfl, rfl⟩
    obtain ⟨posted, hmailbox, -, hnone⟩ := PosixFdTransport.handleReactorEvent_posts (P := fun _ => False) s.main event
      (r := []) (fun c hc => absurd hc List.not_mem_nil) .ok .ok
    obtain ⟨s', hrest, hdone, hwrites, hpayloads⟩ := ih next rfl
    refine ⟨s', .trans (.next .start _ hbenign hstep) hrest, hdone, hwrites, ?_⟩
    intro hempty
    apply hpayloads
    show payloads (s.main.handleReactorEvent event [] .ok .ok).mailbox = []
    rw [hmailbox, payloads_append, hempty, payloads_eq_nil hnone]
    rfl

theorem Flowing.settles (h : s.Flowing) (hconfig : s.main.config.maxPendingWriteBytes ≤ reactorWriteBudgetBytes) :
    ∃ s', Run s s' ∧ s'.main.writeCompletions = [] := by
  obtain ⟨s1, hread, hmailbox⟩ := drain_mailbox s
  obtain ⟨hflowing1, -, hconfig1, -⟩ := h.run hread
  obtain ⟨s2, hflush, hwrites, hmain⟩ := hflowing1.flush (hconfig1 ▸ hconfig)
  obtain ⟨s3, hdeliver, houtbox, hwrites3, hpayloads⟩ := deliver_outbox s2
  have hall : Run s s3 := (hread.trans hflush).trans hdeliver
  obtain ⟨hflowing3, -⟩ := h.run hall
  refine ⟨s3, hall, ?_⟩
  obtain ⟨acked, held, haccount⟩ := hflowing3.accounted
  have hacked : acked = [] := by
    have hacks := haccount.acks
    rw [houtbox] at hacks
    exact List.map_eq_nil_iff.mp hacks
  have hheld : held = [] := by
    rw [haccount.queue hflowing3.calm.opened, hwrites3, hwrites]
    rfl
  have hnone : payloads s3.main.mailbox = [] := by
    apply hpayloads
    rw [hmain, hmailbox]
    rfl
  have hmailed : mailed s3.main.mailbox = [] := by
    refine List.filterMap_eq_nil_iff.mpr ?_
    intro command hmem
    have hno := List.filterMap_eq_nil_iff.mp hnone command hmem
    cases command with
    | write id data => cases hno
    | _ => rfl
  rw [haccount.table hflowing3.opened.opened, hacked, hheld, hmailed]
  rfl

/-- A write there is room for is accepted, and bytes flow on. -/
theorem Flowing.accepts (h : s.Flowing) {bytes : Bytes} (hne : bytes ≠ [])
    (hroom : s.main.pendingWriteBytes + bytes.length ≤ s.main.config.maxPendingWriteBytes) :
    ∃ u, s.main.write bytes .ok = (.later (s.main.nextWriteId + 1), u) ∧ (s.continued u).Flowing ∧
      (s.continued u).accepted = s.accepted ++ [bytes] := by
  obtain ⟨u, hwrite, hopened, hmailbox⟩ := h.opened.write hne hroom
  have hcall : (PosixFdTransport.Call.write bytes .ok).Writes fun _ => True := trivial
  have haccounted : Accounted (fun _ => True) (s.continued u) := by
    apply h.accounted.step (a := .call (.write bytes .ok)) hcall
    simp only [System.step, PosixFdTransport.Call.run, hwrite]
  have haccepted : (s.continued u).accepted = s.accepted ++ [bytes] := continued_accepted hmailbox
  obtain ⟨base, hstream, hbytes⟩ := h.bytes
  refine ⟨u, hwrite, ⟨haccounted, hopened, h.calm, base, hstream, ?_⟩, haccepted⟩
  rw [haccepted, List.flatten_append, ← hbytes, List.append_assoc]
  show base ++ (payloads u.mailbox).flatten = _
  rw [hmailbox, payloads_append, List.flatten_append]
  rfl

/-- A write to an open transport that has nothing pending. -/
theorem Flowing.write (h : s.Flowing) (hidle : s.main.Idle) {bytes : Bytes} (hne : bytes ≠ [])
    (hfits : bytes.length ≤ s.main.config.maxPendingWriteBytes) :
    ∃ id, (s.main.write bytes .ok).1 = .later id ∧ (s.continued (s.main.write bytes .ok).2).Flowing ∧
      (s.continued (s.main.write bytes .ok).2).accepted = s.accepted ++ [bytes] ∧
      (s.main.write bytes .ok).2.config = s.main.config ∧ (s.main.write bytes .ok).2.Waits id bytes.length := by
  have hroom : s.main.pendingWriteBytes + bytes.length ≤ s.main.config.maxPendingWriteBytes := by
    rw [(hidle h.opened.opened).2, Nat.zero_add]
    exact hfits
  obtain ⟨u, hwrite, hflowing, haccepted⟩ := h.accepts hne hroom
  rw [hwrite]
  refine ⟨_, rfl, hflowing, haccepted, ?_⟩
  cases hidle.write hne .ok with
  | inl hrefused =>
    obtain ⟨message, heq, -⟩ := hrefused
    rw [hwrite] at heq
    cases heq
  | inr htaken =>
    obtain ⟨-, -, id, v, heq, hwaits, hconfig⟩ := htaken
    rw [hwrite] at heq
    cases heq
    exact ⟨hconfig, hwaits⟩

/-! ## Writes that nobody awaits -/

/-- Calls write when they like, of any size and without awaiting what was written before, and the peer takes bytes: the
transport stays open, the descriptor has taken a part of what was accepted, in the order of the calls, and from every
state all of it can still reach the descriptor and be acknowledged. -/
theorem pipelined_writes_flow {config : Config} {s : System}
    (h : Reachable (fun _ a => a.IsBenign ∨ ∃ bytes, a = .call (.write bytes .ok)) config s) :
    s.main.closed = false ∧ wire s.reactor.syscalls <+: s.accepted.flatten ∧
      (config.maxPendingWriteBytes ≤ reactorWriteBudgetBytes →
        ∃ s', Run s s' ∧ s'.main.writeCompletions = [] ∧ wire s'.reactor.syscalls = s.accepted.flatten) := by
  have hflows : s.Flowing ∧ s.main.config = config := by
    refine h.invariant ⟨flowing_adopted config, rfl⟩ fun s a s' ih hok hstep => ?_
    rcases hok with hbenign | ⟨bytes, rfl⟩
    · obtain ⟨hflowing, -, hconfig, -⟩ := ih.1.step hbenign hstep
      exact ⟨hflowing, hconfig.trans ih.2⟩
    · cases hstep
      obtain ⟨posted, hposted⟩ := PosixFdTransport.Grows.call (P := fun _ => True) s.main
        (c := .write bytes .ok) trivial
      refine ⟨?_, hposted.config.trans ih.2⟩
      rw [PosixFdTransport.Call.run]
      by_cases hroom : bytes ≠ [] ∧ s.main.pendingWriteBytes + bytes.length ≤ s.main.config.maxPendingWriteBytes
      · obtain ⟨u, hwrite, hflowing, -⟩ := ih.1.accepts hroom.1 hroom.2
        rwa [hwrite]
      · have hrefused : (s.main.write bytes .ok).2 = s.main := by
          unfold PosixFdTransport.write
          grind
        have hsame : s.continued s.main = s := by simp [continued, payloads]
        rw [hrefused, hsame]
        exact ih.1
  refine ⟨hflows.1.opened.opened, hflows.1.wire_leads, fun hbudget => ?_⟩
  obtain ⟨s', hrun, hdone⟩ := hflows.1.settles (hflows.2 ▸ hbudget)
  obtain ⟨hflowing, haccepted, -⟩ := hflows.1.run hrun
  exact ⟨s', hrun, hdone, haccepted ▸ hflowing.wire_of_empty hdone⟩

/-- Two writes, the first of them not yet read by the reactor. -/
theorem pipelined_writes_flow_two :
    ∃ s s', Reachable (fun _ a => a.IsBenign ∨ ∃ bytes, a = .call (.write bytes .ok)) {} s ∧ s.accepted = [[1], [2]] ∧
      s.reactor.writes = [] ∧ Run s s' ∧ wire s'.reactor.syscalls = [1, 2] := by
  have h0 : Reachable (fun _ a => a.IsBenign ∨ ∃ bytes, a = .call (.write bytes .ok)) {} (adopted {}) := .start
  have h1 := h0.next (.call (.write [1] .ok)) (.inr ⟨_, rfl⟩) rfl
  have h2 := h1.next (.call (.write [2] .ok)) (.inr ⟨_, rfl⟩) rfl
  obtain ⟨s', hrun, -, hwire⟩ := (pipelined_writes_flow h2).2.2 (by decide)
  exact ⟨_, s', h2, rfl, rfl, hrun, hwire⟩

end System

end TailscaleDart.Fd
