import TailscaleDart.Fd.Reactor

/-!
# Fd.Release — what a shard does with a descriptor until it closes it

`fdCalls` are the reads, writes and closes a shard made on a descriptor, in order. One step of the shard either leaves
the state open (`Going`) or closes it (`Ended`), and in the second case the close is the last call. `Going` also says
what an open state may have told the caller's half: no failure, the end of input only with the read half closed, and
the acknowledgement of a write that was queued or of a half-close that was carried out.
-/

namespace TailscaleDart.Fd

inductive FdCall where
  | read
  | write
  | close
  deriving DecidableEq, Repr

/-- `_closeReactorState` says `closed` right after it closed the descriptor, and nothing else says it. -/
def Trace.fdCall : Trace → Option FdCall
  | .called (.read _) => some .read
  | .called (.write _ _) => some .write
  | .sent .closed => some .close
  | _ => none

/-- A failure of the transport, or its end. -/
def Event.isTerminal : Event → Bool
  | .readError _ | .writeError _ _ | .closed => true
  | _ => false

namespace Reactor

def fdCalls (r : Reactor) : List FdCall := r.trace.filterMap Trace.fdCall

/-- The ids of the writes that are queued. -/
def writeIds (r : Reactor) : List Nat := r.writes.map (·.id)

/-- Open, and the calls since `r0` have no close among them. -/
structure Unclosed (r0 r : Reactor) : Prop where
  opened : r.closed = false
  calls : ∃ new, r.fdCalls = r0.fdCalls ++ new ∧ .close ∉ new

/-- Closed, by the last of the calls since `r0`. -/
structure Ended (r0 r : Reactor) : Prop where
  closed : r.closed = true
  calls : ∃ new, r.fdCalls = r0.fdCalls ++ new ++ [.close] ∧ .close ∉ new

/-- Not both directions have ended. -/
abbrev Apart (r : Reactor) : Prop := r.readClosed = true → r.writeClosed = false

/-- Open, with what was sent since `r0`, which had sent nothing. -/
structure Going (r0 r : Reactor) : Prop extends Unclosed r0 r where
  quiet : ∀ e ∈ r.outbox, e.isTerminal = false
  eof : .eof ∈ r.outbox → r.readClosed = true
  acknowledged : ∀ id, .writeOk id ∈ r.outbox → id ∈ r0.writeIds ∨ r.writeClosed = true ∧ r.shutdownWriteId = some id
  writes : ∀ id ∈ r.writeIds, id ∈ r0.writeIds
  read : r0.readClosed = true → r.readClosed = true
  write : r0.writeClosed = true → r.writeClosed = true
  shutdown : r.shutdownWriteId = r0.shutdownWriteId
  apart : r.Apart

/-- What a step leaves behind. -/
def After (r0 r : Reactor) : Prop := Going r0 r ∨ Ended r0 r

variable {r0 r : Reactor}

/-! ## Moves that close nothing -/

variable {r' : Reactor}

theorem Unclosed.noted (h : Unclosed r0 r) (entry : Trace) (hentry : entry.fdCall ≠ some .close)
    (htrace : r'.trace = r.trace ++ [entry]) (hclosed : r'.closed = r.closed) : Unclosed r0 r' := by
  obtain ⟨new, hnew, hno⟩ := h.calls
  refine ⟨hclosed.trans h.opened, new ++ entry.fdCall.toList, ?_, ?_⟩
  · rw [fdCalls, htrace, List.filterMap_append, ← fdCalls, hnew, List.append_assoc]
    congr 2
  · rw [List.mem_append, not_or]
    refine ⟨hno, fun hmem => hentry ?_⟩
    simpa using hmem

theorem Unclosed.sendEvent (h : Unclosed r0 r) {e : Event} (he : e ≠ .closed) : Unclosed r0 (r.sendEvent e) :=
  h.noted (.sent e) (by cases e <;> simp_all [Trace.fdCall]) rfl rfl

theorem Unclosed.closeReactorState (h : Unclosed r0 r) (error : Option String) :
    Ended r0 (r.closeReactorState error) := by
  obtain ⟨new, hnew, hno⟩ := h.calls
  unfold Reactor.closeReactorState
  rw [if_neg (by simp [h.opened])]
  refine ⟨rfl, new, ?_, hno⟩
  have hfailures : ∀ failures : List Event, (∀ e ∈ failures, e ≠ .closed) →
      (failures.map Trace.sent).filterMap Trace.fdCall = [] := by
    intro failures hall
    rw [List.filterMap_eq_nil_iff]
    intro entry hentry
    obtain ⟨e, he, rfl⟩ := List.mem_map.mp hentry
    have hne := hall e he
    cases e <;> simp_all [Trace.fdCall]
  show (r.trace ++ _).filterMap Trace.fdCall = _
  rw [List.filterMap_append, List.map_append, List.filterMap_append, hfailures, ← fdCalls, hnew]
  · simp [Trace.fdCall]
  · cases error with
    | none => simp
    | some message =>
      intro e he
      obtain ⟨w, _, rfl⟩ := List.mem_map.mp he
      simp

theorem Ended.closeReactorState (h : Ended r0 r) (error : Option String) : Ended r0 (r.closeReactorState error) := by
  unfold Reactor.closeReactorState
  rw [if_pos h.closed]
  exact h

theorem Going.refl (hopen : r.closed = false) (hsent : r.outbox = []) (hapart : r.Apart) :
    Going r r where
  opened := hopen
  calls := ⟨[], (List.append_nil _).symm, nofun⟩
  quiet := by simp [hsent]
  eof := by simp [hsent]
  acknowledged := by simp [hsent]
  writes := fun _ h => h
  read := id
  write := id
  shutdown := rfl
  apart := hapart

theorem Going.record (h : Going r0 r) (call : Syscall) : Going r0 (r.record call) :=
  { h with toUnclosed := h.noted (.called call) (by cases call <;> simp [Trace.fdCall]) rfl rfl }

theorem Going.note (h : Going r0 r) {entry : Trace} (hentry : entry.fdCall ≠ some .close) : Going r0 (r.note entry) :=
  { h with toUnclosed := h.noted entry hentry rfl rfl }

/-- Something harmless is sent. -/
theorem Going.sendEvent (h : Going r0 r) {e : Event} (hquiet : e.isTerminal = false)
    (heof : e = .eof → r.readClosed = true)
    (hack : ∀ id, e = .writeOk id → id ∈ r0.writeIds ∨ r.writeClosed = true ∧ r.shutdownWriteId = some id) :
    Going r0 (r.sendEvent e) :=
  { h with
    toUnclosed := h.toUnclosed.sendEvent (by rintro rfl; cases hquiet)
    quiet := by
      intro e' he'
      rcases List.mem_append.mp he' with he' | he'
      · exact h.quiet e' he'
      · rw [List.mem_singleton.mp he']
        exact hquiet
    eof := by
      intro he'
      rcases List.mem_append.mp he' with he' | he'
      · exact h.eof he'
      · exact heof (List.mem_singleton.mp he').symm
    acknowledged := by
      intro id he'
      rcases List.mem_append.mp he' with he' | he'
      · exact h.acknowledged id he'
      · exact hack id (List.mem_singleton.mp he').symm }

theorem Unclosed.updateReactorInterest (h : Unclosed r0 r) (ok : Bool) :
    (∃ mask, r.updateReactorInterest ok = { r with lastInterest := mask }) ∨ Ended r0 (r.updateReactorInterest ok) := by
  unfold Reactor.updateReactorInterest
  rw [if_neg (by simp [h.opened])]
  split
  · exact .inl ⟨r.lastInterest, rfl⟩
  split
  · exact .inl ⟨_, rfl⟩
  · exact .inr ((h.sendEvent (by simp)).closeReactorState _)

theorem Going.updateReactorInterest (h : Going r0 r) (ok : Bool) : After r0 (r.updateReactorInterest ok) := by
  rcases h.toUnclosed.updateReactorInterest ok with ⟨mask, heq⟩ | hended
  · rw [heq]
    exact .inl { h with }
  · exact .inr hended

theorem Going.failWrite (h : Going r0 r) (id : Nat) (message : String) : After r0 (r.failWrite id message) :=
  .inr ((h.toUnclosed.sendEvent (by simp)).closeReactorState _)

/-! ## Flushes and drains -/

theorem Unclosed.closeIfFullyDone (h : Unclosed r0 r) (hgoing : r.Apart → Going r0 r) :
    After r0 r.closeIfFullyDone := by
  unfold Reactor.closeIfFullyDone
  split
  · exact .inr (h.closeReactorState none)
  · next hnot =>
    refine .inl (hgoing fun hread => ?_)
    simpa [hread] using hnot

theorem Going.shut (h : Going r0 r) : ∀ {r' : Reactor}, r' = { r with writeClosed := true }.note .shutWrite →
    Unclosed r0 r' ∧ ((r'.readClosed = true → r'.writeClosed = false) → Going r0 r') := by
  rintro r' rfl
  have hunclosed : Unclosed r0 ({ r with writeClosed := true }.note .shutWrite) :=
    h.toUnclosed.noted .shutWrite (by simp [Trace.fdCall]) rfl rfl
  refine ⟨hunclosed, fun hapart => ?_⟩
  exact { h with
    toUnclosed := hunclosed
    acknowledged := fun id hid => (h.acknowledged id hid).imp_right fun hshut => ⟨rfl, hshut.2⟩
    write := fun _ => rfl
    apart := hapart }

theorem Going.finishFlush (h : Going r0 r) (updateOk shutdownOk : Bool) :
    After r0 (r.finishFlush updateOk shutdownOk) := by
  unfold Reactor.finishFlush
  split
  · split
    · obtain ⟨hunclosed, hgoing⟩ := h.shut rfl
      dsimp only
      split
      · exact hunclosed.closeIfFullyDone hgoing
      · next id hid =>
        refine (hunclosed.sendEvent (e := .writeOk id) (by simp)).closeIfFullyDone fun hapart => ?_
        refine (hgoing hapart).sendEvent rfl (by simp) fun id' heq => .inr ⟨rfl, ?_⟩
        cases heq
        exact hid
    · dsimp only
      split
      · exact .inr ((h.toUnclosed.sendEvent (by simp)).closeReactorState _)
      · exact .inr ((h.toUnclosed.sendEvent (by simp)).closeReactorState _)
  · exact h.updateReactorInterest updateOk

theorem Going.advance (h : Going r0 r) {w : ReactorWrite} {rest : List ReactorWrite} (hwrites : r.writes = w :: rest)
    (count : Nat) : Going r0 (r.advance w rest count) := by
  have hhead : w.id ∈ r.writeIds := by simp [writeIds, hwrites]
  unfold Reactor.advance
  split
  · have hqueue : Going r0 { r with writes := rest } := by
      refine { h with writes := fun id hid => h.writes id ?_ }
      rw [writeIds, hwrites]
      exact .tail _ hid
    refine hqueue.sendEvent rfl (by simp) fun id heq => .inl ?_
    cases heq
    exact h.writes _ hhead
  · refine { h with writes := fun id hid => h.writes id ?_ }
    simpa [writeIds, hwrites] using hid

theorem going_flushRule (r0 : Reactor) (updateOk shutdownOk : Bool) :
    FlushRule (fun _ => True) updateOk shutdownOk (fun _ => Going r0) (After r0) where
  finish _ h := h.finishFlush updateOk shutdownOk
  accepted hwrites _ _ _ h := (h.record _).advance hwrites _
  interrupted _ _ h := h.record _
  again _ _ h := (h.record _).updateReactorInterest updateOk
  failed message _ _ _ _ _ _ h := (h.record _).failWrite _ message

variable {updateOk : Bool}

theorem Going.flushReactorWrites (h : Going r0 r) {answers : List WriteAnswer} {shutdownOk : Bool}
    (hrun : r.flushReactorWrites answers updateOk shutdownOk = some r') : After r0 r' :=
  (going_flushRule r0 updateOk shutdownOk).flushReactorWrites (fun _ _ => trivial) hrun (fun _ => .inl h) fun _ _ => h

theorem Going.asked (h : Going r0 r) (eofOnAgain : Bool) (budget : Nat) (answer : ReadAnswer) :
    Going r0 (r.asked eofOnAgain budget answer) := (h.record _).note (by simp [Trace.fdCall])

/-- The end of input: with the write half closed before, it closes the state. -/
theorem Going.readFinished (h : Going r0 r) (updateOk : Bool) : After r0 (r.readFinished updateOk) := by
  have hread : Unclosed r0 { r with readClosed := true, readEnabled := false } := { h.toUnclosed with }
  have hunclosed := hread.sendEvent (e := .eof) nofun
  unfold Reactor.readFinished
  dsimp only
  rcases hunclosed.updateReactorInterest updateOk with ⟨mask, heq⟩ | hended
  · rw [heq]
    refine Unclosed.closeIfFullyDone { hunclosed with } fun hapart => ?_
    have hgoing : Going r0 { r with readClosed := true, readEnabled := false, lastInterest := mask } := {
      h with
      eof := fun _ => rfl
      read := fun _ => rfl
      apart := hapart }
    exact hgoing.sendEvent rfl (fun _ => rfl) nofun
  · unfold Reactor.closeIfFullyDone
    split
    · exact .inr (hended.closeReactorState none)
    · exact .inr hended

theorem going_readRule (r0 : Reactor) (eofOnAgain updateOk : Bool) :
    ReadRule (fun _ => True) eofOnAgain updateOk (fun _ => Going r0) (After r0) where
  spent _ h := h.updateReactorInterest updateOk
  data {budget _ bytes} _ _ _ h := by
    refine .sendEvent ?_ rfl (by simp) (by simp)
    have hasked := h.asked eofOnAgain budget (.data bytes)
    exact { hasked with }
  interrupted _ _ h := h.asked _ _ _
  ended _ _ _ h := (h.asked _ _ _).readFinished updateOk
  again _ _ _ h := .inl (h.asked _ _ _)
  failed _ _ _ _ h := .inr (((h.asked _ _ _).toUnclosed.sendEvent (by simp)).closeReactorState _)

theorem Going.readReactorState (h : Going r0 r) {answers : List ReadAnswer} {eofOnAgain : Bool}
    (hrun : r.readReactorState answers eofOnAgain updateOk = some r') : After r0 r' :=
  (going_readRule r0 eofOnAgain updateOk).readReactorState (fun _ _ => trivial) hrun (fun _ => .inl h) fun _ _ _ => h

/-! ## Commands -/

/-- The state a command finds, once it has joined the queue or asked for the half-close. -/
structure Prepared (command : Command) (r r1 : Reactor) : Prop where
  calls : r1.fdCalls = r.fdCalls
  read : r1.readClosed = r.readClosed
  write : r1.writeClosed = r.writeClosed
  writes : ∀ id ∈ r1.writeIds, id ∈ r.writeIds ∨ ∃ data, command = .write id data
  shutdown : ∀ id, r1.shutdownWriteId = some id → r.shutdownWriteId = some id ∨ command = .shutdownWrite id

theorem Prepared.refl (command : Command) (r : Reactor) : Prepared command r r :=
  ⟨rfl, rfl, rfl, fun _ h => .inl h, fun _ h => .inl h⟩

/-- One command for an open state. -/
theorem after_process {command : Command} {answers : List WriteAnswer} {shutdownOk : Bool}
    (hopen : r.closed = false) (hsent : r.outbox = []) (hapart : r.Apart)
    (hrun : r.process command answers updateOk shutdownOk = some r') :
    (∃ r1, Prepared command r r1 ∧ After r1 r') ∧ (command = .close → r'.closed = true) := by
  have hrefl : Going r r := .refl hopen hsent hapart
  unfold Reactor.process at hrun
  rw [if_neg (by simp [hopen])] at hrun
  cases command with
  | enableRead | disableRead =>
    cases hrun
    refine ⟨⟨r, .refl _ r, ?_⟩, nofun⟩
    refine Going.updateReactorInterest ?_ updateOk
    exact { hrefl with }
  | inboundConsumed bytes =>
    cases hrun
    refine ⟨⟨r, .refl _ r, ?_⟩, nofun⟩
    refine Going.updateReactorInterest (Going.note ?_ (by simp [Trace.fdCall])) updateOk
    exact { hrefl with }
  | write id data =>
    have hqueued : Going
        { r with writes := r.writes ++ [{ id := id, data := data }], trace := r.trace ++ [.queued id data] }
        { r with writes := r.writes ++ [{ id := id, data := data }], trace := r.trace ++ [.queued id data] } :=
      .refl hopen hsent hapart
    refine ⟨⟨_, ?_, hqueued.flushReactorWrites hrun⟩, nofun⟩
    refine ⟨?_, rfl, rfl, ?_, fun _ h => .inl h⟩
    · simp [fdCalls, Trace.fdCall]
    · intro id' hid'
      simp only [writeIds, List.map_append, List.map_cons, List.map_nil, List.mem_append, List.mem_singleton] at hid'
      exact hid'.imp_right fun heq => ⟨data, by rw [heq]⟩
  | shutdownWrite id =>
    have hasked : Going { r with closingWrite := true, shutdownWriteId := some id }
        { r with closingWrite := true, shutdownWriteId := some id } := .refl hopen hsent hapart
    refine ⟨⟨_, ?_, hasked.flushReactorWrites hrun⟩, nofun⟩
    refine ⟨rfl, rfl, rfl, fun _ h => .inl h, fun id' hid' => .inr ?_⟩
    cases hid'
    rfl
  | close =>
    cases hrun
    have hended := hrefl.toUnclosed.closeReactorState none
    exact ⟨⟨r, .refl _ r, .inr hended⟩, fun _ => hended.closed⟩

end Reactor

end TailscaleDart.Fd
