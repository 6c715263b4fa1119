import TailscaleDart.Data.History
import TailscaleDart.Fd.Interest

/-!
# Fd.Inbound — from the descriptor to the event

What the shard does with the bytes of one transport: it reads them, counts them as pending and sends them on, in order;
the end is reported once, by the read that met it, and nothing after it. A read asks for no more than the limit leaves,
but a datagram is read whole, so the pending bytes keep within the limit or overdraw it by one datagram
(`Config.Holds`).
-/

namespace TailscaleDart.Fd

open TailscaleDart.Data (Always always_nil always_concat)

/-! ## What a history says about reading -/

/-- The bytes the data events carried. -/
def sentBytes (log : List Trace) : Bytes :=
  log.flatMap fun
    | .sent (.data bytes) => bytes
    | _ => []

/-- The bytes the reads returned. -/
def readBytes (log : List Trace) : Bytes :=
  log.flatMap fun
    | .got _ (.data bytes) => bytes
    | _ => []

/-- The bytes that were acknowledged. -/
def consumedBytes (log : List Trace) : Nat :=
  (log.map fun
    | .consumed bytes => bytes
    | _ => 0).sum

/-- The end is reported once, by the read that met it, and no data after it. -/
def EndsOnce (before : List Trace) : Trace → Prop
  | .sent .eof => .sent .eof ∉ before ∧
    ∃ earlier eofOnAgain answer, before = earlier ++ [.got eofOnAgain answer] ∧ answer.ends eofOnAgain = true
  | .sent (.data _) => .sent .eof ∉ before
  | _ => True

/-- The entry tells of bytes read, their credit, or the end. -/
def Trace.isInbound : Trace → Bool
  | .got _ (.data _) | .consumed _ | .sent (.data _) | .sent .eof => true
  | _ => false

/-- The bound on the pending bytes: a stream keeps within the limit, and a datagram may overdraw it. -/
def Config.Holds (config : Config) (bytes : Nat) : Prop :=
  if config.datagram then bytes < config.maxInboundQueuedBytes + config.maxReadChunkSize
  else bytes ≤ config.maxInboundQueuedBytes

theorem Config.Holds.mono {config : Config} {m n : Nat} (h : config.Holds n) (hle : m ≤ n) : config.Holds m := by
  unfold Config.Holds at h ⊢
  split
  · rw [if_pos ‹_›] at h
    exact Nat.lt_of_le_of_lt hle h
  · rw [if_neg ‹_›] at h
    exact Nat.le_trans hle h

section Histories

variable (a b : List Trace) {entry : Trace} {more : List Trace}

@[simp] theorem sentBytes_append : sentBytes (a ++ b) = sentBytes a ++ sentBytes b := List.flatMap_append

@[simp] theorem readBytes_append : readBytes (a ++ b) = readBytes a ++ readBytes b := List.flatMap_append

@[simp] theorem consumedBytes_append : consumedBytes (a ++ b) = consumedBytes a + consumedBytes b := by
  simp [consumedBytes]

theorem silent_entry (before : List Trace) (h : entry.isInbound = false) :
    sentBytes [entry] = [] ∧ readBytes [entry] = [] ∧ consumedBytes [entry] = 0 ∧ entry ≠ .sent .eof ∧
      EndsOnce before entry := by
  cases entry with
  | got eofOnAgain answer =>
    cases answer with
    | data bytes => cases h
    | _ => exact ⟨rfl, rfl, rfl, nofun, trivial⟩
  | sent event =>
    cases event with
    | data bytes => cases h
    | eof => cases h
    | _ => exact ⟨rfl, rfl, rfl, nofun, trivial⟩
  | consumed bytes => cases h
  | _ => exact ⟨rfl, rfl, rfl, nofun, trivial⟩

theorem silent_entries (h : ∀ entry ∈ more, entry.isInbound = false) :
    sentBytes more = [] ∧ readBytes more = [] ∧ consumedBytes more = 0 ∧ .sent .eof ∉ more := by
  induction more with
  | nil => exact ⟨rfl, rfl, rfl, nofun⟩
  | cons entry more ih =>
    obtain ⟨hsent, hread, hconsumed, heof⟩ := ih fun x hx => h x (.tail entry hx)
    obtain ⟨hsent1, hread1, hconsumed1, hne, -⟩ := silent_entry [] (h entry (.head _))
    rw [← List.singleton_append]
    refine ⟨?_, ?_, ?_, ?_⟩
    · rw [sentBytes_append, hsent1, hsent, List.append_nil]
    · rw [readBytes_append, hread1, hread, List.append_nil]
    · rw [consumedBytes_append, hconsumed1, hconsumed]
    · simp [heof, hne.symm]

end Histories

/-- The bytes of the data events on their way. -/
def dataBytes (events : List Event) : Nat :=
  (events.map fun
    | .data bytes => bytes.length
    | _ => 0).sum

@[simp] theorem dataBytes_append (a b : List Event) : dataBytes (a ++ b) = dataBytes a + dataBytes b := by
  simp [dataBytes]

/-! ## The shard -/

namespace Reactor

/-- What reading has come to. -/
structure Reads (config : Config) (r : Reactor) : Prop where
  adopted : r.config = config
  flow : sentBytes r.trace = readBytes r.trace
  ends : Always EndsOnce r.trace
  ended : .sent .eof ∈ r.trace → r.readClosed = true
  account : r.pendingInboundBytes + consumedBytes r.trace = (sentBytes r.trace).length
  held : config.Holds r.pendingInboundBytes

/-- From `r` to `r'` the shard read what it had leave to read, and sent what it read. -/
structure Feeds (r r' : Reactor) : Prop where
  moved : r'.pendingInboundBytes + dataBytes r.outbox = r.pendingInboundBytes + dataBytes r'.outbox
  grows : r.pendingInboundBytes ≤ r'.pendingInboundBytes
  enabled : r'.readEnabled = true → r.readEnabled = true
  closed : r.closed = true → r'.closed = true
  idle : r.closed = true ∨ r.readEnabled = false → r'.pendingInboundBytes = r.pendingInboundBytes

theorem Feeds.refl (r : Reactor) : Feeds r r := ⟨rfl, Nat.le_refl _, fun h => h, fun h => h, fun _ => rfl⟩

section Reading

variable {config : Config} {r r0 r' : Reactor} {more : List Trace}

/-- Entries that tell nothing of reading, and the fields it depends on. -/
theorem Reads.silent (h : Reads config r) (hmore : ∀ entry ∈ more, entry.isInbound = false)
    (htrace : r'.trace = r.trace ++ more) (hconfig : r'.config = r.config) (hclosed : r'.readClosed = r.readClosed)
    (hpending : r'.pendingInboundBytes = r.pendingInboundBytes) : Reads config r' := by
  obtain ⟨hsent, hread, hconsumed, heof⟩ := silent_entries hmore
  constructor
  · exact hconfig.trans h.adopted
  · rw [htrace, sentBytes_append, readBytes_append, hsent, hread, List.append_nil, List.append_nil]
    exact h.flow
  · rw [htrace]
    exact h.ends.append fun entry hentry before => (silent_entry before (hmore entry hentry)).2.2.2.2
  · intro hmem
    rw [htrace] at hmem
    rcases List.mem_append.mp hmem with hold | hnew
    · exact hclosed.trans (h.ended hold)
    · exact absurd hnew heof
  · rw [htrace, sentBytes_append, consumedBytes_append, hsent, hconsumed, hpending, List.append_nil]
    exact h.account
  · rw [hpending]
    exact h.held

/-- No event on its way tells of data but the ones there were. -/
theorem Feeds.silent (h : Feeds r0 r) (hpending : r'.pendingInboundBytes = r.pendingInboundBytes)
    (houtbox : dataBytes r'.outbox = dataBytes r.outbox) (henabled : r'.readEnabled = true → r.readEnabled = true)
    (hclosed : r.closed = true → r'.closed = true) : Feeds r0 r' where
  moved := by rw [hpending, houtbox]; exact h.moved
  grows := by rw [hpending]; exact h.grows
  enabled := fun hon => h.enabled (henabled hon)
  closed := fun hc => hclosed (h.closed hc)
  idle := fun hidle => hpending.trans (h.idle hidle)

theorem closeReactorState_silent (r : Reactor) (error : Option String) :
    ∃ more, (∀ entry ∈ more, entry.isInbound = false) ∧ (r.closeReactorState error).trace = r.trace ++ more ∧
      dataBytes (r.closeReactorState error).outbox = dataBytes r.outbox := by
  unfold closeReactorState
  split
  · exact ⟨[], nofun, (List.append_nil _).symm, rfl⟩
  cases error with
  | none => exact ⟨[.sent .closed], List.forall_mem_singleton.mpr rfl, rfl, by simp [dataBytes]⟩
  | some message =>
    refine ⟨_, ?_, rfl, ?_⟩
    · intro entry hentry
      obtain ⟨event, hevent, rfl⟩ := List.mem_map.mp hentry
      rcases List.mem_append.mp hevent with hfailure | hlast
      · obtain ⟨w, -, rfl⟩ := List.mem_map.mp hfailure
        rfl
      · rw [List.mem_singleton.mp hlast]
        rfl
    · have hfailures : dataBytes (r.writes.map fun w => .writeError w.id message) = 0 := by
        induction r.writes with
        | nil => rfl
        | cons w writes ih => simpa [dataBytes] using ih
      simp only [dataBytes_append, hfailures, Nat.add_zero]
      rfl

/-- Both facts, as a drain or a flush that began in `r0` keeps them. -/
def Fed (config : Config) (r0 r : Reactor) : Prop := Reads config r ∧ Feeds r0 r

theorem fed_flushMoves (config : Config) (r0 : Reactor) : FlushMoves (Fed config r0) where
  mask _ h := ⟨{ h.1 with }, { h.2 with }⟩
  readError _ h := ⟨h.1.silent (List.forall_mem_singleton.mpr rfl) rfl rfl rfl rfl,
    h.2.silent rfl (by simp [sendEvent, dataBytes]) (fun h => h) fun h => h⟩
  writeError _ _ h := ⟨h.1.silent (List.forall_mem_singleton.mpr rfl) rfl rfl rfl rfl,
    h.2.silent rfl (by simp [sendEvent, dataBytes]) (fun h => h) fun h => h⟩
  close {r} error h := by
    obtain ⟨more, hmore, htrace, houtbox⟩ := closeReactorState_silent r error
    have hsame := closeReactorState_reading r error
    refine ⟨h.1.silent hmore htrace hsame.config hsame.readClosed hsame.pendingInboundBytes,
      h.2.silent hsame.pendingInboundBytes houtbox ?_ fun _ => closeReactorState_isClosed r error⟩
    exact fun hon => hsame.readEnabled ▸ hon
  queue _ h := ⟨{ h.1 with }, { h.2 with }⟩
  write _ _ h := ⟨h.1.silent (List.forall_mem_singleton.mpr rfl) rfl rfl rfl rfl, { h.2 with }⟩
  acknowledge _ h := ⟨h.1.silent (List.forall_mem_singleton.mpr rfl) rfl rfl rfl rfl,
    h.2.silent rfl (by simp [sendEvent, dataBytes]) (fun h => h) fun h => h⟩
  shut _ h := ⟨h.1.silent (List.forall_mem_singleton.mpr rfl) rfl rfl rfl rfl, { h.2 with }⟩

theorem Reads.room (h : Reads config r) (budget : Nat) (hcredit : r.HasRoom) :
    config.Holds (r.pendingInboundBytes + r.readLimit budget) := by
  rw [HasRoom, h.adopted] at hcredit
  unfold Config.Holds readLimit
  rw [h.adopted]
  split
  · exact Nat.add_lt_add_right hcredit _
  · omega

variable {eofOnAgain : Bool}

/-- A read that returned bytes, and the event that carries them. -/
theorem Reads.data (h : Reads config r) (hopen : r.readClosed = false) {budget : Nat} {bytes : Bytes}
    (hcredit : r.HasRoom) :
    Reads config ({ r.asked eofOnAgain budget (.data bytes) with
      pendingInboundBytes := r.pendingInboundBytes + (bytes.take (r.readLimit budget)).length }.sendEvent
        (.data (bytes.take (r.readLimit budget)))) := by
  have hnone : .sent .eof ∉ r.trace := by
    intro hmem
    rw [h.ended hmem] at hopen
    cases hopen
  constructor
  · exact h.adopted
  · show sentBytes (((r.trace ++ [_]) ++ [_]) ++ [_]) = readBytes (((r.trace ++ [_]) ++ [_]) ++ [_])
    simp only [sentBytes_append, readBytes_append, h.flow]
    simp [sentBytes, readBytes, ReadAnswer.cut]
  · refine always_concat.mpr ⟨?_, ?_⟩
    · exact always_concat.mpr ⟨always_concat.mpr ⟨h.ends, trivial⟩, trivial⟩
    · show _ ∉ (r.trace ++ [_]) ++ [_]
      simp [hnone]
  · intro hmem
    have hmem : .sent .eof ∈ ((r.trace ++ [_]) ++ [_]) ++ [_] := hmem
    simp [hnone] at hmem
  · show r.pendingInboundBytes + _ + consumedBytes (((r.trace ++ [_]) ++ [_]) ++ [_]) =
      (sentBytes (((r.trace ++ [_]) ++ [_]) ++ [_])).length
    simp only [sentBytes_append, consumedBytes_append, List.length_append, ← h.account]
    simp only [sentBytes, consumedBytes, List.flatMap_cons, List.flatMap_nil, List.append_nil, List.length_nil,
      List.map_cons, List.map_nil, List.sum_cons, List.sum_nil]
    omega
  · refine (h.room budget hcredit).mono ?_
    show r.pendingInboundBytes + (bytes.take (r.readLimit budget)).length ≤ _
    rw [List.length_take]
    omega

variable {answer : ReadAnswer}

theorem Reads.asked (h : Reads config r) (eofOnAgain : Bool) (budget : Nat)
    (hnone : readBytes [.got eofOnAgain (answer.cut (r.readLimit budget))] = []) :
    Reads config (r.asked eofOnAgain budget answer) where
  adopted := h.adopted
  flow := by
    show sentBytes ((r.trace ++ [_]) ++ [_]) = readBytes ((r.trace ++ [_]) ++ [_])
    simp only [sentBytes_append, readBytes_append, hnone, h.flow]
    simp [sentBytes, readBytes]
  ends := always_concat.mpr ⟨always_concat.mpr ⟨h.ends, trivial⟩, trivial⟩
  ended := by
    intro hmem
    have hmem : .sent .eof ∈ (r.trace ++ [_]) ++ [_] := hmem
    simp only [List.mem_append, List.mem_singleton, reduceCtorEq, or_false] at hmem
    exact h.ended hmem
  account := by
    show r.pendingInboundBytes + consumedBytes ((r.trace ++ [_]) ++ [_]) = (sentBytes ((r.trace ++ [_]) ++ [_])).length
    rw [sentBytes_append, sentBytes_append, consumedBytes_append, consumedBytes_append, List.length_append,
      List.length_append, ← h.account]
    rfl
  held := h.held

theorem answer_bytes_of_ends (h : answer.ends eofOnAgain = true) : readBytes [.got eofOnAgain answer] = [] := by
  cases answer with
  | data bytes =>
    rw [List.isEmpty_iff.mp h]
    rfl
  | _ => rfl

/-- The end is reported right after the read that met it. -/
theorem Reads.finish (h : Reads config r) (hopen : r.readClosed = false) {budget : Nat}
    (hends : (answer.cut (r.readLimit budget)).ends eofOnAgain = true) :
    Reads config ({ r.asked eofOnAgain budget answer with readClosed := true, readEnabled := false }.sendEvent
      .eof) := by
  have hasked := h.asked eofOnAgain budget (answer_bytes_of_ends hends)
  have hnone : .sent .eof ∉ (r.asked eofOnAgain budget answer).trace := by
    intro hmem
    have hclosed : r.readClosed = true := hasked.ended hmem
    rw [hopen] at hclosed
    cases hclosed
  constructor
  · exact h.adopted
  · show sentBytes ((r.asked eofOnAgain budget answer).trace ++ [_]) = readBytes (_ ++ [_])
    rw [sentBytes_append, readBytes_append, hasked.flow]
    rfl
  · exact always_concat.mpr ⟨hasked.ends, hnone, _, eofOnAgain, _, rfl, hends⟩
  · exact fun _ => rfl
  · show r.pendingInboundBytes + consumedBytes (_ ++ [_]) = (sentBytes (_ ++ [_])).length
    rw [sentBytes_append, consumedBytes_append, List.length_append, ← hasked.account]
    rfl
  · exact h.held

theorem fed_readRule (config : Config) (hon : r0.readEnabled = true) (hopen : r0.closed = false)
    (eofOnAgain updateOk : Bool) :
    ReadRule (fun _ => True) eofOnAgain updateOk (fun _ r => Fed config r0 r ∧ r.readClosed = false)
    (Fed config r0) where
  spent _ h := (fed_flushMoves config r0).updateReactorInterest updateOk h.1
  data {budget r bytes} _ hcredit _ h := by
    refine ⟨⟨h.1.1.data h.2 hcredit, ?_⟩, h.2⟩
    have hmoved := h.1.2.moved
    have hgrows := h.1.2.grows
    constructor
    · show r.pendingInboundBytes + (bytes.take (r.readLimit budget)).length + dataBytes r0.outbox =
        r0.pendingInboundBytes + dataBytes (r.outbox ++ [.data (bytes.take (r.readLimit budget))])
      rw [dataBytes_append]
      simp only [dataBytes, List.map_cons, List.map_nil, List.sum_cons, List.sum_nil] at hmoved ⊢
      omega
    · exact Nat.le_trans hgrows (Nat.le_add_right _ _)
    · exact fun _ => hon
    · exact fun hc => absurd (hopen.symm.trans hc) nofun
    · rintro (hc | hoff)
      · exact absurd (hopen.symm.trans hc) nofun
      · exact absurd (hoff.symm.trans hon) nofun
  interrupted _ _ h := ⟨⟨h.1.1.asked eofOnAgain _ rfl, h.1.2.silent rfl rfl (fun h => h) fun h => h⟩, h.2⟩
  ended {budget r answer} _ _ hends h := by
    have hend : Fed config r0 ({ r.asked eofOnAgain budget answer with
        readClosed := true, readEnabled := false }.sendEvent .eof) :=
      ⟨h.1.1.finish h.2 hends, h.1.2.silent rfl (by simp [sendEvent, asked, note, record, dataBytes]) nofun fun h => h⟩
    have k := (fed_flushMoves config r0).toMoves
    exact k.closeIfFullyDone (k.updateReactorInterest updateOk hend)
  again _ _ _ h := ⟨h.1.1.asked eofOnAgain _ rfl, h.1.2.silent rfl rfl (fun h => h) fun h => h⟩
  failed {budget r errno} message _ _ _ h := by
    have hasked : Fed config r0 (r.asked eofOnAgain budget (.failed errno)) :=
      ⟨h.1.1.asked eofOnAgain budget rfl, h.1.2.silent rfl rfl (fun h => h) fun h => h⟩
    have k := (fed_flushMoves config r0).toMoves
    exact k.close _ (k.readError message hasked)

theorem Reads.readReactorState (h : Reads config r) {answers : List ReadAnswer} {updateOk : Bool}
    (hrun : r.readReactorState answers eofOnAgain updateOk = some r') : Fed config r r' := by
  by_cases hread : r.readEnabled = true ∧ r.closed = false
  · apply (fed_readRule config hread.1 hread.2 eofOnAgain updateOk).readReactorState (fun _ _ => trivial) hrun
    · exact fun _ => ⟨h, .refl r⟩
    · exact fun _ hdone _ => ⟨⟨h, .refl r⟩, hdone⟩
  · -- a drain that may not read does nothing
    unfold Reactor.readReactorState at hrun
    rw [if_pos (by cases hon : r.readEnabled <;> cases hc : r.closed <;> simp_all)] at hrun
    cases hrun
    exact ⟨h, .refl r⟩

theorem Reads.flushReactorWrites (h : Reads config r) {answers : List WriteAnswer} {updateOk shutdownOk : Bool}
    (hrun : r.flushReactorWrites answers updateOk shutdownOk = some r') : Fed config r r' :=
  (fed_flushMoves config r).flushReactorWrites hrun ⟨h, .refl r⟩

theorem Reads.consume (h : Reads config r) {bytes : Nat} (hle : bytes ≤ r.pendingInboundBytes) :
    Reads config ({ r with pendingInboundBytes := r.pendingInboundBytes - bytes }.note (.consumed bytes)) where
  adopted := h.adopted
  flow := by
    show sentBytes (r.trace ++ [_]) = readBytes (r.trace ++ [_])
    rw [sentBytes_append, readBytes_append, h.flow]
    rfl
  ends := always_concat.mpr ⟨h.ends, trivial⟩
  ended := by
    intro hmem
    have hmem : .sent .eof ∈ r.trace ++ [_] := hmem
    simp only [List.mem_append, List.mem_singleton, reduceCtorEq, or_false] at hmem
    exact h.ended hmem
  account := by
    have haccount := h.account
    show r.pendingInboundBytes - bytes + consumedBytes (r.trace ++ [.consumed bytes]) =
      (sentBytes (r.trace ++ [_])).length
    rw [sentBytes_append, consumedBytes_append, List.length_append, ← haccount]
    simp only [consumedBytes, sentBytes, List.map_cons, List.map_nil, List.sum_cons, List.sum_nil, List.flatMap_cons,
      List.flatMap_nil, List.append_nil, List.length_nil]
    omega
  held := h.held.mono (Nat.sub_le _ _)

end Reading

end Reactor

end TailscaleDart.Fd
