import TailscaleDart.Data.History
import TailscaleDart.Fd.Interest
import TailscaleDart.Fd.Stream

/-!
# Fd.Outbound — what the shard does with the writes of one transport

The runs here are the shard's own: any commands, any reports of the poller, any answers of the kernel. A write is
remembered from the moment it joins the queue, and the history says what came of it: the descriptor takes the bytes of
the writes in the order they were queued, the acknowledgements follow that order, each after the last byte of its write,
and the write half is shut down after all of them (`Orderly`).
-/

namespace TailscaleDart.Fd

open TailscaleDart.Data (Always always_nil always_concat)

/-! ## What a history says about writing -/

/-- The writes that joined the queue, in order. -/
def queuedWrites (log : List Trace) : List (Nat × Bytes) :=
  log.filterMap fun
    | .queued id data => some (id, data)
    | _ => none

/-- The bytes the descriptor took. -/
def acceptedBytes (log : List Trace) : Bytes :=
  log.flatMap fun
    | .called (.write offered taken) => offered.take taken
    | _ => []

/-- The ids that were acknowledged. -/
def acknowledgedIds (log : List Trace) : List Nat :=
  log.filterMap fun
    | .sent (.writeOk id) => some id
    | _ => none

def bytesOf (writes : List (Nat × Bytes)) : Bytes := writes.flatMap Prod.snd

/-- An acknowledgement of the next write in order, all of whose bytes were taken. -/
def AcknowledgesNext (before : List Trace) (id : Nat) : Prop :=
  ∃ done data rest, queuedWrites before = done ++ (id, data) :: rest ∧ acknowledgedIds before = done.map Prod.fst ∧
    acceptedBytes before = bytesOf done ++ data

/-- The rule every entry of a history keeps, when `ids` are those of the half-closes asked for. -/
def Orderly (ids : List Nat) (before : List Trace) : Trace → Prop
  | .called (.write offered taken) => acceptedBytes before ++ offered.take taken <+: bytesOf (queuedWrites before)
  | .sent (.writeOk id) => AcknowledgesNext before id ∨ id ∈ ids ∧ ∃ earlier, before = earlier ++ [.shutWrite]
  | .shutWrite => .shutWrite ∉ before ∧ acceptedBytes before = bytesOf (queuedWrites before)
  | _ => True

section Histories

variable (a b : List Trace) {entry : Trace} {more : List Trace}

@[simp] theorem queuedWrites_append : queuedWrites (a ++ b) = queuedWrites a ++ queuedWrites b := List.filterMap_append

@[simp] theorem acceptedBytes_append : acceptedBytes (a ++ b) = acceptedBytes a ++ acceptedBytes b :=
  List.flatMap_append

@[simp] theorem acknowledgedIds_append : acknowledgedIds (a ++ b) = acknowledgedIds a ++ acknowledgedIds b :=
  List.filterMap_append

@[simp] theorem bytesOf_append (c d : List (Nat × Bytes)) : bytesOf (c ++ d) = bytesOf c ++ bytesOf d :=
  List.flatMap_append

theorem quiet_entry (ids : List Nat) (before : List Trace) (h : entry.isWriting = false) :
    queuedWrites [entry] = [] ∧ acceptedBytes [entry] = [] ∧ acknowledgedIds [entry] = [] ∧ entry ≠ .shutWrite ∧
      Orderly ids before entry := by
  cases entry with
  | called call =>
    cases call with
    | write offered taken => cases h
    | read limit => exact ⟨rfl, rfl, rfl, nofun, trivial⟩
  | sent event =>
    cases event with
    | writeOk id => cases h
    | _ => exact ⟨rfl, rfl, rfl, nofun, trivial⟩
  | queued id data => cases h
  | shutWrite => cases h
  | _ => exact ⟨rfl, rfl, rfl, nofun, trivial⟩

theorem quiet_entries (h : ∀ entry ∈ more, entry.isWriting = false) :
    queuedWrites more = [] ∧ acceptedBytes more = [] ∧ acknowledgedIds more = [] ∧ .shutWrite ∉ more := by
  induction more with
  | nil => exact ⟨rfl, rfl, rfl, nofun⟩
  | cons entry more ih =>
    obtain ⟨hqueued, haccepted, hacks, hshut⟩ := ih fun x hx => h x (.tail entry hx)
    obtain ⟨hqueued1, haccepted1, hacks1, hne, -⟩ := quiet_entry [] [] (h entry (.head _))
    rw [← List.singleton_append]
    refine ⟨?_, ?_, ?_, ?_⟩
    · rw [queuedWrites_append, hqueued1, hqueued, List.append_nil]
    · rw [acceptedBytes_append, haccepted1, haccepted, List.append_nil]
    · rw [acknowledgedIds_append, hacks1, hacks, List.append_nil]
    · simp [hshut, hne.symm]

theorem always_orderly_append {ids : List Nat} {log : List Trace} (h : Always (Orderly ids) log)
    (hmore : ∀ entry ∈ more, entry.isWriting = false) : Always (Orderly ids) (log ++ more) :=
  h.append fun entry hentry before => (quiet_entry ids before (hmore entry hentry)).2.2.2.2

theorem Orderly.mono {ids ids' : List Nat} (hids : ids ⊆ ids') {before : List Trace} (h : Orderly ids before entry) :
    Orderly ids' before entry := by
  cases entry with
  | sent event =>
    cases event with
    | writeOk id =>
      rcases h with hnext | ⟨hmem, hshut⟩
      · exact .inl hnext
      · exact .inr ⟨hids hmem, hshut⟩
    | _ => trivial
  | called call =>
    cases call with
    | write offered taken => exact h
    | read limit => trivial
  | shutWrite => exact h
  | _ => trivial

theorem accepted_throughout {ids : List Nat} {log : List Trace} (h : Always (Orderly ids) log) {before : List Trace}
    (hbefore : before <+: log) : acceptedBytes before <+: bytesOf (queuedWrites before) := by
  apply h.throughout (Q := fun before => acceptedBytes before <+: bytesOf (queuedWrites before)) List.prefix_rfl _
    hbefore
  intro before entry hentry hsofar
  rw [acceptedBytes_append, queuedWrites_append, bytesOf_append]
  -- only a call that writes can move the bytes taken, and the rule speaks of it
  have hnone : acceptedBytes [entry] = [] →
      acceptedBytes before ++ acceptedBytes [entry] <+: bytesOf (queuedWrites before) ++ bytesOf
      (queuedWrites [entry]) := by
    intro hempty
    rw [hempty, List.append_nil]
    exact hsofar.trans (List.prefix_append _ _)
  cases entry with
  | called call =>
    cases call with
    | write offered taken =>
      have htook : acceptedBytes [.called (.write offered taken)] = offered.take taken := List.append_nil _
      rw [htook]
      exact List.IsPrefix.trans hentry (List.prefix_append _ _)
    | read limit => exact hnone rfl
  | _ => exact hnone rfl

end Histories

/-! ## The queue against the history -/

/-- The part of the head of the queue that was taken. -/
def headDone : List ReactorWrite → Bytes
  | [] => []
  | w :: _ => w.data.take w.offset

namespace Reactor

/-- The writes `done` have left the queue, acknowledged; the descriptor took their bytes and the beginning of the
head. -/
structure Poured (ids : List Nat) (done : List (Nat × Bytes)) (r : Reactor) : Prop where
  orderly : Always (Orderly ids) r.trace
  queued : queuedWrites r.trace = done ++ r.writes.map fun w => (w.id, w.data)
  accepted : acceptedBytes r.trace = bytesOf done ++ headDone r.writes
  acked : acknowledgedIds r.trace = done.map Prod.fst
  unshut : .shutWrite ∉ r.trace
  within : ∀ w ∈ r.writes, w.offset ≤ w.data.length
  fresh : ∀ w ∈ r.writes.tail, w.offset = 0

/-- What is left to say at any time: `ids` are those of the half-closes asked for. -/
structure Written (ids : List Nat) (r : Reactor) : Prop where
  orderly : Always (Orderly ids) r.trace
  acked : ∃ done last, done <+: queuedWrites r.trace ∧ acknowledgedIds r.trace = done.map Prod.fst ++ last ∧
    (last = [] ∨ ∃ id ∈ ids, last = [id])
  pouring : r.closed = false → r.writeClosed = false → ∃ done, Poured ids done r
  asked : ∀ id, r.shutdownWriteId = some id → id ∈ ids

section Moving

variable {done : List (Nat × Bytes)} {ids : List Nat} {r r' : Reactor} {more : List Trace}

theorem Poured.accepted_le (h : Poured ids done r) : acceptedBytes r.trace <+: bytesOf (queuedWrites r.trace) := by
  rw [h.accepted, h.queued, bytesOf_append]
  apply (List.prefix_append_right_inj _).mpr
  cases r.writes with
  | nil => exact List.nil_prefix
  | cons w rest => exact (List.take_prefix _ _).trans (List.prefix_append _ _)

theorem Poured.quiet (h : Poured ids done r) (hmore : ∀ entry ∈ more, entry.isWriting = false)
    (htrace : r'.trace = r.trace ++ more) (hwrites : r'.writes = r.writes) : Poured ids done r' := by
  obtain ⟨hqueued, haccepted, hacks, hshut⟩ := quiet_entries hmore
  constructor
  · rw [htrace]
    exact always_orderly_append h.orderly hmore
  · rw [htrace, queuedWrites_append, hqueued, List.append_nil, hwrites, h.queued]
  · rw [htrace, acceptedBytes_append, haccepted, List.append_nil, hwrites, h.accepted]
  · rw [htrace, acknowledgedIds_append, hacks, List.append_nil, h.acked]
  · rw [htrace, List.mem_append, not_or]
    exact ⟨h.unshut, hshut⟩
  · rw [hwrites]
    exact h.within
  · rw [hwrites]
    exact h.fresh

theorem Written.quiet (h : Written ids r) (hmore : ∀ entry ∈ more, entry.isWriting = false)
    (htrace : r'.trace = r.trace ++ more) (hwrites : r'.closed = false → r'.writes = r.writes)
    (hclosed : r'.closed = false → r.closed = false) (hunshut : r'.writeClosed = r.writeClosed)
    (hasked : r'.shutdownWriteId = r.shutdownWriteId) : Written ids r' := by
  obtain ⟨hqueued, -, hacks, -⟩ := quiet_entries hmore
  constructor
  · rw [htrace]
    exact always_orderly_append h.orderly hmore
  · rw [htrace, queuedWrites_append, hqueued, acknowledgedIds_append, hacks, List.append_nil, List.append_nil]
    exact h.acked
  · intro hopen hshut
    obtain ⟨done, hpoured⟩ := h.pouring (hclosed hopen) (hunshut ▸ hshut)
    exact ⟨done, hpoured.quiet hmore htrace (hwrites hopen)⟩
  · rw [hasked]
    exact h.asked

theorem Written.same (h : Written ids r) (htrace : r'.trace = r.trace) (hwrites : r'.writes = r.writes)
    (hclosed : r'.closed = r.closed) (hunshut : r'.writeClosed = r.writeClosed)
    (hasked : r'.shutdownWriteId = r.shutdownWriteId) : Written ids r' :=
  h.quiet (List.forall_mem_nil _) (htrace.trans (List.append_nil _).symm) (fun _ => hwrites)
    (fun hopen => hclosed ▸ hopen) hunshut hasked

theorem closeReactorState_quiet (r : Reactor) (error : Option String) :
    ∃ more, (∀ entry ∈ more, entry.isWriting = false) ∧ (r.closeReactorState error).trace = r.trace ++ more := by
  unfold closeReactorState
  split
  · exact ⟨[], nofun, (List.append_nil _).symm⟩
  · refine ⟨_, ?_, rfl⟩
    intro entry hentry
    obtain ⟨event, hevent, rfl⟩ := List.mem_map.mp hentry
    rcases List.mem_append.mp hevent with hfailure | hlast
    · cases error with
      | none => exact absurd hfailure List.not_mem_nil
      | some message =>
        obtain ⟨w, -, rfl⟩ := List.mem_map.mp hfailure
        rfl
    · rw [List.mem_singleton.mp hlast]
      rfl

theorem closeReactorState_shutdownWriteId (r : Reactor) (error : Option String) :
    (r.closeReactorState error).shutdownWriteId = r.shutdownWriteId := by
  unfold closeReactorState
  split <;> rfl

theorem written_readMoves (ids : List Nat) : ReadMoves (Written ids) where
  mask _ h := h.same rfl rfl rfl rfl rfl
  note hquiet h := h.quiet (List.forall_mem_singleton.mpr hquiet) rfl (fun _ => rfl) (fun hopen => hopen) rfl rfl
  notice {_ e} hne h := by
    refine h.quiet (List.forall_mem_singleton.mpr ?_) rfl (fun _ => rfl) (fun hopen => hopen) rfl rfl
    cases e with
    | writeOk id => exact absurd rfl (hne id)
    | _ => rfl
  close {r} error h := by
    obtain ⟨more, hmore, htrace⟩ := closeReactorState_quiet r error
    have hclosed := closeReactorState_isClosed r error
    refine h.quiet hmore htrace ?_ ?_ (closeReactorState_writeClosed r error)
      (closeReactorState_shutdownWriteId r error)
    · exact fun hopen => absurd (hopen.symm.trans hclosed) Bool.false_ne_true
    · exact fun hopen => absurd (hopen.symm.trans hclosed) Bool.false_ne_true
  reading _ _ _ h := h.same rfl rfl rfl rfl rfl
  read _ h := h.quiet (List.forall_mem_singleton.mpr rfl) rfl (fun _ => rfl) (fun hopen => hopen) rfl rfl

end Moving

/-! ## A flush -/

/-- The state a flush works in. -/
structure Pouring (ids : List Nat) (r : Reactor) : Prop where
  opened : r.closed = false
  unshut : r.writeClosed = false
  asked : ∀ id, r.shutdownWriteId = some id → id ∈ ids
  queue : ∃ done, Poured ids done r

section Flushing

variable {done : List (Nat × Bytes)} {ids : List Nat} {r : Reactor} {w : ReactorWrite} {rest : List ReactorWrite}
  {budget : Nat}

theorem Pouring.written (h : Pouring ids r) : Written ids r where
  orderly := by
    obtain ⟨done, hpoured⟩ := h.queue
    exact hpoured.orderly
  acked := by
    obtain ⟨done, hpoured⟩ := h.queue
    refine ⟨done, [], ?_, ?_, .inl rfl⟩
    · rw [hpoured.queued]
      exact List.prefix_append _ _
    · rw [hpoured.acked, List.append_nil]
  pouring _ _ := h.queue
  asked := h.asked

theorem Poured.none (h : Poured ids done r) (buffer : Bytes) : Poured ids done (r.record (.write buffer 0)) where
  orderly := by
    refine always_concat.mpr ⟨h.orderly, ?_⟩
    show acceptedBytes r.trace ++ buffer.take 0 <+: _
    rw [List.take_zero, List.append_nil]
    exact h.accepted_le
  queued := by
    show queuedWrites (r.trace ++ [_]) = _
    rw [queuedWrites_append, h.queued]
    exact List.append_nil _
  accepted := by
    show acceptedBytes (r.trace ++ [_]) = _
    rw [acceptedBytes_append, h.accepted]
    exact List.append_nil _
  acked := by
    show acknowledgedIds (r.trace ++ [_]) = _
    rw [acknowledgedIds_append, h.acked]
    exact List.append_nil _
  unshut := by
    show _ ∉ r.trace ++ [_]
    simp [h.unshut]
  within := h.within
  fresh := h.fresh

theorem Pouring.none (h : Pouring ids r) (buffer : Bytes) : Pouring ids (r.record (.write buffer 0)) := by
  obtain ⟨done, hpoured⟩ := h.queue
  exact ⟨h.opened, h.unshut, h.asked, done, hpoured.none buffer⟩

theorem advance_frame (r : Reactor) (w : ReactorWrite) (rest : List ReactorWrite) (count : Nat) :
    (r.advance w rest count).closed = r.closed ∧ (r.advance w rest count).writeClosed = r.writeClosed ∧
      (r.advance w rest count).shutdownWriteId = r.shutdownWriteId := by
  unfold advance
  split <;> exact ⟨rfl, rfl, rfl⟩

theorem Poured.headDone_rest (h : Poured ids done r) (hwrites : r.writes = w :: rest) : headDone rest = [] := by
  cases hrest : rest with
  | nil => rfl
  | cons v rest' =>
    have hfresh : v.offset = 0 := h.fresh v (by simp [hwrites, hrest])
    rw [headDone, hfresh, List.take_zero]

/-- A call that took `count` bytes of the head. -/
theorem Poured.some (h : Poured ids done r) (hwrites : r.writes = w :: rest) {count : Nat}
    (hcount : count ≤ (offered w budget).length) (hfits : w.offset + count ≤ w.data.length) :
    ∃ done', Poured ids done' ((r.record (.write (offered w budget) count)).advance w rest count) := by
  have htook : acceptedBytes (r.trace ++ [.called (.write (offered w budget) count)]) =
      bytesOf done ++ w.data.take (w.offset + count) := by
    rw [acceptedBytes_append, h.accepted, hwrites, headDone, List.take_add, ← take_offered hcount]
    simp [acceptedBytes]
  have hqueued : queuedWrites (r.trace ++ [.called (.write (offered w budget) count)]) =
      done ++ (w.id, w.data) :: rest.map fun v => (v.id, v.data) := by
    rw [queuedWrites_append, h.queued, hwrites]
    simp [queuedWrites]
  have hacked : acknowledgedIds (r.trace ++ [.called (.write (offered w budget) count)]) = done.map Prod.fst := by
    rw [acknowledgedIds_append, h.acked]
    exact List.append_nil _
  have hunshut : .shutWrite ∉ r.trace ++ [.called (.write (offered w budget) count)] := by simp [h.unshut]
  have horderly : Always (Orderly ids) (r.trace ++ [.called (.write (offered w budget) count)]) := by
    refine always_concat.mpr ⟨h.orderly, ?_⟩
    show acceptedBytes r.trace ++ (offered w budget).take count <+: bytesOf (queuedWrites r.trace)
    have htook' : acceptedBytes r.trace ++ (offered w budget).take count =
        bytesOf done ++ w.data.take (w.offset + count) := by
      rw [← htook, acceptedBytes_append]
      simp [acceptedBytes]
    rw [htook', h.queued, hwrites, bytesOf_append]
    apply (List.prefix_append_right_inj _).mpr
    exact (List.take_prefix _ _).trans (List.prefix_append _ _)
  have hrest : ∀ v ∈ rest, v.offset = 0 := fun v hv => h.fresh v (by rw [hwrites]; exact hv)
  unfold advance
  split
  · next hdone =>
    -- the head is finished: it joins the writes that are done, and is acknowledged
    rw [hdone, List.take_length] at htook
    refine ⟨done ++ [(w.id, w.data)], ?_⟩
    constructor
    · refine always_concat.mpr ⟨horderly, .inl ⟨done, w.data, _, hqueued, hacked, htook⟩⟩
    · show queuedWrites ((r.trace ++ [_]) ++ [_]) = _
      rw [queuedWrites_append, hqueued]
      simp [queuedWrites, sendEvent]
    · show acceptedBytes ((r.trace ++ [_]) ++ [_]) = bytesOf (done ++ [(w.id, w.data)]) ++ headDone rest
      rw [acceptedBytes_append, htook, h.headDone_rest hwrites, bytesOf_append]
      simp [acceptedBytes, bytesOf]
    · show acknowledgedIds ((r.trace ++ [_]) ++ [_]) = _
      rw [acknowledgedIds_append, hacked]
      simp [acknowledgedIds]
    · show _ ∉ (r.trace ++ [_]) ++ [_]
      simp [h.unshut]
    · exact fun v hv => h.within v (hwrites ▸ List.mem_cons_of_mem w hv)
    · exact fun v hv => hrest v (List.mem_of_mem_tail hv)
  · refine ⟨done, horderly, hqueued, htook, hacked, hunshut, ?_, hrest⟩
    intro v hv
    rcases List.mem_cons.mp hv with rfl | hold
    · exact hfits
    · exact h.within v (hwrites ▸ List.mem_cons_of_mem w hold)

theorem Pouring.shut (h : Pouring ids r) (hempty : r.writes = []) :
    Written ids ({ r with writeClosed := true }.note .shutWrite) := by
  obtain ⟨done, hpoured⟩ := h.queue
  have hall : queuedWrites r.trace = done := by rw [hpoured.queued, hempty]; exact List.append_nil _
  constructor
  · refine always_concat.mpr ⟨hpoured.orderly, hpoured.unshut, ?_⟩
    rw [hpoured.accepted, hall, hempty]
    exact List.append_nil _
  · refine ⟨done, [], ?_, ?_, .inl rfl⟩
    · show done <+: queuedWrites (r.trace ++ [_])
      rw [queuedWrites_append, hall]
      exact List.prefix_append _ _
    · show acknowledgedIds (r.trace ++ [_]) = _
      rw [acknowledgedIds_append, hpoured.acked]
      rfl
  · intro _ hshut
    cases hshut
  · exact h.asked

theorem Pouring.shut_acknowledged (h : Pouring ids r) (hempty : r.writes = []) {id : Nat}
    (hid : r.shutdownWriteId = Option.some id) :
    Written ids (({ r with writeClosed := true }.note .shutWrite).sendEvent (.writeOk id)) := by
  have hshut := h.shut hempty
  obtain ⟨done, hpoured⟩ := h.queue
  constructor
  · exact always_concat.mpr ⟨hshut.orderly, .inr ⟨h.asked id hid, _, rfl⟩⟩
  · refine ⟨done, [id], ?_, ?_, .inr ⟨id, h.asked id hid, rfl⟩⟩
    · show done <+: queuedWrites ((r.trace ++ [_]) ++ [_])
      rw [queuedWrites_append, queuedWrites_append, hpoured.queued, List.append_assoc, List.append_assoc]
      exact List.prefix_append _ _
    · show acknowledgedIds ((r.trace ++ [_]) ++ [_]) = _
      rw [acknowledgedIds_append, acknowledgedIds_append, hpoured.acked]
      simp [acknowledgedIds]
  · intro _ hunshut
    cases hunshut
  · exact h.asked

theorem Pouring.finishFlush (h : Pouring ids r) (updateOk shutdownOk : Bool) :
    Written ids (r.finishFlush updateOk shutdownOk) := by
  have k := (written_readMoves ids).moves
  unfold Reactor.finishFlush
  split
  · next hwaiting =>
    simp only [Bool.and_eq_true, List.isEmpty_iff] at hwaiting
    split
    · apply k.closeIfFullyDone
      split
      · exact h.shut hwaiting.1.1
      · next id hid => exact h.shut_acknowledged hwaiting.1.1 hid
    · apply k.close
      split
      · exact k.readError _ h.written
      · exact k.writeError _ _ h.written
  · exact k.updateReactorInterest updateOk h.written

theorem Pouring.rule (ids : List Nat) (updateOk shutdownOk : Bool) :
    FlushRule (fun _ => True) updateOk shutdownOk (fun _ => Pouring ids) (Written ids) where
  finish _ h := h.finishFlush updateOk shutdownOk
  accepted {budget r w rest n} hwrites _ _ _ h := by
    obtain ⟨done, hpoured⟩ := h.queue
    have hcount : taken n (offered w budget) ≤ (offered w budget).length := Nat.min_le_right _ _
    have hlength : (offered w budget).length ≤ w.data.length - w.offset := by
      simp only [offered, List.length_take, List.length_drop]
      omega
    have hwithin := hpoured.within w (hwrites ▸ List.mem_cons_self)
    have hnext := hpoured.some hwrites hcount (by omega)
    obtain ⟨hclosed, hshut, hid⟩ := advance_frame
      (r.record (.write (offered w budget) (taken n (offered w budget)))) w rest (taken n (offered w budget))
    exact ⟨hclosed.trans h.opened, hshut.trans h.unshut, fun id hsome => h.asked id (hid.symm.trans hsome), hnext⟩
  interrupted _ _ h := h.none _
  again _ _ h := (written_readMoves ids).moves.updateReactorInterest updateOk (h.none _).written
  failed message _ _ _ _ _ _ h := (written_readMoves ids).moves.failWrite _ message (h.none _).written

theorem Written.flushReactorWrites (h : Written ids r) {answers : List WriteAnswer} {updateOk shutdownOk : Bool}
    {r' : Reactor} (hrun : r.flushReactorWrites answers updateOk shutdownOk = Option.some r') : Written ids r' := by
  apply (Pouring.rule ids updateOk shutdownOk).flushReactorWrites (fun _ _ => trivial) hrun (fun _ => h)
  exact fun hopen hunshut => ⟨hopen, hunshut, h.asked, h.pouring hopen hunshut⟩

end Flushing

/-! ## Commands -/

section Commands

variable {ids : List Nat} {r r' : Reactor}

theorem Poured.mono {ids' : List Nat} {done : List (Nat × Bytes)} (h : Poured ids done r) (hids : ids ⊆ ids') :
    Poured ids' done r :=
  { h with orderly := h.orderly.mono fun _ _ hentry => hentry.mono hids }

theorem Written.mono {ids' : List Nat} (h : Written ids r) (hids : ids ⊆ ids') : Written ids' r where
  orderly := h.orderly.mono fun _ _ hentry => hentry.mono hids
  acked := by
    obtain ⟨done, last, hdone, hacks, hlast⟩ := h.acked
    refine ⟨done, last, hdone, hacks, hlast.imp_right ?_⟩
    rintro ⟨id, hid, rfl⟩
    exact ⟨id, hids hid, rfl⟩
  pouring hopen hunshut := by
    obtain ⟨done, hpoured⟩ := h.pouring hopen hunshut
    exact ⟨done, hpoured.mono hids⟩
  asked id hid := hids (h.asked id hid)

theorem Written.queue (h : Written ids r) (id : Nat) (data : Bytes) : Written ids { r with
      writes := r.writes ++ [{ id := id, data := data }], trace := r.trace ++ [.queued id data] } where
  orderly := always_concat.mpr ⟨h.orderly, trivial⟩
  acked := by
    obtain ⟨done, last, hdone, hacks, hlast⟩ := h.acked
    refine ⟨done, last, ?_, ?_, hlast⟩
    · rw [queuedWrites_append]
      exact hdone.trans (List.prefix_append _ _)
    · rw [acknowledgedIds_append, hacks]
      exact List.append_nil _
  pouring hopen hunshut := by
    obtain ⟨done, hpoured⟩ := h.pouring hopen hunshut
    refine ⟨done, always_concat.mpr ⟨hpoured.orderly, trivial⟩, ?_, ?_, ?_, ?_, ?_, ?_⟩
    · rw [queuedWrites_append, hpoured.queued, List.map_append, List.append_assoc]
      rfl
    · rw [acceptedBytes_append, hpoured.accepted]
      cases r.writes with
      | nil | cons w rest => simp [acceptedBytes, headDone]
    · rw [acknowledgedIds_append, hpoured.acked]
      exact List.append_nil _
    · simp [hpoured.unshut]
    · intro w hw
      rcases List.mem_append.mp hw with hold | hnew
      · exact hpoured.within w hold
      · rw [List.mem_singleton.mp hnew]
        exact Nat.zero_le _
    · intro w hw
      cases hwrites : r.writes with
      | nil => simp [hwrites] at hw
      | cons v rest =>
        rw [hwrites, List.cons_append, List.tail_cons] at hw
        rcases List.mem_append.mp hw with hold | hnew
        · exact hpoured.fresh w (by rw [hwrites]; exact hold)
        · rw [List.mem_singleton.mp hnew]
  asked := h.asked

end Commands

end Reactor

/-- The writes among the commands. -/
def commandWrites (commands : List Command) : List (Nat × Bytes) :=
  commands.filterMap fun
    | .write id data => some (id, data)
    | _ => none

/-- The ids of the half-closes among the commands. -/
def shutdownIds (commands : List Command) : List Nat :=
  commands.filterMap fun
    | .shutdownWrite id => some id
    | _ => none

/-- The ids that an acknowledgement can carry: those of the writes and the half-closes. -/
def commandIds (commands : List Command) : List Nat :=
  commands.filterMap fun
    | .write id _ | .shutdownWrite id => some id
    | _ => none

@[simp] theorem commandWrites_append (a b : List Command) :
    commandWrites (a ++ b) = commandWrites a ++ commandWrites b :=
  List.filterMap_append

@[simp] theorem shutdownIds_append (a b : List Command) : shutdownIds (a ++ b) = shutdownIds a ++ shutdownIds b :=
  List.filterMap_append

theorem count_commandIds (commands : List Command) (id : Nat) : (commandIds commands).count id =
      ((commandWrites commands).map Prod.fst).count id + (shutdownIds commands).count id := by
  induction commands with
  | nil => rfl
  | cons command commands ih =>
    cases command with
    | write i data =>
      simp only [commandIds, commandWrites, shutdownIds, List.filterMap_cons, List.map_cons, List.count_cons] at ih ⊢
      omega
    | shutdownWrite i =>
      simp only [commandIds, commandWrites, shutdownIds, List.filterMap_cons, List.count_cons] at ih ⊢
      omega
    | _ => exact ih

namespace Reactor

/-- The shard has taken the commands `commands` for a transport, and what the poller reported. -/
inductive Driven (config : Config) : List Command → Reactor → Prop where
  | registered : Driven config [] { config := config }
  | command {commands r r'} (command : Command) (answers : List WriteAnswer) (updateOk shutdownOk : Bool)
      (h : Driven config commands r) (hrun : r.process command answers updateOk shutdownOk = some r') :
      Driven config (commands ++ [command]) r'
  | event {commands r r'} (event : ReactorEvents) (e : DispatchEnv) (h : Driven config commands r)
      (hrun : r.dispatch event e = some r') : Driven config commands r'
  -- the shard ends: its poller failed, or it closes what it still has
  | stop {commands r} (error : Option String) (h : Driven config commands r) :
      Driven config commands (r.closeReactorState error)

section Runs

variable {config : Config} {commands : List Command} {r r' : Reactor}

theorem Written.process {ids : List Nat} (h : Written ids r) {command : Command} {answers : List WriteAnswer}
    {updateOk shutdownOk : Bool} (hrun : r.process command answers updateOk shutdownOk = some r') :
    Written (ids ++ shutdownIds [command]) r' := by
  have hother : ∀ hwrite hshutdown, Written ids r' := fun hwrite hshutdown =>
    (written_readMoves ids).process hwrite hshutdown hrun h
  cases command with
  | write id data =>
    unfold Reactor.process at hrun
    rw [shutdownIds, List.filterMap_cons_none rfl, List.filterMap_nil, List.append_nil]
    split at hrun
    · cases hrun
      exact h
    · exact (h.queue id data).flushReactorWrites hrun
  | shutdownWrite id =>
    have hmore := h.mono (List.subset_append_left ids (shutdownIds [.shutdownWrite id]))
    unfold Reactor.process at hrun
    split at hrun
    · cases hrun
      exact hmore
    · apply Written.flushReactorWrites _ hrun
      refine ⟨hmore.orderly, hmore.acked, ?_, ?_⟩
      · intro hopen hunshut
        obtain ⟨done, hpoured⟩ := hmore.pouring hopen hunshut
        exact ⟨done, hpoured.quiet (List.forall_mem_nil _) (List.append_nil _).symm rfl⟩
      · rintro _ ⟨⟩
        exact List.mem_append_right _ (List.mem_singleton_self id)
  | _ => exact (hother nofun nofun).mono (List.subset_append_left _ _)

theorem Driven.written (h : Driven config commands r) : Written (shutdownIds commands) r := by
  induction h with
  | registered =>
    refine ⟨always_nil, ⟨[], [], List.nil_prefix, rfl, .inl rfl⟩, fun _ _ => ⟨[], ?_⟩, nofun⟩
    exact ⟨always_nil, rfl, rfl, rfl, List.not_mem_nil, nofun, nofun⟩
  | command command answers updateOk shutdownOk _ hrun ih =>
    rw [shutdownIds_append]
    exact ih.process hrun
  | event event e _ hrun ih =>
    exact dispatch_keeps (written_readMoves _).readReactorState (fun hrun h => h.flushReactorWrites hrun) hrun ih
  | stop error _ ih => exact (written_readMoves _).close error ih

theorem queued_readMoves (base : List (Nat × Bytes)) : ReadMoves fun r => queuedWrites r.trace = base where
  mask _ h := h
  note {r entry} hquiet h := by
    show queuedWrites (r.trace ++ [entry]) = base
    rw [queuedWrites_append, (quiet_entry [] [] hquiet).1, List.append_nil]
    exact h
  notice {r e} _ h := by
    show queuedWrites (r.trace ++ [.sent e]) = base
    rw [queuedWrites_append]
    exact (List.append_nil _).trans h
  close {r} error h := by
    obtain ⟨more, hmore, htrace⟩ := closeReactorState_quiet r error
    rw [htrace, queuedWrites_append, (quiet_entries hmore).1, List.append_nil]
    exact h
  reading _ _ _ h := h
  read {r} budget h := by
    show queuedWrites (r.trace ++ [_]) = base
    rw [queuedWrites_append]
    exact (List.append_nil _).trans h

theorem queued_flushMoves (base : List (Nat × Bytes)) : FlushMoves fun r => queuedWrites r.trace = base where
  toMoves := (queued_readMoves base).moves
  queue _ h := h
  write {r} offered taken h := by
    show queuedWrites (r.trace ++ [_]) = base
    rw [queuedWrites_append]
    exact (List.append_nil _).trans h
  acknowledge {r} id h := by
    show queuedWrites (r.trace ++ [_]) = base
    rw [queuedWrites_append]
    exact (List.append_nil _).trans h
  shut {r} _ h := by
    show queuedWrites (r.trace ++ [_]) = base
    rw [queuedWrites_append]
    exact (List.append_nil _).trans h

theorem process_closed (h : r.closed = true) {command : Command} {answers : List WriteAnswer}
    {updateOk shutdownOk : Bool} (hrun : r.process command answers updateOk shutdownOk = some r') : r' = r := by
  unfold Reactor.process at hrun
  rw [if_pos h] at hrun
  cases hrun
  rfl

theorem dispatch_closed (h : r.closed = true) {event : ReactorEvents} {e : DispatchEnv}
    (hrun : r.dispatch event e = some r') : r' = r := by
  unfold dispatch dispatchRead at hrun
  rw [if_pos h, Option.bind_some, dispatchWrite, if_pos h, Option.bind_some, dispatchHangUp, if_pos h] at hrun
  cases hrun
  rfl

/-- An open transport has queued every write it was sent; a closed one has stopped. -/
theorem Driven.queued (h : Driven config commands r) : queuedWrites r.trace <+: commandWrites commands ∧
      (r.closed = false → queuedWrites r.trace = commandWrites commands) := by
  induction h with
  | registered => exact ⟨List.prefix_rfl, fun _ => rfl⟩
  | command command answers updateOk shutdownOk _ hrun ih =>
    rename_i commands r r' _
    cases hclosed : r.closed with
    | true =>
      rw [process_closed hclosed hrun, commandWrites_append]
      refine ⟨ih.1.trans (List.prefix_append _ _), fun hopen => ?_⟩
      rw [hclosed] at hopen
      cases hopen
    | false =>
      have hqueued : queuedWrites r'.trace = commandWrites (commands ++ [command]) := by
        rw [commandWrites_append, ← ih.2 hclosed]
        have hother : ∀ hwrite hshutdown, queuedWrites r'.trace = queuedWrites r.trace := fun hwrite hshutdown =>
          (queued_readMoves (queuedWrites r.trace)).process hwrite hshutdown hrun rfl
        cases command with
        | write id data =>
          unfold Reactor.process at hrun
          rw [hclosed, if_neg Bool.false_ne_true] at hrun
          exact (queued_flushMoves _).flushReactorWrites hrun (queuedWrites_append _ _)
        | shutdownWrite id =>
          unfold Reactor.process at hrun
          rw [hclosed, if_neg Bool.false_ne_true] at hrun
          exact (queued_flushMoves _).flushReactorWrites hrun (List.append_nil _).symm
        | _ => exact (hother nofun nofun).trans (List.append_nil _).symm
      exact ⟨hqueued ▸ List.prefix_rfl, fun _ => hqueued⟩
  | event event e _ hrun ih =>
    rename_i commands r r' _
    have hqueued : queuedWrites r'.trace = queuedWrites r.trace :=
      dispatch_keeps (queued_readMoves _).readReactorState (queued_flushMoves _).flushReactorWrites hrun rfl
    rw [hqueued]
    refine ⟨ih.1, fun hopen => ih.2 ?_⟩
    by_contra hclosed
    rw [dispatch_closed (by simpa using hclosed) hrun] at hopen
    exact hclosed hopen
  | stop error _ ih =>
    rw [(queued_readMoves _).close error rfl]
    exact ⟨ih.1, fun hopen => absurd (hopen.symm.trans (closeReactorState_isClosed _ _)) Bool.false_ne_true⟩

theorem Driven.acknowledged_count (h : Driven config commands r) (id : Nat) :
    (acknowledgedIds r.trace).count id ≤ (commandIds commands).count id := by
  obtain ⟨done, last, hdone, hacks, hlast⟩ := h.written.acked
  rw [hacks, List.count_append, count_commandIds]
  apply Nat.add_le_add
  · exact ((hdone.trans h.queued.1).sublist.map Prod.fst).count_le id
  · rcases hlast with rfl | ⟨i, hi, rfl⟩
    · exact Nat.zero_le _
    · exact (List.singleton_sublist.mpr hi).count_le id

/-- What a run of the reactor says of its writes: they join the queue in the order of the commands; at every moment the
descriptor has taken a first part of their bytes; an acknowledgement is for the next write that is wholly taken, or for
a half-close just made; no id is acknowledged more often than it was sent; and the half-close comes after all the
bytes. -/
theorem Driven.writes_in_order (h : Driven config commands r) :
    queuedWrites r.trace <+: commandWrites commands ∧
      (∀ before, before <+: r.trace → acceptedBytes before <+: bytesOf (queuedWrites before)) ∧
      (∀ before id after, r.trace = before ++ .sent (.writeOk id) :: after →
        AcknowledgesNext before id ∨ id ∈ shutdownIds commands ∧ ∃ earlier, before = earlier ++ [.shutWrite]) ∧
      (∀ id, (acknowledgedIds r.trace).count id ≤ (commandIds commands).count id) ∧
      ∀ before after, r.trace = before ++ .shutWrite :: after →
        acceptedBytes before = bytesOf (queuedWrites before) := by
  have horderly := h.written.orderly
  refine ⟨h.queued.1, ?_, ?_, h.acknowledged_count, ?_⟩
  · intro before hbefore
    exact accepted_throughout horderly hbefore
  · intro before id after heq
    exact horderly before _ after heq
  · intro before after heq
    exact (horderly before _ after heq).2

/-- Two writes and a half-close. The first write is cut after two bytes and would block, the rest goes with the next
report: the history has the bytes, both acknowledgements and the half-close, in that order. -/
theorem Driven.writes_in_order_partial :
    ∃ r, Driven {} [.write 0 [1, 2, 3], .write 1 [4], .shutdownWrite 2] r ∧
      acceptedBytes r.trace = [1, 2, 3, 4] ∧ acknowledgedIds r.trace = [0, 1, 2] ∧
      ∀ before after, r.trace = before ++ .shutWrite :: after →
        acceptedBytes before = bytesOf (queuedWrites before) := by
  have hrun : ∃ r, Driven {} [.write 0 [1, 2, 3], .write 1 [4], .shutdownWrite 2] r ∧
      acceptedBytes r.trace = [1, 2, 3, 4] ∧ acknowledgedIds r.trace = [0, 1, 2] :=
    ⟨_, .event { write := true } { writes := [.interrupted, .accepted 1, .accepted 1] }
      (.command (.shutdownWrite 2) [.again] true true
        (.command (.write 1 [4]) [.again] true true
          (.command (.write 0 [1, 2, 3]) [.accepted 2, .again] true true .registered rfl) rfl) rfl) rfl, rfl, rfl⟩
  obtain ⟨r, hdriven, haccepted, hacks⟩ := hrun
  exact ⟨r, hdriven, haccepted, hacks, hdriven.writes_in_order.2.2.2.2⟩

end Runs

end Reactor

end TailscaleDart.Fd
