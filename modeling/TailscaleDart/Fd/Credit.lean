import TailscaleDart.Fd.Inbound

/-!
# Fd.Credit — what a paused consumer still gets

Bytes go through four hands: the shard reads them and counts them as pending, an event carries them to the caller's
half, the input controller takes them, and an acknowledgement gives the credit back. A pause travels to the shard as a
command in the same mailbox as the acknowledgements.

Two things bound the bytes a paused consumer still gets. What is on its way, and the acknowledgements the shard has not
read, are part of the pending bytes (`Flow.account`); and of these acknowledgements only those the shard reads before it
stops reading can be used again (`credit`, `Flow.interval`).
-/

namespace TailscaleDart.Fd

open TailscaleDart.Data (Always always_nil always_concat)

/-! ## The mailbox -/

/-- The bytes whose credit is on its way back. -/
def ackedBytes (mailbox : List Command) : Nat :=
  (mailbox.map fun
    | .inboundConsumed bytes => bytes
    | _ => 0).sum

/-- Whether reading is on when the mailbox has been read. -/
def readAfter : Bool → List Command → Bool
  | on, [] => on
  | _, .enableRead :: rest => readAfter true rest
  | _, .disableRead :: rest => readAfter false rest
  | on, _ :: rest => readAfter on rest

/-- The credit in the mailbox that the shard gets while it reads, or before it reads again. -/
def credit : Bool → List Command → Nat
  | _, [] => 0
  | _, .enableRead :: rest => credit true rest
  | _, .disableRead :: rest => credit false rest
  | on, .inboundConsumed bytes :: rest => (if on || decide (.enableRead ∈ rest) then bytes else 0) + credit on rest
  | on, _ :: rest => credit on rest

/-- The command is about reading. -/
def Command.isReading : Command → Bool
  | .enableRead | .disableRead | .inboundConsumed _ => true
  | _ => false

section Mailbox

variable (on : Bool) (mailbox : List Command)

@[simp] theorem ackedBytes_append (more : List Command) :
    ackedBytes (mailbox ++ more) = ackedBytes mailbox + ackedBytes more := by
  simp [ackedBytes]

theorem readAfter_append (more : List Command) :
    readAfter on (mailbox ++ more) = readAfter (readAfter on mailbox) more := by
  induction mailbox generalizing on with
  | nil => rfl
  | cons c mailbox ih => cases c <;> exact ih _

theorem readAfter_mono {on' : Bool} (h : on' = true → on = true) (hoff : readAfter on mailbox = false) :
    readAfter on' mailbox = false := by
  induction mailbox generalizing on on' with
  | nil =>
    cases on' with
    | false => rfl
    | true =>
      have hon : on = false := hoff
      rw [h rfl] at hon
      cases hon
  | cons c mailbox ih =>
    cases c with
    | enableRead => exact hoff
    | disableRead => exact hoff
    | _ => exact ih on h hoff

theorem credit_le_ackedBytes : credit on mailbox ≤ ackedBytes mailbox := by
  induction mailbox generalizing on with
  | nil => exact Nat.le_refl 0
  | cons c mailbox ih =>
    cases c with
    | inboundConsumed bytes =>
      have hrest := ih on
      simp only [credit, ackedBytes, List.map_cons, List.sum_cons] at hrest ⊢
      split <;> omega
    | _ => exact Nat.le_trans (ih _) (Nat.le_add_left _ _)

theorem credit_mono {on' : Bool} (h : on' = true → on = true) : credit on' mailbox ≤ credit on mailbox := by
  induction mailbox generalizing on on' with
  | nil => exact Nat.le_refl 0
  | cons c mailbox ih =>
    cases c with
    | enableRead => exact Nat.le_refl _
    | disableRead => exact Nat.le_refl _
    | inboundConsumed bytes =>
      have hrest := ih on h
      simp only [credit]
      cases on' with
      | true =>
        obtain rfl : on = true := h rfl
        exact Nat.add_le_add_left hrest _
      | false =>
        cases on with
        | true =>
          simp only [Bool.true_or, Bool.false_or, if_true]
          split <;> omega
        | false => exact Nat.add_le_add_left hrest _
    | _ => exact ih on h

theorem credit_concat_other {c : Command} (h : c.isReading = false) :
    credit on (mailbox ++ [c]) = credit on mailbox := by
  have hne : c ≠ .enableRead := by
    rintro rfl
    cases h
  induction mailbox generalizing on with
  | nil => cases c <;> first | rfl | cases h
  | cons d mailbox ih =>
    cases d with
    | inboundConsumed bytes => simp [credit, ih on, hne.symm]
    | _ => exact ih _

theorem credit_concat_disable : credit on (mailbox ++ [.disableRead]) = credit on mailbox := by
  induction mailbox generalizing on with
  | nil => rfl
  | cons d mailbox ih =>
    cases d with
    | inboundConsumed bytes => simp [credit, ih on]
    | _ => exact ih _

theorem credit_concat_ack (bytes : Nat) (hoff : readAfter on mailbox = false) :
    credit on (mailbox ++ [.inboundConsumed bytes]) = credit on mailbox := by
  induction mailbox generalizing on with
  | nil =>
    have hoff : on = false := hoff
    subst hoff
    simp [credit]
  | cons d mailbox ih =>
    cases d with
    | inboundConsumed n => simp [credit, ih on hoff]
    | _ => exact ih _ hoff

end Mailbox

/-! ## Runs, with the pauses -/

inductive InputNote where
  | paused
  | resumed
  | added (bytes : Nat)
  deriving DecidableEq, Repr

/-- The bytes added to the input controller. -/
def addedBytes (log : List InputNote) : Nat :=
  (log.map fun
    | .added bytes => bytes
    | _ => 0).sum

/-- For each pause that no resume has followed, the bytes added since. -/
def openIntervals (log : List InputNote) : List Nat :=
  log.foldl (fun intervals note =>
    match note with
    | .paused => 0 :: intervals
    | .resumed => []
    | .added bytes => intervals.map (· + bytes)) []

theorem openIntervals_concat (log : List InputNote) (note : InputNote) : openIntervals (log ++ [note]) = match note with
      | .paused => 0 :: openIntervals log | .resumed => [] | .added bytes => (openIntervals log).map (· + bytes) := by
  simp only [openIntervals, List.foldl_append]
  rfl

theorem mem_openIntervals (before during : List InputNote) (h : .resumed ∉ during) :
    addedBytes during ∈ openIntervals (before ++ .paused :: during) := by
  induction during using List.reverseRecOn with
  | nil =>
    rw [openIntervals_concat]
    exact (.head _)
  | append_singleton during note ih =>
    have hmem := ih fun hmem => h (List.mem_append_left _ hmem)
    rw [← List.cons_append, ← List.append_assoc, openIntervals_concat]
    have hadded : addedBytes (during ++ [note]) = addedBytes during + addedBytes [note] := by simp [addedBytes]
    cases note with
    | paused =>
      rw [hadded]
      exact .tail _ hmem
    | resumed => exact absurd (List.mem_append_right _ (.head _)) h
    | added bytes =>
      rw [hadded]
      exact List.mem_map.mpr ⟨_, hmem, by simp [addedBytes]⟩

namespace PosixFdTransport

def Call.notes : Call → List InputNote
  | .pause _ => [.paused]
  | .resume _ => [.resumed]
  | _ => []

/-- The event reaches the listener. -/
def tells (t : PosixFdTransport) : Event → Bool
  | .data _ | .readError _ => !t.closed && !t.inputClosed
  | .eof => !t.closed
  | _ => false

end PosixFdTransport

/-- What an event adds to the input controller. -/
def Event.notes : Event → List InputNote
  | .data bytes => [.added bytes.length]
  | _ => []

/-- What handling an event does to the input controller: data is added before the listener reacts. -/
def PosixFdTransport.handled (t : PosixFdTransport) (event : Event) (calls : Reaction) : List InputNote :=
  if t.tells event then event.notes ++ calls.flatMap Call.notes else []

/-- The two halves, the proxy between them, and the history of the input controller. -/
structure Session where
  system : System
  refused : Bool := false
  log : List InputNote := []

namespace Session

def adopted (config : Config) : Session := { system := .adopted config }

def results : System.Action → List SendResult
  | .call c => c.results
  | .deliver r ack enable => r.flatMap PosixFdTransport.Call.results ++ [ack, enable]
  | _ => []

def notes (s : Session) : System.Action → List InputNote
  | .call c => c.notes
  | .deliver r _ _ =>
    match s.system.reactor.outbox with
    | [] => []
    | event :: _ => s.system.main.handled event r
  | _ => []

def step (s : Session) (a : System.Action) : Option Session :=
  (refusals s.refused (results a)).bind fun refused =>
    (s.system.step a).map fun system => { system := system, refused := refused, log := s.log ++ s.notes a }

abbrev Reachable (config : Config) : Session → Prop :=
  Conc.Machine.Reachable step (fun _ _ => True) (adopted config)

end Session

/-! ## What the caller's half does around reading -/

namespace PosixFdTransport

/-- From `t` to `t'` nothing was said about reading, but the transport may have ended. -/
structure Idles (t t' : PosixFdTransport) : Prop where
  readEnabled : t'.readEnabled = t.readEnabled
  paused : t'.paused = t.paused
  closed : t.closed = true → t'.closed = true
  mailbox : t'.mailbox = t.mailbox ∨ ∃ c, c.isReading = false ∧ t'.mailbox = t.mailbox ++ [c]

section Idling

variable (t : PosixFdTransport)

theorem Idles.refl : Idles t t := ⟨rfl, rfl, fun h => h, .inl rfl⟩

theorem Idles.post {c : Command} (hc : c.isReading = false) (result : SendResult) : Idles t (t.post c result) := by
  unfold PosixFdTransport.post
  split
  · exact .refl t
  · exact ⟨rfl, rfl, fun h => h, .inr ⟨c, hc, rfl⟩⟩

variable {t1 : PosixFdTransport}

theorem Idles.andThen {t t2 : PosixFdTransport} (h : Idles t t1) (hread : t2.readEnabled = t1.readEnabled)
    (hpaused : t2.paused = t1.paused) (hclosed : t1.closed = true → t2.closed = true)
    (hmailbox : t2.mailbox = t1.mailbox) :
    Idles t t2 where
  readEnabled := hread.trans h.readEnabled
  paused := hpaused.trans h.paused
  closed := fun hc => hclosed (h.closed hc)
  mailbox := by
    rw [hmailbox]
    exact h.mailbox

theorem teardown_idle (doneError pendingWriteError : Option String) (closeInput : Bool) :
    (t.teardown doneError pendingWriteError closeInput).readEnabled = t.readEnabled ∧
      (t.teardown doneError pendingWriteError closeInput).paused = t.paused := by
  unfold teardown
  split
  · exact ⟨rfl, rfl⟩
  · cases pendingWriteError <;> exact ⟨rfl, rfl⟩

theorem Idles.teardown {t : PosixFdTransport} (h : Idles t t1) (doneError pendingWriteError : Option String)
    (closeInput : Bool) : Idles t (t1.teardown doneError pendingWriteError closeInput) := by
  obtain ⟨hread, hpaused⟩ := teardown_idle t1 doneError pendingWriteError closeInput
  obtain ⟨hclosed, -, hmailbox, -⟩ := teardown_terminal t1 doneError pendingWriteError closeInput
  exact h.andThen hread hpaused (fun _ => hclosed) hmailbox

theorem Idles.maybeCompleteDone {t : PosixFdTransport} (h : Idles t t1) : Idles t t1.maybeCompleteDone := by
  unfold PosixFdTransport.maybeCompleteDone
  split
  · exact h
  split
  · exact h
  · exact h.teardown _ _ _

theorem Idles.dispatch {u : PosixFdTransport} (hread : u.readEnabled = t.readEnabled) (hpaused : u.paused = t.paused)
    (hclosed : u.closed = t.closed) (hmailbox : u.mailbox = t.mailbox) (what : String) (entry : PendingWrite)
    (command : Command) (hc : command.isReading = false) (result : SendResult) :
    Idles t (u.dispatch what entry command result) := by
  have hposted : Idles t (u.post command result) := by
    obtain ⟨hread', hpaused', hclosed', hmailbox'⟩ := Idles.post u hc result
    refine ⟨hread'.trans hread, hpaused'.trans hpaused, fun h => hclosed' (hclosed ▸ h), ?_⟩
    rw [← hmailbox]
    exact hmailbox'
  unfold PosixFdTransport.dispatch
  cases result.error with
  | none => exact hposted
  | some error =>
    have hfailed : Idles t (((u.post command result).remove entry).complete entry.id (.error (what ++ error))) :=
      hposted.andThen rfl rfl (fun h => h) rfl
    exact hfailed.teardown _ _ _

theorem Idles.write (bytes : Bytes) (result : SendResult) : Idles t (t.write bytes result).2 := by
  unfold PosixFdTransport.write
  split
  · exact .refl t
  split
  · exact .refl t
  split
  · exact .refl t
  split
  · exact .refl t
  · exact .dispatch t (u := t.register bytes.length) rfl rfl rfl rfl _ _
      (.write (t.nextWriteId + 1) bytes) rfl result

theorem Idles.closeWrite (result : SendResult) : Idles t (t.closeWrite result).2 := by
  unfold PosixFdTransport.closeWrite
  split
  · exact .refl t
  · exact .dispatch t (u := { t with writeFinished := true }.register 0) rfl rfl rfl rfl _ _
      (.shutdownWrite (t.nextWriteId + 1)) rfl result

theorem Idles.close (result : SendResult) : Idles t (t.close result) := by
  unfold PosixFdTransport.close
  split
  · exact .refl t
  · exact (Idles.post t rfl result).teardown _ _ _

theorem Idles.writeAcknowledged (id : Nat) : Idles t (t.writeAcknowledged id) := by
  unfold PosixFdTransport.writeAcknowledged
  split
  · exact .refl t
  split
  · exact .maybeCompleteDone ⟨rfl, rfl, fun h => h, .inl rfl⟩
  · exact ⟨rfl, rfl, fun h => h, .inl rfl⟩

theorem Idles.writeFailed (id : Nat) (error : String) : Idles t (t.writeFailed id error) := by
  unfold PosixFdTransport.writeFailed
  split
  · exact .refl t
  · exact ⟨rfl, rfl, fun h => h, .inl rfl⟩

end Idling

end PosixFdTransport

/-! ## The account of bytes on their way -/

/-- Reading is on, or will be. -/
def MayRead (r : Reactor) (mailbox : List Command) : Prop :=
  r.closed = false ∧ (r.readEnabled = true ∨ .enableRead ∈ mailbox)

/-- The state of reading in both halves; `hand` are the bytes of the event being handled, not yet acknowledged. -/
structure Flow (config : Config) (hand : Nat) (refused : Bool) (log : List InputNote) (t : PosixFdTransport)
    (r : Reactor) : Prop where
  reads : r.Reads config
  credits : r.closed = false → ackedBytes t.mailbox ≤ r.pendingInboundBytes
  carried : t.closed = false → hand + dataBytes r.outbox ≤ r.pendingInboundBytes
  account : r.closed = false → t.closed = false →
    ackedBytes t.mailbox + hand + dataBytes r.outbox ≤ r.pendingInboundBytes
  off : t.closed = false → t.readEnabled = false →
    refused = true ∨ r.closed = true ∨ readAfter r.readEnabled t.mailbox = false
  halted : t.closed = false → t.paused = true → t.readEnabled = false
  paused : openIntervals log ≠ [] → t.paused = true
  bounded : Always (fun before note => ∀ n ∈ openIntervals (before ++ [note]), config.Holds n) log
  interval : t.closed = false → ∀ n ∈ openIntervals log, config.Holds (n + dataBytes r.outbox) ∧
    (MayRead r t.mailbox → n + dataBytes r.outbox + credit r.readEnabled t.mailbox ≤ r.pendingInboundBytes)

section Flows

variable {config : Config} {hand : Nat} {refused : Bool} {log : List InputNote} {t t' : PosixFdTransport}
    {r r' : Reactor}

theorem Flow.release (h : Flow config hand refused log t r) : Flow config 0 refused log t r :=
  { h with
    carried := fun hopen => by have := h.carried hopen; omega
    account := fun hr ht => by have := h.account hr ht; omega }

variable {refused' : Bool}

theorem Flow.refuse (h : Flow config hand refused log t r) (hmore : refused = true → refused' = true) :
    Flow config hand refused' log t r :=
  { h with off := fun hopen hoff => (h.off hopen hoff).imp_left hmore }

/-- The bytes added since a pause that is on keep within the bound. -/
theorem Flow.holds (h : Flow config hand refused log t r) {n : Nat} (hn : n ∈ openIntervals log) : config.Holds n := by
  rcases List.eq_nil_or_concat log with rfl | ⟨before, note, rfl⟩
  · cases hn
  · rw [List.concat_eq_append] at h hn
    exact (always_concat.mp h.bounded).2 n hn

variable {c : Command}

theorem ackedBytes_other (h : c.isReading = false) : ackedBytes [c] = 0 := by
  cases c <;> first | rfl | cases h

theorem readAfter_other (h : c.isReading = false) (on : Bool) : readAfter on [c] = on := by
  cases c <;> first | rfl | cases h

theorem not_enable_of_other (h : c.isReading = false) : c ≠ .enableRead := by
  rintro rfl
  cases h

/-- The shard has been told, or has yet to be told, something else that comes to the same. -/
theorem Flow.mail (h : Flow config hand refused log t r) (on : Bool) {mailbox : List Command}
    (hacked : ackedBytes mailbox = ackedBytes t.mailbox)
    (hafter : readAfter on mailbox = readAfter r.readEnabled t.mailbox)
    (hcredit : credit on mailbox = credit r.readEnabled t.mailbox)
    (hread : on = true ∨ .enableRead ∈ mailbox → r.readEnabled = true ∨ .enableRead ∈ t.mailbox) :
    Flow config hand refused log { t with mailbox := mailbox } { r with readEnabled := on } := by
  refine { h with
    reads := { h.reads with }, credits := hacked ▸ h.credits,
    account := hacked ▸ h.account, off := hafter ▸ h.off, interval := fun ht n hn => ?_ }
  obtain ⟨hholds, hmay⟩ := h.interval ht n hn
  rw [← hcredit] at hmay
  exact ⟨hholds, fun hmore => hmay ⟨hmore.1, hread hmore.2⟩⟩

theorem Flow.idle (h : Flow config hand refused log t r) (hidle : t.Idles t') : Flow config hand refused log t' r := by
  have hopen : t'.closed = false → t.closed = false := by
    intro hopen
    by_contra hclosed
    rw [hidle.closed (by simpa using hclosed)] at hopen
    cases hopen
  have hmail : Flow config hand refused log { t with mailbox := t'.mailbox } r := by
    rcases hidle.mailbox with hsame | ⟨c, hc, hmore⟩
    · rw [hsame]
      exact h
    · rw [hmore]
      refine h.mail _ ?_ ?_ (credit_concat_other _ _ hc) fun hread => hread.imp_right fun hmem => ?_
      · rw [ackedBytes_append, ackedBytes_other hc, Nat.add_zero]
      · rw [readAfter_append, readAfter_other hc]
      · rcases List.mem_append.mp hmem with hold | hnew
        · exact hold
        · exact absurd (List.mem_singleton.mp hnew).symm (not_enable_of_other hc)
  refine { hmail with
    carried := fun ht => h.carried (hopen ht), account := fun hr ht => hmail.account hr (hopen ht), off := ?_,
    halted := ?_, paused := ?_, interval := fun ht => hmail.interval (hopen ht) }
  · rw [hidle.readEnabled]
    exact fun ht => hmail.off (hopen ht)
  · rw [hidle.readEnabled, hidle.paused]
    exact fun ht => h.halted (hopen ht)
  · rw [hidle.paused]
    exact h.paused

theorem Flow.feeds (h : Flow config hand refused log t r) (hfed : Reactor.Fed config r r') :
    Flow config hand refused log t r' := by
  obtain ⟨hreads, hfeeds⟩ := hfed
  have hmoved := hfeeds.moved
  have hgrows := hfeeds.grows
  have hopen : r'.closed = false → r.closed = false := by
    intro hopen
    by_contra hclosed
    rw [hfeeds.closed (by simpa using hclosed)] at hopen
    cases hopen
  refine { h with reads := hreads, credits := ?_, carried := ?_, account := ?_, off := ?_, interval := ?_ }
  · exact fun hr => Nat.le_trans (h.credits (hopen hr)) hgrows
  · intro ht
    have := h.carried ht
    omega
  · intro hr ht
    have := h.account (hopen hr) ht
    omega
  · intro ht hoff
    rcases h.off ht hoff with hrefused | hclosed | hafter
    · exact .inl hrefused
    · exact .inr (.inl (hfeeds.closed hclosed))
    · exact .inr (.inr (readAfter_mono _ _ hfeeds.enabled hafter))
  · intro ht n hn
    obtain ⟨hholds, hmay⟩ := h.interval ht n hn
    have hcredit := credit_mono r.readEnabled t.mailbox hfeeds.enabled
    by_cases hread : MayRead r t.mailbox
    · have hsum := hmay hread
      refine ⟨hreads.held.mono (by omega), fun _ => by omega⟩
    · -- a shard that may not read has sent nothing new
      have hidle : r'.pendingInboundBytes = r.pendingInboundBytes := by
        apply hfeeds.idle
        by_contra hno
        simp only [not_or, Bool.not_eq_true, Bool.not_eq_false] at hno
        exact hread ⟨hno.1, .inl hno.2⟩
      have hsame : dataBytes r'.outbox = dataBytes r.outbox := by omega
      rw [hsame]
      refine ⟨hholds, fun hread' => absurd ⟨hopen hread'.1, hread'.2.imp_left hfeeds.enabled⟩ hread⟩

theorem Flow.enableReadIfReady (h : Flow config hand refused log t r) (result : SendResult) :
    Flow config hand refused log (t.enableReadIfReady result) r := by
  unfold PosixFdTransport.enableReadIfReady
  split
  · exact h
  split
  · exact h
  next hguard hready =>
  simp only [Bool.or_eq_true, Bool.not_eq_true', not_or, Bool.not_eq_true, Bool.not_eq_false] at hready
  have hnone : openIntervals log = [] := by
    by_contra hne
    rw [h.paused hne] at hready
    exact absurd hready.1.2 (by simp)
  have henabled : Flow config hand refused log ({ t with readEnabled := true }.post .enableRead result) r := by
    have hacked : ackedBytes ({ t with readEnabled := true }.post .enableRead result).mailbox =
      ackedBytes t.mailbox := by
      unfold PosixFdTransport.post
      split
      · rfl
      · exact (ackedBytes_append _ _).trans (Nat.add_zero _)
    have hsame : ({ t with readEnabled := true }.post .enableRead result).closed = t.closed ∧
        ({ t with readEnabled := true }.post .enableRead result).readEnabled = true ∧
        ({ t with readEnabled := true }.post .enableRead result).paused = t.paused := by
      unfold PosixFdTransport.post
      split <;> exact ⟨rfl, rfl, rfl⟩
    obtain ⟨hclosed, hon, hpaused⟩ := hsame
    refine { h with credits := ?_, carried := ?_, account := ?_, off := ?_, halted := ?_, paused := ?_, interval := ?_ }
    · rw [hacked]
      exact h.credits
    · rw [hclosed]
      exact h.carried
    · rw [hacked, hclosed]
      exact h.account
    · intro _ hoff
      rw [hon] at hoff
      cases hoff
    · intro _ hp
      rw [hpaused, hready.1.2] at hp
      cases hp
    · exact fun hne => absurd hnone hne
    · intro _ n hn
      rw [hnone] at hn
      exact absurd hn List.not_mem_nil
  cases result.error with
  | none => exact henabled
  | some error => exact henabled.idle ((PosixFdTransport.Idles.refl _).teardown _ _ _)

/-- The consumer resumes: no pause is on. -/
theorem Flow.resume (h : Flow config hand refused log t r) :
    Flow config hand refused (log ++ [.resumed]) { t with paused := false } r :=
  { h with
    halted := nofun
    paused := fun hne => absurd (openIntervals_concat log .resumed) hne
    bounded := by
      refine always_concat.mpr ⟨h.bounded, ?_⟩
      rw [openIntervals_concat]
      exact List.forall_mem_nil _
    interval := by
      rw [openIntervals_concat]
      exact fun _ n hn => absurd hn List.not_mem_nil }

theorem Flow.pause (h : Flow config hand refused log t r) (result : SendResult) :
    Flow config hand (refused || decide (result ≠ .ok)) (log ++ [.paused])
    ({ t with paused := true }.disableRead result) r := by
  have hpausing : ∀ note ∈ openIntervals (log ++ [.paused]), note = 0 ∨ note ∈ openIntervals log := by
    intro n hn
    rw [openIntervals_concat] at hn
    exact List.mem_cons.mp hn
  have hbounded : Always (fun before note => ∀ n ∈ openIntervals (before ++ [note]), config.Holds n)
      (log ++ [.paused]) := by
    refine always_concat.mpr ⟨h.bounded, fun n hn => ?_⟩
    rcases hpausing n hn with rfl | hold
    · exact h.reads.held.mono (Nat.zero_le _)
    · exact h.holds hold
  -- the interval that begins now: all that is on its way is pending
  have hbegin : t.closed = false → config.Holds (0 + dataBytes r.outbox) ∧
      (MayRead r t.mailbox → 0 + dataBytes r.outbox + credit r.readEnabled t.mailbox ≤ r.pendingInboundBytes) := by
    intro ht
    have hcarried := h.carried ht
    refine ⟨h.reads.held.mono (by omega), fun hread => ?_⟩
    have haccount := h.account hread.1 ht
    have hcredit := credit_le_ackedBytes r.readEnabled t.mailbox
    omega
  unfold PosixFdTransport.disableRead
  split
  · next hguard =>
    have h' : Flow config hand (refused || decide (result ≠ .ok)) log t r := h.refuse fun hr => by rw [hr, Bool.true_or]
    have hoff : t.closed = false → t.readEnabled = false := by
      intro ht
      simpa [ht] using hguard
    refine ⟨h.reads, h.credits, h.carried, h.account, h'.off, fun ht _ => hoff ht, fun _ => rfl, hbounded, ?_⟩
    intro ht n hn
    rcases hpausing n hn with rfl | hold
    · exact hbegin ht
    · exact h.interval ht n hold
  · next hguard =>
    simp only [Bool.or_eq_true, Bool.not_eq_true', not_or, Bool.not_eq_true, Bool.not_eq_false] at hguard
    obtain ⟨hopen, hon⟩ := hguard
    -- reading was on, so no pause was
    have hnone : openIntervals log = [] := by
      by_contra hne
      rw [h.halted hopen (h.paused hne)] at hon
      cases hon
    have honly : ∀ n ∈ openIntervals (log ++ [.paused]), n = 0 := by
      intro n hn
      rcases hpausing n hn with rfl | hold
      · rfl
      · rw [hnone] at hold
        exact absurd hold List.not_mem_nil
    unfold PosixFdTransport.post
    split
    · next hstopped =>
      refine ⟨h.reads, h.credits, h.carried, h.account, fun _ _ => .inl (by simp [hstopped]), fun _ _ => rfl, fun _ =>
        rfl, hbounded, ?_⟩
      intro ht n hn
      rw [honly n hn]
      exact hbegin ht
    · have hacked : ackedBytes (t.mailbox ++ [.disableRead]) = ackedBytes t.mailbox :=
        (ackedBytes_append _ _).trans (Nat.add_zero _)
      refine ⟨h.reads, ?_, h.carried, ?_, fun _ _ => .inr (.inr ?_), fun _ _ => rfl, fun _ => rfl, hbounded, ?_⟩
      · show r.closed = false → ackedBytes (t.mailbox ++ [.disableRead]) ≤ _
        rw [hacked]
        exact h.credits
      · show r.closed = false → t.closed = false → ackedBytes (t.mailbox ++ [.disableRead]) + _ + _ ≤ _
        rw [hacked]
        exact h.account
      · exact readAfter_append _ _ _
      · intro ht n hn
        rw [honly n hn]
        obtain ⟨hholds, hmay⟩ := hbegin ht
        refine ⟨hholds, fun hread => ?_⟩
        show 0 + dataBytes r.outbox + credit r.readEnabled (t.mailbox ++ [.disableRead]) ≤ _
        rw [credit_concat_disable]
        refine hmay ⟨hread.1, hread.2.imp_right fun hmem => ?_⟩
        simpa using hmem

/-- The bytes in hand are acknowledged: while a pause is on, the shard gets the credit when it reads no more. -/
theorem Flow.ackInboundBytes (h : Flow config hand refused log t r) {result : SendResult}
    (hrefused : refused = true → result = .stopped) : Flow config 0 refused log (t.ackInboundBytes hand result) r := by
  unfold PosixFdTransport.ackInboundBytes
  split
  · exact h.release
  next hguard =>
  simp only [Bool.or_eq_true, decide_eq_true_eq, not_or, Bool.not_eq_true] at hguard
  unfold PosixFdTransport.post
  split
  · exact h.release
  next hposted =>
  have hacked : ackedBytes (t.mailbox ++ [.inboundConsumed hand]) = ackedBytes t.mailbox + hand := by
    rw [ackedBytes_append]
    simp [ackedBytes]
  have hafter : ∀ on, readAfter on (t.mailbox ++ [.inboundConsumed hand]) = readAfter on t.mailbox := fun on =>
    readAfter_append on _ _
  refine { h.release with credits := ?_, account := ?_, off := ?_, interval := ?_ }
  · intro hr
    have := h.account hr hguard.1
    show ackedBytes (t.mailbox ++ [.inboundConsumed hand]) ≤ _
    omega
  · intro hr ht
    have := h.account hr ht
    show ackedBytes (t.mailbox ++ [.inboundConsumed hand]) + 0 + _ ≤ _
    omega
  · intro ht hoff
    show _ ∨ _ ∨ readAfter r.readEnabled (t.mailbox ++ [.inboundConsumed hand]) = false
    rw [hafter]
    exact h.off ht hoff
  · intro ht n hn
    obtain ⟨hholds, hmay⟩ := h.interval ht n hn
    refine ⟨hholds, fun hread => ?_⟩
    have hread' : MayRead r t.mailbox := by
      refine ⟨hread.1, hread.2.imp_right fun hmem => ?_⟩
      simpa using hmem
    have hoff := h.off ht (h.halted ht (h.paused (List.ne_nil_of_mem hn)))
    have hfinal : readAfter r.readEnabled t.mailbox = false := by
      rcases hoff with hclosedProxy | hclosed | hfinal
      · exact absurd (hrefused hclosedProxy) hposted
      · rw [hread.1] at hclosed
        cases hclosed
      · exact hfinal
    show n + dataBytes r.outbox + credit r.readEnabled (t.mailbox ++ [.inboundConsumed hand]) ≤ _
    rw [credit_concat_ack _ _ _ hfinal]
    exact hmay hread'

theorem Flow.call (h : Flow config hand refused log t r) {c : PosixFdTransport.Call}
    (hsends : refusals refused c.results = some refused') : Flow config hand refused' (log ++ c.notes) (c.run t) r := by
  have hrefuse := h.refuse (refusals_mono hsends)
  have hsilent : ∀ {t'}, Flow config hand refused' log t' r → Flow config hand refused' (log ++ []) t' r := by
    intro t' hflow
    rw [List.append_nil]
    exact hflow
  cases c with
  | write bytes result => exact hsilent (hrefuse.idle (.write t bytes result))
  | closeWrite result => exact hsilent (hrefuse.idle (.closeWrite t result))
  | close result => exact hsilent (hrefuse.idle (.close t result))
  | listen result =>
    have hlisten : Flow config hand refused' log { t with hasListener := true } r :=
      hrefuse.idle ⟨rfl, rfl, fun h => h, .inl rfl⟩
    exact hsilent (hlisten.enableReadIfReady result)
  | pause result =>
    have hlast := (refusals_cons hsends).2
    cases hlast
    exact h.pause result
  | resume result => exact hrefuse.resume.enableReadIfReady result
  | cancel => exact hsilent (hrefuse.idle ⟨rfl, rfl, fun h => h, .inl rfl⟩)

/-- What the listener does, call by call. -/
theorem Flow.react (h : Flow config hand refused log t r) {calls : PosixFdTransport.Reaction}
    (hsends : refusals refused (calls.flatMap PosixFdTransport.Call.results) = some refused') :
    Flow config hand refused' (log ++ calls.flatMap PosixFdTransport.Call.notes) (t.react calls) r := by
  induction calls generalizing refused log t with
  | nil =>
    cases hsends
    rw [List.flatMap_nil, List.append_nil]
    exact h
  | cons c calls ih =>
    rw [List.flatMap_cons] at hsends
    obtain ⟨mid, hfirst, hrest⟩ := refusals_append hsends
    rw [List.flatMap_cons, ← List.append_assoc]
    exact ih (h.call hfirst) hrest

/-! ## Events -/

variable {outbox : List Event}

theorem Flow.pop (h : Flow config hand refused log t r) {event : Event}
    (houtbox : r.outbox = event :: outbox) : Flow config hand refused log t { r with outbox := outbox } := by
  have hle : dataBytes outbox ≤ dataBytes r.outbox := by
    rw [houtbox]
    exact Nat.le_add_left _ _
  refine ⟨{ h.reads with }, h.credits, ?_, ?_, h.off, h.halted,
    h.paused, h.bounded, ?_⟩
  · intro ht
    exact Nat.le_trans (Nat.add_le_add_left hle _) (h.carried ht)
  · intro hr ht
    exact Nat.le_trans (Nat.add_le_add_left hle _) (h.account hr ht)
  · intro ht n hn
    obtain ⟨hholds, hmay⟩ := h.interval ht n hn
    refine ⟨hholds.mono (Nat.add_le_add_left hle _), fun hread => Nat.le_trans ?_ (hmay hread)⟩
    exact Nat.add_le_add_right (Nat.add_le_add_left hle _) _

/-- Data is added to the input controller: it is in hand, and part of every interval that is on. -/
theorem Flow.take (h : Flow config 0 refused log t r) (hopen : t.closed = false) {bytes : Bytes}
    (houtbox : r.outbox = .data bytes :: outbox) :
    Flow config bytes.length refused (log ++ [.added bytes.length]) t { r with outbox := outbox } := by
  have hsum : dataBytes r.outbox = bytes.length + dataBytes outbox := by
    rw [houtbox]
    rfl
  have hgrown : ∀ n ∈ openIntervals (log ++ [.added bytes.length]), ∃ m ∈ openIntervals log, n = m + bytes.length := by
    intro n hn
    rw [openIntervals_concat] at hn
    obtain ⟨m, hm, rfl⟩ := List.mem_map.mp hn
    exact ⟨m, hm, rfl⟩
  refine ⟨{ h.reads with }, h.credits, ?_, ?_, h.off, h.halted,
    ?_, ?_, ?_⟩
  · intro ht
    have := h.carried ht
    show bytes.length + dataBytes outbox ≤ r.pendingInboundBytes
    omega
  · intro hr ht
    have := h.account hr ht
    show ackedBytes t.mailbox + bytes.length + dataBytes outbox ≤ r.pendingInboundBytes
    omega
  · intro hne
    apply h.paused
    rintro hnone
    rw [openIntervals_concat, hnone] at hne
    exact hne rfl
  · refine always_concat.mpr ⟨h.bounded, fun n hn => ?_⟩
    obtain ⟨m, hm, rfl⟩ := hgrown n hn
    exact (h.interval hopen m hm).1.mono (by omega)
  · intro ht n hn
    obtain ⟨m, hm, rfl⟩ := hgrown n hn
    obtain ⟨hholds, hmay⟩ := h.interval ht m hm
    refine ⟨hholds.mono (by show m + bytes.length + dataBytes outbox ≤ _; omega), fun hread => ?_⟩
    have hle := hmay hread
    show m + bytes.length + dataBytes outbox + credit r.readEnabled t.mailbox ≤ r.pendingInboundBytes
    omega

/-- The caller's half handles the oldest event. -/
theorem Flow.handle (h : Flow config 0 refused log t r) {event : Event}
    (houtbox : r.outbox = event :: outbox) {calls : PosixFdTransport.Reaction} {ack enable : SendResult}
    (hsends : refusals refused (calls.flatMap PosixFdTransport.Call.results ++ [ack, enable]) = some refused') :
    Flow config 0 refused' (log ++ t.handled event calls) (t.handleReactorEvent event calls ack enable)
      { r with outbox := outbox } := by
  have hpop := (h.pop houtbox).refuse (refusals_mono hsends)
  obtain ⟨mid, hreaction, hlast⟩ := refusals_append hsends
  obtain ⟨hack, hlast⟩ := refusals_cons hlast
  have hmid : mid = true → refused' = true := fun hmid => refusals_mono hlast (by rw [hmid, Bool.true_or])
  have huntold : t.tells event = false → ∀ {t'}, t.Idles t' →
      Flow config 0 refused' (log ++ t.handled event calls) t' { r with outbox := outbox } := by
    intro htells t' hidle
    rw [PosixFdTransport.handled, htells, if_neg Bool.false_ne_true, List.append_nil]
    exact hpop.idle hidle
  unfold PosixFdTransport.handleReactorEvent
  split
  · next hclosed =>
    apply huntold _ (.refl t)
    cases event <;> simp [PosixFdTransport.tells, hclosed]
  next hopen =>
  have hopen : t.closed = false := by simpa using hopen
  cases event with
  | data bytes =>
    simp only
    split
    · next hinput => exact huntold (by simp [PosixFdTransport.tells, hinput]) (.refl t)
    · next hinput =>
      rw [PosixFdTransport.handled, if_pos (by simp [PosixFdTransport.tells, hopen, hinput]), ← List.append_assoc]
      have hreacted := (h.take hopen houtbox).react hreaction
      exact ((hreacted.ackInboundBytes hack).enableReadIfReady enable).refuse hmid
  | eof =>
    rw [PosixFdTransport.handled, if_pos (by simp [PosixFdTransport.tells, hopen])]
    have hend : Flow config 0 refused log { t with readFinished := true, inputClosed := true }
      { r with outbox := outbox } := (h.pop houtbox).idle ⟨rfl, rfl, fun h => h, .inl rfl⟩
    exact ((hend.react hreaction).idle (PosixFdTransport.Idles.refl _).maybeCompleteDone).refuse hmid
  | readError message =>
    simp only
    split
    · next hinput => exact huntold (by simp [PosixFdTransport.tells, hinput]) (.refl t)
    · next hinput =>
      rw [PosixFdTransport.handled, if_pos (by simp [PosixFdTransport.tells, hopen, hinput])]
      have hreacted := (h.pop houtbox).react hreaction
      exact (hreacted.idle ((PosixFdTransport.Idles.refl _).teardown _ _ _)).refuse hmid
  | writeOk id => exact huntold rfl (.writeAcknowledged t id)
  | writeError id message => exact huntold rfl ((PosixFdTransport.Idles.writeFailed t id _).teardown _ _ _)
  | closed => exact huntold rfl ((PosixFdTransport.Idles.refl t).teardown _ _ _)

/-! ## Commands -/

variable {mailbox : List Command}

theorem Flow.skip (h : Flow config hand refused log t r) (hc : c.isReading = false)
    (hmailbox : t.mailbox = c :: mailbox) : Flow config hand refused log { t with mailbox := mailbox } r := by
  refine h.mail _ ?_ ?_ ?_ fun hread => ?_ <;> rw [hmailbox]
  · rw [← List.singleton_append, ackedBytes_append, ackedBytes_other hc, Nat.zero_add]
  · rw [← List.singleton_append, readAfter_append, readAfter_other hc]
  · cases c <;> first | rfl | cases hc
  · exact hread.imp_right (List.mem_cons_of_mem c)

theorem Flow.drop (h : Flow config hand refused log t r) (hclosed : r.closed = true) :
    Flow config hand refused log { t with mailbox := mailbox } r := by
  have hopen : ¬r.closed = false := by simp [hclosed]
  refine ⟨h.reads, fun hr => absurd hr hopen, h.carried, fun hr => absurd hr hopen, fun _ _ => .inr (.inl hclosed),
    h.halted, h.paused, h.bounded, ?_⟩
  exact fun ht n hn => ⟨(h.interval ht n hn).1, fun hread => absurd hread.1 hopen⟩

theorem Flow.turn (h : Flow config hand refused log t r) (on : Bool)
    (hmailbox : t.mailbox = (if on then .enableRead else .disableRead) :: mailbox) :
    Flow config hand refused log { t with mailbox := mailbox } { r with readEnabled := on } := by
  refine h.mail on ?_ ?_ ?_ fun hread => ?_ <;> rw [hmailbox]
  · cases on <;> exact (Nat.zero_add _).symm
  · cases on <;> rfl
  · cases on <;> rfl
  · rcases hread with rfl | hmem
    · exact .inr List.mem_cons_self
    · exact .inr (List.mem_cons_of_mem _ hmem)

/-- The shard gets credit back. -/
theorem Flow.consume (h : Flow config hand refused log t r) (hopen : r.closed = false) {bytes : Nat}
    (hmailbox : t.mailbox = .inboundConsumed bytes :: mailbox) :
    Flow config hand refused log { t with mailbox := mailbox }
      ({ r with pendingInboundBytes := r.pendingInboundBytes - bytes }.note (.consumed bytes)) := by
  have hacked : ackedBytes t.mailbox = bytes + ackedBytes mailbox := by
    rw [hmailbox]
    rfl
  have hcredits := h.credits hopen
  refine { h with
    reads := h.reads.consume (by omega), credits := ?_, carried := ?_, account := ?_, off := ?_, interval := ?_ }
  · intro _
    show ackedBytes mailbox ≤ r.pendingInboundBytes - bytes
    omega
  · intro ht
    have := h.account hopen ht
    show hand + dataBytes r.outbox ≤ r.pendingInboundBytes - bytes
    omega
  · intro _ ht
    have := h.account hopen ht
    show ackedBytes mailbox + hand + dataBytes r.outbox ≤ r.pendingInboundBytes - bytes
    omega
  · intro ht hoff
    have hold := h.off ht hoff
    rw [hmailbox] at hold
    exact hold
  · intro ht n hn
    obtain ⟨hholds, hmay⟩ := h.interval ht n hn
    refine ⟨hholds, fun hread => ?_⟩
    have hread' : MayRead r t.mailbox := by
      refine ⟨hopen, hread.2.imp_right fun hmem => ?_⟩
      rw [hmailbox]
      exact List.mem_cons_of_mem _ hmem
    have hsum := hmay hread'
    have hused : credit r.readEnabled t.mailbox = bytes + credit r.readEnabled mailbox := by
      have hmay : r.readEnabled = true ∨ .enableRead ∈ mailbox := hread.2
      have hon : (r.readEnabled || decide (.enableRead ∈ mailbox)) = true := by simpa using hmay
      rw [hmailbox, credit, hon, if_pos rfl]
    show n + dataBytes r.outbox + credit r.readEnabled mailbox ≤ r.pendingInboundBytes - bytes
    omega

/-- The shard takes the oldest command. -/
theorem Flow.command (h : Flow config hand refused log t r)
    (hmailbox : t.mailbox = c :: mailbox) {answers : List WriteAnswer} {updateOk shutdownOk : Bool}
    (hrun : r.process c answers updateOk shutdownOk = some r') :
    Flow config hand refused log { t with mailbox := mailbox } r' := by
  unfold Reactor.process at hrun
  split at hrun
  · next hclosed =>
    cases hrun
    exact h.drop hclosed
  next hopen =>
  have hupdated : ∀ {r1 : Reactor}, Flow config hand refused log { t with mailbox := mailbox } r1 →
      Flow config hand refused log { t with mailbox := mailbox } (r1.updateReactorInterest updateOk) :=
        fun {r1} hflow =>
    hflow.feeds ((Reactor.fed_flushMoves config r1).updateReactorInterest updateOk ⟨hflow.reads, .refl r1⟩)
  cases c with
  | enableRead =>
    cases hrun
    exact hupdated (h.turn true hmailbox)
  | disableRead =>
    cases hrun
    exact hupdated (h.turn false hmailbox)
  | inboundConsumed bytes =>
    cases hrun
    exact hupdated (h.consume (by simpa using hopen) hmailbox)
  | write id data =>
    have hqueued : Flow config hand refused log t { r with
        writes := r.writes ++ [{ id := id, data := data }], trace := r.trace ++ [.queued id data] } :=
      h.feeds ⟨h.reads.silent (List.forall_mem_singleton.mpr rfl) rfl rfl rfl rfl,
        { Reactor.Feeds.refl r with }⟩
    exact (hqueued.feeds (hqueued.reads.flushReactorWrites hrun)).skip rfl hmailbox
  | shutdownWrite id =>
    have hasked : Flow config hand refused log t { r with closingWrite := true, shutdownWriteId := some id } :=
      h.feeds ⟨{ h.reads with },
        { Reactor.Feeds.refl r with }⟩
    exact (hasked.feeds (hasked.reads.flushReactorWrites hrun)).skip rfl hmailbox
  | close =>
    cases hrun
    exact (h.feeds ((Reactor.fed_flushMoves config r).close none ⟨h.reads, .refl r⟩)).skip rfl hmailbox

end Flows

namespace Session

variable {config : Config} {s s' : Session}

/-- Both halves of a session, between two steps. -/
def Flowing (config : Config) (s : Session) : Prop :=
  Flow config 0 s.refused s.log s.system.main s.system.reactor

theorem Flowing.step (h : Flowing config s) {a : System.Action} (hstep : s.step a = some s') : Flowing config s' := by
  obtain ⟨refused, hsends, hrest⟩ := Option.bind_eq_some_iff.mp hstep
  obtain ⟨system, hsystem, rfl⟩ := Option.map_eq_some_iff.mp hrest
  have hflow : Flow config 0 refused s.log s.system.main s.system.reactor := h.refuse (refusals_mono hsends)
  cases a with
  | call c =>
    cases hsystem
    exact Flow.call h hsends
  | deliver calls ack enable =>
    simp only [System.step] at hsystem
    split at hsystem
    · cases hsystem
    · next event outbox houtbox =>
      cases hsystem
      have hhandled := Flow.handle h houtbox hsends
      simp only [Flowing, notes, houtbox]
      exact hhandled
  | command answers updateOk shutdownOk =>
    simp only [System.step] at hsystem
    split at hsystem
    · cases hsystem
    · next c mailbox hmailbox =>
      obtain ⟨r', hrun, rfl⟩ := Option.map_eq_some_iff.mp hsystem
      simp only [Flowing, notes, List.append_nil]
      exact hflow.command hmailbox hrun
  | readable answers eofOnAgain updateOk =>
    obtain ⟨r', hrun, rfl⟩ := Option.map_eq_some_iff.mp hsystem
    simp only [Flowing, notes, List.append_nil]
    exact hflow.feeds (hflow.reads.readReactorState hrun)
  | writable answers updateOk shutdownOk =>
    obtain ⟨r', hrun, rfl⟩ := Option.map_eq_some_iff.mp hsystem
    simp only [Flowing, notes, List.append_nil]
    exact hflow.feeds (hflow.reads.flushReactorWrites hrun)
  | stop error =>
    cases hsystem
    simp only [Flowing, notes, List.append_nil]
    exact hflow.feeds ((Reactor.fed_flushMoves config s.system.reactor).close error ⟨hflow.reads, .refl _⟩)

theorem Flowing.adopted (hchunk : 0 < config.maxReadChunkSize) : Flowing config (adopted config) := by
  have hholds : config.Holds 0 := by
    unfold Config.Holds
    split <;> omega
  refine ⟨⟨rfl, rfl, always_nil, fun h => absurd h List.not_mem_nil, rfl, hholds⟩, fun _ => Nat.le_refl 0,
    fun _ => Nat.le_refl 0, fun _ _ => Nat.le_refl 0, fun _ _ => .inr (.inr rfl), nofun, fun h => absurd rfl h,
    always_nil, ?_⟩
  exact fun _ n hn => absurd hn List.not_mem_nil

end Session

end TailscaleDart.Fd
