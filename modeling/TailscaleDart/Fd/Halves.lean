import TailscaleDart.Fd.Shards

/-!
# Fd.Halves — what the halves of an adopted descriptor know of each other

`Acts` is what a call on the caller's half, or the handling of an event, can do: what it posts, which ids it uses for
it, and why it closes. `Link` relates an open caller's half to an open entry of a shard through what is on its way
between them. Its point is the end: both halves finish one after the other on the caller's side only when the entry is
gone, because the acknowledgement of a half-close is not that of a write and is sent once the half-close was carried
out.
-/

namespace TailscaleDart.Fd

/-- The id a write or a half-close is acknowledged under. -/
def Command.writeId : Command → Option Nat
  | .write id _ => some id
  | .shutdownWrite id => some id
  | _ => none

namespace PosixFdTransport

/-! ## What the caller's half does

From `t` to `t'` it posted `posted`; the sends answered `results`. -/

structure Acts (t t' : PosixFdTransport) (posted : List Command) (results : List SendResult) : Prop where
  mailbox : t'.mailbox = t.mailbox ++ posted
  next : t.nextWriteId ≤ t'.nextWriteId
  ids : ∀ c ∈ posted, ∀ id, c.writeId = some id → t.nextWriteId < id ∧ id ≤ t'.nextWriteId
  /-- A half-close that was not there before has an id of its own. -/
  halves : t'.closed = false → ∀ e ∈ t'.writeCompletions, e.byteCount = 0 → e ∈ t.writeCompletions ∨
    t.nextWriteId < e.id ∧ e.id ≤ t'.nextWriteId ∧ ∀ data, .write e.id data ∉ posted
  kept : t'.closed = false → ∀ e ∈ t.writeCompletions, e ∈ t'.writeCompletions
  finished : t'.closed = false → t'.writeFinished = true →
    t.writeFinished = true ∨ ∃ e ∈ t'.writeCompletions, e.byteCount = 0
  read : t'.closed = false → t'.readFinished = t.readFinished
  opened : t'.closed = false → t.closed = false
  ends : t'.closed = true → t.closed = true ∨ .close ∈ posted ∨ ∃ result ∈ results, result ≠ .ok

variable {t t' t'' : PosixFdTransport} {posted more : List Command} {results answers : List SendResult}

theorem Acts.refl (t : PosixFdTransport) (results : List SendResult) : Acts t t [] results where
  mailbox := (List.append_nil _).symm
  next := Nat.le_refl _
  ids := nofun
  halves := fun _ _ he _ => .inl he
  kept := fun _ _ he => he
  finished := fun _ h => .inl h
  read := fun _ => rfl
  opened := id
  ends := .inl

theorem Acts.trans (h : Acts t t' posted results) (g : Acts t' t'' more answers) :
    Acts t t'' (posted ++ more) (results ++ answers) where
  mailbox := by rw [g.mailbox, h.mailbox, List.append_assoc]
  next := Nat.le_trans h.next g.next
  ids := by
    intro c hc id hid
    have hfirst := h.next
    have hsecond := g.next
    rcases List.mem_append.mp hc with hc | hc
    · have := h.ids c hc id hid
      omega
    · have := g.ids c hc id hid
      omega
  halves := by
    intro hopen e he hzero
    have hmid := g.opened hopen
    rcases g.halves hopen e he hzero with hold | ⟨hfresh, hle, hnot⟩
    · rcases h.halves hmid e hold hzero with hold | ⟨hfresh, hle, hnot⟩
      · exact .inl hold
      · refine .inr ⟨hfresh, Nat.le_trans hle g.next, fun data hmem => ?_⟩
        rcases List.mem_append.mp hmem with hmem | hmem
        · exact hnot data hmem
        · have := g.ids _ hmem e.id rfl
          omega
    · have hnext := h.next
      refine .inr ⟨by omega, hle, fun data hmem => ?_⟩
      rcases List.mem_append.mp hmem with hmem | hmem
      · have := h.ids _ hmem e.id rfl
        omega
      · exact hnot data hmem
  kept := fun hopen e he => g.kept hopen e (h.kept (g.opened hopen) e he)
  finished := by
    intro hopen hfinished
    rcases g.finished hopen hfinished with hmid | hzero
    · rcases h.finished (g.opened hopen) hmid with hold | ⟨e, he, hzero⟩
      · exact .inl hold
      · exact .inr ⟨e, g.kept hopen e he, hzero⟩
    · exact .inr hzero
  read := fun hopen => (g.read hopen).trans (h.read (g.opened hopen))
  opened := fun hopen => h.opened (g.opened hopen)
  ends := by
    intro hclosed
    rcases g.ends hclosed with hmid | hclose | ⟨result, hmem, hne⟩
    · rcases h.ends hmid with hold | hclose | ⟨result, hmem, hne⟩
      · exact .inl hold
      · exact .inr (.inl (List.mem_append_left _ hclose))
      · exact .inr (.inr ⟨result, List.mem_append_left _ hmem, hne⟩)
    · exact .inr (.inl (List.mem_append_right _ hclose))
    · exact .inr (.inr ⟨result, List.mem_append_right _ hmem, hne⟩)

/-- The same tables and flags, and nothing posted that would be acknowledged. -/
theorem Acts.quiet (hmailbox : t'.mailbox = t.mailbox ++ posted) (hposted : ∀ c ∈ posted, c.writeId = none)
    (hclosed : t'.closed = t.closed) (hnext : t'.nextWriteId = t.nextWriteId)
    (htable : t'.writeCompletions = t.writeCompletions) (hwrite : t'.writeFinished = t.writeFinished)
    (hread : t'.readFinished = t.readFinished) : Acts t t' posted results where
  mailbox := hmailbox
  next := Nat.le_of_eq hnext.symm
  ids := fun c hc id hid => by rw [hposted c hc] at hid; cases hid
  halves := fun _ e he _ => .inl (htable ▸ he)
  kept := fun _ e he => htable ▸ he
  finished := fun _ h => .inl (hwrite ▸ h)
  read := fun _ => hread
  opened := fun h => hclosed ▸ h
  ends := fun h => .inl (hclosed ▸ h)

/-- The transport ends, after it posted something. -/
theorem Acts.teardown {u : PosixFdTransport} (hmailbox : u.mailbox = t.mailbox ++ posted)
    (hnext : t.nextWriteId ≤ u.nextWriteId)
    (hids : ∀ c ∈ posted, ∀ id, c.writeId = some id → t.nextWriteId < id ∧ id ≤ u.nextWriteId)
    (hends : t.closed = true ∨ .close ∈ posted ∨ ∃ result ∈ results, result ≠ .ok)
    (doneError pendingWriteError : Option String) (closeInput : Bool) :
    Acts t (u.teardown doneError pendingWriteError closeInput) posted results := by
  obtain ⟨hclosed, -, hkept, hid⟩ := teardown_terminal u doneError pendingWriteError closeInput
  exact {
    mailbox := hkept.trans hmailbox
    next := hid ▸ hnext
    ids := hid ▸ hids
    halves := fun h => by rw [hclosed] at h; cases h
    kept := fun h => by rw [hclosed] at h; cases h
    finished := fun h => by rw [hclosed] at h; cases h
    read := fun h => by rw [hclosed] at h; cases h
    opened := fun h => by rw [hclosed] at h; cases h
    ends := fun _ => hends }

theorem Acts.issue {c : Call} {command : Command} {byteCount : Nat} {finished : Bool}
    (hunfinished : t.writeFinished = false) (hadmits : t.Admits c command byteCount finished) :
    Acts t (t.issue command byteCount finished .ok) [command] [.ok] := by
  have hbytes : byteCount = 0 → finished = true ∧ ∀ id data, command ≠ .write id data := by
    cases hadmits with
    | write bytes _ hne => exact fun hzero => absurd (List.length_eq_zero_iff.mp hzero) hne
    | closeWrite => exact fun _ => ⟨rfl, nofun⟩
  have hid : command.writeId = some (t.nextWriteId + 1) := by cases hadmits <;> rfl
  refine ⟨rfl, Nat.le_succ _, fun c hc id hcid => ?_, fun _ e he hzero => ?_, fun _ e he => List.mem_append_left _ he,
    fun _ h => ?_, fun _ => rfl, id, .inl⟩
  · rw [List.mem_singleton.mp hc, hid] at hcid
    cases hcid
    exact ⟨Nat.lt_succ_self _, Nat.le_refl _⟩
  · rcases List.mem_append.mp he with he | he
    · exact .inl he
    · rw [List.mem_singleton.mp he] at hzero ⊢
      refine .inr ⟨Nat.lt_succ_self _, Nat.le_refl _, fun data hmem => ?_⟩
      exact (hbytes hzero).2 _ data (List.mem_singleton.mp hmem).symm
  · refine .inr ⟨⟨t.nextWriteId + 1, byteCount⟩, List.mem_append_right _ (.head _), ?_⟩
    cases hadmits with
    | write => exact absurd (hunfinished.symm.trans h) nofun
    | closeWrite => rfl

theorem Acts.move {P : Call → Prop} {Q : Event → Prop} (hQ : ∀ event, Q event → ∃ bytes, event = .data bytes)
    (hmove : Move P Q t t' posted results) : Acts t t' posted results := by
  have hnot {event : Event} (hne : ∀ bytes, event ≠ .data bytes) : ¬ Q event := fun h => (hQ event h).elim hne
  cases hmove with
  | input => exact .quiet (List.append_nil _).symm (by simp) rfl rfl rfl rfl rfl
  | reading on =>
    rw [post_eq]
    refine .quiet rfl (fun c hc => ?_) rfl rfl rfl rfl rfl
    rw [mem_postedBy hc]
    cases on <;> rfl
  | credit =>
    rw [post_eq]
    exact .quiet rfl (fun c hc => mem_postedBy hc ▸ rfl) rfl rfl rfl rfl rfl
  | admitted _ _ hunfinished hadmits => exact .issue hunfinished hadmits
  | @refused _ command byteCount finished _ _ _ hadmits result hfailed =>
    have hid : command.writeId = some (t.nextWriteId + 1) := by cases hadmits <;> rfl
    rw [PosixFdTransport.issue, post_eq]
    refine .teardown ?_ ?_ (fun c hc id hcid => ?_) (.inr (.inr ⟨result, .head _, hfailed⟩)) _ _ _
    · rfl
    · exact Nat.le_succ _
    · rw [mem_postedBy hc, hid] at hcid
      cases hcid
      exact ⟨Nat.lt_succ_self _, Nat.le_refl _⟩
  | failed _ result hfailed =>
    exact .teardown (List.append_nil _).symm (Nat.le_refl _) (by simp)
      (.inr (.inr ⟨result, .head _, hfailed⟩)) _ _ _
  | close result =>
    rw [post_eq]
    refine .teardown ?_ ?_ (fun c hc id hcid => ?_) (.inr ?_) _ _ _
    · rfl
    · exact Nat.le_refl _
    · rw [mem_postedBy hc] at hcid
      cases hcid
    · by_cases hstopped : result = .stopped
      · exact .inr ⟨result, .head _, by simp [hstopped]⟩
      · exact .inl (by rw [postedBy, if_neg hstopped]; exact .head _)
  | eof h | acknowledged _ h | dropped _ h => exact absurd h (hnot (by simp))
  | finished h => exact h.elim (absurd · (hnot (by simp))) fun h => h.elim fun _ h => absurd h (hnot (by simp))
  | ended h =>
    rcases h with ⟨_, h⟩ | ⟨_, _, h⟩ | h
    all_goals exact absurd h (hnot (by simp))

theorem Acts.moves {P : Call → Prop} {Q : Event → Prop} (hQ : ∀ event, Q event → ∃ bytes, event = .data bytes)
    (h : Moves P Q t t' posted results) : Acts t t' posted results :=
  h.related .refl .trans (.move hQ)

theorem Acts.call (t : PosixFdTransport) (c : Call) : ∃ posted, Acts t (c.run t) posted c.results := by
  obtain ⟨posted, hmoves⟩ := moves_call (P := fun _ => True) (Q := fun _ => False) (c := c) trivial t
  exact ⟨posted, .moves (fun _ => False.elim) hmoves⟩

end PosixFdTransport

/-! ## The two halves of an adopted descriptor

The caller's half is open and the entry of the shard too; `cs` is what the shard has still to read, `events` what the
caller's half has still to handle. -/

structure Link (t : PosixFdTransport) (r : Reactor) (cs : List Command) (events : List Event) : Prop where
  queued : ∀ id ∈ r.writeIds, id ≤ t.nextWriteId
  shut : ∀ id, r.shutdownWriteId = some id → id ≤ t.nextWriteId
  unread : ∀ c ∈ cs, ∀ id, c.writeId = some id → id ≤ t.nextWriteId
  acknowledged : ∀ id, .writeOk id ∈ events → id ≤ t.nextWriteId
  /-- A half-close that waits is no write; its acknowledgement is sent once it was carried out. -/
  halves : ∀ e ∈ t.writeCompletions, e.byteCount = 0 → e.id ≤ t.nextWriteId ∧ e.id ∉ r.writeIds ∧
    (∀ data, .write e.id data ∉ cs) ∧ (.writeOk e.id ∈ events → r.writeClosed = true)
  finished : t.writeFinished = true → (∃ e ∈ t.writeCompletions, e.byteCount = 0) ∨ r.writeClosed = true
  eof : .eof ∈ events ∨ t.readFinished = true → r.readClosed = true
  quiet : ∀ e ∈ events, e.isTerminal = false

/-- A caller's half that closed has sent the command. -/
structure Linked (t : PosixFdTransport) (r : Reactor) (cs : List Command) (events : List Event) : Prop where
  closing : t.closed = true → .close ∈ cs
  link : t.closed = false → Link t r cs events

section Link

variable {t t' : PosixFdTransport} {r r1 r' : Reactor} {cs cs' posted : List Command} {events : List Event}
  {results : List SendResult}

theorem Link.acts (h : Link t r cs events) (hacts : t.Acts t' posted results) (hopen : t'.closed = false) :
    Link t' r (cs ++ posted) events where
  queued := fun id hid => Nat.le_trans (h.queued id hid) hacts.next
  shut := fun id hid => Nat.le_trans (h.shut id hid) hacts.next
  unread := by
    intro c hc id hid
    rcases List.mem_append.mp hc with hc | hc
    · exact Nat.le_trans (h.unread c hc id hid) hacts.next
    · exact (hacts.ids c hc id hid).2
  acknowledged := fun id hid => Nat.le_trans (h.acknowledged id hid) hacts.next
  halves := by
    intro e he hzero
    rcases hacts.halves hopen e he hzero with hold | ⟨hfresh, hle, hnot⟩
    · obtain ⟨hle, hqueued, hunread, hack⟩ := h.halves e hold hzero
      refine ⟨Nat.le_trans hle hacts.next, hqueued, fun data hmem => ?_, hack⟩
      rcases List.mem_append.mp hmem with hmem | hmem
      · exact hunread data hmem
      · have hbounds := hacts.ids _ hmem e.id rfl
        omega
    -- the id is new, so nothing on the other side knows it
    · refine ⟨hle, fun hmem => ?_, fun data hmem => ?_, fun hack => ?_⟩
      · have hbound := h.queued e.id hmem
        omega
      · rcases List.mem_append.mp hmem with hmem | hmem
        · have hbound := h.unread _ hmem e.id rfl
          omega
        · exact hnot data hmem
      · have hbound := h.acknowledged e.id hack
        omega
  finished := by
    intro hfinished
    rcases hacts.finished hopen hfinished with hold | hzero
    · rcases h.finished hold with ⟨e, he, hzero⟩ | hshut
      · exact .inl ⟨e, hacts.kept hopen e he, hzero⟩
      · exact .inr hshut
    · exact .inl hzero
  eof := by
    rw [hacts.read hopen]
    exact h.eof
  quiet := h.quiet

/-- A step of the shard: it read `command`, or the poller reported something. -/
theorem Link.step (h : Link t r cs events) {command : Command} (hcommand : command ∈ cs ∨ command.writeId = none)
    (hprepared : r.Prepared command r1) (hgoing : r1.Going r') (hrest : ∀ c ∈ cs', c ∈ cs) :
    Link t { r' with outbox := [] } cs' (events ++ r'.outbox) := by
  have hread : ∀ id, command.writeId = some id → command ∈ cs := by
    intro id hid
    rcases hcommand with hmem | hnone
    · exact hmem
    · rw [hnone] at hid
      cases hid
  have hqueued : ∀ id ∈ r1.writeIds, id ≤ t.nextWriteId := by
    intro id hid
    rcases hprepared.writes id hid with hid | ⟨data, rfl⟩
    · exact h.queued id hid
    · exact h.unread _ (hread id rfl) id rfl
  have hshut : ∀ id, r1.shutdownWriteId = some id → id ≤ t.nextWriteId := by
    intro id hid
    rcases hprepared.shutdown id hid with hid | rfl
    · exact h.shut id hid
    · exact h.unread _ (hread id rfl) id rfl
  have hapart : ∀ e ∈ t.writeCompletions, e.byteCount = 0 → e.id ∉ r1.writeIds := by
    intro e he hzero hmem
    obtain ⟨-, hnot, hunread, -⟩ := h.halves e he hzero
    rcases hprepared.writes e.id hmem with hmem | ⟨data, rfl⟩
    · exact hnot hmem
    · exact hunread data (hread e.id rfl)
  have hwrite : r.writeClosed = true → r'.writeClosed = true := fun hw => hgoing.write (hprepared.write.trans hw)
  exact {
    queued := fun id hid => hqueued id (hgoing.writes id hid)
    shut := fun id hid => hshut id (hgoing.shutdown ▸ hid)
    unread := fun c hc => h.unread c (hrest c hc)
    acknowledged := by
      intro id hid
      rcases List.mem_append.mp hid with hid | hid
      · exact h.acknowledged id hid
      · rcases hgoing.acknowledged id hid with hid | ⟨-, hid⟩
        · exact hqueued id hid
        · exact hshut id (hgoing.shutdown ▸ hid)
    halves := by
      intro e he hzero
      obtain ⟨hle, -, hunread, hack⟩ := h.halves e he hzero
      refine ⟨hle, fun hmem => hapart e he hzero (hgoing.writes _ hmem), fun data hmem => hunread data (hrest _ hmem),
        fun hmem => ?_⟩
      rcases List.mem_append.mp hmem with hmem | hmem
      · exact hwrite (hack hmem)
      · rcases hgoing.acknowledged _ hmem with hmem | ⟨hshut, -⟩
        · exact absurd hmem (hapart e he hzero)
        · exact hshut
    finished := fun hfinished => (h.finished hfinished).imp_right hwrite
    eof := by
      intro heof
      have hold : .eof ∈ events ∨ t.readFinished = true → r'.readClosed = true := fun heof =>
        hgoing.read (hprepared.read.trans (h.eof heof))
      rcases heof with heof | heof
      · rcases List.mem_append.mp heof with heof | heof
        · exact hold (.inl heof)
        · exact hgoing.eof heof
      · exact hold (.inr heof)
    quiet := by
      intro e he
      rcases List.mem_append.mp he with he | he
      · exact h.quiet e he
      · exact hgoing.quiet e he }

/-- Fewer events, and a caller's half that differs in what a link does not look at. -/
theorem Link.handled {event : Event} (h : Link t r cs (event :: events)) (hnext : t'.nextWriteId = t.nextWriteId)
    (htable : ∀ e ∈ t'.writeCompletions, e ∈ t.writeCompletions)
    (hfinished : t'.writeFinished = true → (∃ e ∈ t'.writeCompletions, e.byteCount = 0) ∨ r.writeClosed = true)
    (hread : t'.readFinished = true → r.readClosed = true) : Link t' r cs events where
  queued := hnext ▸ h.queued
  shut := hnext ▸ h.shut
  unread := hnext ▸ h.unread
  acknowledged := fun id hid => hnext ▸ h.acknowledged id (List.mem_cons_of_mem _ hid)
  halves := by
    intro e he hzero
    obtain ⟨hle, hnot, hunread, hack⟩ := h.halves e (htable e he) hzero
    exact ⟨hnext ▸ hle, hnot, hunread, fun hmem => hack (List.mem_cons_of_mem _ hmem)⟩
  finished := hfinished
  eof := fun heof => heof.elim (fun hmem => h.eof (.inl (List.mem_cons_of_mem _ hmem))) hread
  quiet := fun e he => h.quiet e (List.mem_cons_of_mem _ he)

theorem Link.apart (h : Link t r cs events) (hapart : r.Apart)
    (hquiet : t.Quiet) : t.readFinished = true → t.writeFinished = false := by
  intro hread
  cases hwrite : t.writeFinished with
  | false => rfl
  | true =>
    rcases h.finished hwrite with ⟨e, he, -⟩ | hshut
    · rw [hquiet hwrite] at he
      cases he
    · rw [hapart (h.eof (.inr hread))] at hshut
      cases hshut

theorem maybeCompleteDone_eq (hapart : t.closed = false → t.readFinished = true → t.writeFinished = false) :
    t.maybeCompleteDone = t := by
  unfold PosixFdTransport.maybeCompleteDone
  split
  · rfl
  · next hopen =>
    rw [if_pos]
    cases hread : t.readFinished with
    | false => rfl
    | true => rw [hapart (by simpa using hopen) hread]; rfl

theorem Linked.acts (h : Linked t r cs events) (hacts : t.Acts t' posted results)
    (hresults : ∀ result ∈ results, result = .ok) : Linked t' r (cs ++ posted) events where
  closing := by
    intro hclosed
    rcases hacts.ends hclosed with hold | hclose | ⟨result, hmem, hne⟩
    · exact List.mem_append_left _ (h.closing hold)
    · exact List.mem_append_right _ hclose
    · exact absurd (hresults result hmem) hne
  link := fun hopen => (h.link (hacts.opened hopen)).acts hacts hopen

/-- An acknowledgement. That of the half-close finishes the write half, which the shard has closed by then; had it
closed the read half too, the entry would be gone. -/
theorem Link.writeAcknowledged {id : Nat} (h : Link t r cs (.writeOk id :: events))
    (hapart : r.Apart) (hopen : t.closed = false) :
    Linked (t.writeAcknowledged id) r cs events ∧ (t.writeAcknowledged id).mailbox = t.mailbox := by
  have hread : t.readFinished = true → r.readClosed = true := fun hread => h.eof (.inr hread)
  unfold PosixFdTransport.writeAcknowledged
  split
  case h_1 =>
    exact ⟨⟨fun hclosed => absurd (hopen.symm.trans hclosed) nofun,
      fun _ => h.handled rfl (fun _ he => he) h.finished hread⟩, rfl⟩
  case h_2 entry hfind =>
    obtain ⟨hmem, rfl⟩ := PosixFdTransport.find_id hfind
    have htable : ∀ e ∈ (t.remove entry).writeCompletions, e ∈ t.writeCompletions := fun e he =>
      (List.mem_filter.mp he).1
    split
    case isTrue hzero =>
      have hshut : r.writeClosed = true := (h.halves entry hmem hzero).2.2.2 List.mem_cons_self
      have hsame : { (t.remove entry).complete entry.id .value with writeFinished := true }.maybeCompleteDone =
          { (t.remove entry).complete entry.id .value with writeFinished := true } := by
        refine maybeCompleteDone_eq fun _ hfinished => ?_
        have hclosed := hapart (hread hfinished)
        rw [hshut] at hclosed
        cases hclosed
      rw [hsame]
      exact ⟨⟨fun hclosed => absurd (hopen.symm.trans hclosed) nofun,
        fun _ => h.handled rfl htable (fun _ => .inr hshut) hread⟩, rfl⟩
    case isFalse hbytes =>
      refine ⟨⟨fun hclosed => absurd (hopen.symm.trans hclosed) nofun, fun _ =>
        h.handled rfl htable (fun hfinished => ?_) hread⟩,
        rfl⟩
      rcases h.finished hfinished with ⟨e, he, hzero⟩ | hshut
      · -- the half-close that waits, unless it is the one acknowledged
        by_cases hid : e.id = entry.id
        · exact .inr ((h.halves e he hzero).2.2.2 (hid ▸ List.mem_cons_self))
        · exact .inl ⟨e, List.mem_filter.mpr ⟨he, by simpa using hid⟩, hzero⟩
      · exact .inr hshut

/-- The oldest event is handled. -/
theorem Linked.deliver {event : Event} (h : Linked t r cs (event :: events))
    (hapart : r.Apart) {reaction : PosixFdTransport.Reaction}
    {ack enable : SendResult} (hresults : ∀ result ∈ Descriptor.handling reaction ack enable, result = .ok)
    (horder : event = .eof → t.Quiet ∧ ∀ result, PosixFdTransport.Call.closeWrite result ∉ reaction) :
    ∃ posted, (t.handleReactorEvent event reaction ack enable).mailbox = t.mailbox ++ posted ∧
      Linked (t.handleReactorEvent event reaction ack enable) r (cs ++ posted) events := by
  have hreaction : ∀ result ∈ reaction.flatMap PosixFdTransport.Call.results, result = .ok := fun result hmem =>
    hresults result (List.mem_append_left _ hmem)
  unfold PosixFdTransport.handleReactorEvent
  split
  case isTrue hclosed =>
    refine ⟨[], (List.append_nil _).symm, ?_⟩
    rw [List.append_nil]
    exact ⟨h.closing, fun hopen => by rw [hclosed] at hopen; cases hopen⟩
  case isFalse hopen =>
    have hopen : t.closed = false := by simpa using hopen
    have hlink := h.link hopen
    have hread : t.readFinished = true → r.readClosed = true := fun hread => hlink.eof (.inr hread)
    have hkept : Linked t r cs events :=
      ⟨fun hclosed => absurd (hopen.symm.trans hclosed) nofun, fun _ =>
        hlink.handled rfl (fun _ he => he) hlink.finished hread⟩
    have hquiet := hlink.quiet event List.mem_cons_self
    cases event with
    | data bytes =>
      obtain ⟨posted, hmoves⟩ := PosixFdTransport.moves_event (P := fun _ => True) (Q := (· = .data bytes)) rfl
        (fun _ _ => trivial) ack enable t
      have hacts := PosixFdTransport.Acts.moves (fun _ h => ⟨bytes, h⟩) hmoves
      simp only [PosixFdTransport.handleReactorEvent, hopen, if_neg Bool.false_ne_true] at hacts
      exact ⟨posted, hacts.mailbox, hkept.acts hacts hresults⟩
    | eof =>
      obtain ⟨htquiet, hcalls⟩ := horder rfl
      dsimp only
      have htold : Linked { t with readFinished := true, inputClosed := true } r cs events :=
        ⟨fun hclosed => absurd (hopen.symm.trans hclosed) nofun,
          fun _ => hlink.handled rfl (fun _ he => he) hlink.finished fun _ => hlink.eof (.inl List.mem_cons_self)⟩
      obtain ⟨posted, hmoves⟩ := PosixFdTransport.moves_react (P := fun c => ∀ result, c ≠ .closeWrite result)
        (Q := fun _ => False) (fun c hc result heq => hcalls result (heq ▸ hc))
        { t with readFinished := true, inputClosed := true }
      have hacts := PosixFdTransport.Acts.moves (fun _ => False.elim) hmoves
      have hlinked := htold.acts hacts hreaction
      have hquiet : { t with readFinished := true, inputClosed := true }.Quiet := htquiet
      have hsame : ({ t with readFinished := true, inputClosed := true }.react reaction).maybeCompleteDone =
          { t with readFinished := true, inputClosed := true }.react reaction :=
        maybeCompleteDone_eq fun hstill => (hlinked.link hstill).apart hapart
          (hmoves.invariant (PosixFdTransport.Quiet.move fun result hne => hne result rfl) hquiet)
      rw [hsame]
      exact ⟨posted, hacts.mailbox, hlinked⟩
    | readError message => cases hquiet
    | writeOk id =>
      obtain ⟨hlinked, hmailbox⟩ := hlink.writeAcknowledged hapart hopen
      exact ⟨[], by rw [List.append_nil]; exact hmailbox, by rw [List.append_nil]; exact hlinked⟩
    | writeError id message => cases hquiet
    | closed => cases hquiet

theorem linked_adopted (config : Config) (hwrites : r.writes = []) (hshut : r.shutdownWriteId = none) :
    Linked (.adopted config) r [] [] where
  closing := nofun
  link := fun _ => {
    queued := by simp [Reactor.writeIds, hwrites]
    shut := by simp [hshut]
    unread := by simp
    acknowledged := by simp
    halves := nofun
    finished := nofun
    eof := by simp [PosixFdTransport.adopted]
    quiet := by simp }

end Link

end TailscaleDart.Fd
