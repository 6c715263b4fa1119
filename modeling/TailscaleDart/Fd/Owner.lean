import Mathlib.Data.List.Permutation
import TailscaleDart.Fd.Halves

/-!
# Fd.Owner — a descriptor has one owner, who closes it once

Under way from `adopt` to a shard a descriptor belongs to the main isolate, to a request in a shard's queue, to an entry
of a shard's table, or to nobody because it is closed (`Owner`). What can break this is the main isolate taking a live
shard for one that has ended: a request it gave up is processed after all, and a proxy it marked closed takes no more
commands, also not the one that closes. And it is the end of input meeting a half-close that waits for its writes, which
ends the transport without a command to the shard. `Orderly` excludes the three.
-/

namespace TailscaleDart.Fd

/-! ## The owner -/

namespace Shard

/-- Nothing of the descriptor was ever sent there, or it was lost with the shard. -/
def Blank (shard : Shard) : Prop := shard.commands = [] ∧ shard.states = []

/-- The descriptor is not there and is not asked for; commands for a state that is gone may be left. -/
def Idle (shard : Shard) : Prop := (∀ id, .register id ∉ shard.commands) ∧ shard.states = []

/-- A proxy is marked closed only once the shard has ended, and a shard that ended has nothing. -/
def Fine (shard : Shard) : Prop :=
  (shard.proxyClosed = true → shard.running = false) ∧ (shard.running = false → shard.Blank)

variable {shard : Shard} {requests : List Request}

theorem Blank.idle (h : shard.Blank) : shard.Idle := by
  refine ⟨fun id hmem => ?_, h.2⟩
  rw [h.1] at hmem
  cases hmem

theorem post_stopped (h : shard.running = false) : shard.post requests = shard := by
  unfold Shard.post
  rw [h]
  rfl

theorem post_running (h : shard.running = true) :
    shard.post requests = { shard with commands := shard.commands ++ requests } := by
  unfold Shard.post
  rw [h]
  rfl

theorem Fine.running (h : shard.Fine) (hsome : ¬ shard.Blank) : shard.running = true := by
  cases hrunning : shard.running with
  | true => rfl
  | false => exact absurd (h.2 hrunning) hsome

theorem Fine.post (h : shard.Fine) {proxyClosed : Bool} (hproxy : proxyClosed = true → shard.running = false) :
    { shard.post requests with proxyClosed := proxyClosed }.Fine := by
  cases hrunning : shard.running with
  | true =>
    rw [post_running hrunning]
    exact ⟨hproxy, fun hended => by rw [hrunning] at hended; cases hended⟩
  | false =>
    rw [post_stopped hrunning]
    exact ⟨fun _ => hrunning, fun hended => h.2 hended⟩

end Shard

namespace Descriptor

variable {d d' : Descriptor}

@[simp] theorem setShard_self (i : Nat) (shard : Shard) (d : Descriptor) : (d.setShard i shard).shards i = shard := by
  simp [setShard]

variable {i j : Nat}

theorem setShard_ne (h : j ≠ i) (shard : Shard) (d : Descriptor) : (d.setShard i shard).shards j = d.shards j := by
  simp [setShard, h]

theorem forall_setShard_elsewhere {P : Shard → Prop} (h : ∀ j, j ≠ i → P (d.shards j)) {shard : Shard} (hi : P shard) :
    ∀ j, P ((d.setShard i shard).shards j) := by
  intro j
  by_cases hj : j = i
  · rw [hj, setShard_self]
    exact hi
  · rw [setShard_ne hj]
    exact h j hj

theorem forall_setShard {P : Shard → Prop} (h : ∀ j, P (d.shards j)) {shard : Shard} (hi : P shard) :
    ∀ j, P ((d.setShard i shard).shards j) := forall_setShard_elsewhere (fun j _ => h j) hi

/-- The same of every other shard than `k`. -/
theorem elsewhere_setShard {P : Shard → Prop} {k : Nat} (h : ∀ j, j ≠ k → P (d.shards j)) {shard : Shard}
    (hi : i ≠ k → P shard) : ∀ j, j ≠ k → P ((d.setShard i shard).shards j) := by
  intro j hjk
  by_cases hj : j = i
  · rw [hj, setShard_self]
    exact hi (hj ▸ hjk)
  · rw [setShard_ne hj]
    exact h j hjk

theorem eq_of_elsewhere (helsewhere : ∀ k, k ≠ j → (d.shards k).Blank) (hsome : ¬ (d.shards i).Blank) : i = j :=
  of_not_not fun hne => hsome (helsewhere i hne)

/-- What holds besides the ownership. -/
structure Sound (d : Descriptor) : Prop where
  shards : ∀ i, (d.shards i).Fine
  replies : ∀ p ∈ d.replies, p.1 ≤ d.nextTransportId
  mailbox : d.transport.mailbox = []

/-- Nothing has happened to the transport, and the descriptor is open. -/
structure Untouched (d : Descriptor) : Prop where
  transport : d.transport = .adopted d.config
  events : d.events = []
  calls : .close ∉ d.calls

/-- An entry nobody has sent a command. -/
structure Unused (r : Reactor) : Prop where
  opened : r.closed = false
  sent : r.outbox = []
  writes : r.writes = []
  readEnabled : r.readEnabled = false
  readClosed : r.readClosed = false
  closingWrite : r.closingWrite = false
  shutdownWriteId : r.shutdownWriteId = none

theorem Unused.apart {r : Reactor} (h : Unused r) : r.Apart := by
  rw [Reactor.Apart, h.readClosed]
  nofun

/-- Closed, once, and nothing was done with it afterwards. -/
def ClosedOnce (calls : List FdCall) : Prop := ∃ before, calls = before ++ [.close] ∧ .close ∉ before

inductive Owner (d : Descriptor) : Prop
  /-- The main isolate: no request is under way, or the one it waits for was refused or lost. -/
  | caller (shards : ∀ i, (d.shards i).Blank) (untouched : d.Untouched)
      (stage : (∃ attempt, d.stage = .seeking attempt) ∨
        ∃ attempt i id, d.stage = .registering attempt i id ∧ (id, true) ∉ d.replies)
  /-- A request in a shard's queue. -/
  | request (attempt i id : Nat) (stage : d.stage = .registering attempt i id)
      (commands : (d.shards i).commands = [.register id]) (states : (d.shards i).states = [])
      (elsewhere : ∀ j, j ≠ i → (d.shards j).Blank) (untouched : d.Untouched) (known : id ≤ d.nextTransportId)
      (reply : ∀ ok, (id, ok) ∉ d.replies)
  /-- An entry the main isolate has not heard of. -/
  | entry (attempt i id : Nat) (r : Reactor) (stage : d.stage = .registering attempt i id)
      (commands : (d.shards i).commands = []) (states : (d.shards i).states = [⟨id, r⟩])
      (elsewhere : ∀ j, j ≠ i → (d.shards j).Blank) (untouched : d.Untouched) (unused : Unused r)
      (reply : (id, true) ∈ d.replies ∧ (id, false) ∉ d.replies)
  /-- The entry of an adopted transport. -/
  | shard (i id : Nat) (r : Reactor) (cs : List Command) (stage : d.stage = .adopted i id)
      (commands : (d.shards i).commands = cs.map (.command id)) (states : (d.shards i).states = [⟨id, r⟩])
      (elsewhere : ∀ j, j ≠ i → (d.shards j).Blank) (opened : r.closed = false) (sent : r.outbox = [])
      (apart : r.Apart) (linked : Linked d.transport r cs d.events)
      (calls : .close ∉ d.calls)
  /-- Nobody. -/
  | closed (shards : ∀ i, (d.shards i).Idle) (calls : ClosedOnce d.calls)
      (stage : d.stage = .failed ∨ (∃ i id, d.stage = .adopted i id) ∨
        ∃ attempt i id, d.stage = .registering attempt i id ∧ (id, true) ∈ d.replies ∧ (id, false) ∉ d.replies)

structure Owned (d : Descriptor) : Prop where
  sound : d.Sound
  owner : d.Owner

/-- The main isolate takes a shard for ended only once it has: a request times out when its shard has ended and has not
granted it, a send is refused or its wake fails, and another transport marks the proxy closed, when the shard has
ended. And the end of input meets no half-close that waits, neither one called before nor one the listener calls on
being told. -/
def Orderly : Action → Descriptor → Prop
  | .register i result, d => result ≠ .ok → (d.shards i).running = false
  | .timesOut, d => ∀ attempt i id, d.stage = .registering attempt i id →
      (d.shards i).running = false ∧ (id, true) ∉ d.replies
  | .call c, d => ∀ i id, d.stage = .adopted i id → (∃ result ∈ c.results, result ≠ .ok) → (d.shards i).running = false
  | .deliver r ack enable, d =>
    (∀ i id, d.stage = .adopted i id → (∃ result ∈ handling r ack enable, result ≠ .ok) →
      (d.shards i).running = false) ∧
    (d.events.head? = some .eof → d.transport.Quiet ∧ ∀ result, PosixFdTransport.Call.closeWrite result ∉ r)
  | .markClosed i, d => (d.shards i).running = false
  | _, _ => True

/-! ## Adopting -/

variable {results : List SendResult}

/-- A proxy is closed after some sends because it was before or because one of them failed. -/
theorem refusals_closed {refused closed : Bool} (h : refusals refused results = some closed)
    (hclosed : closed = true) : refused = true ∨ ∃ result ∈ results, result ≠ .ok := by
  induction results generalizing refused with
  | nil =>
    cases h
    exact .inl hclosed
  | cons result rest ih =>
    rcases ih (refusals_cons h).2 with hrefused | ⟨failed, hmem, hne⟩
    · by_cases hresult : result = .ok
      · exact .inl (by simpa [hresult] using hrefused)
      · exact .inr ⟨result, .head _, hresult⟩
    · exact .inr ⟨failed, .tail _ hmem, hne⟩

theorem Owned.fail (hsound : d.Sound) (hshards : ∀ i, (d.shards i).Blank) (hcalls : .close ∉ d.calls) :
    d.fail.Owned where
  sound := { hsound with }
  owner := .closed (fun i => (hshards i).idle) ⟨d.calls, rfl, hcalls⟩ (.inl rfl)

theorem Owned.retry (hsound : d.Sound) (hshards : ∀ i, (d.shards i).Blank) (huntouched : d.Untouched) (attempt : Nat) :
    (d.retry attempt).Owned := by
  unfold Descriptor.retry
  split
  · exact ⟨{ hsound with }, .caller hshards { huntouched with } (.inl ⟨1, rfl⟩)⟩
  · exact .fail hsound hshards huntouched.calls

theorem Owner.of_seeking (h : d.Owner) {attempt : Nat} (hstage : d.stage = .seeking attempt) :
    (∀ i, (d.shards i).Blank) ∧ d.Untouched := by
  cases h with
  | caller shards untouched stage => exact ⟨shards, untouched⟩
  | request _ _ _ stage | entry _ _ _ _ stage | shard _ _ _ _ stage => cases hstage.symm.trans stage
  | closed _ _ stage =>
    rcases stage with stage | ⟨_, _, stage⟩ | ⟨_, _, _, stage, _⟩
    all_goals cases hstage.symm.trans stage

theorem Owned.register (h : d.Owned) {result : SendResult} (hok : Orderly (.register i result) d)
    (hstep : d.register i result = some d') : d'.Owned := by
  unfold Descriptor.register at hstep
  split at hstep
  case h_2 => cases hstep
  case h_1 attempt hstage =>
    obtain ⟨hblank, huntouched⟩ := h.owner.of_seeking hstage
    obtain ⟨closed, hrefusals, rfl⟩ := Option.map_eq_some_iff.mp hstep
    have hproxy : closed = true → (d.shards i).running = false := by
      intro hclosed
      rcases refusals_closed hrefusals hclosed with hrefused | ⟨failed, hmem, hne⟩
      · exact (h.sound.shards i).1 hrefused
      · exact hok (List.mem_singleton.mp hmem ▸ hne)
    have hreplies : ∀ p ∈ d.replies, p.1 ≤ d.nextTransportId + 1 := fun p hp => Nat.le_succ_of_le (h.sound.replies p hp)
    have hnew : ∀ ok, (d.nextTransportId + 1, ok) ∉ d.replies := by
      intro ok hmem
      have hle := h.sound.replies _ hmem
      dsimp only at hle
      omega
    dsimp only
    by_cases hresult : result = .ok
    · have hsent : (if result = .stopped then d.shards i else (d.shards i).post [.register (d.nextTransportId + 1)]) =
          (d.shards i).post [.register (d.nextTransportId + 1)] := if_neg (by rw [hresult]; decide)
      rw [hsent, if_pos hresult]
      have hsound : ∀ j, ((d.setShard i { (d.shards i).post [.register (d.nextTransportId + 1)] with
          proxyClosed := closed }).shards j).Fine := forall_setShard h.sound.shards ((h.sound.shards i).post hproxy)
      refine ⟨⟨hsound, hreplies, h.sound.mailbox⟩, ?_⟩
      have huntouched' := ({ huntouched with } : Untouched
        { d.setShard i { (d.shards i).post [.register (d.nextTransportId + 1)] with proxyClosed := closed } with
          nextTransportId := d.nextTransportId + 1, stage := .registering attempt i (d.nextTransportId + 1) })
      cases hrunning : (d.shards i).running with
      | true =>
        rw [Shard.post_running hrunning, (hblank i).1] at huntouched' ⊢
        exact .request attempt i (d.nextTransportId + 1) rfl (congrArg Shard.commands (setShard_self i _ d))
          ((congrArg Shard.states (setShard_self i _ d)).trans (hblank i).2)
          (elsewhere_setShard (fun j _ => hblank j) fun hne => absurd rfl hne) huntouched' (Nat.le_refl _) hnew
      | false =>
        rw [Shard.post_stopped hrunning] at huntouched' ⊢
        exact .caller (forall_setShard hblank (hblank i)) huntouched' (.inr ⟨attempt, i, _, rfl, hnew true⟩)
    · have hended := hok hresult
      rw [if_neg hresult, Shard.post_stopped hended, ite_self]
      refine .retry ?_ ?_ ?_ attempt
      · exact ⟨forall_setShard h.sound.shards ⟨fun _ => hended, (h.sound.shards i).2⟩, hreplies, h.sound.mailbox⟩
      · exact forall_setShard hblank (hblank i)
      · exact { huntouched with }

theorem Owned.spawnFails (h : d.Owned) (hstep : d.spawnFails = some d') : d'.Owned := by
  unfold Descriptor.spawnFails at hstep
  split at hstep
  case h_1 attempt hstage =>
    obtain ⟨hblank, huntouched⟩ := h.owner.of_seeking hstage
    cases hstep
    exact .fail h.sound hblank huntouched.calls
  case h_2 => cases hstep

/-- A shard that has nothing of the descriptor, and gets nothing of it, is not the owner's. -/
theorem Owner.setShard (h : d.Owner) (hblank : (d.shards i).Blank) {shard : Shard} (hgone : shard.Blank) :
    (d.setShard i shard).Owner := by
  -- the shard of the owner is another one
  have hsame : ∀ {j : Nat}, ¬ (d.shards j).Blank → (d.setShard i shard).shards j = d.shards j := fun {j} hsome =>
    setShard_ne (fun heq : j = i => hsome (heq ▸ hblank)) shard d
  cases h with
  | caller shards untouched stage => exact .caller (forall_setShard shards hgone) { untouched with } stage
  | request attempt j id stage commands states elsewhere untouched known reply =>
    have hsame := hsame fun hj => by rw [hj.1] at commands; cases commands
    exact .request attempt j id stage (hsame ▸ commands) (hsame ▸ states) (elsewhere_setShard elsewhere fun _ => hgone)
      { untouched with } known reply
  | entry attempt j id r stage commands states elsewhere untouched unused reply =>
    have hsame := hsame fun hj => by rw [hj.2] at states; cases states
    exact .entry attempt j id r stage (hsame ▸ commands) (hsame ▸ states) (elsewhere_setShard elsewhere fun _ => hgone)
      { untouched with } unused reply
  | shard j id r cs stage commands states elsewhere opened sent apart linked calls =>
    have hsame := hsame fun hj => by rw [hj.2] at states; cases states
    exact .shard j id r cs stage (hsame ▸ commands) (hsame ▸ states)
      (elsewhere_setShard elsewhere fun _ => hgone) opened sent apart linked calls
  | closed shards calls stage => exact .closed (forall_setShard shards hgone.idle) calls stage

theorem Owned.markClosed (h : d.Owned) (hended : (d.shards i).running = false) : (d.markClosed i).Owned := by
  have hblank := (h.sound.shards i).2 hended
  refine ⟨?_, h.owner.setShard hblank hblank⟩
  exact ⟨forall_setShard h.sound.shards ⟨fun _ => hended, fun _ => hblank⟩, h.sound.replies, h.sound.mailbox⟩

theorem Owned.timesOut (h : d.Owned) (hok : Orderly .timesOut d) (hstep : d.timesOut = some d') : d'.Owned := by
  unfold Descriptor.timesOut at hstep
  split at hstep
  case h_2 => cases hstep
  case h_1 attempt i id hstage =>
    cases hstep
    obtain ⟨hended, hreply⟩ := hok attempt i id hstage
    have hmarked := h.markClosed hended
    cases h.owner with
    | caller shards untouched stage =>
      have hblank : ∀ j, ((d.markClosed i).shards j).Blank := forall_setShard shards (shards i)
      exact .retry hmarked.sound hblank { untouched with } attempt
    | request _ _ _ stage commands =>
      cases hstage.symm.trans stage
      rw [((h.sound.shards i).2 hended).1] at commands
      cases commands
    | entry _ _ _ _ stage _ _ _ _ _ reply =>
      cases hstage.symm.trans stage
      exact absurd reply.1 hreply
    | shard _ _ _ _ stage => cases hstage.symm.trans stage
    | closed _ _ stage =>
      rcases stage with stage | ⟨_, _, stage⟩ | ⟨_, _, _, stage, reply, _⟩
      · cases hstage.symm.trans stage
      · cases hstage.symm.trans stage
      · cases hstage.symm.trans stage
        exact absurd reply hreply

variable {id : Nat} {ok : Bool}

theorem Owned.dropReply (h : d.Owned)
    (hother : ∀ attempt i awaited, d.stage = .registering attempt i awaited → id ≠ awaited) :
    Owned { d with replies := d.replies.erase (id, ok) } := by
  have hkept : ∀ {p : Nat × Bool}, p ∈ d.replies.erase (id, ok) → p ∈ d.replies := List.mem_of_mem_erase
  refine ⟨⟨h.sound.shards, fun p hp => h.sound.replies p (hkept hp), h.sound.mailbox⟩, ?_⟩
  cases h.owner with
  | caller shards untouched stage =>
    refine .caller shards { untouched with } ?_
    exact stage.imp_right fun ⟨attempt, i, awaited, stage, reply⟩ =>
      ⟨attempt, i, awaited, stage, fun hp => reply (hkept hp)⟩
  | request attempt i awaited stage commands states elsewhere untouched known reply =>
    exact .request attempt i awaited stage commands states elsewhere
      { untouched with } known fun ok hp => reply ok (hkept hp)
  | entry attempt i awaited r stage commands states elsewhere untouched unused reply =>
    have hne : (awaited, true) ≠ (id, ok) := fun heq => hother attempt i awaited stage (congrArg Prod.fst heq).symm
    exact .entry attempt i awaited r stage commands states elsewhere
      { untouched with } unused
      ⟨(List.mem_erase_of_ne hne).mpr reply.1, fun hp => reply.2 (hkept hp)⟩
  | shard i awaited r cs stage commands states elsewhere opened sent apart linked calls =>
    exact .shard i awaited r cs stage commands states elsewhere opened sent apart linked calls
  | closed shards calls stage =>
    refine .closed shards calls (stage.imp_right (Or.imp_right ?_))
    rintro ⟨attempt, i, awaited, stage, hgranted, hrefused⟩
    have hne : (awaited, true) ≠ (id, ok) := fun heq => hother attempt i awaited stage (congrArg Prod.fst heq).symm
    exact ⟨attempt, i, awaited, stage, (List.mem_erase_of_ne hne).mpr hgranted, fun hp => hrefused (hkept hp)⟩

theorem Owned.reply (h : d.Owned) (hstep : d.reply id ok = some d') : d'.Owned := by
  unfold Descriptor.reply at hstep
  split at hstep
  case isFalse => cases hstep
  case isTrue hmem =>
    have hkept : ∀ {p : Nat × Bool}, p ∈ d.replies.erase (id, ok) → p ∈ d.replies := List.mem_of_mem_erase
    have hsound : ∀ stage, Sound { d with replies := d.replies.erase (id, ok), stage := stage } := fun _ =>
      ⟨h.sound.shards, fun p hp => h.sound.replies p (hkept hp), h.sound.mailbox⟩
    dsimp only at hstep
    split at hstep
    case h_2 hstage =>
      cases hstep
      exact h.dropReply fun attempt i awaited stage => absurd stage (hstage attempt i awaited)
    case h_1 attempt i awaited hstage =>
      split at hstep
      case isFalse hid =>
        cases hstep
        refine h.dropReply fun _ _ _ stage heq => hid ?_
        cases hstage.symm.trans stage
        exact heq
      case isTrue hid =>
        cases hid
        cases hstep
        cases h.owner with
        | caller shards untouched stage =>
          rcases stage with ⟨_, stage⟩ | ⟨_, _, _, stage, reply⟩
          · cases hstage.symm.trans stage
          · cases hstage.symm.trans stage
            cases ok with
            | true => exact absurd hmem reply
            | false => exact .fail (hsound d.stage) shards untouched.calls
        | request _ _ _ stage _ _ _ _ _ reply =>
          cases hstage.symm.trans stage
          exact absurd hmem (reply ok)
        | entry _ _ _ r stage commands states elsewhere untouched unused reply =>
          cases hstage.symm.trans stage
          cases ok with
          | false => exact absurd hmem reply.2
          | true =>
            have hlinked : Linked d.transport r [] d.events := by
              rw [untouched.transport, untouched.events]
              exact linked_adopted d.config unused.writes unused.shutdownWriteId
            exact ⟨hsound _, .shard i id r [] rfl commands states elsewhere unused.opened unused.sent unused.apart
              hlinked untouched.calls⟩
        | shard _ _ _ _ stage => cases hstage.symm.trans stage
        | closed shards calls stage =>
          rcases stage with stage | ⟨_, _, stage⟩ | ⟨_, _, _, stage, _, reply⟩
          · cases hstage.symm.trans stage
          · cases hstage.symm.trans stage
          · cases hstage.symm.trans stage
            cases ok with
            | false => exact absurd hmem reply
            | true => exact ⟨hsound _, .closed shards calls (.inr (.inl ⟨i, id, rfl⟩))⟩

/-! ## The shards -/

variable {r r' : Reactor}

theorem drop_calls {r1 : Reactor} (hcalls : r1.fdCalls = r.fdCalls) (h : r1.After r') :
    (r'.closed = false → .close ∉ r'.fdCalls.drop r.fdCalls.length) ∧
      (r'.closed = true → ClosedOnce (r'.fdCalls.drop r.fdCalls.length)) := by
  rcases h with hgoing | hended
  · obtain ⟨new, hnew, hno⟩ := hgoing.calls
    rw [hnew, hcalls, List.drop_left]
    exact ⟨fun _ => hno, fun hclosed => by rw [hgoing.opened] at hclosed; cases hclosed⟩
  · obtain ⟨new, hnew, hno⟩ := hended.calls
    rw [hnew, hcalls, List.append_assoc, List.drop_left]
    exact ⟨fun hopen => (by rw [hended.closed] at hopen; cases hopen), fun _ => ⟨new, rfl, hno⟩⟩

theorem ClosedOnce.after {before calls : List FdCall} (hbefore : .close ∉ before) (h : ClosedOnce calls) :
    ClosedOnce (before ++ calls) := by
  obtain ⟨more, rfl, hmore⟩ := h
  refine ⟨before ++ more, (List.append_assoc ..).symm, ?_⟩
  rw [List.mem_append, not_or]
  exact ⟨hbefore, hmore⟩

theorem put_open (hstates : (d.shards i).states = [⟨id, r⟩]) (hopen : r'.closed = false) :
    ((d.shards i).put id r').states = [⟨id, { r' with outbox := [] }⟩] := by
  simp [Shard.put, hopen, hstates]

theorem put_closed (hstates : (d.shards i).states = [⟨id, r⟩]) (hclosed : r'.closed = true) :
    ((d.shards i).put id r').states = [] := by
  simp [Shard.put, hclosed, hstates]

theorem Sound.stepped (h : d.Sound) (hsome : ¬ (d.shards i).Blank) : (d.stepped i id r r').Sound := by
  have hrunning := (h.shards i).running hsome
  refine ⟨forall_setShard h.shards ⟨(h.shards i).1, fun hended => ?_⟩, h.replies, h.mailbox⟩
  exact absurd (hrunning.symm.trans hended) nofun

/-- A step of the entry of an adopted transport; `cs` is what it had to read before. -/
theorem Owner.stepped {r1 : Reactor} {cs cs' : List Command} {command : Command} (hstage : d.stage = .adopted i id)
    (hcommands : (d.shards i).commands = cs'.map (.command id)) (hstates : (d.shards i).states = [⟨id, r⟩])
    (helsewhere : ∀ j, j ≠ i → (d.shards j).Blank) (hcalls : .close ∉ d.calls)
    (hlinked : Linked d.transport r cs d.events) (hcommand : command ∈ cs ∨ command.writeId = none)
    (hprepared : r.Prepared command r1) (hafter : r1.After r') (hrest : ∀ c ∈ cs', c ∈ cs)
    (hclosing : .close ∈ cs → .close ∈ cs' ∨ r'.closed = true) : (d.stepped i id r r').Owner := by
  obtain ⟨hopenCalls, hclosedCalls⟩ := drop_calls hprepared.calls hafter
  have hself : (d.stepped i id r r').shards i = (d.shards i).put id r' := setShard_self i _ d
  rcases hafter with hgoing | hended
  · have hopen := hgoing.opened
    refine .shard i id { r' with outbox := [] } cs' hstage (hself ▸ hcommands) (hself ▸ put_open hstates hopen)
      (elsewhere_setShard helsewhere fun hne => absurd rfl hne) hopen rfl hgoing.apart
      ⟨fun hclosed => ?_, fun hstill => ?_⟩ ?_
    · rcases hclosing (hlinked.closing hclosed) with hclose | hclosed
      · exact hclose
      · rw [hopen] at hclosed
        cases hclosed
    · exact (hlinked.link hstill).step hcommand hprepared hgoing hrest
    · exact fun hmem => (List.mem_append.mp hmem).elim hcalls (hopenCalls hopen)
  · refine .closed ?_ (.after hcalls (hclosedCalls hended.closed)) (.inr (.inl ⟨i, id, hstage⟩))
    refine forall_setShard_elsewhere (fun j hj => (helsewhere j hj).idle) ⟨fun id' hmem => ?_, ?_⟩
    · have hmem : .register id' ∈ cs'.map (Request.command id) := hcommands ▸ hmem
      obtain ⟨_, _, heq⟩ := List.mem_map.mp hmem
      cases heq
    · exact put_closed hstates hended.closed

/-- A step of an entry the main isolate has not heard of. -/
theorem Owner.stepped_unused {attempt : Nat} (hstage : d.stage = .registering attempt i id)
    (hcommands : (d.shards i).commands = []) (hstates : (d.shards i).states = [⟨id, r⟩])
    (helsewhere : ∀ j, j ≠ i → (d.shards j).Blank) (huntouched : d.Untouched)
    (hreply : (id, true) ∈ d.replies ∧ (id, false) ∉ d.replies)
    (h : (Unused r' ∧ r'.fdCalls = r.fdCalls) ∨ r.Ended r') : (d.stepped i id r r').Owner := by
  have hself : (d.stepped i id r r').shards i = (d.shards i).put id r' := setShard_self i _ d
  rcases h with ⟨hunused, hsame⟩ | hended
  · have hnothing : r'.fdCalls.drop r.fdCalls.length = [] := by rw [hsame, List.drop_length]
    refine .entry attempt i id { r' with outbox := [] } hstage (hself ▸ hcommands)
      (hself ▸ put_open hstates hunused.opened)
      (elsewhere_setShard helsewhere fun hne => absurd rfl hne) ⟨huntouched.transport, ?_, ?_⟩ ?_ hreply
    · show d.events ++ r'.outbox = []
      rw [huntouched.events, hunused.sent, List.nil_append]
    · show .close ∉ d.calls ++ r'.fdCalls.drop r.fdCalls.length
      rw [hnothing, List.append_nil]
      exact huntouched.calls
    · exact { hunused with sent := rfl }
  · have hclosedCalls := (drop_calls rfl (.inr hended)).2 hended.closed
    refine .closed ?_ (.after huntouched.calls hclosedCalls) (.inr (.inr ⟨attempt, i, id, hstage, hreply⟩))
    refine forall_setShard_elsewhere (fun j hj => (helsewhere j hj).idle) ?_
    exact Shard.Blank.idle ⟨hcommands, put_closed hstates hended.closed⟩

/-- The poller reports something: `step` is a drain or a flush. -/
theorem Owned.polled (h : d.Owned) {step : Reactor → Option Reactor}
    (hafter : ∀ {r r'}, r.Going r → step r = some r' → r.After r')
    (hunused : ∀ {r r'}, Unused r → step r = some r' → (Unused r' ∧ r'.fdCalls = r.fdCalls) ∨ r.Ended r')
    (hstep : d.act i id step = some d') : d'.Owned := by
  unfold Descriptor.act at hstep
  split at hstep
  case h_1 =>
    cases hstep
    exact h
  case h_2 found hfind =>
    obtain ⟨r', hrun, rfl⟩ := Option.map_eq_some_iff.mp hstep
    have hmem := List.mem_of_find?_eq_some hfind
    have hid : found.id = id := by simpa using List.find?_some hfind
    have hsome : ¬ (d.shards i).Blank := fun hblank => by rw [hblank.2] at hmem; cases hmem
    refine ⟨h.sound.stepped hsome, ?_⟩
    cases h.owner with
    | caller shards => exact absurd (shards i) hsome
    | request _ _ _ _ _ states elsewhere =>
      rw [eq_of_elsewhere elsewhere hsome, states] at hmem
      cases hmem
    | entry attempt j id' r stage commands states elsewhere untouched unused reply =>
      obtain rfl := eq_of_elsewhere elsewhere hsome
      rw [states] at hmem
      obtain rfl := List.mem_singleton.mp hmem
      cases hid
      exact .stepped_unused stage commands states elsewhere untouched reply (hunused unused hrun)
    | shard j id' r cs stage commands states elsewhere opened sent apart linked calls =>
      obtain rfl := eq_of_elsewhere elsewhere hsome
      rw [states] at hmem
      obtain rfl := List.mem_singleton.mp hmem
      cases hid
      exact .stepped stage commands states elsewhere calls linked
        (.inr (show Command.writeId .disableRead = none from rfl))
        (.refl .disableRead r) (hafter (.refl opened sent apart) hrun) (fun _ hc => hc) .inl
    | closed shards =>
      rw [(shards i).2] at hmem
      cases hmem

variable {updateOk : Bool}

theorem Unused.readReactorState (h : Unused r) {answers : List ReadAnswer} {eofOnAgain : Bool}
    (hrun : r.readReactorState answers eofOnAgain updateOk = some r') : Unused r' ∧ r'.fdCalls = r.fdCalls := by
  rw [Reactor.readReactorState, h.readEnabled] at hrun
  cases hrun
  exact ⟨h, rfl⟩

variable {shutdownOk : Bool} {answers : List WriteAnswer}

theorem Unused.flushReactorWrites (h : Unused r) (hrun : r.flushReactorWrites answers updateOk shutdownOk = some r') :
    (Unused r' ∧ r'.fdCalls = r.fdCalls) ∨ r.Ended r' := by
  unfold Reactor.flushReactorWrites at hrun
  split at hrun
  · cases hrun
    exact .inl ⟨h, rfl⟩
  · unfold Reactor.flushLoop at hrun
    rw [h.writes] at hrun
    cases hrun
    have hnothing : r.finishFlush updateOk shutdownOk = r.updateReactorInterest updateOk := by
      rw [Reactor.finishFlush, h.closingWrite, Bool.and_false, Bool.false_and, if_neg Bool.false_ne_true]
    rw [hnothing]
    have hrefl : r.Going r := .refl h.opened h.sent h.apart
    rcases hrefl.toUnclosed.updateReactorInterest updateOk with ⟨mask, heq⟩ | hended
    · rw [heq]
      exact .inl ⟨{ h with }, rfl⟩
    · exact .inr hended

variable {rest : List Request}

theorem Sound.dequeue (h : d.Sound) {request : Request} (hcommands : (d.shards i).commands = request :: rest)
    {states : List Entry} : (d.setShard i { d.shards i with commands := rest, states := states }).Sound := by
  have hrunning := (h.shards i).running fun hblank => by rw [hblank.1] at hcommands; cases hcommands
  refine ⟨forall_setShard h.shards ⟨(h.shards i).1, fun hended => ?_⟩, h.replies, h.mailbox⟩
  exact absurd (hrunning.symm.trans hended) nofun

theorem Owned.process_register (h : d.Owned) (hcommands : (d.shards i).commands = .register id :: rest) (ok : Bool) :
    Owned { d.setShard i (if ok then
        { d.shards i with commands := rest, states := (d.shards i).states ++ [⟨id, { config := d.config }⟩] }
      else { d.shards i with commands := rest }) with replies := d.replies ++ [(id, ok)] } := by
  have hsome : ¬ (d.shards i).Blank := fun hblank => by rw [hblank.1] at hcommands; cases hcommands
  cases h.owner with
  | caller shards => exact absurd (shards i) hsome
  | request attempt j id' stage commands states elsewhere untouched known reply =>
    obtain rfl := eq_of_elsewhere elsewhere hsome
    cases hcommands.symm.trans commands
    have hreplies : ∀ p ∈ d.replies ++ [(id, ok)], p.1 ≤ d.nextTransportId := by
      intro p hp
      rcases List.mem_append.mp hp with hp | hp
      · exact h.sound.replies p hp
      · rw [List.mem_singleton.mp hp]
        exact known
    have helsewhere : ∀ shard j, j ≠ i → ((d.setShard i shard).shards j).Blank := fun _ =>
      elsewhere_setShard elsewhere fun hne => absurd rfl hne
    cases ok with
    | true =>
      have hsound : (d.setShard i { d.shards i with
          commands := [], states := (d.shards i).states ++ [⟨id, { config := d.config }⟩] }).Sound :=
            h.sound.dequeue hcommands
      refine ⟨⟨hsound.shards, hreplies, hsound.mailbox⟩, ?_⟩
      refine .entry attempt i id { config := d.config } stage ?_ ?_ (helsewhere _)
        { untouched with } ⟨rfl, rfl, rfl, rfl, rfl, rfl, rfl⟩ ⟨?_, ?_⟩
      · exact congrArg Shard.commands (setShard_self i _ d)
      · refine (congrArg Shard.states (setShard_self i _ d)).trans ?_
        dsimp only
        rw [if_pos rfl, states, List.nil_append]
      · exact List.mem_append_right _ (List.mem_singleton_self _)
      · intro hmem
        rcases List.mem_append.mp hmem with hmem | hmem
        · exact reply false hmem
        · cases List.mem_singleton.mp hmem
    | false =>
      have hsound : (d.setShard i { d.shards i with commands := [], states := (d.shards i).states }).Sound :=
        h.sound.dequeue hcommands
      refine ⟨⟨hsound.shards, hreplies, hsound.mailbox⟩, ?_⟩
      refine .caller ?_ { untouched with }
        (.inr ⟨attempt, i, id, stage, fun hmem => ?_⟩)
      · exact forall_setShard_elsewhere elsewhere ⟨rfl, states⟩
      · rcases List.mem_append.mp hmem with hmem | hmem
        · exact reply true hmem
        · cases List.mem_singleton.mp hmem
  | entry _ _ _ _ _ commands _ elsewhere =>
    obtain rfl := eq_of_elsewhere elsewhere hsome
    cases hcommands.symm.trans commands
  | shard _ id' _ cs _ commands _ elsewhere =>
    obtain rfl := eq_of_elsewhere elsewhere hsome
    have hmem : .register id ∈ cs.map (Request.command id') := by
      rw [← commands, hcommands]
      exact List.mem_cons_self
    obtain ⟨_, _, heq⟩ := List.mem_map.mp hmem
    cases heq
  | closed shards => exact absurd (hcommands ▸ List.mem_cons_self) ((shards i).1 id)

theorem Owned.process_command (h : d.Owned) {command : Command}
    (hcommands : (d.shards i).commands = .command id command :: rest)
    (hstep : act i id (·.process command answers updateOk shutdownOk)
      (d.setShard i { d.shards i with commands := rest }) = some d') : d'.Owned := by
  have hsound : (d.setShard i { d.shards i with commands := rest }).Sound := h.sound.dequeue hcommands
  have hself : (d.setShard i { d.shards i with commands := rest }).shards i = { d.shards i with commands := rest } :=
    setShard_self i _ d
  have hsome : ¬ (d.shards i).Blank := fun hblank => by rw [hblank.1] at hcommands; cases hcommands
  unfold Descriptor.act at hstep
  cases h.owner with
  | caller shards => exact absurd (shards i) hsome
  | request _ _ _ _ commands _ elsewhere | entry _ _ _ _ _ commands _ elsewhere =>
    obtain rfl := eq_of_elsewhere elsewhere hsome
    cases hcommands.symm.trans commands
  | shard j id' r cs stage commands states elsewhere opened sent apart linked calls =>
    obtain rfl := eq_of_elsewhere elsewhere hsome
    cases cs with
    | nil => cases hcommands.symm.trans commands
    | cons first cs =>
      cases hcommands.symm.trans commands
      have hfind : ((d.setShard i { d.shards i with commands := cs.map (.command id) }).shards i).states.find?
          (·.id = id) = some ⟨id, r⟩ := by simp [states]
      rw [hfind] at hstep
      obtain ⟨r', hrun, rfl⟩ := Option.map_eq_some_iff.mp hstep
      obtain ⟨⟨r1, hprepared, hafter⟩, hclose⟩ := Reactor.after_process opened sent apart hrun
      refine ⟨hsound.stepped fun hblank => ?_, ?_⟩
      · rw [hself] at hblank
        cases states.symm.trans hblank.2
      · refine .stepped stage (congrArg Shard.commands hself) ((congrArg Shard.states hself).trans states)
          (elsewhere_setShard elsewhere fun hne => absurd rfl hne) calls linked
          (.inl List.mem_cons_self) hprepared hafter
          (fun c hc => List.mem_cons_of_mem _ hc) fun hmem => ?_
        rcases List.mem_cons.mp hmem with heq | hmem
        · exact .inr (hclose heq.symm)
        · exact .inl hmem
  | closed shards calls stage =>
    have hfind : ((d.setShard i { d.shards i with commands := rest }).shards i).states.find? (·.id = id) = none := by
      simp [(shards i).2]
    rw [hfind] at hstep
    cases hstep
    refine ⟨hsound, .closed (forall_setShard shards ⟨fun id' hmem => ?_, (shards i).2⟩) calls stage⟩
    exact (shards i).1 id' (hcommands ▸ List.mem_cons_of_mem _ hmem)

theorem Owned.process (h : d.Owned) (hstep : d.process i ok answers updateOk shutdownOk = some d') : d'.Owned := by
  unfold Descriptor.process at hstep
  split at hstep
  case h_1 => cases hstep
  case h_2 hcommands =>
    cases hstep
    exact h.process_register hcommands ok
  case h_3 hcommands => exact h.process_command hcommands hstep

/-- The entry is closed with its shard. -/
theorem Owner.stopped (hstates : (d.shards i).states = [⟨id, r⟩]) (hopen : r.closed = false)
    (hsent : r.outbox = []) (hapart : r.Apart)
    (helsewhere : ∀ j, j ≠ i → (d.shards j).Blank) (hcalls : .close ∉ d.calls) (error : Option String) :
    (∀ j, ((d.stop i error).shards j).Idle) ∧ ClosedOnce (d.stop i error).calls := by
  have hrefl : r.Going r := .refl hopen hsent hapart
  have hended := hrefl.toUnclosed.closeReactorState error
  constructor
  · exact forall_setShard_elsewhere (fun j hj => (helsewhere j hj).idle) (Shard.Blank.idle ⟨rfl, rfl⟩)
  · unfold Descriptor.stop
    dsimp only
    rw [hstates, List.flatMap_singleton]
    exact .after hcalls ((drop_calls rfl (.inr hended)).2 hended.closed)

theorem Owned.stop (h : d.Owned) (i : Nat) (error : Option String) : (d.stop i error).Owned := by
  have hgone : Shard.Blank { d.shards i with running := false, commands := [], states := [] } := ⟨rfl, rfl⟩
  have hsound : (d.stop i error).Sound :=
    ⟨forall_setShard h.sound.shards ⟨fun _ => rfl, fun _ => hgone⟩, h.sound.replies, h.sound.mailbox⟩
  -- a shard without an entry ends without a trace
  have hquiet : (d.shards i).states = [] → d.stop i error =
      d.setShard i { d.shards i with running := false, commands := [], states := [] } := by
    intro hstates
    simp only [Descriptor.stop, hstates, List.flatMap_nil, List.append_nil]
    rfl
  refine ⟨hsound, ?_⟩
  by_cases hblank : (d.shards i).Blank
  · rw [hquiet hblank.2]
    exact h.owner.setShard hblank hgone
  cases h.owner with
  | caller shards => exact absurd (shards i) hblank
  | request attempt j id stage commands states elsewhere untouched known reply =>
    obtain rfl := eq_of_elsewhere elsewhere hblank
    rw [hquiet states]
    exact .caller (forall_setShard_elsewhere elsewhere hgone) { untouched with }
      (.inr ⟨attempt, i, id, stage, reply true⟩)
  | entry attempt j id r stage commands states elsewhere untouched unused reply =>
    obtain rfl := eq_of_elsewhere elsewhere hblank
    obtain ⟨hidle, hcalls⟩ := Owner.stopped states unused.opened unused.sent unused.apart elsewhere untouched.calls
      error
    exact .closed hidle hcalls (.inr (.inr ⟨attempt, i, id, stage, reply⟩))
  | shard j id r cs stage commands states elsewhere opened sent apart linked calls =>
    obtain rfl := eq_of_elsewhere elsewhere hblank
    obtain ⟨hidle, hcalls⟩ := Owner.stopped states opened sent apart elsewhere calls error
    exact .closed hidle hcalls (.inr (.inl ⟨i, id, stage⟩))
  | closed shards calls stage =>
    rw [hquiet (shards i).2]
    exact .closed (forall_setShard shards hgone.idle) calls stage

/-! ## The transport -/

/-- The transport of an adopted descriptor moves on. -/
theorem Owned.continued (h : d.Owned) (hstage : d.stage = .adopted i id) {t : PosixFdTransport}
    (hok : (∃ result ∈ results, result ≠ .ok) → (d.shards i).running = false) {events : List Event}
    (hlinked : ∀ {r cs}, (∀ result ∈ results, result = .ok) → r.Apart →
      Linked d.transport r cs d.events → ∃ posted, t.mailbox = posted ∧ Linked t r (cs ++ posted) events)
    (hstep : { d with events := events }.continued i id results t = some d') : d'.Owned := by
  obtain ⟨closed, hrefusals, rfl⟩ := Option.map_eq_some_iff.mp hstep
  have hproxy : closed = true → (d.shards i).running = false := fun hclosed =>
    (refusals_closed hrefusals hclosed).elim (h.sound.shards i).1 hok
  have hfine : ∀ j, (({ d with events := events }.setShard i
      { (d.shards i).post (t.mailbox.map (.command id)) with proxyClosed := closed }).shards j).Fine :=
    forall_setShard h.sound.shards ((h.sound.shards i).post hproxy)
  refine ⟨⟨hfine, h.sound.replies, rfl⟩, ?_⟩
  cases h.owner with
  | caller _ _ stage =>
    rcases stage with ⟨_, stage⟩ | ⟨_, _, _, stage, _⟩
    all_goals cases hstage.symm.trans stage
  | request _ _ _ stage | entry _ _ _ _ stage => cases hstage.symm.trans stage
  | shard _ _ r cs stage commands states elsewhere opened sent apart linked calls =>
    cases hstage.symm.trans stage
    have hrunning := (h.sound.shards i).running fun hblank => by rw [hblank.2] at states; cases states
    have hall : ∀ result ∈ results, result = .ok := by
      intro result hmem
      by_contra hne
      exact absurd (hrunning.symm.trans (hok ⟨result, hmem, hne⟩)) nofun
    obtain ⟨posted, hposted, hlinked⟩ := hlinked hall apart linked
    have hself := setShard_self i { (d.shards i).post (t.mailbox.map (.command id)) with proxyClosed := closed }
      { d with events := events }
    rw [Shard.post_running hrunning] at hself
    refine .shard i id r (cs ++ posted) hstage ?_ ?_
      (elsewhere_setShard elsewhere fun hne => absurd rfl hne) opened sent
      apart ⟨hlinked.closing, fun hopen => ?_⟩ calls
    · rw [Shard.post_running hrunning]
      refine (congrArg Shard.commands hself).trans ?_
      dsimp only
      rw [commands, hposted, List.map_append]
    · rw [Shard.post_running hrunning]
      exact (congrArg Shard.states hself).trans states
    · have hlink := hlinked.link hopen
      exact { hlink with }
  | closed shards calls stage =>
    refine .closed (forall_setShard shards ?_) calls stage
    cases hrunning : (d.shards i).running with
    | false =>
      rw [Shard.post_stopped hrunning]
      exact shards i
    | true =>
      rw [Shard.post_running hrunning]
      refine ⟨fun id' hmem => ?_, (shards i).2⟩
      rcases List.mem_append.mp hmem with hmem | hmem
      · exact (shards i).1 id' hmem
      · obtain ⟨_, _, heq⟩ := List.mem_map.mp hmem
        cases heq

theorem Owned.call (h : d.Owned) {c : PosixFdTransport.Call} (hok : Orderly (.call c) d) (hstep : d.call c = some d') :
    d'.Owned := by
  unfold Descriptor.call at hstep
  split at hstep
  case h_2 => cases hstep
  case h_1 i id hstage =>
    refine h.continued hstage (hok i id hstage) (fun hall _ hlinked => ?_) hstep
    obtain ⟨posted, hacts⟩ := PosixFdTransport.Acts.call d.transport c
    refine ⟨posted, ?_, hlinked.acts hacts hall⟩
    rw [hacts.mailbox, h.sound.mailbox, List.nil_append]

theorem Owned.deliver (h : d.Owned) {r : PosixFdTransport.Reaction} {ack enable : SendResult}
    (hok : Orderly (.deliver r ack enable) d) (hstep : d.deliver r ack enable = some d') : d'.Owned := by
  unfold Descriptor.deliver at hstep
  split at hstep
  case h_1 => cases hstep
  case h_2 event rest hevents =>
    dsimp only at hstep
    split at hstep
    case h_1 i id hstage =>
      refine h.continued hstage (hok.1 i id hstage) (fun hall hapart hlinked => ?_) hstep
      rw [hevents] at hlinked
      obtain ⟨posted, hmailbox, hdelivered⟩ :=
        hlinked.deliver hapart hall fun heof => hok.2 (by rw [hevents, heof]; rfl)
      exact ⟨posted, by rw [hmailbox, h.sound.mailbox, List.nil_append], hdelivered⟩
    case h_2 hstage =>
      cases hstep
      refine ⟨{ h.sound with }, ?_⟩
      cases h.owner with
      | caller _ _ stage =>
        rcases stage with ⟨_, stage⟩ | ⟨_, _, _, stage, _⟩
        all_goals cases hstage.symm.trans stage
      | request _ _ _ stage | entry _ _ _ _ stage | shard _ _ _ _ stage => cases hstage.symm.trans stage
      | closed shards calls stage => exact .closed shards calls stage
    case h_3 hadopted hfailed =>
      split at hstep
      case isFalse => cases hstep
      case isTrue =>
        cases hstep
        refine ⟨⟨h.sound.shards, h.sound.replies, rfl⟩, ?_⟩
        cases h.owner with
        | caller _ untouched | request _ _ _ _ _ _ _ untouched | entry _ _ _ _ _ _ _ _ untouched =>
          cases hevents.symm.trans untouched.events
        | shard i id _ _ stage => exact absurd stage (hadopted i id)
        | closed shards calls stage => exact .closed shards calls stage

/-! ## Every run -/

theorem Owned.step (h : d.Owned) {a : Action} (hok : Orderly a d) (hstep : d.step a = some d') : d'.Owned := by
  cases a with
  | register i result => exact h.register hok hstep
  | spawnFails => exact h.spawnFails hstep
  | timesOut => exact h.timesOut hok hstep
  | reply id ok => exact h.reply hstep
  | call c => exact h.call hok hstep
  | deliver r ack enable => exact h.deliver hok hstep
  | process i ok answers updateOk shutdownOk => exact h.process hstep
  | readable i id answers eofOnAgain updateOk =>
    exact h.polled (fun hgoing => hgoing.readReactorState)
      (fun hunused hrun => .inl (hunused.readReactorState hrun)) hstep
  | writable i id answers updateOk shutdownOk =>
    exact h.polled (fun hgoing => hgoing.flushReactorWrites) (fun hunused hrun => hunused.flushReactorWrites hrun) hstep
  | stop i error =>
    simp only [Descriptor.step] at hstep
    split at hstep
    · cases hstep
      exact h.stop i error
    · cases hstep
  | exited i =>
    simp only [Descriptor.step] at hstep
    split at hstep
    · cases hstep
    · next hended =>
      cases hstep
      exact h.markClosed (by simpa using hended)
  | markClosed i =>
    cases hstep
    exact h.markClosed hok

theorem owned_of_reachable {config : Config} (h : Reachable Orderly config d) : d.Owned := by
  refine h.invariant ⟨⟨fun _ => ⟨nofun, nofun⟩, nofun, rfl⟩, ?_⟩ fun _ _ _ hs hok hstep => hs.step hok hstep
  exact .caller (fun _ => ⟨rfl, rfl⟩) ⟨rfl, rfl, nofun⟩ (.inl ⟨0, rfl⟩)

/-! ## Runs one can follow -/

/-- A check that an action is orderly; it takes no send that fails and no end of input. -/
def orderly : Action → Descriptor → Bool
  | .register _ result, _ => result = .ok
  | .timesOut, d =>
    match d.stage with
    | .registering _ i id => !(d.shards i).running && !d.replies.contains (id, true)
    | _ => true
  | .call c, _ => c.results.all (· = .ok)
  | .deliver r ack enable, d => (handling r ack enable).all (· = .ok) && d.events.head? ≠ some .eof
  | .markClosed i, d => !(d.shards i).running
  | _, _ => true

theorem orderly_sound (a : Action) (d : Descriptor) (h : orderly a d = true) : Orderly a d := by
  have hnone : ∀ {results : List SendResult} {P : Prop}, results.all (· = .ok) = true →
      (∃ result ∈ results, result ≠ .ok) → P := by
    rintro results P hall ⟨result, hmem, hne⟩
    exact absurd (by simpa using List.all_eq_true.mp hall result hmem) hne
  cases a with
  | register i result => exact fun hne => absurd (by simpa [orderly] using h) hne
  | timesOut =>
    intro attempt i id hstage
    simpa [orderly, hstage] using h
  | call c => exact fun _ _ _ => hnone h
  | deliver r ack enable =>
    simp only [orderly, Bool.and_eq_true, decide_eq_true_eq] at h
    exact ⟨fun _ _ _ => hnone h.1, fun heof => absurd heof h.2⟩
  | markClosed i => simpa [orderly, Orderly] using h
  | spawnFails | reply _ _ | process _ _ _ _ _ | readable _ _ _ _ _ | writable _ _ _ _ _ | stop _ _ | exited _ =>
    trivial

/-- A registration with a shard that answers. -/
def registration (i id : Nat) : List Action := [.register i .ok, .process i true [] true true, .reply id true]

/-- The first shard ends with the request in its queue; the second takes the descriptor, writes a byte, and closes it
on command. -/
def retried : List Action :=
  [.register 0 .ok, .stop 0 none, .timesOut] ++ registration 1 2 ++
    [.call (.write [7] .ok), .process 1 true [.accepted 1] true true, .deliver [] .ok .ok, .call (.close .ok),
      .process 1 true [] true true]

/-! ## The result -/

/-- **One owner, one close.** In every orderly run an adopted descriptor is in the table of at most one shard, and once
there; nothing is done with it after it was closed; and when the adoption has failed or the transport has closed, and
every shard has processed its commands, it was closed exactly once. -/
theorem descriptor_closed_once {config : Config} (h : Reachable Orderly config d) :
    (∀ i j, ∀ e ∈ (d.shards i).states, ∀ f ∈ (d.shards j).states, i = j ∧ e = f) ∧
      (∀ before after, d.calls = before ++ after → .close ∈ before → after = []) ∧
      (d.stage = .failed ∨ d.transport.closed = true → (∀ i, (d.shards i).commands = []) →
        d.calls.count .close = 1) := by
  -- the entry of the one shard that has one
  have hone : ∀ {i id r}, (d.shards i).states = [⟨id, r⟩] → (∀ j, j ≠ i → (d.shards j).Blank) →
      ∀ j, ∀ e ∈ (d.shards j).states, j = i ∧ e = ⟨id, r⟩ := by
    intro i id r hstates helsewhere j e he
    by_cases hj : j = i
    · rw [hj, hstates] at he
      exact ⟨hj, List.mem_singleton.mp he⟩
    · rw [(helsewhere j hj).2] at he
      cases he
  have hsame : ∀ {i id r}, (d.shards i).states = [⟨id, r⟩] → (∀ j, j ≠ i → (d.shards j).Blank) →
      ∀ i j, ∀ e ∈ (d.shards i).states, ∀ f ∈ (d.shards j).states, i = j ∧ e = f := by
    intro i id r hstates helsewhere j k e he f hf
    obtain ⟨rfl, rfl⟩ := hone hstates helsewhere j e he
    obtain ⟨rfl, rfl⟩ := hone hstates helsewhere k f hf
    exact ⟨rfl, rfl⟩
  have hnone : (∀ i, (d.shards i).states = []) →
      ∀ i j, ∀ e ∈ (d.shards i).states, ∀ f ∈ (d.shards j).states, i = j ∧ e = f := by
    intro hempty i j e he
    rw [hempty i] at he
    cases he
  have hopen : .close ∉ d.calls → ∀ before after, d.calls = before ++ after → .close ∈ before → after = [] := by
    intro hno before after hsplit hmem
    rw [hsplit] at hno
    exact absurd (List.mem_append_left _ hmem) hno
  have hfresh : d.Untouched → d.transport.closed = true → False := by
    intro huntouched hclosed
    rw [huntouched.transport] at hclosed
    cases hclosed
  cases (owned_of_reachable h).owner with
  | caller shards untouched stage =>
    refine ⟨hnone fun i => (shards i).2, hopen untouched.calls, fun hend _ => ?_⟩
    rcases hend with hfailed | hclosed
    · rcases stage with ⟨_, stage⟩ | ⟨_, _, _, stage, _⟩
      all_goals cases hfailed.symm.trans stage
    · exact (hfresh untouched hclosed).elim
  | request _ i _ stage commands _ elsewhere untouched =>
    refine ⟨hnone fun j => ?_, hopen untouched.calls, fun hend _ => ?_⟩
    · by_cases hj : j = i
      · rw [hj]
        assumption
      · exact (elsewhere j hj).2
    · rcases hend with hfailed | hclosed
      · cases hfailed.symm.trans stage
      · exact (hfresh untouched hclosed).elim
  | entry _ _ _ _ stage _ states elsewhere untouched =>
    refine ⟨hsame states elsewhere, hopen untouched.calls, fun hend _ => ?_⟩
    rcases hend with hfailed | hclosed
    · cases hfailed.symm.trans stage
    · exact (hfresh untouched hclosed).elim
  | shard i id r cs stage commands states elsewhere opened sent apart linked calls =>
    refine ⟨hsame states elsewhere, hopen calls, fun hend hdone => ?_⟩
    rcases hend with hfailed | hclosed
    · cases hfailed.symm.trans stage
    · -- the command to close is still to be read
      have hclose := linked.closing hclosed
      have hcs : cs = [] := List.map_eq_nil_iff.mp (commands.symm.trans (hdone i))
      rw [hcs] at hclose
      cases hclose
  | closed shards calls =>
    obtain ⟨earlier, hcalls, hno⟩ := calls
    refine ⟨hnone fun i => (shards i).2, fun before after hsplit hmem => ?_, fun _ _ => ?_⟩
    · rcases List.eq_nil_or_concat after with rfl | ⟨more, last, rfl⟩
      · rfl
      · rw [hcalls, List.concat_eq_append, ← List.append_assoc] at hsplit
        have hearlier := (List.append_inj_left' hsplit rfl)
        rw [hearlier] at hno
        exact absurd (List.mem_append_left _ hmem) hno
    · rw [hcalls, List.count_append, List.count_eq_zero.mpr hno]
      rfl

theorem descriptor_closed_once_retried :
    ∃ d, Reachable Orderly {} d ∧ d.stage = .adopted 1 2 ∧ d.transport.closed = true ∧
      (∀ i, (d.shards i).commands = []) ∧ d.calls = [.write, .close] ∧ d.calls.count .close = 1 := by
  have hrun : (Conc.Machine.follow step orderly (given {}) retried).isSome := by decide
  obtain ⟨d, hd⟩ := Option.isSome_iff_exists.mp hrun
  have hreach : Reachable Orderly {} d := Conc.Machine.Reachable.follow orderly_sound .start hd
  have hfacts : d.stage = .adopted 1 2 ∧ d.transport.closed = true ∧ d.calls = [.write, .close] := by
    cases hd
    decide
  have hdone : ∀ i, (d.shards i).commands = [] := by
    cases hd
    intro i
    match i with
    | 0 => rfl
    | 1 => rfl
    | _ + 2 => rfl
  exact ⟨d, hreach, hfacts.1, hfacts.2.1, hdone, hfacts.2.2,
    (descriptor_closed_once hreach).2.2 (.inr hfacts.2.1) hdone⟩

/-- A request that a live shard answers too late, and is granted after all. -/
def grantedTwice : List Action :=
  [.register 0 .ok, .timesOut] ++ registration 1 2 ++ [.process 0 true [] true true]

/-- The end of input meets a half-close whose write the peer does not take; the `close` after it sends nothing. -/
def halfClosed : List Action :=
  registration 0 1 ++
    [.call (.listen .ok), .process 0 true [] true true, .call (.write [7] .ok), .process 0 true [.again] true true,
      .call (.closeWrite .ok), .process 0 true [.again] true true, .readable 0 1 [.eof] false true, .deliver [] .ok .ok,
      .call (.close .ok)]

/-- Follow the actions, orderly or not. -/
abbrev followed (actions : List Action) : Option Descriptor :=
  Conc.Machine.follow step (fun _ _ => true) (given {}) actions

theorem reachable_of_followed (actions : List Action) {p : Descriptor → Bool} (h : (followed actions).any p = true) :
    ∃ d, Reachable (fun _ _ => True) {} d ∧ followed actions = some d ∧ p d = true := by
  obtain ⟨d, hd, hp⟩ := (Option.any_eq_true _ _).mp h
  exact ⟨d, Conc.Machine.Reachable.follow (fun _ _ _ => trivial) .start hd, hd, hp⟩

/-- Without the conditions: a descriptor is in two tables, and then closed twice; a transport whose live shard was
marked closed by another one closes without a command, and one whose halves finished while a write waits does, and
nothing is left to close the descriptor. -/
theorem shards_mistaken :
    (∃ d, Reachable (fun _ _ => True) {} d ∧ (d.shards 0).states ≠ [] ∧ (d.shards 1).states ≠ []) ∧
    (∃ d, Reachable (fun _ _ => True) {} d ∧ d.calls = [.close, .close]) ∧
    (∃ d, Reachable (fun _ _ => True) {} d ∧ d.transport.closed = true ∧ (∀ i, (d.shards i).commands = []) ∧
      (d.shards 0).running = true ∧ d.calls = []) ∧
    ∃ d, Reachable (fun _ _ => True) {} d ∧ d.transport.closed = true ∧ (∀ i, (d.shards i).commands = []) ∧
      (d.shards 0).running = true ∧ d.calls = [.write, .write, .read] := by
  have hevery : ∀ {actions : List Action} {d : Descriptor}, followed actions = some d → (d.shards 0).commands = [] →
      (∀ i, (followed actions).any (fun d => (d.shards (i + 1)).commands = []) = true) →
      ∀ i, (d.shards i).commands = [] := by
    intro actions d hrun hzero hothers i
    cases i with
    | zero => exact hzero
    | succ i => simpa [hrun] using hothers i
  refine ⟨?_, ?_, ?_, ?_⟩
  · obtain ⟨d, hreach, -, hd⟩ := reachable_of_followed grantedTwice
      (p := fun d => decide ((d.shards 0).states ≠ [] ∧ (d.shards 1).states ≠ [])) (by decide +kernel)
    exact ⟨d, hreach, of_decide_eq_true hd⟩
  · obtain ⟨d, hreach, -, hd⟩ := reachable_of_followed
      (grantedTwice ++ [.call (.close .ok), .process 1 true [] true true, .stop 0 none])
      (p := fun d => decide (d.calls = [.close, .close])) (by decide +kernel)
    exact ⟨d, hreach, of_decide_eq_true hd⟩
  · obtain ⟨d, hreach, hrun, hd⟩ := reachable_of_followed (registration 0 1 ++ [.markClosed 0, .call (.close .stopped)])
      (p := fun d => decide (d.transport.closed = true ∧ (d.shards 0).commands = [] ∧ (d.shards 0).running = true ∧
        d.calls = [])) (by decide +kernel)
    obtain ⟨hclosed, hcommands, hrunning, hcalls⟩ := of_decide_eq_true hd
    exact ⟨d, hreach, hclosed, hevery hrun hcommands (fun _ => rfl), hrunning, hcalls⟩
  · obtain ⟨d, hreach, hrun, hd⟩ := reachable_of_followed halfClosed
      (p := fun d => decide (d.transport.closed = true ∧ (d.shards 0).commands = [] ∧ (d.shards 0).running = true ∧
        d.calls = [.write, .write, .read])) (by decide +kernel)
    obtain ⟨hclosed, hcommands, hrunning, hcalls⟩ := of_decide_eq_true hd
    exact ⟨d, hreach, hclosed, hevery hrun hcommands (by intro i; cbv), hrunning, hcalls⟩

end Descriptor

end TailscaleDart.Fd
