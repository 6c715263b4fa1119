import TailscaleDart.Fd.Stream
import TailscaleDart.Http.Response

/-!
# Fd.Writers — chunks written one at a time

Three layers hand their callers' chunks to a stream transport: `RuntimeConnection.write` (and `writeAll`, which
awaits it for each chunk), the request body writer of the HTTP client, and `_TailscaleHttpResponse.write`. Each
awaits a write of the transport before it makes the next, and none of them cuts a chunk.

What is proved: when every chunk fits the transport's bound on pending bytes (and the head of a response fits its
own), no write fails, the descriptor takes the chunks' bytes in order, and from every state the writer can finish.
The bound is on what is pending, but a chunk larger than it is refused even when nothing is
(`oversized_chunk_refused`), although the same bytes in smaller chunks are not.

The half-close and the close that follow the last chunk are left out: by then every byte has been taken.
-/

namespace TailscaleDart.Fd

open TailscaleDart.Http (tailscaleMaxHttpHeadBytes)
open TailscaleDart.Http.TailscaleHttpResponse (Sending)

/-! ## The layers -/

/-- An empty chunk is not handed to the transport. -/
def skipEmpty (bytes : Bytes) : List Bytes := if bytes.isEmpty then [] else [bytes]

/-- `RuntimeConnection.write`: the writes of the transport it makes and awaits, in order. -/
def runtimeConnectionWrite (bytes : Bytes) : List Bytes := skipEmpty bytes

/-- One chunk of `_writeRequestBody`. -/
def writeRequestBody (chunk : Bytes) : List Bytes := skipEmpty chunk

/-- `_sendHead`, for a head with this payload. -/
def sendHead (headSent : Bool) (payload : Bytes) : Except String (List Bytes) :=
  if headSent then .ok []
  else if payload.length > tailscaleMaxHttpHeadBytes then .error "HTTP response headers are too large."
  else .ok [LengthFrame.frame payload]

/-- `_TailscaleHttpResponse._writeInternal`. -/
def writeInternal (headSent : Bool) (payload bytes : Bytes) : Except String (List Bytes) :=
  (sendHead headSent payload).map (· ++ skipEmpty bytes)

/-- Who writes. A response comes with the payload of its head, as it is when the first write sends it. -/
inductive Layer where
  | runtimeConnection
  | requestBody
  | response (payload : Bytes)
  deriving DecidableEq, Repr

namespace Layer

def calls (headSent : Bool) (bytes : Bytes) : Layer → Except String (List Bytes)
  | .runtimeConnection => .ok (runtimeConnectionWrite bytes)
  | .requestBody => .ok (writeRequestBody bytes)
  | .response payload => writeInternal headSent payload bytes

/-- What the first write sends before its chunk. -/
def lead : Layer → Bytes
  | .response payload => LengthFrame.frame payload
  | _ => []

/-- The bytes that chunks come to. -/
def bytes (layer : Layer) (chunks : List Bytes) : Bytes :=
  if chunks.isEmpty then [] else layer.lead ++ chunks.flatten

/-- The head of a response is not too large. -/
def HeadFits : Layer → Prop
  | .response payload => payload.length ≤ tailscaleMaxHttpHeadBytes
  | _ => True

end Layer

/-- A caller that has chunks to write. The write of a chunk makes the transport writes `todo`, one after the other; the
first that fails ends it, and the caller's loop. -/
structure Writer where
  system : System
  layer : Layer
  chunks : List Bytes
  headSent : Bool := false
  todo : List Bytes := []
  awaiting : Option Nat := none
  failure : Option String := none

namespace Writer

def start (layer : Layer) (chunks : List Bytes) : Writer := { system := .adopted {}, layer := layer, chunks := chunks }

inductive Action where
  /-- The write of the next chunk begins. -/
  | next
  /-- It makes its next transport write. -/
  | write (result : SendResult)
  /-- The transport write it awaits is complete. -/
  | resume
  | environment (a : System.Action)

def begin (bytes : Bytes) (chunks : List Bytes) (w : Writer) : Writer :=
  match w.layer.calls w.headSent bytes with
  | .ok todo => { w with chunks := chunks, headSent := true, todo := todo }
  | .error message => { w with chunks := chunks, headSent := true, failure := some message }

def send (bytes : Bytes) (todo : List Bytes) (result : SendResult) (w : Writer) : Writer :=
  let returned := w.system.main.write bytes result
  let w := { w with system := w.system.continued returned.2, todo := todo }
  match Sending.ofReturned returned.1 with
  | .sent => w
  | .waits id => { w with awaiting := some id }
  | .throws message => { w with failure := some message }

def step (w : Writer) : Action → Option Writer
  | .next =>
    match w.failure, w.awaiting, w.todo, w.chunks with
    | none, none, [], bytes :: chunks => some (w.begin bytes chunks)
    | _, _, _, _ => none
  | .write result =>
    match w.failure, w.awaiting, w.todo with
    | none, none, bytes :: todo => some (w.send bytes todo result)
    | _, _, _ => none
  | .resume =>
    match w.awaiting with
    | none => none
    | some id =>
      match w.system.main.futures id with
      | some .value => some { w with awaiting := none }
      | some (.error message) => some { w with awaiting := none, failure := some message }
      | _ => none
  | .environment a => (w.system.step a).map fun s => { w with system := s }

/-- The transport is in use and its peer takes bytes. -/
def Action.IsBenign : Action → Prop
  | .write result => result = .ok
  | .environment a => a.IsBenign
  | _ => True

abbrev Run : Writer → Writer → Prop := Conc.Machine.Reachable step fun a _ => a.IsBenign

/-- Every write has completed. -/
def Finished (w : Writer) : Prop := w.chunks = [] ∧ w.todo = [] ∧ w.awaiting = none

end Writer

/-! ## What a layer hands to the transport -/

theorem flatten_skipEmpty (bytes : Bytes) : (skipEmpty bytes).flatten = bytes := by
  unfold skipEmpty
  split
  · next h => exact (List.isEmpty_iff.mp h).symm
  · simp

variable {bytes : Bytes}

theorem skipEmpty_spec {b : Bytes} (h : b ∈ skipEmpty bytes) : b = bytes ∧ b ≠ [] := by
  unfold skipEmpty at h
  split at h
  · cases h
  · next hne =>
    cases List.mem_singleton.mp h
    exact ⟨rfl, by simpa using hne⟩

theorem length_skipEmpty (bytes : Bytes) : (skipEmpty bytes).length ≤ 1 := by
  unfold skipEmpty
  split
  · exact Nat.zero_le _
  · exact Nat.le_refl _

/-- What the transport writes of one chunk come to. -/
structure Layer.Cuts (lead bytes : Bytes) (todo : List Bytes) : Prop where
  flatten : todo.flatten = lead ++ bytes
  fits : ∀ b ∈ todo, b ≠ [] ∧ b.length ≤ ({} : Config).maxPendingWriteBytes
  few : todo.length ≤ 2

theorem Layer.cuts_skipEmpty (h : bytes.length ≤ ({} : Config).maxPendingWriteBytes) :
    Layer.Cuts [] bytes (skipEmpty bytes) where
  flatten := flatten_skipEmpty bytes
  fits := by
    intro b hb
    obtain ⟨rfl, hne⟩ := skipEmpty_spec hb
    exact ⟨hne, h⟩
  few := Nat.le_succ_of_le (length_skipEmpty bytes)

theorem Layer.calls_ok {layer : Layer} (hhead : layer.HeadFits) (headSent : Bool)
    (h : bytes.length ≤ ({} : Config).maxPendingWriteBytes) :
    ∃ todo, layer.calls headSent bytes = .ok todo ∧ Layer.Cuts (if headSent then [] else layer.lead) bytes todo := by
  have hbody := Layer.cuts_skipEmpty h
  cases layer with
  | runtimeConnection | requestBody => exact ⟨skipEmpty bytes, rfl, by simpa [Layer.lead] using hbody⟩
  | response payload =>
    cases headSent with
    | true => exact ⟨skipEmpty bytes, rfl, hbody⟩
    | false =>
      have hsmall : payload.length ≤ tailscaleMaxHttpHeadBytes := hhead
      have hsent : sendHead false payload = .ok [LengthFrame.frame payload] := by
        simp only [sendHead, Bool.false_eq_true, if_false, if_neg (Nat.not_lt.mpr hsmall)]
      refine ⟨LengthFrame.frame payload :: skipEmpty bytes, ?_, ?_⟩
      · simp only [Layer.calls, writeInternal, hsent]
        rfl
      constructor
      · rw [List.flatten_cons, flatten_skipEmpty]
        rfl
      · intro b hb
        rcases List.mem_cons.mp hb with rfl | hrest
        · refine ⟨LengthFrame.frame_ne_nil payload, ?_⟩
          rw [LengthFrame.length_frame]
          show 4 + payload.length ≤ 1024 * 1024
          unfold tailscaleMaxHttpHeadBytes at hsmall
          omega
        · exact hbody.fits b hrest
      · exact Nat.succ_le_succ (length_skipEmpty bytes)

namespace Writer

/-! ## Every step keeps the bytes in order -/

/-- What the writer still has to say of its caller's chunks. -/
def rest (w : Writer) : Bytes := if w.headSent then w.chunks.flatten else w.layer.bytes w.chunks

/-- The transport is idle, or the write that is awaited is the one that is pending. -/
def Awaits (t : PosixFdTransport) : Option Nat → Prop
  | none => t.Idle
  | some id => ∃ byteCount, t.Waits id byteCount

structure Kept (total : Bytes) (w : Writer) : Prop where
  failure : w.failure = none
  flowing : w.system.Flowing
  config : w.system.main.config = {}
  awaits : Awaits w.system.main w.awaiting
  bytes : w.system.accepted.flatten ++ (w.todo.flatten ++ w.rest) = total
  head : w.layer.HeadFits
  writes : ∀ b ∈ w.todo, b ≠ [] ∧ b.length ≤ ({} : Config).maxPendingWriteBytes
  chunks : ∀ c ∈ w.chunks, c.length ≤ ({} : Config).maxPendingWriteBytes

theorem kept_start {layer : Layer} {chunks : List Bytes} (hhead : layer.HeadFits)
    (hchunks : ∀ c ∈ chunks, c.length ≤ ({} : Config).maxPendingWriteBytes) :
    Kept (layer.bytes chunks) (start layer chunks) where
  failure := rfl
  flowing := System.flowing_adopted {}
  config := rfl
  awaits := fun _ => ⟨rfl, rfl⟩
  bytes := rfl
  head := hhead
  writes := nofun
  chunks := hchunks

variable {total : Bytes} {w w' : Writer} {bytes : Bytes}

/-- The write of a chunk begins: its bytes, after the head when that is not sent, go from `rest` to `todo`. -/
theorem Kept.begin (h : Kept total w) {chunks : List Bytes} (htodo : w.todo = [])
    (hchunks : w.chunks = bytes :: chunks) :
    Kept total (w.begin bytes chunks) ∧ (w.begin bytes chunks).todo.length ≤ 2 ∧
      (w.begin bytes chunks).chunks = chunks ∧ (w.begin bytes chunks).awaiting = w.awaiting := by
  have hsmall := h.chunks bytes (hchunks ▸ (.head _))
  obtain ⟨todo, hcalls, hcuts⟩ := Layer.calls_ok h.head w.headSent hsmall
  have hbegin : w.begin bytes chunks = { w with chunks := chunks, headSent := true, todo := todo } := by
    simp only [Writer.begin, hcalls]
  have hrest : w.rest = todo.flatten ++ chunks.flatten := by
    rw [hcuts.flatten]
    unfold Writer.rest Layer.bytes
    rw [hchunks]
    cases w.headSent <;> simp
  rw [hbegin]
  refine ⟨{ h with bytes := ?_, writes := hcuts.fits, chunks := fun c hc => h.chunks c (hchunks ▸ .tail bytes hc) },
    hcuts.few, rfl, rfl⟩
  have hbytes := h.bytes
  rw [htodo, hrest] at hbytes
  exact hbytes

/-- A transport write is made: it is taken, and awaited. -/
theorem Kept.send (h : Kept total w) (hidle : w.awaiting = none) {todo : List Bytes} (htodo : w.todo = bytes :: todo) :
    Kept total (w.send bytes todo .ok) ∧ (w.send bytes todo .ok).todo = todo ∧
      (w.send bytes todo .ok).chunks = w.chunks := by
  obtain ⟨hne, hfits⟩ := h.writes bytes (htodo ▸ (.head _))
  have hquiet : w.system.main.Idle := by
    have hawaits := h.awaits
    rw [hidle] at hawaits
    exact hawaits
  obtain ⟨id, hlater, hflowing, haccepted, hconfig, hwaits⟩ := h.flowing.write hquiet hne (h.config ▸ hfits)
  have hsend : w.send bytes todo .ok = { w with
        system := w.system.continued (w.system.main.write bytes .ok).2
        todo := todo
        awaiting := some id } := by
    simp only [Writer.send, hlater, Sending.ofReturned]
  rw [hsend]
  refine ⟨{ h with
    flowing := hflowing
    config := hconfig.trans h.config
    awaits := ⟨bytes.length, hwaits⟩
    bytes := ?_
    writes := fun b hb => h.writes b (htodo ▸ .tail bytes hb) }, rfl, rfl⟩
  have hbytes := h.bytes
  rw [htodo, List.flatten_cons] at hbytes
  show (w.system.continued _).accepted.flatten ++ (todo.flatten ++ w.rest) = total
  rw [haccepted, List.flatten_append, ← hbytes]
  simp

theorem Kept.environment (h : Kept total w) {s : System} (hrun : System.Run w.system s) :
    Kept total { w with system := s } := by
  obtain ⟨hflowing, haccepted, hconfig, hidle, hwaits⟩ := h.flowing.run hrun
  have hawaits : Awaits s.main w.awaiting := by
    have hbefore := h.awaits
    cases hawaiting : w.awaiting with
    | none =>
      rw [hawaiting] at hbefore
      exact hidle hbefore
    | some id =>
      rw [hawaiting] at hbefore
      obtain ⟨byteCount, hpending⟩ := hbefore
      exact ⟨byteCount, hwaits id byteCount hpending⟩
  refine { h with flowing := hflowing, config := hconfig.trans h.config, awaits := hawaits, bytes := ?_ }
  show s.accepted.flatten ++ (w.todo.flatten ++ w.rest) = total
  rw [haccepted]
  exact h.bytes

/-- The write that is awaited is complete: it did not fail, and the transport is idle. -/
theorem Kept.resume (h : Kept total w) {id : Nat} (hawaiting : w.awaiting = some id)
    (hsettled : w.system.main.futures id ≠ some .pending) :
    w.system.main.futures id = some .value ∧ Kept total { w with awaiting := none } := by
  have hawaits := h.awaits
  rw [hawaiting] at hawaits
  obtain ⟨byteCount, hwaits⟩ := hawaits
  have hvalue : w.system.main.futures id = some .value := by
    rcases hwaits h.flowing.opened.opened with hpending | hdone
    · exact absurd hpending.2.2 hsettled
    · exact hdone.2.2
  exact ⟨hvalue, { h with awaits := hwaits.settled hsettled }⟩

theorem Kept.step (h : Kept total w) {a : Action} (ha : a.IsBenign) (hstep : w.step a = some w') : Kept total w' := by
  cases a with
  | next =>
    simp only [Writer.step] at hstep
    split at hstep
    · next htodo hchunks =>
      cases hstep
      exact (h.begin htodo hchunks).1
    · cases hstep
  | write result =>
    obtain rfl : result = .ok := ha
    simp only [Writer.step] at hstep
    split at hstep
    · next hidle htodo =>
      cases hstep
      exact (h.send hidle htodo).1
    · cases hstep
  | resume =>
    simp only [Writer.step] at hstep
    split at hstep
    · cases hstep
    next id hawaiting =>
    split at hstep
    · next hvalue =>
      cases hstep
      exact (h.resume hawaiting (by simp [hvalue])).2
    · next message herror =>
      -- a write that is awaited does not fail
      have hvalue := (h.resume hawaiting (by simp [herror])).1
      rw [herror] at hvalue
      cases hvalue
    · cases hstep
  | environment a =>
    obtain ⟨s, hs, rfl⟩ := Option.map_eq_some_iff.mp hstep
    exact h.environment (.next .start a ha hs)

theorem Kept.run (h : Kept total w) (hrun : Run w w') : Kept total w' :=
  hrun.invariant h fun _ _ _ hw ha hstep => hw.step ha hstep

/-! ## The writer can always finish -/

theorem Run.environment {s : System} (hrun : System.Run w.system s) : Run w { w with system := s } := by
  refine hrun.invariant .start fun mid a after hmid ha hstep => ?_
  refine hmid.next (.environment a) ha ?_
  simp only [Writer.step, hstep]
  rfl

/-- How many steps of its own the writer has to make. -/
def left (w : Writer) : Nat := 5 * w.chunks.length + 2 * w.todo.length + if w.awaiting.isSome then 1 else 0

/-- A writer that is not finished makes a step of its own, after what the environment has to do for it. -/
theorem Kept.advances (h : Kept total w) (hmore : ¬ w.Finished) : ∃ w', Run w w' ∧ w'.left < w.left := by
  cases hawaiting : w.awaiting with
  | some id =>
    have hbudget : w.system.main.config.maxPendingWriteBytes ≤ reactorWriteBudgetBytes := by
      rw [h.config]
      exact Nat.le_refl _
    obtain ⟨s, hrun, hempty⟩ := h.flowing.settles hbudget
    have hafter := h.environment hrun
    have hsettled : s.main.futures id ≠ some .pending := by
      have hawaits := hafter.awaits
      simp only [hawaiting] at hawaits
      obtain ⟨byteCount, hwaits⟩ := hawaits
      rcases hwaits hafter.flowing.opened.opened with hpending | hdone
      · have htable := hpending.1
        simp only [hempty] at htable
        cases htable
      · have hvalue : s.main.futures id = some .value := hdone.2.2
        simp [hvalue]
    obtain ⟨hvalue, -⟩ := hafter.resume hawaiting hsettled
    have hresume : Writer.step { w with system := s } .resume = some { w with system := s, awaiting := none } := by
      simp only at hvalue
      simp only [Writer.step, hawaiting, hvalue]
    refine ⟨{ w with system := s, awaiting := none }, (Run.environment hrun).next .resume trivial hresume, ?_⟩
    simp [left, hawaiting]
  | none =>
    cases htodo : w.todo with
    | cons bytes todo =>
      obtain ⟨-, htodo', hchunks'⟩ := h.send hawaiting htodo
      have hwrite : w.step (.write .ok) = some (w.send bytes todo .ok) := by
        simp only [Writer.step, h.failure, hawaiting, htodo]
      refine ⟨w.send bytes todo .ok, .next .start (.write .ok) rfl hwrite, ?_⟩
      simp only [left, htodo', hchunks', htodo, List.length_cons, hawaiting, Option.isSome_none, Bool.false_eq_true,
        if_false]
      split <;> omega
    | nil =>
      cases hchunks : w.chunks with
      | nil => exact absurd ⟨hchunks, htodo, hawaiting⟩ hmore
      | cons bytes chunks =>
        obtain ⟨-, hfew, hchunks', hawaiting'⟩ := h.begin htodo hchunks
        have hnext : w.step .next = some (w.begin bytes chunks) := by
          simp only [Writer.step, h.failure, hawaiting, htodo, hchunks]
        refine ⟨w.begin bytes chunks, .next .start .next trivial hnext, ?_⟩
        simp only [left, hchunks', hawaiting', hawaiting, hchunks, htodo, List.length_cons, List.length_nil,
          Option.isSome_none, Bool.false_eq_true, if_false]
        omega

theorem Kept.finishes (h : Kept total w) : ∃ w', Run w w' ∧ w'.Finished := by
  induction hleft : w.left using Nat.strongRecOn generalizing w with
  | ind n ih =>
    by_cases hdone : w.Finished
    · exact ⟨w, .start, hdone⟩
    · obtain ⟨w1, hfirst, hless⟩ := h.advances hdone
      obtain ⟨w2, hrest, hfinished⟩ := ih w1.left (hleft ▸ hless) (h.run hfirst) rfl
      exact ⟨w2, hfirst.trans hrest, hfinished⟩

/-- In every state of a run no write has failed and the descriptor took the first of the bytes; when the writer is
finished it took all of them, and from every state the writer can finish. -/
theorem chunks_reach_descriptor {layer : Layer} {chunks : List Bytes} (hhead : layer.HeadFits)
    (hchunks : ∀ c ∈ chunks, c.length ≤ ({} : Config).maxPendingWriteBytes) {w : Writer}
    (hrun : Run (start layer chunks) w) :
    w.failure = none ∧ wire w.system.reactor.syscalls <+: layer.bytes chunks ∧
      (w.Finished → wire w.system.reactor.syscalls = layer.bytes chunks) ∧ ∃ w', Run w w' ∧ w'.Finished := by
  have h := (kept_start hhead hchunks).run hrun
  refine ⟨h.failure, ?_, ?_, h.finishes⟩
  · rw [← h.bytes]
    exact h.flowing.wire_leads.trans (List.prefix_append _ _)
  · rintro ⟨hnone, htodo, hawaiting⟩
    have hawaits := h.awaits
    rw [hawaiting] at hawaits
    have hidle : w.system.main.Idle := hawaits
    rw [h.flowing.wire_of_empty (hidle h.flowing.opened.opened).1, ← h.bytes, htodo]
    unfold rest Layer.bytes
    rw [hnone]
    simp

/-- A response whose body is written in two chunks, with an empty one between. -/
theorem chunks_reach_descriptor_response :
    ∃ w, Run (start (.response [123, 125]) [[1], [], [2, 3]]) w ∧ w.Finished ∧
      wire w.system.reactor.syscalls = [0, 0, 0, 2, 123, 125, 1, 2, 3] := by
  have hhead : (Layer.response [123, 125]).HeadFits := by
    show 2 ≤ tailscaleMaxHttpHeadBytes
    decide
  have hchunks : ∀ c ∈ ([[1], [], [2, 3]] : List Bytes), c.length ≤ ({} : Config).maxPendingWriteBytes := by decide
  obtain ⟨-, -, -, w, hrun, hdone⟩ := chunks_reach_descriptor hhead hchunks .start
  exact ⟨w, hrun, hdone, (chunks_reach_descriptor hhead hchunks hrun).2.2.1 hdone⟩

/-- A chunk larger than the bound on pending bytes, with nothing pending. -/
theorem oversized (h : ({} : Config).maxPendingWriteBytes < bytes.length) :
    ∃ w, Run (start .runtimeConnection [bytes]) w ∧
      w.failure = some "fd transport write queue exceeded 1048576 bytes" ∧
      wire w.system.reactor.syscalls = [] := by
  have hne : bytes.isEmpty = false := by
    cases bytes with
    | nil => cases h
    | cons b rest => rfl
  have hnext : (start .runtimeConnection [bytes]).step .next =
      some { start .runtimeConnection [bytes] with chunks := [], headSent := true, todo := [bytes] } := by
    simp [Writer.step, start, Writer.begin, Layer.calls, runtimeConnectionWrite, skipEmpty, hne]
  have hwrite : (System.adopted {}).main.write bytes .ok =
      (.now (.error "fd transport write queue exceeded 1048576 bytes"), (System.adopted {}).main) := by
    have hlarge : (System.adopted {}).main.pendingWriteBytes + bytes.length >
        (System.adopted {}).main.config.maxPendingWriteBytes := by
      show ({} : Config).maxPendingWriteBytes < 0 + bytes.length
      omega
    unfold PosixFdTransport.write
    have hopen : (System.adopted {}).main.closed = false := rfl
    have hunfinished : (System.adopted {}).main.writeFinished = false := rfl
    rw [if_neg (by simp [hne]), hopen, if_neg Bool.false_ne_true, hunfinished, if_neg Bool.false_ne_true, if_pos hlarge]
    rfl
  have hsend : Writer.step { start .runtimeConnection [bytes] with chunks := [], headSent := true, todo := [bytes] }
      (.write .ok) = some (Writer.send bytes [] .ok
        { start .runtimeConnection [bytes] with chunks := [], headSent := true, todo := [bytes] }) := rfl
  refine ⟨_, .next (.next .start .next trivial hnext) (.write .ok) rfl hsend, ?_⟩
  simp only [Writer.send, start, hwrite, Sending.ofReturned]
  exact ⟨trivial, rfl⟩

theorem oversized_chunk_refused :
    ∃ w, Run (start .runtimeConnection [List.replicate 1048577 0]) w ∧
      w.failure = some "fd transport write queue exceeded 1048576 bytes" ∧
      wire w.system.reactor.syscalls = [] :=
  oversized (Nat.le_of_eq List.length_replicate.symm)

end Writer

end TailscaleDart.Fd
