import TailscaleDart.Conc.Machine
import TailscaleDart.Data.JsonText
import TailscaleDart.Data.LengthFrame
import TailscaleDart.Fd.Waiting

/-!
# Http.Response — a response head that is sent by whoever comes first

`_TailscaleHttpResponse` sends its head LAZILY: the first write, or the close, sends it. Writes are
chained, so that calls that are not awaited still go out in call order, and the chain swallows errors,
so that one failed write does not hold up the next. Between the two steps of a write the program may
change headers, write again or close, and the transport may fail.

`handed` is the history of the buffers the transport took. What is proved: when the head fits as it is
sent, `handed` is empty, or one complete head frame and then the bodies of the writes the transport took,
in call order; the reader on the Go side reads that frame and nothing else as the head. `_sendHead` marks
the head as sent before it checks the size, so without that condition the next write sends its body alone
(`oversized_head_sends_body`).
-/

namespace TailscaleDart.Http

open TailscaleDart.Conc TailscaleDart.Fd

abbrev Text := List Char

def tailscaleMaxHttpHeadBytes : Nat := 256 * 1024

/-! ## The head, as `jsonEncode` writes it -/

/-- One character inside a string of `jsonEncode`. -/
def encodeChar (c : Char) : Text :=
  if c = '"' then ['\\', '"']
  else if c = '\\' then ['\\', '\\']
  else if c.toNat = 8 then ['\\', 'b']
  else if c = '\t' then ['\\', 't']
  else if c = '\n' then ['\\', 'n']
  else if c.toNat = 12 then ['\\', 'f']
  else if c = '\r' then ['\\', 'r']
  else if c.toNat < 0x20 then JsonText.quoteUnit c.toNat
  else [c]

def encodeString (text : Text) : Text := '"' :: text.flatMap encodeChar ++ ['"']

def commaSeparated : List Text → Text
  | [] => []
  | [item] => item
  | item :: items => item ++ ',' :: commaSeparated items

def encodeHeader (header : Text × List Text) : Text :=
  encodeString header.1 ++ ':' :: '[' :: commaSeparated (header.2.map encodeString) ++ [']']

/-- `jsonEncode` of the map of the status code and the headers. -/
def encodeHead (statusCode : Nat) (headers : List (Text × List Text)) : Text :=
  '{' :: encodeString "statusCode".toList ++ ':' :: (toString statusCode).toList ++
    ',' :: encodeString "headers".toList ++ ':' :: '{' :: commaSeparated (headers.map encodeHeader) ++ ['}', '}']

/-! ## Insertion-ordered maps -/

section Map

variable {α : Type}

/-- Assign in place, or append. -/
def put (name : Text) (value : α) : List (Text × α) → List (Text × α)
  | [] => [(name, value)]
  | entry :: entries => if entry.1 = name then (name, value) :: entries else entry :: put name value entries

def remove (name : Text) (map : List (Text × α)) : List (Text × α) := map.filter (·.1 ≠ name)

/-- Append to the list under a name, which is made when there is none. -/
def append (name : Text) (values : List α) (map : List (Text × List α)) : List (Text × List α) :=
  put name ((map.lookup name).getD [] ++ values) map

end Map

/-! ## The response -/

/-- How far a write that runs has come: it waits for the head's write, the head is sent, or it waits for its own. -/
inductive Phase where
  | head (id : Nat)
  | ready
  | body (id : Nat)
  deriving DecidableEq, Repr

/-- How far `close` has come: it waits for the chain, for the head's write, is to half-close, waits for the
half-close, is to close the transport, and is done with it. -/
inductive Closing where
  | none
  | waiting
  | head (id : Nat)
  | half
  | halfSent (id : Nat)
  | transport
  | done
  deriving DecidableEq, Repr

/-- A write that completed: whether the transport took its bytes, and its error. -/
structure Finished where
  bytes : Bytes
  taken : Bool
  error : Option String
  deriving DecidableEq, Repr

structure TailscaleHttpResponse where
  transport : PosixFdTransport := {}
  statusCode : Nat := 200
  headers : List (Text × Text) := []
  extraHeaderValues : List (Text × List Text) := []
  headSent : Bool := false
  closed : Bool := false
  -- the write chain: the writes that completed, the one that runs, and those behind it
  finished : List Finished := []
  running : Option (Bytes × Phase) := none
  queue : List Bytes := []
  closing : Closing := .none
  -- history: the writes that were let in, the buffers the transport took, and why the head was not sent
  enqueued : List Bytes := []
  handed : List Bytes := []
  headError : Option String := none

namespace TailscaleHttpResponse

/-- `_headerSnapshot`. -/
def headerSnapshot (r : TailscaleHttpResponse) : List (Text × List Text) :=
  r.extraHeaderValues.foldl (fun snapshot entry => append entry.1 entry.2 snapshot)
    (r.headers.map fun entry => (entry.1, [entry.2]))

/-- The bytes of the head as it would be sent now. -/
def headPayload (r : TailscaleHttpResponse) : Bytes := JsonText.encodeUtf8 (encodeHead r.statusCode r.headerSnapshot)

/-! ### Status and headers: refused once the head is sent -/

def setStatusCode (value : Int) (r : TailscaleHttpResponse) : Except String TailscaleHttpResponse :=
  if r.headSent then .error "HTTP response status cannot change after body write."
  else if value < 100 ∨ value > 999 then .error "must be an HTTP status code"
  else .ok { r with statusCode := value.toNat }

def checkHeaderMutable (r : TailscaleHttpResponse) : Except String Unit :=
  if r.headSent then .error "HTTP response headers cannot change after body write." else .ok ()

def setHeader (name value : Text) (r : TailscaleHttpResponse) : Except String TailscaleHttpResponse := do
  r.checkHeaderMutable
  return { r with headers := put name value r.headers, extraHeaderValues := remove name r.extraHeaderValues }

def addHeader (name value : Text) (r : TailscaleHttpResponse) : Except String TailscaleHttpResponse := do
  r.checkHeaderMutable
  if (r.headers.lookup name).isNone then return { r with headers := put name value r.headers }
  else return { r with extraHeaderValues := append name [value] r.extraHeaderValues }

/-! ### The head -/

/-- What an awaited write of the transport comes to: it is done, it throws, or it waits. -/
inductive Sending where
  | sent
  | throws (message : String)
  | waits (id : Nat)
  deriving DecidableEq, Repr

def Sending.ofReturned : PosixFdTransport.Returned → Sending
  | .now (.error message) => .throws message
  | .now _ => .sent
  | .later id => .waits id

/-- Write to the transport; a buffer it takes is handed to it. -/
def transportWrite (bytes : Bytes) (result : SendResult) (r : TailscaleHttpResponse) :
    Sending × TailscaleHttpResponse :=
  let returned := r.transport.write bytes result
  let handed := match returned.1 with
    | .later _ => r.handed ++ [bytes]
    | .now _ => r.handed
  (.ofReturned returned.1, { r with transport := returned.2, handed := handed })

/-- `_sendHead` up to its await. -/
def sendHead (result : SendResult) (r : TailscaleHttpResponse) : Sending × TailscaleHttpResponse :=
  if r.headSent then (.sent, r)
  else
    -- the mark is set before the size is checked
    let r := { r with headSent := true }
    let payload := r.headPayload
    if payload.length > tailscaleMaxHttpHeadBytes then (.throws "HTTP response headers are too large.", r)
    else r.transportWrite (LengthFrame.frame payload) result

/-! ### Writes -/

def write (bytes : Bytes) (r : TailscaleHttpResponse) : Except String TailscaleHttpResponse :=
  if r.closed then .error "HTTP response is closed."
  else .ok { r with queue := r.queue ++ [bytes], enqueued := r.enqueued ++ [bytes] }

/-- The write that runs completes; the chain goes on whether it failed or not. -/
def finish (bytes : Bytes) (taken : Bool) (error : Option String) (r : TailscaleHttpResponse) : TailscaleHttpResponse :=
  { r with running := none, finished := r.finished ++ [⟨bytes, taken, error⟩] }

/-- The head was not sent: `_writeInternal` fails before its body. -/
def failHead (bytes : Bytes) (message : String) (r : TailscaleHttpResponse) : TailscaleHttpResponse :=
  { r.finish bytes false (some message) with headError := some message }

/-- The oldest write of the chain begins: `_writeInternal` up to its first await. -/
def start (result : SendResult) (r : TailscaleHttpResponse) : Option TailscaleHttpResponse :=
  match r.running, r.queue with
  | none, bytes :: queue =>
    let sent := { r with queue := queue }.sendHead result
    match sent.1 with
    | .sent => some { sent.2 with running := some (bytes, .ready) }
    | .waits id => some { sent.2 with running := some (bytes, .head id) }
    | .throws message => some (sent.2.failHead bytes message)
  | _, _ => none

/-- The body of the write that runs. -/
def writeBody (bytes : Bytes) (result : SendResult) (r : TailscaleHttpResponse) : TailscaleHttpResponse :=
  if bytes.isEmpty then r.finish bytes false none
  else
    let sent := r.transportWrite bytes result
    match sent.1 with
    | .sent => sent.2.finish bytes false none
    | .waits id => { sent.2 with running := some (bytes, .body id) }
    | .throws message => sent.2.finish bytes false (some message)

/-- The write that runs goes on. -/
def proceed (result : SendResult) (r : TailscaleHttpResponse) : Option TailscaleHttpResponse :=
  match r.running with
  | none => none
  | some (bytes, .head id) =>
    match r.transport.futures id with
    | some .value => some { r with running := some (bytes, .ready) }
    | some (.error message) => some (r.failHead bytes message)
    | _ => none
  | some (bytes, .ready) => some (r.writeBody bytes result)
  | some (bytes, .body id) =>
    match r.transport.futures id with
    | some .value => some (r.finish bytes true none)
    | some (.error message) => some (r.finish bytes true (some message))
    | _ => none

/-! ### Close -/

def close (r : TailscaleHttpResponse) : TailscaleHttpResponse :=
  if r.closed then r else { r with closed := true, closing := .waiting }

/-- The chain is done: `close` sends the head when no write did. -/
def closeHead (result : SendResult) (r : TailscaleHttpResponse) : TailscaleHttpResponse :=
  let sent := r.sendHead result
  match sent.1 with
  | .sent => { sent.2 with closing := .half }
  | .waits id => { sent.2 with closing := .head id }
  | .throws message => { sent.2 with closing := .transport, headError := some message }

def closeHalf (result : SendResult) (r : TailscaleHttpResponse) : TailscaleHttpResponse :=
  let returned := r.transport.closeWrite result
  match returned.1 with
  | .now _ => { r with transport := returned.2, closing := .transport }
  | .later id => { r with transport := returned.2, closing := .halfSent id }

/-- `close` goes on. -/
def proceedClose (result : SendResult) (r : TailscaleHttpResponse) : Option TailscaleHttpResponse :=
  match r.closing with
  | .waiting => if r.running.isSome || !r.queue.isEmpty then none else some (r.closeHead result)
  | .head id =>
    match r.transport.futures id with
    | some .value => some { r with closing := .half }
    | some (.error message) => some { r with closing := .transport, headError := some message }
    | _ => none
  | .half => some (r.closeHalf result)
  | .halfSent id =>
    match r.transport.futures id with
    | some .pending | none => none
    | _ => some { r with closing := .transport }
  | .transport => some { r with transport := r.transport.close result, closing := .done }
  | .none | .done => none

/-! ### Runs -/

inductive Action where
  | setStatusCode (value : Int)
  | setHeader (name value : Text)
  | addHeader (name value : Text)
  /-- The map that the `headers` getter returns is changed. -/
  | changeHeaders (headers : List (Text × Text))
  | write (bytes : Bytes)
  | close
  | start (result : SendResult)
  | proceed (result : SendResult)
  | proceedClose (result : SendResult)
  /-- The transport handles an event of its reactor. Nothing listens to its input. -/
  | event (event : Event) (ack enable : SendResult)

/-- A call that throws changes nothing. -/
def orUnchanged (r : TailscaleHttpResponse) : Except String TailscaleHttpResponse → TailscaleHttpResponse
  | .ok r' => r'
  | .error _ => r

def step (r : TailscaleHttpResponse) : Action → Option TailscaleHttpResponse
  | .setStatusCode value => some (r.orUnchanged (r.setStatusCode value))
  | .setHeader name value => some (r.orUnchanged (r.setHeader name value))
  | .addHeader name value => some (r.orUnchanged (r.addHeader name value))
  | .changeHeaders headers => some { r with headers := headers }
  | .write bytes => some (r.orUnchanged (r.write bytes))
  | .close => some r.close
  | .start result => r.start result
  | .proceed result => r.proceed result
  | .proceedClose result => r.proceedClose result
  | .event event ack enable => some { r with transport := r.transport.handleReactorEvent event [] ack enable }

/-- The states a response over a transport just adopted reaches by actions that meet `ok`. -/
abbrev Reachable (ok : TailscaleHttpResponse → Action → Prop) : TailscaleHttpResponse → Prop :=
  Machine.Reachable step (fun a r => ok r a) {}

/-- If the action sends the head, the head fits. -/
def HeadFits (r : TailscaleHttpResponse) : Action → Prop
  | .start _ | .proceedClose _ => r.headSent = false → r.headPayload.length ≤ tailscaleMaxHttpHeadBytes
  | _ => True

end TailscaleHttpResponse

/-! ## The reader on the Go side -/

def httpMaxHeadBytes : Nat := 256 * 1024

inductive ReadError where
  | eof
  | unexpectedEOF
  | invalidLength (length : Nat)
  deriving DecidableEq, Repr

/-- `io.ReadFull`. -/
def readFull (n : Nat) (bytes : Bytes) : Except ReadError (Bytes × Bytes) :=
  if bytes.length < n then .error (if bytes.isEmpty then .eof else .unexpectedEOF)
  else .ok (bytes.take n, bytes.drop n)

/-- `readHTTPResponseHead` up to the decoding of the head: the bytes of the head, and what is left to read. -/
def readHTTPResponseHead (bytes : Bytes) : Except ReadError (Bytes × Bytes) := do
  let (head, rest) ← readFull 4 bytes
  match head with
  | [a, b, c, d] =>
    let length := LengthFrame.uint32 a b c d
    if length = 0 ∨ length > httpMaxHeadBytes then .error (.invalidLength length) else readFull length rest
  | _ => .error .unexpectedEOF

/-! ## The bytes handed to the transport -/

namespace TailscaleHttpResponse

open PosixFdTransport

/-- The body of the write that runs, once the transport took it. -/
def runningBody : Option (Bytes × Phase) → List Bytes
  | some (bytes, .body _) => [bytes]
  | _ => []

/-- The bodies the transport took, in call order. -/
def body (r : TailscaleHttpResponse) : List Bytes :=
  (r.finished.filter (·.taken)).map (·.bytes) ++ runningBody r.running

/-- The write of the transport that is awaited. -/
def awaited (running : Option (Bytes × Phase)) (closing : Closing) : Option Nat :=
  match running, closing with
  | some (_, .head id), _ => some id
  | some (_, .body id), _ => some id
  | none, .head id => some id
  | none, .halfSent id => some id
  | _, _ => none

/-- The head's write is awaited. -/
def Heading (r : TailscaleHttpResponse) : Prop :=
  (∃ bytes id, r.running = some (bytes, .head id)) ∨ ∃ id, r.closing = .head id

/-- The bytes of some head. -/
def IsHead (payload : Bytes) : Prop :=
  ∃ statusCode headers, payload = JsonText.encodeUtf8 (encodeHead statusCode headers)

/-- The transport is idle, or waits for the one write that is awaited. -/
def Attended (awaited : Option Nat) (t : PosixFdTransport) : Prop :=
  match awaited with
  | none => t.Idle
  | some id => ∃ byteCount, t.Waits id byteCount

structure Framed (r : TailscaleHttpResponse) : Prop where
  config : r.transport.config = {}
  order : r.enqueued = r.finished.map (·.bytes) ++ (r.running.map (·.1)).toList ++ r.queue
  attended : Attended (awaited r.running r.closing) r.transport
  -- once `close` has seen the chain done, nothing is in it
  alone : r.closing ≠ .none → r.closing ≠ .waiting → r.running = none ∧ r.queue = []
  closing : r.closing ≠ .none → r.closed = true
  unsent : r.headSent = false → r.handed = [] ∧ r.body = [] ∧ r.running = none
  sent : r.headSent = true → r.handed = [] ∧ r.body = [] ∧ r.transport.Dead ∨
    ∃ payload, IsHead payload ∧ payload.length ≤ tailscaleMaxHttpHeadBytes ∧
      r.handed = LengthFrame.frame payload :: r.body
  heading : r.Heading → r.body = [] ∧ r.headSent = true
  failed : r.headError ≠ none → r.body = [] ∧ r.transport.Dead ∧ r.headSent = true
  complete : ∀ f ∈ r.finished, f.error = none → f.taken = true ∨ f.bytes = []

theorem framed_init : Framed {} where
  config := rfl
  order := rfl
  attended := fun _ => ⟨rfl, rfl⟩
  alone := fun h => absurd rfl h
  closing := fun h => absurd rfl h
  unsent := fun _ => ⟨rfl, rfl, rfl⟩
  sent := nofun
  heading := by rintro (⟨_, _, ⟨⟩⟩ | ⟨_, ⟨⟩⟩)
  failed := fun h => absurd rfl h
  complete := nofun

variable {r : TailscaleHttpResponse}

theorem Framed.event (h : r.Framed) (event : Event) (ack enable : SendResult) :
    { r with transport := r.transport.handleReactorEvent event [] ack enable }.Framed :=
  { h with
    config := (handleReactorEvent_config r.transport event (by simp) ack enable).trans h.config
    attended := by
      have hattended := h.attended
      show Attended (awaited r.running r.closing) _
      cases hawaited : awaited r.running r.closing with
      | none =>
        rw [hawaited] at hattended
        exact Idle.handleReactorEvent hattended event (by simp) ack enable
      | some id =>
        rw [hawaited] at hattended
        obtain ⟨byteCount, hwaits⟩ := hattended
        exact ⟨byteCount, hwaits.handleReactorEvent event (by simp) ack enable⟩
    sent := by
      intro hsent
      cases h.sent hsent with
      | inl hnone => exact .inl ⟨hnone.1, hnone.2.1, hnone.2.2.handleReactorEvent event (by simp) ack enable⟩
      | inr hframe => exact .inr hframe
    failed := by
      intro herror
      obtain ⟨hbody, hdead, hsent⟩ := h.failed herror
      exact ⟨hbody, hdead.handleReactorEvent event (by simp) ack enable, hsent⟩ }

/-- Sending the head over an idle transport: it throws when the transport is dead, or its frame is handed over. -/
theorem sendHead_unsent (hsent : r.headSent = false) (hidle : r.transport.Idle) (hconfig : r.transport.config = {})
    (hfits : r.headPayload.length ≤ tailscaleMaxHttpHeadBytes) (result : SendResult) :
    (∃ message, r.sendHead result = (.throws message, { r with headSent := true }) ∧ r.transport.Dead) ∨
      ∃ id u, r.sendHead result = (.waits id, { r with
          headSent := true, transport := u, handed := r.handed ++ [LengthFrame.frame r.headPayload] }) ∧
        (∃ byteCount, u.Waits id byteCount) ∧ u.config = {} := by
  have hpayload : { r with headSent := true }.headPayload = r.headPayload := rfl
  unfold sendHead
  rw [if_neg (by simp [hsent])]
  simp only [hpayload]
  rw [if_neg (Nat.not_lt.mpr hfits)]
  unfold transportWrite
  cases hidle.write (LengthFrame.frame_ne_nil r.headPayload) result with
  | inl hrefused =>
    obtain ⟨message, hwrite, hwhy⟩ := hrefused
    simp only [hwrite, Sending.ofReturned]
    refine .inl ⟨message, rfl, ?_⟩
    cases hwhy with
    | inl hdead => exact hdead
    | inr hlarge =>
      rw [hconfig, LengthFrame.length_frame] at hlarge
      have hmax : 1024 * 1024 < 4 + r.headPayload.length := hlarge
      simp only [tailscaleMaxHttpHeadBytes] at hfits
      omega
  | inr htaken =>
    obtain ⟨-, -, id, u, hwrite, hwaits, hsame⟩ := htaken
    simp only [hwrite, Sending.ofReturned]
    exact .inr ⟨id, u, rfl, ⟨_, hwaits⟩, hsame.trans hconfig⟩

/-- While a write runs, `close` at most waits for the chain. -/
theorem Framed.closing_of_running (h : r.Framed) {running : Bytes × Phase}
    (hrunning : r.running = some running) : r.closing = .none ∨ r.closing = .waiting := by
  by_contra hne
  simp only [not_or] at hne
  cases hrunning.symm.trans (h.alone hne.1 hne.2).1

/-- A write runs only once the head was sent. -/
theorem Framed.sent_of_running (h : r.Framed) {running : Bytes × Phase} (hrunning : r.running = some running)
    {p : Prop} (hunsent : r.headSent = false) : p :=
  absurd (hrunning.symm.trans (h.unsent hunsent).2.2) nofun

variable {bytes : Bytes} {r' : TailscaleHttpResponse}

theorem Framed.write (h : r.Framed) (hwrite : r.write bytes = .ok r') : r'.Framed := by
  unfold TailscaleHttpResponse.write at hwrite
  split at hwrite
  · cases hwrite
  next hopen =>
  cases hwrite
  have hnone : r.closing = .none := by
    by_contra hne
    exact hopen (h.closing hne)
  exact { h with
    order := by simp only [h.order, List.append_assoc]
    alone := fun hne => absurd hnone hne }

theorem Framed.close {r : TailscaleHttpResponse} (h : r.Framed) : r.close.Framed := by
  unfold TailscaleHttpResponse.close
  split
  · exact h
  next hopen =>
  have hnone : r.closing = .none := by
    by_contra hne
    exact hopen (h.closing hne)
  have hattended := h.attended
  rw [hnone] at hattended
  refine { h with attended := ?_, alone := fun _ hne => absurd rfl hne, closing := fun _ => rfl, heading := ?_ }
  · show Attended (awaited r.running .waiting) r.transport
    cases hrunning : r.running with
    | none =>
      rw [hrunning] at hattended
      exact hattended
    | some running =>
      obtain ⟨bytes, phase⟩ := running
      rw [hrunning] at hattended
      cases phase <;> exact hattended
  · rintro (hrunning | ⟨_, ⟨⟩⟩)
    exact h.heading (.inl hrunning)

variable {queue : List Bytes}

/-- While the chain is not done, `close` at most waits for it. -/
theorem Framed.closing_of_queue (h : r.Framed)
    (hqueue : r.queue = bytes :: queue) : r.closing = .none ∨ r.closing = .waiting := by
  by_contra hne
  simp only [not_or] at hne
  cases hqueue.symm.trans (h.alone hne.1 hne.2).2

theorem Framed.idle (h : r.Framed) (hrunning : r.running = none ∨ ∃ bytes, r.running = some (bytes, .ready))
    (hclosing : r.closing = .none ∨ r.closing = .waiting) : r.transport.Idle := by
  have hattended := h.attended
  cases hrunning with
  | inl hnone =>
    rw [hnone] at hattended
    cases hclosing with
    | inl hopen => rw [hopen] at hattended; exact hattended
    | inr hwaiting => rw [hwaiting] at hattended; exact hattended
  | inr hready =>
    obtain ⟨bytes, hready⟩ := hready
    rw [hready] at hattended
    exact hattended

/-- The write that runs completes. Its body is taken exactly if it was taken while the write ran. -/
theorem Framed.finish (h : r.Framed) {phase : Phase}
    (hrunning : r.running = some (bytes, phase)) (hidle : r.transport.Idle) (taken : Bool) (error : Option String)
    (htaken : taken = true ↔ ∃ id, phase = .body id) (hcomplete : error = none → taken = true ∨ bytes = []) :
    (r.finish bytes taken error).Framed ∧ (r.finish bytes taken error).body = r.body := by
  have hclosing := h.closing_of_running hrunning
  have horder := h.order
  rw [hrunning] at horder
  have hbody : (r.finish bytes taken error).body = r.body := by
    simp only [body, TailscaleHttpResponse.finish, hrunning, List.filter_append, List.map_append]
    cases phase with
    | body id =>
      have : taken = true := htaken.mpr ⟨id, rfl⟩
      simp [runningBody, this]
    | head id | ready =>
      have : taken = false := by simpa using htaken
      simp [runningBody, this]
  refine ⟨{ h with
    order := by simp [TailscaleHttpResponse.finish, horder]
    attended := ?_
    alone := fun hne hne' => (hclosing.elim hne hne').elim
    unsent := h.sent_of_running hrunning
    sent := by rw [hbody]; exact h.sent
    heading := ?_
    failed := by rw [hbody]; exact h.failed
    complete := ?_ }, hbody⟩
  · cases hclosing with
    | inl hnone => simpa [TailscaleHttpResponse.finish, hnone, awaited, Attended] using hidle
    | inr hwaiting => simpa [TailscaleHttpResponse.finish, hwaiting, awaited, Attended] using hidle
  · rintro (⟨_, _, ⟨⟩⟩ | hclosing')
    rw [hbody]
    exact h.heading (.inr hclosing')
  · intro f hf herror
    cases List.mem_append.mp hf with
    | inl hold => exact h.complete f hold herror
    | inr hnew =>
      cases List.mem_singleton.mp hnew
      exact hcomplete herror

theorem Framed.withHeadError (h : r.Framed) (message : String) (hbody : r.body = [])
    (hdead : r.transport.Dead) (hsent : r.headSent = true) : { r with headError := some message }.Framed :=
  { h with
    failed := fun _ => ⟨hbody, hdead, hsent⟩ }

theorem Framed.markSent (h : r.Framed) (hunsent : r.headSent = false)
    (hdead : r.transport.Dead) : { r with headSent := true }.Framed :=
  { h with
    unsent := nofun
    sent := fun _ => .inl ⟨(h.unsent hunsent).1, (h.unsent hunsent).2.1, hdead⟩
    heading := fun hheading => ⟨(h.heading hheading).1, rfl⟩
    failed := fun herror => ⟨(h.failed herror).1, hdead, rfl⟩ }

theorem Framed.begin (h : r.Framed) (hrunning : r.running = none) (hqueue : r.queue = bytes :: queue)
    (hsent : r.headSent = true) : { r with queue := queue, running := some (bytes, .ready) }.Framed := by
  have hclosing := h.closing_of_queue hqueue
  have horder := h.order
  rw [hrunning, hqueue] at horder
  have hbody : ({ r with queue := queue, running := some (bytes, .ready) } : TailscaleHttpResponse).body = r.body := by
    simp only [body, hrunning, runningBody]
  refine { h with
    order := by simp [horder]
    attended := h.idle (.inl hrunning) hclosing
    alone := fun hne hne' => (hclosing.elim hne hne').elim
    unsent := fun hunsent => absurd (hsent.symm.trans hunsent) nofun
    sent := by rw [hbody]; exact h.sent
    heading := ?_
    failed := by rw [hbody]; exact h.failed }
  rintro (⟨_, _, ⟨⟩⟩ | ⟨id, hid⟩)
  rcases hclosing with hclosing | hclosing <;> cases hclosing.symm.trans hid

/-- The frame of the head is handed over, by a write that runs or by `close`. -/
theorem Framed.handHead (h : r.Framed) (hunsent : r.headSent = false) {payload : Bytes} (hhead : IsHead payload)
    (hfits : payload.length ≤ tailscaleMaxHttpHeadBytes) {u : PosixFdTransport} {id : Nat}
    (hwaits : ∃ byteCount, u.Waits id byteCount) (hconfig : u.config = {}) {running : Option (Bytes × Phase)}
    {closing : Closing} (horder : (running.map (·.1)).toList ++ queue = r.queue)
    (hawaited : awaited running closing = some id)
    (halone : closing ≠ .none → closing ≠ .waiting → running = none ∧ queue = [])
    (hclosing : closing ≠ .none → r.closed = true) (hbody : runningBody running = []) : { r with
      headSent := true, transport := u, handed := r.handed ++ [LengthFrame.frame payload], running := running
      queue := queue, closing := closing }.Framed := by
  obtain ⟨hhanded, hnone, hrunning⟩ := h.unsent hunsent
  have hfinished : (r.finished.filter (·.taken)).map (·.bytes) = [] := by
    simpa [body, hrunning, runningBody] using hnone
  have hbody' : ({ r with
      headSent := true, transport := u, handed := r.handed ++ [LengthFrame.frame payload], running := running
      queue := queue, closing := closing } : TailscaleHttpResponse).body = [] := by
    simp only [body, hfinished, hbody, List.append_nil]
  have hold := h.order
  rw [hrunning] at hold
  refine { h with
    config := hconfig
    order := ?_
    attended := ?_
    alone := halone
    closing := hclosing
    unsent := nofun
    sent := fun _ => .inr ⟨payload, hhead, hfits, by rw [hbody', hhanded]; rfl⟩
    heading := fun _ => ⟨hbody', rfl⟩
    failed := fun herror => absurd (hunsent.symm.trans (h.failed herror).2.2) nofun }
  · simp only [List.append_assoc, horder]
    simpa using hold
  · show Attended (awaited running closing) u
    rw [hawaited]
    exact hwaits

theorem sendHead_sent (hsent : r.headSent = true) (result : SendResult) : r.sendHead result = (.sent, r) := by
  unfold sendHead
  rw [if_pos hsent]

variable {result : SendResult}

theorem Framed.start (h : r.Framed) (hfits : r.headSent = false → r.headPayload.length ≤ tailscaleMaxHttpHeadBytes)
    (hstart : r.start result = some r') : r'.Framed := by
  unfold TailscaleHttpResponse.start at hstart
  split at hstart
  case h_2 => cases hstart
  next bytes queue hrunning hqueue =>
  have hclosing := h.closing_of_queue hqueue
  by_cases hsent : r.headSent = true
  · rw [sendHead_sent (r := { r with queue := queue }) hsent] at hstart
    cases hstart
    exact h.begin hrunning hqueue hsent
  · have hunsent : r.headSent = false := by simpa using hsent
    have hidle := h.idle (.inl hrunning) hclosing
    cases sendHead_unsent (r := { r with queue := queue }) hunsent hidle h.config (hfits hunsent) result with
    | inl hthrows =>
      obtain ⟨message, hsend, hdead⟩ := hthrows
      rw [hsend] at hstart
      cases hstart
      have hbegun := (h.markSent hunsent hdead).begin hrunning hqueue rfl
      obtain ⟨hfinished, hbody⟩ := hbegun.finish rfl hidle false (some message) (by simp) (by simp)
      have hnone : r.body = [] := (h.unsent hunsent).2.1
      exact hfinished.withHeadError message (hbody.trans (by simpa [body, hrunning, runningBody] using hnone)) hdead rfl
    | inr hwaits =>
      obtain ⟨id, u, hsend, hwait, hconfig⟩ := hwaits
      rw [hsend] at hstart
      cases hstart
      exact h.handHead hunsent ⟨_, _, rfl⟩ (hfits hunsent) hwait hconfig (by simp [hqueue]) rfl
        (fun hne hne' => (hclosing.elim hne hne').elim) h.closing rfl

/-- The body of the write that runs: the transport takes it, or refuses it. -/
theorem Framed.writeBody (h : r.Framed)
    (hrunning : r.running = some (bytes, .ready)) (result : SendResult) : (r.writeBody bytes result).Framed := by
  have hclosing := h.closing_of_running hrunning
  have hidle := h.idle (.inr ⟨bytes, hrunning⟩) hclosing
  have horder := h.order
  rw [hrunning] at horder
  unfold TailscaleHttpResponse.writeBody
  split
  · next hempty => exact (h.finish hrunning hidle false none (by simp) fun _ => .inr (by simpa using hempty)).1
  next hne =>
  unfold transportWrite
  cases hidle.write (by simpa using hne) result with
  | inl hrefused =>
    obtain ⟨message, hwrite, -⟩ := hrefused
    simp only [hwrite, Sending.ofReturned]
    exact (h.finish hrunning hidle false (some message) (by simp) (by simp)).1
  | inr htaken =>
    obtain ⟨halive, -, id, u, hwrite, hwaits, hsame⟩ := htaken
    simp only [hwrite, Sending.ofReturned]
    have hbody : ({ r with transport := u, handed := r.handed ++ [bytes], running := some (bytes, .body id) } :
        TailscaleHttpResponse).body = r.body ++ [bytes] := by
      simp [body, hrunning, runningBody]
    refine { h with
      config := hsame.trans h.config
      order := by simp [horder]
      attended := ⟨_, hwaits⟩
      alone := fun hne hne' => (hclosing.elim hne hne').elim
      unsent := h.sent_of_running hrunning
      sent := ?_
      heading := ?_
      failed := fun herror => absurd (h.failed herror).2.1 halive }
    · intro hsent
      rw [hbody]
      -- a transport that takes a body is not the one that refused the head
      cases h.sent hsent with
      | inl hnone => exact absurd hnone.2.2 halive
      | inr hframe =>
        obtain ⟨payload, hhead, hfits, hhanded⟩ := hframe
        exact .inr ⟨payload, hhead, hfits, by simp [hhanded]⟩
    · rintro (⟨_, _, ⟨⟩⟩ | ⟨id', hid⟩)
      rcases hclosing with hclosing | hclosing <;> cases hclosing.symm.trans hid

/-- The head's write is acknowledged: the write that runs may go on with its body. -/
theorem Framed.ready (h : r.Framed) {id : Nat} (hrunning : r.running = some (bytes, .head id))
    (hidle : r.transport.Idle) : { r with running := some (bytes, .ready) }.Framed := by
  have hclosing := h.closing_of_running hrunning
  have horder := h.order
  rw [hrunning] at horder
  have hbody : ({ r with running := some (bytes, .ready) } : TailscaleHttpResponse).body = r.body := by
    simp [body, hrunning, runningBody]
  exact { h with
    order := horder
    attended := hidle
    alone := fun hne hne' => (hclosing.elim hne hne').elim
    unsent := h.sent_of_running hrunning
    sent := by rw [hbody]; exact h.sent
    heading := fun _ => by rw [hbody]; exact h.heading (.inl ⟨bytes, id, hrunning⟩)
    failed := by rw [hbody]; exact h.failed }

theorem Framed.proceed (h : r.Framed) (hproceed : r.proceed result = some r') : r'.Framed := by
  unfold TailscaleHttpResponse.proceed at hproceed
  have hattended := h.attended
  split at hproceed
  · cases hproceed
  · next bytes id hrunning =>
    rw [hrunning] at hattended
    obtain ⟨byteCount, hwaits⟩ := hattended
    split at hproceed
    · next hvalue =>
      cases hproceed
      exact h.ready hrunning (hwaits.settled (by simp [hvalue]))
    · next message herror =>
      cases hproceed
      have hidle := hwaits.settled (by simp [herror])
      obtain ⟨hfinished, hbody⟩ := h.finish hrunning hidle false (some message) (by simp) (by simp)
      obtain ⟨hnone, hsent⟩ := h.heading (.inl ⟨bytes, id, hrunning⟩)
      exact hfinished.withHeadError message (hbody.trans hnone) (hwaits.dead_of_error herror) hsent
    · cases hproceed
  · next bytes hrunning =>
    cases hproceed
    exact h.writeBody hrunning result
  · next bytes id hrunning =>
    rw [hrunning] at hattended
    obtain ⟨byteCount, hwaits⟩ := hattended
    split at hproceed
    · next hvalue =>
      cases hproceed
      exact (h.finish hrunning (hwaits.settled (by simp [hvalue])) true none (by simp) (by simp)).1
    · next message herror =>
      cases hproceed
      exact (h.finish hrunning (hwaits.settled (by simp [herror])) true (some message) (by simp) (by simp)).1
    · cases hproceed

/-- `close` moves on to a step that awaits nothing, or awaits the half-close. -/
theorem Framed.withClosing (h : r.Framed) (hrunning : r.running = none)
    (hqueue : r.queue = []) (hclosed : r.closed = true) {c : Closing} (hhead : ∀ id, c ≠ .head id)
    {u : PosixFdTransport} (hattended : Attended (awaited none c) u) (hconfig : u.config = {})
    (hdead : r.transport.Dead → u.Dead) : { r with transport := u, closing := c }.Framed := by
  refine { h with
    config := hconfig
    attended := by rw [hrunning]; exact hattended
    alone := fun _ _ => ⟨hrunning, hqueue⟩
    closing := fun _ => hclosed
    sent := ?_
    heading := ?_
    failed := ?_ }
  · intro hsent
    cases h.sent hsent with
    | inl hnone => exact .inl ⟨hnone.1, hnone.2.1, hdead hnone.2.2⟩
    | inr hframe => exact .inr hframe
  · rintro (⟨_, _, hrun⟩ | ⟨id, hid⟩)
    · cases hrunning.symm.trans hrun
    · exact absurd hid (hhead id)
  · intro herror
    obtain ⟨hbody, hdead', hsent⟩ := h.failed herror
    exact ⟨hbody, hdead hdead', hsent⟩

/-- The chain is done, and `close` sends the head when no write did. -/
theorem Framed.closeHead (h : r.Framed) (hrunning : r.running = none) (hqueue : r.queue = [])
    (hwaiting : r.closing = .waiting)
    (hfits : r.headSent = false → r.headPayload.length ≤ tailscaleMaxHttpHeadBytes) : (r.closeHead result).Framed := by
  have hclosed : r.closed = true := h.closing (by simp [hwaiting])
  have hidle := h.idle (.inl hrunning) (.inr hwaiting)
  unfold TailscaleHttpResponse.closeHead
  by_cases hsent : r.headSent = true
  · rw [sendHead_sent hsent]
    exact h.withClosing hrunning hqueue hclosed (by simp) hidle h.config id
  · have hunsent : r.headSent = false := by simpa using hsent
    cases sendHead_unsent hunsent hidle h.config (hfits hunsent) result with
    | inl hthrows =>
      obtain ⟨message, hsend, hdead⟩ := hthrows
      rw [hsend]
      have hmarked := h.markSent hunsent hdead
      have hmoved := hmarked.withClosing (c := .transport) hrunning hqueue hclosed (by simp) hidle h.config id
      exact hmoved.withHeadError message (h.unsent hunsent).2.1 hdead rfl
    | inr hwaits =>
      obtain ⟨id, u, hsend, hwait, hconfig⟩ := hwaits
      rw [hsend]
      exact h.handHead hunsent ⟨_, _, rfl⟩ (hfits hunsent) hwait hconfig (by simp [hrunning, hqueue])
        (by rw [hrunning]; rfl) (fun _ _ => ⟨hrunning, hqueue⟩) (fun _ => hclosed) (by rw [hrunning]; rfl)

theorem Framed.closeHalf (h : r.Framed) (hhalf : r.closing = .half) (result : SendResult) :
    (r.closeHalf result).Framed := by
  obtain ⟨hrunning, hqueue⟩ := h.alone (by simp [hhalf]) (by simp [hhalf])
  have hclosed : r.closed = true := h.closing (by simp [hhalf])
  have hidle : r.transport.Idle := by
    have hattended := h.attended
    rw [hrunning, hhalf] at hattended
    exact hattended
  unfold TailscaleHttpResponse.closeHalf
  cases hidle.closeWrite result with
  | inl hdone =>
    simp only [hdone.1]
    exact h.withClosing hrunning hqueue hclosed (by simp) hidle h.config id
  | inr hwaits =>
    obtain ⟨id, u, hcall, hwaits, hconfig, hdead⟩ := hwaits
    simp only [hcall]
    exact h.withClosing hrunning hqueue hclosed (by simp) ⟨0, hwaits⟩ (hconfig.trans h.config) fun _ => hdead

/-- `close` goes on. -/
theorem Framed.proceedClose (h : r.Framed)
    (hfits : r.headSent = false → r.headPayload.length ≤ tailscaleMaxHttpHeadBytes)
    (hproceed : r.proceedClose result = some r') : r'.Framed := by
  unfold TailscaleHttpResponse.proceedClose at hproceed
  split at hproceed
  · next hwaiting =>
    split at hproceed
    · cases hproceed
    next hdone =>
    simp only [Bool.or_eq_true, Option.isSome_iff_ne_none, Bool.not_eq_true', not_or, not_not, Bool.not_eq_false,
      List.isEmpty_iff] at hdone
    cases hproceed
    exact h.closeHead hdone.1 hdone.2 hwaiting hfits
  · next id hhead =>
    obtain ⟨hrunning, hqueue⟩ := h.alone (by simp [hhead]) (by simp [hhead])
    have hclosed : r.closed = true := h.closing (by simp [hhead])
    have hattended := h.attended
    rw [hrunning, hhead] at hattended
    obtain ⟨byteCount, hwaits⟩ := hattended
    split at hproceed
    · next hvalue =>
      cases hproceed
      have hidle := hwaits.settled (by simp [hvalue])
      exact h.withClosing hrunning hqueue hclosed (by simp) hidle h.config (fun hd => hd)
    · next message herror =>
      cases hproceed
      have hidle := hwaits.settled (by simp [herror])
      have hmoved := h.withClosing (c := .transport) hrunning hqueue hclosed (by simp) hidle h.config (fun hd => hd)
      obtain ⟨hnone, hsent⟩ := h.heading (.inr ⟨id, hhead⟩)
      exact hmoved.withHeadError message hnone (hwaits.dead_of_error herror) hsent
    · cases hproceed
  · next hhalf =>
    cases hproceed
    exact h.closeHalf hhalf result
  · next id hhalf =>
    obtain ⟨hrunning, hqueue⟩ := h.alone (by simp [hhalf]) (by simp [hhalf])
    have hclosed : r.closed = true := h.closing (by simp [hhalf])
    have hattended := h.attended
    rw [hrunning, hhalf] at hattended
    obtain ⟨byteCount, hwaits⟩ := hattended
    split at hproceed
    · cases hproceed
    · cases hproceed
    next hpending _ =>
    cases hproceed
    exact h.withClosing hrunning hqueue hclosed (by simp) (hwaits.settled hpending) h.config (fun hd => hd)
  · next htransport =>
    cases hproceed
    obtain ⟨hrunning, hqueue⟩ := h.alone (by simp [htransport]) (by simp [htransport])
    have hclosed : r.closed = true := h.closing (by simp [htransport])
    have hidle : r.transport.Idle := by
      have hattended := h.attended
      rw [hrunning, htransport] at hattended
      exact hattended
    have hclose : Quietly r.transport (r.transport.close result) := Quietly.call (c := .close result) trivial
    exact h.withClosing hrunning hqueue hclosed (by simp) (hidle.quietly hclose) (hclose.config.trans h.config)
      hclose.dead
  · cases hproceed
  · cases hproceed

theorem Framed.step {r r' : TailscaleHttpResponse} (h : r.Framed) {a : Action} (ha : r.HeadFits a)
    (hstep : r.step a = some r') : r'.Framed := by
  cases a with
  | setStatusCode value =>
    cases hstep
    cases hcall : r.setStatusCode value with
    | error message => exact h
    | ok r' =>
      unfold setStatusCode at hcall
      split at hcall
      · cases hcall
      split at hcall
      · cases hcall
      · cases hcall
        exact { h with }
  | setHeader name value =>
    cases hstep
    unfold setHeader checkHeaderMutable
    split
    · exact h
    · exact { h with }
  | addHeader name value =>
    cases hstep
    unfold addHeader checkHeaderMutable
    split
    · exact h
    · simp only [bind, Except.bind]
      split
      · exact { h with }
      · exact { h with }
  | changeHeaders headers =>
    cases hstep
    exact { h with }
  | write bytes =>
    cases hstep
    cases hcall : r.write bytes with
    | error message => exact h
    | ok r' => exact h.write hcall
  | close =>
    cases hstep
    exact h.close
  | start result => exact h.start ha hstep
  | proceed result => exact h.proceed hstep
  | proceedClose result => exact h.proceedClose ha hstep
  | event event ack enable =>
    cases hstep
    exact h.event event ack enable

theorem framed_of_reachable (h : Reachable HeadFits r) : r.Framed :=
  h.invariant framed_init fun _ _ _ h ha hstep => h.step ha hstep

theorem IsHead.ne_nil {payload : Bytes} (h : IsHead payload) : payload ≠ [] := by
  obtain ⟨statusCode, headers, rfl⟩ := h
  have hlength := JsonText.length_le_encodeUtf8 (encodeHead statusCode headers)
  intro hnil
  rw [hnil] at hlength
  simp [encodeHead] at hlength

end TailscaleHttpResponse

theorem readHTTPResponseHead_frame {payload : Bytes} (hne : payload ≠ []) (hfits : payload.length ≤ httpMaxHeadBytes)
    (rest : Bytes) : readHTTPResponseHead (LengthFrame.frame payload ++ rest) = .ok (payload, rest) := by
  have hpos := List.length_pos_iff.mpr hne
  have hlength : payload.length < 2 ^ 32 := Nat.lt_of_le_of_lt hfits (by decide)
  have hfour : readFull 4 (LengthFrame.frame payload ++ rest) =
      .ok (LengthFrame.putUint32 payload.length, payload ++ rest) := by
    simp [readFull, LengthFrame.frame, LengthFrame.putUint32]
  have hread : readFull payload.length (payload ++ rest) = .ok (payload, rest) := by
    simp [readFull]
  unfold readHTTPResponseHead
  rw [hfour]
  simp only [bind, Except.bind, LengthFrame.putUint32, LengthFrame.uint32_putUint32 hlength]
  rw [if_neg (by omega), hread]

namespace TailscaleHttpResponse

/-- In every run in which the head fits when it is sent: the writes complete in call order; nothing was handed to
the transport, or one head frame and then the bodies it took, in call order, and that frame is what the Go side
reads as the head; once sending the head has failed no body is ever handed over; and a write that completed
without an error handed over its body. -/
theorem response_framed {r : TailscaleHttpResponse} (h : Reachable HeadFits r) :
    r.enqueued = r.finished.map (·.bytes) ++ (r.running.map (·.1)).toList ++ r.queue ∧ (r.handed = [] ∧ r.body = [] ∨
        ∃ payload, IsHead payload ∧ r.handed = LengthFrame.frame payload :: r.body ∧
          readHTTPResponseHead r.handed.flatten = .ok (payload, r.body.flatten)) ∧
      (r.headError ≠ none → r.body = []) ∧
      ∀ f ∈ r.finished, f.error = none → f.taken = true ∨ f.bytes = [] := by
  have hframed := framed_of_reachable h
  refine ⟨hframed.order, ?_, fun herror => (hframed.failed herror).1, hframed.complete⟩
  by_cases hsent : r.headSent = true
  · cases hframed.sent hsent with
    | inl hnone => exact .inl ⟨hnone.1, hnone.2.1⟩
    | inr hframe =>
      obtain ⟨payload, hhead, hfits, hhanded⟩ := hframe
      refine .inr ⟨payload, hhead, hhanded, ?_⟩
      rw [hhanded, List.flatten_cons]
      exact readHTTPResponseHead_frame hhead.ne_nil hfits _
  · obtain ⟨hhanded, hbody, -⟩ := hframed.unsent (by simpa using hsent)
    exact .inl ⟨hhanded, hbody⟩

/-- A write whose head is acknowledged and whose body is taken. -/
theorem response_framed_one :
    ∃ r, Reachable HeadFits r ∧ r.body = [[7]] ∧ (r.handed = [] ∧ r.body = [] ∨
        ∃ payload, IsHead payload ∧ r.handed = LengthFrame.frame payload :: r.body ∧
          readHTTPResponseHead r.handed.flatten = .ok (payload, r.body.flatten)) := by
  have h0 : Reachable HeadFits {} := .start
  have h1 := h0.next (.write [7]) trivial rfl
  have h2 := h1.next (.start .ok) (fun _ => by decide) rfl
  have h3 := h2.next (.event (.writeOk 1) .ok .ok) trivial rfl
  have h4 := h3.next (.proceed .ok) trivial rfl
  have h5 := h4.next (.proceed .ok) trivial rfl
  exact ⟨_, h5, rfl, (response_framed h5).2.1⟩

/-! ## A head that does not fit -/

theorem length_le_encodeString (text : Text) : text.length ≤ (encodeString text).length := by
  have hchar : ∀ c, 1 ≤ (encodeChar c).length := by
    intro c
    unfold encodeChar
    repeat' split
    all_goals simp [JsonText.quoteUnit]
  have hflat : text.length ≤ (text.flatMap encodeChar).length := by
    induction text with
    | nil => exact Nat.zero_le _
    | cons c rest ih =>
      have := hchar c
      simp only [List.flatMap_cons, List.length_cons, List.length_append]
      omega
  simp only [encodeString, List.length_cons, List.length_append]
  omega

variable {r : TailscaleHttpResponse}

theorem headPayload_oversized {name value : Text} (hheaders : r.headers = [(name, value)])
    (hextra : r.extraHeaderValues = []) (hvalue : tailscaleMaxHttpHeadBytes ≤ value.length) :
    tailscaleMaxHttpHeadBytes < r.headPayload.length := by
  have hsnapshot : r.headerSnapshot = [(name, [value])] := by simp [headerSnapshot, hheaders, hextra]
  have hbytes := JsonText.length_le_encodeUtf8 (encodeHead r.statusCode r.headerSnapshot)
  have hstring := length_le_encodeString value
  have htext : (encodeString value).length < (encodeHead r.statusCode r.headerSnapshot).length := by
    rw [hsnapshot]
    simp only [encodeHead, encodeHeader, commaSeparated, List.map_cons, List.map_nil, List.length_cons,
      List.length_append]
    omega
  unfold headPayload
  omega

/-- Sending such a head throws, and leaves it marked as sent. -/
theorem sendHead_oversized (hsent : r.headSent = false) (hlarge : tailscaleMaxHttpHeadBytes < r.headPayload.length)
    (result : SendResult) :
    r.sendHead result = (.throws "HTTP response headers are too large.", { r with headSent := true }) := by
  have hpayload : ({ r with headSent := true } : TailscaleHttpResponse).headPayload = r.headPayload := rfl
  unfold sendHead
  rw [if_neg (by simp [hsent])]
  simp only [hpayload, if_pos hlarge]

theorem start_throws {s : TailscaleHttpResponse} {bytes : Bytes} {queue : List Bytes} {message : String}
    {result : SendResult} (hrunning : r.running = none) (hqueue : r.queue = bytes :: queue)
    (hsend : { r with queue := queue }.sendHead result = (.throws message, s)) :
    r.step (.start result) = some (s.failHead bytes message) := by
  show r.start result = _
  unfold TailscaleHttpResponse.start
  split
  · next first rest _ hfirst =>
    rw [hqueue] at hfirst
    cases hfirst
    rw [hsend]
  · next hnone => exact (hnone bytes queue hrunning hqueue).elim

/-- Two writes under such a header: the first fails and the second hands over its body. -/
theorem reachable_oversized (value : Text) (hvalue : tailscaleMaxHttpHeadBytes ≤ value.length) :
    ∃ r, Reachable (fun _ _ => True) r ∧ r.headError = some "HTTP response headers are too large." ∧
      r.handed = [[2]] ∧ r.body = [[2]] := by
  have h0 : Reachable (fun _ _ => True) {} := .start
  have h1 : Reachable (fun _ _ => True) { headers := [(['a'], value)] } := h0.next (.setHeader ['a'] value) trivial rfl
  have h2 : Reachable (fun _ _ => True) { headers := [(['a'], value)], queue := [[1]], enqueued := [[1]] } :=
    h1.next (.write [1]) trivial rfl
  have h3 : Reachable (fun _ _ => True)
      { headers := [(['a'], value)], queue := [[1], [2]], enqueued := [[1], [2]] } :=
    h2.next (.write [2]) trivial rfl
  have hsend := sendHead_oversized
    (r := { headers := [(['a'], value)], queue := [[2]], enqueued := [[1], [2]] }) rfl
    (headPayload_oversized rfl rfl hvalue) .ok
  have h4 := h3.next (.start .ok) trivial (start_throws rfl rfl hsend)
  have h5 := h4.next (.start .ok) trivial rfl
  have h6 := h5.next (.proceed .ok) trivial rfl
  exact ⟨_, h6, rfl, rfl, rfl⟩

/-- The first of two writes fails because the head is too large; the second hands over its body, and it is the
first thing the transport is given. -/
theorem oversized_head_sends_body :
    ∃ r, Reachable (fun _ _ => True) r ∧ r.headError = some "HTTP response headers are too large." ∧
      r.handed = [[2]] ∧ r.body = [[2]] :=
  reachable_oversized (List.replicate tailscaleMaxHttpHeadBytes 'x') (Nat.le_of_eq List.length_replicate.symm)

end TailscaleHttpResponse

end TailscaleDart.Http
