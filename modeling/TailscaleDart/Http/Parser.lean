import Mathlib.Data.Countable.Basic
import Mathlib.Data.List.Nodup
import Mathlib.Logic.Equiv.List
import TailscaleDart.Http.Response

/-!
# Http.Parser — a response head across two languages and any chunk boundaries

Go writes a response head as a JSON object behind its length; Dart's `_HttpResponseParser` takes the
bytes as they come, in chunks that may end inside the length, inside the head or inside the body.

* `outcome_run`: whatever the chunks, the outcome is that of the whole byte string (`readStream`), so it
  does not depend on the cuts.
* `parser_agrees`: for a head that Go writes, that outcome is the head and the body, field by field. What Go
  omits Dart sees as null: an empty reason phrase. A head with an error, or with a status that is not one, is a
  failure.

The JSON libraries are a parameter; all that is used of them is that a head written by the one is read by
the other (`JsonLibraries`). A head that is an object with members of other types than Go's, where a cast throws
out of the handler, is left aside (`Typed`).
-/

namespace TailscaleDart.Http

open TailscaleDart.Fd (Bytes)
open TailscaleDart.JsonText (IsInt64)

/-! ## The head as JSON -/

/-- The members of the object, with the types Go emits. A member that is absent is null, and so is a list of
values that Go has not allocated. -/
structure HeadJson where
  error : Option Text
  statusCode : Option Int
  reasonPhrase : Option Text
  headers : Option (List (Text × Option (List Text)))
  contentLength : Option Int
  deriving DecidableEq

/-- A map, in the order `json.Marshal` gives its keys. -/
abbrev Sorted (entries : List (Text × Option (List Text))) : Prop := entries.Pairwise fun a b => a.1 < b.1

/-- What Go can marshal: the integers have 64 bits, and the names of the headers are those of a map. -/
structure HeadJson.Marshalled (head : HeadJson) : Prop where
  statusCode : ∀ n ∈ head.statusCode, IsInt64 n
  contentLength : ∀ n ∈ head.contentLength, IsInt64 n
  headers : ∀ entries ∈ head.headers, Sorted entries

/-- What `_completeHead` finds in a payload. -/
inductive Decoded where
  /-- The error of `utf8.decode`, of `jsonDecode`, or of the cast to a map. -/
  | invalid (error : Text)
  | head (head : HeadJson)
  /-- An object with members of other types. -/
  | untyped
  deriving DecidableEq

/-- `json.Marshal` on the one side, `utf8.decode` and `jsonDecode` on the other. -/
structure JsonLibraries where
  marshal : HeadJson → Bytes
  jsonDecode : Bytes → Decoded
  roundTrip : ∀ head : HeadJson, head.Marshalled → jsonDecode (marshal head) = .head head
  -- an object has its two braces
  ne_nil : ∀ head, marshal head ≠ []

/-! ## Go -/

/-- `httpResponseHead`, with the headers in the order they are marshalled in. -/
structure HttpResponseHead where
  statusCode : Int := 0
  reasonPhrase : Text := []
  headers : List (Text × Option (List Text)) := []
  contentLength : Int := 0
  error : Text := []
  ints : IsInt64 statusCode ∧ IsInt64 contentLength := by decide
  sorted : Sorted headers := by exact .nil

/-- The struct tags: every member but the content length is omitted when empty. -/
def HttpResponseHead.toJson (head : HttpResponseHead) : HeadJson where
  error := if head.error = [] then none else some head.error
  statusCode := if head.statusCode = 0 then none else some head.statusCode
  reasonPhrase := if head.reasonPhrase = [] then none else some head.reasonPhrase
  headers := if head.headers = [] then none else some head.headers
  contentLength := some head.contentLength

theorem HttpResponseHead.marshalled (head : HttpResponseHead) : head.toJson.Marshalled where
  statusCode := by
    intro n hn
    obtain ⟨-, rfl⟩ : ¬head.statusCode = 0 ∧ head.statusCode = n := by simpa [toJson] using hn
    exact head.ints.1
  contentLength := by
    rintro n ⟨⟩
    exact head.ints.2
  headers := by
    intro entries hentries
    obtain ⟨-, rfl⟩ : ¬head.headers = [] ∧ head.headers = entries := by simpa [toJson] using hentries
    exact head.sorted

def writeHTTPResponseHead (json : JsonLibraries) (head : HttpResponseHead) : Except String Bytes :=
  let payload := json.marshal head.toJson
  if payload.length > httpMaxHeadBytes then
    .error ("HTTP response head too large: " ++ toString payload.length ++ " bytes")
  else .ok (LengthFrame.frame payload)

/-! ## Dart -/

inductive Failure where
  | invalidLength
  | invalidHead (error : Text)
  | client (message : Text)
  | invalidStatus
  | closedBeforeHeader
  deriving DecidableEq, Repr

def Failure.message : Failure → Text
  | .invalidLength => "Invalid HTTP response head length.".toList
  | .invalidHead error => "Invalid HTTP response head: ".toList ++ error
  | .client message => message
  | .invalidStatus => "Invalid HTTP response status.".toList
  | .closedBeforeHeader => "HTTP response closed before header.".toList

structure StreamedResponse where
  statusCode : Int
  contentLength : Option Int
  headers : List (Text × Text)
  reasonPhrase : Option Text
  deriving DecidableEq

section Head

-- `String.toLowerCase`
variable (toLowerCase : Text → Text) (json : JsonLibraries)

def parseContentLength : Option Int → Option Int
  | some value => if value ≥ 0 then some value else none
  | none => none

/-- The values of one name, joined; null is empty. -/
def joinValues : Option (List Text) → Text
  | some values => List.intercalate ", ".toList values
  | none => []

/-- `_parseHeaders`: a later name overwrites an earlier one that is the same in lower case. -/
def parseHeaders : Option (List (Text × Option (List Text))) → List (Text × Text)
  | none => []
  | some entries => entries.foldl (fun headers entry => put (toLowerCase entry.1) (joinValues entry.2) headers) []

/-- The part of `_completeHead` that reads the head; `none` is a cast that throws. -/
def readHead (payload : Bytes) : Option (Except Failure StreamedResponse) :=
  match json.jsonDecode payload with
  | .invalid error => some (.error (.invalidHead error))
  | .untyped => none
  | .head head =>
    match head.error with
    | some message => some (.error (.client message))
    | none =>
      match head.statusCode with
      | none => some (.error .invalidStatus)
      | some statusCode =>
        if statusCode < 100 ∨ statusCode > 999 then some (.error .invalidStatus)
        else some (.ok {
          statusCode := statusCode
          contentLength := parseContentLength head.contentLength
          headers := parseHeaders toLowerCase head.headers
          reasonPhrase := head.reasonPhrase })

end Head

/-- `_HttpResponseParser`. -/
structure HttpResponseParser where
  headBytes : Bytes := []
  headLength : Option Nat := none
  headComplete : Bool := false
  responseBodyDone : Bool := false
  requestBodyDone : Bool := false
  -- how `_response` was completed
  response : Option (Except Failure StreamedResponse) := none
  -- the body controller: what was added, and whether it is closed
  body : List Bytes := []
  bodyError : Option Failure := none
  bodyClosed : Bool := false
  -- the subscription is cancelled: nothing more is delivered
  cancelled : Bool := false

namespace HttpResponseParser

def responseHeadPrefixBytes : Nat := 4

def fail (failure : Failure) (p : HttpResponseParser) : HttpResponseParser :=
  { p with
    response := if p.response.isNone then some (.error failure) else p.response
    bodyError := if p.bodyClosed then p.bodyError else some failure
    bodyClosed := true
    cancelled := true }

section Parser

variable (toLowerCase : Text → Text) (json : JsonLibraries)

/-- `_completeHead`: the head is read, and what follows it is body. -/
def completeHead (length : Nat) (bytes : Bytes) (p : HttpResponseParser) : HttpResponseParser :=
  let headEnd := responseHeadPrefixBytes + length
  match readHead toLowerCase json ((bytes.take headEnd).drop responseHeadPrefixBytes) with
  | none => p
  | some (.error failure) => p.fail failure
  | some (.ok response) =>
    let p := { p with headComplete := true, response := some (.ok response) }
    if headEnd < bytes.length then { p with body := p.body ++ [bytes.drop headEnd] } else p

/-- The length is read once, from the first four bytes. -/
def readLength (a b c d : UInt8) (p : HttpResponseParser) : HttpResponseParser :=
  let length := LengthFrame.uint32 a b c d
  let p := { p with headLength := some length }
  if length = 0 ∨ length > tailscaleMaxHttpHeadBytes then p.fail .invalidLength
  else if p.headBytes.length ≥ responseHeadPrefixBytes + length then p.completeHead toLowerCase json length p.headBytes
  else p

def handleChunk (chunk : Bytes) (p : HttpResponseParser) : HttpResponseParser :=
  if p.cancelled then p
  else if p.headComplete then { p with body := p.body ++ [chunk] }
  else
    let p := { p with headBytes := p.headBytes ++ chunk }
    match p.headLength with
    | none =>
      match p.headBytes with
      | a :: b :: c :: d :: _ => p.readLength toLowerCase json a b c d
      | _ => p
    | some length =>
      if p.headBytes.length < responseHeadPrefixBytes + length then p
      else p.completeHead toLowerCase json length p.headBytes

def maybeCloseBody (p : HttpResponseParser) : HttpResponseParser :=
  if !p.headComplete || !p.responseBodyDone || !p.requestBodyDone then p else { p with bodyClosed := true }

def handleDone (p : HttpResponseParser) : HttpResponseParser :=
  if p.cancelled then p
  else if !p.headComplete then p.fail .closedBeforeHeader
  else { p with responseBodyDone := true }.maybeCloseBody

/-- What reaches the parser before its input ends. -/
inductive Input where
  | chunk (bytes : Bytes)
  | requestBodyDone
  deriving DecidableEq, Repr

def handle (p : HttpResponseParser) : Input → HttpResponseParser
  | .chunk bytes => p.handleChunk toLowerCase json bytes
  | .requestBodyDone => { p with requestBodyDone := true }.maybeCloseBody

/-- Everything that arrives, and then the end of the input. -/
def run (inputs : List Input) : HttpResponseParser :=
  (inputs.foldl (handle toLowerCase json) {}).handleDone

end Parser

/-- The bytes among the inputs. -/
def Input.bytes : Input → Bytes
  | .chunk bytes => bytes
  | .requestBodyDone => []

/-- What a reader of the response sees: the head and the concatenation of the body, or the failure. -/
inductive Outcome where
  | response (response : StreamedResponse) (body : Bytes)
  | failure (failure : Failure)
  | pending
  deriving DecidableEq

def outcome (p : HttpResponseParser) : Outcome :=
  match p.response with
  | none => .pending
  | some (.error failure) => .failure failure
  | some (.ok response) => .response response p.body.flatten

/-! ## Any chunks -/

section Chunks

variable (toLowerCase : Text → Text) (json : JsonLibraries)

/-- The outcome of a whole byte string. -/
def readStream : Bytes → Outcome
  | a :: b :: c :: d :: rest =>
    let length := LengthFrame.uint32 a b c d
    if length = 0 ∨ length > tailscaleMaxHttpHeadBytes then .failure .invalidLength
    else if rest.length < length then .failure .closedBeforeHeader
    else match readHead toLowerCase json (rest.take length) with
      | none => .pending
      | some (.error failure) => .failure failure
      | some (.ok response) => .response response (rest.drop length)
  | _ => .failure .closedBeforeHeader

variable {toLowerCase json}

/-- The bytes begin with a length that is in range. -/
structure Begins (bytes : Bytes) (length : Nat) (rest : Bytes) : Prop where
  split : ∃ a b c d, bytes = a :: b :: c :: d :: rest ∧ length = LengthFrame.uint32 a b c d
  valid : ¬ (length = 0 ∨ length > tailscaleMaxHttpHeadBytes)

variable {bytes rest : Bytes} {length : Nat}

theorem Begins.append (h : Begins bytes length rest) (more : Bytes) : Begins (bytes ++ more) length (rest ++ more) := by
  obtain ⟨a, b, c, d, rfl, rfl⟩ := h.split
  exact ⟨⟨a, b, c, d, rfl, rfl⟩, h.valid⟩

theorem Begins.length_eq (h : Begins bytes length rest) : bytes.length = 4 + rest.length := by
  obtain ⟨a, b, c, d, rfl, -⟩ := h.split
  simp only [List.length_cons]
  omega

theorem Begins.unique {length' : Nat} {rest' : Bytes} (h : Begins bytes length rest) (h' : Begins bytes length' rest') :
    length = length' ∧ rest = rest' := by
  obtain ⟨a, b, c, d, rfl, rfl⟩ := h.split
  obtain ⟨a', b', c', d', heq, rfl⟩ := h'.split
  cases heq
  exact ⟨rfl, rfl⟩

/-- The payload, as `_completeHead` cuts it out. -/
theorem Begins.payload (h : Begins bytes length rest) :
    (bytes.take (responseHeadPrefixBytes + length)).drop responseHeadPrefixBytes = rest.take length ∧
      bytes.drop (responseHeadPrefixBytes + length) = rest.drop length := by
  obtain ⟨a, b, c, d, rfl, -⟩ := h.split
  have hsum : responseHeadPrefixBytes + length = length + 1 + 1 + 1 + 1 := by
    simp only [responseHeadPrefixBytes]
    omega
  rw [hsum]
  exact ⟨rfl, rfl⟩

/-- The head, once it is complete, is no JSON object or has the field types Go emits. -/
def Typed (json : JsonLibraries) (bytes : Bytes) : Prop :=
  ∀ length rest, Begins bytes length rest → length ≤ rest.length → json.jsonDecode (rest.take length) ≠ .untyped

theorem Typed.of_append {more : Bytes} (h : Typed json (bytes ++ more)) : Typed json bytes := by
  intro length rest hbegins henough
  have htake : (rest ++ more).take length = rest.take length := List.take_append_of_le_length henough
  rw [← htake]
  exact h length _ (hbegins.append more) (henough.trans (by simp))

theorem readHead_ne_none {payload : Bytes} (h : json.jsonDecode payload ≠ .untyped) :
    readHead toLowerCase json payload ≠ none := by
  unfold readHead
  grind

theorem Begins.readStream_short (h : Begins bytes length rest)
    (hshort : rest.length < length) : readStream toLowerCase json bytes = .failure .closedBeforeHeader := by
  obtain ⟨a, b, c, d, rfl, rfl⟩ := h.split
  simp only [readStream, if_neg h.valid, if_pos hshort]

theorem Begins.readStream_whole (h : Begins bytes length rest) (hwhole : length ≤ rest.length) :
    readStream toLowerCase json bytes = match readHead toLowerCase json (rest.take length) with
      | none => .pending
      | some (.error failure) => .failure failure
      | some (.ok response) => .response response (rest.drop length) := by
  obtain ⟨a, b, c, d, rfl, rfl⟩ := h.split
  simp only [readStream, if_neg h.valid, if_neg (Nat.not_lt.mpr hwhole)]

/-- The three situations of a parser that has taken `bytes`. -/
inductive Situation (toLowerCase : Text → Text) (json : JsonLibraries) (p : HttpResponseParser) (bytes : Bytes) : Prop
  /-- The length has not arrived. -/
  | short (live : p.cancelled = false) (head : p.headComplete = false) (response : p.response = none)
      (body : p.body = []) (taken : p.headBytes = bytes) (length : p.headLength = none) (few : bytes.length < 4)
  /-- The head has not arrived. -/
  | waiting (live : p.cancelled = false) (head : p.headComplete = false) (response : p.response = none)
      (body : p.body = []) (taken : p.headBytes = bytes) (length : Nat) (rest : Bytes)
      (known : p.headLength = some length) (begins : Begins bytes length rest) (few : rest.length < length)
  /-- The head was read, and the rest is body. -/
  | complete (live : p.cancelled = false) (head : p.headComplete = true) (length : Nat) (rest : Bytes)
      (answer : StreamedResponse) (begins : Begins bytes length rest) (enough : length ≤ rest.length)
      (read : readHead toLowerCase json (rest.take length) = some (.ok answer))
      (response : p.response = some (.ok answer))
      (body : p.body.flatten = rest.drop length)
  /-- The parser gave up, and nothing that follows would have changed that. -/
  | failed (live : p.cancelled = true) (failure : Failure) (response : p.response = some (.error failure))
      (final : ∀ more, readStream toLowerCase json (bytes ++ more) = .failure failure)

variable {p : HttpResponseParser}

/-- The head has arrived. -/
theorem situation_completeHead (hlive : p.cancelled = false) (hresponse : p.response = none) (hbody : p.body = [])
    (hbegins : Begins bytes length rest) (henough : length ≤ rest.length) (htyped : Typed json bytes) :
    Situation toLowerCase json (p.completeHead toLowerCase json length bytes) bytes := by
  obtain ⟨hpayload, hdrop⟩ := hbegins.payload
  unfold completeHead
  simp only [hpayload, hdrop]
  cases hread : readHead toLowerCase json (rest.take length) with
  | none => exact absurd hread (readHead_ne_none (htyped length rest hbegins henough))
  | some result =>
  cases result with
  | error failure =>
    refine .failed rfl failure (by simp [fail, hresponse]) ?_
    intro more
    have hmore := hbegins.append more
    rw [hmore.readStream_whole (by rw [List.length_append]; omega), List.take_append_of_le_length henough, hread]
  | ok answer =>
    simp only
    split
    · refine .complete hlive rfl length rest answer hbegins henough hread rfl ?_
      simp [hbody]
    · next hnone =>
      refine .complete hlive rfl length rest answer hbegins henough hread rfl ?_
      have hlength := hbegins.length_eq
      simp only [responseHeadPrefixBytes] at hnone
      rw [hbody, List.drop_of_length_le (by omega)]
      rfl

/-- The first four bytes have arrived. -/
theorem situation_readLength (hlive : p.cancelled = false) (hhead : p.headComplete = false)
    (hresponse : p.response = none) (hbody : p.body = []) {a b c d : UInt8}
    (htaken : p.headBytes = a :: b :: c :: d :: rest) (htyped : Typed json (a :: b :: c :: d :: rest)) :
    Situation toLowerCase json (p.readLength toLowerCase json a b c d) (a :: b :: c :: d :: rest) := by
  unfold readLength
  simp only
  split
  · next hinvalid =>
    refine .failed rfl .invalidLength (by simp [fail, hresponse]) ?_
    intro more
    simp only [List.cons_append, readStream, if_pos hinvalid]
  next hvalid =>
  have hbegins : Begins (a :: b :: c :: d :: rest) (LengthFrame.uint32 a b c d) rest := ⟨⟨a, b, c, d, rfl, rfl⟩, hvalid⟩
  have hlength := hbegins.length_eq
  split
  · next henough =>
    rw [htaken, responseHeadPrefixBytes] at henough
    simp only [htaken]
    apply situation_completeHead
    · exact hlive
    · exact hresponse
    · exact hbody
    · exact hbegins
    · omega
    · exact htyped
  · next hfew =>
    rw [htaken, responseHeadPrefixBytes] at hfew
    exact .waiting hlive hhead hresponse hbody htaken _ rest rfl hbegins (by omega)

theorem Situation.handleChunk (h : Situation toLowerCase json p bytes) {chunk : Bytes}
    (htyped : Typed json (bytes ++ chunk)) :
    Situation toLowerCase json (p.handleChunk toLowerCase json chunk) (bytes ++ chunk) := by
  unfold HttpResponseParser.handleChunk
  cases h with
  | short live head response body taken length few =>
    rw [if_neg (by simp [live]), if_neg (by simp [head])]
    simp only [length, taken]
    split
    · next a b c d rest hbytes =>
      rw [hbytes] at htyped ⊢
      apply situation_readLength
      · exact live
      · exact head
      · exact response
      · exact body
      · rfl
      · exact htyped
    · next hshort =>
      refine .short live head response body rfl rfl ?_
      match hall : bytes ++ chunk with
      | [] | [_] | [_, _] | [_, _, _] => simp
      | a :: b :: c :: d :: rest => exact absurd hall (hshort a b c d rest)
  | waiting live head response body taken length rest known begins few =>
    rw [if_neg (by simp [live]), if_neg (by simp [head])]
    simp only [known, taken]
    have hbegins := begins.append chunk
    have hlength := hbegins.length_eq
    split
    · next hfew =>
      rw [responseHeadPrefixBytes] at hfew
      exact .waiting live head response body rfl length (rest ++ chunk) rfl hbegins (by omega)
    · next henough =>
      rw [responseHeadPrefixBytes] at henough
      apply situation_completeHead
      · exact live
      · exact response
      · exact body
      · exact hbegins
      · omega
      · exact htyped
  | complete live head length rest answer begins enough read response body =>
    rw [if_neg (by simp [live]), if_pos head]
    refine .complete live head length (rest ++ chunk) answer (begins.append chunk) ?_ ?_ response ?_
    · rw [List.length_append]
      omega
    · rw [List.take_append_of_le_length enough]
      exact read
    · simp only [List.flatten_append, body, List.flatten_cons, List.flatten_nil, List.append_nil]
      exact (List.drop_append_of_le_length enough).symm
  | failed live failure response final =>
    rw [if_pos live]
    refine .failed live failure response ?_
    intro more
    rw [List.append_assoc]
    exact final (chunk ++ more)

theorem Situation.maybeCloseBody (h : Situation toLowerCase json p bytes) :
    Situation toLowerCase json { p with requestBodyDone := true }.maybeCloseBody bytes := by
  unfold HttpResponseParser.maybeCloseBody
  split
  all_goals
    cases h with
    | short live head response body taken length few => exact .short live head response body taken length few
    | waiting live head response body taken length rest known begins few =>
      exact .waiting live head response body taken length rest known begins few
    | complete live head length rest answer begins enough read response body =>
      exact .complete live head length rest answer begins enough read response body
    | failed live failure response final => exact .failed live failure response final

theorem Situation.foldl (h : Situation toLowerCase json p bytes) {inputs : List Input}
    (htyped : Typed json (bytes ++ inputs.flatMap Input.bytes)) :
    Situation toLowerCase json (inputs.foldl (handle toLowerCase json) p) (bytes ++ inputs.flatMap Input.bytes) := by
  induction inputs generalizing p bytes with
  | nil => simpa using h
  | cons input inputs ih =>
    rw [List.flatMap_cons, ← List.append_assoc] at htyped ⊢
    rw [List.foldl_cons]
    cases input with
    | chunk bytes' => exact ih (h.handleChunk htyped.of_append) htyped
    | requestBodyDone =>
      rw [Input.bytes, List.append_nil] at htyped ⊢
      exact ih h.maybeCloseBody htyped

theorem Situation.outcome_done (h : Situation toLowerCase json p bytes) :
    p.handleDone.outcome = readStream toLowerCase json bytes := by
  unfold handleDone
  cases h with
  | short live head response body taken length few =>
    rw [if_neg (by simp [live]), if_pos (by simp [head])]
    have hstream : readStream toLowerCase json bytes = .failure .closedBeforeHeader := by
      match bytes, few with
      | [], _ | [_], _ | [_, _], _ | [_, _, _], _ => rfl
      | _ :: _ :: _ :: _ :: rest, few =>
        simp only [List.length_cons] at few
        omega
    rw [hstream]
    simp [outcome, fail, response]
  | waiting live head response body taken length rest known begins few =>
    rw [if_neg (by simp [live]), if_pos (by simp [head]), begins.readStream_short few]
    simp [outcome, fail, response]
  | complete live head length rest answer begins enough read response body =>
    rw [if_neg (by simp [live]), if_neg (by simp [head]), begins.readStream_whole enough, read]
    unfold HttpResponseParser.maybeCloseBody
    split <;> simp only [outcome, response, body]
  | failed live failure response final =>
    have hstream := final []
    rw [List.append_nil] at hstream
    rw [if_pos live, hstream]
    simp only [outcome, response]

theorem outcome_run {inputs : List Input} (htyped : Typed json (inputs.flatMap Input.bytes)) :
    (run toLowerCase json inputs).outcome = readStream toLowerCase json (inputs.flatMap Input.bytes) := by
  have hstart : Situation toLowerCase json {} [] := .short rfl rfl rfl rfl rfl rfl (by simp)
  have hbytes : Typed json ([] ++ inputs.flatMap Input.bytes) := htyped
  have hend := (hstart.foldl hbytes).outcome_done
  rwa [List.nil_append] at hend

end Chunks

/-! ## A head that Go writes -/

section Agreement

variable {toLowerCase : Text → Text} {json : JsonLibraries}

/-- The headers as Dart presents them: names in lower case, the values of a name joined. -/
def lowered (toLowerCase : Text → Text) (entry : Text × Option (List Text)) : Text × Text :=
  (toLowerCase entry.1, joinValues entry.2)

theorem put_absent {α : Type} {name : Text} {map : List (Text × α)} (h : name ∉ map.map (·.1)) (value : α) :
    put name value map = map ++ [(name, value)] := by
  induction map with
  | nil => rfl
  | cons entry entries ih =>
    rw [List.map_cons, List.mem_cons, not_or] at h
    rw [put, if_neg (Ne.symm h.1), ih h.2, List.cons_append]

theorem parseHeaders_distinct {entries : List (Text × Option (List Text))}
    (h : (entries.map fun entry => toLowerCase entry.1).Nodup) :
    parseHeaders toLowerCase (some entries) = entries.map (lowered toLowerCase) := by
  have hfold : ∀ done rest : List (Text × Option (List Text)), done ++ rest = entries →
      rest.foldl (fun headers entry => put (toLowerCase entry.1) (joinValues entry.2) headers)
        (done.map (lowered toLowerCase)) = entries.map (lowered toLowerCase) := by
    intro done rest
    induction rest generalizing done with
    | nil =>
      intro hall
      rw [List.append_nil] at hall
      rw [hall]
      rfl
    | cons entry rest ih =>
      intro hall
      have habsent : toLowerCase entry.1 ∉ (done.map (lowered toLowerCase)).map (·.1) := by
        rw [← hall, List.map_append, List.map_cons] at h
        have hdisjoint := (List.nodup_append.mp h).2.2
        intro hmem
        rw [List.map_map] at hmem
        exact hdisjoint _ hmem _ List.mem_cons_self rfl
      rw [List.foldl_cons, put_absent habsent]
      have hnext := ih (done ++ [entry]) (by rw [List.append_assoc]; exact hall)
      rw [List.map_append] at hnext
      exact hnext
  exact hfold [] entries rfl

/-- The response Dart makes of a head. -/
def presented (toLowerCase : Text → Text) (head : HttpResponseHead) : StreamedResponse where
  statusCode := head.statusCode
  contentLength := if head.contentLength < 0 then none else some head.contentLength
  headers := head.headers.map (lowered toLowerCase)
  reasonPhrase := if head.reasonPhrase = [] then none else some head.reasonPhrase

theorem parseHeaders_toJson {head : HttpResponseHead}
    (hnames : (head.headers.map fun entry => toLowerCase entry.1).Nodup) :
    parseHeaders toLowerCase head.toJson.headers = head.headers.map (lowered toLowerCase) := by
  by_cases hnone : head.headers = []
  · simp [HttpResponseHead.toJson, hnone, parseHeaders]
  · simp only [HttpResponseHead.toJson, if_neg hnone]
    exact parseHeaders_distinct hnames

theorem parseContentLength_toJson (head : HttpResponseHead) : parseContentLength head.toJson.contentLength =
    if head.contentLength < 0 then none else some head.contentLength := by
  by_cases hneg : head.contentLength < 0
  · simp only [HttpResponseHead.toJson, parseContentLength, if_pos hneg, if_neg (not_le.mpr hneg)]
  · simp only [HttpResponseHead.toJson, parseContentLength, if_neg hneg, if_pos (not_lt.mp hneg)]

/-- What Dart makes of a head that Go writes: its error, the failure of a status that is none, or the response. -/
theorem readHead_marshal (head : HttpResponseHead) : readHead toLowerCase json (json.marshal head.toJson) = some (
      if head.error ≠ [] then .error (.client head.error)
      else if head.statusCode < 100 ∨ head.statusCode > 999 then .error .invalidStatus
      else .ok { presented toLowerCase head with headers := parseHeaders toLowerCase head.toJson.headers }) := by
  have herror : head.toJson.error = if head.error = [] then none else some head.error := rfl
  have hstatus : head.toJson.statusCode = if head.statusCode = 0 then none else some head.statusCode := rfl
  unfold readHead
  simp only [json.roundTrip _ head.marshalled, parseContentLength_toJson, herror, hstatus]
  by_cases hfailed : head.error = []
  · by_cases hzero : head.statusCode = 0
    · simp [hfailed, hzero]
    · by_cases hrange : head.statusCode < 100 ∨ head.statusCode > 999
      · simp [hfailed, hzero, hrange]
      · simp [hfailed, hzero, hrange, presented, HttpResponseHead.toJson]
  · simp [hfailed]

/-- What `writeHTTPResponseHead` writes is the frame of a payload in range. -/
theorem begins_written {head : HttpResponseHead} {framed : Bytes}
    (hwrite : writeHTTPResponseHead json head = .ok framed) (body : Bytes) :
    Begins (framed ++ body) (json.marshal head.toJson).length (json.marshal head.toJson ++ body) := by
  unfold writeHTTPResponseHead at hwrite
  simp only at hwrite
  split at hwrite
  · cases hwrite
  next hfits =>
  cases hwrite
  have hpos := List.length_pos_iff.mpr (json.ne_nil head.toJson)
  have hle : (json.marshal head.toJson).length ≤ 256 * 1024 := Nat.le_of_not_lt hfits
  refine ⟨⟨_, _, _, _, rfl, ?_⟩, ?_⟩
  · exact (LengthFrame.uint32_putUint32 (Nat.lt_of_le_of_lt hle (by decide))).symm
  · simp only [tailscaleMaxHttpHeadBytes]
    omega

/-- The outcome of a written head, with a body and in any chunks. -/
theorem outcome_written {head : HttpResponseHead} {framed body : Bytes} {inputs : List Input}
    (hwrite : writeHTTPResponseHead json head = .ok framed) (hbytes : inputs.flatMap Input.bytes = framed ++ body) :
    (run toLowerCase json inputs).outcome =
      if head.error ≠ [] then .failure (.client head.error)
      else if head.statusCode < 100 ∨ head.statusCode > 999 then .failure .invalidStatus
      else .response { presented toLowerCase head with headers := parseHeaders toLowerCase head.toJson.headers }
        body := by
  have hbegins := begins_written hwrite body
  have htyped : Typed json (inputs.flatMap Input.bytes) := by
    rw [hbytes]
    intro length rest hother _
    obtain ⟨rfl, rfl⟩ := hbegins.unique hother
    simp [json.roundTrip _ head.marshalled]
  rw [outcome_run htyped, hbytes, hbegins.readStream_whole (by simp), List.take_left, List.drop_left,
    readHead_marshal]
  by_cases hfailed : head.error = []
  · by_cases hrange : head.statusCode < 100 ∨ head.statusCode > 999
    · simp [hfailed, hrange]
    · simp [hfailed, hrange]
  · simp [hfailed]

/-- For a head without an error, with a status and with names that differ in lower case: the parser presents its
status, phrase, length and headers, and the body, whatever the chunks; a head with an error is that error, and one whose
status is omitted or out of range is an invalid status. And for every byte string whose head has Go's field types the
outcome does not depend on the chunks. -/
theorem parser_agrees (toLowerCase : Text → Text) (json : JsonLibraries) :
    (∀ (head : HttpResponseHead) (framed body : Bytes) (inputs : List Input),
        writeHTTPResponseHead json head = .ok framed → inputs.flatMap Input.bytes = framed ++ body →
        (head.error = [] → 100 ≤ head.statusCode → head.statusCode ≤ 999 →
          (head.headers.map fun entry => toLowerCase entry.1).Nodup →
          (run toLowerCase json inputs).outcome = .response (presented toLowerCase head) body) ∧
        (head.error ≠ [] → (run toLowerCase json inputs).outcome = .failure (.client head.error)) ∧
        (head.error = [] → head.statusCode < 100 ∨ head.statusCode > 999 →
          (run toLowerCase json inputs).outcome = .failure .invalidStatus)) ∧
      ∀ inputs inputs' : List Input, Typed json (inputs.flatMap Input.bytes) →
        inputs.flatMap Input.bytes = inputs'.flatMap Input.bytes →
        (run toLowerCase json inputs).outcome = (run toLowerCase json inputs').outcome := by
  constructor
  · intro head framed body inputs hwrite hbytes
    rw [outcome_written hwrite hbytes]
    refine ⟨fun herror hlow hhigh hnames => ?_, fun herror => if_pos herror, fun herror hrange => ?_⟩
    · rw [if_neg (not_not.mpr herror), if_neg (by omega), parseHeaders_toJson hnames]
      rfl
    · rw [if_neg (not_not.mpr herror), if_pos hrange]
  · intro inputs inputs' htyped hsame
    rw [outcome_run htyped, outcome_run (hsame ▸ htyped), hsame]

end Agreement

/-! ## Libraries that round-trip -/

theorem countable_headJson : Countable HeadJson := by
  have hchar : Countable Char := Function.Injective.countable (f := Char.toNat) fun _ _ h => Char.toNat_inj.mp h
  have htuple : Function.Injective fun head : HeadJson =>
      (head.error, head.statusCode, head.reasonPhrase, head.headers, head.contentLength) := by
    intro a b h
    cases a
    cases b
    simpa using h
  exact htuple.countable

theorem exists_libraries (head : HeadJson) : ∃ json : JsonLibraries, json.marshal head = [0] := by
  classical
  obtain ⟨number, hinjective⟩ := (@exists_injective_nat HeadJson countable_headJson)
  refine ⟨{
    marshal := fun v => if v = head then [0] else List.replicate (number v + 1) 1
    jsonDecode := fun bytes => if bytes = [0] then .head head
      else if h : ∃ v, bytes = List.replicate (number v + 1) 1 then .head h.choose else .invalid []
    roundTrip := ?_
    ne_nil := ?_ }, by simp⟩
  · intro v _
    by_cases hv : v = head
    · simp [hv]
    · have hne : List.replicate (number v + 1) (1 : UInt8) ≠ [0] := by
        intro h
        rw [List.replicate_succ] at h
        exact absurd (List.cons.inj h).1 (by decide)
      have hexists : ∃ w, List.replicate (number v + 1) (1 : UInt8) = List.replicate (number w + 1) 1 := ⟨v, rfl⟩
      simp only [if_neg hv, if_neg hne, dif_pos hexists]
      have hspec := congrArg List.length hexists.choose_spec
      simp only [List.length_replicate, Nat.add_right_cancel_iff] at hspec
      exact congrArg Decoded.head (hinjective hspec).symm
  · intro v
    by_cases hv : v = head
    · simp [hv]
    · simp [hv, List.replicate_succ]

/-- There are libraries that write a given head. -/
theorem exists_written (head : HttpResponseHead) : ∃ json framed, writeHTTPResponseHead json head = .ok framed := by
  obtain ⟨json, hmarshal⟩ := exists_libraries head.toJson
  exact ⟨json, LengthFrame.frame [0], by simp [writeHTTPResponseHead, hmarshal, httpMaxHeadBytes]⟩

/-- A head with a status, a phrase and two headers, cut inside the length, with the body in two chunks. -/
def twoHeaders : HttpResponseHead where
  statusCode := 200
  reasonPhrase := ['O', 'K']
  headers := [(['A'], some [['1'], ['2']]), (['B'], none)]
  sorted := by decide

theorem parser_agrees_cut :
    ∃ json framed, writeHTTPResponseHead json twoHeaders = .ok framed ∧
      (run id json [.chunk (framed.take 2), .chunk (framed.drop 2), .requestBodyDone, .chunk [1], .chunk [2]]).outcome =
        .response ⟨200, some 0, [(['A'], "1, 2".toList), (['B'], [])], some ['O', 'K']⟩ [1, 2] := by
  obtain ⟨json, framed, hwrite⟩ := exists_written twoHeaders
  refine ⟨json, framed, hwrite, ?_⟩
  have hbytes : [Input.chunk (framed.take 2), .chunk (framed.drop 2), .requestBodyDone, .chunk [1], .chunk [2]].flatMap
      Input.bytes = framed ++ [1, 2] := by simp [Input.bytes, ← List.append_assoc]
  exact ((parser_agrees id json).1 twoHeaders framed [1, 2] _ hwrite hbytes).1 rfl (by decide) (by decide) (by decide)

/-- An empty reason phrase is presented as null, and a head whose status is not one is a failure. -/
theorem empty_phrase_is_null :
    (∃ json framed, writeHTTPResponseHead json { statusCode := 200, reasonPhrase := [] } = .ok framed ∧
        (run id json [.chunk framed]).outcome = .response ⟨200, some 0, [], none⟩ []) ∧
      ∃ json framed, writeHTTPResponseHead json { statusCode := 99 } = .ok framed ∧
        (run id json [.chunk framed]).outcome = .failure .invalidStatus := by
  have hbytes (framed : Bytes) : [Input.chunk framed].flatMap Input.bytes = framed ++ [] := by simp [Input.bytes]
  constructor
  · obtain ⟨json, framed, hwrite⟩ := exists_written { statusCode := 200, reasonPhrase := [] }
    exact ⟨json, framed, hwrite, outcome_written hwrite (hbytes framed)⟩
  · obtain ⟨json, framed, hwrite⟩ := exists_written { statusCode := 99 }
    exact ⟨json, framed, hwrite, outcome_written hwrite (hbytes framed)⟩

end HttpResponseParser

end TailscaleDart.Http
