import TailscaleDart.Data.HostPort
import TailscaleDart.Data.JsonText
import TailscaleDart.Errors

/-!
# Udp.Envelope — one binary format, written twice

A datagram crosses the socket pair between the two languages as one message: version, address
length, port (big endian), address text, payload. The envelope carries no payload length; the
message boundary is the end of the payload. Each language has an encoder and a decoder of its own.

`Layout` says what an envelope IS, and each decoder is characterised by it: it accepts exactly the
envelopes of the format whose address passes its own extra check, an IP literal in Go and valid
UTF-8 in Dart. Agreement of the codecs is then a fact about `Layout`.

Every read is checked: reading outside the buffer (Go's index panic, Dart's RangeError) is a result
of the model, `Fault.outOfRange`, and no input produces it.

What an IP literal is belongs to Go's `netip`, and is a parameter (`AddrSyntax`). A Dart string here
is a list of Unicode characters; a string with an unpaired surrogate is no address.
-/

namespace TailscaleDart.Udp

open HostPort JsonText

abbrev Bytes := List UInt8

/-! ## Checked reads -/

/-- Why a decoder did not return: it left its buffer, or it refused. -/
inductive Fault (ε : Type) where
  | outOfRange
  | refused (err : ε)
  deriving DecidableEq, Repr

variable {ε : Type}

def byteAt (buffer : Bytes) (i : Nat) : Except (Fault ε) UInt8 :=
  match buffer[i]? with
  | some b => .ok b
  | none => .error .outOfRange

/-- The bytes from `start` up to `stop`. -/
def slice (buffer : Bytes) (start stop : Nat) : Except (Fault ε) Bytes :=
  if start ≤ stop ∧ stop ≤ buffer.length then .ok ((buffer.drop start).take (stop - start))
  else .error .outOfRange

def refuse {α : Type} (err : ε) : Except (Fault ε) α := .error (.refused err)

/-! ## Go -/

def udpEnvelopeVersion : UInt8 := 1
def udpEnvelopeHeaderBytes : Nat := 4
def udpMaxPayloadBytes : Nat := 60 * 1024
def udpMaxAddressBytes : Nat := 255
def udpMaxEnvelopeBytes : Nat := udpEnvelopeHeaderBytes + udpMaxAddressBytes + udpMaxPayloadBytes

/-- A byte an IP literal can begin with: a hexadecimal digit or a colon. -/
def isLiteralHead (b : UInt8) : Bool :=
  (48 ≤ b && b ≤ 57) || (97 ≤ b && b ≤ 102) || (65 ≤ b && b ≤ 70) || b == colon

/-- `netip.ParseAddr`. The only thing the codecs rest on is how a literal begins. -/
structure AddrSyntax (Addr : Type) where
  parseAddr : Bytes → Except String Addr
  head : ∀ {text : Bytes} {addr : Addr}, parseAddr text = .ok addr → ∃ b rest, text = b :: rest ∧ isLiteralHead b = true

/-- The errors of the `net` packages. -/
inductive NetError where
  | addr (err : AddrError)
  | parse (message : String)
  deriving DecidableEq, Repr

abbrev Error := GoError NetError

/-- `binary.BigEndian.Uint16`. -/
def bigEndianUint16 (hi lo : UInt8) : Nat := lo.toNat ||| (hi.toNat <<< 8)

/-- `encodeUdpEnvelope`; `addr` is what `addr.String()` returns. -/
def encodeUdpEnvelope (addr payload : Bytes) : Except Error Bytes :=
  if payload.length > udpMaxPayloadBytes then .error
    (.text ("UDP payload exceeds " ++ toString udpMaxPayloadBytes ++ " bytes"))
  else match splitHostPort addr with
    | .error err => .error (.note "split UDP address %q: %w" (.foreign (.addr err)))
    | .ok (host, portText) =>
      match atoi portText with
      | none => .error (.text "invalid UDP port %q")
      | some port =>
        if port < 1 ∨ port > 65535 then .error (.text "invalid UDP port %q")
        else if host.length = 0 ∨ host.length > udpMaxAddressBytes then
          .error (.text ("invalid UDP address length " ++ toString host.length))
        else
          let port := port.toNat % 65536
          .ok ([udpEnvelopeVersion, UInt8.ofNat host.length, UInt8.ofNat (port >>> 8), UInt8.ofNat port] ++
            host ++ payload)

/-- What a Go decoder returns: `net.UDPAddr` and the payload. -/
structure GoDatagram (Addr : Type) where
  ip : Addr
  port : Nat
  payload : Bytes
  deriving DecidableEq, Repr

def decodeUdpEnvelope {Addr : Type} (net : AddrSyntax Addr) (envelope : Bytes) :
    Except (Fault Error) (GoDatagram Addr) := do
  if envelope.length < udpEnvelopeHeaderBytes then refuse (.text "malformed UDP envelope")
  else
    let version ← byteAt envelope 0
    if version ≠ udpEnvelopeVersion then refuse (.text ("unsupported UDP envelope version " ++ toString version))
    else
      let length ← byteAt envelope 1
      let addressLen := length.toNat
      let payloadOffset := udpEnvelopeHeaderBytes + addressLen
      if addressLen = 0 ∨ payloadOffset > envelope.length then refuse (.text "malformed UDP envelope address")
      else
        let hi ← byteAt envelope 2
        let lo ← byteAt envelope 3
        let port := bigEndianUint16 hi lo
        if port < 1 ∨ port > 65535 then refuse (.text ("invalid UDP envelope port " ++ toString port))
        else
          let address ← slice envelope udpEnvelopeHeaderBytes payloadOffset
          match net.parseAddr address with
          | .error message =>
            refuse (.note "invalid UDP envelope address %q: %w" (.foreign (.parse message)))
          | .ok ip =>
            let payload ← slice envelope payloadOffset envelope.length
            return { ip := ip, port := port, payload := payload }

/-! ## Dart -/

inductive DartError where
  | argument (name message : String)
  | range (name : String)
  | udp (message : String)
  deriving DecidableEq, Repr

def byteOrderMark : Char := Char.ofNat 0xFEFF

/-- `utf8.decode`: malformed input throws, a leading byte order mark is dropped. -/
def utf8Decode (bytes : Bytes) : Option (List Char) :=
  (decodeUtf8 bytes).map fun text => if text.head? = some byteOrderMark then text.tail else text

structure TailscaleEndpoint where
  address : List Char
  port : Int
  deriving DecidableEq, Repr

structure TailscaleDatagram where
  remote : TailscaleEndpoint
  payload : Bytes
  deriving DecidableEq, Repr

def tailscaleMaxDatagramPayloadBytes : Nat := 60 * 1024

/-- `_encodeDatagramEnvelope`. -/
def encodeDatagramEnvelope (remote : TailscaleEndpoint) (payload : Bytes) : Except DartError Bytes :=
  if remote.address = [] then .error (.argument "remote.address" "is required")
  else if remote.port < 1 ∨ remote.port > 65535 then .error (.range "remote.port")
  else if payload.length > tailscaleMaxDatagramPayloadBytes then
    .error (.argument "payload" ("exceeds " ++ toString tailscaleMaxDatagramPayloadBytes ++ " bytes"))
  else
    let address := encodeUtf8 remote.address
    if address.length > 255 then .error (.argument "remote.address" "is too long (max 255 encoded bytes)")
    else
      let port := remote.port.toNat
      .ok ([1, UInt8.ofNat address.length, UInt8.ofNat ((port >>> 8) &&& 0xff), UInt8.ofNat (port &&& 0xff)] ++
        address ++ payload)

/-- `_decodeDatagramEnvelope`. -/
def decodeDatagramEnvelope (envelope : Bytes) : Except (Fault DartError) TailscaleDatagram := do
  if envelope.length < 4 then refuse (.udp "malformed UDP envelope")
  else
    let version ← byteAt envelope 0
    if version ≠ 1 then refuse (.udp ("unsupported UDP envelope version " ++ toString version))
    else
      let length ← byteAt envelope 1
      let addressLength := length.toNat
      if addressLength = 0 then refuse (.udp "malformed UDP envelope address")
      else
        let payloadOffset := 4 + addressLength
        if payloadOffset > envelope.length then refuse (.udp "malformed UDP envelope address")
        else
          let hi ← byteAt envelope 2
          let lo ← byteAt envelope 3
          let port := (hi.toNat <<< 8) ||| lo.toNat
          if port < 1 then refuse (.udp "malformed UDP envelope port")
          else
            let bytes ← slice envelope 4 payloadOffset
            match utf8Decode bytes with
            | none => refuse (.udp "malformed UDP envelope address")
            | some address =>
              let payload ← slice envelope payloadOffset envelope.length
              return { remote := { address := address, port := port }, payload := payload }

/-! ## The format -/

/-- The bytes of an envelope. -/
def frame (address : Bytes) (port : Nat) (payload : Bytes) : Bytes :=
  [1, UInt8.ofNat address.length, UInt8.ofNat (port / 256), UInt8.ofNat (port % 256)] ++ address ++ payload

/-- What an envelope is. -/
structure Layout (envelope address : Bytes) (port : Nat) (payload : Bytes) : Prop where
  address_ne : address ≠ []
  address_le : address.length ≤ 255
  port_pos : 1 ≤ port
  port_le : port ≤ 65535
  bytes : envelope = frame address port payload

theorem shiftLeft_or_eq (hi lo : UInt8) : (hi.toNat <<< 8) ||| lo.toNat = hi.toNat * 256 + lo.toNat := by
  have hlo : lo.toNat < 2 ^ 8 := lo.toNat_lt
  rw [← Nat.shiftLeft_add_eq_or_of_lt hlo, Nat.shiftLeft_eq]

theorem bigEndianUint16_eq (hi lo : UInt8) : bigEndianUint16 hi lo = hi.toNat * 256 + lo.toNat := by
  rw [bigEndianUint16, Nat.or_comm, shiftLeft_or_eq]

variable {port : Nat}

theorem port_bytes (h : port ≤ 65535) :
    (UInt8.ofNat (port / 256)).toNat * 256 + (UInt8.ofNat (port % 256)).toNat = port := by
  simp only [UInt8.toNat_ofNat']
  omega

theorem length_byte {n : Nat} (h : n ≤ 255) : (UInt8.ofNat n).toNat = n := by
  simp only [UInt8.toNat_ofNat']
  omega

theorem frame_length (address : Bytes) (port : Nat) (payload : Bytes) :
    (frame address port payload).length = 4 + address.length + payload.length := by
  simp only [frame, List.length_append, List.length_cons, List.length_nil]

theorem slice_address (address payload : Bytes) (port : Nat) :
    (slice (frame address port payload) 4 (4 + address.length) : Except (Fault ε) Bytes) = .ok address := by
  have hbound : 4 ≤ 4 + address.length ∧ 4 + address.length ≤ (frame address port payload).length := by
    rw [frame_length]
    omega
  rw [slice, if_pos hbound]
  simp [frame]

theorem slice_payload (address payload : Bytes) (port : Nat) :
    (slice (frame address port payload) (4 + address.length) (frame address port payload).length :
      Except (Fault ε) Bytes) = .ok payload := by
  have hbound : 4 + address.length ≤ (frame address port payload).length ∧
      (frame address port payload).length ≤ (frame address port payload).length := by
    rw [frame_length]
    omega
  have hrest : (frame address port payload).length - (4 + address.length) = payload.length := by
    rw [frame_length]
    omega
  have hdrop : (frame address port payload).drop (4 + address.length) = payload := by
    rw [← List.drop_drop]
    simp [frame]
  rw [slice, if_pos hbound, hrest, hdrop, List.take_length]

/-- An envelope whose header passes the checks of either decoder has the layout. -/
theorem layout_of_header {length hi lo : UInt8} {body : Bytes} (hlen : length.toNat ≠ 0)
    (hbody : length.toNat ≤ body.length) (hport : 1 ≤ hi.toNat * 256 + lo.toNat) :
    Layout (1 :: length :: hi :: lo :: body) (body.take length.toNat) (hi.toNat * 256 + lo.toNat)
      (body.drop length.toNat) := by
  have htake : (body.take length.toNat).length = length.toNat := by
    rw [List.length_take]
    omega
  have hlength : length.toNat < 256 := length.toNat_lt
  have hhi : hi.toNat < 256 := hi.toNat_lt
  have hlo : lo.toNat < 256 := lo.toNat_lt
  constructor
  · intro hnil
    rw [hnil, List.length_nil] at htake
    exact hlen htake.symm
  · omega
  · exact hport
  · omega
  · have hdiv : (hi.toNat * 256 + lo.toNat) / 256 = hi.toNat := by omega
    have hmod : (hi.toNat * 256 + lo.toNat) % 256 = lo.toNat := by omega
    simp only [frame, htake, hdiv, hmod, UInt8.ofNat_toNat, List.cons_append, List.nil_append, List.take_append_drop]

/-! ## What each side makes of the format -/

variable {addr envelope payload : Bytes}

theorem encodeUdpEnvelope_eq_ok {host portText : Bytes}
    (hsplit : splitHostPort addr = .ok (host, portText)) (hport : atoi portText = some (port : Int))
    (h : encodeUdpEnvelope addr payload = .ok envelope) : Layout envelope host port payload := by
  simp only [encodeUdpEnvelope, hsplit, hport] at h
  split at h
  · cases h
  split at h
  · cases h
  next hrange =>
  split at h
  · cases h
  next hhost =>
    cases h
    simp only [udpMaxAddressBytes] at hhost
    have hsmall : port % 65536 = port := by omega
    have hdiv : port >>> 8 = port / 256 := Nat.shiftRight_eq_div_pow port 8
    have hlow : UInt8.ofNat port = UInt8.ofNat (port % 256) := by
      apply UInt8.toNat_inj.mp
      simp only [UInt8.toNat_ofNat']
      omega
    constructor
    · intro hnil
      rw [hnil] at hhost
      exact hhost (.inl rfl)
    · omega
    · omega
    · omega
    · simp only [frame, Int.toNat_natCast, hsmall, hdiv, hlow]
      rfl

theorem encodeUdpEnvelope_reads (h : encodeUdpEnvelope addr payload = .ok envelope) :
    ∃ host portText, ∃ port : Nat, splitHostPort addr = .ok (host, portText) ∧ atoi portText = some (port : Int) := by
  simp only [encodeUdpEnvelope] at h
  split at h
  · cases h
  split at h
  · cases h
  next host portText hsplit =>
  split at h
  · cases h
  next port hport =>
  split at h
  · cases h
  next hrange =>
    refine ⟨host, portText, port.toNat, hsplit, ?_⟩
    rw [hport, Int.toNat_of_nonneg (by omega)]

/-- It does so whenever the address fits. -/
theorem encodeUdpEnvelope_ok {host portText : Bytes}
    (hsplit : splitHostPort addr = .ok (host, portText)) (hport : atoi portText = some (port : Int))
    (hrange : 1 ≤ port ∧ port ≤ 65535) (hhost : host ≠ [] ∧ host.length ≤ 255)
    (hpayload : payload.length ≤ udpMaxPayloadBytes) : ∃ envelope, encodeUdpEnvelope addr payload = .ok envelope := by
  have hlen : ¬ (host.length = 0 ∨ host.length > udpMaxAddressBytes) := by
    have := List.length_pos_iff.mpr hhost.1
    simp only [udpMaxAddressBytes]
    omega
  have hbound : ¬ ((port : Int) < 1 ∨ (port : Int) > 65535) := by omega
  simp only [encodeUdpEnvelope, hsplit, hport, if_neg (Nat.not_lt.mpr hpayload), if_neg hbound, if_neg hlen]
  exact ⟨_, rfl⟩

theorem encodeDatagramEnvelope_eq_ok {address : List Char}
    (h : encodeDatagramEnvelope ⟨address, port⟩ payload = .ok envelope) :
    Layout envelope (encodeUtf8 address) port payload := by
  simp only [encodeDatagramEnvelope] at h
  split at h
  · cases h
  next haddress =>
  split at h
  · cases h
  next hrange =>
  split at h
  · cases h
  split at h
  · cases h
  next hlen =>
    cases h
    have hhigh : (port >>> 8) &&& 0xff = port / 256 := by
      rw [Nat.shiftRight_eq_div_pow, show (0xff : Nat) = 2 ^ 8 - 1 from rfl, Nat.and_two_pow_sub_one_eq_mod]
      omega
    have hlow : port &&& 0xff = port % 256 := Nat.and_two_pow_sub_one_eq_mod port 8
    constructor
    · intro hnil
      have hdecoded := decodeUtf8_encodeUtf8 address
      rw [hnil, ← show encodeUtf8 [] = [] from rfl, decodeUtf8_encodeUtf8] at hdecoded
      exact haddress (Option.some.inj hdecoded).symm
    · omega
    · omega
    · omega
    · simp only [frame, Int.toNat_natCast, hhigh, hlow]

theorem encodeDatagramEnvelope_ok {address : List Char} (haddress : address ≠ [])
    (hlen : (encodeUtf8 address).length ≤ 255) (hrange : 1 ≤ port ∧ port ≤ 65535)
    (hpayload : payload.length ≤ tailscaleMaxDatagramPayloadBytes) :
    ∃ envelope, encodeDatagramEnvelope ⟨address, port⟩ payload = .ok envelope := by
  have hbound : ¬ ((port : Int) < 1 ∨ (port : Int) > 65535) := by omega
  simp only [encodeDatagramEnvelope, if_neg haddress, if_neg hbound, if_neg (Nat.not_lt.mpr hpayload),
    if_neg (Nat.not_lt.mpr hlen)]
  exact ⟨_, rfl⟩

/-- The Dart decoder on an envelope of the format: only the address can still be refused. -/
theorem decodeDatagramEnvelope_layout {address : Bytes} (h : Layout envelope address port payload) :
    decodeDatagramEnvelope envelope = match utf8Decode address with
      | none => refuse (.udp "malformed UDP envelope address") | some text => .ok ⟨⟨text, port⟩, payload⟩ := by
  obtain ⟨hne, hle, hpos, hmax, rfl⟩ := h
  have hlen : (UInt8.ofNat address.length).toNat = address.length := length_byte hle
  have hnonzero : address.length ≠ 0 := fun h0 => hne (List.length_eq_zero_iff.mp h0)
  have hport : (UInt8.ofNat (port / 256)).toNat <<< 8 ||| (UInt8.ofNat (port % 256)).toNat = port := by
    rw [shiftLeft_or_eq, port_bytes hmax]
  have h4 : ¬ (frame address port payload).length < 4 := by rw [frame_length]; omega
  have hoff : ¬ 4 + address.length > (frame address port payload).length := by rw [frame_length]; omega
  have hpos' : ¬ port < 1 := by omega
  have hb (i : Nat) (b : UInt8) (hi : (frame address port payload)[i]? = some b) :
      (byteAt (frame address port payload) i : Except (Fault DartError) UInt8) = .ok b := by
    simp only [byteAt, hi]
  simp only [decodeDatagramEnvelope, if_neg h4, hb 0 1 rfl, hb 1 _ rfl, hb 2 _ rfl, hb 3 _ rfl, bind, Except.bind,
    ne_eq, not_true_eq_false, if_false, hlen, if_neg hnonzero, if_neg hoff, hport, if_neg hpos', slice_address]
  cases utf8Decode address with
  | none => rfl
  | some text =>
    simp only [slice_payload]
    rfl

theorem decodeDatagramEnvelope_refuses (h : ¬ ∃ address port payload, Layout envelope address port payload) :
    ∃ err, decodeDatagramEnvelope envelope = .error (.refused err) := by
  match envelope with
  | [] | [_] | [_, _] | [_, _, _] => exact ⟨_, rfl⟩
  | version :: length :: hi :: lo :: body =>
    have h4 : ¬ (version :: length :: hi :: lo :: body).length < 4 := by simp only [List.length_cons]; omega
    simp only [decodeDatagramEnvelope, if_neg h4, byteAt, List.getElem?_cons_zero, List.getElem?_cons_succ, bind,
      Except.bind, refuse]
    by_cases hversion : version = 1
    · by_cases hlength : length.toNat = 0
      · simp only [hversion, hlength, ne_eq, not_true_eq_false, if_false, if_true]
        exact ⟨_, rfl⟩
      · by_cases hoff : 4 + length.toNat > (version :: length :: hi :: lo :: body).length
        · simp only [hversion, ne_eq, not_true_eq_false, if_false, if_neg hlength] at hoff ⊢
          rw [if_pos hoff]
          exact ⟨_, rfl⟩
        · by_cases hport : (hi.toNat <<< 8) ||| lo.toNat < 1
          · subst hversion
            simp only [ne_eq, not_true_eq_false, if_false, if_neg hlength, if_neg hoff, if_pos hport]
            exact ⟨_, rfl⟩
          · subst hversion
            rw [shiftLeft_or_eq] at hport
            simp only [List.length_cons] at hoff
            exact absurd ⟨_, _, _, layout_of_header hlength (by omega) (by omega)⟩ h
    · simp only [ne_eq, hversion, not_false_eq_true, if_true]
      exact ⟨_, rfl⟩

section Go

variable {Addr : Type} (net : AddrSyntax Addr) {envelope : Bytes}

/-- The Go decoder on an envelope of the format: only the literal can still be refused. -/
theorem decodeUdpEnvelope_layout {address payload : Bytes} {port : Nat} (h : Layout envelope address port payload) :
    decodeUdpEnvelope net envelope = match net.parseAddr address with
      | .error message => refuse (.note "invalid UDP envelope address %q: %w" (.foreign (.parse message)))
      | .ok ip => .ok ⟨ip, port, payload⟩ := by
  obtain ⟨hne, hle, hpos, hmax, rfl⟩ := h
  have hlen : (UInt8.ofNat address.length).toNat = address.length := length_byte hle
  have hnonzero : address.length ≠ 0 := fun h0 => hne (List.length_eq_zero_iff.mp h0)
  have hport : bigEndianUint16 (UInt8.ofNat (port / 256)) (UInt8.ofNat (port % 256)) = port := by
    rw [bigEndianUint16_eq, port_bytes hmax]
  have h4 : ¬ (frame address port payload).length < 4 := by rw [frame_length]; omega
  have hoff : ¬ (address.length = 0 ∨ 4 + address.length > (frame address port payload).length) := by
    rw [frame_length]
    omega
  have hrange : ¬ (port < 1 ∨ port > 65535) := by omega
  have hb (i : Nat) (b : UInt8) (hi : (frame address port payload)[i]? = some b) :
      (byteAt (frame address port payload) i : Except (Fault Error) UInt8) = .ok b := by
    simp only [byteAt, hi]
  simp only [decodeUdpEnvelope, udpEnvelopeHeaderBytes, udpEnvelopeVersion, if_neg h4, hb 0 1 rfl, hb 1 _ rfl,
    hb 2 _ rfl, hb 3 _ rfl, bind, Except.bind, ne_eq, not_true_eq_false, if_false, hlen, if_neg hoff, hport,
    if_neg hrange, slice_address]
  cases net.parseAddr address with
  | error message => rfl
  | ok ip =>
    simp only [slice_payload]
    rfl

theorem decodeUdpEnvelope_refuses (h : ¬ ∃ address port payload, Layout envelope address port payload) :
    ∃ err, decodeUdpEnvelope net envelope = .error (.refused err) := by
  match envelope with
  | [] | [_] | [_, _] | [_, _, _] => exact ⟨_, rfl⟩
  | version :: length :: hi :: lo :: body =>
    have h4 : ¬ (version :: length :: hi :: lo :: body).length < udpEnvelopeHeaderBytes := by
      simp only [List.length_cons, udpEnvelopeHeaderBytes]
      omega
    simp only [decodeUdpEnvelope, udpEnvelopeVersion, if_neg h4, byteAt, List.getElem?_cons_zero,
      List.getElem?_cons_succ, bind, Except.bind, refuse]
    by_cases hversion : version = 1
    · subst hversion
      by_cases hoff : length.toNat = 0 ∨
          udpEnvelopeHeaderBytes + length.toNat > (1 :: length :: hi :: lo :: body).length
      · simp only [ne_eq, not_true_eq_false, if_false, if_pos hoff]
        exact ⟨_, rfl⟩
      · by_cases hport : bigEndianUint16 hi lo < 1 ∨ bigEndianUint16 hi lo > 65535
        · simp only [ne_eq, not_true_eq_false, if_false, if_neg hoff, if_pos hport]
          exact ⟨_, rfl⟩
        · rw [bigEndianUint16_eq] at hport
          simp only [List.length_cons, udpEnvelopeHeaderBytes, not_or] at hoff
          exact absurd ⟨_, _, _, layout_of_header hoff.1 (by omega) (by omega)⟩ h
    · simp only [ne_eq, hversion, not_false_eq_true, if_true]
      exact ⟨_, rfl⟩

theorem decodeUdpEnvelope_eq_ok_iff {d : GoDatagram Addr} : decodeUdpEnvelope net envelope = .ok d ↔
      ∃ address, Layout envelope address d.port d.payload ∧ net.parseAddr address = .ok d.ip := by
  constructor
  · intro hd
    by_cases h : ∃ address port payload, Layout envelope address port payload
    · obtain ⟨address, port, payload, h⟩ := h
      rw [decodeUdpEnvelope_layout net h] at hd
      cases hparse : net.parseAddr address with
      | error message =>
        rw [hparse] at hd
        cases hd
      | ok ip =>
        rw [hparse] at hd
        cases hd
        exact ⟨address, h, hparse⟩
    · obtain ⟨err, herr⟩ := decodeUdpEnvelope_refuses net h
      rw [herr] at hd
      cases hd
  · rintro ⟨address, h, hparse⟩
    rw [decodeUdpEnvelope_layout net h, hparse]

end Go

/-! ## Text -/

theorem encodeUtf8_of_decodeUtf8 {bytes : Bytes} {text : List Char} (h : decodeUtf8 bytes = some text) :
    encodeUtf8 text = bytes := by
  obtain ⟨str, hstr, rfl⟩ := Option.map_eq_some_iff.mp h
  rw [encodeUtf8, String.ofList_toList]
  rw [String.fromUTF8?] at hstr
  split at hstr
  · cases hstr
    simp [String.fromUTF8]
  · cases hstr

theorem head_ne_byteOrderMark {text : List Char} {b : UInt8} {rest : Bytes} (h : encodeUtf8 text = b :: rest)
    (hb : isLiteralHead b = true) : text.head? ≠ some byteOrderMark := by
  cases text with
  | nil => exact nofun
  | cons c chars =>
    intro hhead
    obtain rfl : c = byteOrderMark := Option.some.inj hhead
    have hmark : isLiteralHead 0xEF = false := by decide
    have hbytes : encodeUtf8 (byteOrderMark :: chars) = 0xEF :: 0xBB :: 0xBF :: encodeUtf8 chars := by
      have hencoded : String.utf8EncodeChar byteOrderMark = [0xEF, 0xBB, 0xBF] := by decide
      simp only [encodeUtf8_eq_flatMap, List.flatMap_cons, hencoded, List.cons_append, List.nil_append]
    rw [hbytes] at h
    rw [← (List.cons.inj h).1, hmark] at hb
    cases hb

/-! ## Agreement -/

/-- The address bytes an envelope announces. -/
def addressOf (envelope : Bytes) : Bytes :=
  (envelope.drop 4).take ((envelope[1]?.getD 0).toNat)

theorem addressOf_layout {address : Bytes}
    (h : Layout envelope address port payload) : addressOf envelope = address := by
  obtain ⟨-, hle, -, -, rfl⟩ := h
  have hsecond : (frame address port payload)[1]? = some (UInt8.ofNat address.length) := rfl
  have hdrop : (frame address port payload).drop 4 = address ++ payload := rfl
  rw [addressOf, hsecond, hdrop, Option.getD_some, length_byte hle, List.take_left]

section Agreement

variable {Addr : Type} (net : AddrSyntax Addr)

/-- The two codecs are inverse to each other, and refuse the same envelopes but for the address check each
language makes of its own. -/
structure CodecsAgree : Prop where
  goWrites : ∀ {text : List Char} {ip : Addr} {port : Nat} {payload : Bytes},
    net.parseAddr (encodeUtf8 text) = .ok ip → 1 ≤ port ∧ port ≤ 65535 →
    payload.length ≤ udpMaxPayloadBytes → (encodeUtf8 text).length ≤ udpMaxAddressBytes →
    openBracket ∉ encodeUtf8 text → closeBracket ∉ encodeUtf8 text →
    ∃ envelope, encodeUdpEnvelope (joinHostPort (encodeUtf8 text) (itoa port)) payload = .ok envelope
  goToDart : ∀ {text : List Char} {ip : Addr} {port : Nat} {payload envelope : Bytes},
    net.parseAddr (encodeUtf8 text) = .ok ip →
    encodeUdpEnvelope (joinHostPort (encodeUtf8 text) (itoa port)) payload = .ok envelope →
    decodeDatagramEnvelope envelope = .ok ⟨⟨text, port⟩, payload⟩
  dartWrites : ∀ {text : List Char} {ip : Addr} {port : Nat} {payload : Bytes},
    net.parseAddr (encodeUtf8 text) = .ok ip → 1 ≤ port ∧ port ≤ 65535 →
    payload.length ≤ udpMaxPayloadBytes → (encodeUtf8 text).length ≤ udpMaxAddressBytes →
    ∃ envelope, encodeDatagramEnvelope ⟨text, port⟩ payload = .ok envelope
  dartToGo : ∀ {text : List Char} {ip : Addr} {port : Nat} {payload envelope : Bytes},
    net.parseAddr (encodeUtf8 text) = .ok ip →
    encodeDatagramEnvelope ⟨text, port⟩ payload = .ok envelope →
    decodeUdpEnvelope net envelope = .ok ⟨ip, port, payload⟩
  alike : ∀ envelope : Bytes,
    ((∃ d, decodeUdpEnvelope net envelope = .ok d) ∧ (utf8Decode (addressOf envelope)).isSome) ↔
      ((∃ d, decodeDatagramEnvelope envelope = .ok d) ∧ ∃ ip, net.parseAddr (addressOf envelope) = .ok ip)
  sameFields : ∀ {envelope : Bytes} {d : GoDatagram Addr} {d' : TailscaleDatagram},
    decodeUdpEnvelope net envelope = .ok d → decodeDatagramEnvelope envelope = .ok d' →
    net.parseAddr (encodeUtf8 d'.remote.address) = .ok d.ip ∧ d'.remote.port = d.port ∧ d'.payload = d.payload
  inBounds : ∀ envelope : Bytes,
    decodeUdpEnvelope net envelope ≠ .error .outOfRange ∧ decodeDatagramEnvelope envelope ≠ .error .outOfRange
  reply : ∀ {addr host portText payload envelope : Bytes} {ip : Addr} {d : TailscaleDatagram},
    splitHostPort addr = .ok (host, portText) → net.parseAddr host = .ok ip →
    encodeUdpEnvelope addr payload = .ok envelope → decodeDatagramEnvelope envelope = .ok d →
    ∀ answer : Bytes, answer.length ≤ tailscaleMaxDatagramPayloadBytes →
      ∃ envelope' port, d.remote.port = (port : Nat) ∧ encodeDatagramEnvelope d.remote answer = .ok envelope' ∧
        decodeUdpEnvelope net envelope' = .ok ⟨ip, port, answer⟩

variable {net} {ip : Addr}

theorem AddrSyntax.ne_nil {text : Bytes} (h : net.parseAddr text = .ok ip) : text ≠ [] := by
  obtain ⟨b, rest, rfl, -⟩ := net.head h
  exact List.cons_ne_nil b rest

theorem AddrSyntax.head_ne_openBracket {text : Bytes} (h : net.parseAddr text = .ok ip) :
    text.head? ≠ some openBracket := by
  obtain ⟨b, rest, rfl, hb⟩ := net.head h
  intro hhead
  obtain rfl : b = openBracket := Option.some.inj hhead
  exact absurd hb (by decide)

variable {text : List Char}

theorem AddrSyntax.utf8Decode_eq {bytes : Bytes} (h : net.parseAddr bytes = .ok ip)
    (htext : decodeUtf8 bytes = some text) : utf8Decode bytes = some text := by
  obtain ⟨b, rest, rfl, hb⟩ := net.head h
  have hmark : text.head? ≠ some byteOrderMark := head_ne_byteOrderMark (encodeUtf8_of_decodeUtf8 htext) hb
  simp only [utf8Decode, htext, Option.map_some, if_neg hmark]

theorem AddrSyntax.encodeUtf8_eq {bytes : Bytes} (h : net.parseAddr bytes = .ok ip)
    (htext : utf8Decode bytes = some text) : encodeUtf8 text = bytes := by
  obtain ⟨raw, hraw, -⟩ := Option.map_eq_some_iff.mp htext
  have hsame := net.utf8Decode_eq h hraw
  obtain rfl : text = raw := Option.some.inj (htext.symm.trans hsame)
  exact encodeUtf8_of_decodeUtf8 hraw

theorem ne_nil_of_encodeUtf8 (h : encodeUtf8 text ≠ []) : text ≠ [] :=
  fun hnil => h (by rw [hnil]; rfl)

variable {envelope payload : Bytes}

theorem goLayout {port : Nat} (hip : net.parseAddr (encodeUtf8 text) = .ok ip)
    (h : encodeUdpEnvelope (joinHostPort (encodeUtf8 text) (itoa port)) payload = .ok envelope) :
    Layout envelope (encodeUtf8 text) port payload := by
  obtain ⟨host, portText, -, hsplit, -⟩ := encodeUdpEnvelope_reads h
  obtain ⟨rfl, rfl⟩ := eq_of_splitHostPort_joinHostPort (net.head_ne_openBracket hip) (itoa_plain port).1 hsplit
  exact encodeUdpEnvelope_eq_ok hsplit (atoi_itoa port) h

theorem alike_of_layout (net : AddrSyntax Addr) {address : Bytes} {port : Nat}
    (h : Layout envelope address port payload) :
    ((∃ d, decodeUdpEnvelope net envelope = .ok d) ↔ ∃ ip, net.parseAddr address = .ok ip) ∧
      ((∃ d, decodeDatagramEnvelope envelope = .ok d) ↔ (utf8Decode address).isSome) := by
  rw [decodeUdpEnvelope_layout net h, decodeDatagramEnvelope_layout h]
  constructor
  · cases net.parseAddr address with
    | error message => simp [refuse]
    | ok ip => simp
  · cases utf8Decode address with
    | none => simp [refuse]
    | some text => simp

variable (net)

theorem decoders_alike (envelope : Bytes) :
    ((∃ d, decodeUdpEnvelope net envelope = .ok d) ∧ (utf8Decode (addressOf envelope)).isSome) ↔
      ((∃ d, decodeDatagramEnvelope envelope = .ok d) ∧ ∃ ip, net.parseAddr (addressOf envelope) = .ok ip) := by
  by_cases h : ∃ address port payload, Layout envelope address port payload
  · obtain ⟨address, port, payload, h⟩ := h
    obtain ⟨hgo, hdart⟩ := alike_of_layout net h
    rw [addressOf_layout h, hgo, hdart]
    exact and_comm
  · obtain ⟨goErr, hgo⟩ := decodeUdpEnvelope_refuses net h
    obtain ⟨dartErr, hdart⟩ := decodeDatagramEnvelope_refuses h
    rw [hgo, hdart]
    constructor
    · rintro ⟨⟨d, hd⟩, -⟩
      cases hd
    · rintro ⟨⟨d, hd⟩, -⟩
      cases hd

theorem decoders_in_bounds (envelope : Bytes) :
    decodeUdpEnvelope net envelope ≠ .error .outOfRange ∧ decodeDatagramEnvelope envelope ≠ .error .outOfRange := by
  by_cases h : ∃ address port payload, Layout envelope address port payload
  · obtain ⟨address, port, payload, h⟩ := h
    rw [decodeUdpEnvelope_layout net h, decodeDatagramEnvelope_layout h]
    constructor
    · cases net.parseAddr address <;> simp [refuse]
    · cases utf8Decode address <;> simp [refuse]
  · obtain ⟨goErr, hgo⟩ := decodeUdpEnvelope_refuses net h
    obtain ⟨dartErr, hdart⟩ := decodeDatagramEnvelope_refuses h
    rw [hgo, hdart]
    constructor
    · intro heq
      cases heq
    · intro heq
      cases heq

/-- A datagram Go sent can be answered: its sender's endpoint is encoded again, and Go accepts it. -/
theorem reply_accepted {addr host portText : Bytes} {d : TailscaleDatagram}
    (hsplit : splitHostPort addr = .ok (host, portText)) (hip : net.parseAddr host = .ok ip)
    (henvelope : encodeUdpEnvelope addr payload = .ok envelope) (hd : decodeDatagramEnvelope envelope = .ok d)
    (answer : Bytes) (hanswer : answer.length ≤ tailscaleMaxDatagramPayloadBytes) :
    ∃ envelope' port, d.remote.port = (port : Nat) ∧ encodeDatagramEnvelope d.remote answer = .ok envelope' ∧
      decodeUdpEnvelope net envelope' = .ok ⟨ip, port, answer⟩ := by
  obtain ⟨host', portText', port, hsplit', hport⟩ := encodeUdpEnvelope_reads henvelope
  cases hsplit.symm.trans hsplit'
  have hlayout := encodeUdpEnvelope_eq_ok hsplit hport henvelope
  rw [decodeDatagramEnvelope_layout hlayout] at hd
  cases htext : utf8Decode host with
  | none =>
    rw [htext] at hd
    cases hd
  | some text =>
    rw [htext] at hd
    cases hd
    have hhost : encodeUtf8 text = host := net.encodeUtf8_eq hip htext
    have hne : text ≠ [] := ne_nil_of_encodeUtf8 (hhost ▸ hlayout.address_ne)
    obtain ⟨envelope', henvelope'⟩ := encodeDatagramEnvelope_ok hne (hhost ▸ hlayout.address_le)
      ⟨hlayout.port_pos, hlayout.port_le⟩ hanswer
    refine ⟨envelope', port, rfl, henvelope', ?_⟩
    have hlayout' := encodeDatagramEnvelope_eq_ok henvelope'
    rw [hhost] at hlayout'
    rw [decodeUdpEnvelope_layout net hlayout', hip]

/-- The two codecs are one: each side writes what its bounds allow, each reads back what the other wrote, they accept
the same envelopes up to their readings of the address, and neither reads outside the envelope. -/
theorem codecs_agree : CodecsAgree net where
  goWrites := by
    intro text ip port payload hip hrange hpayload hlen hopen hclose
    have hsplit := splitHostPort_joinHostPort hopen hclose (itoa_plain port)
    exact encodeUdpEnvelope_ok hsplit (atoi_itoa port) hrange ⟨net.ne_nil hip, hlen⟩ hpayload
  goToDart := by
    intro text ip port payload envelope hip henvelope
    have htext := net.utf8Decode_eq hip (decodeUtf8_encodeUtf8 text)
    rw [decodeDatagramEnvelope_layout (goLayout hip henvelope), htext]
  dartWrites := by
    intro text ip port payload hip hrange hpayload hlen
    exact encodeDatagramEnvelope_ok (ne_nil_of_encodeUtf8 (net.ne_nil hip)) hlen hrange hpayload
  dartToGo := by
    intro text ip port payload envelope hip henvelope
    rw [decodeUdpEnvelope_layout net (encodeDatagramEnvelope_eq_ok henvelope), hip]
  alike := decoders_alike net
  sameFields := by
    intro envelope d d' hd hd'
    obtain ⟨address, hlayout, hip⟩ := (decodeUdpEnvelope_eq_ok_iff net).mp hd
    rw [decodeDatagramEnvelope_layout hlayout] at hd'
    cases htext : utf8Decode address with
    | none =>
      rw [htext] at hd'
      cases hd'
    | some text =>
      rw [htext] at hd'
      cases hd'
      exact ⟨by rw [net.encodeUtf8_eq hip htext, hip], rfl, rfl⟩
  inBounds := decoders_in_bounds net
  reply := by
    intro addr host portText payload envelope ip d hsplit hip henvelope hd
    exact reply_accepted net hsplit hip henvelope hd

end Agreement

/-- A syntax with one address, `10.0.0.1`. -/
def oneAddress : AddrSyntax Unit where
  parseAddr := fun text => if text = [49, 48, 46, 48, 46, 48, 46, 49] then .ok () else .error "unable to parse IP"
  head := by
    intro text addr h
    split at h
    · next htext => exact ⟨49, _, htext, rfl⟩
    · cases h

/-- One datagram in each direction, with the bytes on the way. -/
theorem codecs_agree_one_address :
    ∃ envelope, encodeUdpEnvelope (encodeUtf8 "10.0.0.1:53".toList) [7, 8] = .ok envelope ∧
      decodeDatagramEnvelope envelope = .ok ⟨⟨"10.0.0.1".toList, 53⟩, [7, 8]⟩ ∧
      encodeDatagramEnvelope ⟨"10.0.0.1".toList, 53⟩ [7, 8] = .ok envelope ∧
      decodeUdpEnvelope oneAddress envelope = .ok ⟨(), 53, [7, 8]⟩ := by
  have hip : oneAddress.parseAddr (encodeUtf8 "10.0.0.1".toList) = .ok () := by decide
  have hjoin : joinHostPort (encodeUtf8 "10.0.0.1".toList) (itoa 53) = encodeUtf8 "10.0.0.1:53".toList := by decide
  have hgo : encodeUdpEnvelope (encodeUtf8 "10.0.0.1:53".toList) [7, 8] =
      .ok (frame [49, 48, 46, 48, 46, 48, 46, 49] 53 [7, 8]) := by decide
  have hdart : encodeDatagramEnvelope ⟨"10.0.0.1".toList, 53⟩ [7, 8] =
      .ok (frame [49, 48, 46, 48, 46, 48, 46, 49] 53 [7, 8]) := by decide
  refine ⟨_, hgo, ?_, hdart, (codecs_agree oneAddress).dartToGo hip hdart⟩
  exact (codecs_agree oneAddress).goToDart hip (hjoin ▸ hgo)

end TailscaleDart.Udp
