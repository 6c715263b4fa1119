import TailscaleDart.Store.Refinement

/-!
# Store.Metadata — the runtime configuration kept in the store

One key of the store is the package's own: the configuration of the last start that is known to have worked.
`saveRuntimeConfig` writes it as a strict JSON object, `clearRuntimeConfig` removes it, `loadRuntimeConfig` reads it
back. A configuration holds Go strings, which are any bytes; only UTF-8 is saved.

`load_saved` is the round trip: after a save that succeeded the load returns the very configuration.
-/

namespace TailscaleDart.Store

open Conc Durable JsonText

def persistentRuntimeConfigStateKey : String := "_tailscale-dart/runtime-config"
def persistentRuntimeConfigVersion : Int := 1
def maxRuntimeConfigMetadataBytes : Nat := 64 <<< 10

/-- The key as the store is asked for it. -/
def runtimeConfigId : Bytes := encodeUtf8 persistentRuntimeConfigStateKey.toList

/-- `runtimeConfig`. -/
structure RuntimeConfig where
  hostname : Bytes
  controlURL : Bytes
  ephemeral : Bool := false
  deriving DecidableEq, Repr

def runtimeConfigMetadataError (detail : String) : Err :=
  .note ("%w: " ++ detail) (.sentinel .runtimeConfigMetadataInvalid)

/-! ## Writing -/

def runtimeConfigMembers (hostname controlURL : List Char) : List (List Char × List Char) :=
  [("version".toList, ['1']), ("hostname".toList, quote hostname), ("controlURL".toList, quote controlURL),
    ("ephemeral".toList, ['f', 'a', 'l', 's', 'e'])]

/-- `json.Marshal` of a `persistentRuntimeConfigJSON`. -/
def marshalRuntimeConfig (hostname controlURL : List Char) : Bytes :=
  encodeUtf8 (writeObject (runtimeConfigMembers hostname controlURL))

/-- What `saveRuntimeConfig` persists for a configuration, if it is persistable. -/
def runtimeConfigPayload (config : RuntimeConfig) : Except Err Bytes :=
  match decodeUtf8 config.hostname, decodeUtf8 config.controlURL with
  | some hostname, some controlURL =>
    if config.ephemeral = true ∨ config.hostname.length > maxRuntimeConfigMetadataBytes ∨
        config.controlURL.length > maxRuntimeConfigMetadataBytes ∨
        config.hostname.length > maxRuntimeConfigMetadataBytes - config.controlURL.length then
      .error (runtimeConfigMetadataError "configuration is not persistable")
    else
      let payload := marshalRuntimeConfig hostname controlURL
      if payload.length > maxRuntimeConfigMetadataBytes then
        .error (runtimeConfigMetadataError "metadata exceeds its size limit")
      else .ok payload
  | _, _ => .error (runtimeConfigMetadataError "configuration is not persistable")

/-- `ipn.WriteState`, a function of upstream. What is asked of it: it calls the store's `WriteState` with the value, and
may leave that call out only where the store holds the value already. -/
structure IpnWriteState (box : SecretBox) where
  write : EncryptedStateStore → Bytes → Bytes → Sys (EncryptedStateStore × Option Err)
  writes : ∀ s id value, write s id value = s.writeState box id (some value) ∨
    s.readState id = .ok value ∧ write s id value = return (s, none)

section Calls

variable {box : SecretBox} (ipn : IpnWriteState box) (s : EncryptedStateStore)

def saveRuntimeConfig (config : RuntimeConfig) : Sys (EncryptedStateStore × Option Err) :=
  match runtimeConfigPayload config with
  | .error err => return (s, some err)
  | .ok payload => ipn.write s runtimeConfigId payload

variable (box) in
def clearRuntimeConfig : Sys (EncryptedStateStore × Option Err) := s.writeState box runtimeConfigId none

end Calls

/-! ## Reading -/

def decodeJSONBoolean (d : Decoder) : Option (Bool × Decoder) := do
  match ← d.beginValue with
  | 't' :: 'r' :: 'u' :: 'e' :: rest => some (true, ⟨rest, .objectComma⟩)
  | 'f' :: 'a' :: 'l' :: 's' :: 'e' :: rest => some (false, ⟨rest, .objectComma⟩)
  | _ => none

/-- What the loop has read so far. -/
structure WireConfig where
  seen : List String := []
  version : Int := 0
  hostname : String := ""
  controlURL : String := ""
  ephemeral : Bool := false
  deriving DecidableEq, Repr

/-- One round of the loop, after the field's name. -/
def readConfigField (wire : WireConfig) (name : List Char) (d : Decoder) : Except Err (WireConfig × Decoder) :=
  let field := String.ofList name
  if field ∈ wire.seen then .error (runtimeConfigMetadataError "duplicate field")
  else
    let wire := { wire with seen := field :: wire.seen }
    let read : Option (Option (WireConfig × Decoder)) :=
      if field = "version" then some ((decodeJSONInteger d).map fun (v, d) => ({ wire with version := v }, d))
      else if field = "hostname" then some ((decodeJSONString d).map fun (v, d) => ({ wire with hostname := v }, d))
      else if field = "controlURL" then some ((decodeJSONString d).map fun (v, d) => ({ wire with controlURL := v }, d))
      else if field = "ephemeral" then some ((decodeJSONBoolean d).map fun (v, d) => ({ wire with ephemeral := v }, d))
      else none
    match read with
    | none => .error (runtimeConfigMetadataError "unknown field")
    | some none => .error (runtimeConfigMetadataError "invalid field type")
    | some (some result) => .ok result

/-- What is checked once the object has been read. A string of the model is always UTF-8. -/
def checkWireConfig (wire : WireConfig) : Except Err RuntimeConfig :=
  if ¬ (["version", "hostname", "controlURL", "ephemeral"].all (· ∈ wire.seen)) then
    .error (runtimeConfigMetadataError "missing field")
  else if wire.version ≠ persistentRuntimeConfigVersion then .error (.sentinel .runtimeConfigMetadataVersion)
  else if wire.ephemeral then .error (runtimeConfigMetadataError "ephemeral metadata is forbidden")
  else .ok { hostname := encodeUtf8 wire.hostname.toList, controlURL := encodeUtf8 wire.controlURL.toList }

def parseRuntimeConfigMetadata (payload : Bytes) : Except Err RuntimeConfig :=
  if payload.length = 0 ∨ payload.length > maxRuntimeConfigMetadataBytes then
    .error (runtimeConfigMetadataError "invalid encoding or size")
  else
    match decodeUtf8 payload with
    | none => .error (runtimeConfigMetadataError "invalid encoding or size")
    | some text => do
      let wire ← readObject (runtimeConfigMetadataError "malformed object")
        (runtimeConfigMetadataError "metadata must be an object") (runtimeConfigMetadataError "malformed object")
        (runtimeConfigMetadataError "trailing data") (runtimeConfigMetadataError "malformed field")
        readConfigField ({} : WireConfig) text
      checkWireConfig wire

def loadRuntimeConfig (s : EncryptedStateStore) : Except Err RuntimeConfig := do
  parseRuntimeConfigMetadata (← s.readState runtimeConfigId)

/-! ## The round trip -/

theorem decodeJSONBoolean_false (rest : List Char) :
    decodeJSONBoolean ⟨':' :: ['f', 'a', 'l', 's', 'e'] ++ rest, .objectColon⟩ = some (false, ⟨rest, .objectComma⟩) :=
      rfl

/-- The fields after the loop has gone through what was written. -/
def writtenConfig (hostname controlURL : List Char) : WireConfig where
  seen := ["ephemeral", "controlURL", "hostname", "version"]
  version := 1
  hostname := String.ofList hostname
  controlURL := String.ofList controlURL

theorem accepts_runtimeConfig (hostname controlURL : List Char) :
    Accepts readConfigField {} (runtimeConfigMembers hostname controlURL) (writtenConfig hostname controlURL) := by
  let wire1 : WireConfig := { seen := ["version"], version := 1 }
  let wire2 : WireConfig := { wire1 with seen := ["hostname", "version"], hostname := String.ofList hostname }
  let wire3 : WireConfig :=
    { wire2 with seen := ["controlURL", "hostname", "version"], controlURL := String.ofList controlURL }
  have hversion : ∀ rest, EndsMember rest → readConfigField {} "version".toList ⟨':' :: ['1'] ++ rest, .objectColon⟩ =
      .ok (wire1, ⟨rest, .objectComma⟩) := by
    intro rest hrest
    simp only [readConfigField, decodeJSONInteger_version rest hrest]
    rfl
  have hhostname : ∀ rest, EndsMember rest → readConfigField wire1 "hostname".toList
      ⟨':' :: quote hostname ++ rest, .objectColon⟩ = .ok (wire2, ⟨rest, .objectComma⟩) := by
    intro rest _
    simp only [readConfigField, decodeJSONString_quote]
    rfl
  have hcontrolURL : ∀ rest, EndsMember rest → readConfigField wire2 "controlURL".toList
      ⟨':' :: quote controlURL ++ rest, .objectColon⟩ = .ok (wire3, ⟨rest, .objectComma⟩) := by
    intro rest _
    simp only [readConfigField, decodeJSONString_quote]
    rfl
  have hephemeral : ∀ rest, EndsMember rest → readConfigField wire3 "ephemeral".toList
      ⟨':' :: ['f', 'a', 'l', 's', 'e'] ++ rest, .objectColon⟩ =
        .ok (writtenConfig hostname controlURL, ⟨rest, .objectComma⟩) := by
    intro rest _
    have hdecoded := decodeJSONBoolean_false rest
    unfold readConfigField
    rw [hdecoded]
    rfl
  exact .cons hversion (.cons hhostname (.cons hcontrolURL (.cons hephemeral (.nil _))))

theorem encodeUtf8_of_decodeUtf8 {bytes : Bytes} {text : List Char} (h : decodeUtf8 bytes = some text) :
    encodeUtf8 text = bytes := by
  obtain ⟨string, hstring, rfl⟩ := Option.map_eq_some_iff.mp h
  unfold String.fromUTF8? at hstring
  split at hstring
  · cases hstring
    rw [encodeUtf8, String.ofList_toList]
    rfl
  · cases hstring

theorem runtimeConfigPayload_ok {config : RuntimeConfig} {payload : Bytes}
    (h : runtimeConfigPayload config = .ok payload) :
    config.ephemeral = false ∧ payload.length ≤ maxRuntimeConfigMetadataBytes ∧
      ∃ hostname controlURL, config.hostname = encodeUtf8 hostname ∧ config.controlURL = encodeUtf8 controlURL ∧
        payload = marshalRuntimeConfig hostname controlURL := by
  unfold runtimeConfigPayload at h
  split at h
  · next hostname controlURL hhost hurl =>
    split at h
    · cases h
    · next hchecked =>
      simp only [not_or, Bool.not_eq_true] at hchecked
      simp only at h
      split at h
      · cases h
      · next hsize =>
        cases h
        exact ⟨hchecked.1, Nat.le_of_not_lt hsize, hostname, controlURL, (encodeUtf8_of_decodeUtf8 hhost).symm,
          (encodeUtf8_of_decodeUtf8 hurl).symm, rfl⟩
  · cases h

theorem parse_runtimeConfigPayload {config : RuntimeConfig} {payload : Bytes}
    (h : runtimeConfigPayload config = .ok payload) : parseRuntimeConfigMetadata payload = .ok config := by
  obtain ⟨hephemeral, hsize, hostname, controlURL, hhost, hurl, rfl⟩ := runtimeConfigPayload_ok h
  have hne : (marshalRuntimeConfig hostname controlURL).length ≠ 0 := by
    have hlength := length_le_encodeUtf8 (writeObject (runtimeConfigMembers hostname controlURL))
    have hpos : 0 < (writeObject (runtimeConfigMembers hostname controlURL)).length := Nat.succ_pos _
    exact Nat.ne_of_gt (Nat.lt_of_lt_of_le hpos hlength)
  have hcheck : checkWireConfig (writtenConfig hostname controlURL) = .ok config := by
    have hseen : ["version", "hostname", "controlURL", "ephemeral"].all
        (fun f => decide (f ∈ (writtenConfig hostname controlURL).seen)) = true := rfl
    unfold checkWireConfig
    rw [if_neg (not_not_intro hseen), if_neg (by simp [writtenConfig, persistentRuntimeConfigVersion]),
      if_neg (by simp [writtenConfig])]
    simp only [writtenConfig, String.toList_ofList, ← hhost, ← hurl, ← hephemeral]
  unfold parseRuntimeConfigMetadata
  rw [if_neg (not_or_intro hne (Nat.not_lt.mpr hsize))]
  simp only [marshalRuntimeConfig, decodeUtf8_encodeUtf8,
    readObject_writeObject (accepts_runtimeConfig hostname controlURL), bind, Except.bind, hcheck]

theorem decodeUtf8_runtimeConfigId : decodeUtf8 runtimeConfigId = some persistentRuntimeConfigStateKey.toList :=
  decodeUtf8_encodeUtf8 _

theorem find_runtimeConfigId (s : EncryptedStateStore) :
    s.find runtimeConfigId = s.cache[persistentRuntimeConfigStateKey]? := by
  rw [EncryptedStateStore.find, decodeUtf8_runtimeConfigId, Option.bind_some, String.ofList_toList]

/-! ## What a save and a clear do to the store -/

section Saved

variable {box : SecretBox} {ipn : IpnWriteState box} {s s' : EncryptedStateStore} {d d' : Disk} {answers : List Answer}
  {err : Option Err}

/-- A value that `ipn.WriteState` has accepted is in the store. -/
theorem ipnWriteState_wrote (h : Coherent box s d) {id value : Bytes}
    (hrun : (ipn.write s id value).exec answers d = some ((s', err), d')) :
    EncryptedStateStore.Wrote box s d id (some value) (s', err) d' := by
  rcases ipn.writes s id value with hcall | ⟨hread, hcall⟩
  · exact (EncryptedStateStore.writeState_safe s id _ h).exec (hcall ▸ hrun)
  · rw [hcall] at hrun
    cases hrun
    unfold EncryptedStateStore.readState at hread
    split at hread
    · cases hread
    · next hopen =>
      split at hread
      · cases hread
      · next value' hfind =>
        cases hread
        obtain ⟨text, htext, hvalue⟩ := Option.bind_eq_some_iff.mp hfind
        have hopen' : s.closed = false := by simpa using hopen
        exact ⟨h, fun hne => absurd rfl hne, fun _ => ⟨hopen', hopen', text, htext,
          (s.candidate_of_same hvalue).symm⟩⟩

theorem wrote_runtimeConfigId {value : Option Bytes}
    (h : EncryptedStateStore.Wrote box s d runtimeConfigId value (s', none) d') :
    s'.closed = false ∧ s'.cache = s.candidate persistentRuntimeConfigStateKey value := by
  obtain ⟨-, hopen, text, htext, hcache⟩ := h.succeeded rfl
  rw [decodeUtf8_runtimeConfigId] at htext
  cases htext
  rw [String.ofList_toList] at hcache
  exact ⟨hopen, hcache⟩

variable {config : RuntimeConfig}

theorem saveRuntimeConfig_ok (h : Coherent box s d)
    (hrun : (saveRuntimeConfig ipn s config).exec answers d = some ((s', none), d')) :
    ∃ payload, runtimeConfigPayload config = .ok payload ∧
      EncryptedStateStore.Wrote box s d runtimeConfigId (some payload) (s', none) d' := by
  unfold saveRuntimeConfig at hrun
  split at hrun
  · cases hrun
  · next payload hpayload => exact ⟨payload, hpayload, ipnWriteState_wrote h hrun⟩

theorem saveRuntimeConfig_failed (h : Coherent box s d) (herr : err ≠ none)
    (hrun : (saveRuntimeConfig ipn s config).exec answers d = some ((s', err), d')) :
    Coherent box s' d' ∧ s' = s ∧ fileAt s d' = fileAt s d := by
  unfold saveRuntimeConfig at hrun
  split at hrun
  · cases hrun
    exact ⟨h, rfl, rfl⟩
  · have hwrote := ipnWriteState_wrote h hrun
    exact ⟨hwrote.coherent, hwrote.failed herr⟩

/-- **What was saved is loaded.** -/
theorem load_saved (h : Coherent box s d)
    (hrun : (saveRuntimeConfig ipn s config).exec answers d = some ((s', none), d')) :
    loadRuntimeConfig s' = .ok config := by
  obtain ⟨payload, hpayload, hwrote⟩ := saveRuntimeConfig_ok h hrun
  obtain ⟨hopen, hcache⟩ := wrote_runtimeConfigId hwrote
  have hread : s'.readState runtimeConfigId = .ok payload := by
    unfold EncryptedStateStore.readState
    rw [find_runtimeConfigId, hcache, EncryptedStateStore.candidate_find, hopen]
    rfl
  unfold loadRuntimeConfig
  rw [hread]
  exact parse_runtimeConfigPayload hpayload

end Saved

end TailscaleDart.Store
