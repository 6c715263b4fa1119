import Mathlib.Data.List.Basic
import Mathlib.Data.Vector.Basic
import TailscaleDart.Data.Base64
import TailscaleDart.Data.JsonText
import TailscaleDart.Errors

/-!
# Store.Envelope — the text of the encrypted store, written and read

The store is one file: a JSON envelope around the secretbox of a JSON map from state keys to
base64 values. `marshalEncryptedStateEnvelope` and `marshalStateMap` are what `json.Marshal` writes,
`parseEncryptedStateEnvelope` and `parseEncryptedStateMap` are the strict parsers, which go through
the decoder token by token and reject duplicates, unknown fields and non-canonical base64.

A state key is a valid UTF-8 string, so the map is keyed by `String`; Go sorts the keys of a marshalled
map by their bytes, which is the order of their characters.
-/

namespace TailscaleDart.Store

open JsonText

/-! ## Constants and limits -/

def encryptedStateFormat : String := "tailscale-dart-state"
def encryptedStateVersion : Int := 1
def encryptedStateAlgorithm : String := "secretbox-xsalsa20-poly1305"

def encryptedStateKeySize : Nat := 32
def encryptedStateNonceSize : Nat := 24

/-- `secretbox.Overhead`. -/
def overhead : Nat := 16

def maxEncryptedStateEnvelopeBytes : Nat := 24 <<< 20
def maxEncryptedStatePlaintextBytes : Nat := 16 <<< 20
def maxEncryptedStateCiphertextBytes : Nat := maxEncryptedStatePlaintextBytes + overhead

/-- `encryptedStateStoreLimits`, whose members are of type `int`. -/
structure Limits where
  maxEnvelopeBytes : Int
  maxCiphertextBytes : Int
  maxPlaintextBytes : Int
  ints : IsInt64 maxEnvelopeBytes ∧ IsInt64 maxCiphertextBytes ∧ IsInt64 maxPlaintextBytes := by decide
  deriving DecidableEq, Repr

def defaultEncryptedStateStoreLimits : Limits where
  maxEnvelopeBytes := maxEncryptedStateEnvelopeBytes
  maxCiphertextBytes := maxEncryptedStateCiphertextBytes
  maxPlaintextBytes := maxEncryptedStatePlaintextBytes

/-- The test on the limits in `encryptedStateStoreOptions.validate`. -/
def Limits.valid (l : Limits) : Bool :=
  !(l.maxEnvelopeBytes ≤ 0 || l.maxCiphertextBytes < overhead || l.maxPlaintextBytes ≤ 0)

/-! ## Values -/

abbrev Bytes := List UInt8
abbrev Key := List.Vector UInt8 encryptedStateKeySize
abbrev Nonce := List.Vector UInt8 encryptedStateNonceSize
abbrev StateMap := Std.ExtTreeMap String Bytes compare

/-- Authenticated encryption, as the store relies on it. -/
structure SecretBox where
  sealBox : Key → Nonce → Bytes → Bytes
  openBox : Key → Nonce → Bytes → Option Bytes
  open_seal : ∀ key nonce message, openBox key nonce (sealBox key nonce message) = some message
  seal_length : ∀ key nonce message, (sealBox key nonce message).length = message.length + overhead

/-- A box that only pads: the laws ask for nothing that cannot be had, and the store can be run with it. -/
def paddingBox : SecretBox where
  sealBox := fun _ _ message => message ++ List.replicate overhead 0
  openBox := fun _ _ ciphertext => some (ciphertext.take (ciphertext.length - overhead))
  open_seal := by
    intro key nonce message
    simp
  seal_length := by
    intro key nonce message
    simp

structure Envelope where
  nonce : Nonce
  ciphertext : Bytes
  deriving DecidableEq

/-! ## Writing -/

/-- A `[]byte` field: base64 between quotes, none of whose letters needs an escape. -/
def quoteBytes (bytes : Bytes) : List Char := '"' :: (Base64.encode bytes ++ ['"'])

def marshalStateMap (state : StateMap) : Bytes :=
  encodeUtf8 (writeObject (state.toList.map fun (key, value) => (key.toList, quoteBytes value)))

def envelopeMembers (nonce : Nonce) (ciphertext : Bytes) : List (List Char × List Char) :=
  [("format".toList, quote encryptedStateFormat.toList), ("version".toList, ['1']),
   ("algorithm".toList, quote encryptedStateAlgorithm.toList),
   ("nonce".toList, quoteBytes nonce.toList),
   ("ciphertext".toList, quoteBytes ciphertext)]

def marshalEncryptedStateEnvelope (nonce : Nonce) (ciphertext : Bytes) : Bytes :=
  encodeUtf8 (writeObject (envelopeMembers nonce ciphertext))

/-! ## Reading -/

section Parse

variable {F : Type}

/-- An error under a sentinel, with the text the source puts after it. -/
def invalidFormat (text : String) : GoError F :=
  .note ("%w: " ++ text) (.sentinel .encryptedStateInvalidFormat)

def oversized (text : String) : GoError F := .note ("%w: " ++ text) (.sentinel .encryptedStateOversized)

/-- A string value. Anything else is refused, whether or not it is well-formed JSON. -/
def decodeJSONString (d : Decoder) : Option (String × Decoder) := do
  match ← d.beginValue with
  | '"' :: rest =>
    let (raw, rest) ← scanString rest
    some (String.ofList (unquote raw), ⟨rest, .objectComma⟩)
  | _ => none

def decodeJSONInteger (d : Decoder) : Option (Int × Decoder) := do
  let (value, rest) ← scanInt (← d.beginValue)
  some (value, ⟨rest, .objectComma⟩)

/-- A canonical base64 value, read from the raw token without unescaping it. -/
def decodeCanonicalBase64JSON (d : Decoder) : Option (Bytes × Decoder) := do
  match ← d.beginValue with
  | '"' :: rest =>
    let (raw, rest) ← scanString rest
    let value ← Base64.decodeCanonical raw
    some (value, ⟨rest, .objectComma⟩)
  | _ => none

/-- What the loop over the outer object has read so far. -/
structure OuterFields where
  seen : List String := []
  format : String := ""
  version : Int := 0
  algorithm : String := ""
  nonceText : String := ""
  ciphertextText : String := ""
  deriving DecidableEq, Repr

/-- One round of that loop, after the field's name. -/
def readOuterField (fields : OuterFields) (name : List Char) (d : Decoder) :
    Except (GoError F) (OuterFields × Decoder) :=
  let field := String.ofList name
  if field ∈ fields.seen then .error (invalidFormat "duplicate outer field")
  else
    let fields := { fields with seen := field :: fields.seen }
    let read : Option (Option (OuterFields × Decoder)) :=
      if field = "format" then
        some ((decodeJSONString d).map fun (v, d) => ({ fields with format := v }, d))
      else if field = "version" then
        some ((decodeJSONInteger d).map fun (v, d) => ({ fields with version := v }, d))
      else if field = "algorithm" then
        some ((decodeJSONString d).map fun (v, d) => ({ fields with algorithm := v }, d))
      else if field = "nonce" then
        some ((decodeJSONString d).map fun (v, d) => ({ fields with nonceText := v }, d))
      else if field = "ciphertext" then
        some ((decodeJSONString d).map fun (v, d) => ({ fields with ciphertextText := v }, d))
      else none
    match read with
    | none => .error (invalidFormat "unknown outer field")
    | some none => .error (invalidFormat "invalid outer field type")
    | some (some result) => .ok result

/-- The object around the members: the opening brace, the loop, the closing brace, the end of the text.
The four failures have their own messages in each parser. -/
def readObject {σ : Type} (malformed notObject malformedEnd trailing malformedField : GoError F)
    (member : σ → List Char → Decoder → Except (GoError F) (σ × Decoder)) (start : σ) (text : List Char) :
    Except (GoError F) σ :=
  match (Decoder.ofText text).token with
  | none => .error malformed
  | some (.delim '{', d) =>
    match d.readMembers malformedField member text.length start with
    | .error err => .error err
    | .ok (fields, d) =>
      match d.token with
      | none => .error malformedEnd
      | some (_, d) => if d.atEOF then .ok fields else .error trailing
  | some _ => .error notObject

/-- What is checked of the fields once the object has been read. -/
def checkOuterFields (limits : Limits) (fields : OuterFields) : Except (GoError F) Envelope :=
  if ¬ (["format", "version", "algorithm", "nonce", "ciphertext"].all (· ∈ fields.seen)) then
    .error (invalidFormat "missing outer field")
  else if fields.format ≠ encryptedStateFormat ∨ fields.version ≠ encryptedStateVersion ∨
      fields.algorithm ≠ encryptedStateAlgorithm then
    .error (.note "%w: envelope dispatch tuple" (.sentinel .encryptedStateUnsupported))
  else
    match Base64.decodeCanonical fields.nonceText.toList with
    | none => .error (invalidFormat "invalid nonce")
    | some nonce =>
      if hnonce : nonce.length = encryptedStateNonceSize then
        match Base64.decodeCanonical fields.ciphertextText.toList with
        | none => .error (invalidFormat "invalid ciphertext")
        | some ciphertext =>
          if ciphertext.length < overhead then .error (invalidFormat "invalid ciphertext")
          else if ciphertext.length > limits.maxCiphertextBytes then .error (oversized "decoded ciphertext")
          else .ok ⟨⟨nonce, hnonce⟩, ciphertext⟩
      else .error (invalidFormat "invalid nonce")

def parseEncryptedStateEnvelope (raw : Bytes) (limits : Limits) : Except (GoError F) Envelope :=
  if raw.length > limits.maxEnvelopeBytes then .error (oversized "raw envelope")
  else
    match decodeUtf8 raw with
    | none => .error (invalidFormat "outer JSON is not valid UTF-8")
    | some text => do
      let fields ← readObject (invalidFormat "malformed outer JSON")
        (invalidFormat "outer value must be an object") (invalidFormat "malformed outer object")
        (invalidFormat "trailing outer JSON data") (invalidFormat "malformed outer field")
        readOuterField ({} : OuterFields) text
      checkOuterFields limits fields

/-- One round of the loop over the state map, after the key. -/
def readStateEntry (state : StateMap) (name : List Char) (d : Decoder) : Except (GoError F) (StateMap × Decoder) :=
  let stateKey := String.ofList name
  if stateKey ∈ state then .error (invalidFormat "duplicate authenticated state key")
  else
    match decodeCanonicalBase64JSON d with
    | none => .error (invalidFormat "authenticated state value must be canonical non-null bytes")
    | some (value, d) => .ok (state.insert stateKey value, d)

def parseEncryptedStateMap (plaintext : Bytes) : Except (GoError F) StateMap :=
  match decodeUtf8 plaintext with
  | none => .error (invalidFormat "authenticated state map is not valid UTF-8")
  | some text =>
    readObject (invalidFormat "malformed authenticated state map")
      (invalidFormat "authenticated state must be an object")
      (invalidFormat "malformed authenticated state map")
      (invalidFormat "trailing authenticated state data")
      (invalidFormat "malformed authenticated state key") readStateEntry (∅ : StateMap) text

/-! ## The parsers read back what the writers wrote -/

theorem encode_plain (bytes : Bytes) : ∀ c ∈ Base64.encode bytes, c ≠ '"' ∧ c ≠ '\\' ∧ ¬ c.toNat < 0x20 := by
  intro c hc
  have htext := Base64.encode_isText bytes c hc
  refine ⟨?_, ?_, ?_⟩
  · rintro rfl
    exact absurd htext (by decide)
  · rintro rfl
    exact absurd htext (by decide)
  · intro hlow
    have hall : ∀ i : Fin 0x20, Base64.isText (Char.ofNat i) = false := by decide
    rw [← Char.ofNat_toNat c, hall ⟨c.toNat, hlow⟩] at htext
    cases htext

theorem beginValue_quote (text rest : List Char) :
    Decoder.beginValue ⟨':' :: '"' :: text ++ rest, .objectColon⟩ = some ('"' :: (text ++ rest)) := rfl

theorem decodeJSONString_quote (text rest : List Char) : decodeJSONString ⟨':' :: quote text ++ rest, .objectColon⟩ =
      some (String.ofList text, ⟨rest, .objectComma⟩) := by
  unfold decodeJSONString quote
  rw [beginValue_quote]
  simp only [Option.bind_eq_bind, Option.bind_some, scanString_quoteTail, unquote_quoted]

theorem decodeJSONString_quoteBytes (bytes : Bytes) (rest : List Char) :
    decodeJSONString ⟨':' :: quoteBytes bytes ++ rest, .objectColon⟩ =
      some (String.ofList (Base64.encode bytes), ⟨rest, .objectComma⟩) := by
  unfold decodeJSONString quoteBytes
  rw [beginValue_quote]
  simp only [Option.bind_eq_bind, Option.bind_some, List.append_assoc, List.singleton_append,
    scanString_plain _ rest (encode_plain bytes), unquote_plain _ (encode_plain bytes)]

theorem decodeCanonicalBase64JSON_quoteBytes (bytes : Bytes) (rest : List Char) :
    decodeCanonicalBase64JSON ⟨':' :: quoteBytes bytes ++ rest, .objectColon⟩ = some (bytes, ⟨rest, .objectComma⟩) := by
  unfold decodeCanonicalBase64JSON quoteBytes
  rw [beginValue_quote]
  simp only [Option.bind_eq_bind, Option.bind_some, List.append_assoc, List.singleton_append,
    scanString_plain _ rest (encode_plain bytes), Base64.decodeCanonical_iff.mpr rfl]

/-- Reading a written object, given what the loop body makes of its members. -/
theorem readObject_writeObject {σ : Type} {e1 e2 e3 e4 e5 : GoError F}
    {member : σ → List Char → Decoder → Except (GoError F) (σ × Decoder)} {start final : σ}
    {members : List (List Char × List Char)} (h : Accepts member start members final) :
    readObject e1 e2 e3 e4 e5 member start (writeObject members) = .ok final := by
  obtain ⟨text, d, htext, hread, hend⟩ := readMembers_writeObject e5 h _ (length_le_writeObject members)
  have hopen : (Decoder.ofText ('{' :: text)).token = some (.delim '{', ⟨text, .objectStart⟩) := rfl
  rw [htext] at hread ⊢
  unfold readObject
  rw [hopen]
  simp only [hread, hend]
  rfl

/-- The loop over the state map adds the entries one by one. -/
theorem accepts_entries (entries : List (String × Bytes)) (state : StateMap)
    (hdistinct : entries.Pairwise fun a b => ¬ compare a.1 b.1 = .eq) (hfresh : ∀ e ∈ entries, e.1 ∉ state) :
    Accepts (readStateEntry (F := F)) state
      (entries.map fun (key, value) => (key.toList, quoteBytes value)) (state.insertMany entries) := by
  induction entries generalizing state with
  | nil => exact .nil state
  | cons entry entries ih =>
    obtain ⟨key, value⟩ := entry
    obtain ⟨hhead, htail⟩ := List.pairwise_cons.mp hdistinct
    have hkey : key ∉ state := hfresh _ (List.mem_cons_self ..)
    have hread : ∀ rest, EndsMember rest → readStateEntry (F := F) state key.toList
        ⟨':' :: quoteBytes value ++ rest, .objectColon⟩ = .ok (state.insert key value, ⟨rest, .objectComma⟩) := by
      intro rest _
      unfold readStateEntry
      simp only [String.ofList_toList, hkey, if_false, decodeCanonicalBase64JSON_quoteBytes]
    have hlater : ∀ e ∈ entries, e.1 ∉ state.insert key value := by
      intro e he
      rw [Std.ExtTreeMap.mem_insert]
      exact not_or_intro (hhead e he) (hfresh e (List.mem_cons_of_mem _ he))
    rw [Std.ExtTreeMap.insertMany_cons]
    exact .cons hread (ih (state.insert key value) htail hlater)

theorem insertMany_toList (state : StateMap) : (∅ : StateMap).insertMany state.toList = state := by
  refine Std.ExtTreeMap.ext_getElem? fun key => ?_
  cases hkey : state[key]? with
  | none =>
    have habsent : (state.toList.map Prod.fst).contains key = false := by
      rw [← Bool.not_eq_true, List.contains_iff_mem, Std.ExtTreeMap.map_fst_toList_eq_keys, Std.ExtTreeMap.mem_keys]
      intro hmem
      have hsome := Std.ExtTreeMap.isSome_getElem?_iff_mem.mpr hmem
      rw [hkey] at hsome
      cases hsome
    exact Std.ExtTreeMap.getElem?_insertMany_list_of_contains_eq_false habsent
  | some value =>
    exact Std.ExtTreeMap.getElem?_insertMany_list_of_mem Std.ReflCmp.compare_self
      Std.ExtTreeMap.distinct_keys_toList (Std.ExtTreeMap.mem_toList_iff_getElem?_eq_some.mpr hkey)

theorem parse_marshalStateMap (state : StateMap) :
    parseEncryptedStateMap (F := F) (marshalStateMap state) = .ok state := by
  have haccepts := accepts_entries (F := F) state.toList ∅ Std.ExtTreeMap.distinct_keys_toList
    fun e _ => Std.ExtTreeMap.not_mem_empty
  rw [insertMany_toList] at haccepts
  unfold parseEncryptedStateMap marshalStateMap
  rw [decodeUtf8_encodeUtf8]
  exact readObject_writeObject haccepts

/-- The fields after the loop has gone through an envelope this package wrote. -/
def writtenFields (nonce : Nonce) (ciphertext : Bytes) : OuterFields where
  seen := ["ciphertext", "nonce", "algorithm", "version", "format"]
  format := encryptedStateFormat
  version := encryptedStateVersion
  algorithm := encryptedStateAlgorithm
  nonceText := String.ofList (Base64.encode nonce.toList)
  ciphertextText := String.ofList (Base64.encode ciphertext)

theorem decodeJSONInteger_version (rest : List Char) (h : EndsMember rest) :
    decodeJSONInteger ⟨':' :: ['1'] ++ rest, .objectColon⟩ = some (1, ⟨rest, .objectComma⟩) := by
  cases rest with
  | nil => rcases h with h | h <;> cases h
  | cons c rest =>
    rcases h with h | h
    all_goals
      cases h
      rfl

theorem accepts_envelopeMembers (nonce : Nonce) (ciphertext : Bytes) :
    Accepts (readOuterField (F := F)) {} (envelopeMembers nonce ciphertext) (writtenFields nonce ciphertext) := by
  -- each round adds its own field to what the rounds before it have read
  let fields1 : OuterFields := { seen := ["format"], format := encryptedStateFormat }
  let fields2 := { fields1 with seen := "version" :: fields1.seen, version := encryptedStateVersion }
  let fields3 := { fields2 with seen := "algorithm" :: fields2.seen, algorithm := encryptedStateAlgorithm }
  let fields4 := { fields3 with
    seen := "nonce" :: fields3.seen, nonceText := String.ofList (Base64.encode nonce.toList) }
  refine @Accepts.cons _ _ _ _ fields1 _ _ _ _ (fun rest _ => ?_) ?_
  · simp only [readOuterField, decodeJSONString_quote]
    rfl
  refine @Accepts.cons _ _ _ _ fields2 _ _ _ _ (fun rest hrest => ?_) ?_
  · simp only [readOuterField, decodeJSONInteger_version rest hrest]
    rfl
  refine @Accepts.cons _ _ _ _ fields3 _ _ _ _ (fun rest _ => ?_) ?_
  · simp only [readOuterField, decodeJSONString_quote]
    rfl
  refine @Accepts.cons _ _ _ _ fields4 _ _ _ _ (fun rest _ => ?_) ?_
  · simp only [readOuterField, decodeJSONString_quoteBytes]
    rfl
  refine .cons (fun rest _ => ?_) (.nil _)
  simp only [readOuterField, decodeJSONString_quoteBytes]
  rfl

/-- An envelope that is within the limits is read back as it was written. -/
theorem parse_marshalEncryptedStateEnvelope (nonce : Nonce) (ciphertext : Bytes) (limits : Limits)
    (henvelope : (marshalEncryptedStateEnvelope nonce ciphertext).length ≤ limits.maxEnvelopeBytes)
    (hoverhead : overhead ≤ ciphertext.length) (hciphertext : ciphertext.length ≤ limits.maxCiphertextBytes) :
    parseEncryptedStateEnvelope (F := F) (marshalEncryptedStateEnvelope nonce ciphertext) limits =
      .ok ⟨nonce, ciphertext⟩ := by
  have hread := accepts_envelopeMembers (F := F) nonce ciphertext
  have hcheck : checkOuterFields (F := F) limits (writtenFields nonce ciphertext) = .ok ⟨nonce, ciphertext⟩ := by
    have hseen : ["format", "version", "algorithm", "nonce", "ciphertext"].all
        (fun f => decide (f ∈ (writtenFields nonce ciphertext).seen)) = true := rfl
    unfold checkOuterFields
    rw [if_neg (not_not_intro hseen), if_neg (by simp [writtenFields])]
    simp only [writtenFields, String.toList_ofList, Base64.decodeCanonical_iff.mpr rfl]
    rw [dif_pos nonce.toList_length, if_neg (Nat.not_lt.mpr hoverhead), if_neg (Int.not_lt.mpr hciphertext)]
    rfl
  unfold parseEncryptedStateEnvelope
  rw [if_neg (Int.not_lt.mpr henvelope)]
  simp only [marshalEncryptedStateEnvelope, decodeUtf8_encodeUtf8, readObject_writeObject hread, bind,
    Except.bind, hcheck]

/-- There is no envelope in an empty file. -/
theorem parseEncryptedStateEnvelope_nil (limits : Limits) (envelope : Envelope) :
    parseEncryptedStateEnvelope (F := F) [] limits ≠ .ok envelope := by
  unfold parseEncryptedStateEnvelope
  split
  · nofun
  · nofun

/-! ## The whole file -/

/-- From the parsed envelope to the map. -/
def openEnvelope (box : SecretBox) (limits : Limits) (key : Key) (envelope : Envelope) : Except (GoError F) StateMap :=
  match box.openBox key envelope.nonce envelope.ciphertext with
  | none => .error (.sentinel .encryptedStateAuthentication)
  | some plaintext =>
    if plaintext.length > limits.maxPlaintextBytes then .error (oversized "authenticated plaintext")
    else parseEncryptedStateMap plaintext

/-- From the raw bytes of the file to the map: decrypting and parsing. -/
def openContents (box : SecretBox) (limits : Limits) (key : Key) (raw : Bytes) : Except (GoError F) StateMap := do
  openEnvelope box limits key (← parseEncryptedStateEnvelope raw limits)

/-- The bytes `commitCandidateLocked` persists for a map. -/
def sealedContents (box : SecretBox) (key : Key) (nonce : Nonce) (state : StateMap) : Bytes :=
  marshalEncryptedStateEnvelope nonce (box.sealBox key nonce (marshalStateMap state))

/-- The three size checks of `commitCandidateLocked`. -/
structure Fits (box : SecretBox) (limits : Limits) (key : Key) (nonce : Nonce) (state : StateMap) : Prop where
  plaintext : (marshalStateMap state).length ≤ limits.maxPlaintextBytes
  ciphertext : (box.sealBox key nonce (marshalStateMap state)).length ≤ limits.maxCiphertextBytes
  envelope : (sealedContents box key nonce state).length ≤ limits.maxEnvelopeBytes

theorem open_sealedContents {box : SecretBox} {limits : Limits} {key : Key} {nonce : Nonce} {state : StateMap}
    (h : Fits box limits key nonce state) :
    openContents (F := F) box limits key (sealedContents box key nonce state) = .ok state := by
  have hoverhead : overhead ≤ (box.sealBox key nonce (marshalStateMap state)).length := by
    rw [box.seal_length]
    exact Nat.le_add_left _ _
  have hparse := parse_marshalEncryptedStateEnvelope (F := F) nonce _ limits h.envelope hoverhead h.ciphertext
  unfold openContents sealedContents
  rw [hparse]
  simp only [bind, Except.bind, openEnvelope, box.open_seal]
  rw [if_neg (Int.not_lt.mpr h.plaintext), parse_marshalStateMap]

end Parse

end TailscaleDart.Store
