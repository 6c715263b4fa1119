import TailscaleDart.Data.JsonObject
import TailscaleDart.Store.Envelope

/-!
# Store.Grammar — exactly which bytes the two parsers accept

Both parsers go through the decoder by hand, token by token. Here each is one object of the grammar of
`Data.JsonObject` with its own condition on the members: the five fields of the envelope, each once and with
the lexeme of a supported value, and the entries of the state map, with distinct names and base64 between
plain quotes.
-/

namespace TailscaleDart.Store

open JsonText

variable {F : Type}

/-! ## The object around the members -/

theorem readObject_ok_iff {σ : Type} {e1 e2 e3 e4 e5 : GoError F}
    {member : σ → List Char → Decoder → Except (GoError F) (σ × Decoder)} {Step : σ → List Char → List Char → σ → Prop}
    (hfollows : Follows member Step) {start final : σ} {text : List Char} :
    readObject e1 e2 e3 e4 e5 member start text = .ok final ↔
      ∃ members, ObjectText members text ∧ Steps Step start members final := by
  constructor
  · intro h
    unfold readObject at h
    split at h
    case h_1 => cases h
    case h_2 d0 hopen =>
      split at h
      case h_1 => cases h
      case h_2 fields d hread =>
        split at h
        case h_1 => cases h
        case h_2 t d' hclose =>
          split at h
          case isTrue heof =>
            cases h
            exact object_sound hfollows hopen hread hclose heof
          case isFalse => cases h
    case h_3 => cases h
  · rintro ⟨members, htext, hsteps⟩
    obtain ⟨d0, d, d', hopen, hread, hclose, heof⟩ := object_complete e5 hfollows htext hsteps
    unfold readObject
    rw [hopen]
    simp only [hread, hclose, heof, if_true]

/-! ## Values -/

theorem decodeJSONString_reads : ReadsValue decodeJSONString fun v => StringLexeme v.toList where
  sound := by
    intro text v d h
    unfold decodeJSONString at h
    simp only [Option.bind_eq_bind, Option.bind_eq_some_iff] at h
    obtain ⟨after, hbegin, h⟩ := h
    obtain ⟨s2, s3, h2, h3, rfl⟩ := beginValue_sound hbegin
    split at h
    case h_1 after =>
      obtain ⟨⟨raw, rest⟩, hscan, h⟩ := Option.bind_eq_some_iff.mp h
      cases h
      obtain ⟨hraw, rfl⟩ := scanString_sound hscan
      refine ⟨s2, s3, '"' :: (raw ++ ['"']), rest, h2, h3, ?_, ⟨raw, hraw, rfl, ?_⟩, rfl⟩
      · simp
      · rw [String.toList_ofList]
    case h_2 => cases h
  complete := by
    rintro v _ s2 s3 rest ⟨raw, hraw, rfl, hv⟩ h2 h3 -
    have hquote : isSpace '"' = false := by decide
    unfold decodeJSONString
    rw [List.cons_append, beginValue_complete h2 h3 hquote]
    simp only [Option.bind_eq_bind, Option.bind_some, List.append_assoc, List.singleton_append,
      scanString_complete hraw, hv, String.ofList_toList]

theorem decodeJSONInteger_reads : ReadsValue decodeJSONInteger IntLexeme where
  sound := by
    intro text n d h
    unfold decodeJSONInteger at h
    simp only [Option.bind_eq_bind, Option.bind_eq_some_iff] at h
    obtain ⟨after, hbegin, ⟨m, rest⟩, hscan, h⟩ := h
    cases h
    obtain ⟨s2, s3, h2, h3, rfl⟩ := beginValue_sound hbegin
    obtain ⟨value, rfl, hvalue⟩ := scanInt_sound hscan
    exact ⟨s2, s3, value, rest, h2, h3, rfl, hvalue, rfl⟩
  complete := by
    intro n value s2 s3 rest h h2 h3 hrest
    obtain ⟨c, more, rfl, hc⟩ := h.head
    unfold decodeJSONInteger
    have hscan := scanInt_complete h hrest
    rw [List.cons_append, beginValue_complete h2 h3 hc]
    rw [List.cons_append] at hscan
    simp only [Option.bind_eq_bind, Option.bind_some, hscan]

theorem decodeCanonicalBase64JSON_reads :
    ReadsValue decodeCanonicalBase64JSON fun bytes value => value = quoteBytes bytes where
  sound := by
    intro text bytes d h
    unfold decodeCanonicalBase64JSON at h
    simp only [Option.bind_eq_bind, Option.bind_eq_some_iff] at h
    obtain ⟨after, hbegin, h⟩ := h
    obtain ⟨s2, s3, h2, h3, rfl⟩ := beginValue_sound hbegin
    split at h
    case h_1 after =>
      simp only [Option.bind_eq_some_iff] at h
      obtain ⟨⟨raw, rest⟩, hscan, value, hvalue, h⟩ := h
      cases h
      obtain ⟨-, rfl⟩ := scanString_sound hscan
      obtain rfl := Base64.decodeCanonical_iff.mp hvalue
      refine ⟨s2, s3, quoteBytes bytes, rest, h2, h3, ?_, rfl, rfl⟩
      simp [quoteBytes]
    case h_2 => cases h
  complete := by
    rintro bytes _ s2 s3 rest rfl h2 h3 -
    have hquote : isSpace '"' = false := by decide
    unfold decodeCanonicalBase64JSON quoteBytes
    rw [List.cons_append, beginValue_complete h2 h3 hquote]
    simp only [Option.bind_eq_bind, Option.bind_some, List.append_assoc, List.singleton_append,
      scanString_complete (.ofPlain (encode_plain bytes)), Base64.decodeCanonical_iff.mpr rfl]

/-! ## The state map -/

/-- What one entry does to the map read so far. -/
def EntryStep (state : StateMap) (name value : List Char) (state' : StateMap) : Prop :=
  String.ofList name ∉ state ∧ ∃ bytes, value = quoteBytes bytes ∧ state' = state.insert (String.ofList name) bytes

theorem readStateEntry_follows : Follows (readStateEntry (F := F)) EntryStep where
  sound := by
    intro state state' name text d h
    unfold readStateEntry at h
    simp only at h
    split at h
    case isTrue => cases h
    case isFalse hfresh =>
      split at h
      case h_1 => cases h
      case h_2 bytes d' hdecode =>
        cases h
        obtain ⟨s2, s3, value, rest, h2, h3, htext, hvalue, hd⟩ := decodeCanonicalBase64JSON_reads.sound hdecode
        exact ⟨s2, s3, value, rest, h2, h3, htext, ⟨hfresh, bytes, hvalue, rfl⟩, hd⟩
  complete := by
    rintro state _ name s2 s3 value rest ⟨hfresh, bytes, hvalue, rfl⟩ h2 h3 hrest
    unfold readStateEntry
    simp only [hfresh, if_false, decodeCanonicalBase64JSON_reads.complete hvalue h2 h3 hrest]

/-- The object of a state map: distinct names, base64 between plain quotes, and these pairs as the map. -/
structure MapText (state : StateMap) (members : List Member) : Prop where
  names : (members.map fun m => String.ofList m.name).Nodup
  values : ∀ m ∈ members, ∃ bytes, m.value = quoteBytes bytes
  pairs : ∀ key bytes, state[key]? = some bytes ↔ ∃ m ∈ members, String.ofList m.name = key ∧ m.value = quoteBytes bytes

theorem quoteBytes_injective {bytes bytes' : Bytes} (h : quoteBytes bytes = quoteBytes bytes') : bytes = bytes' := by
  have hencode := List.append_cancel_right (List.cons.inj h).2
  have hdecode := Base64.decode_encode bytes
  rw [hencode, Base64.decode_encode] at hdecode
  exact (Option.some.inj hdecode).symm

variable {state : StateMap}

theorem getElem?_insert_fresh {name : String} (hfresh : name ∉ state) (value : Bytes) (key : String) (bytes : Bytes) :
    (state.insert name value)[key]? = some bytes ↔ state[key]? = some bytes ∨ (name = key ∧ value = bytes) := by
  rw [Std.ExtTreeMap.getElem?_insert]
  split
  case isTrue hcmp =>
    obtain rfl := Std.LawfulEqCmp.eq_of_compare hcmp
    simp [Std.ExtTreeMap.getElem?_eq_none hfresh]
  case isFalse hcmp =>
    have hne : name ≠ key := by
      rintro rfl
      exact hcmp Std.ReflCmp.compare_self
    simp [hne]

variable {members : List Member}

/-- Going through the entries adds them to the map. -/
theorem steps_entries {final : StateMap} (h : Steps EntryStep state members final) :
    (members.map fun m => String.ofList m.name).Nodup ∧ (∀ m ∈ members, String.ofList m.name ∉ state) ∧
      (∀ m ∈ members, ∃ bytes, m.value = quoteBytes bytes) ∧
      ∀ key bytes, final[key]? = some bytes ↔ state[key]? = some bytes ∨
        ∃ m ∈ members, String.ofList m.name = key ∧ m.value = quoteBytes bytes := by
  induction h with
  | nil state => simp
  | @cons state _ final m members hstep hrest ih =>
    obtain ⟨hfresh, value, hvalue, rfl⟩ := hstep
    obtain ⟨hnodup, hnew, hvalues, hpairs⟩ := ih
    have hapart : ∀ b ∈ members, String.ofList m.name ≠ String.ofList b.name ∧ String.ofList b.name ∉ state := by
      intro b hb
      have hb' := hnew b hb
      rw [Std.ExtTreeMap.mem_insert, not_or] at hb'
      refine ⟨?_, hb'.2⟩
      intro heq
      exact hb'.1 (heq ▸ Std.ReflCmp.compare_self)
    refine ⟨?_, ?_, ?_, ?_⟩
    · rw [List.map_cons, List.nodup_cons]
      refine ⟨?_, hnodup⟩
      intro hmem
      obtain ⟨b, hb, heq⟩ := List.mem_map.mp hmem
      exact (hapart b hb).1 heq.symm
    · intro b hb
      rcases List.mem_cons.mp hb with rfl | hb
      · exact hfresh
      · exact (hapart b hb).2
    · intro b hb
      rcases List.mem_cons.mp hb with rfl | hb
      · exact ⟨value, hvalue⟩
      · exact hvalues b hb
    · intro key bytes
      rw [hpairs, getElem?_insert_fresh hfresh, or_assoc]
      refine or_congr_right ?_
      rw [List.exists_mem_cons_iff]
      refine or_congr_left (and_congr_right fun _ => ?_)
      rw [hvalue]
      exact ⟨fun heq => heq ▸ rfl, quoteBytes_injective⟩

theorem exists_steps_entries : ∀ {state : StateMap}, (members.map fun m => String.ofList m.name).Nodup →
      (∀ m ∈ members, String.ofList m.name ∉ state) → (∀ m ∈ members, ∃ bytes, m.value = quoteBytes bytes) →
      ∃ final, Steps EntryStep state members final := by
  induction members with
  | nil =>
    intro state _ _ _
    exact ⟨state, .nil state⟩
  | cons m members ih =>
    intro state hnodup hnew hvalues
    obtain ⟨bytes, hbytes⟩ := hvalues m (.head _)
    rw [List.map_cons, List.nodup_cons] at hnodup
    have hlater : ∀ b ∈ members, String.ofList b.name ∉ state.insert (String.ofList m.name) bytes := by
      intro b hb
      rw [Std.ExtTreeMap.mem_insert, not_or]
      refine ⟨?_, hnew b (.tail _ hb)⟩
      intro hcmp
      exact hnodup.1 (List.mem_map.mpr ⟨b, hb, (Std.LawfulEqCmp.eq_of_compare hcmp).symm⟩)
    obtain ⟨final, hsteps⟩ := ih hnodup.2 hlater fun b hb => hvalues b (.tail _ hb)
    exact ⟨final, .cons ⟨hnew m (.head _), bytes, hbytes, rfl⟩ hsteps⟩

theorem steps_entries_iff : Steps EntryStep ∅ members state ↔ MapText state members := by
  constructor
  · intro h
    obtain ⟨hnodup, -, hvalues, hpairs⟩ := steps_entries h
    refine ⟨hnodup, hvalues, ?_⟩
    intro key bytes
    simpa using hpairs key bytes
  · intro h
    obtain ⟨final, hsteps⟩ := exists_steps_entries h.names (fun _ _ => Std.ExtTreeMap.not_mem_empty) h.values
    have hfinal : final = state := by
      refine Std.ExtTreeMap.ext_getElem? fun key => Option.ext fun bytes => ?_
      obtain ⟨-, -, -, hpairs⟩ := steps_entries hsteps
      rw [h.pairs, hpairs]
      simp
    exact hfinal ▸ hsteps

theorem parseEncryptedStateMap_ok_iff {plaintext : Bytes} : parseEncryptedStateMap (F := F) plaintext = .ok state ↔
      ∃ text members, decodeUtf8 plaintext = some text ∧ ObjectText members text ∧ MapText state members := by
  unfold parseEncryptedStateMap
  cases decodeUtf8 plaintext with
  | none => simp
  | some text =>
    simp only [readObject_ok_iff readStateEntry_follows, steps_entries_iff, Option.some.injEq,
      exists_eq_left', exists_and_left]

/-! ## The envelope -/

/-- The lexemes the fields of an envelope have, given what they hold. -/
def FieldLexeme (fields : OuterFields) (name : String) (value : List Char) : Prop :=
  match name with
  | "format" => StringLexeme fields.format.toList value
  | "version" => IntLexeme fields.version value
  | "algorithm" => StringLexeme fields.algorithm.toList value
  | "nonce" => StringLexeme fields.nonceText.toList value
  | "ciphertext" => StringLexeme fields.ciphertextText.toList value
  | _ => False

/-- What one field does to the fields read so far. -/
inductive FieldStep (fields : OuterFields) (name value : List Char) : OuterFields → Prop
  | format {v : String} (hname : String.ofList name = "format") (hfresh : "format" ∉ fields.seen)
      (h : StringLexeme v.toList value) :
      FieldStep fields name value { fields with seen := "format" :: fields.seen, format := v }
  | version {v : Int} (hname : String.ofList name = "version") (hfresh : "version" ∉ fields.seen)
      (h : IntLexeme v value) :
      FieldStep fields name value { fields with seen := "version" :: fields.seen, version := v }
  | algorithm {v : String} (hname : String.ofList name = "algorithm") (hfresh : "algorithm" ∉ fields.seen)
      (h : StringLexeme v.toList value) :
      FieldStep fields name value { fields with seen := "algorithm" :: fields.seen, algorithm := v }
  | nonce {v : String} (hname : String.ofList name = "nonce") (hfresh : "nonce" ∉ fields.seen)
      (h : StringLexeme v.toList value) :
      FieldStep fields name value { fields with seen := "nonce" :: fields.seen, nonceText := v }
  | ciphertext {v : String} (hname : String.ofList name = "ciphertext") (hfresh : "ciphertext" ∉ fields.seen)
      (h : StringLexeme v.toList value) :
      FieldStep fields name value { fields with seen := "ciphertext" :: fields.seen, ciphertextText := v }

variable {fields : OuterFields}

/-- A value read into one of the fields. -/
theorem fieldStep_of_read {α : Type} {decode : Decoder → Option (α × Decoder)} {Lexeme : α → List Char → Prop}
    (hreads : ReadsValue decode Lexeme) {fields' : OuterFields} {name text : List Char} {d : Decoder}
    (put : α → OuterFields) (hstep : ∀ {v value}, Lexeme v value → FieldStep fields name value (put v))
    (h : some ((decode ⟨text, .objectColon⟩).map fun r => (put r.1, r.2)) = some (some (fields', d))) :
    ∃ s2 s3 value rest, Space s2 ∧ Space s3 ∧ text = s2 ++ ':' :: (s3 ++ (value ++ rest)) ∧
      FieldStep fields name value fields' ∧ d = ⟨rest, .objectComma⟩ := by
  obtain ⟨⟨v, d'⟩, hdecode, heq⟩ := Option.map_eq_some_iff.mp (Option.some.inj h)
  cases heq
  obtain ⟨s2, s3, value, rest, h2, h3, htext, hvalue, hd⟩ := hreads.sound hdecode
  exact ⟨s2, s3, value, rest, h2, h3, htext, hstep hvalue, hd⟩

theorem readOuterField_follows : Follows (readOuterField (F := F)) FieldStep where
  sound := by
    intro fields fields' name text d h
    unfold readOuterField at h
    simp only at h
    split at h
    case isTrue => cases h
    case isFalse hfresh =>
    split at h
    case h_1 => cases h
    case h_2 => cases h
    case h_3 result hread =>
    cases h
    split at hread
    case isTrue hname =>
      rw [hname] at hread hfresh
      exact fieldStep_of_read decodeJSONString_reads
        (fun v => { fields with seen := "format" :: fields.seen, format := v }) (.format hname hfresh) hread
    split at hread
    case isTrue hname =>
      rw [hname] at hread hfresh
      exact fieldStep_of_read decodeJSONInteger_reads
        (fun v => { fields with seen := "version" :: fields.seen, version := v }) (.version hname hfresh) hread
    split at hread
    case isTrue hname =>
      rw [hname] at hread hfresh
      exact fieldStep_of_read decodeJSONString_reads
        (fun v => { fields with seen := "algorithm" :: fields.seen, algorithm := v }) (.algorithm hname hfresh) hread
    split at hread
    case isTrue hname =>
      rw [hname] at hread hfresh
      exact fieldStep_of_read decodeJSONString_reads
        (fun v => { fields with seen := "nonce" :: fields.seen, nonceText := v }) (.nonce hname hfresh) hread
    split at hread
    case isTrue hname =>
      rw [hname] at hread hfresh
      exact fieldStep_of_read decodeJSONString_reads
        (fun v => { fields with seen := "ciphertext" :: fields.seen, ciphertextText := v })
        (.ciphertext hname hfresh) hread
    cases hread
  complete := by
    intro fields fields' name s2 s3 value rest hstep h2 h3 hrest
    cases hstep with
    | version hname hfresh h =>
      simp [readOuterField, hname, hfresh, decodeJSONInteger_reads.complete h h2 h3 hrest]
    | format hname hfresh h | algorithm hname hfresh h | nonce hname hfresh h | ciphertext hname hfresh h =>
      simp [readOuterField, hname, hfresh, decodeJSONString_reads.complete h h2 h3 hrest]

section Fields

variable {fields fields' target : OuterFields} {name value : List Char} {members : List Member}

/-- A field is read once, its lexeme is that of what is recorded, and what was recorded before stays. -/
theorem FieldStep.spec (h : FieldStep fields name value fields') :
    String.ofList name ∉ fields.seen ∧ fields'.seen = String.ofList name :: fields.seen ∧
      FieldLexeme fields' (String.ofList name) value ∧
      ∀ other ∈ fields.seen, ∀ v, FieldLexeme fields other v → FieldLexeme fields' other v := by
  cases h with
  | format hname hfresh h | version hname hfresh h | algorithm hname hfresh h | nonce hname hfresh h
  | ciphertext hname hfresh h =>
    rw [hname]
    refine ⟨hfresh, rfl, h, ?_⟩
    intro other hother v hlexeme
    unfold FieldLexeme at hlexeme ⊢
    split at hlexeme
    -- the field just read was not read before
    all_goals first | exact absurd hother hfresh | exact hlexeme

theorem FieldLexeme.step (h : FieldLexeme target (String.ofList name) value)
    (hfresh : String.ofList name ∉ fields.seen) : ∃ fields', FieldStep fields name value fields' := by
  generalize hname : String.ofList name = field at h hfresh
  unfold FieldLexeme at h
  split at h
  case h_1 => exact ⟨_, .format hname hfresh h⟩
  case h_2 => exact ⟨_, .version hname hfresh h⟩
  case h_3 => exact ⟨_, .algorithm hname hfresh h⟩
  case h_4 => exact ⟨_, .nonce hname hfresh h⟩
  case h_5 => exact ⟨_, .ciphertext hname hfresh h⟩
  case h_6 => exact h.elim

/-- Going through the fields records them, each once. -/
theorem steps_fields {final : OuterFields} (h : Steps FieldStep fields members final) :
    (members.map fun m => String.ofList m.name).Nodup ∧ (∀ m ∈ members, String.ofList m.name ∉ fields.seen) ∧
      (∀ name, name ∈ final.seen ↔ name ∈ fields.seen ∨ name ∈ members.map fun m => String.ofList m.name) ∧
      (∀ m ∈ members, FieldLexeme final (String.ofList m.name) m.value) ∧
      ∀ other ∈ fields.seen, ∀ v, FieldLexeme fields other v → FieldLexeme final other v := by
  induction h with
  | nil fields => simp
  | @cons fields fields1 final m members hstep _ ih =>
    obtain ⟨hfresh, hseen, hlexeme, hkept⟩ := hstep.spec
    obtain ⟨hnodup, hnew, hfinal, hlexemes, hkept'⟩ := ih
    rw [hseen] at hnew hfinal hkept'
    refine ⟨?_, ?_, ?_, ?_, ?_⟩
    · rw [List.map_cons, List.nodup_cons]
      refine ⟨?_, hnodup⟩
      intro hmem
      obtain ⟨b, hb, heq⟩ := List.mem_map.mp hmem
      exact hnew b hb (heq ▸ List.mem_cons_self ..)
    · intro b hb
      rcases List.mem_cons.mp hb with rfl | hb
      · exact hfresh
      · exact fun hmem => hnew b hb (List.mem_cons_of_mem _ hmem)
    · intro name
      rw [hfinal, List.map_cons, List.mem_cons, List.mem_cons]
      exact ⟨fun h => by tauto, fun h => by tauto⟩
    · intro b hb
      rcases List.mem_cons.mp hb with rfl | hb
      · exact hkept' _ (List.mem_cons_self ..) _ hlexeme
      · exact hlexemes b hb
    · intro other hother v h
      exact hkept' other (List.mem_cons_of_mem _ hother) v (hkept other hother v h)

theorem exists_steps_fields : ∀ {fields : OuterFields}, (members.map fun m => String.ofList m.name).Nodup →
    (∀ m ∈ members, String.ofList m.name ∉ fields.seen) →
    (∀ m ∈ members, FieldLexeme target (String.ofList m.name) m.value) →
    ∃ final, Steps FieldStep fields members final := by
  induction members with
  | nil =>
    intro fields _ _ _
    exact ⟨fields, .nil fields⟩
  | cons m members ih =>
    intro fields hnodup hnew hlexemes
    rw [List.map_cons, List.nodup_cons] at hnodup
    obtain ⟨fields1, hstep⟩ := (hlexemes m (List.mem_cons_self ..)).step (hnew m (List.mem_cons_self ..))
    have hlater : ∀ b ∈ members, String.ofList b.name ∉ fields1.seen := by
      intro b hb
      rw [hstep.spec.2.1, List.mem_cons, not_or]
      refine ⟨?_, hnew b (List.mem_cons_of_mem _ hb)⟩
      intro heq
      exact hnodup.1 (List.mem_map.mpr ⟨b, hb, heq⟩)
    obtain ⟨final, hsteps⟩ := ih hnodup.2 hlater fun b hb => hlexemes b (List.mem_cons_of_mem _ hb)
    exact ⟨final, .cons hstep hsteps⟩

end Fields

/-! ## The checks after the envelope has been read -/

def outerFieldNames : List String := ["format", "version", "algorithm", "nonce", "ciphertext"]

/-- The fields, apart from which were seen, are those of an envelope the package would write. -/
structure Holds (env : Envelope) (fields : OuterFields) : Prop where
  format : fields.format = (writtenFields env.nonce env.ciphertext).format
  version : fields.version = (writtenFields env.nonce env.ciphertext).version
  algorithm : fields.algorithm = (writtenFields env.nonce env.ciphertext).algorithm
  nonce : fields.nonceText = (writtenFields env.nonce env.ciphertext).nonceText
  ciphertext : fields.ciphertextText = (writtenFields env.nonce env.ciphertext).ciphertextText

theorem ofList_encode_iff {text : String} {bytes : Bytes} :
    Base64.decodeCanonical text.toList = some bytes ↔ text = String.ofList (Base64.encode bytes) := by
  rw [Base64.decodeCanonical_iff]
  constructor
  · intro h
    rw [← h, String.ofList_toList]
  · rintro rfl
    rw [String.toList_ofList]

variable {env : Envelope}

theorem checkOuterFields_ok_iff {limits : Limits} : checkOuterFields (F := F) limits fields = .ok env ↔
      (∀ name ∈ outerFieldNames, name ∈ fields.seen) ∧ Holds env fields ∧
        overhead ≤ env.ciphertext.length ∧ env.ciphertext.length ≤ limits.maxCiphertextBytes := by
  have hseen : (["format", "version", "algorithm", "nonce", "ciphertext"].all fun f => decide (f ∈ fields.seen)) =
      true ↔ ∀ name ∈ outerFieldNames, name ∈ fields.seen := by simp [outerFieldNames]
  constructor
  · intro h
    unfold checkOuterFields at h
    split at h
    case isTrue => cases h
    case isFalse hall =>
    split at h
    case isTrue => cases h
    case isFalse hdispatch =>
    split at h
    case h_1 => cases h
    case h_2 nonce hnonce =>
    split at h
    case isFalse => cases h
    case isTrue hlength =>
    split at h
    case h_1 => cases h
    case h_2 ciphertext hciphertext =>
    split at h
    case isTrue => cases h
    case isFalse hshort =>
    split at h
    case isTrue => cases h
    case isFalse hlong =>
    cases h
    simp only [not_or, not_not] at hdispatch hall
    refine ⟨hseen.mp hall, ⟨hdispatch.1, hdispatch.2.1, hdispatch.2.2, ?_, ?_⟩,
      Nat.not_lt.mp hshort, Int.not_lt.mp hlong⟩
    · exact ofList_encode_iff.mp hnonce
    · exact ofList_encode_iff.mp hciphertext
  · rintro ⟨hall, h, hshort, hlong⟩
    have hdispatch : ¬ (fields.format ≠ encryptedStateFormat ∨ fields.version ≠ encryptedStateVersion ∨
        fields.algorithm ≠ encryptedStateAlgorithm) := by
      simp only [not_or, not_not]
      exact ⟨h.format, h.version, h.algorithm⟩
    unfold checkOuterFields
    rw [if_neg (not_not_intro (hseen.mpr hall)), if_neg hdispatch]
    simp only [ofList_encode_iff.mpr h.nonce, ofList_encode_iff.mpr h.ciphertext]
    rw [dif_pos env.nonce.toList_length, if_neg (Nat.not_lt.mpr hshort), if_neg (Int.not_lt.mpr hlong)]
    rfl

theorem Holds.lexeme (h : Holds env fields) {name : String} {value : List Char} :
    FieldLexeme fields name value ↔ FieldLexeme (writtenFields env.nonce env.ciphertext) name value := by
  simp only [FieldLexeme, h.format, h.version, h.algorithm, h.nonce, h.ciphertext]

/-- The object of an envelope: the five fields, each once and in any order, with the lexemes of the supported
dispatch values and of the canonical base64 of its bytes. -/
structure EnvelopeText (env : Envelope) (members : List Member) : Prop where
  names : (members.map fun m => String.ofList m.name).Perm outerFieldNames
  values : ∀ m ∈ members, FieldLexeme (writtenFields env.nonce env.ciphertext) (String.ofList m.name) m.value

theorem FieldLexeme.mem {name : String} {value : List Char}
    (h : FieldLexeme fields name value) : name ∈ outerFieldNames := by
  unfold FieldLexeme at h
  split at h
  case h_6 => exact h.elim
  all_goals decide

theorem EnvelopeText.holds (h : EnvelopeText env members)
    (hfields : ∀ m ∈ members, FieldLexeme fields (String.ofList m.name) m.value) : Holds env fields := by
  have hboth : ∀ name ∈ outerFieldNames, ∃ value, FieldLexeme fields name value ∧
      FieldLexeme (writtenFields env.nonce env.ciphertext) name value := by
    intro name hname
    obtain ⟨m, hm, rfl⟩ := List.mem_map.mp (h.names.mem_iff.mpr hname)
    exact ⟨m.value, hfields m hm, h.values m hm⟩
  refine ⟨?_, ?_, ?_, ?_, ?_⟩
  · obtain ⟨value, hv, hw⟩ := hboth "format" (by decide)
    exact String.toList_inj.mp (StringLexeme.unique hv hw)
  · obtain ⟨value, hv, hw⟩ := hboth "version" (by decide)
    exact IntLexeme.unique hv hw
  · obtain ⟨value, hv, hw⟩ := hboth "algorithm" (by decide)
    exact String.toList_inj.mp (StringLexeme.unique hv hw)
  · obtain ⟨value, hv, hw⟩ := hboth "nonce" (by decide)
    exact String.toList_inj.mp (StringLexeme.unique hv hw)
  · obtain ⟨value, hv, hw⟩ := hboth "ciphertext" (by decide)
    exact String.toList_inj.mp (StringLexeme.unique hv hw)

/-- The object is an envelope exactly when its fields can be read and pass the checks. -/
theorem envelopeText_iff : EnvelopeText env members ↔ ∃ fields, Steps FieldStep {} members fields ∧
      (∀ name ∈ outerFieldNames, name ∈ fields.seen) ∧ Holds env fields := by
  constructor
  · intro h
    have hnodup : (members.map fun m => String.ofList m.name).Nodup := h.names.nodup_iff.mpr (by decide)
    obtain ⟨fields, hsteps⟩ : ∃ fields, Steps FieldStep {} members fields :=
      exists_steps_fields hnodup (fun _ _ => List.not_mem_nil) h.values
    obtain ⟨-, -, hseen, hlexemes, -⟩ := steps_fields hsteps
    refine ⟨fields, hsteps, ?_, h.holds hlexemes⟩
    intro name hname
    exact (hseen name).mpr (.inr (h.names.mem_iff.mpr hname))
  · rintro ⟨fields, hsteps, hall, hholds⟩
    obtain ⟨hnodup, -, hseen, hlexemes, -⟩ := steps_fields hsteps
    refine ⟨?_, fun m hm => hholds.lexeme.mp (hlexemes m hm)⟩
    refine (List.perm_ext_iff_of_nodup hnodup (by decide)).mpr fun name => ⟨?_, ?_⟩
    · intro hname
      obtain ⟨m, hm, rfl⟩ := List.mem_map.mp hname
      exact (hlexemes m hm).mem
    · intro hname
      simpa using (hseen name).mp (hall name hname)

theorem parseEncryptedStateEnvelope_ok_iff {raw : Bytes} {limits : Limits} :
    parseEncryptedStateEnvelope (F := F) raw limits = .ok env ↔ raw.length ≤ limits.maxEnvelopeBytes ∧
      (∃ text members, decodeUtf8 raw = some text ∧ ObjectText members text ∧ EnvelopeText env members) ∧
      overhead ≤ env.ciphertext.length ∧ env.ciphertext.length ≤ limits.maxCiphertextBytes := by
  unfold parseEncryptedStateEnvelope
  split
  case isTrue hlong =>
    constructor
    · intro h
      cases h
    · intro h
      exact absurd h.1 (Int.not_le.mpr hlong)
  case isFalse hshort =>
  cases decodeUtf8 raw with
  | none => simp
  | some text =>
  simp only [envelopeText_iff, Option.some.injEq]
  constructor
  · intro h
    cases hread : readObject (F := F) (invalidFormat "malformed outer JSON")
        (invalidFormat "outer value must be an object") (invalidFormat "malformed outer object")
        (invalidFormat "trailing outer JSON data") (invalidFormat "malformed outer field")
        readOuterField ({} : OuterFields) text with
    | error err =>
      rw [hread] at h
      cases h
    | ok fields =>
      rw [hread] at h
      obtain ⟨hall, hholds, hsizes⟩ := checkOuterFields_ok_iff.mp h
      obtain ⟨members, htext, hsteps⟩ := (readObject_ok_iff readOuterField_follows).mp hread
      exact ⟨Int.not_lt.mp hshort, ⟨text, members, rfl, htext, fields, hsteps, hall, hholds⟩, hsizes⟩
  · rintro ⟨-, ⟨_, members, rfl, htext, fields, hsteps, hall, hholds⟩, hsizes⟩
    rw [(readObject_ok_iff readOuterField_follows).mpr ⟨members, htext, hsteps⟩]
    exact checkOuterFields_ok_iff.mpr ⟨hall, hholds, hsizes⟩

/-! ## Both parsers -/

variable (F) in
/-- **Exactly these bytes are accepted.** An envelope: within its limit, valid UTF-8, one object with white space
at most around it, whose names are the five fields in some order, each value a lexeme of the supported dispatch
value or of the canonical base64 of the nonce and of the ciphertext returned, and the ciphertext within its
bounds. A state map: valid UTF-8, one object with white space at most around it, whose decoded names are
distinct and whose values are canonical base64 between plain quotes; it is returned as exactly these pairs. -/
theorem parsers_accept_exactly :
    (∀ (raw : Bytes) (limits : Limits) (env : Envelope), parseEncryptedStateEnvelope (F := F) raw limits = .ok env ↔
        raw.length ≤ limits.maxEnvelopeBytes ∧
        (∃ text members, decodeUtf8 raw = some text ∧ ObjectText members text ∧ EnvelopeText env members) ∧
        overhead ≤ env.ciphertext.length ∧ env.ciphertext.length ≤ limits.maxCiphertextBytes) ∧
    (∀ (plaintext : Bytes) (state : StateMap), parseEncryptedStateMap (F := F) plaintext = .ok state ↔
        ∃ text members, decodeUtf8 plaintext = some text ∧ ObjectText members text ∧ MapText state members) :=
  ⟨fun _ _ _ => parseEncryptedStateEnvelope_ok_iff, fun _ _ => parseEncryptedStateMap_ok_iff⟩

/-- White space may follow the state map: the text does not end with the object's closing brace. -/
theorem map_followed_by_space :
    ∃ (plaintext : Bytes) (text : List Char), decodeUtf8 plaintext = some text ∧ text.getLast? ≠ some '}' ∧
      parseEncryptedStateMap (F := Empty) plaintext = .ok ∅ := by
  refine ⟨encodeUtf8 ['{', '}', ' '], ['{', '}', ' '], decodeUtf8_encodeUtf8 _, by decide, ?_⟩
  rw [parseEncryptedStateMap, decodeUtf8_encodeUtf8]
  rfl

end TailscaleDart.Store
