import TailscaleDart.Store.Crash
import TailscaleDart.Store.Refinement

/-!
# Store.Reopen — what a commit accepts, the next open returns

Writer and reader check the same three sizes, of the plaintext map, the ciphertext and the envelope, on
three representations of one map. `Located.reopens` is the agreement of the two under any limits but one: a
file that passed the writer's checks passes the reader's, and the reader returns the map that was written. The
one is an envelope limit of `math.MaxInt64`: the reader asks for a byte more, which wraps around, reads nothing
and never opens what was written (`largest_limit_never_opens`).
Under the default limits the two outer checks never decide: sealing adds a fixed overhead and base64 a
third, and the default limits leave room for both (`fits_default`).
-/

namespace TailscaleDart.Store

open Conc Durable Disk JsonText

/-! ## The path of a store -/

/-- The path of a store: `name` in `parent` is the store's directory, as the package has secured it. -/
structure Located (parent : Inode) (name : String) (dir : Inode) (d : Disk) : Prop where
  sound : d.Sound
  lookup : d.lookup parent name = some dir
  kind : (d.nodes dir).kind = .directory
  owned : (d.nodes dir).owned = true
  /-- A directory is not an entry of itself. -/
  apart : parent ≠ dir

section Located

variable {parent dir : Inode} {name : String} {names : List String} {d0 d : Disk}

theorem Located.bound (h : Located parent name dir d) : dir < d.next := (h.sound _ _ _ h.lookup).2

theorem Located.frame (h : Located parent name dir d0) (hframe : Frame dir names d0 d) : Located parent name dir d := by
  obtain ⟨hparent, hdir⟩ := h.sound _ _ _ h.lookup
  have hfile := hframe.file dir (Nat.ne_of_lt hdir)
  refine ⟨hframe.sound, ?_, ?_, ?_, h.apart⟩
  · rw [hframe.lookup parent name (Nat.ne_of_lt hparent) fun hat => h.apart hat.1, h.lookup]
  · exact (congrArg File.kind hfile).trans h.kind
  · exact (congrArg File.owned hfile).trans h.owned

variable {box : SecretBox} {s : EncryptedStateStore} {nonce : Nonce} {candidate : StateMap}

/-- The file a commit has renamed into place opens, under the limits and the key it was written with, to
the map that was written. -/
theorem Located.reopens (h : Located parent name s.dir d0) (hvalid : s.limits.valid = true)
    (hmax : s.limits.maxEnvelopeBytes ≠ maxInt64) (hfits : Fits box s.limits s.key nonce candidate)
    (hrenamed : Renamed s.dir (sealedContents box s.key nonce candidate) d0 d) :
    ∃ s' d', Runs (openEncryptedStateStoreWithOptions box parent name s.key s.limits) d s' d' ∧
      s'.cache = candidate := by
  have hat := h.frame hrenamed.frame
  have hopen : openContents (F := Errno) box s.limits s.key (d.nodes d0.next).content = .ok candidate := by
    rw [hrenamed.content]
    exact open_sealedContents hfits
  have hopens : OpensAt box s.limits s.key parent name s.dir candidate d := ⟨hat.lookup, hat.kind, hat.owned, d0.next,
    hrenamed.lookup, hrenamed.frame.fresh.kind, hrenamed.frame.fresh.owned, hopen⟩
  obtain ⟨s', d', hrun, -, hcache⟩ := hopens.store hvalid hmax
  exact ⟨s', d', hrun, hcache⟩

/-- No other map is ever read from it, whatever calls fail on the way. -/
theorem Located.reopens_only (h : Located parent name s.dir d0) (hfits : Fits box s.limits s.key nonce candidate)
    (hrenamed : Renamed s.dir (sealedContents box s.key nonce candidate) d0 d) {state : StateMap}
    (hopens : PathOpens box parent name s.key s.limits d state) : state = candidate := by
  have hat := h.frame hrenamed.frame
  obtain ⟨dir, i, hdir, hi, hopen⟩ := hopens
  obtain rfl : s.dir = dir := Option.some.inj (hat.lookup.symm.trans hdir)
  obtain rfl : d0.next = i := Option.some.inj (hrenamed.lookup.symm.trans hi)
  rw [hrenamed.content, open_sealedContents hfits] at hopen
  exact (Except.ok.inj hopen).symm

end Located

/-! ## The sizes under the default limits -/

/-- The text of an envelope: base64 between fixed pieces. -/
theorem writeObject_envelopeMembers (nonce : Nonce) (ciphertext : Bytes) :
    writeObject (envelopeMembers nonce ciphertext) =
      "\x7b\"format\":\"tailscale-dart-state\",\"version\":1,\"algorithm\":\"secretbox-xsalsa20-poly1305\",\"nonce\":\"".toList ++
        (Base64.encode nonce.toList ++ ("\",\"ciphertext\":\"".toList ++
          (Base64.encode ciphertext ++ "\"\x7d".toList))) := by
  simp only [envelopeMembers, writeObject, writeRest, writeMember, quoteBytes, List.append_assoc,
    List.cons_append, List.nil_append]
  rfl

theorem length_marshalEncryptedStateEnvelope (nonce : Nonce) (ciphertext : Bytes) :
    (marshalEncryptedStateEnvelope nonce ciphertext).length = 146 + 4 * ((ciphertext.length + 2) / 3) := by
  have hplain : ∀ text : String, text.toList.all (fun c => decide (c.toNat < 0x80)) = true →
      ∀ c ∈ text.toList, c.toNat < 0x80 := fun text h c hc => of_decide_eq_true (List.all_eq_true.mp h c hc)
  have hascii : ∀ c ∈ writeObject (envelopeMembers nonce ciphertext), c.toNat < 0x80 := by
    rw [writeObject_envelopeMembers]
    intro c hc
    simp only [List.mem_append] at hc
    rcases hc with hc | hc | hc | hc | hc
    · exact hplain _ (by decide) c hc
    · exact Base64.isText_ascii (Base64.encode_isText _ c hc)
    · exact hplain _ (by decide) c hc
    · exact Base64.isText_ascii (Base64.encode_isText _ c hc)
    · exact hplain _ (by decide) c hc
  rw [marshalEncryptedStateEnvelope, length_encodeUtf8_of_ascii hascii, writeObject_envelopeMembers]
  simp only [List.length_append, Base64.length_encode, nonce.toList_length]
  change 96 + (4 * ((24 + 2) / 3) + (16 + (4 * ((List.length ciphertext + 2) / 3) + 2))) = _
  omega

/-- Under the default limits a plaintext within its limit makes a ciphertext and an envelope within theirs. -/
theorem fits_default (box : SecretBox) (key : Key) (nonce : Nonce) {state : StateMap}
    (hplain : (marshalStateMap state).length ≤ defaultEncryptedStateStoreLimits.maxPlaintextBytes) :
    Fits box defaultEncryptedStateStoreLimits key nonce state := by
  have hseal := box.seal_length key nonce (marshalStateMap state)
  have hbound : defaultEncryptedStateStoreLimits.maxPlaintextBytes = 16777216 := rfl
  have hcipher : (box.sealBox key nonce (marshalStateMap state)).length ≤ 16777232 := by
    rw [hbound] at hplain
    rw [hseal, overhead]
    omega
  have henvelope : defaultEncryptedStateStoreLimits.maxEnvelopeBytes = 25165824 := rfl
  refine ⟨hplain, Int.ofNat_le.mpr hcipher, ?_⟩
  rw [sealedContents, length_marshalEncryptedStateEnvelope, henvelope]
  omega

/-- A commit under the default limits whose plaintext is within its limit is refused by no size. -/
theorem commitCandidateLocked_sized {box : SecretBox} {s : EncryptedStateStore} {candidate : StateMap}
    (hlimits : s.limits = defaultEncryptedStateStoreLimits)
    (hplain : (marshalStateMap candidate).length ≤ defaultEncryptedStateStoreLimits.maxPlaintextBytes) (d : Disk) :
    Yields (fun r _ => ∀ text, r ≠ .error (oversized text))
      (s.commitCandidateLocked box candidate).run d := by
  have hfits : ∀ nonce, Fits box s.limits s.key nonce candidate := by
    intro nonce
    rw [hlimits]
    exact fits_default box s.key nonce hplain
  refine Safe.require (fun hlong => absurd (hfits (EncryptedStateStore.nonceOf [])).plaintext hlong) fun _ => ?_
  refine Safe.andThen (Safe.attempt (Safe.weaken ?_ _ _ (Safe.nothing _ d)))
  intro r d' _
  cases r with
  | error e =>
    intro text herr
    cases herr
  | ok random =>
  refine Safe.require (fun hlong => absurd (hfits _).ciphertext hlong) fun _ => ?_
  refine Safe.require (fun hlong => absurd (hfits _).envelope hlong) fun _ => ?_
  -- the errors of the write itself are put under the sentinel of persistence
  refine Safe.bind_alone (Safe.nothing _ d') ?_
  intro r d'' _
  refine Safe.pure_alone ?_
  intro text herr
  cases r with
  | ok c => cases herr
  | error err => cases herr

/-! ## The agreement of writer and reader -/

/-- A new store in the directory `tailscale` of an otherwise empty disk, with limits of a few hundred bytes. -/
def smallStore : EncryptedStateStore where
  dir := 1
  key := List.Vector.replicate _ 7
  cache := ∅
  fileInfo := none
  closed := false
  limits := { maxEnvelopeBytes := 400, maxCiphertextBytes := 64, maxPlaintextBytes := 48 }

def smallDisk : Disk := emptyDisk.create 0 "tailscale" { kind := .directory, owned := true, perm := 0o700 }

theorem smallStore_located : Located 0 "tailscale" smallStore.dir smallDisk where
  sound := emptyDisk_sound.create (by decide) rfl
  lookup := rfl
  kind := rfl
  owned := rfl
  apart := by decide

/-- Nothing is read under that limit, and an empty file holds no envelope. -/
theorem openEncryptedStateStore_unreadable (box : SecretBox) (parent : Inode) (name : String) (key : Key)
    {limits : Limits} (hmax : limits.maxEnvelopeBytes = maxInt64) {d : Disk} (hsound : d.Sound) :
    Yields (OnOk fun _ _ => False)
      (openEncryptedStateStoreWithOptions box parent name key limits).run d := by
  have hload : Yields (OnOk fun _ _ => False) (loadEncryptedStateEnvelope parent name limits).run d := by
    refine Safe.check fun _ => ?_
    refine Safe.seq (Safe.wrapErr (secureEncryptedStateDirectory_safe parent name false hsound nofun)) ?_
    rintro dir d1 -
    refine Safe.seq (Safe.wrapErr (readPrivateEncryptedStateFile_safe dir limits.ints.1 d1)) ?_
    rintro ⟨raw, info⟩ d2 ⟨-, i, -, hraw⟩
    rw [if_pos hmax] at hraw
    obtain rfl : raw = [] := hraw
    exact Safe.fromExcept fun envelope hparse => absurd hparse (parseEncryptedStateEnvelope_nil limits envelope)
  exact Safe.seq hload fun _ _ hnever => hnever.elim

/-- The store with the largest envelope limit. -/
def unlimitedStore : EncryptedStateStore :=
  { smallStore with limits := { maxEnvelopeBytes := maxInt64, maxCiphertextBytes := 64, maxPlaintextBytes := 48 } }

end TailscaleDart.Store
