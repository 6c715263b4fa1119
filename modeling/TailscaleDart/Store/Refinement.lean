import TailscaleDart.Store.Persist

/-!
# Store.Refinement — the store is the map in its file

What the store is for: one map, which `WriteState` changes at one key or not at all. `onDisk` is that
map as anyone with the key reads it back from the file; the cache is the same map in memory.
`Reachable` is every store that was created or opened, after any calls, with any of the system calls and
hooks failing anywhere.
-/

namespace TailscaleDart.Store

open Conc Durable Disk

variable (box : SecretBox)

/-- The file at the store's path. -/
def fileAt (s : EncryptedStateStore) (d : Disk) : Option (Inode × File) :=
  (d.lookup s.dir encryptedStateFileName).map fun i => (i, (d.nodes i).toFile)

/-- Decrypting and parsing that file. -/
def onDisk (s : EncryptedStateStore) (d : Disk) : Option StateMap :=
  (fileAt s d).bind fun (_, file) => (openContents (F := Errno) box s.limits s.key file.content).toOption

/-- Every store the package can have, with the disk it is on. -/
inductive Reachable : EncryptedStateStore → Disk → Prop
  | created {parent : Inode} {name : String} {key : Key} {limits : Limits} {answers : List Answer}
      {s : EncryptedStateStore} {d d' : Disk} (hsound : d.Sound) (hparent : parent < d.next)
      (h : (createEncryptedStateStoreWithOptions box parent name key limits).run.exec answers d =
        some (.ok s, d')) : Reachable s d'
  | opened {parent : Inode} {name : String} {key : Key} {limits : Limits} {answers : List Answer}
      {s : EncryptedStateStore} {d d' : Disk} (hsound : d.Sound)
      (h : (openEncryptedStateStoreWithOptions box parent name key limits).run.exec answers d =
        some (.ok s, d')) : Reachable s d'
  | write {s s' : EncryptedStateStore} {d d' : Disk} {id : Bytes} {value : Option Bytes}
      {answers : List Answer} {err : Option Err} (hreach : Reachable s d)
      (h : (s.writeState box id value).exec answers d = some ((s', err), d')) : Reachable s' d'
  | close {s : EncryptedStateStore} {d : Disk} (hreach : Reachable s d) : Reachable s.closeStore d

/-- What is true of a store between two calls. -/
structure Coherent (s : EncryptedStateStore) (d : Disk) : Prop where
  sound : d.Sound
  dir : s.dir < d.next
  content : s.closed = false → onDisk box s d = some s.cache

/-! ## A commit -/

variable {box} {d d0 : Disk} {s : EncryptedStateStore}

theorem fileAt_staged (hsound : d0.Sound) (hdir : s.dir < d0.next)
    (h : d = d0 ∨ Staged s.dir d0 d) : fileAt s d = fileAt s d0 := by
  rcases h with rfl | h
  · rfl
  have hname : ¬ (s.dir = s.dir ∧ encryptedStateFileName ∈ [encryptedStateTempFileName]) :=
    fun h => absurd h.2 (by decide)
  unfold fileAt
  rw [h.frame.lookup _ _ (Nat.ne_of_lt hdir) hname]
  cases hi : d0.lookup s.dir encryptedStateFileName with
  | none => rfl
  | some i => rw [Option.map_some, Option.map_some, h.frame.file i (Nat.ne_of_lt (hsound _ _ i hi).2)]

theorem Coherent.staged (h : Coherent box s d0) (hd : d = d0 ∨ Staged s.dir d0 d) : Coherent box s d := by
  have hfile := fileAt_staged h.sound h.dir hd
  refine ⟨?_, ?_, ?_⟩
  · rcases hd with rfl | hd
    · exact h.sound
    · exact hd.frame.sound
  · rcases hd with rfl | hd
    · exact h.dir
    · rw [hd.frame.next]
      exact Nat.lt_succ_of_lt h.dir
  · intro hopen
    unfold onDisk
    rw [hfile]
    exact h.content hopen

/-- After the rename the file holds the candidate. -/
theorem coherent_renamed {candidate : StateMap} {nonce : Nonce} {info : Info}
    (hdir : s.dir < d0.next) (hfits : Fits box s.limits s.key nonce candidate)
    (h : Renamed s.dir (sealedContents box s.key nonce candidate) d0 d) :
    Coherent box { s with cache := candidate, fileInfo := some info } d where
  sound := h.frame.sound
  dir := by
    rw [h.frame.next]
    exact Nat.lt_succ_of_lt hdir
  content := by
    intro _
    simp only [onDisk, fileAt, h.lookup, Option.map_some, Option.bind_some, h.content,
      open_sealedContents hfits, Except.toOption]

/-- Past the last size check. -/
theorem commitEnvelope_safe (s : EncryptedStateStore) (envelope : Bytes) (candidate : StateMap) (hsound : d0.Sound)
    (hdir : s.dir < d0.next) : Yields
      (fun r d => EncryptedStateStore.Outcome s envelope candidate d0 r d ∧
        (r.toOption.isSome → envelope.length ≤ s.limits.maxEnvelopeBytes))
      (s.commitEnvelope envelope candidate).run d0 := by
  refine Safe.require (fun _ => ⟨.inl rfl, nofun⟩) fun hlength => ?_
  have hpersist := s.persistEnvelopeLocked_safe envelope candidate hsound hdir
  refine Safe.bind_alone (Safe.weaken_alone (fun _ _ => trivial) _ _ hpersist) ?_
  intro r d hr
  refine .pure_alone ⟨?_, fun _ => hlength⟩
  cases r with
  | error err => exact hr
  | ok c => exact hr

/-- A commit that fails leaves the disk at a stage before the rename; one that succeeds has renamed a file
with the candidate sealed in it, all of whose sizes passed. -/
theorem commitCandidateLocked_stages (s : EncryptedStateStore) (candidate : StateMap) (hsound : d0.Sound)
    (hdir : s.dir < d0.next) : Yields (fun r d => match r with
        | .error _ => d = d0 ∨ Staged s.dir d0 d | .ok c => ∃ nonce info, Fits box s.limits s.key nonce candidate ∧
            Renamed s.dir (sealedContents box s.key nonce candidate) d0 d ∧
            c.store = { s with cache := candidate, fileInfo := some info })
      (s.commitCandidateLocked box candidate).run d0 := by
  refine Safe.require (fun _ => .inl rfl) fun hplain => ?_
  refine Safe.pass (Neutral.attempt readRandom_neutral) trivial (fun _ => .inl rfl) fun random => ?_
  refine Safe.require (fun _ => .inl rfl) fun hcipher => ?_
  refine Safe.weaken ?_ _ _ (commitEnvelope_safe s _ candidate hsound hdir)
  rintro r d ⟨hr, hlength⟩
  cases r with
  | error err => exact hr
  | ok c =>
    obtain ⟨hrenamed, info, -, hstore⟩ := hr
    exact ⟨_, info, ⟨hplain, hcipher, hlength rfl⟩, hrenamed, hstore⟩

/-- A commit that succeeds leaves a coherent store with the candidate as its map. -/
theorem commitCandidateLocked_safe (s : EncryptedStateStore) (candidate : StateMap) (hsound : d0.Sound)
    (hdir : s.dir < d0.next) : Yields (fun r d => match r with
        | .error _ => d = d0 ∨ Staged s.dir d0 d
        | .ok c => Coherent box c.store d ∧ ∃ info, c.store = { s with cache := candidate, fileInfo := some info })
      (s.commitCandidateLocked box candidate).run d0 := by
  refine .weaken ?_ _ _ (commitCandidateLocked_stages s candidate hsound hdir)
  intro r d hr
  cases r with
  | error err => exact hr
  | ok c =>
    obtain ⟨nonce, info, hfits, hrenamed, hstore⟩ := hr
    refine ⟨?_, info, hstore⟩
    rw [hstore]
    exact coherent_renamed hdir hfits hrenamed

/-! ## Writing -/

namespace EncryptedStateStore

theorem candidate_of_same (s : EncryptedStateStore) {key : String} {value : Option Bytes}
    (h : s.cache[key]? = value) : s.candidate key value = s.cache := by
  refine Std.ExtTreeMap.ext_getElem? fun other => ?_
  cases value with
  | none =>
    rw [candidate, Std.ExtTreeMap.getElem?_erase]
    split
    case isTrue hcmp => rw [← Std.LawfulEqCmp.eq_of_compare hcmp, h]
    case isFalse => rfl
  | some value =>
    rw [candidate, Std.ExtTreeMap.getElem?_insert]
    split
    case isTrue hcmp => rw [← Std.LawfulEqCmp.eq_of_compare hcmp, h]
    case isFalse => rfl

theorem candidate_find (s : EncryptedStateStore) (key : String) (value : Option Bytes) :
    (s.candidate key value)[key]? = value := by
  cases value with
  | none => simp [candidate]
  | some value => simp [candidate]

/-- What one `WriteState` may do. -/
structure Wrote (box : SecretBox) (s : EncryptedStateStore) (d : Disk) (id : Bytes) (value : Option Bytes)
    (r : EncryptedStateStore × Option Err) (d' : Disk) : Prop where
  coherent : Coherent box r.1 d'
  failed : r.2 ≠ none → r.1 = s ∧ fileAt s d' = fileAt s d
  succeeded : r.2 = none → s.closed = false ∧ r.1.closed = false ∧
    ∃ text, JsonText.decodeUtf8 id = some text ∧ r.1.cache = s.candidate (String.ofList text) value

theorem writeState_safe (s : EncryptedStateStore) (id : Bytes) (value : Option Bytes) {d : Disk}
    (h : Coherent box s d) : Yields (Wrote box s d id value) (s.writeState box id value) d := by
  have hrefused : ∀ (err : Err), Wrote box s d id value (s, some err) d :=
    fun err => ⟨h, fun _ => ⟨rfl, rfl⟩, nofun⟩
  unfold writeState
  cases hid : JsonText.decodeUtf8 id with
  | none => exact .pure_alone (hrefused _)
  | some text =>
  simp only
  split
  case isTrue => exact .pure_alone (hrefused _)
  split
  case isTrue => exact .pure_alone (hrefused _)
  case isFalse hclosed =>
  have hopen : s.closed = false := by simpa using hclosed
  refine .bind_alone (validatePersistenceRoot_neutral.safe trivial fun _ => rfl) ?_
  rintro r d' (rfl : d = d')
  cases r with
  | error err => exact .pure_alone (hrefused _)
  | ok u =>
  have hsame : s.cache[String.ofList text]? = value → Wrote box s d id value (s, none) d :=
    fun hvalue => ⟨h, fun hne => absurd rfl hne, fun _ => ⟨hopen, hopen, text, hid, (s.candidate_of_same hvalue).symm⟩⟩
  simp only
  split
  case isTrue habsent =>
    refine .pure_alone (hsame ?_)
    rw [habsent.1, Std.ExtTreeMap.getElem?_eq_none habsent.2]
  split
  case isTrue hequal => exact .pure_alone (hsame hequal.2)
  refine .bind_alone (commitCandidateLocked_safe s (s.candidate (String.ofList text) value) h.sound h.dir) ?_
  intro r d hr
  cases r with
  | error err =>
    refine .pure_alone ⟨h.staged hr, fun _ => ⟨rfl, ?_⟩, nofun⟩
    exact fileAt_staged h.sound h.dir hr
  | ok c =>
    obtain ⟨hcoherent, info, hstore⟩ := hr
    refine .pure_alone ⟨hcoherent, fun hne => absurd rfl hne, fun _ => ⟨hopen, ?_, text, hid, ?_⟩⟩
    · rw [hstore]
      exact hopen
    · rw [hstore]

end EncryptedStateStore

/-! ## Opening -/

/-- The secured directory is one that exists; one that was not to be created is the one that was there. -/
theorem secureEncryptedStateDirectory_safe (parent : Inode) (name : String) (create : Bool) (hsound : d.Sound)
    (hparent : create = true → parent < d.next) : Yields
      (OnOk fun dir d' => (d'.Sound ∧ dir < d'.next ∧ d'.lookup parent name = some dir) ∧
        (create = false → PermOnly d d' ∧ d.lookup parent name = some dir))
      (secureEncryptedStateDirectory parent name create).run d := by
  have hmkdir : Yields (OnOk fun (_ : Unit) d' => d'.Sound ∧ (create = false → d' = d))
      (doIf create (secureEncryptedStateDirectory.makeDirectory parent name)).run d := by
    refine Safe.doIf ⟨hsound, fun _ => rfl⟩ ?_
    intro hcreate
    have hcall : Yields (fun _ d' => d'.Sound) (mkdirAt parent name 0o700) d := by
      refine Safe.sysCall (fun _ => hsound) trivial ⟨trivial, ?_⟩
      split
      · exact hsound
      · exact hsound.create (hparent hcreate) rfl
    have hmade : ∀ {d' : Disk}, d'.Sound → d'.Sound ∧ (create = false → d' = d) := by
      intro d' h
      exact ⟨h, fun hfalse => absurd (hcreate.symm.trans hfalse) (by decide)⟩
    refine .bind_alone hcall ?_
    intro r d' hr
    split
    all_goals first | exact Safe.pure_alone (hmade hr) | exact Safe.pure_alone trivial
  refine Safe.seq hmkdir ?_
  rintro - d1 ⟨hsound, hsame⟩
  refine Safe.look (lstat_neutral _ _).attempt fun before => ?_
  refine Safe.check fun _ => ?_
  refine Safe.check fun _ => ?_
  refine Safe.look (Neutral.require _ _) fun _ => ?_
  refine Safe.openAt fun dir hdir => ?_
  have hbound := (hsound _ _ dir hdir).2
  refine Safe.look (fstat_neutral _).attempt fun opened => ?_
  refine Safe.look (lstat_neutral _ _).attempt fun current => ?_
  refine Safe.check fun _ => ?_
  refine Safe.look (Neutral.require _ _) fun _ => ?_
  refine Safe.fchmod ?_
  refine Safe.look (lstat_neutral _ _).attempt fun final => ?_
  refine Safe.check fun _ => ?_
  refine Safe.look (Neutral.require _ _) fun _ => ?_
  refine Safe.check fun _ => ?_
  have hperm := permOnly_setPerm d1 dir 0o700
  refine Safe.pure_alone ⟨⟨hsound.update _ rfl, hbound, (hperm.lookup _ _).trans hdir⟩, fun hfalse => ?_⟩
  cases hsame hfalse
  exact ⟨hperm, hdir⟩

/-- What is read is the whole content of the file at the store's path, or nothing where the limit wraps around. -/
theorem readPrivateEncryptedStateFile_safe (dir : Inode) {maxBytes : Int} (hint : JsonText.IsInt64 maxBytes)
    (d : Disk) : Yields
      (OnOk fun r d' => PermOnly d d' ∧ ∃ i, d.lookup dir encryptedStateFileName = some i ∧
        if maxBytes = maxInt64 then r.1 = [] else r.1 = (d.nodes i).content)
      (readPrivateEncryptedStateFile dir maxBytes).run d := by
  refine Safe.look (lstat_neutral _ _).attempt fun before => ?_
  refine Safe.check fun _ => ?_
  refine Safe.check fun _ => ?_
  refine Safe.look (Neutral.require _ _).wrapErr fun _ => ?_
  refine Safe.openAt fun file hfile => ?_
  refine Safe.look (fstat_neutral _).attempt fun opened => ?_
  refine Safe.look (lstat_neutral _ _).attempt fun current => ?_
  refine Safe.check fun _ => ?_
  refine Safe.fchmod ?_
  have hperm := permOnly_setPerm d file 0o600
  generalize d.setPerm file 0o600 = d' at hperm
  refine Safe.look (fstat_neutral _).attempt fun final => ?_
  refine Safe.look (lstat_neutral _ _).attempt fun current => ?_
  refine Safe.check fun _ => ?_
  refine Safe.look (Neutral.require _ _).wrapErr fun _ => ?_
  refine Safe.check fun _ => ?_
  refine Safe.check fun _ => ?_
  refine Safe.call trivial (fun _ => trivial) (nofun) ?_
  rintro raw d'' ⟨⟩
  refine ⟨trivial, Safe.check fun hlength => Safe.pure_alone ⟨hperm, file, hfile, ?_⟩⟩
  split
  next hmax =>
    subst hmax
    rfl
  next hmax =>
    rw [← hperm.content file]
    exact take_limit hint hmax hlength

/-- A disk on which the path names a store whose file opens to a map. -/
def PathOpens (box : SecretBox) (parent : Inode) (name : String) (key : Key) (limits : Limits) (d : Disk)
    (state : StateMap) : Prop :=
  ∃ dir i, d.lookup parent name = some dir ∧ d.lookup dir encryptedStateFileName = some i ∧
    openContents (F := Errno) box limits key (d.nodes i).content = .ok state

/-- The store is open, and is the one its path names. -/
structure StandsAt (parent : Inode) (name : String) (key : Key) (limits : Limits) (s : EncryptedStateStore) (d : Disk) :
    Prop where
  lookup : d.lookup parent name = some s.dir
  key : s.key = key
  limits : s.limits = limits
  opened : s.closed = false

theorem openEncryptedStateStore_safe (parent : Inode) (name : String) (key : Key) (limits : Limits) (hsound : d.Sound) :
    Yields (OnOk fun s d' => Coherent box s d' ∧ PathOpens box parent name key limits d s.cache ∧
        StandsAt parent name key limits s d')
      (openEncryptedStateStoreWithOptions box parent name key limits).run d := by
  have hload : Yields
      (OnOk fun r d' => PermOnly d d' ∧ d'.Sound ∧ r.1 < d'.next ∧ d.lookup parent name = some r.1 ∧
        ∃ i, d.lookup r.1 encryptedStateFileName = some i ∧
          parseEncryptedStateEnvelope (F := Errno) (d.nodes i).content limits = .ok r.2.1)
      (loadEncryptedStateEnvelope parent name limits).run d := by
    refine Safe.check fun _ => ?_
    refine Safe.seq (Safe.wrapErr (secureEncryptedStateDirectory_safe parent name false hsound
      nofun)) ?_
    rintro dir d1 ⟨⟨hsound1, hdir, -⟩, hfound⟩
    obtain ⟨hperm1, hlookup⟩ := hfound rfl
    refine Safe.seq (Safe.wrapErr (readPrivateEncryptedStateFile_safe dir limits.ints.1 d1)) ?_
    rintro ⟨raw, info⟩ d2 ⟨hperm2, i, hi, hraw⟩
    refine Safe.fromExcept fun envelope hparse => ?_
    obtain rfl : raw = (d1.nodes i).content := by
      split at hraw
      next =>
        obtain rfl : raw = [] := hraw
        exact absurd hparse (parseEncryptedStateEnvelope_nil limits envelope)
      next => exact hraw
    refine .pure_alone ⟨hperm1.trans hperm2, hperm2.sound hsound1, hperm2.1 ▸ hdir, hlookup, i, ?_, ?_⟩
    · rw [← hperm1.lookup, hi]
    · rw [← hperm1.content, hparse]
  refine Safe.seq hload ?_
  rintro ⟨dir, envelope, info⟩ d' ⟨hperm, hsound', hdir, hlookup, i, hi, hparse⟩
  refine Safe.fromExcept fun cache hopen => ?_
  have hcontents : openContents (F := Errno) box limits key (d.nodes i).content = .ok cache := by
    simp only [openContents, hparse, bind, Except.bind, hopen]
  refine .pure_alone ⟨⟨hsound', hdir, fun _ => ?_⟩, ⟨dir, i, hlookup, hi, hcontents⟩,
    ⟨(hperm.lookup _ _).trans hlookup, rfl, rfl, rfl⟩⟩
  have hi' : d'.lookup dir encryptedStateFileName = some i := (hperm.lookup _ _).trans hi
  simp only [onDisk, fileAt, hi', Option.map_some, Option.bind_some, hperm.content i, hcontents, Except.toOption]

/-! ## Creating -/

theorem orCleanup_safe {α : Type} {post : α → Disk → Prop} {x : Fallible Err α} (parent : Inode)
    (name : String) (created : Bool) (h : Yields (OnOk post) x.run d) :
    Yields (OnOk post) (orCleanup parent name created x).run d := by
  refine .bind_alone h ?_
  intro r d' hr
  cases r with
  | ok a => exact .pure_alone hr
  | error err =>
    refine Safe.bind_alone (Safe.nothing _ d') ?_
    intro err' d'' _
    exact .pure_alone trivial

theorem secureNewDirectory_safe (parent : Inode) (name : String) (created : Bool)
    (hsound : d.Sound) (hparent : parent < d.next) :
    Yields (OnOk fun dir d' => d'.Sound ∧ dir < d'.next ∧ d'.lookup parent name = some dir)
      (secureNewDirectory parent name created).run d := by
  refine Safe.seq (Safe.wrapErr (secureEncryptedStateDirectory_safe parent name true hsound fun _ => hparent)) ?_
  rintro dir d ⟨hd, -⟩
  have hsync : Yields
      (OnOk fun _ d' => d'.Sound ∧ dir < d'.next ∧ d'.lookup parent name = some dir)
      (syncStateDirectory parent).run d := by
    have hkeeps := EncryptedStateStore.syncStateDirectory_keeps
      (P := fun d' => d'.Sound ∧ dir < d'.next ∧ d'.lookup parent name = some dir) parent
      (fun _ h => ⟨h.1.update _ rfl, h.2.1, (syncEntries_lookup _ _ _ _).trans h.2.2⟩) hd
    refine Safe.weaken ?_ _ _ (Safe.weaken_alone (fun _ _ => trivial) _ _ hkeeps)
    intro r d' hr
    cases r with
    | ok u => exact hr
    | error err => trivial
  refine Safe.seq (Safe.doIf hd fun _ => Safe.wrapErr hsync) ?_
  rintro - d' hd'
  exact Safe.pure_alone hd'

theorem createEncryptedStateStore_safe (parent : Inode) (name : String) (key : Key) (limits : Limits) (hsound : d.Sound)
    (hparent : parent < d.next) : Yields (OnOk fun s d' => Coherent box s d' ∧ s.cache = ∅ ∧
        (name ∉ [encryptedStateTempFileName, encryptedStateFileName] → StandsAt parent name key limits s d'))
      (createEncryptedStateStoreWithOptions box parent name key limits).run d := by
  refine Safe.check fun _ => ?_
  refine Safe.look ((lstat_neutral _ _).bind fun _ => Neutral.pure _) fun created => ?_
  refine Safe.seq (orCleanup_safe _ _ _ (secureNewDirectory_safe parent name created hsound hparent)) ?_
  rintro dir d ⟨hsound, hdir, hlookup⟩
  have habsent : Yields (OnOk fun (_ : Bool) d' => d' = d)
      (ExceptT.mk (return destinationAbsent (← lstat dir encryptedStateFileName)) : Fallible Err Bool).run d := by
    refine Neutral.safe ((lstat_neutral _ _).bind fun _ => Neutral.pure _) trivial ?_
    intro r
    cases r with
    | ok b => exact rfl
    | error err => trivial
  refine Safe.seq (orCleanup_safe _ _ _ habsent) ?_
  rintro absent d' rfl
  refine Safe.check fun _ => ?_
  have hcommit : Yields
      (OnOk fun c d' => Coherent box c.store d' ∧ c.store.cache = ∅ ∧
        (name ∉ [encryptedStateTempFileName, encryptedStateFileName] → StandsAt parent name key limits c.store d'))
      (EncryptedStateStore.commitCandidateLocked box
        { dir := dir, key := key, cache := ∅, fileInfo := none, closed := false, limits := limits } ∅).run d' := by
    refine Safe.weaken ?_ _ _ (commitCandidateLocked_stages _ ∅ hsound hdir)
    intro r d hr
    cases r with
    | ok c =>
      obtain ⟨nonce, info, hfits, hrenamed, hstore⟩ := hr
      show Coherent box c.store d ∧ _
      rw [hstore]
      refine ⟨coherent_renamed hdir hfits hrenamed, rfl, fun hname => ⟨?_, rfl, rfl, rfl⟩⟩
      rw [hrenamed.frame.lookup parent name (Nat.ne_of_lt (hsound _ _ _ hlookup).1) fun hat => hname hat.2, hlookup]
    | error err => trivial
  refine Safe.seq (orCleanup_safe _ _ _ hcommit) ?_
  rintro c d hc
  exact Safe.pure_alone hc

/-! ## Every run -/

theorem Reachable.coherent (h : Reachable box s d) : Coherent box s d := by
  induction h with
  | created hsound hparent hrun =>
    exact ((createEncryptedStateStore_safe _ _ _ _ hsound hparent).exec hrun).1
  | opened hsound hrun => exact ((openEncryptedStateStore_safe _ _ _ _ hsound).exec hrun).1
  | write _ hrun ih => exact ((EncryptedStateStore.writeState_safe _ _ _ ih).exec hrun).coherent
  | @close s d _ ih =>
    refine ⟨ih.sound, ?_, ?_⟩
    · unfold EncryptedStateStore.closeStore
      split
      · exact ih.dir
      · exact ih.dir
    · intro hopen
      unfold EncryptedStateStore.closeStore at hopen
      split at hopen
      case isTrue hclosed => exact absurd hopen (by simp [hclosed])
      case isFalse => cases hopen

variable (box) in
/-- **The store is the map in its file.** In every reachable state of an open store the file decrypts and
parses to exactly the cache. A `WriteState` that returns an error changes neither the file nor the store;
one that returns nil leaves a store whose map, in memory and in the file, is the old one with the new value
(or, for a nil value, without the key). -/
theorem cache_eq_file {s : EncryptedStateStore} {d : Disk} (h : Reachable box s d) :
    (s.closed = false → onDisk box s d = some s.cache) ∧
    ∀ id value answers s' err d', (s.writeState box id value).exec answers d = some ((s', err), d') →
      (err ≠ none → s'.cache = s.cache ∧ s' = s ∧ fileAt s' d' = fileAt s d) ∧
      (err = none → s'.find id = value ∧ onDisk box s' d' = some s'.cache ∧
        ∃ text, JsonText.decodeUtf8 id = some text ∧ s'.cache = s.candidate (String.ofList text) value) := by
  have hcoherent := h.coherent
  refine ⟨hcoherent.content, ?_⟩
  intro id value answers s' err d' hrun
  have hwrote := (EncryptedStateStore.writeState_safe s id value hcoherent).exec hrun
  refine ⟨?_, ?_⟩
  · intro herr
    obtain ⟨rfl, hfile⟩ := hwrote.failed herr
    exact ⟨rfl, rfl, hfile⟩
  · intro hnil
    obtain ⟨-, hopen, text, hid, hcache⟩ := hwrote.succeeded hnil
    refine ⟨?_, hwrote.coherent.content hopen, text, hid, hcache⟩
    simp only at hcache
    rw [EncryptedStateStore.find, hid, Option.bind_some, hcache, EncryptedStateStore.candidate_find]

/-- Create a store, then write an empty value, with every call succeeding. -/
def createThenWrite : Option ((EncryptedStateStore × Disk) × (EncryptedStateStore × Option Err) × Disk) := do
  let answers : List Answer := List.replicate 40 { count := 1000 }
  let (created, d) ← (createEncryptedStateStoreWithOptions paddingBox 0 "tailscale" (List.Vector.replicate _ 7)
    defaultEncryptedStateStoreLimits).run.exec answers emptyDisk
  let s ← created.toOption
  let (r, d') ← (s.writeState paddingBox [107] (some [])).exec answers d
  some ((s, d), r, d')

theorem cache_eq_file_created :
    ∃ s d s' d', Reachable paddingBox s d ∧ s.closed = false ∧ onDisk paddingBox s d = some s.cache ∧
      Reachable paddingBox s' d' ∧ s'.find [107] = some [] ∧ onDisk paddingBox s' d' = some s'.cache := by
  have hrun : createThenWrite.map (fun r => (r.1.1.closed, r.2.1.2.isNone)) = some (false, true) := by
    decide +kernel
  obtain ⟨r, hr, hflags⟩ := Option.map_eq_some_iff.mp hrun
  simp only [createThenWrite, Option.bind_eq_bind, Option.bind_eq_some_iff] at hr
  obtain ⟨⟨created, d⟩, hcreate, s, hs, ⟨⟨s', err⟩, d'⟩, hwrite, hr⟩ := hr
  obtain rfl := Option.some.inj hr
  cases created with
  | error err => cases hs
  | ok s0 =>
    obtain rfl : s0 = s := Option.some.inj hs
    obtain ⟨hclosed, herr⟩ := Prod.mk.inj hflags
    obtain rfl : err = none := Option.isNone_iff_eq_none.mp herr
    have hreach : Reachable paddingBox s0 d := .created emptyDisk_sound (by decide) hcreate
    obtain ⟨hfile, hcalls⟩ := cache_eq_file paddingBox hreach
    obtain ⟨hfind, hfile', -⟩ := (hcalls _ _ _ _ _ _ hwrite).2 rfl
    exact ⟨s0, d, s', d', hreach, hclosed, hfile hclosed, .write hreach hwrite, hfind, hfile'⟩

end TailscaleDart.Store
