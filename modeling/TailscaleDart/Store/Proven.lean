import Mathlib.Logic.Relation
import TailscaleDart.Store.Metadata

/-!
# Store.Proven — the configuration a start has proven

A persistent start removes the configuration in the store before `Server.Start` may change anything under a new one, and
writes its own once the start has succeeded. Every call in between may fail, and upstream writes its own keys whenever
it runs. `Step` is one call of a start, at the program point it is made at; an attempt may end at any point.

`latest` is the history: the last attempt that got past `clearRuntimeConfig`, and whether its
`Server.Start` has returned without an error. Between attempts the file of the store may be taken away, or left alone:
only the holder of the state lease writes it.
-/

namespace TailscaleDart.Store

open Conc Durable Disk JsonText

/-! ## A write leaves the path of the store alone -/

section Frame

variable {box : SecretBox} {s s' : EncryptedStateStore} {d d' : Disk} {answers : List Answer} {err : Option Err}
  {parent : Inode} {name : String} {key : Key} {limits : Limits}

/-- A commit does not touch the path of the store. -/
theorem StandsAt.frame {names : List String} (h : StandsAt parent name key limits s d) (hsound : d.Sound)
    (hframe : Frame s.dir names d d') (hname : name ∉ names) (hdir : s'.dir = s.dir) (hkey : s'.key = s.key)
    (hlimits : s'.limits = s.limits) (hopen : s'.closed = s.closed) : StandsAt parent name key limits s' d' where
  lookup := by
    rw [hframe.lookup parent name (Nat.ne_of_lt (hsound _ _ _ h.lookup).1) fun hat => hname hat.2, h.lookup, hdir]
  key := hkey.trans h.key
  limits := hlimits.trans h.limits
  opened := hopen.trans h.opened

theorem writeState_stands (h : StandsAt parent name key limits s d) (hsound : d.Sound) (hdir : s.dir < d.next)
    (hname : name ∉ [encryptedStateTempFileName, encryptedStateFileName]) (id : Bytes) (value : Option Bytes) :
    Yields (fun r d' => StandsAt parent name key limits r.1 d') (s.writeState box id value) d := by
  unfold EncryptedStateStore.writeState
  cases hid : decodeUtf8 id with
  | none => exact .pure_alone h
  | some text =>
  simp only
  split
  case isTrue => exact .pure_alone h
  split
  case isTrue => exact .pure_alone h
  refine Safe.bind_alone (EncryptedStateStore.validatePersistenceRoot_neutral.safe trivial fun _ => rfl) ?_
  rintro r d' (rfl : d = d')
  cases r with
  | error err => exact .pure_alone h
  | ok u =>
  simp only
  split
  case isTrue => exact .pure_alone h
  split
  case isTrue => exact .pure_alone h
  refine .bind_alone (commitCandidateLocked_stages s (s.candidate (String.ofList text) value) hsound hdir) ?_
  intro r d' hr
  cases r with
  | error err =>
    rcases hr with rfl | hstaged
    · exact .pure_alone h
    · have hnot : name ∉ [encryptedStateTempFileName] :=
        fun hmem => hname (List.mem_cons.mpr (.inl (List.mem_singleton.mp hmem)))
      exact .pure_alone (h.frame hsound hstaged.frame hnot rfl rfl rfl rfl)
  | ok c =>
    obtain ⟨nonce, info, -, hrenamed, hstore⟩ := hr
    refine .pure_alone (h.frame hsound hrenamed.frame hname ?_ ?_ ?_ ?_)
    all_goals simp only [hstore]

end Frame

/-! ## Attempts -/

/-- Where the store is kept, and with what. -/
structure Place where
  box : SecretBox
  ipn : IpnWriteState box
  parent : Inode
  name : String
  key : Key
  limits : Limits
  apart : name ∉ [encryptedStateTempFileName, encryptedStateFileName]

/-- The map anyone with the key reads at the place. -/
def Place.Holds (place : Place) (d : Disk) (state : StateMap) : Prop :=
  PathOpens place.box place.parent place.name place.key place.limits d state

/-- How far a start has come. -/
inductive Phase where
  /-- The candidate has the store; host network, directories and sidecars are prepared. -/
  | adopted
  /-- The configuration is removed; `Server.Start` runs. -/
  | cleared
  /-- `Server.Start` has succeeded. -/
  | started
  /-- The configuration is saved; the runtime is committed, and runs. -/
  | saved
  deriving DecidableEq, Repr

structure Attempt where
  config : RuntimeConfig
  phase : Phase
  store : EncryptedStateStore

structure Attempts where
  disk : Disk
  attempt : Option Attempt := none
  latest : Option (RuntimeConfig × Bool) := none

/-- One call of a start, or what happens around it. -/
inductive Step (place : Place) : Attempts → Attempts → Prop
  /-- Without an attempt the file at the place is only taken away, if anything. -/
  | outside {a : Attempts} {d : Disk} (hidle : a.attempt = none) (hsound : d.Sound)
      (hkept : ∀ state, place.Holds d state → place.Holds a.disk state) : Step place a { a with disk := d }
  /-- The preparation of an attempt opened the store. -/
  | opens {a : Attempts} {config : RuntimeConfig} {answers : List Answer} {s : EncryptedStateStore} {d : Disk}
      (hidle : a.attempt = none)
      (hrun : (openEncryptedStateStoreWithOptions place.box place.parent place.name place.key place.limits).run.exec
        answers a.disk = some (.ok s, d)) : Step place a { a with disk := d, attempt := some ⟨config, .adopted, s⟩ }
  /-- The preparation of an attempt created the store. -/
  | creates {a : Attempts} {config : RuntimeConfig} {answers : List Answer} {s : EncryptedStateStore} {d : Disk}
      (hidle : a.attempt = none) (hparent : place.parent < a.disk.next)
      (hrun : (createEncryptedStateStoreWithOptions place.box place.parent place.name place.key place.limits).run.exec
        answers a.disk = some (.ok s, d)) : Step place a { a with disk := d, attempt := some ⟨config, .adopted, s⟩ }
  /-- An attempt fails, is abandoned, or its runtime is closed. -/
  | ends {a : Attempts} {t : Attempt} (hattempt : a.attempt = some t) : Step place a { a with attempt := none }
  | clears {a : Attempts} {t : Attempt} {answers : List Answer} {s : EncryptedStateStore} {d : Disk}
      (hattempt : a.attempt = some t) (hphase : t.phase = .adopted)
      (hrun : (clearRuntimeConfig place.box t.store).exec answers a.disk = some ((s, none), d)) :
      Step place a ⟨d, some { t with phase := .cleared, store := s }, some (t.config, false)⟩
  /-- The start returns with the error of the removal. -/
  | clearFails {a : Attempts} {t : Attempt} {answers : List Answer} {s : EncryptedStateStore} {err : Err} {d : Disk}
      (hattempt : a.attempt = some t) (hphase : t.phase = .adopted)
      (hrun : (clearRuntimeConfig place.box t.store).exec answers a.disk = some ((s, some err), d)) :
      Step place a { a with disk := d, attempt := none }
  /-- Upstream writes one of its own keys, during its start and as long as it runs. -/
  | upstream {a : Attempts} {t : Attempt} {id : Bytes} {value : Option Bytes} {answers : List Answer}
      {s : EncryptedStateStore} {err : Option Err} {d : Disk} (hattempt : a.attempt = some t)
      (hphase : t.phase ≠ .adopted)
      (hid : id ≠ runtimeConfigId)
      (hrun : (t.store.writeState place.box id value).exec answers a.disk = some ((s, err), d)) :
      Step place a { a with disk := d, attempt := some { t with store := s } }
  | serverStarts {a : Attempts} {t : Attempt} (hattempt : a.attempt = some t) (hphase : t.phase = .cleared) :
      Step place a { a with attempt := some { t with phase := .started }, latest := some (t.config, true) }
  | saves {a : Attempts} {t : Attempt} {answers : List Answer} {s : EncryptedStateStore} {d : Disk}
      (hattempt : a.attempt = some t) (hphase : t.phase = .started)
      (hrun : (saveRuntimeConfig place.ipn t.store t.config).exec answers a.disk = some ((s, none), d)) :
      Step place a { a with disk := d, attempt := some { t with phase := .saved, store := s } }
  /-- The start returns with the error of the save. -/
  | saveFails {a : Attempts} {t : Attempt} {answers : List Answer} {s : EncryptedStateStore} {err : Err} {d : Disk}
      (hattempt : a.attempt = some t) (hphase : t.phase = .started)
      (hrun : (saveRuntimeConfig place.ipn t.store t.config).exec answers a.disk = some ((s, some err), d)) :
      Step place a { a with disk := d, attempt := none }

/-- Nothing was attempted yet, and no configuration is stored. -/
structure Initial (place : Place) (a : Attempts) : Prop where
  sound : a.disk.Sound
  idle : a.attempt = none
  empty : ∀ state, place.Holds a.disk state → state[persistentRuntimeConfigStateKey]? = none

/-! ## What is stored -/

/-- A configuration in the map is that of the latest attempt, whose start has succeeded. -/
def Agrees (latest : Option (RuntimeConfig × Bool)) (state : StateMap) : Prop :=
  ∀ bytes, state[persistentRuntimeConfigStateKey]? = some bytes →
    ∃ config, latest = some (config, true) ∧ parseRuntimeConfigMetadata bytes = .ok config

theorem agrees_of_absent {latest : Option (RuntimeConfig × Bool)} {state : StateMap}
    (h : state[persistentRuntimeConfigStateKey]? = none) : Agrees latest state := by
  intro bytes hbytes
  rw [h] at hbytes
  cases hbytes

/-- The store of an attempt, its phase, and the history. -/
structure Running (place : Place) (t : Attempt) (a : Attempts) : Prop where
  coherent : Coherent place.box t.store a.disk
  stands : StandsAt place.parent place.name place.key place.limits t.store a.disk
  agrees : Agrees a.latest t.store.cache
  history : t.phase ≠ .adopted → a.latest = some (t.config, decide (t.phase ≠ .cleared))

/-- The invariant of all attempts. -/
inductive Kept (place : Place) (a : Attempts) : Prop
  | idle (sound : a.disk.Sound) (attempt : a.attempt = none)
      (agrees : ∀ state, place.Holds a.disk state → Agrees a.latest state)
  | running {t : Attempt} (attempt : a.attempt = some t) (running : Running place t a)

section Invariant

variable {place : Place} {a a' : Attempts} {t : Attempt}

theorem Running.holds (h : Running place t a) {state : StateMap} (hholds : place.Holds a.disk state) :
    state = t.store.cache := by
  obtain ⟨dir, i, hdir, hi, hopens⟩ := hholds
  cases h.stands.lookup.symm.trans hdir
  have hdisk := h.coherent.content h.stands.opened
  simp only [onDisk, fileAt, hi, Option.map_some, Option.bind_some, h.stands.key, h.stands.limits, hopens,
    Except.toOption] at hdisk
  exact Option.some.inj hdisk

theorem Kept.agrees (h : Kept place a) {state : StateMap} (hholds : place.Holds a.disk state) :
    Agrees a.latest state := by
  cases h with
  | idle _ _ agrees => exact agrees state hholds
  | running _ running =>
    rw [running.holds hholds]
    exact running.agrees

theorem Kept.of_attempt (h : Kept place a) (hattempt : a.attempt = some t) : Running place t a := by
  cases h with
  | idle _ idle _ => cases hattempt.symm.trans idle
  | running attempt running =>
    cases hattempt.symm.trans attempt
    exact running

theorem Kept.sound (h : Kept place a) : a.disk.Sound := by
  cases h with
  | idle sound _ _ => exact sound
  | running _ running => exact running.coherent.sound

theorem Running.ends (h : Running place t a) : Kept place { a with attempt := none } :=
  .idle h.coherent.sound rfl fun state hholds => by
    rw [h.holds hholds]
    exact h.agrees

variable {d : Disk}

theorem Running.failed (h : Running place t a) (hcoherent : Coherent place.box t.store d)
    (hstands : StandsAt place.parent place.name place.key place.limits t.store d) :
    Kept place { a with disk := d, attempt := none } :=
  Running.ends (t := t) (a := { a with disk := d }) ⟨hcoherent, hstands, h.agrees, h.history⟩

variable {s : EncryptedStateStore}

theorem candidate_other {key other : String} (hne : other ≠ key) (value : Option Bytes) :
    (s.candidate other value)[key]? = s.cache[key]? := by
  have hcompare : compare other key ≠ .eq := fun heq => hne (Std.LawfulEqCmp.eq_of_compare heq)
  cases value with
  | none => simp [EncryptedStateStore.candidate, Std.ExtTreeMap.getElem?_erase, hcompare]
  | some value => simp [EncryptedStateStore.candidate, Std.ExtTreeMap.getElem?_insert, hcompare]

variable {answers : List Answer} {err : Option Err}

theorem Running.stands_write (h : Running place t a) {id : Bytes} {value : Option Bytes}
    (hrun : (t.store.writeState place.box id value).exec answers a.disk = some ((s, err), d)) :
    StandsAt place.parent place.name place.key place.limits s d :=
  (writeState_stands h.stands h.coherent.sound h.coherent.dir place.apart id value).exec hrun

variable {config : RuntimeConfig}

theorem Running.opened (h : Kept place a)
    (hrun : (openEncryptedStateStoreWithOptions place.box place.parent place.name place.key place.limits).run.exec
      answers a.disk = some (.ok s, d)) :
    Running place ⟨config, .adopted, s⟩ { a with disk := d, attempt := some ⟨config, .adopted, s⟩ } := by
  obtain ⟨hcoherent, hholds, hstands⟩ := (openEncryptedStateStore_safe _ _ _ _ h.sound).exec hrun
  exact ⟨hcoherent, hstands, h.agrees hholds, fun hne => absurd rfl hne⟩

theorem Running.created (h : Kept place a) (hparent : place.parent < a.disk.next)
    (hrun : (createEncryptedStateStoreWithOptions place.box place.parent place.name place.key place.limits).run.exec
      answers a.disk = some (.ok s, d)) :
    Running place ⟨config, .adopted, s⟩ { a with disk := d, attempt := some ⟨config, .adopted, s⟩ } := by
  obtain ⟨hcoherent, hempty, hstands⟩ := (createEncryptedStateStore_safe _ _ _ _ h.sound hparent).exec hrun
  refine ⟨hcoherent, hstands place.apart, agrees_of_absent ?_, fun hne => absurd rfl hne⟩
  simp only [hempty, Std.ExtTreeMap.getElem?_empty]

/-- Past the removal there is nothing to agree with. -/
theorem Running.cleared (h : Running place t a)
    (hrun : (clearRuntimeConfig place.box t.store).exec answers a.disk = some ((s, none), d)) :
    Running place { t with phase := .cleared, store := s }
      ⟨d, some { t with phase := .cleared, store := s }, some (t.config, false)⟩ := by
  have hwrote := (EncryptedStateStore.writeState_safe t.store _ _ h.coherent).exec hrun
  refine ⟨hwrote.coherent, h.stands_write hrun, agrees_of_absent ?_, fun _ => rfl⟩
  rw [(wrote_runtimeConfigId hwrote).2, EncryptedStateStore.candidate_find]

/-- Upstream does not reach the package's key. -/
theorem Running.upstream (h : Running place t a) {id : Bytes} {value : Option Bytes} (hid : id ≠ runtimeConfigId)
    (hrun : (t.store.writeState place.box id value).exec answers a.disk = some ((s, err), d)) :
    Running place { t with store := s } { a with disk := d, attempt := some { t with store := s } } := by
  have hwrote := (EncryptedStateStore.writeState_safe t.store _ _ h.coherent).exec hrun
  refine ⟨hwrote.coherent, h.stands_write hrun, ?_, h.history⟩
  cases err with
  | some err =>
    obtain ⟨rfl, -⟩ := hwrote.failed nofun
    exact h.agrees
  | none =>
    obtain ⟨-, -, text, htext, hcache⟩ := hwrote.succeeded rfl
    have hne : String.ofList text ≠ persistentRuntimeConfigStateKey := by
      intro heq
      refine hid ?_
      rw [← encodeUtf8_of_decodeUtf8 htext, runtimeConfigId, ← heq, String.toList_ofList]
    intro bytes hbytes
    simp only at hcache
    rw [hcache, candidate_other hne] at hbytes
    exact h.agrees bytes hbytes

/-- While the start runs nothing is stored, so that whatever it comes to agrees. -/
theorem Running.serverStarts (h : Running place t a) (hphase : t.phase = .cleared) :
    Running place { t with phase := .started }
      { a with attempt := some { t with phase := .started }, latest := some (t.config, true) } := by
  refine ⟨h.coherent, h.stands, fun bytes hbytes => ?_, fun _ => rfl⟩
  obtain ⟨config, hlatest, -⟩ := h.agrees bytes hbytes
  rw [h.history (by rw [hphase]; nofun), hphase] at hlatest
  cases hlatest

/-- A save goes through `writeState`, or leaves the store as it is. -/
theorem Running.stands_save (h : Running place t a)
    (hrun : (saveRuntimeConfig place.ipn t.store t.config).exec answers a.disk = some ((s, err), d)) :
    StandsAt place.parent place.name place.key place.limits s d := by
  unfold saveRuntimeConfig at hrun
  split at hrun
  · cases hrun
    exact h.stands
  next payload _ =>
  rcases place.ipn.writes t.store runtimeConfigId payload with hcall | ⟨-, hcall⟩
  · exact h.stands_write (hcall ▸ hrun)
  · rw [hcall] at hrun
    cases hrun
    exact h.stands

theorem Running.saved (h : Running place t a) (hphase : t.phase = .started)
    (hrun : (saveRuntimeConfig place.ipn t.store t.config).exec answers a.disk = some ((s, none), d)) :
    Running place { t with phase := .saved, store := s }
      { a with disk := d, attempt := some { t with phase := .saved, store := s } } := by
  obtain ⟨payload, hpayload, hwrote⟩ := saveRuntimeConfig_ok h.coherent hrun
  have hlatest : a.latest = some (t.config, true) := by
    have hhistory := h.history (by rw [hphase]; nofun)
    rw [hphase] at hhistory
    exact hhistory
  refine ⟨hwrote.coherent, h.stands_save hrun, fun bytes hbytes => ?_, fun _ => hlatest⟩
  simp only [(wrote_runtimeConfigId hwrote).2, EncryptedStateStore.candidate_find] at hbytes
  cases hbytes
  exact ⟨t.config, hlatest, parse_runtimeConfigPayload hpayload⟩

theorem Kept.step (h : Kept place a) (hstep : Step place a a') : Kept place a' := by
  cases hstep with
  | outside hidle hsound hkept => exact .idle hsound hidle fun state hholds => h.agrees (hkept state hholds)
  | opens hidle hrun => exact .running rfl (.opened h hrun)
  | creates hidle hparent hrun => exact .running rfl (.created h hparent hrun)
  | ends hattempt => exact (h.of_attempt hattempt).ends
  | clears hattempt hphase hrun => exact .running rfl ((h.of_attempt hattempt).cleared hrun)
  | clearFails hattempt hphase hrun =>
    have hrunning := h.of_attempt hattempt
    have hwrote := (EncryptedStateStore.writeState_safe _ _ _ hrunning.coherent).exec hrun
    obtain ⟨rfl, -⟩ := hwrote.failed nofun
    exact hrunning.failed hwrote.coherent (hrunning.stands_write hrun)
  | upstream hattempt hphase hid hrun => exact .running rfl ((h.of_attempt hattempt).upstream hid hrun)
  | serverStarts hattempt hphase => exact .running rfl ((h.of_attempt hattempt).serverStarts hphase)
  | saves hattempt hphase hrun => exact .running rfl ((h.of_attempt hattempt).saved hphase hrun)
  | saveFails hattempt hphase hrun =>
    have hrunning := h.of_attempt hattempt
    obtain ⟨hcoherent, rfl, -⟩ := saveRuntimeConfig_failed hrunning.coherent (Option.some_ne_none _) hrun
    exact hrunning.failed hcoherent (hrunning.stands_save hrun)

theorem kept_of_reachable {a0 : Attempts} (hinitial : Initial place a0)
    (h : Relation.ReflTransGen (Step place) a0 a) : Kept place a := by
  induction h with
  | refl => exact .idle hinitial.sound hinitial.idle fun state hholds => agrees_of_absent (hinitial.empty state hholds)
  | tail _ hstep ih => exact ih.step hstep

theorem Agrees.load {latest : Option (RuntimeConfig × Bool)} (h : Agrees latest s.cache)
    (hload : loadRuntimeConfig s = .ok config) : latest = some (config, true) := by
  unfold loadRuntimeConfig EncryptedStateStore.readState at hload
  split at hload
  · cases hload
  · rw [find_runtimeConfigId] at hload
    split at hload
    · cases hload
    · next bytes hbytes =>
      obtain ⟨config', hlatest, hparse⟩ := h bytes hbytes
      cases hparse.symm.trans hload
      exact hlatest

end Invariant

/-- **A stored configuration was proven by the latest start.** In every state of every sequence of attempts, a
configuration anyone reads at the place, or loads from the open store, is the one of the latest attempt that got past
the removal, and the start of that attempt has succeeded. And what a save accepts, a load returns. -/
theorem runtime_config_proven (place : Place) :
    (∀ a0 a, Initial place a0 → Relation.ReflTransGen (Step place) a0 a →
      (∀ state bytes, place.Holds a.disk state → state[persistentRuntimeConfigStateKey]? = some bytes →
        ∃ config, a.latest = some (config, true) ∧ parseRuntimeConfigMetadata bytes = .ok config) ∧
      ∀ t config, a.attempt = some t → loadRuntimeConfig t.store = .ok config → a.latest = some (config, true)) ∧
    ∀ s d config answers s' d', Reachable place.box s d →
      (saveRuntimeConfig place.ipn s config).exec answers d = some ((s', none), d') →
      loadRuntimeConfig s' = .ok config := by
  refine ⟨fun a0 a hinitial hrun => ?_, fun s d config answers s' d' hreach hrun => load_saved hreach.coherent hrun⟩
  have hkept := kept_of_reachable hinitial hrun
  refine ⟨fun state bytes hholds => hkept.agrees hholds bytes, fun t config hattempt hload => ?_⟩
  exact (hkept.of_attempt hattempt).agrees.load hload

/-- A write that first looks whether the value is there. -/
def IpnWriteState.comparing (box : SecretBox) : IpnWriteState box where
  write s id value := if s.readState id = .ok value then return (s, none) else s.writeState box id (some value)
  writes s id value := by
    split
    next hsame => exact .inr ⟨hsame, rfl⟩
    next => exact .inl rfl

/-- A place in an empty root. -/
def emptyPlace : Place where
  box := paddingBox
  ipn := .comparing _
  parent := 0
  name := "tailscale"
  key := List.Vector.replicate _ 7
  limits := defaultEncryptedStateStoreLimits
  apart := by decide

def exampleConfig : RuntimeConfig where
  hostname := encodeUtf8 "a<b".toList
  controlURL := encodeUtf8 "https://c".toList

/-- Create a store, remove the configuration, start and save, with every call succeeding. -/
def firstStart : Option ((EncryptedStateStore × Disk) × (EncryptedStateStore × Disk) ×
    (EncryptedStateStore × Disk)) := do
  let answers : List Answer := List.replicate 40 { count := 1000 }
  let (created, d1) ← (createEncryptedStateStoreWithOptions emptyPlace.box emptyPlace.parent emptyPlace.name
    emptyPlace.key emptyPlace.limits).run.exec answers emptyDisk
  let s1 ← created.toOption
  let ((s2, cleared), d2) ← (clearRuntimeConfig emptyPlace.box s1).exec answers d1
  guard cleared.isNone
  let ((s3, saved), d3) ← (saveRuntimeConfig emptyPlace.ipn s2 exampleConfig).exec answers d2
  guard saved.isNone
  return ((s1, d1), (s2, d2), (s3, d3))

theorem runtime_config_proven_first :
    ∃ a t, Relation.ReflTransGen (Step emptyPlace) ⟨emptyDisk, none, none⟩ a ∧ a.attempt = some t ∧
      loadRuntimeConfig t.store = .ok exampleConfig ∧ a.latest = some (exampleConfig, true) := by
  have hall : firstStart.isSome = true := by decide +kernel
  obtain ⟨⟨⟨s1, d1⟩, ⟨s2, d2⟩, ⟨s3, d3⟩⟩, hstart⟩ := Option.isSome_iff_exists.mp hall
  simp only [firstStart, Option.bind_eq_bind, Option.bind_eq_some_iff] at hstart
  obtain ⟨⟨created, d⟩, hcreate, s, hs, ⟨⟨s', cleared⟩, d'⟩, hclear, ⟨⟩, hcleared, ⟨⟨s'', saved⟩, d''⟩, hsave, ⟨⟩,
    hsaved, -⟩ := hstart
  cases created with
  | error err => cases hs
  | ok s0 =>
    obtain rfl : s0 = s := Option.some.inj hs
    cases cleared with
    | some err => cases hcleared
    | none =>
      cases saved with
      | some err => cases hsaved
      | none =>
        have hinitial : Initial emptyPlace ⟨emptyDisk, none, none⟩ := by
          refine ⟨emptyDisk_sound, rfl, fun state hholds => ?_⟩
          obtain ⟨dir, i, hdir, -⟩ := hholds
          cases hdir
        have hcreates : Step emptyPlace ⟨emptyDisk, none, none⟩ ⟨d, some ⟨exampleConfig, .adopted, s0⟩, none⟩ :=
          .creates rfl (by decide) hcreate
        have hclears := Step.clears (a := ⟨d, some ⟨exampleConfig, .adopted, s0⟩, none⟩) rfl rfl hclear
        have hsaves := Step.saves
          (a := ⟨d', some ⟨exampleConfig, .started, s'⟩, some (exampleConfig, true)⟩) rfl rfl hsave
        have hrun := ((Relation.ReflTransGen.single hcreates).tail hclears).tail (.serverStarts rfl rfl) |>.tail hsaves
        have hreach : Reachable emptyPlace.box s0 d := .created emptyDisk_sound (by decide) hcreate
        have hload := (runtime_config_proven emptyPlace).2 s' d' exampleConfig _ s'' d'' (.write hreach hclear) hsave
        exact ⟨_, _, hrun, rfl, hload, ((runtime_config_proven emptyPlace).1 _ _ hinitial hrun).2 _ _ rfl hload⟩

end TailscaleDart.Store
