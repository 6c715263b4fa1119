import TailscaleDart.Conc.Machine
import TailscaleDart.Publication.Tables

/-!
# Publication.Ownership — what a handle and close may touch

Other writers change the configuration between any two steps. Close and the clear of a handle work on the
configuration a Get returned, and the Set goes through only if the ETag still fits, so what a Set changed is what the
callback changed. The callback compares before it removes: a handler must be one of the recorded variants, and a Funnel
bit is switched off on evidence, a handler that was installed together with it and still is.

For close the evidence is looked at. A handle's clear takes it for granted where its token owns the visibility record;
that is right for a token that a forward has returned (`Attributed`). The token of a forward whose answer was lost is on
the record too, but no handle carries it.
-/

namespace TailscaleDart.Publication

open PublicationManager
open TailscaleDart.Conc
open TailscaleDart.Data

/-- A handler that is removed or changed is one of the variants recorded for its place. -/
def KeepsHandlers (m : PublicationManager) (before after : ServeConfig) : Prop :=
  ∀ hp path h, before.handler hp path = some h → after.handler hp path ≠ some h →
    ∃ mapping, m.mappings.lookup ⟨hp.port, path⟩ = some mapping ∧ mapping.host = hp.host ∧ h ∈ mapping.variants

/-- A Funnel bit that is switched off has evidence, whose handler is installed. -/
def KeepsFunnel (m : PublicationManager) (before after : ServeConfig) : Prop :=
  ∀ hp, before.funnelOn hp = true → after.funnelOn hp = false →
    ∃ v, m.visibility.lookup hp = some v ∧ visibilityOwnsEnabledConfig before hp v = true

/-- The configuration a Get answered. -/
def ServeEvent.base {Cfg : Type} : ServeEvent Cfg → Option (Versioned Cfg)
  | .get v => some v
  | .set _ => none

/-- Configurations of the server that a call has seen under one ETag are the same. -/
def Honest (log : List (ServeEvent ServeConfig)) : Prop :=
  ∀ base, ServeEvent.get base ∈ log → ∀ r ∈ sets log, r.before.etag = base.etag → r.before.config = base.config

instance (log : List (ServeEvent ServeConfig)) : Decidable (Honest log) :=
  decidable_of_iff
    (∀ event ∈ log, ∀ r ∈ sets log, ∀ base ∈ event.base, r.before.etag = base.etag → r.before.config = base.config)
    ⟨fun h base hget r hr => h _ hget r hr base rfl, fun h event hevent r hr base hbase => by
      cases event with
      | get v =>
        cases hbase
        exact h _ hevent r hr
      | set _ => cases hbase⟩

theorem KeepsHandlers.refl (m : PublicationManager) (sc : ServeConfig) : KeepsHandlers m sc sc :=
  fun _ _ _ hbefore hafter => absurd hbefore hafter

theorem KeepsFunnel.refl (m : PublicationManager) (sc : ServeConfig) : KeepsFunnel m sc sc := by
  intro hp hon hoff
  rw [hon] at hoff
  cases hoff

/-- What a Set changed is what its callback changed. -/
theorem Traced.changes {ω : Type} {apply : ServeConfigApply ServeConfig ω} {log : List (ServeEvent ServeConfig)}
    {R : ServeConfig → ServeConfig → Prop} (htraced : Traced apply log) (hhonest : Honest log) (hrefl : ∀ c, R c c)
    (happly : ∀ c w, (apply c w).changed = .ok true → R c (apply c w).candidate) :
    ∀ r ∈ sets log, R r.before.config r.after.config := by
  intro r hr
  obtain ⟨⟨base, w, hget, hchanged, hcandidate⟩, heffect⟩ := htraced r hr
  rcases heffect with hnot | happlied
  · have hsame : r.after = r.before := hnot
    rw [hsame]
    exact hrefl _
  · have hetag := happlied.etag
    have hinstalled := happlied.installed
    rw [hcandidate] at hetag hinstalled
    rw [hhonest base hget r hr hetag.symm, hinstalled]
    exact happly base.config w hchanged

/-! ## Close -/

section Close

variable {m : PublicationManager} {sc : ServeConfig}

theorem handler_removeServeWebHandler_cases [Ipn] (host : Text) (port : Nat) (mount : Text) (cleanup : Bool)
    (sc : ServeConfig) (hp : HostPort) (k : Text) :
    (removeServeWebHandlerWithFunnelCleanup host port mount cleanup sc).handler hp k = sc.handler hp k ∨
      hp = ⟨host, port⟩ ∧ k = mount := by
  unfold removeServeWebHandlerWithFunnelCleanup
  split
  · exact .inl rfl
  split
  · exact .inl rfl
  · next handlers hweb =>
    rw [ServeConfig.handler_removeWebHandler hweb]
    split
    · next hthis => exact .inr hthis
    · exact .inl rfl

variable {hp : HostPort}

/-- A turn of the second loop removes a recorded variant, or nothing. -/
theorem withdrawMapping_respects [Ipn] (key : PublicationKey) {path : Text} {h : HTTPHandler}
    (hbefore : sc.handler hp path = some h) (hafter : (m.withdrawMapping sc key).handler hp path ≠ some h) :
    ∃ mapping, m.mappings.lookup ⟨hp.port, path⟩ = some mapping ∧ mapping.host = hp.host ∧ h ∈ mapping.variants := by
  unfold withdrawMapping at hafter
  split at hafter
  · exact absurd hbefore hafter
  · next mapping hmapping =>
    split at hafter
    · next hmatches =>
      rcases handler_removeServeWebHandler_cases mapping.host key.port key.path false sc hp path with hsame | ⟨rfl, rfl⟩
      · rw [hsame] at hafter
        exact absurd hbefore hafter
      · obtain ⟨-, found, hvariant, hserved⟩ := mappingMatchesServeConfig_iff.mp hmatches
        obtain rfl := Option.some.inj (hserved.symm.trans hbefore)
        exact ⟨mapping, hmapping, rfl, hvariant⟩
    · exact absurd hbefore hafter

theorem withdrawMapping_loop_respects [Ipn] (order : List PublicationKey) {path : Text} {h : HTTPHandler} :
    ∀ {sc : ServeConfig}, sc.handler hp path = some h → (order.foldl m.withdrawMapping sc).handler hp path ≠ some h →
      ∃ mapping, m.mappings.lookup ⟨hp.port, path⟩ = some mapping ∧ mapping.host = hp.host ∧ h ∈ mapping.variants := by
  induction order with
  | nil => exact fun hbefore hafter => absurd hbefore hafter
  | cons key order ih =>
    intro sc hbefore hafter
    by_cases hkept : (m.withdrawMapping sc key).handler hp path = some h
    · exact ih hkept hafter
    · exact withdrawMapping_respects key hbefore hkept

theorem withdrawMapping_loop_funnelOn [Ipn] (order : List PublicationKey) (hp : HostPort) :
    ∀ sc : ServeConfig, (order.foldl m.withdrawMapping sc).funnelOn hp = sc.funnelOn hp := by
  induction order with
  | nil => exact fun _ => rfl
  | cons key order ih => exact fun sc => (ih _).trans (funnelOn_withdrawMapping key hp)

/-- The first loop switches a bit off on evidence. -/
theorem withdrawVisibility_loop_respects [Ipn] (order : List HostPort) :
    ∀ {sc : ServeConfig}, sc.funnelOn hp = true → (order.foldl m.withdrawVisibility sc).funnelOn hp = false →
      ∃ v, m.visibility.lookup hp = some v ∧ visibilityOwnsEnabledConfig sc hp v = true := by
  induction order with
  | nil =>
    intro sc hon hoff
    rw [List.foldl_nil, hon] at hoff
    cases hoff
  | cons portKey order ih =>
    intro sc hon hoff
    have hturn : (m.withdrawVisibility sc portKey).funnelOn hp = _ := funnelOn_withdrawVisibility portKey hp
    split at hturn
    · next howned =>
      obtain ⟨rfl, v, hv, howns⟩ := howned
      exact ⟨v, hv, howns⟩
    · obtain ⟨v, hv, howns⟩ := ih (hturn.trans hon) hoff
      refine ⟨v, hv, ?_⟩
      unfold visibilityOwnsEnabledConfig at howns ⊢
      simpa only [handler_withdrawVisibility] using howns

theorem sweep_keepsHandlers [Ipn] (visibilityOrder : List HostPort) (mappingOrder : List PublicationKey)
    (sc : ServeConfig) : KeepsHandlers m sc (m.sweep visibilityOrder mappingOrder sc) := by
  intro hp path h hbefore hafter
  apply withdrawMapping_loop_respects mappingOrder _ hafter
  rw [(withdrawVisibility_loop visibilityOrder sc).1]
  exact hbefore

theorem sweep_keepsFunnel [Ipn] (visibilityOrder : List HostPort) (mappingOrder : List PublicationKey)
    (sc : ServeConfig) : KeepsFunnel m sc (m.sweep visibilityOrder mappingOrder sc) := by
  intro hp hon hoff
  unfold PublicationManager.sweep at hoff
  rw [withdrawMapping_loop_funnelOn] at hoff
  exact withdrawVisibility_loop_respects visibilityOrder hon hoff

theorem close_traced [Ipn] {e : CloseEnv} {server : Versioned ServeConfig} {result : Option Error}
    {m' : PublicationManager}
    {s : ServeState ServeConfig} (h : m.close e server = some ((result, m'), s)) : Traced (m.closeApply e) s.log := by
  have hcases := close_cases (S := .any) trivial e.answers.context h
  cases hcases with
  | already _ _ => exact nofun
  | nothing _ _ => exact nofun
  | refused htraced _ => exact htraced
  | confirmed _ _ htraced _ _ => exact htraced
  | indeterminate _ _ htraced => exact htraced

end Close

/-! ## The clear of a handle -/

/-- The records of tokens that forwards have returned: where such a token owns the visibility of its `host:port`, each
of its variants is evidence. -/
structure Attributed (m : PublicationManager) (returned : List Nat) : Prop where
  issued : ∀ t ∈ returned, t ≤ m.nextMappingToken
  bounded : ∀ key mapping, m.mappings.lookup key = some mapping → mapping.token ≤ m.nextMappingToken
  distinct : ∀ key key' mapping mapping', m.mappings.lookup key = some mapping →
    m.mappings.lookup key' = some mapping' → mapping.token = mapping'.token → key = key'
  evident : ∀ key mapping v, m.mappings.lookup key = some mapping → mapping.token ∈ returned →
    m.visibility.lookup ⟨mapping.host, key.port⟩ = some v → v.token = mapping.token →
    ∀ h ∈ mapping.variants, ⟨key, h, v.funnel⟩ ∈ v.evidence

section Clear

variable {m m' : PublicationManager} {returned : List Nat} {s : ServeState ServeConfig} {token : Nat}
  {payload : ServeClearPayload} {plan : ClearPlan}

theorem exactApply_respects [Ipn] (hattributed : Attributed m returned) {key : PublicationKey}
    (hkey : clearKey payload = .ok key) (hplan : m.planExact token key = some plan) (c : ServeConfig) (w : Unit)
    (hchanged : (clearApply plan c w).changed = .ok true) : KeepsHandlers m c (clearApply plan c w).candidate ∧
      (token ∈ returned → KeepsFunnel m c (clearApply plan c w).candidate) := by
  obtain ⟨hexact, rfl, hmapping, hown, hhost, hcleanup, howns, hfunnel⟩ := planExact_ok hplan
  rcases clearApply_cases plan c w with ⟨err, heq, -⟩ | ⟨-, -, heq⟩ | ⟨hmatches, heq⟩
  · rw [heq] at hchanged
    cases hchanged
  · rw [heq] at hchanged
    cases hchanged
  rw [heq]
  obtain ⟨hnonempty, h, hvariant, hserved⟩ := mappingMatchesServeConfig_iff.mp (hmatches hexact)
  rw [← hhost] at hserved hnonempty
  have hremovable : Removable plan.host plan.key := ⟨hnonempty, (clearKey_ok hkey).1, (clearKey_ok hkey).2⟩
  constructor
  · intro hp path found hbefore hafter
    rw [ClearPlan.handler_apply hremovable] at hafter
    split at hafter
    · next hthis =>
      obtain ⟨rfl, rfl⟩ := hthis
      have hserved : c.handler plan.visibilityKey plan.key.path = some h := hserved
      obtain rfl := Option.some.inj (hserved.symm.trans hbefore)
      exact ⟨plan.mapping, hmapping, hhost.symm, hvariant⟩
    · exact absurd hbefore hafter
  · intro htoken hp hon hoff
    have hthis : hp = plan.visibilityKey := by
      by_contra hother
      rw [ClearPlan.funnelOn_apply_other hother, hon] at hoff
      cases hoff
    subst hthis
    have hasked : plan.funnel = true := by
      by_contra hno
      have hno : plan.funnel = false := Bool.eq_false_iff.mpr hno
      rw [ClearPlan.funnelOn_apply_kept hno (.inl (hcleanup.trans hno)), hon] at hoff
      cases hoff
    obtain ⟨v, hv, hvtoken, hvfunnel⟩ := hfunnel.mp hasked
    have hevidence := hattributed.evident plan.key plan.mapping v hmapping (by rw [hown]; exact htoken)
      (by rw [← hhost]; exact hv) (hvtoken.trans hown.symm) h hvariant
    rw [hvfunnel] at hevidence
    exact ⟨v, hv, visibilityOwnsEnabledConfig_iff.mpr ⟨_, hevidence, rfl, rfl, hserved⟩⟩

theorem Attributed.issue (h : Attributed m returned) : Attributed m.issued returned :=
  { h with
    issued t ht := (h.issued t ht).trans (Nat.le_succ _)
    bounded key mapping hmapping := (h.bounded key mapping hmapping).trans (Nat.le_succ _) }

/-- A forward that recorded its token, returned or not. Only the evidence of a token that was returned is owed. -/
theorem Attributed.recorded (h : Attributed m returned) {key : PublicationKey} {hp : HostPort}
    {mapping : PublicationMapping} {v : PublicationVisibility} {returned' : List Nat}
    (hmappings : m'.mappings = m.mappings.insert key mapping) (hvisibility : m'.visibility = m.visibility.insert hp v)
    (hnext : m'.nextMappingToken = m.nextMappingToken + 1) (htoken : mapping.token = m.nextMappingToken + 1)
    (hvtoken : v.token = m.nextMappingToken + 1)
    (hreturned : ∀ t ∈ returned', t = m.nextMappingToken + 1 ∨ t ∈ returned)
    (hevident : m.nextMappingToken + 1 ∈ returned' → hp = ⟨mapping.host, key.port⟩ ∧
      ∀ found ∈ mapping.variants, ⟨key, found, v.funnel⟩ ∈ v.evidence) : Attributed m' returned' where
  issued := by
    intro t ht
    rw [hnext]
    rcases hreturned t ht with rfl | hold
    · exact le_rfl
    · exact (h.issued t hold).trans (Nat.le_succ _)
  bounded := by
    intro other found hfound
    rw [hnext]
    rw [hmappings, lookup_insert_ite] at hfound
    split at hfound
    · cases hfound
      exact htoken.le
    · exact (h.bounded other found hfound).trans (Nat.le_succ _)
  distinct := by
    have hfresh : ∀ other found, m.mappings.lookup other = some found → found.token ≠ mapping.token := by
      intro other found hfound heq
      have hbound := h.bounded other found hfound
      omega
    intro k k' found found' hfound hfound' heq
    rw [hmappings, lookup_insert_ite] at hfound hfound'
    split at hfound <;> split at hfound'
    · next hk hk' => rw [hk, hk']
    · cases hfound
      exact absurd heq.symm (hfresh k' found' hfound')
    · cases hfound'
      exact absurd heq (hfresh k found hfound)
    · exact h.distinct k k' found found' hfound hfound' heq
  evident := by
    intro other found old hfound hreturn hold holdtoken
    rw [hmappings, lookup_insert_ite] at hfound
    rw [hvisibility, lookup_insert_ite] at hold
    split at hfound
    · next hkey =>
      cases hfound
      subst hkey
      rw [htoken] at hreturn
      obtain ⟨rfl, hall⟩ := hevident hreturn
      rw [if_pos rfl] at hold
      cases hold
      exact hall
    · have hbound := h.bounded other found hfound
      split at hold
      · cases hold
        omega
      · rcases hreturned _ hreturn with hnew | hback
        · omega
        · exact h.evident other found old hfound hback hold holdtoken

theorem Attributed.erased (h : Attributed m returned)
    (hmappings : m'.mappings = m.mappings.erase plan.key) (hnext : m'.nextMappingToken = m.nextMappingToken)
    (hevident : ∀ key mapping v, key ≠ plan.key → m.mappings.lookup key = some mapping → mapping.token ∈ returned →
      m'.visibility.lookup ⟨mapping.host, key.port⟩ = some v → v.token = mapping.token →
      ∀ found ∈ mapping.variants, ⟨key, found, v.funnel⟩ ∈ v.evidence) : Attributed m' returned where
  issued t ht := (h.issued t ht).trans hnext.ge
  bounded := by
    intro key mapping hmapping
    rw [hmappings] at hmapping
    exact (h.bounded key mapping (lookup_of_erase hmapping).2).trans hnext.ge
  distinct := by
    intro key key' mapping mapping' hmapping hmapping'
    rw [hmappings] at hmapping hmapping'
    exact h.distinct key key' mapping mapping' (lookup_of_erase hmapping).2 (lookup_of_erase hmapping').2
  evident := by
    intro key mapping v hmapping
    rw [hmappings] at hmapping
    obtain ⟨hne, hmapping⟩ := lookup_of_erase hmapping
    exact hevident key mapping v hne hmapping

theorem Attributed.recordClear (h : Attributed m returned) {order : List PublicationKey}
    (hranges : ranges order (m.mappings.erase plan.key) = true) : Attributed (m.recordClear plan order) returned := by
  apply h.erased (recordClear_mappings _ _ _) (recordClear_nextMappingToken _ _ _)
  intro key mapping v hne hmapping hreturned hv htoken found hfound
  -- the record of a port the clear does not touch, or touches by deleting it
  have hold : m.visibility.lookup ⟨mapping.host, key.port⟩ = some v → ⟨key, found, v.funnel⟩ ∈ v.evidence :=
    fun hbefore => h.evident key mapping v hmapping hreturned hbefore htoken found hfound
  have herase : (m.visibility.erase plan.visibilityKey).lookup ⟨mapping.host, key.port⟩ = some v →
      ⟨key, found, v.funnel⟩ ∈ v.evidence := fun hafter => hold (lookup_of_erase hafter).2
  cases hexact : plan.exact with
  | true =>
    rw [recordClear_visibility_exact m order hexact] at hv
    split at hv
    · exact herase hv
    · exact hold hv
  | false =>
    cases hfunnel : plan.funnel with
    | true =>
      have hvisibility : (m.recordClear plan order).visibility = m.visibility.erase plan.visibilityKey := by
        unfold PublicationManager.recordClear
        simp [hexact, hfunnel, cancelPendingDeliveryLocked]
      rw [hvisibility] at hv
      exact herase hv
    | false =>
      obtain ⟨hothers, htransferred⟩ := recordClear_transferred hexact hfunnel hranges
      by_cases hport : (⟨mapping.host, key.port⟩ : HostPort) = plan.visibilityKey
      · rw [hport] at hv hold
        rw [hv] at htransferred
        generalize hafter : some v = after at htransferred
        cases htransferred with
        | same _ => exact hold hafter.symm
        | @filtered old hbefore _ =>
          cases hafter
          have hevidence := h.evident key mapping old hmapping hreturned
            (by rw [hport]; exact hbefore) htoken found hfound
          exact List.mem_filter.mpr ⟨hevidence, decide_eq_true hne⟩
        | erased _ _ _ => cases hafter
        | @transferred old rk replacement hbefore _ hon _ =>
          cases hafter
          obtain rfl := h.distinct _ _ _ _ hon.1 hmapping htoken
          obtain rfl := Option.some.inj (hon.1.symm.trans hmapping)
          exact mem_visibilityEvidence.mpr ⟨rfl, rfl, hfound⟩
      · rw [hothers _ hport] at hv
        exact hold hv

/-- The Sets of a handle's clear. -/
theorem exactClear_respects [Ipn] (hattributed : Attributed m returned) {e : ClearEnv} {generation : Nat}
    (hmode : payload.clearMode = .ok (.exact generation token)) {server : Versioned ServeConfig} {result : Option Error}
    (h : m.clear payload e server = some ((result, m'), s)) (hhonest : Honest s.log) :
    ∀ r ∈ sets s.log, KeepsHandlers m r.before.config r.after.config ∧
      (token ∈ returned → KeepsFunnel m r.before.config r.after.config) := by
  have hplanned : ∀ plan, Planned payload e m plan → Traced (clearApply plan) s.log →
      ∀ r ∈ sets s.log, KeepsHandlers m r.before.config r.after.config ∧
        (token ∈ returned → KeepsFunnel m r.before.config r.after.config) := by
    intro plan hplan htraced
    apply htraced.changes (R := fun c c' => KeepsHandlers m c c' ∧ (token ∈ returned → KeepsFunnel m c c')) hhonest
      fun c => ⟨.refl m c, fun _ => .refl m c⟩
    cases hplan with
    | exact hmode' hkey hplan =>
      rw [hmode] at hmode'
      cases hmode'
      exact exactApply_respects hattributed hkey hplan
    | coordinate hmode' _ _ =>
      rw [hmode] at hmode'
      cases hmode'
  have hcases := clear_cases (S := .any) trivial e.answers.context h
  cases hcases with
  | idle _ _ => exact nofun
  | refused _ _ hplan htraced _ | confirmed _ hplan htraced _ _ _ | indeterminate _ _ _ hplan htraced _ _ =>
    exact hplanned _ hplan htraced

/-- A handle that is stale or superseded asks nothing of the server. -/
theorem staleClear_idle [Ipn] {generation : Nat} (hmode : payload.clearMode = .ok (.exact generation token))
    (hstale : generation ≠ m.generation ∨
      ∀ key, clearKey payload = .ok key → (m.mappings.lookup key).map (·.token) ≠ some token)
    (e : ClearEnv) (server : Versioned ServeConfig) :
    ∃ result, m.clear payload e server = some ((result, m), ⟨server, []⟩) := by
  unfold clear
  simp only [hmode]
  split
  · exact ⟨_, rfl⟩
  next hgeneration =>
  split
  · exact ⟨_, rfl⟩
  split
  · exact ⟨_, rfl⟩
  next key hkey =>
  have hnone : m.planExact token key = none := by
    unfold planExact
    split
    · rfl
    · next mapping hmapping =>
      apply if_pos
      intro heq
      rcases hstale with hother | hsuperseded
      · exact hgeneration hother
      · apply hsuperseded key hkey
        rw [hmapping, ← heq]
        rfl
  rw [hnone]
  exact ⟨_, rfl⟩

end Clear

/-! ## Histories -/

/-- The manager, the configuration it shares with other writers, and the tokens its forwards have returned. -/
structure Shared where
  manager : PublicationManager
  server : Versioned ServeConfig
  returned : List Nat := []

inductive SharedAction where
  | forward (up : Upstream) (payload : ServeForwardPayload) (e : ForwardEnv)
  | clear (payload : ServeClearPayload) (e : ClearEnv)
  | close (e : CloseEnv)
  | external (v : Versioned ServeConfig)

namespace Shared

def start (generation : Nat) (server : Versioned ServeConfig) : Shared where
  manager := { generation := generation }
  server := server

def step [Ipn] (w : Shared) : SharedAction → Option Shared
  | .forward up payload e =>
    (w.manager.forward up payload e w.server).map fun ((result, m), s) =>
      { manager := m
        server := s.server
        returned := match result with
          | .ok publication => publication.mappingToken :: w.returned
          | .error _ => w.returned }
  | .clear payload e =>
    (w.manager.clear payload e w.server).map fun ((_, m), s) => { w with manager := m, server := s.server }
  | .close e => (w.manager.close e w.server).map fun ((_, m), s) => { w with manager := m, server := s.server }
  | .external v => some { w with server := v }

variable {w w' : Shared}

theorem attributed_start (generation : Nat) (server : Versioned ServeConfig) :
    Attributed (start generation server).manager (start generation server).returned where
  issued := nofun
  bounded := nofun
  distinct := nofun
  evident := nofun

theorem forward_attributed [Ipn] (h : Attributed w.manager w.returned) {up : Upstream} {payload : ServeForwardPayload}
    {e : ForwardEnv} (hstep : w.step (.forward up payload e) = some w') : Attributed w'.manager w'.returned := by
  obtain ⟨⟨⟨result, m'⟩, s⟩, hcall, rfl⟩ := Option.map_eq_some_iff.mp hstep
  have hcases := forward_cases (S := .any) trivial e.answers.context hcall
  cases hcases with
  | refused _ hm' _ =>
    rcases hm' with rfl | rfl
    · exact h
    · exact h.issue
  | @confirmed status c plan _ _ _ _ _ _ _ _ _ hfinish =>
    have hrecorded := finishForward_recorded hfinish
    apply h.recorded hrecorded.mappings hrecorded.visibility hrecorded.nextMappingToken rfl rfl
    · intro t ht
      cases result with
      | error _ => exact .inr ht
      | ok publication =>
        rcases List.mem_cons.mp ht with rfl | hold
        · rw [finishForward_publication hfinish]
          exact .inl rfl
        · exact .inr hold
    · intro _
      refine ⟨rfl, ?_⟩
      intro found hfound
      rw [List.mem_singleton.mp hfound]
      exact List.mem_singleton_self _
  | @indeterminate err status c plan _ _ _ _ _ _ _ _ _ =>
    obtain ⟨variants, evidence, htables, -, -⟩ := recordIndeterminateForward_tables plan payload w.manager
    rw [htables]
    apply h.recorded rfl rfl rfl rfl rfl
    · exact fun t ht => .inr ht
    · exact fun hnew => absurd (h.issued _ hnew) (Nat.not_succ_le_self _)

theorem step_attributed [Ipn] (h : Attributed w.manager w.returned) {a : SharedAction} (hstep : w.step a = some w') :
    Attributed w'.manager w'.returned := by
  cases a with
  | forward up payload e => exact forward_attributed h hstep
  | clear payload e =>
    obtain ⟨⟨⟨result, m'⟩, s⟩, hcall, rfl⟩ := Option.map_eq_some_iff.mp hstep
    have hcases := clear_cases (S := .any) trivial e.answers.context hcall
    cases hcases with
    | idle _ _ => exact h
    | refused _ _ _ _ _ => exact h
    | confirmed _ _ _ _ _ hranges => exact h.recordClear hranges
    | indeterminate _ _ _ _ _ _ _ => exact h
  | close e =>
    obtain ⟨⟨⟨result, m'⟩, s⟩, hcall, rfl⟩ := Option.map_eq_some_iff.mp hstep
    have hemptied : Attributed w.manager.emptied w.returned := ⟨h.issued, nofun, nofun, nofun⟩
    have hcases := close_cases (S := .any) trivial e.answers.context hcall
    cases hcases with
    | already _ _ => exact h
    | nothing _ _ => exact hemptied
    | refused _ _ => exact hemptied
    | confirmed _ _ _ _ _ => exact hemptied
    | indeterminate _ _ _ => exact hemptied
  | external v =>
    cases hstep
    exact h

theorem attributed_of_reachable [Ipn] {generation : Nat} {server : Versioned ServeConfig}
    (h : Machine.Reachable step (fun _ _ => True) (start generation server) w) : Attributed w.manager w.returned :=
  h.invariant (attributed_start generation server) fun _ _ _ h _ hstep => step_attributed h hstep

/-- In every history: close and the clear of a handle remove only recorded variants; close, and the clear of a handle
that a forward returned, switch off only bits with evidence; a handle that is stale or superseded asks nothing of the
server. -/
theorem handles_and_close_respect_others [Ipn] {generation : Nat} {server : Versioned ServeConfig} {w : Shared}
    (hrun : Machine.Reachable step (fun _ _ => True) (start generation server) w) :
    (∀ payload e g token result m' s, payload.clearMode = .ok (.exact g token) →
      w.manager.clear payload e w.server = some ((result, m'), s) → Honest s.log →
      ∀ r ∈ sets s.log, KeepsHandlers w.manager r.before.config r.after.config ∧
        (token ∈ w.returned → KeepsFunnel w.manager r.before.config r.after.config)) ∧
    (∀ e result m' s, w.manager.close e w.server = some ((result, m'), s) → Honest s.log →
      ∀ r ∈ sets s.log, KeepsHandlers w.manager r.before.config r.after.config ∧
        KeepsFunnel w.manager r.before.config r.after.config) ∧
    ∀ payload e g token, payload.clearMode = .ok (.exact g token) → (g ≠ w.manager.generation ∨
        ∀ key, clearKey payload = .ok key → (w.manager.mappings.lookup key).map (·.token) ≠ some token) →
      ∃ result, w.manager.clear payload e w.server = some ((result, w.manager), ⟨w.server, []⟩) := by
  have h := attributed_of_reachable hrun
  refine ⟨?_, ?_, ?_⟩
  · intro payload e g token result m' s hmode hcall hhonest
    exact exactClear_respects h hmode hcall hhonest
  · intro e result m' s hcall hhonest r hr
    constructor
    · exact (close_traced hcall).changes hhonest (.refl w.manager) (fun c _ _ => sweep_keepsHandlers _ _ c) r hr
    · exact (close_traced hcall).changes hhonest (.refl w.manager) (fun c _ _ => sweep_keepsFunnel _ _ c) r hr
  · intro payload e g token hmode hstale
    exact staleClear_idle hmode hstale e w.server

/-- The clear of the handle with token `token` on `(443, "/")`. -/
def clearRoot (token : Nat) : ServeClearPayload where
  tailnetPort := 443
  path := "/".toList
  generation := some 7
  mappingToken := some token

def clearRootEnv : ClearEnv := Quiet.clearEnv "n.ts.net."

def root : HostPort := ⟨"n.ts.net".toList, 443⟩

theorem root_handle_respects_others :
    ∃ w s result m', Machine.Reachable step (fun _ _ => True) (start 7 ⟨{}, "e1"⟩) w ∧ w.returned = [1] ∧
      w.manager.clear (clearRoot 1) clearRootEnv w.server = some ((result, m'), s) ∧
      ∃ r ∈ sets s.log, r.before.config.funnelOn root = true ∧ r.after.config.funnelOn root = false ∧
        KeepsHandlers w.manager r.before.config r.after.config ∧
        KeepsFunnel w.manager r.before.config r.after.config := by
  have hall : ((start 7 ⟨{}, "e1"⟩).step (.forward Quiet.upstream (Quiet.payload 443 "/" 3000 true)
        (Quiet.forwardEnv "n.ts.net." none false))).bind (fun w =>
      (w.manager.clear (clearRoot 1) clearRootEnv w.server).map fun (_, s) =>
        (w.returned, decide (Honest s.log),
          (sets s.log).map fun r => (r.before.config.funnelOn root, r.after.config.funnelOn root))) =
      some ([1], true, [(true, false)]) := by decide +kernel
  obtain ⟨w, hw, hall⟩ := Option.bind_eq_some_iff.mp hall
  obtain ⟨⟨⟨result, m'⟩, s⟩, hclear, hfacts⟩ := Option.map_eq_some_iff.mp hall
  obtain ⟨hreturned, hfacts⟩ := Prod.mk.inj hfacts
  obtain ⟨hhonest, hsets⟩ := Prod.mk.inj hfacts
  obtain ⟨r, hr, hbits⟩ := List.mem_map.mp (hsets ▸ List.mem_singleton_self (true, false))
  obtain ⟨hon, hoff⟩ := Prod.mk.inj hbits
  have hrun : Machine.Reachable step (fun _ _ => True) (start 7 ⟨{}, "e1"⟩) w := .next .start _ trivial hw
  have hrespects := (handles_and_close_respect_others hrun).1 (clearRoot 1) clearRootEnv 7 1 result m' s rfl hclear
    (of_decide_eq_true hhonest) r hr
  exact ⟨w, s, result, m', hrun, hreturned, hclear, r, hr, hon, hoff, hrespects.1,
    hrespects.2 (by rw [hreturned]; decide)⟩

end Shared

end TailscaleDart.Publication
