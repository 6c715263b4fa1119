import TailscaleDart.Publication.Calls

/-!
# Publication.Tables — what the manager's records say of the server's configuration

Two relations between the records and a configuration that nobody else writes.

`Synced`: the records describe it exactly. Each handler is the one variant of its record, each Funnel bit that is on has
a visibility record that says so, and a visibility record belongs to a mapping that is installed.

`Loose`: nothing of it is missing from the records. Each handler is a recorded variant, and each Funnel bit that is on
has evidence whose handler is installed. This is all that `close` needs (`Loose.sweep`), and all that is left after a
Set whose answer was lost.
-/

namespace TailscaleDart.Publication

open PublicationManager
open TailscaleDart.Data

/-! ## Clears, observed -/

section Removal

variable {host : Text} {port : Nat} {mount : Text}

theorem handler_removeServeWebHandler [Ipn] (hhost : host ≠ []) (hport : port ≠ 0) (hmount : mount ≠ [])
    (cleanup : Bool) (sc : ServeConfig) (hp : HostPort) (k : Text) :
    (removeServeWebHandlerWithFunnelCleanup host port mount cleanup sc).handler hp k =
      if hp = ⟨host, port⟩ ∧ k = mount then none else sc.handler hp k := by
  unfold removeServeWebHandlerWithFunnelCleanup
  rw [if_neg (by simp [hhost, hport, hmount])]
  cases hweb : sc.web.lookup ⟨host, port⟩ with
  | none =>
    by_cases hthis : hp = ⟨host, port⟩ ∧ k = mount
    · rw [if_pos hthis, hthis.1]
      simp [ServeConfig.handler, hweb]
    · rw [if_neg hthis]
  | some handlers => exact ServeConfig.handler_removeWebHandler hweb mount cleanup hp k

variable {sc : ServeConfig}

theorem funnelOn_removeServeWebHandler_le [Ipn] {cleanup : Bool} {hp : HostPort}
    (h : (removeServeWebHandlerWithFunnelCleanup host port mount cleanup sc).funnelOn hp = true) :
    sc.funnelOn hp = true := by
  unfold removeServeWebHandlerWithFunnelCleanup at h
  split at h
  · exact h
  split at h
  · exact h
  · next handlers hweb =>
    rw [ServeConfig.funnelOn_removeWebHandler hweb] at h
    split at h
    · cases h
    · exact h

/-- A bit stays while another mount of the `host:port` is served, and everywhere else. -/
theorem funnelOn_removeServeWebHandler_of_ne [Ipn] {cleanup : Bool} {hp : HostPort}
    (h : cleanup = false ∨ hp ≠ ⟨host, port⟩ ∨ ∃ k, k ≠ mount ∧ (sc.handler hp k).isSome) :
    (removeServeWebHandlerWithFunnelCleanup host port mount cleanup sc).funnelOn hp = sc.funnelOn hp := by
  unfold removeServeWebHandlerWithFunnelCleanup
  split
  · rfl
  split
  · rfl
  · next handlers hweb =>
    rw [ServeConfig.funnelOn_removeWebHandler hweb]
    apply if_neg
    rintro ⟨hcleanup, rfl, hempty⟩
    rcases h with hno | hother | ⟨k, hk, hsome⟩
    · rw [hno] at hcleanup
      cases hcleanup
    · exact hother rfl
    · -- the other mount survives the deletion, so the handlers are not empty
      have hleft : (handlers.erase mount).lookup k = none := by
        rw [hempty, Finmap.lookup_empty]
      rw [Finmap.lookup_erase_ne hk] at hleft
      simp [ServeConfig.handler, hweb, hleft] at hsome

theorem funnelOn_removeServeWebHandler_last [Ipn] (hhost : host ≠ []) (hport : port ≠ 0) (hmount : mount ≠ [])
    (hserved : (sc.handler ⟨host, port⟩ mount).isSome) (hlast : ∀ k, k ≠ mount → sc.handler ⟨host, port⟩ k = none) :
    (removeServeWebHandlerWithFunnelCleanup host port mount true sc).funnelOn ⟨host, port⟩ = false := by
  unfold removeServeWebHandlerWithFunnelCleanup
  rw [if_neg (by simp [hhost, hport, hmount])]
  cases hweb : sc.web.lookup ⟨host, port⟩ with
  | none => simp [ServeConfig.handler, hweb] at hserved
  | some handlers =>
    have hempty : handlers.erase mount = ∅ := by
      apply ServeConfig.handlers_eq_empty
      intro k
      by_cases hk : k = mount
      · rw [hk, Finmap.lookup_erase]
      · rw [Finmap.lookup_erase_ne hk]
        have hnone := hlast k hk
        simpa [ServeConfig.handler, hweb] using hnone
    show (sc.removeWebHandler host port mount true).funnelOn ⟨host, port⟩ = false
    rw [ServeConfig.funnelOn_removeWebHandler hweb, if_pos ⟨rfl, rfl, hempty⟩]

end Removal

/-- A coordinate under a host that a handler can be removed from. -/
structure Removable (host : Text) (key : PublicationKey) : Prop where
  host : host ≠ []
  port : key.port ≠ 0
  path : key.path ≠ []

theorem serveHostFromStatus_ne_nil {status : Status} {host : Text} (h : serveHostFromStatus status = .ok host) :
    host ≠ [] := by
  unfold serveHostFromStatus at h
  split at h
  · cases h
  · simp only at h
    split at h <;> split at h
    · cases h
    · next hname =>
      cases h
      simpa using hname
    · cases h
    · next hname =>
      cases h
      simpa using hname

theorem clearKey_ok {payload : ServeClearPayload} {key : PublicationKey} (h : clearKey payload = .ok key) :
    key.port ≠ 0 ∧ key.path ≠ [] := by
  unfold clearKey at h
  obtain ⟨port, hport, h⟩ := bind_ok h
  obtain ⟨path, hpath, h⟩ := bind_ok h
  cases h
  constructor
  · unfold validateServePort at hport
    split at hport
    · cases hport
    · cases hport
      show payload.tailnetPort.toNat ≠ 0
      omega
  · unfold normalizeServePath at hpath
    simp only at hpath
    split at hpath
    · cases hpath
      exact List.cons_ne_nil _ _
    · next hne =>
      split at hpath
      · cases hpath
      split at hpath
      · cases hpath
      split at hpath
      · cases hpath
      · cases hpath
        simpa using hne

theorem clearHost_ok {e : ClearEnv} {host : Text} (h : clearHost e = .ok host) :
    ∃ status, e.status = .ok status ∧ serveHostFromStatus status = .ok host := by
  unfold clearHost at h
  split at h
  · cases h
  · cases h
  · next status _ hstatus => exact ⟨status, hstatus, h⟩

theorem Removable.coordinate {payload : ServeClearPayload} {e : ClearEnv} {key : PublicationKey} {host : Text}
    (hkey : clearKey payload = .ok key) (hhost : clearHost e = .ok host) : Removable host key := by
  obtain ⟨hport, hpath⟩ := clearKey_ok hkey
  obtain ⟨status, -, hname⟩ := clearHost_ok hhost
  exact ⟨serveHostFromStatus_ne_nil hname, hport, hpath⟩

namespace PublicationManager.ClearPlan

variable {plan : ClearPlan}

theorem handler_apply [Ipn] (h : Removable plan.host plan.key) (sc : ServeConfig) (hp : HostPort) (k : Text) :
    (plan.apply sc).handler hp k = if hp = plan.visibilityKey ∧ k = plan.key.path then none else sc.handler hp k := by
  unfold apply
  rw [handler_removeServeWebHandler h.host h.port h.path]
  split
  · next hthis => exact (if_pos hthis).symm
  · next hother =>
    refine Eq.trans ?_ (if_neg hother).symm
    split
    · rw [ServeConfig.handler_setFunnel]
    · rfl

variable {hp : HostPort} {sc : ServeConfig}

theorem handler_of_apply [Ipn] (h : Removable plan.host plan.key) {k : Text}
    {handler : HTTPHandler} (hafter : (plan.apply sc).handler hp k = some handler) :
    ¬ (hp = plan.visibilityKey ∧ k = plan.key.path) ∧ sc.handler hp k = some handler := by
  rw [handler_apply h] at hafter
  split at hafter
  · cases hafter
  · next hother => exact ⟨hother, hafter⟩

theorem funnelOn_of_apply [Ipn] (h : (plan.apply sc).funnelOn hp = true) :
    sc.funnelOn hp = true ∧ ¬ (plan.funnel = true ∧ hp = plan.visibilityKey) := by
  have hbefore := funnelOn_removeServeWebHandler_le h
  split at hbefore
  · rw [ServeConfig.funnelOn_setFunnel] at hbefore
    split at hbefore
    · cases hbefore
    · next hother => exact ⟨hbefore, fun hthis => hother hthis.2⟩
  · next hno => exact ⟨hbefore, fun hthis => hno hthis.1⟩

theorem funnelOn_apply_off [Ipn] (h : plan.funnel = true) : (plan.apply sc).funnelOn plan.visibilityKey = false := by
  by_contra hon
  exact (funnelOn_of_apply (by simpa using hon)).2 ⟨h, rfl⟩

theorem funnelOn_apply_other [Ipn] (h : hp ≠ plan.visibilityKey) : (plan.apply sc).funnelOn hp = sc.funnelOn hp := by
  unfold apply
  rw [funnelOn_removeServeWebHandler_of_ne (.inr (.inl h))]
  split
  · rw [ServeConfig.funnelOn_setFunnel]
    exact if_neg h
  · rfl

/-- A clear that is not asked for the bit leaves it while another path of the `host:port` is served. -/
theorem funnelOn_apply_kept [Ipn] (hfunnel : plan.funnel = false)
    (h : plan.cleanupFunnelWhenEmpty = false ∨ ∃ k, k ≠ plan.key.path ∧ (sc.handler plan.visibilityKey k).isSome) :
    (plan.apply sc).funnelOn plan.visibilityKey = sc.funnelOn plan.visibilityKey := by
  unfold apply
  rw [if_neg (by simp [hfunnel])]
  apply funnelOn_removeServeWebHandler_of_ne
  rcases h with hno | hother
  · exact .inl hno
  · exact .inr (.inr hother)

theorem funnelOn_apply_last [Ipn] (hremovable : Removable plan.host plan.key) (hfunnel : plan.funnel = false)
    (hcleanup : plan.cleanupFunnelWhenEmpty = true) (hserved : (sc.handler plan.visibilityKey plan.key.path).isSome)
    (hlast : ∀ k, k ≠ plan.key.path → sc.handler plan.visibilityKey k = none) :
    (plan.apply sc).funnelOn plan.visibilityKey = false := by
  unfold apply
  rw [if_neg (by simp [hfunnel]), hcleanup]
  exact funnelOn_removeServeWebHandler_last hremovable.host hremovable.port hremovable.path hserved hlast

end PublicationManager.ClearPlan

/-! ## The two relations -/

/-- Each handler is a recorded variant. -/
structure Covered (m : PublicationManager) (sc : ServeConfig) : Prop where
  removable : ∀ key mapping, m.mappings.lookup key = some mapping → Removable mapping.host key
  recorded : ∀ hp path h, sc.handler hp path = some h →
    ∃ mapping, m.mappings.lookup ⟨hp.port, path⟩ = some mapping ∧ mapping.host = hp.host ∧ h ∈ mapping.variants

structure Loose (m : PublicationManager) (sc : ServeConfig) : Prop extends Covered m sc where
  evident : ∀ hp, sc.funnelOn hp = true →
    ∃ v, m.visibility.lookup hp = some v ∧ visibilityOwnsEnabledConfig sc hp v = true

/-- The visibility record belongs to a mapping of its `host:port`. -/
def OwnedBy (m : PublicationManager) (hp : HostPort) (v : PublicationVisibility) (key : PublicationKey)
    (mapping : PublicationMapping) : Prop :=
  m.mappings.lookup key = some mapping ∧ key.port = hp.port ∧ mapping.host = hp.host ∧ mapping.token = v.token ∧
    v.evidence = visibilityEvidence key mapping v.funnel

structure Synced (m : PublicationManager) (sc : ServeConfig) : Prop where
  removable : ∀ key mapping, m.mappings.lookup key = some mapping → Removable mapping.host key
  recorded : ∀ hp path h, sc.handler hp path = some h →
    ∃ mapping, m.mappings.lookup ⟨hp.port, path⟩ = some mapping ∧ mapping.host = hp.host ∧ mapping.variants = [h]
  installed : ∀ key mapping, m.mappings.lookup key = some mapping →
    ∃ h, mapping.variants = [h] ∧ sc.handler ⟨mapping.host, key.port⟩ key.path = some h
  funnel : ∀ hp, sc.funnelOn hp = true ↔ ∃ v, m.visibility.lookup hp = some v ∧ v.funnel = true
  owner : ∀ hp v, m.visibility.lookup hp = some v → ∃ key mapping, OwnedBy m hp v key mapping
  counted : ∀ key mapping, m.mappings.lookup key = some mapping → 0 < mapping.token ∧ mapping.token ≤ m.nextMappingToken
  distinct : ∀ key key' mapping mapping', m.mappings.lookup key = some mapping →
    m.mappings.lookup key' = some mapping' → mapping.token = mapping'.token → key = key'

/-- A coordinate that is recorded is recorded under this host. -/
def SameHost (m : PublicationManager) (key : PublicationKey) (host : Text) : Prop :=
  ∀ mapping, m.mappings.lookup key = some mapping → mapping.host = host

theorem loose_default (generation : Nat) : Loose { generation := generation } default where
  removable := nofun
  recorded := nofun
  evident := nofun

theorem synced_default (generation : Nat) : Synced { generation := generation } default where
  removable := nofun
  recorded := nofun
  installed := nofun
  funnel _ := ⟨nofun, fun ⟨_, h, _⟩ => nomatch h⟩
  owner := nofun
  counted := nofun
  distinct := nofun

theorem visibilityOwnsEnabledConfig_iff {sc : ServeConfig} {hp : HostPort} {v : PublicationVisibility} :
    visibilityOwnsEnabledConfig sc hp v = true ↔
      ∃ evidence ∈ v.evidence, evidence.funnel = true ∧ evidence.key.port = hp.port ∧
        sc.handler hp evidence.key.path = some evidence.handler := by
  simp [visibilityOwnsEnabledConfig, and_assoc]

theorem mem_visibilityEvidence {key : PublicationKey} {mapping : PublicationMapping} {funnel : Bool}
    {evidence : PublicationVisibilityEvidence} : evidence ∈ visibilityEvidence key mapping funnel ↔
      evidence.key = key ∧ evidence.funnel = funnel ∧ evidence.handler ∈ mapping.variants := by
  constructor
  · intro h
    obtain ⟨handler, hmem, rfl⟩ := List.mem_map.mp h
    exact ⟨rfl, rfl, hmem⟩
  · rintro ⟨rfl, rfl, hmem⟩
    exact List.mem_map.mpr ⟨evidence.handler, hmem, rfl⟩

/-- The record of a bit that is on names a handler that is served. -/
theorem Synced.evidence {m : PublicationManager} {sc : ServeConfig} (h : Synced m sc) {hp : HostPort}
    (hon : sc.funnelOn hp = true) : ∃ v key mapping handler, m.visibility.lookup hp = some v ∧ v.funnel = true ∧
      OwnedBy m hp v key mapping ∧ ⟨key, handler, true⟩ ∈ v.evidence ∧ sc.handler hp key.path = some handler := by
  obtain ⟨v, hv, hfunnel⟩ := (h.funnel hp).mp hon
  obtain ⟨key, mapping, howned⟩ := h.owner hp v hv
  have ⟨hmapping, hport, hhost, _, hevidence⟩ := howned
  obtain ⟨handler, hvariants, hserved⟩ := h.installed key mapping hmapping
  refine ⟨v, key, mapping, handler, hv, hfunnel, howned, ?_, ?_⟩
  · rw [hevidence, hfunnel, mem_visibilityEvidence, hvariants]
    exact ⟨rfl, rfl, List.mem_singleton_self handler⟩
  · rw [hport, hhost] at hserved
    exact hserved

theorem Synced.loose {m : PublicationManager} {sc : ServeConfig} (h : Synced m sc) : Loose m sc where
  removable := h.removable
  recorded hp path handler hhandler := by
    obtain ⟨mapping, hmapping, hhost, hvariants⟩ := h.recorded hp path handler hhandler
    refine ⟨mapping, hmapping, hhost, ?_⟩
    rw [hvariants]
    exact List.mem_singleton_self handler
  evident hp hon := by
    obtain ⟨v, key, mapping, handler, hv, -, howned, hmem, hserved⟩ := h.evidence hon
    exact ⟨v, hv, visibilityOwnsEnabledConfig_iff.mpr ⟨_, hmem, rfl, howned.2.1, hserved⟩⟩

/-! ## Close -/

/-- Nothing is served and no port is exposed. -/
def Bare (sc : ServeConfig) : Prop := (∀ hp path, sc.handler hp path = none) ∧ ∀ hp, sc.funnelOn hp = false

section Sweep

variable {m : PublicationManager} {sc : ServeConfig}

theorem ranges_mem {κ ν : Type} [DecidableEq κ] {order : List κ} {table : Finmap fun _ : κ => ν}
    (h : ranges order table = true) {key : κ} {v : ν} (hkey : table.lookup key = some v) : key ∈ order := by
  obtain ⟨-, hkeys⟩ := of_decide_eq_true h
  rw [← List.mem_toFinset, hkeys]
  exact Finmap.mem_keys.mpr (Finmap.mem_of_lookup_eq_some hkey)

theorem handler_withdrawVisibility [Ipn] (portKey hp : HostPort) (path : Text) :
    (m.withdrawVisibility sc portKey).handler hp path = sc.handler hp path := by
  unfold withdrawVisibility
  split
  · rfl
  split
  · exact ServeConfig.handler_setFunnel _ _ _ _ _ _
  · rfl

theorem funnelOn_withdrawVisibility [Ipn] (portKey hp : HostPort) : (m.withdrawVisibility sc portKey).funnelOn hp =
      if hp = portKey ∧ ∃ v, m.visibility.lookup portKey = some v ∧ visibilityOwnsEnabledConfig sc portKey v = true then
        false else sc.funnelOn hp := by
  unfold withdrawVisibility
  cases hv : m.visibility.lookup portKey with
  | none => simp
  | some v =>
    by_cases howns : visibilityOwnsEnabledConfig sc portKey v = true
    · simp only [howns, if_true]
      rw [ServeConfig.funnelOn_setFunnel]
      simp [howns]
    · simp [howns]

/-- The first loop switches off every bit with evidence, and leaves the handlers, so the evidence stays what it was. -/
theorem withdrawVisibility_loop [Ipn] (order : List HostPort) :
    ∀ sc : ServeConfig, (∀ hp path, (order.foldl m.withdrawVisibility sc).handler hp path = sc.handler hp path) ∧
      ∀ hp, (order.foldl m.withdrawVisibility sc).funnelOn hp = true → sc.funnelOn hp = true ∧
        (hp ∈ order → ∀ v, m.visibility.lookup hp = some v → visibilityOwnsEnabledConfig sc hp v = false) := by
  induction order with
  | nil => exact fun sc => ⟨fun _ _ => rfl, fun hp hon => ⟨hon, nofun⟩⟩
  | cons portKey order ih =>
    intro sc
    obtain ⟨hhandlers, hbits⟩ := ih (m.withdrawVisibility sc portKey)
    have hsame : ∀ hp v, visibilityOwnsEnabledConfig (m.withdrawVisibility sc portKey) hp v =
        visibilityOwnsEnabledConfig sc hp v := by
      intro hp v
      unfold visibilityOwnsEnabledConfig
      simp only [handler_withdrawVisibility]
    constructor
    · intro hp path
      exact (hhandlers hp path).trans (handler_withdrawVisibility portKey hp path)
    · intro hp hon
      obtain ⟨hon, hrest⟩ := hbits hp hon
      rw [funnelOn_withdrawVisibility] at hon
      split at hon
      · cases hon
      · next hkept =>
        refine ⟨hon, ?_⟩
        intro hmem v hv
        rcases List.mem_cons.mp hmem with rfl | hlater
        · by_contra howns
          exact hkept ⟨rfl, v, hv, by simpa using howns⟩
        · rw [← hsame]
          exact hrest hlater v hv

theorem mappingMatchesServeConfig_iff {mapping : PublicationMapping} {key : PublicationKey} :
    mappingMatchesServeConfig mapping sc key = true ↔
      mapping.host ≠ [] ∧ ∃ h ∈ mapping.variants, sc.handler ⟨mapping.host, key.port⟩ key.path = some h := by
  unfold mappingMatchesServeConfig
  cases sc.handler ⟨mapping.host, key.port⟩ key.path with
  | none => simp
  | some h => simp

theorem handler_withdrawMapping [Ipn] (hcovered : Covered m sc) (key : PublicationKey) {hp : HostPort} {path : Text}
    {h : HTTPHandler} (hafter : (m.withdrawMapping sc key).handler hp path = some h) :
    sc.handler hp path = some h ∧ ⟨hp.port, path⟩ ≠ key := by
  unfold withdrawMapping at hafter
  cases hmapping : m.mappings.lookup key with
  | none =>
    rw [hmapping] at hafter
    refine ⟨hafter, ?_⟩
    rintro rfl
    obtain ⟨mapping, hrecorded, -⟩ := hcovered.recorded hp path h hafter
    rw [hmapping] at hrecorded
    cases hrecorded
  | some mapping =>
    simp only [hmapping] at hafter
    have hremovable := hcovered.removable key mapping hmapping
    split at hafter
    · rw [handler_removeServeWebHandler hremovable.host hremovable.port hremovable.path] at hafter
      split at hafter
      · cases hafter
      · next hother =>
        refine ⟨hafter, ?_⟩
        rintro rfl
        obtain ⟨found, hrecorded, hhost, -⟩ := hcovered.recorded hp path h hafter
        obtain rfl := Option.some.inj (hmapping.symm.trans hrecorded)
        exact hother ⟨by rw [hhost], rfl⟩
    · next hdiffers =>
      refine ⟨hafter, ?_⟩
      rintro rfl
      obtain ⟨found, hrecorded, hhost, hvariant⟩ := hcovered.recorded hp path h hafter
      obtain rfl := Option.some.inj (hmapping.symm.trans hrecorded)
      apply hdiffers
      refine mappingMatchesServeConfig_iff.mpr ⟨hremovable.host, h, hvariant, ?_⟩
      rw [hhost]
      exact hafter

theorem funnelOn_withdrawMapping [Ipn] (key : PublicationKey) (hp : HostPort) :
    (m.withdrawMapping sc key).funnelOn hp = sc.funnelOn hp := by
  unfold withdrawMapping
  split
  · rfl
  split
  · exact funnelOn_removeServeWebHandler_of_ne (.inl rfl)
  · rfl

/-- The second loop removes what it finds recorded, and leaves the bits. -/
theorem withdrawMapping_loop [Ipn] (order : List PublicationKey) : ∀ {sc : ServeConfig}, Covered m sc →
      (∀ hp, (order.foldl m.withdrawMapping sc).funnelOn hp = sc.funnelOn hp) ∧
        ∀ hp path h, (order.foldl m.withdrawMapping sc).handler hp path = some h →
          sc.handler hp path = some h ∧ ⟨hp.port, path⟩ ∉ order := by
  induction order with
  | nil => exact fun _ => ⟨fun _ => rfl, fun hp path h hhandler => ⟨hhandler, nofun⟩⟩
  | cons key order ih =>
    intro sc hcovered
    have hnext : Covered m (m.withdrawMapping sc key) :=
      { hcovered with
        recorded := fun hp path h hafter =>
          hcovered.recorded hp path h (handler_withdrawMapping hcovered key hafter).1 }
    obtain ⟨hbits, hhandlers⟩ := ih hnext
    constructor
    · exact fun hp => (hbits hp).trans (funnelOn_withdrawMapping key hp)
    · intro hp path h hafter
      obtain ⟨hbefore, hlater⟩ := hhandlers hp path h hafter
      obtain ⟨hbefore, hkey⟩ := handler_withdrawMapping hcovered key hbefore
      exact ⟨hbefore, List.not_mem_cons_of_ne_of_not_mem hkey hlater⟩

/-- A sweep over loose records leaves nothing. -/
theorem Loose.sweep [Ipn] (hloose : Loose m sc) {visibilityOrder : List HostPort} {mappingOrder : List PublicationKey}
    (hvisibility : ranges visibilityOrder m.visibility = true) (hmappings : ranges mappingOrder m.mappings = true) :
    Bare (m.sweep visibilityOrder mappingOrder sc) := by
  obtain ⟨hhandlers, hbits⟩ := withdrawVisibility_loop (m := m) visibilityOrder sc
  have hcovered : Covered m (visibilityOrder.foldl m.withdrawVisibility sc) :=
    { hloose with
      recorded := fun hp path h hafter => hloose.recorded hp path h ((hhandlers hp path).symm.trans hafter) }
  obtain ⟨hkept, hremoved⟩ := withdrawMapping_loop mappingOrder hcovered
  constructor
  · intro hp path
    by_contra hserved
    obtain ⟨h, hserved⟩ := Option.ne_none_iff_exists'.mp hserved
    obtain ⟨hbefore, hmissed⟩ := hremoved hp path h hserved
    obtain ⟨mapping, hmapping, -⟩ := hcovered.recorded hp path h hbefore
    exact hmissed (ranges_mem hmappings hmapping)
  · intro hp
    by_contra hon
    have hon : (m.sweep visibilityOrder mappingOrder sc).funnelOn hp = true := by simpa using hon
    obtain ⟨hbefore, hmissed⟩ := hbits hp ((hkept hp).symm.trans hon)
    obtain ⟨v, hv, howns⟩ := hloose.evident hp hbefore
    rw [hmissed (ranges_mem hvisibility hv) v hv] at howns
    cases howns

end Sweep

/-! ## Forward -/

section Forward

variable {m m' : PublicationManager} {sc : ServeConfig} {plan : ForwardPlan} {mapping : PublicationMapping}

theorem removable_insert (h : ∀ key mapping, m.mappings.lookup key = some mapping → Removable mapping.host key)
    {key : PublicationKey} (hnew : Removable mapping.host key)
    (hmappings : m'.mappings = m.mappings.insert key mapping) :
    ∀ key mapping, m'.mappings.lookup key = some mapping → Removable mapping.host key := by
  intro other found hfound
  rw [hmappings, lookup_insert_ite] at hfound
  split at hfound
  · next heq =>
    cases hfound
    rw [heq]
    exact hnew
  · exact h other found hfound

theorem ForwardPlan.Valid.removable (h : plan.Valid) : Removable plan.dnsName plan.key := ⟨h.host, h.port, h.path⟩

theorem SameHost.hostPort_eq {key : PublicationKey} {host : Text} {hp : HostPort} (hsame : SameHost m key host)
    (hmapping : m.mappings.lookup key = some mapping) (hport : key.port = hp.port) (hhost : mapping.host = hp.host) :
    hp = ⟨host, key.port⟩ := by
  rw [← hsame mapping hmapping, hhost, hport]

/-- A handler that a call left alone is not under the coordinate of the call. -/
theorem SameHost.ne_key {key : PublicationKey} {host : Text} {hp : HostPort} {path : Text} (hsame : SameHost m key host)
    (hmapping : m.mappings.lookup ⟨hp.port, path⟩ = some mapping) (hhost : mapping.host = hp.host)
    (hother : ¬ (hp = ⟨host, key.port⟩ ∧ path = key.path)) : (⟨hp.port, path⟩ : PublicationKey) ≠ key := by
  rintro rfl
  exact hother ⟨hsame.hostPort_eq hmapping rfl hhost, rfl⟩

variable {payload : ServeForwardPayload}

/-- The forward was applied: its handler is among the variants and its bit in the evidence. -/
theorem Loose.applied [Ipn] (h : Loose m sc) (hvalid : plan.Valid) (hsame : SameHost m plan.key plan.dnsName)
    {v : PublicationVisibility}
    (hmappings : m'.mappings = m.mappings.insert plan.key mapping) (hhost : mapping.host = plan.dnsName)
    (hvariant : .proxy plan.proxy ∈ mapping.variants)
    (hvisibility : m'.visibility = m.visibility.insert plan.hostPort v)
    (hevidence : ⟨plan.key, .proxy plan.proxy, payload.funnel⟩ ∈ v.evidence) : Loose m' (plan.apply payload sc) where
  removable := by
    apply removable_insert h.removable _ hmappings
    rw [hhost]
    exact hvalid.removable
  recorded := by
    intro hp path handler hafter
    rw [hmappings, lookup_insert_ite]
    by_cases hthis : hp = plan.hostPort ∧ path = plan.mount
    · obtain ⟨rfl, rfl⟩ := hthis
      rw [ForwardPlan.handler_apply, if_pos rfl, if_pos rfl] at hafter
      cases hafter
      exact ⟨mapping, if_pos rfl, hhost, hvariant⟩
    · have hbefore : sc.handler hp path = some handler := by
        rw [ForwardPlan.handler_apply] at hafter
        split at hafter
        · next hhp =>
          rw [if_neg fun hpath => hthis ⟨hhp, hpath⟩] at hafter
          split at hafter
          · cases hafter
          · exact hafter
        · exact hafter
      obtain ⟨found, hfound, hname, hmem⟩ := h.recorded hp path handler hbefore
      rw [if_neg (hsame.ne_key hfound hname hthis)]
      exact ⟨found, hfound, hname, hmem⟩
  evident := by
    intro hp hon
    rw [ForwardPlan.funnelOn_apply] at hon
    rw [hvisibility, lookup_insert_ite]
    split at hon
    · next hhp =>
      subst hhp
      rw [hon] at hevidence
      rw [if_pos rfl]
      refine ⟨v, rfl, visibilityOwnsEnabledConfig_iff.mpr ⟨_, hevidence, rfl, rfl, ?_⟩⟩
      show (plan.apply payload sc).handler plan.hostPort plan.mount = _
      rw [ForwardPlan.handler_apply, if_pos rfl, if_pos rfl]
    · next hhp =>
      obtain ⟨old, hold, howns⟩ := h.evident hp hon
      rw [if_neg hhp]
      refine ⟨old, hold, ?_⟩
      obtain ⟨evidence, hmem, hfunnel, hport, hserved⟩ := visibilityOwnsEnabledConfig_iff.mp howns
      refine visibilityOwnsEnabledConfig_iff.mpr ⟨evidence, hmem, hfunnel, hport, ?_⟩
      rw [ForwardPlan.handler_apply, if_neg hhp]
      exact hserved

/-- The forward was not applied: what was recorded before is still recorded. -/
theorem Loose.attempted (h : Loose m sc) (hvalid : plan.Valid) (hsame : SameHost m plan.key plan.dnsName)
    {v : PublicationVisibility}
    (hmappings : m'.mappings = m.mappings.insert plan.key mapping) (hhost : mapping.host = plan.dnsName)
    (hvariants : ∀ prior, m.mappings.lookup plan.key = some prior → prior.variants ⊆ mapping.variants)
    (hvisibility : m'.visibility = m.visibility.insert plan.hostPort v)
    (hevidence : ∀ prior, m.visibility.lookup plan.hostPort = some prior → prior.evidence ⊆ v.evidence) :
    Loose m' sc where
  removable := by
    apply removable_insert h.removable _ hmappings
    rw [hhost]
    exact hvalid.removable
  recorded := by
    intro hp path handler hserved
    obtain ⟨found, hfound, hname, hmem⟩ := h.recorded hp path handler hserved
    rw [hmappings, lookup_insert_ite]
    split
    · next heq =>
      rw [heq] at hfound
      exact ⟨mapping, rfl, hhost.trans ((hsame found hfound).symm.trans hname), hvariants found hfound hmem⟩
    · exact ⟨found, hfound, hname, hmem⟩
  evident := by
    intro hp hon
    obtain ⟨old, hold, howns⟩ := h.evident hp hon
    rw [hvisibility, lookup_insert_ite]
    split
    · next heq =>
      subst heq
      obtain ⟨evidence, hmem, hrest⟩ := visibilityOwnsEnabledConfig_iff.mp howns
      exact ⟨v, rfl, visibilityOwnsEnabledConfig_iff.mpr ⟨evidence, hevidence old hold hmem, hrest⟩⟩
    · exact ⟨old, hold, howns⟩

/-- What a forward does away from its own coordinate, when no recorded path of its port is a sibling. -/
theorem Synced.handler_apply [Ipn] (h : Synced m sc)
    (hsiblings : ∀ key mapping, m.mappings.lookup key = some mapping → key.port = plan.port →
      ¬ ServeConfig.IsSibling plan.mount key.path) {hp : HostPort} {path : Text}
    (hother : ¬ (hp = plan.hostPort ∧ path = plan.mount)) :
    (plan.apply payload sc).handler hp path = sc.handler hp path := by
  rw [ForwardPlan.handler_apply]
  split
  · next hhp =>
    rw [if_neg fun hpath => hother ⟨hhp, hpath⟩]
    split
    · next hsibling =>
      cases hserved : sc.handler hp path with
      | none => rfl
      | some handler =>
        obtain ⟨mapping, hmapping, -⟩ := h.recorded hp path handler hserved
        refine absurd hsibling (hsiblings _ mapping hmapping ?_)
        rw [hhp]
        rfl
    · rfl
  · rfl

theorem Synced.forwarded [Ipn] (h : Synced m sc) (hvalid : plan.Valid) (hsame : SameHost m plan.key plan.dnsName)
    (hsiblings : ∀ key mapping, m.mappings.lookup key = some mapping → key.port = plan.port →
      ¬ ServeConfig.IsSibling plan.mount key.path)
    (hmappings : m'.mappings = m.mappings.insert plan.key ⟨plan.dnsName, m.nextMappingToken + 1, [.proxy plan.proxy]⟩)
    (hvisibility : m'.visibility = m.visibility.insert plan.hostPort
      ⟨m.nextMappingToken + 1, payload.funnel, [⟨plan.key, .proxy plan.proxy, payload.funnel⟩]⟩)
    (hnext : m'.nextMappingToken = m.nextMappingToken + 1) : Synced m' (plan.apply payload sc) where
  removable := removable_insert h.removable hvalid.removable hmappings
  recorded := by
    intro hp path handler hafter
    rw [hmappings, lookup_insert_ite]
    by_cases hthis : hp = plan.hostPort ∧ path = plan.mount
    · obtain ⟨rfl, rfl⟩ := hthis
      rw [ForwardPlan.handler_apply, if_pos rfl, if_pos rfl] at hafter
      cases hafter
      exact ⟨_, if_pos rfl, rfl, rfl⟩
    · rw [h.handler_apply hsiblings hthis] at hafter
      obtain ⟨mapping, hmapping, hhost, hvariants⟩ := h.recorded hp path handler hafter
      rw [if_neg (hsame.ne_key hmapping hhost hthis)]
      exact ⟨mapping, hmapping, hhost, hvariants⟩
  installed := by
    intro key mapping hmapping
    rw [hmappings, lookup_insert_ite] at hmapping
    split at hmapping
    · next heq =>
      cases hmapping
      subst heq
      refine ⟨.proxy plan.proxy, rfl, ?_⟩
      show (plan.apply payload sc).handler plan.hostPort plan.mount = _
      rw [ForwardPlan.handler_apply, if_pos rfl, if_pos rfl]
    · next hne =>
      obtain ⟨handler, hvariants, hserved⟩ := h.installed key mapping hmapping
      refine ⟨handler, hvariants, ?_⟩
      rw [h.handler_apply hsiblings]
      · exact hserved
      · rintro ⟨hhp, hpath⟩
        exact hne (PublicationKey.eq_of (HostPort.mk.inj hhp).2 hpath)
  funnel := by
    intro hp
    rw [ForwardPlan.funnelOn_apply, hvisibility, lookup_insert_ite]
    by_cases hhp : hp = plan.hostPort
    · rw [if_pos hhp, if_pos hhp]
      simp
    · rw [if_neg hhp, if_neg hhp]
      exact h.funnel hp
  owner := by
    intro hp v hv
    rw [hvisibility, lookup_insert_ite] at hv
    unfold OwnedBy
    rw [hmappings]
    split at hv
    · next hhp =>
      cases hv
      subst hhp
      exact ⟨plan.key, _, Finmap.lookup_insert _, rfl, rfl, rfl, rfl⟩
    · next hhp =>
      obtain ⟨key, mapping, hmapping, hport, hhost, htoken, hevidence⟩ := h.owner hp v hv
      refine ⟨key, mapping, ?_, hport, hhost, htoken, hevidence⟩
      rw [lookup_insert_ite]
      refine (if_neg ?_).trans hmapping
      rintro rfl
      exact hhp (hsame.hostPort_eq hmapping hport hhost)
  counted := by
    intro key mapping hmapping
    rw [hnext]
    rw [hmappings, lookup_insert_ite] at hmapping
    split at hmapping
    · cases hmapping
      exact ⟨Nat.succ_pos _, le_rfl⟩
    · exact (h.counted key mapping hmapping).imp_right (·.trans (Nat.le_succ _))
  distinct := by
    have hfresh : ∀ key mapping, m.mappings.lookup key = some mapping → mapping.token ≠ m.nextMappingToken + 1 := by
      intro key mapping hmapping heq
      have hbound := (h.counted key mapping hmapping).2
      omega
    intro key key' mapping mapping' hmapping hmapping' htoken
    rw [hmappings, lookup_insert_ite] at hmapping hmapping'
    split at hmapping <;> split at hmapping'
    · next heq heq' => rw [heq, heq']
    · cases hmapping
      exact absurd htoken.symm (hfresh key' mapping' hmapping')
    · cases hmapping'
      exact absurd htoken (hfresh key mapping hmapping)
    · exact h.distinct key key' mapping mapping' hmapping hmapping' htoken

end Forward

/-! ## Clear -/

section Clear

variable {m m' : PublicationManager} {sc : ServeConfig} {plan : ClearPlan} {order : List PublicationKey}

/-- A mapping on a `host:port`. -/
def IsOn (m : PublicationManager) (portKey : HostPort) (key : PublicationKey) (mapping : PublicationMapping) : Prop :=
  m.mappings.lookup key = some mapping ∧ key.port = portKey.port ∧ mapping.host = portKey.host

theorem newerMapping_isOn {portKey : HostPort} {found : Option (PublicationKey × PublicationMapping)}
    (hfound : ∀ key mapping, found = some (key, mapping) → IsOn m portKey key mapping) (key : PublicationKey) :
    (∀ key' mapping, m.newerMapping portKey found key = some (key', mapping) → IsOn m portKey key' mapping) ∧
      (m.newerMapping portKey found key = none → found = none ∧ ∀ mapping, ¬ IsOn m portKey key mapping) := by
  unfold newerMapping
  split
  · next habsent =>
    refine ⟨hfound, fun hnone => ⟨hnone, ?_⟩⟩
    rintro mapping ⟨hmapping, -⟩
    rw [habsent] at hmapping
    cases hmapping
  · next mapping hmapping =>
    split
    · next helsewhere =>
      refine ⟨hfound, fun hnone => ⟨hnone, ?_⟩⟩
      rintro other ⟨hother, hport, hhost⟩
      obtain rfl := Option.some.inj (hmapping.symm.trans hother)
      rcases helsewhere with hne | hne
      · exact hne hport
      · exact hne hhost
    · next hhere =>
      rw [not_or, not_not, not_not] at hhere
      have hthis : IsOn m portKey key mapping := ⟨hmapping, hhere.1, hhere.2⟩
      split
      · refine ⟨?_, nofun⟩
        rintro key' other ⟨⟩
        exact hthis
      · split
        · refine ⟨?_, nofun⟩
          rintro key' other ⟨⟩
          exact hthis
        · exact ⟨hfound, nofun⟩

/-- The search finds a mapping of the `host:port`, if one is left. -/
theorem newestMapping_isOn {portKey : HostPort} :
    (∀ key mapping, m.newestMapping portKey order = some (key, mapping) → IsOn m portKey key mapping) ∧
      (m.newestMapping portKey order = none → ∀ key ∈ order, ∀ mapping, ¬ IsOn m portKey key mapping) := by
  have hloop : ∀ (order : List PublicationKey) (found : Option (PublicationKey × PublicationMapping)),
      (∀ key mapping, found = some (key, mapping) → IsOn m portKey key mapping) →
        (∀ key mapping, order.foldl (m.newerMapping portKey) found = some (key, mapping) → IsOn m portKey key mapping) ∧
        (order.foldl (m.newerMapping portKey) found = none →
          found = none ∧ ∀ key ∈ order, ∀ mapping, ¬ IsOn m portKey key mapping) := by
    intro order
    induction order with
    | nil => exact fun found hfound => ⟨hfound, fun hnone => ⟨hnone, nofun⟩⟩
    | cons key order ih =>
      intro found hfound
      obtain ⟨hsome, hnone⟩ := newerMapping_isOn hfound key
      obtain ⟨hsome', hnone'⟩ := ih _ hsome
      refine ⟨hsome', fun h => ?_⟩
      obtain ⟨hturn, hrest⟩ := hnone' h
      obtain ⟨hstart, hkey⟩ := hnone hturn
      refine ⟨hstart, ?_⟩
      intro other hother
      rcases List.mem_cons.mp hother with rfl | hlater
      · exact hkey
      · exact hrest other hlater
  obtain ⟨hsome, hnone⟩ := hloop order none nofun
  exact ⟨hsome, fun h => (hnone h).2⟩

/-- Away from its `host:port` a clear changes nothing but the record and the handler of its coordinate. -/
theorem Synced.erased [Ipn] (h : Synced m sc) (hremovable : Removable plan.host plan.key)
    (hsame : SameHost m plan.key plan.host) (hmappings : m'.mappings = m.mappings.erase plan.key)
    (hnext : m'.nextMappingToken = m.nextMappingToken)
    (hothers : ∀ hp, hp ≠ plan.visibilityKey → m'.visibility.lookup hp = m.visibility.lookup hp)
    (hfunnel : (plan.apply sc).funnelOn plan.visibilityKey = true ↔
      ∃ v, m'.visibility.lookup plan.visibilityKey = some v ∧ v.funnel = true)
    (howner : ∀ v, m'.visibility.lookup plan.visibilityKey = some v →
      ∃ key mapping, OwnedBy m' plan.visibilityKey v key mapping) : Synced m' (plan.apply sc) where
  removable := by
    intro key mapping hmapping
    rw [hmappings] at hmapping
    exact h.removable key mapping (lookup_of_erase hmapping).2
  recorded := by
    intro hp path handler hafter
    obtain ⟨hother, hbefore⟩ := ClearPlan.handler_of_apply hremovable hafter
    obtain ⟨mapping, hmapping, hhost, hvariants⟩ := h.recorded hp path handler hbefore
    refine ⟨mapping, ?_, hhost, hvariants⟩
    rw [hmappings, lookup_erase_ite]
    exact (if_neg (hsame.ne_key hmapping hhost hother)).trans hmapping
  installed := by
    intro key mapping hmapping
    rw [hmappings] at hmapping
    obtain ⟨hne, hmapping⟩ := lookup_of_erase hmapping
    obtain ⟨handler, hvariants, hserved⟩ := h.installed key mapping hmapping
    refine ⟨handler, hvariants, ?_⟩
    rw [ClearPlan.handler_apply hremovable]
    refine (if_neg ?_).trans hserved
    rintro ⟨hhp, hpath⟩
    exact hne (PublicationKey.eq_of (HostPort.mk.inj hhp).2 hpath)
  funnel := by
    intro hp
    by_cases hhp : hp = plan.visibilityKey
    · rw [hhp]
      exact hfunnel
    · rw [ClearPlan.funnelOn_apply_other hhp, hothers hp hhp]
      exact h.funnel hp
  owner := by
    intro hp v hv
    by_cases hhp : hp = plan.visibilityKey
    · rw [hhp] at hv ⊢
      exact howner v hv
    · rw [hothers hp hhp] at hv
      obtain ⟨key, mapping, hmapping, hport, hhost, hrest⟩ := h.owner hp v hv
      refine ⟨key, mapping, ?_, hport, hhost, hrest⟩
      rw [hmappings, lookup_erase_ite]
      refine (if_neg ?_).trans hmapping
      rintro rfl
      exact hhp (hsame.hostPort_eq hmapping hport hhost)
  counted := by
    intro key mapping hmapping
    rw [hmappings] at hmapping
    rw [hnext]
    exact h.counted key mapping (lookup_of_erase hmapping).2
  distinct := by
    intro key key' mapping mapping' hmapping hmapping'
    rw [hmappings] at hmapping hmapping'
    exact h.distinct key key' mapping mapping' (lookup_of_erase hmapping).2 (lookup_of_erase hmapping').2

variable {key : PublicationKey}

theorem planExact_ok {token : Nat} (h : m.planExact token key = some plan) :
    plan.exact = true ∧ plan.key = key ∧ m.mappings.lookup key = some plan.mapping ∧ plan.mapping.token = token ∧
      plan.host = plan.mapping.host ∧ plan.cleanupFunnelWhenEmpty = plan.funnel ∧
      (plan.ownsVisibility = true ↔ ∃ v, m.visibility.lookup plan.visibilityKey = some v ∧ v.token = token) ∧
      (plan.funnel = true ↔ ∃ v, m.visibility.lookup plan.visibilityKey = some v ∧ v.token = token ∧
        v.funnel = true) := by
  unfold planExact at h
  split at h
  · cases h
  · next mapping hmapping =>
    split at h
    · cases h
    · next htoken =>
      cases h
      refine ⟨rfl, rfl, hmapping, not_not.mp htoken, rfl, rfl, ?_, ?_⟩
      · show Option.isSome (Option.filter _ (m.visibility.lookup ⟨mapping.host, key.port⟩)) = true ↔
          ∃ v, m.visibility.lookup ⟨mapping.host, key.port⟩ = some v ∧ v.token = token
        cases m.visibility.lookup ⟨mapping.host, key.port⟩ with
        | none => simp
        | some v => simp [Option.filter]
      · show Option.any _ (Option.filter _ (m.visibility.lookup ⟨mapping.host, key.port⟩)) = true ↔
          ∃ v, m.visibility.lookup ⟨mapping.host, key.port⟩ = some v ∧ v.token = token ∧ v.funnel = true
        cases m.visibility.lookup ⟨mapping.host, key.port⟩ with
        | none => simp
        | some v => by_cases hv : v.token = token <;> simp [Option.filter, hv]

theorem recordClear_visibility_exact (m : PublicationManager) (order : List PublicationKey) (h : plan.exact = true) :
    (m.recordClear plan order).visibility =
      if plan.ownsVisibility = true then m.visibility.erase plan.visibilityKey else m.visibility := by
  unfold recordClear
  rw [h]
  cases plan.ownsVisibility <;> rfl

theorem OwnedBy.erase {hp : HostPort} {v : PublicationVisibility} {mapping : PublicationMapping}
    (h : OwnedBy m hp v key mapping) (hmappings : m'.mappings = m.mappings.erase plan.key) (hne : key ≠ plan.key) :
    OwnedBy m' hp v key mapping := by
  refine ⟨?_, h.2⟩
  rw [hmappings, lookup_erase_ite]
  exact (if_neg hne).trans h.1

theorem Synced.exactCleared [Ipn] (h : Synced m sc) {token : Nat}
    (hplan : m.planExact token key = some plan) : Synced (m.recordClear plan order) (plan.apply sc) := by
  obtain ⟨hexact, rfl, hmapping, htoken, hhost, hcleanup, howns, hfunnel⟩ := planExact_ok hplan
  have hremovable : Removable plan.host plan.key := by
    rw [hhost]
    exact h.removable plan.key plan.mapping hmapping
  have hsame : SameHost m plan.key plan.host := by
    intro mapping hfound
    obtain rfl := Option.some.inj (hmapping.symm.trans hfound)
    exact hhost.symm
  have hvisibility := recordClear_visibility_exact m order hexact
  apply h.erased hremovable hsame (recordClear_mappings _ _ _) (recordClear_nextMappingToken _ _ _)
  · intro hp hne
    rw [hvisibility]
    split
    · exact Finmap.lookup_erase_ne hne
    · rfl
  · rw [hvisibility]
    cases hcase : plan.ownsVisibility with
    | true =>
      rw [if_pos rfl, Finmap.lookup_erase]
      refine ⟨fun hon => ?_, nofun⟩
      -- the bit is on only if the record says so, and then the clear was asked to switch it off
      obtain ⟨hbefore, hnot⟩ := ClearPlan.funnelOn_of_apply hon
      obtain ⟨v, hv, hvtoken⟩ := howns.mp hcase
      obtain ⟨v', hv', hvfunnel⟩ := (h.funnel _).mp hbefore
      obtain rfl := Option.some.inj (hv.symm.trans hv')
      exact absurd ⟨hfunnel.mpr ⟨v, hv, hvtoken, hvfunnel⟩, rfl⟩ hnot
    | false =>
      have hoff : plan.funnel = false := by
        by_contra hon
        obtain ⟨v, hv, hvtoken, -⟩ := hfunnel.mp (by simpa using hon)
        rw [howns.mpr ⟨v, hv, hvtoken⟩] at hcase
        cases hcase
      rw [if_neg Bool.false_ne_true, ClearPlan.funnelOn_apply_kept hoff (.inl (hcleanup.trans hoff))]
      exact h.funnel _
  · intro v hv
    rw [hvisibility] at hv
    cases hcase : plan.ownsVisibility with
    | true =>
      rw [hcase, if_pos rfl, Finmap.lookup_erase] at hv
      cases hv
    | false =>
      rw [hcase, if_neg Bool.false_ne_true] at hv
      obtain ⟨key', mapping', howned⟩ := h.owner _ v hv
      refine ⟨key', mapping', howned.erase (recordClear_mappings _ _ _) ?_⟩
      rintro rfl
      obtain rfl := Option.some.inj (hmapping.symm.trans howned.1)
      rw [howns.mpr ⟨v, hv, howned.2.2.2.1.symm.trans htoken⟩] at hcase
      cases hcase

/-- What the tables hold of a `host:port` after a coordinate clear that was not asked for its bit. -/
inductive Transferred (m : PublicationManager) (plan : ClearPlan) : Option PublicationVisibility → Prop
  /-- There was no record, or the cleared coordinate was not recorded. -/
  | same : m.visibility.lookup plan.visibilityKey = none ∨ plan.mapping.token = 0 →
      Transferred m plan (m.visibility.lookup plan.visibilityKey)
  /-- Another mapping owns the record. -/
  | filtered {v : PublicationVisibility} : m.visibility.lookup plan.visibilityKey = some v →
      v.token ≠ plan.mapping.token →
      Transferred m plan (some { v with evidence := v.evidence.filter fun evidence => evidence.key ≠ plan.key })
  | erased {v : PublicationVisibility} : m.visibility.lookup plan.visibilityKey = some v →
      v.token = plan.mapping.token →
      (∀ key mapping, IsOn m plan.visibilityKey key mapping → key = plan.key) → Transferred m plan none
  | transferred {v : PublicationVisibility} {key : PublicationKey} {mapping : PublicationMapping} :
      m.visibility.lookup plan.visibilityKey = some v → v.token = plan.mapping.token →
      IsOn m plan.visibilityKey key mapping → key ≠ plan.key →
      Transferred m plan
        (some { v with token := mapping.token, evidence := visibilityEvidence key mapping v.funnel })

theorem recordClear_transferred (hexact : plan.exact = false) (hfunnel : plan.funnel = false)
    (hranges : ranges order (m.mappings.erase plan.key) = true) :
    (∀ hp, hp ≠ plan.visibilityKey → (m.recordClear plan order).visibility.lookup hp = m.visibility.lookup hp) ∧
      Transferred m plan ((m.recordClear plan order).visibility.lookup plan.visibilityKey) := by
  unfold recordClear
  simp only [hexact, hfunnel, Bool.false_and, Bool.not_false, Bool.and_false, Bool.or_self, Bool.false_eq_true,
    if_false, Bool.true_and, decide_eq_true_eq]
  split
  · unfold transferVisibilityAfterCoordinateClearLocked
    simp only [cancelPendingDeliveryLocked]
    split
    · next hnone => exact ⟨fun _ _ => rfl, .same (.inl hnone)⟩
    · next v hv =>
      split
      · next htoken =>
        refine ⟨fun hp hne => Finmap.lookup_insert_of_ne _ hne, ?_⟩
        simp only [Finmap.lookup_insert]
        exact .filtered hv htoken
      · next htoken =>
        have htoken := not_not.mp htoken
        split
        · next hnewest =>
          refine ⟨fun hp hne => Finmap.lookup_erase_ne hne, ?_⟩
          simp only [Finmap.lookup_erase]
          apply Transferred.erased hv htoken
          rintro key mapping ⟨hmapping, hport, hhost⟩
          by_contra hne
          have hleft : (m.mappings.erase plan.key).lookup key = some mapping :=
            (Finmap.lookup_erase_ne hne).trans hmapping
          exact newestMapping_isOn.2 hnewest key (ranges_mem hranges hleft) mapping ⟨hleft, hport, hhost⟩
        · next key mapping hnewest =>
          refine ⟨fun hp hne => Finmap.lookup_insert_of_ne _ hne, ?_⟩
          simp only [Finmap.lookup_insert]
          obtain ⟨hleft, hport, hhost⟩ := newestMapping_isOn.1 key mapping hnewest
          obtain ⟨hne, hmapping⟩ := lookup_of_erase hleft
          exact .transferred hv htoken ⟨hmapping, hport, hhost⟩ hne
  · next hzero => exact ⟨fun _ _ => rfl, .same (.inr (not_not.mp hzero))⟩

/-- Another path of the `host:port` is served. -/
theorem Synced.served (h : Synced m sc) {mapping : PublicationMapping} (hon : IsOn m plan.visibilityKey key mapping)
    (hne : key ≠ plan.key) : ∃ k, k ≠ plan.key.path ∧ (sc.handler plan.visibilityKey k).isSome := by
  obtain ⟨hmapping, hport, hhost⟩ := hon
  obtain ⟨handler, -, hserved⟩ := h.installed key mapping hmapping
  refine ⟨key.path, fun hpath => hne (PublicationKey.eq_of hport hpath), ?_⟩
  · rw [hport, hhost] at hserved
    rw [show plan.visibilityKey = ⟨plan.visibilityKey.host, plan.visibilityKey.port⟩ from rfl, hserved]
    rfl

/-- The last path of a `host:port` takes the bit with it. -/
theorem Synced.funnelOn_last [Ipn] (h : Synced m sc) (hremovable : Removable plan.host plan.key)
    (hfunnel : plan.funnel = false) (hcleanup : plan.cleanupFunnelWhenEmpty = true) {v : PublicationVisibility}
    (hv : m.visibility.lookup plan.visibilityKey = some v)
    (hlast : ∀ key mapping, IsOn m plan.visibilityKey key mapping → key = plan.key) :
    (plan.apply sc).funnelOn plan.visibilityKey = false := by
  apply ClearPlan.funnelOn_apply_last hremovable hfunnel hcleanup
  · obtain ⟨key, mapping, hmapping, hport, hhost, -⟩ := h.owner _ v hv
    obtain rfl := hlast key mapping ⟨hmapping, hport, hhost⟩
    obtain ⟨handler, -, hserved⟩ := h.installed _ mapping hmapping
    rw [hhost] at hserved
    have hserved : sc.handler plan.visibilityKey plan.key.path = some handler := hserved
    rw [hserved]
    rfl
  · intro k hk
    by_contra hserved
    obtain ⟨handler, hserved⟩ := Option.ne_none_iff_exists'.mp hserved
    obtain ⟨mapping, hmapping, hhost, -⟩ := h.recorded _ k handler hserved
    have hkey := hlast _ mapping ⟨hmapping, rfl, hhost⟩
    exact hk (congrArg PublicationKey.path hkey)

/-- The table of a coordinate clear that was not asked for the bit keeps its account of the bit. -/
theorem Synced.transferred [Ipn] (h : Synced m sc) (hfunnel : plan.funnel = false)
    (hcleanup : plan.cleanupFunnelWhenEmpty = true) (hremovable : Removable plan.host plan.key)
    (hmapping : plan.mapping = (m.mappings.lookup plan.key).getD {})
    (hmappings : m'.mappings = m.mappings.erase plan.key) {after : Option PublicationVisibility}
    (htransferred : Transferred m plan after) :
    ((plan.apply sc).funnelOn plan.visibilityKey = true ↔ ∃ v, after = some v ∧ v.funnel = true) ∧
      ∀ v, after = some v → ∃ key mapping, OwnedBy m' plan.visibilityKey v key mapping := by
  -- where another mapping of the port is left, the clear leaves the bit
  have hkept : ∀ key mapping, IsOn m plan.visibilityKey key mapping → key ≠ plan.key →
      (plan.apply sc).funnelOn plan.visibilityKey = sc.funnelOn plan.visibilityKey := fun key mapping hon hne =>
    ClearPlan.funnelOn_apply_kept hfunnel (.inr (h.served hon hne))
  have hbefore := h.funnel plan.visibilityKey
  -- and where that one owns the record, the record may stay
  have hsame : ∀ {v key mapping}, m.visibility.lookup plan.visibilityKey = some v →
      OwnedBy m plan.visibilityKey v key mapping → key ≠ plan.key →
      ((plan.apply sc).funnelOn plan.visibilityKey = true ↔ ∃ v', some v = some v' ∧ v'.funnel = true) ∧
        ∀ v', some v = some v' → ∃ key mapping, OwnedBy m' plan.visibilityKey v' key mapping := by
    intro v key mapping hv howned hne
    rw [hkept key mapping ⟨howned.1, howned.2.1, howned.2.2.1⟩ hne, ← hv]
    refine ⟨hbefore, ?_⟩
    rw [hv]
    rintro _ ⟨⟩
    exact ⟨key, mapping, howned.erase hmappings hne⟩
  cases htransferred with
  | same hcase =>
    cases hv : m.visibility.lookup plan.visibilityKey with
    | none =>
      rw [hv] at hbefore
      refine ⟨⟨fun hon => ?_, nofun⟩, nofun⟩
      exact hbefore.mp (ClearPlan.funnelOn_of_apply hon).1
    | some v =>
      obtain ⟨key, mapping, howned⟩ := h.owner _ v hv
      refine hsame hv howned ?_
      rintro rfl
      rw [howned.1] at hmapping
      have hpositive := (h.counted _ mapping howned.1).1
      rcases hcase with hnone | hzero
      · rw [hv] at hnone
        cases hnone
      · rw [hmapping] at hzero
        exact hpositive.ne' hzero
  | @filtered v hv htoken =>
    obtain ⟨key, mapping, howned⟩ := h.owner _ v hv
    have hne : key ≠ plan.key := by
      rintro rfl
      rw [howned.1] at hmapping
      apply htoken
      rw [hmapping]
      exact howned.2.2.2.1.symm
    have hevidence : (v.evidence.filter fun evidence => evidence.key ≠ plan.key) = v.evidence := by
      rw [List.filter_eq_self, howned.2.2.2.2]
      intro evidence hmem
      rw [(mem_visibilityEvidence.mp hmem).1]
      exact decide_eq_true hne
    rw [hevidence]
    exact hsame hv howned hne
  | erased hv htoken hlast =>
    rw [h.funnelOn_last hremovable hfunnel hcleanup hv hlast]
    exact ⟨⟨nofun, nofun⟩, nofun⟩
  | @transferred v key mapping hv htoken hon hne =>
    rw [hkept key mapping hon hne, hbefore, hv]
    refine ⟨?_, ?_⟩
    · simp
    · rintro _ ⟨⟩
      refine ⟨key, mapping, ?_, hon.2.1, hon.2.2, rfl, rfl⟩
      rw [hmappings, lookup_erase_ite]
      exact (if_neg hne).trans hon.1

theorem Synced.coordinateCleared [Ipn] (h : Synced m sc) (hexact : plan.exact = false)
    (hcleanup : plan.cleanupFunnelWhenEmpty = true) (hremovable : Removable plan.host plan.key)
    (hsame : SameHost m plan.key plan.host) (hmapping : plan.mapping = (m.mappings.lookup plan.key).getD {})
    (hranges : ranges order (m.mappings.erase plan.key) = true) :
    Synced (m.recordClear plan order) (plan.apply sc) := by
  cases hfunnel : plan.funnel with
  | true =>
    have hvisibility : (m.recordClear plan order).visibility = m.visibility.erase plan.visibilityKey := by
      unfold recordClear
      simp [hexact, hfunnel, cancelPendingDeliveryLocked]
    apply h.erased hremovable hsame (recordClear_mappings _ _ _) (recordClear_nextMappingToken _ _ _)
    · intro hp hne
      rw [hvisibility, Finmap.lookup_erase_ne hne]
    · rw [hvisibility, Finmap.lookup_erase, ClearPlan.funnelOn_apply_off hfunnel]
      exact ⟨nofun, nofun⟩
    · intro v hv
      rw [hvisibility, Finmap.lookup_erase] at hv
      cases hv
  | false =>
    obtain ⟨hothers, htransferred⟩ := recordClear_transferred hexact hfunnel hranges
    obtain ⟨hbit, howner⟩ :=
      h.transferred hfunnel hcleanup hremovable hmapping (recordClear_mappings plan order m) htransferred
    exact h.erased hremovable hsame (recordClear_mappings _ _ _)
      (recordClear_nextMappingToken _ _ _) hothers hbit howner

/-- A clear whose answer was lost, applied or not, keeps the records loose, unless it took away the handler that was
evidence of a bit it left on. -/
theorem Synced.loose_apply [Ipn] (h : Synced m sc) (hremovable : Removable plan.host plan.key)
    (hcovered : ∀ v mapping, m.visibility.lookup plan.visibilityKey = some v → v.funnel = true →
      m.mappings.lookup plan.key = some mapping → mapping.host = plan.host → mapping.token = v.token →
      plan.funnel = true) : Loose m (plan.apply sc) where
  removable := h.removable
  recorded hp path handler hafter := h.loose.recorded hp path handler (ClearPlan.handler_of_apply hremovable hafter).2
  evident hp hon := by
    obtain ⟨hbefore, hnot⟩ := ClearPlan.funnelOn_of_apply hon
    obtain ⟨v, key, mapping, handler, hv, hfunnel, howned, hmem, hserved⟩ := h.evidence hbefore
    obtain ⟨hmapping, hport, hhost, htoken, -⟩ := howned
    refine ⟨v, hv, visibilityOwnsEnabledConfig_iff.mpr ⟨_, hmem, rfl, hport, ?_⟩⟩
    rw [ClearPlan.handler_apply hremovable]
    refine (if_neg ?_).trans hserved
    rintro ⟨rfl, hpath⟩
    rw [PublicationKey.eq_of hport hpath] at hmapping
    exact hnot ⟨hcovered v mapping hv hfunnel hmapping hhost htoken, rfl⟩

end Clear

end TailscaleDart.Publication
