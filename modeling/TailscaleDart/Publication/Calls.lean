import TailscaleDart.Publication.Manager

/-!
# Publication.Calls — what each call of the manager can do

One inversion per call: a forward, a clear or a close that returns has done one of a few things to the tables and to
the server's configuration. Every property of the manager is derived from these three.
-/

namespace TailscaleDart.Publication

open TailscaleDart.Conc

/-! ## Errors that are not about a lost commit -/

section Except

variable {ε α β : Type}

theorem bind_ok {x : Except ε α} {f : α → Except ε β} {b : β} (h : (x >>= f) = .ok b) :
    ∃ a, x = .ok a ∧ f a = .ok b := by
  cases x with
  | error err => cases h
  | ok a => exact ⟨a, rfl, h⟩

end Except

/-- No error of the computation is, or wraps, an indeterminate commit. -/
def Plain {α : Type} (x : Except Error α) : Prop :=
  ∀ err, x = .error err → IsPlain err

section Plain

variable {α β : Type}

theorem Plain.ok (a : α) : Plain (.ok a) := nofun

theorem Plain.text (message : String) : Plain (.error (.text message) : Except Error α) := by
  rintro _ ⟨⟩
  rfl

theorem Plain.bind {x : Except Error α} {f : α → Except Error β} (h : Plain x) (hf : ∀ a, Plain (f a)) :
    Plain (x >>= f) := by
  cases x with
  | error err =>
    rintro _ ⟨⟩
    exact h err rfl
  | ok a => exact hf a

theorem Plain.ite {p : Prop} [Decidable p] {x y : Except Error α} (hx : Plain x) (hy : Plain y) :
    Plain (if p then x else y) := by
  split
  · exact hx
  · exact hy

end Plain

theorem plain_validateServePort (name : String) (port : Int) : Plain (validateServePort name port) :=
  .ite (.text _) (.ok _)

theorem plain_normalizeServePath (raw : Text) : Plain (normalizeServePath raw) :=
  .ite (.ok _) (.ite (.text _) (.ite (.text _) (.ite (.text _) (.ok _))))

theorem plain_normalizeServeLocalAddress (up : Upstream) (address : Text) :
    Plain (normalizeServeLocalAddress up address) :=
  .ite (.text _) (.ite (.ok _) (.ite (.ok _) (.text _)))

theorem plain_serveHostFromStatus (status : Status) : Plain (serveHostFromStatus status) := by
  unfold serveHostFromStatus
  split
  · exact .text _
  · exact .ite (.text _) (.ok _)

theorem plain_checkServeFeatures (payload : ServeForwardPayload) (port : Nat) (self : SelfStatus) :
    Plain (checkServeFeatures payload port self) := by
  unfold checkServeFeatures
  split
  · exact .text _
  split
  · rintro _ ⟨⟩
    rfl
  split
  · exact .text _
  · exact .ok ()

theorem plain_forwardPlan [Ipn] (up : Upstream) (status : Status) (payload : ServeForwardPayload) (sc : ServeConfig) :
    Plain (forwardPlan up status payload sc) := by
  unfold forwardPlan
  refine (plain_validateServePort _ _).bind fun port => ?_
  refine (plain_validateServePort _ _).bind fun localPort => ?_
  refine (plain_normalizeServeLocalAddress up _).bind fun localAddress => ?_
  refine (plain_normalizeServePath _).bind fun mount => ?_
  refine (plain_serveHostFromStatus status).bind fun dnsName => ?_
  split
  · exact .text _
  refine (plain_checkServeFeatures payload port _).bind fun _ => ?_
  split
  · exact .text _
  split
  · exact .text _
  · exact .ok _

/-! ## Forward -/

namespace ForwardPlan

/-- The configuration a planned forward makes of another. -/
def apply [Ipn] (plan : ForwardPlan) (payload : ServeForwardPayload) (sc : ServeConfig) : ServeConfig :=
  (sc.setWebHandler (.proxy plan.proxy) plan.dnsName plan.port plan.mount payload.https).setFunnel plan.dnsName
  plan.port
    payload.funnel

def key (plan : ForwardPlan) : PublicationKey := ⟨plan.port, plan.mount⟩

def hostPort (plan : ForwardPlan) : HostPort := ⟨plan.dnsName, plan.port⟩

/-- What `mappingFromPublication` checks. -/
structure Valid (plan : ForwardPlan) : Prop where
  host : plan.dnsName ≠ []
  port : plan.port ≠ 0
  path : plan.mount ≠ []

/-- What the callback captures. -/
def captured (plan : ForwardPlan) (payload : ServeForwardPayload) (generation token : Nat) :
    PublicationManager.Captured where
  publication :=
    { port := plan.port
      localAddress := plan.localAddress
      localPort := plan.localPort
      path := plan.mount
      https := payload.https
      funnel := payload.funnel
      generation := generation
      mappingToken := token
      host := plan.dnsName }
  attempted := { host := plan.dnsName, token := token, variants := [.proxy plan.proxy] }

theorem handler_apply [Ipn] (plan : ForwardPlan) (payload : ServeForwardPayload) (sc : ServeConfig) (hp : HostPort)
    (k : Text) :
    (plan.apply payload sc).handler hp k = if hp = plan.hostPort then if k = plan.mount then some (.proxy plan.proxy)
        else if ServeConfig.IsSibling plan.mount k then none else sc.handler hp k else sc.handler hp k := by
  unfold apply
  rw [ServeConfig.handler_setFunnel, ServeConfig.handler_setWebHandler]
  rfl

theorem funnelOn_apply [Ipn] (plan : ForwardPlan) (payload : ServeForwardPayload) (sc : ServeConfig) (hp : HostPort) :
    (plan.apply payload sc).funnelOn hp = if hp = plan.hostPort then payload.funnel else sc.funnelOn hp := by
  unfold apply
  rw [ServeConfig.funnelOn_setFunnel, ServeConfig.funnelOn_setWebHandler]
  rfl

end ForwardPlan

/-- The coordinate and the host of a plan are those of the payload and the status. -/
theorem forwardPlan_ok [Ipn] {up : Upstream} {status : Status} {payload : ServeForwardPayload} {sc : ServeConfig}
    {plan : ForwardPlan} (h : forwardPlan up status payload sc = .ok plan) :
    validateServePort "tailnetPort" payload.tailnetPort = .ok plan.port ∧
      normalizeServePath payload.path = .ok plan.mount ∧ serveHostFromStatus status = .ok plan.dnsName := by
  unfold forwardPlan at h
  obtain ⟨port, hport, h⟩ := bind_ok h
  obtain ⟨localPort, -, h⟩ := bind_ok h
  obtain ⟨localAddress, -, h⟩ := bind_ok h
  obtain ⟨mount, hmount, h⟩ := bind_ok h
  obtain ⟨dnsName, hname, h⟩ := bind_ok h
  split at h
  · cases h
  obtain ⟨-, -, h⟩ := bind_ok h
  split at h
  · cases h
  split at h
  · cases h
  · cases h
    exact ⟨hport, hmount, hname⟩

open PublicationManager

/-- The callback of a forward fails, or it changes the configuration as planned. -/
theorem forwardApply_cases [Ipn] (up : Upstream) (status : Status) (payload : ServeForwardPayload)
    (generation token : Nat) (sc : ServeConfig) (captured : Captured) :
    (∃ err, (forwardApply up status payload generation token sc captured).changed = .error err ∧
        IsPlain err) ∨
      ∃ plan : ForwardPlan, plan.Valid ∧ forwardPlan up status payload sc = .ok plan ∧
        forwardApply up status payload generation token sc captured =
          ⟨plan.apply payload sc, plan.captured payload generation token, .ok true⟩ := by
  unfold forwardApply applyServeForward
  cases hplan : forwardPlan up status payload sc with
  | error err => exact .inl ⟨err, rfl, plain_forwardPlan up status payload sc err hplan⟩
  | ok plan =>
    have hinstalled : (plan.apply payload sc).handler ⟨plan.dnsName, plan.port⟩ plan.mount =
        some (.proxy plan.proxy) := by
      have hhandler := plan.handler_apply payload sc plan.hostPort plan.mount
      rw [if_pos rfl, if_pos rfl] at hhandler
      exact hhandler
    simp only [bind, Except.bind, pure, Except.pure, mappingFromPublication]
    split
    · next hmade =>
      split at hmade
      · cases hmade
        exact .inl ⟨_, rfl, rfl⟩
      · split at hmade
        · cases hmade
          exact .inl ⟨_, rfl, rfl⟩
        · cases hmade
    · next attempted hmade =>
      split at hmade
      · cases hmade
      · next hchecked =>
        simp only [Bool.or_eq_true, List.isEmpty_iff, decide_eq_true_eq, not_or] at hchecked
        obtain ⟨⟨⟨hhost, hport⟩, hpath⟩, -⟩ := hchecked
        split at hmade
        · cases hmade
        · next handler hhandler =>
          cases hmade
          obtain rfl := Option.some.inj (hhandler.symm.trans hinstalled)
          exact .inr ⟨plan, ⟨hhost, hport, hpath⟩, rfl, rfl⟩

theorem forwardApply_plain [Ipn] (up : Upstream) (status : Status) (payload : ServeForwardPayload)
    (generation token : Nat) (sc : ServeConfig) (captured : Captured) :
    Plain (forwardApply up status payload generation token sc captured).changed := by
  intro err herr
  rcases forwardApply_cases up status payload generation token sc captured
    with ⟨err', herr', hplain⟩ | ⟨plan, -, -, heq⟩
  · rw [herr'] at herr
    cases herr
    exact hplain
  · rw [heq] at herr
    cases herr

namespace PublicationManager

/-- The manager after a token was taken. -/
def issued (m : PublicationManager) : PublicationManager := { m with nextMappingToken := m.nextMappingToken + 1 }

theorem armPendingDeliveryLocked_eq (publication : ServePublication) (m : PublicationManager) :
    ∃ pendingDelivery, m.armPendingDeliveryLocked publication = { m with pendingDelivery := pendingDelivery } ∧
      ∀ t ∈ pendingDelivery, t ∈ m.pendingDelivery ∨ t = publication.mappingToken := by
  unfold armPendingDeliveryLocked
  split
  · exact ⟨_, rfl, fun t ht => .inl ht⟩
  · refine ⟨_, rfl, fun t ht => ?_⟩
    rcases Finmap.mem_insert.mp ht with rfl | hold
    · exact .inr rfl
    · exact .inl hold

/-- The answer of the Set was lost. -/
def isIndeterminate : Except Error ServePublication → Bool
  | .ok _ => false
  | .error err => err.is .publicationCommitIndeterminate

variable {staleAfter : Bool} {m m' : PublicationManager} {result : Except Error ServePublication}

/-- What a confirmed forward leaves, whether or not its runtime is stale by then. -/
theorem finishForward_confirmed {token : Nat} {captured : Captured}
    (h : m.finishForward token staleAfter none captured = (result, m')) : isIndeterminate result = false ∧
      ∃ pendingDelivery, m' = { m.recordForward token captured with pendingDelivery := pendingDelivery } ∧
        ∀ t ∈ pendingDelivery, t ∈ (m.recordForward token captured).pendingDelivery ∨
          t = captured.publication.mappingToken := by
  unfold finishForward at h
  simp only at h
  split at h
  · cases h
    exact ⟨rfl, _, rfl, fun t ht => .inl ht⟩
  · cases h
    exact ⟨rfl, armPendingDeliveryLocked_eq _ _⟩

theorem finishForward_publication {token : Nat} {captured : Captured}
    {publication : ServePublication} (h : m.finishForward token staleAfter none captured = (.ok publication, m')) :
    publication = captured.publication := by
  unfold finishForward at h
  simp only at h
  split at h
  · cases h
  · cases h
    rfl

/-- What a forward can do. -/
inductive Forwarded [Ipn] (S : Surroundings ServeConfig) (up : Upstream) (payload : ServeForwardPayload)
    (e : ForwardEnv)
    (m : PublicationManager) : Except Error ServePublication → PublicationManager → Versioned ServeConfig → Prop
  | refused {err : Error} {m' : PublicationManager} {v : Versioned ServeConfig} :
      IsPlain err → m' = m ∨ m' = m.issued → S.server v →
      Forwarded S up payload e m (.error err) m' v
  | confirmed {status : Status} {c : ServeConfig} {plan : ForwardPlan} {result : Except Error ServePublication}
      {m' : PublicationManager} {v : Versioned ServeConfig} :
      m.closed = false → e.status = .ok status → S.base c → plan.Valid → forwardPlan up status payload c = .ok plan →
      v.config = plan.apply payload c →
      m.issued.finishForward (m.nextMappingToken + 1) e.staleAfter none
          (plan.captured payload m.generation (m.nextMappingToken + 1)) = (result, m') →
      Forwarded S up payload e m result m' v
  | indeterminate {err : Error} {status : Status} {c : ServeConfig} {plan : ForwardPlan} {v : Versioned ServeConfig} :
      m.closed = false → S.lossy → err.is .publicationCommitIndeterminate = true → e.status = .ok status → S.base c →
      plan.Valid → forwardPlan up status payload c = .ok plan → S.server v ∨ v.config = plan.apply payload c →
      Forwarded S up payload e m (.error err)
        (m.issued.recordIndeterminateForward (m.nextMappingToken + 1)
          (plan.captured payload m.generation (m.nextMappingToken + 1))) v

/-- The tables after a confirmed forward. -/
structure ForwardRecorded (plan : ForwardPlan) (payload : ServeForwardPayload) (m m' : PublicationManager) : Prop where
  mappings : m'.mappings = m.mappings.insert plan.key ⟨plan.dnsName, m.nextMappingToken + 1, [.proxy plan.proxy]⟩
  visibility : m'.visibility = m.visibility.insert plan.hostPort
    ⟨m.nextMappingToken + 1, payload.funnel, [⟨plan.key, .proxy plan.proxy, payload.funnel⟩]⟩
  nextMappingToken : m'.nextMappingToken = m.nextMappingToken + 1
  closed : m'.closed = m.closed
  clientNil : m'.clientNil = m.clientNil
  generation : m'.generation = m.generation

variable {payload : ServeForwardPayload}

theorem finishForward_recorded {plan : ForwardPlan}
    (h : m.issued.finishForward (m.nextMappingToken + 1) staleAfter none
      (plan.captured payload m.generation (m.nextMappingToken + 1)) = (result, m')) :
    ForwardRecorded plan payload m m' := by
  obtain ⟨-, pendingDelivery, rfl, -⟩ := finishForward_confirmed h
  constructor
  · exact recordForward_mappings (m.nextMappingToken + 1) _ m.issued
  · exact recordForward_visibility (m.nextMappingToken + 1) _ m.issued
  · exact recordForward_nextMappingToken (m.nextMappingToken + 1) _ m.issued
  · exact recordForward_closed (m.nextMappingToken + 1) _ m.issued
  · exact recordForward_clientNil (m.nextMappingToken + 1) _ m.issued
  · exact recordForward_generation (m.nextMappingToken + 1) _ m.issued

theorem mem_mergeDedup {T : Type} [DecidableEq T] {a b : List T} {x : T} : x ∈ mergeDedup a b ↔ x ∈ a ∨ x ∈ b := by
  have hloop : ∀ (l out : List T),
      x ∈ l.foldl (fun out candidate => if candidate ∈ out then out else out ++ [candidate]) out ↔ x ∈ out ∨ x ∈ l := by
    intro l
    induction l with
    | nil => simp
    | cons y l ih =>
      intro out
      rw [List.foldl_cons, ih]
      split
      · next hy =>
        constructor
        · rintro (hout | hl)
          · exact .inl hout
          · exact .inr (.tail y hl)
        · rintro (hout | hl)
          · exact .inl hout
          · rcases List.mem_cons.mp hl with rfl | hl
            · exact .inl hy
            · exact .inr hl
      · simp [or_assoc]
  unfold mergeDedup
  rw [hloop, ← List.mem_append]
  simp

/-- The tables after a forward whose answer was lost: the attempted handler and bit, beside what was recorded. -/
theorem recordIndeterminateForward_tables (plan : ForwardPlan) (payload : ServeForwardPayload)
    (m : PublicationManager) : ∃ variants evidence, m.issued.recordIndeterminateForward (m.nextMappingToken + 1)
        (plan.captured payload m.generation (m.nextMappingToken + 1)) = { m.issued with
            mappings := m.mappings.insert plan.key ⟨plan.dnsName, m.nextMappingToken + 1, variants⟩
            visibility := m.visibility.insert plan.hostPort ⟨m.nextMappingToken + 1, payload.funnel, evidence⟩ } ∧
      (∀ h, h ∈ variants ↔ h = .proxy plan.proxy ∨ ∃ prior, m.mappings.lookup plan.key = some prior ∧
        h ∈ prior.variants) ∧
      ∀ ev, ev ∈ evidence ↔ ev = ⟨plan.key, .proxy plan.proxy, payload.funnel⟩ ∨
        ∃ prior, m.visibility.lookup plan.hostPort = some prior ∧ ev ∈ prior.evidence := by
  refine ⟨_, _, rfl, ?_, ?_⟩
  · intro h
    dsimp only [recordIndeterminateForward, issued]
    split
    case h_1 prior heq =>
      have hprior : m.mappings.lookup plan.key = some prior := heq
      show h ∈ mergeDedup prior.variants [_] ↔ _
      rw [hprior, mem_mergeDedup]
      simp [or_comm]
    case h_2 heq =>
      have hnone : m.mappings.lookup plan.key = none := heq
      show h ∈ [_] ↔ _
      simp [hnone]
  · intro ev
    dsimp only [recordIndeterminateForward, issued]
    split
    case h_1 prior heq =>
      have hprior : m.visibility.lookup plan.hostPort = some prior := heq
      show ev ∈ mergeDedup prior.evidence [⟨plan.key, .proxy plan.proxy, payload.funnel⟩] ↔ _
      rw [hprior, mem_mergeDedup]
      simp [or_comm]
    case h_2 heq =>
      have hnone : m.visibility.lookup plan.hostPort = none := heq
      show ev ∈ [⟨plan.key, .proxy plan.proxy, payload.funnel⟩] ↔ _
      simp [hnone]

theorem requireCurrentLocked_none {stale : Bool} (h : m.requireCurrentLocked stale = none) :
    m.closed = false ∧ stale = false := by
  unfold requireCurrentLocked at h
  split at h
  · cases h
  · next hopen => simpa using hopen

theorem requireCurrentLocked_plain {stale : Bool} {err : Error}
    (h : m.requireCurrentLocked stale = some err) : IsPlain err := by
  unfold requireCurrentLocked at h
  split at h
  · cases h
    rfl
  · cases h

variable {S : Surroundings ServeConfig}

theorem forwardMutate_cases [Ipn] {up : Upstream} {status : Status} {e : ForwardEnv} {server : Versioned ServeConfig}
    {s : ServeState ServeConfig} (hserver : S.server server) (hanswers : ∀ a ∈ e.answers.list, S.allow a)
    (hopen : m.closed = false) (hstatus : e.status = .ok status)
    (h : m.forwardMutate up payload status e server = some ((result, m'), s)) :
    Forwarded S up payload e m result m' s.server := by
  unfold forwardMutate nextTokenLocked at h
  split at h
  · next err htoken =>
    split at htoken
    · cases htoken
      cases h
      exact .refused (notAppliedError_indeterminate rfl) (.inl rfl) hserver
    · cases htoken
  · next token m1 htoken =>
    split at htoken
    · cases htoken
    cases htoken
    obtain ⟨⟨r, s1⟩, hrun, heq⟩ := Option.map_eq_some_iff.mp h
    obtain ⟨hfinish, rfl⟩ := Prod.mk.inj heq
    have hplain : ∀ c w, Plain (forwardApply up status payload m.generation (m.nextMappingToken + 1) c w).changed :=
      forwardApply_plain up status payload m.generation (m.nextMappingToken + 1)
    have hcases := forwardApply_cases up status payload m.generation (m.nextMappingToken + 1)
    have houtcome := (mutateLocked_outcome _ hplain hserver hanswers hrun).1
    cases houtcome with
    | refused herr hv =>
      simp only [finishForward, herr, Bool.false_eq_true, if_false] at hfinish
      cases hfinish
      exact .refused herr (.inr rfl) hv
    | @unchanged c w _ hbase hchanged hv =>
      -- the callback of a forward always changes the configuration
      rcases hcases c w with ⟨err, herr, -⟩ | ⟨plan, -, -, happly⟩
      · rw [herr] at hchanged
        cases hchanged
      · rw [happly] at hchanged
        cases hchanged
    | @committed c w _ hbase hchanged hv =>
      rcases hcases c w with ⟨err, herr, -⟩ | ⟨plan, hvalid, hplan, happly⟩
      · rw [herr] at hchanged
        cases hchanged
      · rw [happly] at hv hfinish
        exact .confirmed hopen hstatus hbase hvalid hplan hv hfinish
    | @unknown err c w _ hlossy herr hbase hchanged hv =>
      rcases hcases c w with ⟨err, herr', -⟩ | ⟨plan, hvalid, hplan, happly⟩
      · rw [herr'] at hchanged
        cases hchanged
      · rw [happly] at hv hfinish
        simp only [finishForward, herr, if_true] at hfinish
        cases hfinish
        exact .indeterminate hopen hlossy herr hstatus hbase hvalid hplan hv

theorem forward_cases [Ipn] {up : Upstream} {e : ForwardEnv} {server : Versioned ServeConfig}
    {s : ServeState ServeConfig} (hserver : S.server server) (hanswers : ∀ a ∈ e.answers.list, S.allow a)
    (h : m.forward up payload e server = some ((result, m'), s)) : Forwarded S up payload e m result m' s.server := by
  unfold forward at h
  split at h
  · next err hcurrent =>
    cases h
    exact .refused (notAppliedError_indeterminate (requireCurrentLocked_plain hcurrent)) (.inl rfl) hserver
  · next err _ herr =>
    cases h
    exact .refused (notAppliedError_indeterminate (e.context err herr)) (.inl rfl) hserver
  · next err _ _ herr =>
    cases h
    have hplain : (if e.staleResult then GoError.sentinel .runtimeStale else .foreign err).is
        .publicationCommitIndeterminate = false := by
      split <;> rfl
    exact .refused (notAppliedError_indeterminate hplain) (.inl rfl) hserver
  · next status hcurrent _ hstatus =>
    split at h
    · cases h
      exact .refused (notAppliedError_indeterminate rfl) (.inl rfl) hserver
    · exact forwardMutate_cases hserver hanswers (requireCurrentLocked_none hcurrent).1 hstatus h

end PublicationManager

/-- The coordinate of a forward. -/
def ServeForwardPayload.key (payload : ServeForwardPayload) : Except Error PublicationKey :=
  clearKey { tailnetPort := payload.tailnetPort, path := payload.path }

theorem plan_key [Ipn] {up : Upstream} {status : Status} {payload : ServeForwardPayload} {sc : ServeConfig}
    {plan : ForwardPlan} (h : forwardPlan up status payload sc = .ok plan) : payload.key = .ok plan.key := by
  obtain ⟨hport, hmount, -⟩ := forwardPlan_ok h
  simp only [ServeForwardPayload.key, clearKey, hport, hmount]
  rfl

/-! ## Clear -/

/-- The configuration a planned clear makes of another. -/
def PublicationManager.ClearPlan.apply [Ipn] (plan : ClearPlan) (sc : ServeConfig) : ServeConfig :=
  removeServeWebHandlerWithFunnelCleanup plan.host plan.key.port plan.key.path plan.cleanupFunnelWhenEmpty
    (if plan.funnel then sc.setFunnel plan.host plan.key.port false else sc)

/-- The callback of a clear fails, finds the handler replaced, or clears as planned. -/
theorem clearApply_cases [Ipn] (plan : ClearPlan) (sc : ServeConfig) (w : Unit) :
    (∃ err, clearApply plan sc w = ⟨sc, (), .error err⟩ ∧ IsPlain err) ∨
      (plan.exact = true ∧ mappingMatchesServeConfig plan.mapping sc plan.key = false ∧
        clearApply plan sc w = ⟨sc, (), .ok false⟩) ∨
      ((plan.exact = true → mappingMatchesServeConfig plan.mapping sc plan.key = true) ∧
        clearApply plan sc w = ⟨plan.apply sc, (), .ok (decide (sc ≠ plan.apply sc))⟩) := by
  unfold clearApply applyServeClearForHostWithFunnelCleanup
  by_cases hreplaced : (plan.exact && !mappingMatchesServeConfig plan.mapping sc plan.key) = true
  · rw [if_pos hreplaced]
    simp only [Bool.and_eq_true, Bool.not_eq_true'] at hreplaced
    exact .inr (.inl ⟨hreplaced.1, hreplaced.2, rfl⟩)
  · rw [if_neg hreplaced]
    by_cases htcp : sc.isTCPForwardingOnPort plan.key.port = true
    · rw [if_pos htcp]
      exact .inl ⟨_, rfl, rfl⟩
    · rw [if_neg htcp]
      have hmatches : plan.exact = true → mappingMatchesServeConfig plan.mapping sc plan.key = true := by
        simpa using hreplaced
      exact .inr (.inr ⟨hmatches, rfl⟩)

theorem clearApply_plain [Ipn] (plan : ClearPlan) (sc : ServeConfig) (w : Unit) :
    Plain (clearApply plan sc w).changed := by
  intro err herr
  rcases clearApply_cases plan sc w with ⟨err', heq, hplain⟩ | ⟨-, -, heq⟩ | ⟨-, heq⟩
  · rw [heq] at herr
    cases herr
    exact hplain
  · rw [heq] at herr
    cases herr
  · rw [heq] at herr
    cases herr

namespace PublicationManager

/-- Where the plan of a clear comes from. -/
inductive Planned (payload : ServeClearPayload) (e : ClearEnv) (m : PublicationManager) : ClearPlan → Prop
  | exact {token : Nat} {key : PublicationKey} {plan : ClearPlan} :
      payload.clearMode = .ok (.exact m.generation token) → clearKey payload = .ok key →
      m.planExact token key = some plan → Planned payload e m plan
  | coordinate {key : PublicationKey} {host : Text} :
      payload.clearMode = .ok .coordinate → clearKey payload = .ok key → clearHost e = .ok host →
      Planned payload e m (m.planCoordinate payload.funnel host key)

/-- What a confirmed clear left on the server: an exact clear that found its handler replaced left it alone. -/
inductive Withdrawn [Ipn] (S : Surroundings ServeConfig) (plan : ClearPlan) (c : ServeConfig) :
    Versioned ServeConfig → Prop
  | replaced {v : Versioned ServeConfig} : plan.exact = true →
      mappingMatchesServeConfig plan.mapping c plan.key = false → S.server v → Withdrawn S plan c v
  | nothing {v : Versioned ServeConfig} : plan.apply c = c → S.server v → Withdrawn S plan c v
  | applied {v : Versioned ServeConfig} :
      (plan.exact = true → mappingMatchesServeConfig plan.mapping c plan.key = true) → v.config = plan.apply c →
      Withdrawn S plan c v

/-- What a clear can do. -/
inductive Cleared [Ipn] (S : Surroundings ServeConfig) (payload : ServeClearPayload) (e : ClearEnv)
    (m : PublicationManager) : Option Error → PublicationManager → ServeState ServeConfig → Prop
  /-- Nothing was asked of the server. -/
  | idle {result : Option Error} {v : Versioned ServeConfig} :
      (∀ err, result = some err → IsPlain err) → S.server v →
      Cleared S payload e m result m ⟨v, []⟩
  | refused {plan : ClearPlan} {err : Error} {s : ServeState ServeConfig} : m.closed = false →
      IsPlain err → Planned payload e m plan →
      Traced (clearApply plan) s.log → S.server s.server → Cleared S payload e m (some err) m s
  | confirmed {plan : ClearPlan} {c : ServeConfig} {s : ServeState ServeConfig} : m.closed = false →
      Planned payload e m plan → Traced (clearApply plan) s.log → S.base c → Withdrawn S plan c s.server →
      ranges e.order (m.mappings.erase plan.key) = true → Cleared S payload e m none (m.recordClear plan e.order) s
  | indeterminate {plan : ClearPlan} {c : ServeConfig} {err : Error} {s : ServeState ServeConfig} : m.closed = false →
      S.lossy → err.is .publicationCommitIndeterminate = true → Planned payload e m plan →
      Traced (clearApply plan) s.log →
      S.base c → S.server s.server ∨ s.server.config = plan.apply c → Cleared S payload e m (some err) m s

variable {S : Surroundings ServeConfig}
  {e : ClearEnv} {m m' : PublicationManager} {payload : ServeClearPayload} {result : Option Error}
  {s : ServeState ServeConfig} {server : Versioned ServeConfig}

theorem clearMutate_cases [Ipn] {plan : ClearPlan} (hserver : S.server server)
    (hanswers : ∀ a ∈ e.answers.list, S.allow a) (hopen : m.closed = false) (hplan : Planned payload e m plan)
    (h : m.clearMutate plan e server = some ((result, m'), s)) : Cleared S payload e m result m' s := by
  unfold clearMutate at h
  obtain ⟨⟨r, s1⟩, hrun, h⟩ := Option.bind_eq_some_iff.mp h
  have hcases := clearApply_cases plan
  obtain ⟨houtcome, htraced⟩ := mutateLocked_outcome _ (clearApply_plain plan) hserver hanswers hrun
  cases houtcome with
  | refused herr hv =>
    cases h
    exact .refused hopen herr hplan htraced hv
  | @unchanged c w _ hbase hchanged hv =>
    simp only [Option.ite_none_right_eq_some, Option.some.injEq, Prod.mk.injEq] at h
    obtain ⟨hranges, ⟨rfl, rfl⟩, rfl⟩ := h
    apply Cleared.confirmed hopen hplan htraced hbase _ hranges
    rcases hcases c w with ⟨err, heq, -⟩ | ⟨hexact, hreplaced, -⟩ | ⟨-, heq⟩
    · rw [heq] at hchanged
      cases hchanged
    · exact .replaced hexact hreplaced hv
    · rw [heq] at hchanged
      have hsame : c = plan.apply c := by simpa using hchanged
      exact .nothing hsame.symm hv
  | @committed c w _ hbase hchanged hv =>
    simp only [Option.ite_none_right_eq_some, Option.some.injEq, Prod.mk.injEq] at h
    obtain ⟨hranges, ⟨rfl, rfl⟩, rfl⟩ := h
    apply Cleared.confirmed hopen hplan htraced hbase _ hranges
    rcases hcases c w with ⟨err, heq, -⟩ | ⟨-, -, heq⟩ | ⟨hmatches, heq⟩
    · rw [heq] at hchanged
      cases hchanged
    · rw [heq] at hchanged
      cases hchanged
    · rw [heq] at hv
      exact .applied hmatches hv
  | @unknown err c w _ hlossy herr hbase hchanged hv =>
    cases h
    rcases hcases c w with ⟨err, heq, -⟩ | ⟨-, -, heq⟩ | ⟨-, heq⟩
    · rw [heq] at hchanged
      cases hchanged
    · rw [heq] at hchanged
      cases hchanged
    · rw [heq] at hv
      exact .indeterminate hopen hlossy herr hplan htraced hbase hv

theorem plain_clearMode (payload : ServeClearPayload) : Plain payload.clearMode := by
  unfold ServeClearPayload.clearMode
  split
  · exact .ok _
  · exact .ite (.text _) (.ok _)
  · exact .text _

theorem plain_clearKey (payload : ServeClearPayload) : Plain (clearKey payload) := by
  unfold clearKey
  apply (plain_validateServePort _ _).bind
  intro port
  apply (plain_normalizeServePath _).bind
  exact fun path => .ok _

theorem plain_clearHost (e : ClearEnv) : Plain (clearHost e) := by
  intro err herr
  unfold clearHost at herr
  split at herr
  · next err' hcontext =>
    cases herr
    exact e.context err hcontext
  · cases herr
    split <;> rfl
  · next status _ _ => exact plain_serveHostFromStatus status err herr

theorem Cleared.failed [Ipn] {err : Error} {v : Versioned ServeConfig} (herr : IsPlain err)
    (hv : S.server v) : Cleared S payload e m (some (notAppliedError err)) m ⟨v, []⟩ := by
  apply Cleared.idle _ hv
  rintro _ ⟨⟩
  exact notAppliedError_indeterminate herr

theorem clear_cases [Ipn] (hserver : S.server server) (hanswers : ∀ a ∈ e.answers.list, S.allow a)
    (h : m.clear payload e server = some ((result, m'), s)) : Cleared S payload e m result m' s := by
  unfold clear at h
  split at h
  · next err hmode =>
    cases h
    exact .failed (plain_clearMode payload err hmode) hserver
  · next generation token hmode =>
    by_cases hgeneration : generation = m.generation
    · subst hgeneration
      rw [if_neg (by simp)] at h
      cases hcurrent : m.requireCurrentLocked e.stale with
      | some err =>
        simp only [hcurrent, Option.isSome_some, if_true] at h
        cases h
        exact .idle nofun hserver
      | none =>
        simp only [hcurrent, Option.isSome_none, Bool.false_eq_true, if_false] at h
        split at h
        · next err hkey =>
          cases h
          exact .failed (plain_clearKey payload err hkey) hserver
        · next key hkey =>
          split at h
          · cases h
            exact .idle nofun hserver
          · next plan hplan =>
            exact clearMutate_cases hserver hanswers (requireCurrentLocked_none hcurrent).1 (.exact hmode hkey hplan) h
    · rw [if_pos hgeneration] at h
      cases h
      exact .idle nofun hserver
  · next hmode =>
    split at h
    · next err hcurrent =>
      cases h
      exact .failed (requireCurrentLocked_plain hcurrent) hserver
    · next hcurrent =>
      split at h
      · next err hkey =>
        cases h
        exact .failed (plain_clearKey payload err hkey) hserver
      · next err _ hhost =>
        cases h
        exact .failed (plain_clearHost e err hhost) hserver
      · next key host hkey hhost =>
        exact clearMutate_cases hserver hanswers (requireCurrentLocked_none hcurrent).1 (.coordinate hmode hkey hhost) h

/-! ## Close -/

/-- The manager after a close. -/
def emptied (m : PublicationManager) : PublicationManager :=
  { m with closed := true, mappings := ∅, visibility := ∅, pendingDelivery := ∅ }

/-- What a close can do. -/
inductive Closed [Ipn] (S : Surroundings ServeConfig) (e : CloseEnv) (m : PublicationManager) :
    Option Error → PublicationManager → ServeState ServeConfig → Prop
  | already {v : Versioned ServeConfig} : m.closed = true → S.server v → Closed S e m none m ⟨v, []⟩
  | nothing {v : Versioned ServeConfig} : (m.mappings = ∅ ∧ m.visibility = ∅) ∨ m.clientNil = true → S.server v →
      Closed S e m none m.emptied ⟨v, []⟩
  | refused {err : Error} {s : ServeState ServeConfig} : Traced (m.closeApply e) s.log → S.server s.server →
      Closed S e m (some err) m.emptied s
  | confirmed {c : ServeConfig} {s : ServeState ServeConfig} : ranges e.visibilityOrder m.visibility = true →
      ranges e.mappingOrder m.mappings = true → Traced (m.closeApply e) s.log → S.base c →
      (m.sweep e.visibilityOrder e.mappingOrder c = c ∧ S.server s.server) ∨
        s.server.config = m.sweep e.visibilityOrder e.mappingOrder c →
      Closed S e m none m.emptied s
  | indeterminate {err : Error} {s : ServeState ServeConfig} : S.lossy → err.is .publicationCommitIndeterminate = true →
      Traced (m.closeApply e) s.log → Closed S e m (some err) m.emptied s

theorem close_cases [Ipn] {e : CloseEnv} (hserver : S.server server) (hanswers : ∀ a ∈ e.answers.list, S.allow a)
    (h : m.close e server = some ((result, m'), s)) : Closed S e m result m' s := by
  unfold close at h
  split at h
  · next hclosed =>
    cases h
    exact .already hclosed hserver
  simp only at h
  split at h
  · next hnothing =>
    cases h
    exact .nothing hnothing hserver
  split at h
  · next hranges =>
    simp only [Bool.and_eq_true] at hranges
    obtain ⟨⟨r, s1⟩, hrun, heq⟩ := Option.map_eq_some_iff.mp h
    simp only [Prod.mk.injEq] at heq
    obtain ⟨⟨rfl, rfl⟩, rfl⟩ := heq
    have hplain : ∀ c w, Plain (m.closeApply e c w).changed := fun c w => .ok _
    obtain ⟨houtcome, htraced⟩ := mutateLocked_outcome (S := S) _ hplain hserver hanswers hrun
    cases houtcome with
    | refused herr hv => exact .refused htraced hv
    | @unchanged c w _ hbase hchanged hv =>
      have hsame : c = m.sweep e.visibilityOrder e.mappingOrder c := by simpa [closeApply] using hchanged
      exact .confirmed hranges.1 hranges.2 htraced hbase (.inl ⟨hsame.symm, hv⟩)
    | committed hbase hchanged hv => exact .confirmed hranges.1 hranges.2 htraced hbase (.inr hv)
    | unknown hlossy herr hbase hchanged hv => exact .indeterminate hlossy herr htraced
  · cases h

end PublicationManager

/-! ## A quiet node

The calls of a node with a given DNS name, where nothing disturbs a mutation before its last step. -/

namespace Quiet

def upstream : Upstream where
  isLoopback _ := true
  equalFoldLocalhost _ := false
  expandProxyTargetValue target := .ok target

def status (host : String) : Status := ⟨some { dnsName := host.toList }⟩

def answers (steps : Nat) (last : ServeEnv ServeConfig) (h : last.contextErr = none) : Answers where
  list := List.replicate steps {} ++ [last]
  context := by
    intro e he err herr
    rcases List.mem_append.mp he with hfirst | hlast
    · rw [List.eq_of_mem_replicate hfirst] at herr
      cases herr
    · rw [List.mem_singleton.mp hlast, h] at herr
      cases herr

theorem answers_alone {steps : Nat} {last : ServeEnv ServeConfig} (h : last.contextErr = none)
    {server : Versioned ServeConfig} {lossy : Prop} (hexternal : last.external = none) (hnil : last.getNil = false)
    (hset : ∀ err, last.setErr = some err → isPreconditionsFailed err ∨ isKnownNotApplied err ∨ lossy) :
    ∀ a ∈ (answers steps last h).list, (Surroundings.alone server lossy).allow a := by
  intro a ha
  rcases List.mem_append.mp ha with hfirst | hlast
  · rw [List.eq_of_mem_replicate hfirst]
    exact ⟨rfl, nofun, nofun, nofun⟩
  · rw [List.mem_singleton.mp hlast]
    refine ⟨hexternal, ?_, ?_, hset⟩
    · rw [hnil]
      nofun
    · rw [h]
      nofun

/-- A forward is five steps and its Set. -/
def forwardEnv (host : String) (setErr : Option ClientError) (applies : Bool) : ForwardEnv where
  status := .ok (status host)
  answers := answers 5 { setErr := setErr, applies := applies } rfl

/-- A clear is five steps and its Set. -/
def clearEnv (host : String) : ClearEnv where
  status := .ok (status host)
  answers := answers 5 {} rfl
  order := []

/-- A close is three steps and its Set. -/
def closeEnv (visibilityOrder : List HostPort) (mappingOrder : List PublicationKey) : CloseEnv where
  answers := answers 3 {} rfl
  visibilityOrder := visibilityOrder
  mappingOrder := mappingOrder

def payload (port : Int) (path : String) (localPort : Int) (funnel : Bool) : ServeForwardPayload where
  tailnetPort := port
  localPort := localPort
  path := path.toList
  funnel := funnel

end Quiet

end TailscaleDart.Publication
