import TailscaleDart.Data.Table
import TailscaleDart.Publication.Outcome
import TailscaleDart.Publication.ServeConfig

/-!
# Publication.Manager — who owns which part of the configuration

`publicationManager` is the one Serve/Funnel authority of a runtime. It records, per port and path, the handlers it
may have installed (`mappings`), per `host:port`, whose Funnel policy is in force and what proves it (`visibility`),
and, per mapping token, the handles Dart has not yet acknowledged (`pendingDelivery`).

Its mutex is held over each call, so a call is one step on the tables; the server's configuration lives elsewhere,
and other writers may change it before every step of a mutation (`Answers`). A map is ranged over in an order the
environment chooses.
-/

namespace TailscaleDart.Publication

structure PublicationKey where
  port : Nat
  path : Text
  deriving DecidableEq, Repr

theorem PublicationKey.eq_of {key key' : PublicationKey} (hport : key.port = key'.port) (hpath : key.path = key'.path) :
    key = key' := by
  cases key
  cases hport
  cases hpath
  rfl

/-- `publicationMapping`; a `publicationVariant` is nothing but its handler. -/
structure PublicationMapping where
  host : Text := []
  token : Nat := 0
  variants : List HTTPHandler := []
  deriving DecidableEq, Repr

structure PublicationVisibilityEvidence where
  key : PublicationKey
  handler : HTTPHandler
  funnel : Bool
  deriving DecidableEq, Repr

structure PublicationVisibility where
  token : Nat
  funnel : Bool
  evidence : List PublicationVisibilityEvidence
  deriving DecidableEq, Repr

/-- `pendingPublicationDelivery`, without its timer. -/
structure PendingPublicationDelivery where
  generation : Nat
  mappingToken : Nat
  deriving DecidableEq, Repr

/-- `publicationManager`, with the generation of its runtime. A `publicationPortKey` is a `HostPort`. -/
structure PublicationManager where
  generation : Nat
  clientNil : Bool := false
  closed : Bool := false
  nextMappingToken : Nat := 0
  mappings : Finmap (fun _ : PublicationKey => PublicationMapping) := ∅
  visibility : Finmap (fun _ : HostPort => PublicationVisibility) := ∅
  pendingDelivery : Finmap (fun _ : Nat => PendingPublicationDelivery) := ∅

/-- The answers to the steps of one mutation; the context's error is one of the context package. -/
structure Answers where
  list : List (ServeEnv ServeConfig)
  context : ∀ e ∈ list, ∀ err, e.contextErr = some err → IsPlain err

/-- `order` is an order in which `table` may be ranged over. -/
def ranges {κ ν : Type} [DecidableEq κ] (order : List κ) (table : Finmap fun _ : κ => ν) : Bool :=
  decide (order.Nodup ∧ order.toFinset = table.keys)

/-! ## Records -/

/-- `mergeDedup`, where the entries are compared as values. -/
def mergeDedup {T : Type} [DecidableEq T] (a b : List T) : List T :=
  (a ++ b).foldl (fun out candidate => if candidate ∈ out then out else out ++ [candidate]) []

def mergePublicationVariants (a b : List HTTPHandler) : List HTTPHandler := mergeDedup a b

def mergeVisibilityEvidence (a b : List PublicationVisibilityEvidence) : List PublicationVisibilityEvidence :=
  mergeDedup a b

def visibilityEvidence (key : PublicationKey) (mapping : PublicationMapping) (funnel : Bool) :
    List PublicationVisibilityEvidence :=
  mapping.variants.map fun handler => ⟨key, handler, funnel⟩

def ServePublication.key (publication : ServePublication) : PublicationKey := ⟨publication.port, publication.path⟩

def mappingFromPublication (sc : ServeConfig) (publication : ServePublication) (token : Nat) :
    Except Error PublicationMapping :=
  if publication.host.isEmpty || publication.port = 0 || publication.path.isEmpty || token = 0 then
    .error (.text "invalid publication ownership metadata")
  else
    match sc.handler ⟨publication.host, publication.port⟩ publication.path with
    | none => .error (.text "ServeConfig mutation did not produce its web handler")
    | some handler => .ok { host := publication.host, token := token, variants := [handler] }

def mappingMatchesServeConfig (mapping : PublicationMapping) (sc : ServeConfig) (key : PublicationKey) : Bool :=
  !mapping.host.isEmpty &&
    match sc.handler ⟨mapping.host, key.port⟩ key.path with
    | none => false
    | some current => current ∈ mapping.variants

def visibilityOwnsEnabledConfig (sc : ServeConfig) (portKey : HostPort) (visibility : PublicationVisibility) : Bool :=
  visibility.evidence.any fun evidence =>
    evidence.funnel && evidence.key.port = portKey.port && sc.handler portKey evidence.key.path = some evidence.handler

inductive ClearMode where
  | coordinate
  | exact (generation token : Nat)
  deriving DecidableEq, Repr

def ServeClearPayload.clearMode (payload : ServeClearPayload) : Except Error ClearMode :=
  match payload.generation, payload.mappingToken with
  | none, none => .ok .coordinate
  | some generation, some token =>
    if generation = 0 || token = 0 then
      .error (.text "serve handle close requires positive generation and mappingToken")
    else .ok (.exact generation token)
  | _, _ => .error (.text "serve handle close requires positive generation and mappingToken")

namespace PublicationManager

def requireCurrentLocked (stale : Bool) (m : PublicationManager) : Option Error :=
  if m.closed || stale then some (.sentinel .runtimeStale) else none

def nextTokenLocked (m : PublicationManager) : Except Error (Nat × PublicationManager) :=
  if m.nextMappingToken = 2 ^ 64 - 1 then .error (.text "publication mapping token space exhausted")
  else .ok (m.nextMappingToken + 1, { m with nextMappingToken := m.nextMappingToken + 1 })

/-- What a mutation reads of the manager. -/
def mutation (requireCurrent : Bool) (m : PublicationManager) : Mutation :=
  { clientNil := m.clientNil, requireCurrent := requireCurrent, closed := m.closed }

/-! ## Deliveries -/

def armPendingDeliveryLocked (publication : ServePublication) (m : PublicationManager) : PublicationManager :=
  if publication.generation = 0 || publication.mappingToken = 0 then m
  else { m with pendingDelivery := m.pendingDelivery.insert publication.mappingToken
                  ⟨publication.generation, publication.mappingToken⟩ }

def cancelPendingDeliveryLocked (mappingToken : Nat) (m : PublicationManager) : PublicationManager :=
  { m with pendingDelivery := m.pendingDelivery.erase mappingToken }

def cancelAllPendingDeliveriesLocked (m : PublicationManager) : PublicationManager := { m with pendingDelivery := ∅ }

/-- The critical section of `expirePendingDelivery`: whether the callback is to be invoked. A token is armed once, so
the pending record of a token is the one the timer was armed with. -/
def expirePendingDelivery (pending : PendingPublicationDelivery) (m : PublicationManager) :
    Bool × PublicationManager :=
  if m.pendingDelivery.lookup pending.mappingToken = some pending then
    (true, { m with pendingDelivery := m.pendingDelivery.erase pending.mappingToken })
  else (false, m)

def acknowledgePublication (generation mappingToken : Nat) (stale : Bool) (m : PublicationManager) :
    Option Error × PublicationManager :=
  if generation = 0 || mappingToken = 0 then
    (some (.note "%w: invalid publication acknowledgement" (.sentinel .publicationCommitIndeterminate)), m)
  else if generation ≠ m.generation then (some (.sentinel .runtimeStale), m)
  else match m.requireCurrentLocked stale with
    | some err => (some err, m)
    | none =>
      match m.pendingDelivery.lookup mappingToken with
      | some pending =>
        if pending.generation ≠ generation then (some (.sentinel .runtimeStale), m)
        else (none, m.cancelPendingDeliveryLocked mappingToken)
      | none =>
        if m.mappings.any fun _ mapping => mapping.token = mappingToken then
          (some (.note "%w: live publication mapping token %d has no pending delivery receipt"
            (.sentinel .publicationCommitIndeterminate)), m)
        else (none, m)

/-! ## Forward -/

/-- The variables `forward` shares with its callback. -/
structure Captured where
  publication : ServePublication := {}
  attempted : PublicationMapping := {}
  deriving DecidableEq, Repr

/-- The callback of `forward`. -/
def forwardApply [Ipn] (up : Upstream) (status : Status) (payload : ServeForwardPayload) (generation token : Nat) :
    ServeConfigApply ServeConfig Captured := fun sc captured =>
  match applyServeForward up status payload sc with
  | .error err => ⟨sc, { captured with publication := {} }, .error err⟩
  | .ok (sc, publication) =>
    let publication := { publication with generation := generation, mappingToken := token }
    match mappingFromPublication sc publication token with
    | .error err => ⟨sc, ⟨publication, {}⟩, .error err⟩
    | .ok attempted => ⟨sc, ⟨publication, attempted⟩, .ok true⟩

/-- The tables after a confirmed forward. -/
def recordForward (token : Nat) (captured : Captured) (m : PublicationManager) : PublicationManager :=
  let key := captured.publication.key
  let m := match m.mappings.lookup key with
    | some prior => m.cancelPendingDeliveryLocked prior.token
    | none => m
  { m with
    mappings := m.mappings.insert key captured.attempted
    visibility := m.visibility.insert ⟨captured.attempted.host, key.port⟩
      { token := token
        funnel := captured.publication.funnel
        evidence := visibilityEvidence key captured.attempted captured.publication.funnel } }

section Fields

variable (token : Nat) (captured : Captured) (m : PublicationManager)

/-- A confirmed forward changes the tables only. -/
theorem recordForward_eq : ∃ pendingDelivery, m.recordForward token captured = { m with
      mappings := m.mappings.insert captured.publication.key captured.attempted
      visibility := m.visibility.insert ⟨captured.attempted.host, captured.publication.key.port⟩
        ⟨token, captured.publication.funnel,
          visibilityEvidence captured.publication.key captured.attempted captured.publication.funnel⟩
      pendingDelivery := pendingDelivery } := by
  unfold recordForward
  cases hprior : m.mappings.lookup captured.publication.key with
  | none | some prior =>
    simp only [hprior]
    exact ⟨_, rfl⟩

@[simp] theorem recordForward_mappings :
    (m.recordForward token captured).mappings = m.mappings.insert captured.publication.key captured.attempted := by
  obtain ⟨pendingDelivery, heq⟩ := recordForward_eq token captured m
  rw [heq]

@[simp] theorem recordForward_visibility :
    (m.recordForward token captured).visibility =
      m.visibility.insert ⟨captured.attempted.host, captured.publication.key.port⟩
        ⟨token, captured.publication.funnel,
          visibilityEvidence captured.publication.key captured.attempted captured.publication.funnel⟩ := by
  obtain ⟨pendingDelivery, heq⟩ := recordForward_eq token captured m
  rw [heq]

@[simp] theorem recordForward_nextMappingToken :
    (m.recordForward token captured).nextMappingToken = m.nextMappingToken := by
  obtain ⟨pendingDelivery, heq⟩ := recordForward_eq token captured m
  rw [heq]

@[simp] theorem recordForward_closed : (m.recordForward token captured).closed = m.closed := by
  obtain ⟨pendingDelivery, heq⟩ := recordForward_eq token captured m
  rw [heq]

@[simp] theorem recordForward_clientNil : (m.recordForward token captured).clientNil = m.clientNil := by
  obtain ⟨pendingDelivery, heq⟩ := recordForward_eq token captured m
  rw [heq]

@[simp] theorem recordForward_generation : (m.recordForward token captured).generation = m.generation := by
  obtain ⟨pendingDelivery, heq⟩ := recordForward_eq token captured m
  rw [heq]

/-- The delivery of the mapping the forward replaces is cancelled. -/
theorem mem_recordForward {token : Nat} {captured : Captured} {m : PublicationManager} {t : Nat}
    (h : t ∈ (m.recordForward token captured).pendingDelivery) :
    t ∈ m.pendingDelivery ∧ (m.mappings.lookup captured.publication.key).map (·.token) ≠ some t := by
  unfold recordForward cancelPendingDeliveryLocked at h
  cases hprior : m.mappings.lookup captured.publication.key with
  | none =>
    simp only [hprior] at h
    exact ⟨h, nofun⟩
  | some prior =>
    simp only [hprior, Finmap.mem_erase] at h
    exact ⟨h.2, fun heq => h.1 (Option.some.inj heq).symm⟩

end Fields

/-- The tables after a forward whose Set may or may not have been applied: the prior records are kept beside. -/
def recordIndeterminateForward (token : Nat) (captured : Captured) (m : PublicationManager) : PublicationManager :=
  let key := captured.publication.key
  let visibilityKey : HostPort := ⟨captured.attempted.host, key.port⟩
  let attemptedEvidence := visibilityEvidence key captured.attempted captured.publication.funnel
  let variants := match m.mappings.lookup key with
    | some prior => mergePublicationVariants prior.variants captured.attempted.variants
    | none => captured.attempted.variants
  let evidence := match m.visibility.lookup visibilityKey with
    | some prior => mergeVisibilityEvidence prior.evidence attemptedEvidence
    | none => attemptedEvidence
  { m with
    mappings := m.mappings.insert key { captured.attempted with variants := variants }
    visibility := m.visibility.insert visibilityKey
      { token := token, funnel := captured.publication.funnel, evidence := evidence } }

/-- The environment's part in a forward. -/
structure ForwardEnv where
  stale : Bool := false
  contextErr : Option Error := none
  /-- The context's error is one of the context package. -/
  context : ∀ err, contextErr = some err → IsPlain err := by nofun
  status : Except ClientError Status
  /-- The runtime is stale when the error of StatusWithoutPeers is sorted. -/
  staleResult : Bool := false
  /-- The runtime is stale after StatusWithoutPeers. -/
  staleStatus : Bool := false
  answers : Answers
  /-- The runtime is stale after the mutation. -/
  staleAfter : Bool := false

/-- The end of `forward`. -/
def finishForward (token : Nat) (staleAfter : Bool) (err : Option Error) (captured : Captured)
    (m : PublicationManager) : Except Error ServePublication × PublicationManager :=
  match err with
  | none =>
    let m := m.recordForward token captured
    if staleAfter then (.error (.sentinel .runtimeStale), m)
    else (.ok captured.publication, m.armPendingDeliveryLocked captured.publication)
  | some err =>
    if err.is .publicationCommitIndeterminate then (.error err, m.recordIndeterminateForward token captured)
    else (.error err, m)

/-- `forward` after its checks. -/
def forwardMutate [Ipn] (up : Upstream) (payload : ServeForwardPayload) (status : Status) (e : ForwardEnv)
    (server : Versioned ServeConfig) (m : PublicationManager) :
    Option ((Except Error ServePublication × PublicationManager) × ServeState ServeConfig) :=
  match m.nextTokenLocked with
  | .error err => some ((.error (notAppliedError err), m), ⟨server, []⟩)
  | .ok (token, m) =>
    ((mutateLocked (m.mutation true) (forwardApply up status payload m.generation token) {}).exec e.answers.list
      ⟨server, []⟩).map fun (r, s) => (m.finishForward token e.staleAfter r.1 r.2, s)

def forward [Ipn] (up : Upstream) (payload : ServeForwardPayload) (e : ForwardEnv) (server : Versioned ServeConfig)
    (m : PublicationManager) :
    Option ((Except Error ServePublication × PublicationManager) × ServeState ServeConfig) :=
  let refuse (err : Error) := some ((.error (notAppliedError err), m), ⟨server, []⟩)
  match m.requireCurrentLocked e.stale, e.contextErr, e.status with
  | some err, _, _ => refuse err
  | none, some err, _ => refuse err
  | none, none, .error err => refuse (if e.staleResult then .sentinel .runtimeStale else .foreign err)
  | none, none, .ok status =>
    if e.staleStatus then refuse (.sentinel .runtimeStale) else m.forwardMutate up payload status e server

/-! ## Clear -/

/-- What `clear` has decided before its mutation. -/
structure ClearPlan where
  exact : Bool
  key : PublicationKey
  host : Text
  mapping : PublicationMapping
  ownsVisibility : Bool
  funnel : Bool
  cleanupFunnelWhenEmpty : Bool
  deriving DecidableEq, Repr

def ClearPlan.visibilityKey (plan : ClearPlan) : HostPort := ⟨plan.host, plan.key.port⟩

/-- The plan of an exact clear; a token that does not own its coordinate has none. Only the latest forward on the
`host:port` may change its Funnel bit. -/
def planExact (token : Nat) (key : PublicationKey) (m : PublicationManager) : Option ClearPlan :=
  match m.mappings.lookup key with
  | none => none
  | some mapping =>
    if mapping.token ≠ token then none
    else
      let visibility := (m.visibility.lookup ⟨mapping.host, key.port⟩).filter fun v => v.token = token
      let funnel := visibility.any (·.funnel)
      some
        { exact := true
          key := key
          host := mapping.host
          mapping := mapping
          ownsVisibility := visibility.isSome
          funnel := funnel
          cleanupFunnelWhenEmpty := funnel }

/-- The plan of a coordinate clear, under the node's present DNS name. -/
def planCoordinate (funnel : Bool) (host : Text) (key : PublicationKey) (m : PublicationManager) : ClearPlan :=
  { exact := false
    key := key
    host := host
    mapping := (m.mappings.lookup key).getD {}
    ownsVisibility := false
    funnel := funnel
    cleanupFunnelWhenEmpty := true }

/-- The callback of `clear`. -/
def clearApply [Ipn] (plan : ClearPlan) : ServeConfigApply ServeConfig Unit := fun sc _ =>
  if plan.exact && !mappingMatchesServeConfig plan.mapping sc plan.key then ⟨sc, (), .ok false⟩
  else
    match applyServeClearForHostWithFunnelCleanup plan.host plan.key.port plan.key.path plan.funnel
        plan.cleanupFunnelWhenEmpty sc with
    | .error err => ⟨sc, (), .error err⟩
    | .ok cleared => ⟨cleared, (), .ok (decide (sc ≠ cleared))⟩

/-- One turn of the search for the newest mapping on a `host:port`. -/
def newerMapping (m : PublicationManager) (portKey : HostPort) (found : Option (PublicationKey × PublicationMapping))
    (key : PublicationKey) : Option (PublicationKey × PublicationMapping) :=
  match m.mappings.lookup key with
  | none => found
  | some mapping =>
    if key.port ≠ portKey.port ∨ mapping.host ≠ portKey.host then found
    else match found with
      | none => some (key, mapping)
      | some (_, replacement) => if mapping.token > replacement.token then some (key, mapping) else found

def newestMapping (portKey : HostPort) (order : List PublicationKey) (m : PublicationManager) :
    Option (PublicationKey × PublicationMapping) := order.foldl (m.newerMapping portKey) none

def transferVisibilityAfterCoordinateClearLocked (portKey : HostPort) (clearedKey : PublicationKey)
    (cleared : PublicationMapping) (order : List PublicationKey) (m : PublicationManager) : PublicationManager :=
  match m.visibility.lookup portKey with
  | none => m
  | some visibility =>
    if visibility.token ≠ cleared.token then
      let evidence := visibility.evidence.filter fun evidence => evidence.key ≠ clearedKey
      { m with visibility := m.visibility.insert portKey { visibility with evidence := evidence } }
    else
      match m.newestMapping portKey order with
      | none => { m with visibility := m.visibility.erase portKey }
      | some (replacementKey, replacement) =>
        { m with
          visibility := m.visibility.insert portKey
            { visibility with
              token := replacement.token
              evidence := visibilityEvidence replacementKey replacement visibility.funnel } }

/-- The tables after a confirmed clear. -/
def recordClear (plan : ClearPlan) (order : List PublicationKey) (m : PublicationManager) : PublicationManager :=
  let m := m.cancelPendingDeliveryLocked plan.mapping.token
  let m := { m with mappings := m.mappings.erase plan.key }
  if plan.exact && plan.ownsVisibility || !plan.exact && plan.funnel then
    { m with visibility := m.visibility.erase plan.visibilityKey }
  else if !plan.exact && plan.mapping.token ≠ 0 then
    m.transferVisibilityAfterCoordinateClearLocked plan.visibilityKey plan.key plan.mapping order
  else m

section Fields

variable (plan : ClearPlan) (order : List PublicationKey) (m : PublicationManager)

/-- A transfer changes the visibility table only. -/
theorem transferVisibilityAfterCoordinateClearLocked_eq (portKey : HostPort) (clearedKey : PublicationKey)
    (cleared : PublicationMapping) :
    ∃ visibility, m.transferVisibilityAfterCoordinateClearLocked portKey clearedKey cleared order =
      { m with visibility := visibility } := by
  unfold transferVisibilityAfterCoordinateClearLocked
  split
  · exact ⟨_, rfl⟩
  split
  · exact ⟨_, rfl⟩
  split
  · exact ⟨_, rfl⟩
  · exact ⟨_, rfl⟩

theorem recordClear_eq : ∃ visibility, m.recordClear plan order = { m with
      mappings := m.mappings.erase plan.key
      visibility := visibility
      pendingDelivery := m.pendingDelivery.erase plan.mapping.token } := by
  unfold recordClear
  simp only
  split
  · exact ⟨_, rfl⟩
  split
  · obtain ⟨visibility, heq⟩ := transferVisibilityAfterCoordinateClearLocked_eq order
      { m.cancelPendingDeliveryLocked plan.mapping.token with mappings := m.mappings.erase plan.key } plan.visibilityKey
      plan.key plan.mapping
    exact ⟨visibility, heq⟩
  · exact ⟨_, rfl⟩

@[simp] theorem recordClear_mappings : (m.recordClear plan order).mappings = m.mappings.erase plan.key := by
  obtain ⟨visibility, heq⟩ := recordClear_eq plan order m
  rw [heq]

@[simp] theorem recordClear_pendingDelivery :
    (m.recordClear plan order).pendingDelivery = m.pendingDelivery.erase plan.mapping.token := by
  obtain ⟨visibility, heq⟩ := recordClear_eq plan order m
  rw [heq]

@[simp] theorem recordClear_nextMappingToken :
    (m.recordClear plan order).nextMappingToken = m.nextMappingToken := by
  obtain ⟨visibility, heq⟩ := recordClear_eq plan order m
  rw [heq]

@[simp] theorem recordClear_closed : (m.recordClear plan order).closed = m.closed := by
  obtain ⟨visibility, heq⟩ := recordClear_eq plan order m
  rw [heq]

@[simp] theorem recordClear_clientNil : (m.recordClear plan order).clientNil = m.clientNil := by
  obtain ⟨visibility, heq⟩ := recordClear_eq plan order m
  rw [heq]

end Fields

/-- The environment's part in a clear. -/
structure ClearEnv where
  stale : Bool := false
  contextErr : Option Error := none
  context : ∀ err, contextErr = some err → IsPlain err := by nofun
  status : Except ClientError Status
  staleResult : Bool := false
  answers : Answers
  /-- The order in which the mappings that are left are ranged over. -/
  order : List PublicationKey

def clearMutate [Ipn] (plan : ClearPlan) (e : ClearEnv) (server : Versioned ServeConfig) (m : PublicationManager) :
    Option ((Option Error × PublicationManager) × ServeState ServeConfig) :=
  ((mutateLocked (m.mutation true) (clearApply plan) ()).exec e.answers.list ⟨server, []⟩).bind fun (r, s) =>
    match r.1 with
    | some err => some ((some err, m), s)
    | none =>
      if ranges e.order (m.mappings.erase plan.key) then some ((none, m.recordClear plan e.order), s) else none

/-- The part of a coordinate clear before its mutation: the host, or why there is none. -/
def clearHost (e : ClearEnv) : Except Error Text :=
  match e.contextErr, e.status with
  | some err, _ => .error err
  | none, .error err => .error (if e.staleResult then .sentinel .runtimeStale else .foreign err)
  | none, .ok status => serveHostFromStatus status

def clearKey (payload : ServeClearPayload) : Except Error PublicationKey := do
  let port ← validateServePort "tailnetPort" payload.tailnetPort
  let path ← normalizeServePath payload.path
  return ⟨port, path⟩

def clear [Ipn] (payload : ServeClearPayload) (e : ClearEnv) (server : Versioned ServeConfig) (m : PublicationManager) :
    Option ((Option Error × PublicationManager) × ServeState ServeConfig) :=
  let answer (err : Option Error) := some ((err, m), ⟨server, []⟩)
  match payload.clearMode with
  | .error err => answer (some (notAppliedError err))
  | .ok (.exact generation token) =>
    -- a stale handle is a no-op: nothing is asked of the server
    if generation ≠ m.generation then answer none
    else if (m.requireCurrentLocked e.stale).isSome then answer none
    else
      match clearKey payload with
      | .error err => answer (some (notAppliedError err))
      | .ok key =>
        match m.planExact token key with
        | none => answer none
        | some plan => m.clearMutate plan e server
  | .ok .coordinate =>
    match m.requireCurrentLocked e.stale with
    | some err => answer (some (notAppliedError err))
    | none =>
      match clearKey payload, clearHost e with
      | .error err, _ => answer (some (notAppliedError err))
      | .ok _, .error err => answer (some (notAppliedError err))
      | .ok key, .ok host => m.clearMutate (m.planCoordinate payload.funnel host key) e server

/-! ## Close -/

structure CloseEnv where
  answers : Answers
  visibilityOrder : List HostPort
  mappingOrder : List PublicationKey

/-- One turn of the first loop of `close`. -/
def withdrawVisibility [Ipn] (m : PublicationManager) (sc : ServeConfig) (portKey : HostPort) : ServeConfig :=
  match m.visibility.lookup portKey with
  | none => sc
  | some visibility =>
    if visibilityOwnsEnabledConfig sc portKey visibility then sc.setFunnel portKey.host portKey.port false else sc

/-- One turn of the second. -/
def withdrawMapping [Ipn] (m : PublicationManager) (sc : ServeConfig) (key : PublicationKey) : ServeConfig :=
  match m.mappings.lookup key with
  | none => sc
  | some mapping =>
    if mappingMatchesServeConfig mapping sc key then
      removeServeWebHandlerWithFunnelCleanup mapping.host key.port key.path false sc
    else sc

/-- What `close` makes of a configuration. -/
def sweep [Ipn] (m : PublicationManager) (visibilityOrder : List HostPort) (mappingOrder : List PublicationKey)
    (sc : ServeConfig) : ServeConfig :=
  mappingOrder.foldl m.withdrawMapping (visibilityOrder.foldl m.withdrawVisibility sc)

/-- The callback of `close`. -/
def closeApply [Ipn] (m : PublicationManager) (e : CloseEnv) : ServeConfigApply ServeConfig Unit := fun sc _ =>
  let swept := m.sweep e.visibilityOrder e.mappingOrder sc
  ⟨swept, (), .ok (decide (sc ≠ swept))⟩

def close [Ipn] (e : CloseEnv) (server : Versioned ServeConfig) (m : PublicationManager) :
    Option ((Option Error × PublicationManager) × ServeState ServeConfig) :=
  if m.closed then some ((none, m), ⟨server, []⟩)
  else
    let m := { m with closed := true }.cancelAllPendingDeliveriesLocked
    let emptied := { m with mappings := ∅, visibility := ∅ }
    if (m.mappings = ∅ ∧ m.visibility = ∅) ∨ m.clientNil = true then some ((none, emptied), ⟨server, []⟩)
    else if ranges e.visibilityOrder m.visibility && ranges e.mappingOrder m.mappings then
      ((mutateLocked (m.mutation false) (m.closeApply e) ()).exec e.answers.list ⟨server, []⟩).map fun (r, s) =>
        ((r.1, emptied), s)
    else none

end PublicationManager

end TailscaleDart.Publication
