import TailscaleDart.Conc.Machine
import TailscaleDart.Publication.Calls

/-!
# Publication.Delivery — a handle Dart never acknowledged is lost once, and only while it was owed

A confirmed forward arms a timer for its mapping token. The delivery is resolved by an acknowledgement, by the next
confirmed forward or clear of the coordinate, by close, or by the timer, whose callback takes the mutex, removes the
delivery and calls `onDeliveryLoss` after it has released the mutex. A timer that was stopped may have fired already,
so an armed timer may expire at any later moment.

An observer notes what the calls answered (`DeliveryEvent`). A delivery is resolved at most once in every run. That a
loss is never reported for a token that is over needs more: an indeterminate forward takes over the record of its
coordinate and leaves the delivery of the mapping before it pending, so a later confirmed forward or clear cancels
another token; and between the timer's critical section and `onDeliveryLoss` every other call may run.
-/

namespace TailscaleDart.Publication

open PublicationManager Conc
open TailscaleDart.Data

/-! ## What an observer notes -/

inductive DeliveryEvent where
  /-- A confirmed forward put the token on the coordinate. -/
  | confirmed (token : Nat) (key : PublicationKey)
  | cleared (key : PublicationKey)
  | acknowledged (token : Nat)
  /-- Close, with the deliveries it found pending. -/
  | closed (pending : Finset Nat)
  /-- `onDeliveryLoss` was invoked. -/
  | lost (token : Nat)
  deriving DecidableEq

namespace DeliveryEvent

/-- The event ends what is owed to a token that a forward has put on `key` before. -/
def Ends (token : Nat) (key : PublicationKey) : DeliveryEvent → Prop
  | .confirmed _ other => other = key
  | .cleared other => other = key
  | .acknowledged other => other = token
  | .closed pending => token ∈ pending
  | .lost _ => False

/-- The event removes the pending delivery of the token. -/
def Settles (m : PublicationManager) (token : Nat) : DeliveryEvent → Prop
  | .confirmed _ key => (m.mappings.lookup key).map (·.token) = some token
  | .cleared key => (m.mappings.lookup key).map (·.token) = some token
  | .acknowledged other => other = token
  | .closed _ => True
  | .lost _ => False

end DeliveryEvent

open DeliveryEvent (Ends Settles)

/-- The token is over: acknowledged, cleared, superseded, or cancelled by close. -/
def Over (history : List DeliveryEvent) (token : Nat) : Prop :=
  ∃ key ev, Ends token key ev ∧ [.confirmed token key, ev].Sublist history

/-- The callbacks that are about to be invoked, and the observer's notes. -/
structure Ledger where
  losing : List Nat := []
  /-- How often a pending delivery of the token was removed. -/
  resolved : Nat → Nat := fun _ => 0
  history : List DeliveryEvent := []

/-- The notes after a call that has taken the manager from `m` to `m'`. -/
def Ledger.note (m m' : PublicationManager) (event : Option DeliveryEvent) (l : Ledger) : Ledger where
  losing := l.losing
  resolved t := l.resolved t + if t ∈ m.pendingDelivery ∧ t ∉ m'.pendingDelivery then 1 else 0
  history := l.history ++ event.toList

/-! ## Runs -/

/-- The manager, the server's configuration, the timers that were armed, and the notes. -/
structure Deliveries where
  manager : PublicationManager
  server : Versioned ServeConfig
  timers : List PendingPublicationDelivery := []
  ledger : Ledger := {}

/-- The event of a forward: it recorded a new token, and not because an answer was lost. -/
def forwardEvent (payload : ServeForwardPayload) (result : Except Error ServePublication) (m m' : PublicationManager) :
    Option DeliveryEvent :=
  match payload.key with
  | .error _ => none
  | .ok key =>
    if m.nextMappingToken < m'.nextMappingToken ∧
        (m'.mappings.lookup key).map (·.token) = some m'.nextMappingToken ∧ isIndeterminate result = false then
      some (.confirmed m'.nextMappingToken key)
    else none

/-- The timer a forward arms. -/
def armed : Except Error ServePublication → List PendingPublicationDelivery
  | .ok publication =>
    if publication.generation = 0 || publication.mappingToken = 0 then []
    else [⟨publication.generation, publication.mappingToken⟩]
  | .error _ => []

def acknowledgeEvent (token : Nat) (result : Option Error) : Option DeliveryEvent :=
  if result.isNone then some (.acknowledged token) else none

/-- The event of a clear: it returned nil, and not because a stale handle asks nothing of the server. -/
def clearEvent (payload : ServeClearPayload) (result : Option Error) (log : List (ServeEvent ServeConfig)) :
    Option DeliveryEvent :=
  match clearKey payload, result with
  | .ok key, none => if log.isEmpty then none else some (.cleared key)
  | _, _ => none

def closeEvent (m : PublicationManager) : Option DeliveryEvent :=
  if m.closed then none else some (.closed m.pendingDelivery.keys)

inductive DeliveryAction where
  | forward (up : Upstream) (payload : ServeForwardPayload) (e : ForwardEnv)
  | acknowledge (generation token : Nat) (stale : Bool)
  | clear (payload : ServeClearPayload) (e : ClearEnv)
  | close (e : CloseEnv)
  /-- A timer's callback, up to the release of the mutex. -/
  | expire (pending : PendingPublicationDelivery)
  /-- The rest of it. -/
  | lose (token : Nat)
  | external (v : Versioned ServeConfig)

namespace Deliveries

def start (generation : Nat) (server : Versioned ServeConfig) : Deliveries where
  manager := { generation := generation }
  server := server

def step [Ipn] (w : Deliveries) : DeliveryAction → Option Deliveries
  | .forward up payload e =>
    (w.manager.forward up payload e w.server).map fun ((result, m), s) =>
      { manager := m
        server := s.server
        timers := w.timers ++ armed result
        ledger := w.ledger.note w.manager m (forwardEvent payload result w.manager m) }
  | .acknowledge generation token stale =>
    let (result, m) := w.manager.acknowledgePublication generation token stale
    some { w with manager := m, ledger := w.ledger.note w.manager m (acknowledgeEvent token result) }
  | .clear payload e =>
    (w.manager.clear payload e w.server).map fun ((result, m), s) =>
      { w with
        manager := m
        server := s.server
        ledger := w.ledger.note w.manager m (clearEvent payload result s.log) }
  | .close e =>
    (w.manager.close e w.server).map fun ((_, m), s) =>
      { w with manager := m, server := s.server, ledger := w.ledger.note w.manager m (closeEvent w.manager) }
  | .expire pending =>
    if pending ∈ w.timers then
      let (lost, m) := w.manager.expirePendingDelivery pending
      let ledger := w.ledger.note w.manager m none
      some
        { w with
          manager := m
          timers := w.timers.erase pending
          ledger := if lost then { ledger with losing := pending.mappingToken :: ledger.losing } else ledger }
    else none
  | .lose token =>
    if token ∈ w.ledger.losing then
      some { w with
             ledger := { w.ledger with
               losing := w.ledger.losing.erase token
               history := w.ledger.history ++ [.lost token] } }
    else none
  | .external v => some { w with server := v }

/-- Every delivery of the coordinate that is pending is the recorded token's, and none is being reported as lost. -/
def Undivided (w : Deliveries) (key : PublicationKey) : Prop :=
  ∀ t, .confirmed t key ∈ w.ledger.history →
    t ∉ w.ledger.losing ∧ (t ∈ w.manager.pendingDelivery → (w.manager.mappings.lookup key).map (·.token) = some t)

/-- A coordinate is forwarded or cleared while it is undivided, and a token acknowledged while it is not being
reported as lost. -/
def Orderly (w : Deliveries) : DeliveryAction → Prop
  | .forward _ payload _ => ∀ key, payload.key = .ok key → w.Undivided key
  | .acknowledge _ token _ => token ∉ w.ledger.losing
  | .clear payload _ => ∀ key, clearKey payload = .ok key → w.Undivided key
  | _ => True

abbrev Run [Ipn] (ok : Deliveries → DeliveryAction → Prop) : Deliveries → Deliveries → Prop :=
  Machine.Reachable step fun a w => ok w a

end Deliveries

/-! ## What a call does to the deliveries -/

/-- The tables agree with the counter, and a closed manager has none. -/
structure PublicationManager.Sane (m : PublicationManager) : Prop where
  records : ∀ key mapping, m.mappings.lookup key = some mapping → mapping.token ≤ m.nextMappingToken
  emptied : m.closed = true → m.mappings = ∅ ∧ m.pendingDelivery = ∅

/-- What every call has in common: it adds no delivery but that of the token it issued, and the delivery its event
settles is gone. -/
structure Moved (m m' : PublicationManager) (event : Option DeliveryEvent) : Prop where
  sane : m'.Sane
  counter : m.nextMappingToken ≤ m'.nextMappingToken
  pending : ∀ t ∈ m'.pendingDelivery, (t ∈ m.pendingDelivery ∧ ∀ ev, event = some ev → ¬ Settles m t ev) ∨
    ∃ key, event = some (.confirmed t key)
  confirmed : ∀ t key, event = some (.confirmed t key) → t = m'.nextMappingToken ∧ m.nextMappingToken < t
  closed : ∀ pending, event = some (.closed pending) → pending = m.pendingDelivery.keys
  lost : ∀ t, event ≠ some (.lost t)

namespace Moved

variable {m m' : PublicationManager}

theorem quiet (hsane : m'.Sane) (hcounter : m.nextMappingToken ≤ m'.nextMappingToken)
    (hpending : ∀ t ∈ m'.pendingDelivery, t ∈ m.pendingDelivery) : Moved m m' none where
  sane := hsane
  counter := hcounter
  pending t ht := .inl ⟨hpending t ht, nofun⟩
  confirmed := nofun
  closed := nofun
  lost := nofun

end Moved

section Calls

variable {m m' : PublicationManager} {s : ServeState ServeConfig}

theorem PublicationManager.Sane.issued (h : m.Sane) : m.issued.Sane where
  records key mapping hkey := (h.records key mapping hkey).trans (Nat.le_succ _)
  emptied := h.emptied

theorem PublicationManager.Sane.cancel (h : m.Sane) (token : Nat) : (m.cancelPendingDeliveryLocked token).Sane where
  records := h.records
  emptied hclosed := by
    obtain ⟨hmappings, hdeliveries⟩ := h.emptied hclosed
    refine ⟨hmappings, ?_⟩
    show m.pendingDelivery.erase token = ∅
    rw [hdeliveries]
    rfl

/-- A manager that is open, with one more record. -/
theorem PublicationManager.Sane.insert (h : m.Sane) {key : PublicationKey} {mapping : PublicationMapping}
    (hmappings : m'.mappings = m.mappings.insert key mapping) (htoken : mapping.token = m'.nextMappingToken)
    (hcounter : m.nextMappingToken ≤ m'.nextMappingToken) (hopen : m'.closed = false) : m'.Sane where
  records := by
    intro other found hfound
    rw [hmappings] at hfound
    by_cases hkey : other = key
    · subst hkey
      rw [Finmap.lookup_insert] at hfound
      cases hfound
      exact htoken.le
    · rw [Finmap.lookup_insert_of_ne _ hkey] at hfound
      exact (h.records other found hfound).trans hcounter
  emptied := by
    rw [hopen]
    nofun

variable {payload : ServeForwardPayload} {result : Except Error ServePublication}

theorem forwardEvent_eq_none (h : ∀ key, (m'.mappings.lookup key).map (·.token) = some m'.nextMappingToken →
      m.nextMappingToken < m'.nextMappingToken → isIndeterminate result = true) :
    forwardEvent payload result m m' = none := by
  unfold forwardEvent
  split
  · rfl
  · next key hkey =>
    apply if_neg
    rintro ⟨hissued, hrecorded, hdefinite⟩
    rw [h key hrecorded hissued] at hdefinite
    cases hdefinite

theorem forwardEvent_confirmed
    {key : PublicationKey} (hkey : payload.key = .ok key) (hissued : m.nextMappingToken < m'.nextMappingToken)
    (hrecorded : (m'.mappings.lookup key).map (·.token) = some m'.nextMappingToken)
    (hdefinite : isIndeterminate result = false) :
    forwardEvent payload result m m' = some (.confirmed m'.nextMappingToken key) := by
  unfold forwardEvent
  rw [hkey]
  exact if_pos ⟨hissued, hrecorded, hdefinite⟩

theorem PublicationManager.Sane.token_ne_issued (hsane : m.Sane) (key : PublicationKey) :
    (m.issued.mappings.lookup key).map (·.token) ≠ some m.issued.nextMappingToken := by
  intro h
  obtain ⟨mapping, hmapping, htoken⟩ := Option.map_eq_some_iff.mp h
  have hbound := hsane.records key mapping hmapping
  rw [htoken] at hbound
  exact absurd hbound (Nat.not_succ_le_self _)

theorem Moved.forwarded (hsane : m.Sane) (hopen : m.closed = false) {captured : Captured}
    {pendingDelivery : Finmap fun _ : Nat => PendingPublicationDelivery}
    (htoken : captured.attempted.token = m.nextMappingToken + 1)
    (harmed : ∀ t ∈ pendingDelivery, t ∈ (m.issued.recordForward (m.nextMappingToken + 1) captured).pendingDelivery ∨
      t = m.nextMappingToken + 1) : Moved m
      { m.issued.recordForward (m.nextMappingToken + 1) captured with pendingDelivery := pendingDelivery }
      (some (.confirmed (m.nextMappingToken + 1) captured.publication.key)) where
  sane := by
    apply hsane.insert
    · exact recordForward_mappings (m.nextMappingToken + 1) captured m.issued
    · rw [htoken, recordForward_nextMappingToken]
      rfl
    · rw [recordForward_nextMappingToken]
      exact Nat.le_succ _
    · rw [recordForward_closed]
      exact hopen
  counter := by
    rw [recordForward_nextMappingToken]
    exact Nat.le_succ _
  pending := by
    intro t ht
    rcases harmed t ht with hold | rfl
    · obtain ⟨hpending, hother⟩ := mem_recordForward hold
      refine .inl ⟨hpending, ?_⟩
      rintro ev ⟨⟩
      exact hother
    · exact .inr ⟨_, rfl⟩
  confirmed := by
    rintro t key ⟨⟩
    rw [recordForward_nextMappingToken]
    exact ⟨rfl, Nat.lt_succ_self _⟩
  closed := nofun
  lost := nofun

variable {server : Versioned ServeConfig}

theorem forward_moved [Ipn] (hsane : m.Sane) {up : Upstream} {e : ForwardEnv}
    (h : m.forward up payload e server = some ((result, m'), s)) : Moved m m' (forwardEvent payload result m m') := by
  have hcases := forward_cases (S := .any) trivial e.answers.context h
  cases hcases with
  | refused _ hm' _ =>
    rcases hm' with rfl | rfl
    · rw [forwardEvent_eq_none fun _ _ hlt => absurd hlt (lt_irrefl _)]
      exact .quiet hsane le_rfl fun _ ht => ht
    · rw [forwardEvent_eq_none fun key hkey _ => absurd hkey (hsane.token_ne_issued key)]
      exact .quiet hsane.issued (Nat.le_succ _) fun _ ht => ht
  | @confirmed status c plan _ _ _ hopen _ _ _ hplan _ hfinish =>
    obtain ⟨hdefinite, pendingDelivery, rfl, harmed⟩ := finishForward_confirmed hfinish
    have hmoved := Moved.forwarded hsane hopen rfl harmed
    obtain ⟨hnext, hissued⟩ := hmoved.confirmed _ _ rfl
    rw [forwardEvent_confirmed (plan_key hplan) (hnext ▸ hissued) _ hdefinite, ← hnext]
    · exact hmoved
    · have hrecorded := Finmap.lookup_insert m.mappings (a := plan.key)
        (b := (plan.captured payload m.generation (m.nextMappingToken + 1)).attempted)
      rw [← hnext, recordForward_mappings]
      exact congrArg (Option.map PublicationMapping.token) hrecorded
  | @indeterminate err status c plan _ hopen _ herr _ _ _ hplan _ =>
    have hlost : isIndeterminate (.error err) = true := herr
    rw [forwardEvent_eq_none fun _ _ _ => hlost]
    exact .quiet (hsane.insert rfl rfl (Nat.le_succ _) hopen) (Nat.le_succ _) fun _ ht => ht

theorem planned_key {payload : ServeClearPayload} {e : ClearEnv} {plan : ClearPlan} (h : Planned payload e m plan) :
    clearKey payload = .ok plan.key ∧
      ∀ token, (m.mappings.lookup plan.key).map (·.token) = some token → plan.mapping.token = token := by
  cases h with
  | @exact token key plan _ hkey hplan =>
    unfold planExact at hplan
    split at hplan
    · cases hplan
    · next mapping hmapping =>
      split at hplan
      · cases hplan
      · cases hplan
        refine ⟨hkey, ?_⟩
        intro token' htoken
        rw [hmapping] at htoken
        exact Option.some.inj htoken
  | @coordinate key host _ hkey _ =>
    refine ⟨hkey, ?_⟩
    intro token htoken
    obtain ⟨mapping, hmapping, rfl⟩ := Option.map_eq_some_iff.mp htoken
    show ((m.mappings.lookup key).getD {}).token = mapping.token
    have hmapping' : m.mappings.lookup key = some mapping := hmapping
    rw [hmapping']
    rfl

theorem clear_moved [Ipn] (hsane : m.Sane) {payload : ServeClearPayload} {e : ClearEnv} {result : Option Error}
    (h : m.clear payload e server = some ((result, m'), s)) : Moved m m' (clearEvent payload result s.log) := by
  have hcases := clear_cases (S := .any) trivial e.answers.context h
  have hfailed : ∀ err, clearEvent payload (some err) s.log = none := by
    intro err
    unfold clearEvent
    split
    · next _ heq => cases heq
    · rfl
  cases hcases with
  | idle _ _ =>
    have hnone : clearEvent payload result [] = none := by
      unfold clearEvent
      split <;> rfl
    rw [hnone]
    exact .quiet hsane le_rfl fun _ ht => ht
  | refused _ _ _ _ _ | indeterminate _ _ _ _ _ _ _ =>
    rw [hfailed]
    exact .quiet hsane le_rfl fun _ ht => ht
  | @confirmed plan c _ hopen hplan _ _ _ _ =>
    obtain ⟨hkey, htoken⟩ := planned_key hplan
    have hsane' : (m.recordClear plan e.order).Sane := by
      constructor
      · intro key mapping hmapping
        rw [recordClear_mappings] at hmapping
        rw [recordClear_nextMappingToken]
        exact hsane.records key mapping (lookup_of_erase hmapping).2
      · rw [recordClear_closed, hopen]
        nofun
    have hpending : ∀ t ∈ (m.recordClear plan e.order).pendingDelivery, t ≠ plan.mapping.token ∧
        t ∈ m.pendingDelivery := by
      intro t ht
      rw [recordClear_pendingDelivery] at ht
      exact Finmap.mem_erase.mp ht
    have hevent : clearEvent payload none s.log = none ∨ clearEvent payload none s.log = some (.cleared plan.key) := by
      simp only [clearEvent, hkey]
      split
      · exact .inl rfl
      · exact .inr rfl
    rcases hevent with hevent | hevent
    · rw [hevent]
      exact .quiet hsane' (recordClear_nextMappingToken _ _ _).ge fun t ht => (hpending t ht).2
    · rw [hevent]
      constructor
      · exact hsane'
      · exact (recordClear_nextMappingToken _ _ _).ge
      · intro t ht
        refine .inl ⟨(hpending t ht).2, ?_⟩
        rintro ev ⟨⟩ hsettles
        exact (hpending t ht).1 (htoken t hsettles).symm
      · nofun
      · nofun
      · nofun

theorem close_moved [Ipn] {e : CloseEnv} {result : Option Error} (hsane : m.Sane)
    (h : m.close e server = some ((result, m'), s)) : Moved m m' (closeEvent m) := by
  have hcases := close_cases (S := .any) trivial e.answers.context h
  have hdone : m' = m ∧ m.closed = true ∨ m' = m.emptied := by
    cases hcases with
    | already hclosed _ => exact .inl ⟨rfl, hclosed⟩
    | nothing _ _ | refused _ _ | confirmed _ _ _ _ _ | indeterminate _ _ _ => exact .inr rfl
  rcases hdone with ⟨rfl, hclosed⟩ | rfl
  · rw [closeEvent, if_pos hclosed]
    exact .quiet hsane le_rfl fun _ ht => ht
  · have hnone : ∀ t, t ∉ (m.emptied).pendingDelivery := fun t => Finmap.notMem_empty
    constructor
    · exact ⟨nofun, fun _ => ⟨rfl, rfl⟩⟩
    · exact le_rfl
    · exact fun t ht => absurd ht (hnone t)
    · intro t key hevent
      unfold closeEvent at hevent
      split at hevent <;> cases hevent
    · intro pending hevent
      unfold closeEvent at hevent
      split at hevent
      · cases hevent
      · exact (DeliveryEvent.closed.inj (Option.some.inj hevent)).symm
    · intro t hevent
      unfold closeEvent at hevent
      split at hevent <;> cases hevent

theorem acknowledge_moved (hsane : m.Sane) (generation token : Nat) (stale : Bool) {result : Option Error}
    (h : m.acknowledgePublication generation token stale = (result, m')) :
    Moved m m' (acknowledgeEvent token result) := by
  -- an acknowledgement that answers nil has cancelled the delivery, or there was none
  have hdone : (m' = m ∧ (result.isNone = true → token ∉ m.pendingDelivery)) ∨
      m' = m.cancelPendingDeliveryLocked token := by
    unfold acknowledgePublication at h
    split at h
    · cases h
      exact .inl ⟨rfl, nofun⟩
    split at h
    · cases h
      exact .inl ⟨rfl, nofun⟩
    split at h
    · cases h
      exact .inl ⟨rfl, nofun⟩
    split at h
    · split at h
      · cases h
        exact .inl ⟨rfl, nofun⟩
      · cases h
        exact .inr rfl
    · next hnone =>
      have habsent : token ∉ m.pendingDelivery := Finmap.lookup_eq_none.mp hnone
      split at h <;> cases h <;> exact .inl ⟨rfl, fun _ => habsent⟩
  have hpending : ∀ t ∈ m'.pendingDelivery, t ∈ m.pendingDelivery ∧ (result.isNone = true → t ≠ token) := by
    intro t ht
    rcases hdone with ⟨rfl, habsent⟩ | rfl
    · exact ⟨ht, fun hnone heq => habsent hnone (heq ▸ ht)⟩
    · exact ⟨(Finmap.mem_erase.mp ht).2, fun _ => (Finmap.mem_erase.mp ht).1⟩
  have hsane' : m'.Sane ∧ m.nextMappingToken ≤ m'.nextMappingToken := by
    rcases hdone with ⟨rfl, -⟩ | rfl
    · exact ⟨hsane, le_rfl⟩
    · exact ⟨hsane.cancel token, le_rfl⟩
  cases hresult : result with
  | some err => exact .quiet hsane'.1 hsane'.2 fun t ht => (hpending t ht).1
  | none =>
    constructor
    · exact hsane'.1
    · exact hsane'.2
    · intro t ht
      refine .inl ⟨(hpending t ht).1, ?_⟩
      rintro ev ⟨⟩ hsettles
      exact (hpending t ht).2 (by rw [hresult]; rfl) hsettles.symm
    · nofun
    · nofun
    · nofun

end Calls

/-! ## The notes -/

theorem sublist_append_toList {α : Type} (l : List α) (b : α) (h : List α) (o : Option α) :
    (l ++ [b]).Sublist (h ++ o.toList) ↔ (l ++ [b]).Sublist h ∨ o = some b ∧ l.Sublist h := by
  cases o with
  | none => simp
  | some x =>
    have hrev : (b :: l.reverse).Sublist h.reverse ↔ (l ++ [b]).Sublist h := by
      rw [← List.reverse_sublist, List.reverse_reverse, List.reverse_cons, List.reverse_reverse]
    rw [← List.reverse_sublist]
    simp only [Option.toList_some, List.reverse_append, List.reverse_cons, List.reverse_nil, List.nil_append,
      List.singleton_append, List.cons_sublist_cons', Option.some.injEq, List.reverse_sublist, hrev]
    rw [eq_comm]

section Notes

variable {history : List DeliveryEvent} {event : Option DeliveryEvent} {t : Nat}

theorem over_append : Over (history ++ event.toList) t ↔
    Over history t ∨ ∃ key ev, event = some ev ∧ Ends t key ev ∧ .confirmed t key ∈ history := by
  have hsub := fun key ev => sublist_append_toList [DeliveryEvent.confirmed t key] ev history event
  constructor
  · rintro ⟨key, ev, hends, h⟩
    rcases (hsub key ev).mp h with hold | ⟨hnew, hbefore⟩
    · exact .inl ⟨key, ev, hends, hold⟩
    · exact .inr ⟨key, ev, hnew, hends, List.singleton_sublist.mp hbefore⟩
  · rintro (⟨key, ev, hends, hold⟩ | ⟨key, ev, hnew, hends, hbefore⟩)
    · exact ⟨key, ev, hends, (hsub key ev).mpr (.inl hold)⟩
    · exact ⟨key, ev, hends, (hsub key ev).mpr (.inr ⟨hnew, List.singleton_sublist.mpr hbefore⟩)⟩

theorem Over.confirmed (h : Over history t) : ∃ key, .confirmed t key ∈ history := by
  obtain ⟨key, ev, -, hsub⟩ := h
  exact ⟨key, hsub.subset List.mem_cons_self⟩

end Notes

/-- What the notes and the tables say of each other, in every run. -/
structure Tracked (m : PublicationManager) (l : Ledger) : Prop where
  sane : m.Sane
  issued : ∀ t key, .confirmed t key ∈ l.history → t ≤ m.nextMappingToken
  coordinate : ∀ t key key', .confirmed t key ∈ l.history → .confirmed t key' ∈ l.history → key = key'
  pending : ∀ t ∈ m.pendingDelivery, l.resolved t = 0 ∧ ∃ key, .confirmed t key ∈ l.history
  losing : ∀ t ∈ l.losing, l.resolved t = 1 ∧ .lost t ∉ l.history
  nodup : l.losing.Nodup
  lost : ∀ t, .lost t ∈ l.history → l.resolved t = 1
  once : ∀ t, l.resolved t ≤ 1
  fresh : ∀ t, m.nextMappingToken < t → l.resolved t = 0
  lostOnce : ∀ t, l.history.count (.lost t) ≤ 1

namespace Tracked

variable {m m' : PublicationManager} {l : Ledger} {event : Option DeliveryEvent} {t : Nat}

theorem pending_le (h : Tracked m l) (ht : t ∈ m.pendingDelivery) : t ≤ m.nextMappingToken := by
  obtain ⟨-, key, hkey⟩ := h.pending t ht
  exact h.issued t key hkey

theorem notMem_pending (h : Tracked m l) (ht : l.resolved t = 1) : t ∉ m.pendingDelivery := by
  intro hpending
  have hzero := (h.pending t hpending).1
  omega

theorem note_resolved_of_settled (h : Tracked m l) (ht : l.resolved t = 1) : (l.note m m' event).resolved t = 1 := by
  show l.resolved t + _ = 1
  rw [if_neg fun hcond => h.notMem_pending ht hcond.1, ht]

theorem moved (h : Tracked m l) (hmoved : Moved m m' event) : Tracked m' (l.note m m' event) where
  sane := hmoved.sane
  issued t key hkey := by
    rcases List.mem_append.mp hkey with hold | hnew
    · exact (h.issued t key hold).trans hmoved.counter
    · exact (hmoved.confirmed t key (Option.mem_toList.mp hnew)).1.le
  coordinate t key key' hkey hkey' := by
    rcases List.mem_append.mp hkey with hold | hnew <;> rcases List.mem_append.mp hkey' with hold' | hnew'
    · exact h.coordinate t key key' hold hold'
    · exact absurd (hmoved.confirmed t key' (Option.mem_toList.mp hnew')).2 (h.issued t key hold).not_gt
    · exact absurd (hmoved.confirmed t key (Option.mem_toList.mp hnew)).2 (h.issued t key' hold').not_gt
    · have heq := (Option.mem_toList.mp hnew).symm.trans (Option.mem_toList.mp hnew')
      cases heq
      rfl
  pending t ht := by
    have hsame : (l.note m m' event).resolved t = l.resolved t := by
      show l.resolved t + _ = _
      rw [if_neg fun hcond => hcond.2 ht, Nat.add_zero]
    rw [hsame]
    rcases hmoved.pending t ht with ⟨hold, -⟩ | ⟨key, hnew⟩
    · obtain ⟨hzero, key, hkey⟩ := h.pending t hold
      exact ⟨hzero, key, List.mem_append_left _ hkey⟩
    · refine ⟨h.fresh t (hmoved.confirmed t key hnew).2, key, ?_⟩
      exact List.mem_append_right _ (Option.mem_toList.mpr hnew)
  losing t ht := by
    obtain ⟨hone, hlost⟩ := h.losing t ht
    refine ⟨h.note_resolved_of_settled hone, ?_⟩
    intro hmem
    rcases List.mem_append.mp hmem with hold | hnew
    · exact hlost hold
    · exact hmoved.lost t (Option.mem_toList.mp hnew)
  nodup := h.nodup
  lost t ht := by
    rcases List.mem_append.mp ht with hold | hnew
    · exact h.note_resolved_of_settled (h.lost t hold)
    · exact absurd (Option.mem_toList.mp hnew) (hmoved.lost t)
  once t := by
    show l.resolved t + _ ≤ 1
    split
    · next hcond => rw [(h.pending t hcond.1).1]
    · exact h.once t
  fresh t ht := by
    have hnot : t ∉ m.pendingDelivery := fun hpending =>
      absurd (h.pending_le hpending) (hmoved.counter.trans_lt ht).not_ge
    show l.resolved t + _ = 0
    rw [if_neg fun hcond => hnot hcond.1, h.fresh t (hmoved.counter.trans_lt ht)]
  lostOnce t := by
    have hnone : event.toList.count (.lost t) = 0 := by
      rw [List.count_eq_zero]
      exact fun hmem => hmoved.lost t (Option.mem_toList.mp hmem)
    show (l.history ++ event.toList).count _ ≤ 1
    rw [List.count_append, hnone]
    exact h.lostOnce t

theorem expired (h : Tracked m l) (ht : t ∈ m.pendingDelivery) (hmoved : Moved m m' none)
    (hgone : t ∉ m'.pendingDelivery) : Tracked m' { l.note m m' none with losing := t :: l.losing } := by
  have hnoted := h.moved hmoved
  have hone : (l.note m m' none).resolved t = 1 := by
    show l.resolved t + _ = 1
    rw [if_pos ⟨ht, hgone⟩, (h.pending t ht).1]
  have hzero := (h.pending t ht).1
  refine { hnoted with losing := ?_, nodup := ?_ }
  · intro t' ht'
    rcases List.mem_cons.mp ht' with rfl | hold
    · refine ⟨hone, fun hlost => ?_⟩
      rw [h.lost t' (by simpa [Ledger.note] using hlost)] at hzero
      cases hzero
    · exact hnoted.losing t' hold
  · refine List.nodup_cons.mpr ⟨fun hmem => ?_, h.nodup⟩
    rw [(h.losing t hmem).1] at hzero
    cases hzero

theorem lose (h : Tracked m l) (ht : t ∈ l.losing) :
    Tracked m { l with losing := l.losing.erase t, history := l.history ++ [.lost t] } := by
  obtain ⟨hone, hlost⟩ := h.losing t ht
  have hconfirmed : ∀ t' key, DeliveryEvent.confirmed t' key ∈ l.history ++ [.lost t] →
      .confirmed t' key ∈ l.history := by
    intro t' key hmem
    simpa using hmem
  refine { h with issued := ?_, coordinate := ?_, pending := ?_, losing := ?_, nodup := ?_, lost := ?_, lostOnce := ?_ }
  · exact fun t' key hkey => h.issued t' key (hconfirmed t' key hkey)
  · exact fun t' key key' hkey hkey' => h.coordinate t' key key' (hconfirmed t' key hkey) (hconfirmed t' key' hkey')
  · intro t' ht'
    obtain ⟨hzero, key, hkey⟩ := h.pending t' ht'
    exact ⟨hzero, key, List.mem_append_left _ hkey⟩
  · intro t' ht'
    obtain ⟨hother, hmem⟩ := (List.Nodup.mem_erase_iff h.nodup).mp ht'
    obtain ⟨hone', hlost'⟩ := h.losing t' hmem
    refine ⟨hone', fun hlost => ?_⟩
    rcases List.mem_append.mp hlost with hold | hnew
    · exact hlost' hold
    · exact hother (DeliveryEvent.lost.inj (List.mem_singleton.mp hnew))
  · exact h.nodup.erase t
  · intro t' ht'
    rcases List.mem_append.mp ht' with hold | hnew
    · exact h.lost t' hold
    · rw [DeliveryEvent.lost.inj (List.mem_singleton.mp hnew)]
      exact hone
  · intro t'
    rw [List.count_append]
    by_cases heq : t' = t
    · subst heq
      rw [List.count_eq_zero.mpr hlost, List.count_singleton_self]
    · have hzero : [DeliveryEvent.lost t].count (.lost t') = 0 :=
        List.count_eq_zero.mpr fun hmem => heq (DeliveryEvent.lost.inj (List.mem_singleton.mp hmem))
      rw [hzero]
      exact h.lostOnce t'

end Tracked

/-- Nothing that is pending or about to be reported is over, and nothing was over when it was reported. -/
structure Owed (m : PublicationManager) (l : Ledger) : Prop where
  pending : ∀ t ∈ m.pendingDelivery, ¬ Over l.history t
  losing : ∀ t ∈ l.losing, ¬ Over l.history t
  lost : ∀ t key ev, Ends t key ev → ¬ [.confirmed t key, ev, .lost t].Sublist l.history

/-- The event comes in time: what it ends is not being reported as lost, and is settled by it if it was pending. -/
def Timely (m : PublicationManager) (l : Ledger) (ev : DeliveryEvent) : Prop :=
  ∀ t key, .confirmed t key ∈ l.history → Ends t key ev → t ∉ l.losing ∧ (t ∈ m.pendingDelivery → Settles m t ev)

namespace Owed

variable {m m' : PublicationManager} {l : Ledger} {event : Option DeliveryEvent}

theorem moved (h : Owed m l) (htracked : Tracked m l) (hmoved : Moved m m' event)
    (htimely : ∀ ev, event = some ev → Timely m l ev) : Owed m' (l.note m m' event) where
  pending := by
    intro t ht hover
    rcases hmoved.pending t ht with ⟨hold, hkept⟩ | ⟨key, hnew⟩
    · rcases over_append.mp hover with hbefore | ⟨key, ev, hev, hends, hkey⟩
      · exact h.pending t hold hbefore
      · exact hkept ev hev ((htimely ev hev t key hkey hends).2 hold)
    · -- the token was issued by this call, so nothing was noted about it before
      have hfresh : ∀ key', .confirmed t key' ∉ l.history := fun key' hkey' =>
        (htracked.issued t key' hkey').not_gt (hmoved.confirmed t key hnew).2
      rcases over_append.mp hover with hbefore | ⟨key', ev, -, -, hkey'⟩
      · obtain ⟨key', hkey'⟩ := hbefore.confirmed
        exact hfresh key' hkey'
      · exact hfresh key' hkey'
  losing := by
    intro t ht hover
    rcases over_append.mp hover with hbefore | ⟨key, ev, hev, hends, hkey⟩
    · exact h.losing t ht hbefore
    · exact (htimely ev hev t key hkey hends).1 ht
  lost := by
    intro t key ev hends hsub
    rcases (sublist_append_toList [DeliveryEvent.confirmed t key, ev] (.lost t) l.history event).mp hsub
      with hold | ⟨hnew, -⟩
    · exact h.lost t key ev hends hold
    · exact hmoved.lost t hnew

theorem expired (h : Owed m l) (htracked : Tracked m l) {t : Nat} (ht : t ∈ m.pendingDelivery)
    (hmoved : Moved m m' none) : Owed m' { l.note m m' none with losing := t :: l.losing } := by
  have hnoted := h.moved htracked hmoved nofun
  refine { hnoted with losing := ?_ }
  intro t' ht'
  rcases List.mem_cons.mp ht' with rfl | hold
  · intro hover
    rcases over_append.mp hover with hbefore | ⟨_, _, hev, _⟩
    · exact h.pending t' ht hbefore
    · cases hev
  · exact hnoted.losing t' hold

theorem lose (h : Owed m l) {t : Nat} (ht : t ∈ l.losing) :
    Owed m { l with losing := l.losing.erase t, history := l.history ++ [.lost t] } := by
  have hover : ∀ t', Over (l.history ++ [.lost t]) t' → Over l.history t' := by
    intro t' hafter
    have happended : Over (l.history ++ (some (DeliveryEvent.lost t)).toList) t' := hafter
    rcases over_append.mp happended with hbefore | ⟨key, ev, hev, hends, -⟩
    · exact hbefore
    · cases hev
      exact hends.elim
  constructor
  · exact fun t' ht' hafter => h.pending t' ht' (hover t' hafter)
  · exact fun t' ht' hafter => h.losing t' (List.mem_of_mem_erase ht') (hover t' hafter)
  · intro t' key ev hends hsub
    rcases (sublist_append_toList [DeliveryEvent.confirmed t' key, ev] (.lost t') l.history (some (.lost t))).mp hsub
      with hold | ⟨hnew, hbefore⟩
    · exact h.lost t' key ev hends hold
    · cases hnew
      exact h.losing t ht ⟨key, ev, hends, hbefore⟩

end Owed

namespace Deliveries

variable {w w' : Deliveries}

/-- What a step can do: a call with its event, a timer that finds its delivery pending, or the report of a loss. -/
inductive Stepped (w : Deliveries) (a : DeliveryAction) (w' : Deliveries) : Prop
  | called {event : Option DeliveryEvent} : Moved w.manager w'.manager event →
      w'.ledger = w.ledger.note w.manager w'.manager event →
      (w.Orderly a → ∀ ev, event = some ev → Timely w.manager w.ledger ev) → Stepped w a w'
  | expired {t : Nat} : t ∈ w.manager.pendingDelivery → Moved w.manager w'.manager none →
      t ∉ w'.manager.pendingDelivery →
      w'.ledger = { w.ledger.note w.manager w'.manager none with losing := t :: w.ledger.losing } → Stepped w a w'
  | reported {t : Nat} : t ∈ w.ledger.losing → w'.manager = w.manager →
      w'.ledger = { w.ledger with losing := w.ledger.losing.erase t, history := w.ledger.history ++ [.lost t] } →
      Stepped w a w'

variable {ev : DeliveryEvent}

theorem Undivided.timely {key : PublicationKey} (h : w.Undivided key) (hends : ∀ t other, Ends t other ev → other = key)
    (hsettles : ∀ t, (w.manager.mappings.lookup key).map (·.token) = some t → Settles w.manager t ev) :
    Timely w.manager w.ledger ev := by
  intro t other hkey hend
  obtain rfl := hends t other hend
  obtain ⟨hlosing, hpending⟩ := h t hkey
  exact ⟨hlosing, fun ht => hsettles t (hpending ht)⟩

theorem forwardEvent_timely {up : Upstream} {payload : ServeForwardPayload} {e : ForwardEnv}
    (h : w.Orderly (.forward up payload e)) {result : Except Error ServePublication} {m' : PublicationManager}
    (hev : forwardEvent payload result w.manager m' = some ev) : Timely w.manager w.ledger ev := by
  unfold forwardEvent at hev
  split at hev
  · cases hev
  · next key hkey =>
    split at hev
    · cases hev
      exact (h key hkey).timely (fun _ _ hend => hend.symm) fun _ ht => ht
    · cases hev

theorem clearEvent_timely {payload : ServeClearPayload} {e : ClearEnv} (h : w.Orderly (.clear payload e))
    {result : Option Error} {log : List (ServeEvent ServeConfig)}
    (hev : clearEvent payload result log = some ev) : Timely w.manager w.ledger ev := by
  unfold clearEvent at hev
  split at hev
  · next key hkey =>
    split at hev
    · cases hev
    · cases hev
      exact (h key hkey).timely (fun _ _ hend => hend.symm) fun _ ht => ht
  · cases hev

theorem acknowledgeEvent_timely {generation token : Nat} {stale : Bool}
    (h : w.Orderly (.acknowledge generation token stale)) {result : Option Error}
    (hev : acknowledgeEvent token result = some ev) : Timely w.manager w.ledger ev := by
  unfold acknowledgeEvent at hev
  split at hev
  · cases hev
    rintro t key - rfl
    exact ⟨h, fun _ => rfl⟩
  · cases hev

theorem closeEvent_timely (htracked : Tracked w.manager w.ledger)
    (hev : closeEvent w.manager = some ev) : Timely w.manager w.ledger ev := by
  unfold closeEvent at hev
  split at hev
  · cases hev
  · cases hev
    intro t key _ hpending
    refine ⟨fun hlosing => ?_, fun _ => trivial⟩
    exact htracked.notMem_pending (htracked.losing t hlosing).1 (Finmap.mem_keys.mp hpending)

theorem expire_stepped [Ipn] (htracked : Tracked w.manager w.ledger) {pending : PendingPublicationDelivery}
    (hstep : w.step (.expire pending) = some w') : Stepped w (.expire pending) w' := by
  simp only [step, Option.ite_none_right_eq_some, Option.some.injEq] at hstep
  obtain ⟨-, rfl⟩ := hstep
  unfold expirePendingDelivery
  by_cases hcurrent : w.manager.pendingDelivery.lookup pending.mappingToken = some pending
  · have hmoved : Moved w.manager
        { w.manager with pendingDelivery := w.manager.pendingDelivery.erase pending.mappingToken } none :=
      .quiet (htracked.sane.cancel _) le_rfl fun t ht => (Finmap.mem_erase.mp ht).2
    simp only [if_pos hcurrent, if_true]
    exact .expired (Finmap.mem_of_lookup_eq_some hcurrent) hmoved Finmap.notMem_erase_self rfl
  · simp only [if_neg hcurrent, Bool.false_eq_true, if_false]
    exact .called (.quiet htracked.sane le_rfl fun _ ht => ht) rfl fun _ => nofun

variable {a : DeliveryAction}

theorem step_stepped [Ipn] (htracked : Tracked w.manager w.ledger) (hstep : w.step a = some w') : Stepped w a w' := by
  cases a with
  | forward up payload e =>
    obtain ⟨⟨⟨result, m'⟩, s⟩, hcall, rfl⟩ := Option.map_eq_some_iff.mp hstep
    exact .called (forward_moved htracked.sane hcall) rfl fun horderly _ => forwardEvent_timely horderly
  | acknowledge generation token stale =>
    cases hstep
    exact .called (acknowledge_moved htracked.sane generation token stale rfl) rfl fun horderly _ =>
      acknowledgeEvent_timely horderly
  | clear payload e =>
    obtain ⟨⟨⟨result, m'⟩, s⟩, hcall, rfl⟩ := Option.map_eq_some_iff.mp hstep
    exact .called (clear_moved htracked.sane hcall) rfl fun horderly _ => clearEvent_timely horderly
  | close e =>
    obtain ⟨⟨⟨result, m'⟩, s⟩, hcall, rfl⟩ := Option.map_eq_some_iff.mp hstep
    exact .called (close_moved htracked.sane hcall) rfl fun _ _ => closeEvent_timely htracked
  | expire pending => exact expire_stepped htracked hstep
  | lose token =>
    simp only [step, Option.ite_none_right_eq_some, Option.some.injEq] at hstep
    obtain ⟨htoken, rfl⟩ := hstep
    exact .reported htoken rfl rfl
  | external v =>
    cases hstep
    have hsame : w.ledger.note w.manager w.manager none = w.ledger := by
      simp [Ledger.note]
    exact .called (.quiet htracked.sane le_rfl fun _ ht => ht) hsame.symm fun _ => nofun

theorem Stepped.tracked (h : Stepped w a w') (htracked : Tracked w.manager w.ledger) :
    Tracked w'.manager w'.ledger := by
  cases h with
  | called hmoved hledger _ =>
    rw [hledger]
    exact htracked.moved hmoved
  | expired ht hmoved hgone hledger =>
    rw [hledger]
    exact htracked.expired ht hmoved hgone
  | reported ht hmanager hledger =>
    rw [hmanager, hledger]
    exact htracked.lose ht

theorem Stepped.owed (h : Stepped w a w') (horderly : w.Orderly a)
    (htracked : Tracked w.manager w.ledger) (howed : Owed w.manager w.ledger) : Owed w'.manager w'.ledger := by
  cases h with
  | called hmoved hledger htimely =>
    rw [hledger]
    exact howed.moved htracked hmoved (htimely horderly)
  | expired ht hmoved _ hledger =>
    rw [hledger]
    exact howed.expired htracked ht hmoved
  | reported ht hmanager hledger =>
    rw [hmanager, hledger]
    exact howed.lose ht

theorem tracked_start (generation : Nat) (server : Versioned ServeConfig) :
    Tracked (start generation server).manager (start generation server).ledger where
  sane := ⟨nofun, nofun⟩
  issued := nofun
  coordinate := nofun
  pending _ ht := absurd ht Finmap.notMem_empty
  losing := nofun
  nodup := List.nodup_nil
  lost := nofun
  once _ := Nat.zero_le 1
  fresh _ _ := rfl
  lostOnce _ := Nat.zero_le 1

theorem owed_start (generation : Nat) (server : Versioned ServeConfig) :
    Owed (start generation server).manager (start generation server).ledger where
  pending _ ht := absurd ht Finmap.notMem_empty
  losing := nofun
  lost _ _ _ _ hsub := by cases hsub

theorem Run.tracked [Ipn] {ok : Deliveries → DeliveryAction → Prop} (hrun : Run ok w w')
    (htracked : Tracked w.manager w.ledger) : Tracked w'.manager w'.ledger := by
  refine hrun.invariant htracked fun w a w' hw _ hstep => ?_
  exact (step_stepped hw hstep).tracked hw

theorem Run.owed [Ipn] (hrun : Run Orderly w w') (htracked : Tracked w.manager w.ledger)
    (howed : Owed w.manager w.ledger) : Owed w'.manager w'.ledger := by
  have hboth : Tracked w'.manager w'.ledger ∧ Owed w'.manager w'.ledger := by
    refine hrun.invariant ⟨htracked, howed⟩ fun w a w' hw horderly hstep => ?_
    have hstepped := step_stepped hw.1 hstep
    exact ⟨hstepped.tracked hw.1, hstepped.owed horderly hw.1 hw.2⟩
  exact hboth.2

/-- An acknowledgement of a token that owns a mapping and has no pending delivery. -/
theorem acknowledge_without_delivery {m : PublicationManager} (hsane : m.Sane) {key : PublicationKey}
    {mapping : PublicationMapping} (hmapping : m.mappings.lookup key = some mapping)
    (hpending : mapping.token ∉ m.pendingDelivery) :
    ∃ err, m.acknowledgePublication m.generation mapping.token false = (some err, m) ∧
      err.is .publicationCommitIndeterminate = true := by
  have hopen : m.closed = false := by
    by_contra hclosed
    rw [(hsane.emptied (by simpa using hclosed)).1] at hmapping
    cases hmapping
  unfold acknowledgePublication
  split
  · exact ⟨_, rfl, rfl⟩
  · have hcurrent : m.requireCurrentLocked false = none := by
      simp [PublicationManager.requireCurrentLocked, hopen]
    have hnone : m.pendingDelivery.lookup mapping.token = none := Finmap.lookup_eq_none.mpr hpending
    have hany : (m.mappings.any fun _ other => other.token = mapping.token) = true :=
      any_of_lookup hmapping (decide_eq_true rfl)
    rw [if_neg fun hne => hne rfl, hcurrent]
    simp only [hnone, hany, if_true]
    exact ⟨_, rfl, rfl⟩

/-- In every run a pending delivery is resolved at most once and reported as lost at most once, and a token that owns
a mapping without a pending delivery cannot be acknowledged: the commit is indeterminate. In every orderly run nothing
is reported as lost that was acknowledged, cleared, superseded or cancelled before. -/
theorem deliveries_end_once [Ipn] {generation : Nat} {server : Versioned ServeConfig} {w : Deliveries} :
    (Run (fun _ _ => True) (start generation server) w →
      (∀ t, w.ledger.resolved t ≤ 1 ∧ w.ledger.history.count (.lost t) ≤ 1) ∧
      ∀ key mapping, w.manager.mappings.lookup key = some mapping → mapping.token ∉ w.manager.pendingDelivery →
        ∃ err, w.manager.acknowledgePublication w.manager.generation mapping.token false = (some err, w.manager) ∧
          err.is .publicationCommitIndeterminate = true) ∧
    (Run Orderly (start generation server) w →
      ∀ t key ev, Ends t key ev → ¬ [.confirmed t key, ev, .lost t].Sublist w.ledger.history) := by
  have hstart := tracked_start generation server
  constructor
  · intro hrun
    have htracked := hrun.tracked hstart
    refine ⟨fun t => ⟨htracked.once t, htracked.lostOnce t⟩, ?_⟩
    intro key mapping hmapping hpending
    exact acknowledge_without_delivery htracked.sane hmapping hpending
  · intro hrun
    exact (hrun.owed hstart (owed_start generation server)).lost

/-- A forward, its acknowledgement, and the timer that was stopped too late. -/
theorem acknowledged_delivery_ends_once :
    ∃ w, Run Orderly (start 7 ⟨{}, ""⟩) w ∧
      w.ledger.history = [.confirmed 1 ⟨443, "/".toList⟩, .acknowledged 1] ∧ w.ledger.resolved 1 = 1 ∧
      (∀ t, w.ledger.resolved t ≤ 1) ∧
      ∀ t key ev, Ends t key ev → ¬ [.confirmed t key, ev, .lost t].Sublist w.ledger.history := by
  have hforward : (((start 7 ⟨{}, ""⟩).step (.forward Quiet.upstream (Quiet.payload 443 "/" 3000 false)
      (Quiet.forwardEnv "n.ts.net." none false))).map fun w => w.ledger.losing) = some [] := by decide +kernel
  obtain ⟨w1, hw1, hlosing⟩ := Option.map_eq_some_iff.mp hforward
  have hrest : ((w1.step (.acknowledge 7 1 false)).bind fun w => w.step (.expire ⟨7, 1⟩)).map
      (fun w => (w.ledger.history, w.ledger.resolved 1)) =
        some ([.confirmed 1 ⟨443, "/".toList⟩, .acknowledged 1], 1) := by
    have hall : ((start 7 ⟨{}, ""⟩).step (.forward Quiet.upstream (Quiet.payload 443 "/" 3000 false)
        (Quiet.forwardEnv "n.ts.net." none false))).map (fun w1 =>
          ((w1.step (.acknowledge 7 1 false)).bind fun w => w.step (.expire ⟨7, 1⟩)).map
            (fun w => (w.ledger.history, w.ledger.resolved 1))) =
        some (some ([.confirmed 1 ⟨443, "/".toList⟩, .acknowledged 1], 1)) := by decide +kernel
    rw [hw1] at hall
    exact Option.some.inj hall
  obtain ⟨w3, hw3, hnotes⟩ := Option.map_eq_some_iff.mp hrest
  obtain ⟨w2, hw2, hw3⟩ := Option.bind_eq_some_iff.mp hw3
  have hrun : Run Orderly (start 7 ⟨{}, ""⟩) w3 := by
    refine .next (.next (.next .start _ ?_ hw1) _ ?_ hw2) _ ?_ hw3
    · exact fun key _ t ht => nomatch ht
    · show 1 ∉ w1.ledger.losing
      rw [hlosing]
      exact List.not_mem_nil
    · trivial
  obtain ⟨hhistory, hresolved⟩ := Prod.mk.inj hnotes
  refine ⟨w3, hrun, hhistory, hresolved, ?_, deliveries_end_once.2 hrun⟩
  exact fun t => ((deliveries_end_once.1 (hrun.mono fun _ _ _ => trivial)).1 t).1

/-- Three forwards of one coordinate: the second one's answer is lost, and the third, which is confirmed, cancels the
delivery of the second. The timer of the first finds its delivery pending. -/
theorem superseded_delivery_reported_lost :
    ∃ w t key ev, Run (fun _ _ => True) (start 7 ⟨{}, ""⟩) w ∧ Ends t key ev ∧
      [.confirmed t key, ev, .lost t].Sublist w.ledger.history := by
  have hrun : (Machine.follow step (fun _ _ => true) (start 7 ⟨{}, ""⟩)
      [.forward Quiet.upstream (Quiet.payload 443 "/" 3000 false) (Quiet.forwardEnv "n.ts.net." none false),
        .forward Quiet.upstream (Quiet.payload 443 "/" 3001 false)
          (Quiet.forwardEnv "n.ts.net." (some (.other "lost")) true),
        .forward Quiet.upstream (Quiet.payload 443 "/" 3002 false) (Quiet.forwardEnv "n.ts.net." none false),
        .expire ⟨7, 1⟩, .lose 1]).map (·.ledger.history) =
        some [.confirmed 1 ⟨443, "/".toList⟩, .confirmed 3 ⟨443, "/".toList⟩, .lost 1] := by decide +kernel
  obtain ⟨w, hw, hhistory⟩ := Option.map_eq_some_iff.mp hrun
  refine ⟨w, 1, ⟨443, "/".toList⟩, .confirmed 3 ⟨443, "/".toList⟩, .follow (fun _ _ _ => trivial) .start hw, rfl, ?_⟩
  rw [hhistory]

end Deliveries

end TailscaleDart.Publication
