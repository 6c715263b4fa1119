import TailscaleDart.Conc.Machine
import TailscaleDart.Publication.Tables

/-!
# Publication.Sweep — what close leaves behind

A manager that alone writes the configuration, from an empty one on, called with any forwards and clears. As long as
the calls keep the records in step with the configuration (`Synced`), close takes away everything, and it still does
when the answer of a Set was lost, as long as nothing is cleared after that (`Loose`).

Three ways lead out of step. The records are kept by port and path and the configuration by host, port and path, so a
forward under a new DNS name loses the handler under the old one. `SetWebHandler` deletes a mount that differs by one
trailing slash, and the record of that mount stays. And a coordinate clear whose answer was lost may have taken away
the handler that is the evidence of a Funnel bit.
-/

namespace TailscaleDart.Publication

open PublicationManager
open TailscaleDart.Conc
open TailscaleDart.Data

/-- The manager and the server's configuration. -/
structure Site where
  manager : PublicationManager
  server : Versioned ServeConfig
  /-- No answer was lost, and no forward was made next to a recorded path that differs by one trailing slash. -/
  tidy : Bool := true

inductive SiteCall where
  | forward (up : Upstream) (payload : ServeForwardPayload) (e : ForwardEnv)
  | clear (payload : ServeClearPayload) (e : ClearEnv)

/-- A recorded path of the port differs from the forward's by one trailing slash. -/
def hasSibling (m : PublicationManager) (payload : ServeForwardPayload) : Bool :=
  match payload.key with
  | .error _ => false
  | .ok key => m.mappings.any fun other _ => decide (other.port = key.port ∧ ServeConfig.IsSibling key.path other.path)

namespace Site

def start (generation : Nat) (etag : String) : Site where
  manager := { generation := generation }
  server := ⟨default, etag⟩

def step [Ipn] (w : Site) : SiteCall → Option Site
  | .forward up payload e =>
    (w.manager.forward up payload e w.server).map fun ((result, m), s) =>
      ⟨m, s.server, w.tidy && !hasSibling w.manager payload && !isIndeterminate result⟩
  | .clear payload e =>
    (w.manager.clear payload e w.server).map fun ((result, m), s) =>
      ⟨m, s.server, w.tidy && !result.any fun err => err.is .publicationCommitIndeterminate⟩

/-- Nobody else writes while the answers are given. -/
def Alone (w : Site) (lossy : Prop) (answers : Answers) : Prop :=
  ∀ a ∈ answers.list, (Surroundings.alone w.server lossy).allow a

/-- A coordinate clear that is not asked for the Funnel bit, of the mapping that has switched it on. -/
def Exposing (w : Site) (payload : ServeClearPayload) (e : ClearEnv) : Prop :=
  payload.clearMode = .ok .coordinate ∧ payload.funnel = false ∧
    ∃ key host v mapping, clearKey payload = .ok key ∧ clearHost e = .ok host ∧
      w.manager.visibility.lookup ⟨host, key.port⟩ = some v ∧ v.funnel = true ∧
      w.manager.mappings.lookup key = some mapping ∧ mapping.token = v.token

/-- A coordinate is called under the host it is recorded with, clears are made while the site is tidy, and the answer
of a clear is not lost where that would expose a port. -/
def Careful (w : Site) : SiteCall → Prop
  | .forward _ payload e => w.Alone True e.answers ∧
      ∀ key status host, payload.key = .ok key → e.status = .ok status → serveHostFromStatus status = .ok host →
        SameHost w.manager key host
  | .clear payload e => w.tidy = true ∧ w.Alone (¬ w.Exposing payload e) e.answers ∧
      (payload.clearMode = .ok .coordinate → ∀ key host, clearKey payload = .ok key → clearHost e = .ok host →
        SameHost w.manager key host)

/-- The sites that calls within `ok` lead to. -/
abbrev Run [Ipn] (ok : Site → SiteCall → Prop) : Site → Site → Prop := Machine.Reachable step fun a w => ok w a

structure Kept (w : Site) : Prop where
  loose : Loose w.manager w.server.config
  synced : w.tidy = true → Synced w.manager w.server.config
  opened : w.manager.closed = false
  client : w.manager.clientNil = false

variable {w w' : Site}

theorem kept_start (generation : Nat) (etag : String) : Kept (start generation etag) where
  loose := loose_default generation
  synced _ := synced_default generation
  opened := rfl
  client := rfl

variable {payload : ServeForwardPayload}

theorem not_sibling {m : PublicationManager} {key : PublicationKey}
    (h : hasSibling m payload = false) (hkey : payload.key = .ok key) {other : PublicationKey}
    {mapping : PublicationMapping} (hother : m.mappings.lookup other = some mapping) (hport : other.port = key.port) :
    ¬ ServeConfig.IsSibling key.path other.path := by
  intro hsibling
  unfold hasSibling at h
  simp only [hkey] at h
  rw [any_of_lookup hother (decide_eq_true ⟨hport, hsibling⟩)] at h
  cases h

section Calls

variable {m m' : PublicationManager} {server v : Versioned ServeConfig}

/-- A forward keeps the records loose, and in step unless its answer was lost or it met a sibling. -/
theorem forwarded_kept [Ipn] {up : Upstream} {payload : ServeForwardPayload} {e : ForwardEnv}
    {result : Except Error ServePublication} (h : Forwarded (.alone server True) up payload e m result m' v)
    (hhosts : ∀ key status host, payload.key = .ok key → e.status = .ok status →
      serveHostFromStatus status = .ok host → SameHost m key host) (hloose : Loose m server.config) :
    Loose m' v.config ∧ m'.closed = m.closed ∧ m'.clientNil = m.clientNil ∧
      (hasSibling m payload = false → isIndeterminate result = false → Synced m server.config →
        Synced m' v.config) := by
  cases h with
  | refused _ hm' hv =>
    obtain rfl : v = server := hv
    rcases hm' with rfl | rfl
    · exact ⟨hloose, rfl, rfl, fun _ _ hsynced => hsynced⟩
    · refine ⟨{ hloose with }, rfl, rfl, fun _ _ hsynced => { hsynced with counted := fun key mapping hmapping => ?_ }⟩
      exact (hsynced.counted key mapping hmapping).imp_right (·.trans (Nat.le_succ _))
  | @confirmed status c plan _ _ _ hopen hstatus hbase hvalid hplan hv hfinish =>
    obtain rfl : c = server.config := hbase
    have hsame := hhosts _ status _ (plan_key hplan) hstatus (forwardPlan_ok hplan).2.2
    have hrecorded := finishForward_recorded hfinish
    rw [hv]
    refine ⟨?_, hrecorded.closed, hrecorded.clientNil, ?_⟩
    · exact hloose.applied hvalid hsame hrecorded.mappings rfl (.head _) hrecorded.visibility
        (.head _)
    · intro hsibling _ hsynced
      apply hsynced.forwarded hvalid hsame _ hrecorded.mappings hrecorded.visibility hrecorded.nextMappingToken
      exact fun key mapping hmapping hport => not_sibling hsibling (plan_key hplan) hmapping hport
  | @indeterminate err status c plan _ hopen _ herr hstatus hbase hvalid hplan hv =>
    obtain rfl : c = server.config := hbase
    have hsame := hhosts _ status _ (plan_key hplan) hstatus (forwardPlan_ok hplan).2.2
    obtain ⟨variants, evidence, htables, hvariants, hevidence⟩ := recordIndeterminateForward_tables plan payload m
    rw [htables]
    refine ⟨?_, rfl, rfl, ?_⟩
    · rcases hv with hnot | happlied
      · obtain rfl : v = server := hnot
        apply hloose.attempted hvalid hsame rfl rfl _ rfl
        · exact fun prior hprior ev hev => (hevidence ev).mpr (.inr ⟨prior, hprior, hev⟩)
        · exact fun prior hprior h hh => (hvariants h).mpr (.inr ⟨prior, hprior, hh⟩)
      · rw [happlied]
        apply hloose.applied hvalid hsame rfl rfl _ rfl
        · exact (hevidence _).mpr (.inl rfl)
        · exact (hvariants _).mpr (.inl rfl)
    · intro _ hdefinite
      have hlost : isIndeterminate (.error err) = true := herr
      rw [hlost] at hdefinite
      cases hdefinite

variable {payload : ServeClearPayload} {e : ClearEnv} {plan : ClearPlan}

theorem planned_apply (h : Planned payload e m plan)
    (hsynced : Synced m server.config) : Removable plan.host plan.key := by
  cases h with
  | exact _ _ hplan =>
    obtain ⟨-, rfl, hmapping, -, hhost, -⟩ := planExact_ok hplan
    rw [hhost]
    exact hsynced.removable plan.key plan.mapping hmapping
  | coordinate _ hkey hhost => exact .coordinate hkey hhost

theorem planned_synced [Ipn] (h : Planned payload e m plan)
    (hhosts : payload.clearMode = .ok .coordinate → ∀ key host, clearKey payload = .ok key → clearHost e = .ok host →
      SameHost m key host) (hsynced : Synced m server.config)
    (hranges : ranges e.order (m.mappings.erase plan.key) = true) :
    Synced (m.recordClear plan e.order) (plan.apply server.config) := by
  have hremovable := planned_apply h hsynced
  cases h with
  | exact _ _ hplan => exact hsynced.exactCleared hplan
  | coordinate hmode hkey hhost =>
    exact hsynced.coordinateCleared rfl rfl hremovable (hhosts hmode _ _ hkey hhost) rfl hranges

theorem planned_matches (h : Planned payload e m plan) (hsynced : Synced m server.config) (hexact : plan.exact = true) :
    mappingMatchesServeConfig plan.mapping server.config plan.key = true := by
  cases h with
  | exact _ _ hplan =>
    obtain ⟨-, rfl, hmapping, -⟩ := planExact_ok hplan
    obtain ⟨handler, hvariants, hserved⟩ := hsynced.installed plan.key plan.mapping hmapping
    refine mappingMatchesServeConfig_iff.mpr ⟨(hsynced.removable _ _ hmapping).host, handler, ?_, hserved⟩
    rw [hvariants]
    exact List.mem_singleton_self handler
  | coordinate _ _ _ => cases hexact

theorem cleared_kept [Ipn] {lossy : Prop} {result : Option Error}
    {s : ServeState ServeConfig} (h : Cleared (.alone server lossy) payload e m result m' s)
    (hhosts : payload.clearMode = .ok .coordinate → ∀ key host, clearKey payload = .ok key → clearHost e = .ok host →
      SameHost m key host) (hsynced : Synced m server.config)
    (hlossy : lossy → ∀ plan, Planned payload e m plan → ∀ v mapping,
      m.visibility.lookup plan.visibilityKey = some v → v.funnel = true →
      m.mappings.lookup plan.key = some mapping → mapping.host = plan.host → mapping.token = v.token →
      plan.funnel = true) : Loose m' s.server.config ∧ m'.closed = m.closed ∧ m'.clientNil = m.clientNil ∧
      ((result.any fun err => err.is .publicationCommitIndeterminate) = false → Synced m' s.server.config) := by
  cases h with
  | idle _ hv =>
    obtain rfl : _ = server := hv
    exact ⟨hsynced.loose, rfl, rfl, fun _ => hsynced⟩
  | refused _ _ _ _ hv =>
    have hsame : s.server = server := hv
    rw [hsame]
    exact ⟨hsynced.loose, rfl, rfl, fun _ => hsynced⟩
  | @confirmed plan c _ _ hplan _ hbase hwithdrawn hranges =>
    obtain rfl : c = server.config := hbase
    have hafter : Synced (m.recordClear plan e.order) s.server.config := by
      have hcleared := planned_synced hplan hhosts hsynced hranges
      cases hwithdrawn with
      | replaced hexact hreplaced _ =>
        rw [planned_matches hplan hsynced hexact] at hreplaced
        cases hreplaced
      | nothing hnothing hv =>
        have hsame : s.server = server := hv
        rw [hsame, ← hnothing]
        exact hcleared
      | applied _ hv =>
        rw [hv]
        exact hcleared
    exact ⟨hafter.loose, recordClear_closed _ _ _, recordClear_clientNil _ _ _, fun _ => hafter⟩
  | @indeterminate plan c err _ _ hlost herr hplan _ hbase hv =>
    obtain rfl : c = server.config := hbase
    refine ⟨?_, rfl, rfl, ?_⟩
    · rcases hv with hnot | happlied
      · have hsame : s.server = server := hnot
        rw [hsame]
        exact hsynced.loose
      · rw [happlied]
        exact hsynced.loose_apply (planned_apply hplan hsynced) (hlossy hlost plan hplan)
    · intro hdefinite
      have hlost : err.is .publicationCommitIndeterminate = false := hdefinite
      rw [herr] at hlost
      cases hlost

theorem closed_bare [Ipn] {e : CloseEnv} {lossy : Prop} {s : ServeState ServeConfig}
    (h : Closed (.alone server lossy) e m none m' s) (hopen : m.closed = false) (hclient : m.clientNil = false)
    (hloose : Loose m server.config) : Bare s.server.config := by
  cases h with
  | already hclosed _ =>
    rw [hopen] at hclosed
    cases hclosed
  | nothing hnothing hv =>
    obtain rfl : _ = server := hv
    rcases hnothing with ⟨hmappings, hvisibility⟩ | hnil
    · constructor
      · intro hp path
        by_contra hserved
        obtain ⟨handler, hserved⟩ := Option.ne_none_iff_exists'.mp hserved
        obtain ⟨mapping, hmapping, -⟩ := hloose.recorded hp path handler hserved
        rw [hmappings] at hmapping
        cases hmapping
      · intro hp
        by_contra hon
        obtain ⟨v, hv, -⟩ := hloose.evident hp (by simpa using hon)
        rw [hvisibility] at hv
        cases hv
    · rw [hclient] at hnil
      cases hnil
  | @confirmed c _ hvisibility hmappings _ hbase hv =>
    obtain rfl : c = server.config := hbase
    have hswept := hloose.sweep hvisibility hmappings
    rcases hv with ⟨hsame, hv⟩ | happlied
    · have hserver : s.server = server := hv
      rw [hserver, ← hsame]
      exact hswept
    · rw [happlied]
      exact hswept

end Calls

variable {lossy : Prop}

theorem Alone.mono {lossy' : Prop} {answers : Answers} (h : w.Alone lossy answers) (himp : lossy → lossy') :
    w.Alone lossy' answers := by
  intro a ha
  obtain ⟨hexternal, hnil, hcontext, hset⟩ := h a ha
  refine ⟨hexternal, hnil, hcontext, ?_⟩
  intro err herr
  rcases hset err herr with hpre | hknown | hlost
  · exact .inl hpre
  · exact .inr (.inl hknown)
  · exact .inr (.inr (himp hlost))

theorem Kept.forward [Ipn] (h : Kept w) {up : Upstream} {e : ForwardEnv}
    (hok : Careful w (.forward up payload e)) (hstep : w.step (.forward up payload e) = some w') : Kept w' := by
  obtain ⟨halone, hhosts⟩ := hok
  obtain ⟨⟨⟨result, m'⟩, s⟩, hcall, rfl⟩ := Option.map_eq_some_iff.mp hstep
  have hforwarded := forward_cases (S := .alone w.server True) rfl halone hcall
  obtain ⟨hloose, hclosed, hclient, hsynced⟩ := forwarded_kept hforwarded hhosts h.loose
  refine ⟨hloose, ?_, hclosed.trans h.opened, hclient.trans h.client⟩
  intro htidy
  simp only [Bool.and_eq_true, Bool.not_eq_true'] at htidy
  exact hsynced htidy.1.2 htidy.2 (h.synced htidy.1.1)

variable {e : ClearEnv}

/-- A clear of the mapping that has switched the bit on is asked for the bit, unless it exposes the port. -/
theorem covered_of_not_exposing {payload : ServeClearPayload} (h : ¬ w.Exposing payload e)
    {plan : ClearPlan} (hplan : Planned payload e w.manager plan) {v : PublicationVisibility}
    {mapping : PublicationMapping} (hv : w.manager.visibility.lookup plan.visibilityKey = some v)
    (hfunnel : v.funnel = true) (hmapping : w.manager.mappings.lookup plan.key = some mapping)
    (htoken : mapping.token = v.token) : plan.funnel = true := by
  cases hplan with
  | exact _ _ hplan =>
    obtain ⟨-, rfl, hrecord, htoken', -, -, -, hiff⟩ := planExact_ok hplan
    obtain rfl := Option.some.inj (hrecord.symm.trans hmapping)
    exact hiff.mpr ⟨v, hv, htoken.symm.trans htoken', hfunnel⟩
  | coordinate hmode hkey hhost =>
    by_contra hoff
    have hunasked : payload.funnel = false := Bool.eq_false_iff.mpr hoff
    exact h ⟨hmode, hunasked, _, _, v, mapping, hkey, hhost, hv, hfunnel, hmapping, htoken⟩

theorem Kept.clear [Ipn] (h : Kept w) {payload : ServeClearPayload} (hok : Careful w (.clear payload e))
    (hstep : w.step (.clear payload e) = some w') : Kept w' := by
  obtain ⟨htidy, halone, hhosts⟩ := hok
  obtain ⟨⟨⟨result, m'⟩, s⟩, hcall, rfl⟩ := Option.map_eq_some_iff.mp hstep
  have hcleared := clear_cases (S := .alone w.server (¬ w.Exposing payload e)) rfl halone hcall
  obtain ⟨hloose, hclosed, hclient, hsynced⟩ := cleared_kept hcleared hhosts (h.synced htidy)
    fun hlossy plan hplan v mapping hv hfunnel hmapping _ htoken =>
      covered_of_not_exposing hlossy hplan hv hfunnel hmapping htoken
  refine ⟨hloose, ?_, hclosed.trans h.opened, hclient.trans h.client⟩
  intro hafter
  simp only [Bool.and_eq_true, Bool.not_eq_true'] at hafter
  exact hsynced hafter.2

theorem Kept.step [Ipn] (h : Kept w) {a : SiteCall} (hok : Careful w a) (hstep : w.step a = some w') : Kept w' := by
  cases a with
  | forward up payload e => exact h.forward hok hstep
  | clear payload e => exact h.clear hok hstep

/-- After any careful calls, a close that returns nil leaves no handler and no Funnel bit, under any host name. -/
theorem close_leaves_nothing [Ipn] {generation : Nat} {etag : String} {w : Site}
    (hrun : Run Careful (start generation etag) w) {e : CloseEnv} (halone : w.Alone True e.answers)
    {m' : PublicationManager} {s : ServeState ServeConfig}
    (hclose : w.manager.close e w.server = some ((none, m'), s)) : Bare s.server.config := by
  have h : Kept w := hrun.invariant (kept_start generation etag) fun _ _ _ h hok hstep => h.step hok hstep
  have hclosed := close_cases (S := .alone w.server True) rfl halone hclose
  exact closed_bare hclosed h.opened h.client h.loose

/-- The only condition of the calls: nobody else writes. -/
def Unaccompanied (w : Site) : SiteCall → Prop
  | .forward _ _ e => w.Alone True e.answers
  | .clear _ e => w.Alone True e.answers

theorem forwardEnv_alone (w : Site) (host : String) (setErr : Option ClientError) (applies : Bool)
    (hset : ∀ err, setErr = some err → isPreconditionsFailed err ∨ isKnownNotApplied err ∨ lossy) :
    w.Alone lossy (Quiet.forwardEnv host setErr applies).answers :=
  Quiet.answers_alone rfl rfl rfl hset

theorem closeEnv_alone (w : Site) (visibilityOrder : List HostPort) (mappingOrder : List PublicationKey) :
    w.Alone lossy (Quiet.closeEnv visibilityOrder mappingOrder).answers := Quiet.answers_alone rfl rfl rfl nofun

/-- A forward with Funnel whose answer was lost, although it was applied. -/
theorem lost_forward_leaves_nothing :
    ∃ w s m', Run Careful (start 7 "") w ∧ w.server.config.funnelOn ⟨"n.ts.net".toList, 443⟩ = true ∧
      w.manager.close (Quiet.closeEnv [⟨"n.ts.net".toList, 443⟩] [⟨443, "/".toList⟩]) w.server = some ((none, m'), s) ∧
      Bare s.server.config := by
  have hforward : ((start 7 "").step (.forward Quiet.upstream (Quiet.payload 443 "/" 3000 true)
      (Quiet.forwardEnv "n.ts.net." (some (.other "lost")) true))).map (fun w =>
        (w.server.config.funnelOn ⟨"n.ts.net".toList, 443⟩,
          (w.manager.close (Quiet.closeEnv [⟨"n.ts.net".toList, 443⟩] [⟨443, "/".toList⟩]) w.server).map (·.1.1))) =
      some (true, some none) := by decide +kernel
  obtain ⟨w, hw, hfacts⟩ := Option.map_eq_some_iff.mp hforward
  obtain ⟨hon, hclose⟩ := Prod.mk.inj hfacts
  obtain ⟨⟨⟨result, m'⟩, s⟩, hclose, hresult⟩ := Option.map_eq_some_iff.mp hclose
  obtain rfl : result = none := hresult
  have hrun : Run Careful (start 7 "") w := by
    apply Machine.Reachable.next .start _ _ hw
    constructor
    · exact forwardEnv_alone _ _ _ _ fun _ _ => .inr (.inr trivial)
    · exact nofun
  exact ⟨w, s, m', hrun, hon, hclose, close_leaves_nothing hrun (closeEnv_alone _ _ _) hclose⟩

/-- The node is renamed between two forwards of one coordinate: the record of the first is replaced, its handler under
the old name stays. -/
theorem renamed_node_leaves_handler :
    ∃ w s m', Run Unaccompanied (start 7 "") w ∧
      w.Alone True (Quiet.closeEnv [⟨"a.ts.net".toList, 443⟩, ⟨"b.ts.net".toList, 443⟩] [⟨443, "/".toList⟩]).answers ∧
      w.manager.close (Quiet.closeEnv [⟨"a.ts.net".toList, 443⟩, ⟨"b.ts.net".toList, 443⟩] [⟨443, "/".toList⟩])
        w.server = some ((none, m'), s) ∧
      s.server.config.handler ⟨"a.ts.net".toList, 443⟩ "/".toList = some (.proxy "http://127.0.0.1:3000".toList) := by
  have hall : ((start 7 "").step (.forward Quiet.upstream (Quiet.payload 443 "/" 3000 true)
        (Quiet.forwardEnv "a.ts.net." none false))).bind (fun w =>
      (w.step (.forward Quiet.upstream (Quiet.payload 443 "/" 3001 true) (Quiet.forwardEnv "b.ts.net." none false))).map
        fun w => (w.manager.close (Quiet.closeEnv [⟨"a.ts.net".toList, 443⟩, ⟨"b.ts.net".toList, 443⟩]
            [⟨443, "/".toList⟩]) w.server).map fun ((result, _), s) =>
          (result, s.server.config.handler ⟨"a.ts.net".toList, 443⟩ "/".toList)) =
      some (some (none, some (.proxy "http://127.0.0.1:3000".toList))) := by
    decide +kernel
  obtain ⟨w1, hw1, hall⟩ := Option.bind_eq_some_iff.mp hall
  obtain ⟨w2, hw2, hall⟩ := Option.map_eq_some_iff.mp hall
  obtain ⟨⟨⟨result, m'⟩, s⟩, hclose, hfacts⟩ := Option.map_eq_some_iff.mp hall
  obtain ⟨hresult, hhandler⟩ := Prod.mk.inj hfacts
  obtain rfl : result = none := hresult
  have hrun : Run Unaccompanied (start 7 "") w2 := by
    apply Machine.Reachable.next (.next .start _ _ hw1) _ _ hw2
    · exact forwardEnv_alone _ _ _ _ nofun
    · exact forwardEnv_alone _ _ _ _ nofun
  exact ⟨w2, s, m', hrun, closeEnv_alone _ _ _, hclose, hhandler⟩

/-! ## One DNS name, and no lost answers -/

/-- Nobody else writes, every Set is answered, and the node is called `host`. -/
def Definite (host : Text) (w : Site) : SiteCall → Prop
  | .forward _ _ e => w.Alone False e.answers ∧
      ∀ status name, e.status = .ok status → serveHostFromStatus status = .ok name → name = host
  | .clear _ e => w.Alone False e.answers ∧
      ∀ status name, e.status = .ok status → serveHostFromStatus status = .ok name → name = host

/-- And no forward is made for a path that differs by one trailing slash from one recorded on its port. -/
def Steady (host : Text) (w : Site) (a : SiteCall) : Prop :=
  Definite host w a ∧ ∀ up payload e, a = .forward up payload e → hasSibling w.manager payload = false

/-- Every record is under the node's name. -/
def Named (host : Text) (m : PublicationManager) : Prop :=
  ∀ key mapping, m.mappings.lookup key = some mapping → mapping.host = host

structure KeptSteady (host : Text) (w : Site) : Prop where
  kept : Kept w
  tidy : w.tidy = true
  named : Named host w.manager

variable {host : Text}

theorem Steady.careful (hnamed : Named host w.manager) (htidy : w.tidy = true) {a : SiteCall}
    (h : Steady host w a) : Careful w a := by
  cases a with
  | forward up payload e =>
    obtain ⟨⟨halone, hconstant⟩, -⟩ := h
    refine ⟨halone.mono False.elim, ?_⟩
    intro key status name _ hstatus hname mapping hmapping
    rw [hconstant status name hstatus hname]
    exact hnamed key mapping hmapping
  | clear payload e =>
    obtain ⟨⟨halone, hconstant⟩, -⟩ := h
    refine ⟨htidy, halone.mono False.elim, ?_⟩
    intro _ key name _ hhost mapping hmapping
    obtain ⟨status, hstatus, hname⟩ := clearHost_ok hhost
    rw [hconstant status name hstatus hname]
    exact hnamed key mapping hmapping

theorem KeptSteady.forward [Ipn] (h : KeptSteady host w) {up : Upstream}
    {e : ForwardEnv} (hok : Steady host w (.forward up payload e))
    (hstep : w.step (.forward up payload e) = some w') : w'.tidy = true ∧ Named host w'.manager := by
  obtain ⟨⟨halone, hconstant⟩, hsibling⟩ := hok
  obtain ⟨⟨⟨result, m'⟩, s⟩, hcall, rfl⟩ := Option.map_eq_some_iff.mp hstep
  have hforwarded := forward_cases (S := .alone w.server False) rfl halone hcall
  have hboth : isIndeterminate result = false ∧ Named host m' := by
    cases hforwarded with
    | refused herr hm' _ =>
      rcases hm' with rfl | rfl
      · exact ⟨herr, h.named⟩
      · exact ⟨herr, h.named⟩
    | @confirmed status c plan _ _ _ _ hstatus _ _ hplan _ hfinish =>
      refine ⟨(finishForward_confirmed hfinish).1, ?_⟩
      intro key mapping hmapping
      rw [(finishForward_recorded hfinish).mappings, lookup_insert_ite] at hmapping
      split at hmapping
      · cases hmapping
        exact hconstant status _ hstatus (forwardPlan_ok hplan).2.2
      · exact h.named key mapping hmapping
    | indeterminate _ hlossy _ _ _ _ _ _ => exact hlossy.elim
  refine ⟨?_, hboth.2⟩
  simp [h.tidy, hsibling up payload e rfl, hboth.1]

theorem KeptSteady.clear [Ipn] (h : KeptSteady host w) {payload : ServeClearPayload}
    (hok : Steady host w (.clear payload e))
    (hstep : w.step (.clear payload e) = some w') : w'.tidy = true ∧ Named host w'.manager := by
  obtain ⟨⟨halone, -⟩, -⟩ := hok
  obtain ⟨⟨⟨result, m'⟩, s⟩, hcall, rfl⟩ := Option.map_eq_some_iff.mp hstep
  have hcleared := clear_cases (S := .alone w.server False) rfl halone hcall
  have hboth : (result.any fun err => err.is .publicationCommitIndeterminate) = false ∧ Named host m' := by
    cases hcleared with
    | idle herr _ =>
      refine ⟨?_, h.named⟩
      cases result with
      | none => rfl
      | some err => exact herr err rfl
    | refused _ herr _ _ _ => exact ⟨herr, h.named⟩
    | confirmed _ _ _ _ _ _ =>
      refine ⟨rfl, ?_⟩
      intro key mapping hmapping
      rw [recordClear_mappings] at hmapping
      exact h.named key mapping (lookup_of_erase hmapping).2
    | indeterminate _ hlossy _ _ _ _ _ => exact hlossy.elim
  refine ⟨?_, hboth.2⟩
  simp [h.tidy, hboth.1]

theorem KeptSteady.step [Ipn] (h : KeptSteady host w) {a : SiteCall} (hok : Steady host w a)
    (hstep : w.step a = some w') : KeptSteady host w' := by
  have hkept := h.kept.step (hok.careful h.named h.tidy) hstep
  cases a with
  | forward up payload e =>
    obtain ⟨htidy, hnamed⟩ := h.forward hok hstep
    exact ⟨hkept, htidy, hnamed⟩
  | clear payload e =>
    obtain ⟨htidy, hnamed⟩ := h.clear hok hstep
    exact ⟨hkept, htidy, hnamed⟩

/-- A close that nothing disturbs returns nil, whatever the orders in which it ranges over the records, and leaves
nothing. -/
theorem Kept.closes [Ipn] (h : Kept w) {e : CloseEnv} (hsmooth : ∀ a ∈ e.answers.list, a.Smooth)
    (hlength : 4 ≤ e.answers.list.length) (hvisibility : ranges e.visibilityOrder w.manager.visibility = true)
    (hmappings : ranges e.mappingOrder w.manager.mappings = true) :
    ∃ m' s, w.manager.close e w.server = some ((none, m'), s) ∧ Bare s.server.config := by
  have hreturns : ∃ m' s, w.manager.close e w.server = some ((none, m'), s) := by
    unfold close
    simp only [h.opened, Bool.false_eq_true, if_false]
    split
    · exact ⟨_, _, rfl⟩
    · rw [if_pos (by simpa [cancelAllPendingDeliveriesLocked] using ⟨hvisibility, hmappings⟩)]
      have happly : ∀ c w', ∃ changed, (w.manager.closeApply e c w').changed = .ok changed := fun _ _ => ⟨_, rfl⟩
      obtain ⟨w', s', hexec⟩ := mutateLocked_smooth (m := mutation false w.manager) h.client rfl rfl happly () w.server
        hsmooth hlength
      exact ⟨_, s', Option.map_eq_some_iff.mpr ⟨_, hexec, rfl⟩⟩
  obtain ⟨m', s, hclose⟩ := hreturns
  have halone : w.Alone False e.answers := fun a ha =>
    have ha := hsmooth a ha
    ⟨ha.external, by simp [ha.get], by simp [ha.context], by simp [ha.set]⟩
  exact ⟨m', s, hclose, closed_bare (close_cases (S := .alone w.server False) rfl halone hclose) h.opened h.client
    h.loose⟩

/-- After any steady calls the installed handlers are the single variants of the records, the Funnel bits those of the
visibility records, each visibility record belongs to an installed mapping, and a close with a live context whose Get
answers and whose Set is neither refused nor lost returns nil and leaves nothing. -/
theorem records_describe_config [Ipn] {host : Text} {generation : Nat} {etag : String} {w : Site}
    (hrun : Run (Steady host) (start generation etag) w) :
    (∀ port path h, w.server.config.handler ⟨host, port⟩ path = some h ↔
      ∃ mapping, w.manager.mappings.lookup ⟨port, path⟩ = some mapping ∧ mapping.variants = [h]) ∧
    (∀ key mapping, w.manager.mappings.lookup key = some mapping → mapping.host = host ∧ ∃ h, mapping.variants = [h]) ∧
    (∀ port, w.server.config.funnelOn ⟨host, port⟩ = true ↔
      ∃ v, w.manager.visibility.lookup ⟨host, port⟩ = some v ∧ v.funnel = true) ∧
    (∀ hp v, w.manager.visibility.lookup hp = some v → ∃ key mapping h,
      w.manager.mappings.lookup key = some mapping ∧ mapping.token = v.token ∧ key.port = hp.port ∧
        w.server.config.handler hp key.path = some h) ∧
    ∀ e : CloseEnv, (∀ a ∈ e.answers.list, a.Smooth) → 4 ≤ e.answers.list.length →
      ranges e.visibilityOrder w.manager.visibility = true → ranges e.mappingOrder w.manager.mappings = true →
      ∃ m' s, w.manager.close e w.server = some ((none, m'), s) ∧ Bare s.server.config := by
  have hstart : KeptSteady host (start generation etag) := ⟨kept_start generation etag, rfl, nofun⟩
  have h : KeptSteady host w := hrun.invariant hstart fun _ _ _ h hok hstep => h.step hok hstep
  have hsynced := h.kept.synced h.tidy
  refine ⟨?_, ?_, ?_, ?_, ?_⟩
  · intro port path handler
    constructor
    · intro hserved
      obtain ⟨mapping, hmapping, -, hvariants⟩ := hsynced.recorded _ path handler hserved
      exact ⟨mapping, hmapping, hvariants⟩
    · rintro ⟨mapping, hmapping, hvariants⟩
      obtain ⟨installed, hinstalled, hserved⟩ := hsynced.installed _ mapping hmapping
      rw [h.named _ mapping hmapping] at hserved
      rw [hvariants] at hinstalled
      cases hinstalled
      exact hserved
  · intro key mapping hmapping
    obtain ⟨handler, hvariants, -⟩ := hsynced.installed key mapping hmapping
    exact ⟨h.named key mapping hmapping, handler, hvariants⟩
  · exact fun port => hsynced.funnel ⟨host, port⟩
  · intro hp v hv
    obtain ⟨key, mapping, hmapping, hport, hhost, htoken, -⟩ := hsynced.owner hp v hv
    obtain ⟨handler, -, hserved⟩ := hsynced.installed key mapping hmapping
    rw [hport, hhost] at hserved
    exact ⟨key, mapping, handler, hmapping, htoken, hport, hserved⟩
  · exact fun e => h.kept.closes

/-- A forward of the node `n.ts.net` that is answered. -/
theorem quiet_definite (w : Site) (payload : ServeForwardPayload) :
    Definite "n.ts.net".toList w (.forward Quiet.upstream payload (Quiet.forwardEnv "n.ts.net." none false)) := by
  have hname : serveHostFromStatus (Quiet.status "n.ts.net.") = .ok "n.ts.net".toList := by rfl
  constructor
  · exact forwardEnv_alone _ _ _ _ nofun
  · rintro status name ⟨⟩ hstatus
    rw [hname] at hstatus
    cases hstatus
    rfl

/-- A private path and one with Funnel on the same port, and a close. -/
theorem two_paths_described :
    ∃ w m' s, Run (Steady "n.ts.net".toList) (start 7 "") w ∧ w.server.config.funnelOn ⟨"n.ts.net".toList, 443⟩ = true ∧
      (∃ v, w.manager.visibility.lookup ⟨"n.ts.net".toList, 443⟩ = some v ∧ v.funnel = true) ∧
      (∃ mapping, w.manager.mappings.lookup ⟨443, "/".toList⟩ = some mapping ∧
        mapping.variants = [.proxy "http://127.0.0.1:3000".toList]) ∧
      w.manager.close (Quiet.closeEnv [⟨"n.ts.net".toList, 443⟩] [⟨443, "/x".toList⟩, ⟨443, "/".toList⟩]) w.server =
        some ((none, m'), s) ∧ Bare s.server.config := by
  have hall : ((start 7 "").step (.forward Quiet.upstream (Quiet.payload 443 "/" 3000 false)
        (Quiet.forwardEnv "n.ts.net." none false))).bind (fun w =>
      (w.step (.forward Quiet.upstream (Quiet.payload 443 "/x" 3001 true)
        (Quiet.forwardEnv "n.ts.net." none false))).map
        fun w' => (hasSibling w.manager (Quiet.payload 443 "/x" 3001 true),
          w'.server.config.funnelOn ⟨"n.ts.net".toList, 443⟩,
          w'.server.config.handler ⟨"n.ts.net".toList, 443⟩ "/".toList,
          ranges [⟨"n.ts.net".toList, 443⟩] w'.manager.visibility,
          ranges [⟨443, "/x".toList⟩, ⟨443, "/".toList⟩] w'.manager.mappings)) =
      some (false, true, some (.proxy "http://127.0.0.1:3000".toList), true, true) := by decide +kernel
  obtain ⟨w1, hw1, hall⟩ := Option.bind_eq_some_iff.mp hall
  obtain ⟨w2, hw2, hfacts⟩ := Option.map_eq_some_iff.mp hall
  obtain ⟨hsibling, hfacts⟩ := Prod.mk.inj hfacts
  obtain ⟨hon, hfacts⟩ := Prod.mk.inj hfacts
  obtain ⟨hserved, hfacts⟩ := Prod.mk.inj hfacts
  obtain ⟨hvisibility, hmappings⟩ := Prod.mk.inj hfacts
  have hrun : Run (Steady "n.ts.net".toList) (start 7 "") w2 := by
    apply Machine.Reachable.next (.next .start _ _ hw1) _ _ hw2
    · refine ⟨quiet_definite _ _, ?_⟩
      rintro _ _ _ ⟨⟩
      rfl
    · refine ⟨quiet_definite _ _, ?_⟩
      rintro _ _ _ ⟨⟩
      exact hsibling
  obtain ⟨hhandlers, -, hbits, -, hcloses⟩ := records_describe_config hrun
  obtain ⟨m', s, hclose, hbare⟩ := hcloses (Quiet.closeEnv [⟨"n.ts.net".toList, 443⟩] _) (fun a ha => by
    obtain rfl : a = {} := by simpa [Quiet.closeEnv, Quiet.answers] using ha
    exact ⟨rfl, rfl, ⟨rfl, rfl⟩, rfl⟩) (by decide) hvisibility hmappings
  exact ⟨w2, m', s, hrun, hon, (hbits 443).mp hon, (hhandlers 443 "/".toList _).mp hserved, hclose, hbare⟩

/-- Two paths that differ by a trailing slash: the second forward deletes the handler of the first, whose record
stays. -/
theorem sibling_record_not_installed :
    ∃ w mapping, Run (Definite "n.ts.net".toList) (start 7 "") w ∧
      w.manager.mappings.lookup ⟨443, "/x/".toList⟩ = some mapping ∧
      mapping.variants = [.proxy "http://127.0.0.1:3000".toList] ∧
      w.server.config.handler ⟨"n.ts.net".toList, 443⟩ "/x/".toList = none := by
  have hall : ((start 7 "").step (.forward Quiet.upstream (Quiet.payload 443 "/x/" 3000 false)
        (Quiet.forwardEnv "n.ts.net." none false))).bind (fun w =>
      (w.step (.forward Quiet.upstream (Quiet.payload 443 "/x" 3001 false)
        (Quiet.forwardEnv "n.ts.net." none false))).map
        fun w' => ((w'.manager.mappings.lookup ⟨443, "/x/".toList⟩).map (·.variants),
          w'.server.config.handler ⟨"n.ts.net".toList, 443⟩ "/x/".toList)) =
      some (some [.proxy "http://127.0.0.1:3000".toList], none) := by decide +kernel
  obtain ⟨w1, hw1, hall⟩ := Option.bind_eq_some_iff.mp hall
  obtain ⟨w2, hw2, hfacts⟩ := Option.map_eq_some_iff.mp hall
  obtain ⟨hrecord, hmissing⟩ := Prod.mk.inj hfacts
  obtain ⟨mapping, hmapping, hvariants⟩ := Option.map_eq_some_iff.mp hrecord
  have hrun : Run (Definite "n.ts.net".toList) (start 7 "") w2 :=
    .next (.next .start _ (quiet_definite _ _) hw1) _ (quiet_definite _ _) hw2
  exact ⟨w2, mapping, hrun, hmapping, hvariants, hmissing⟩

end Site

end TailscaleDart.Publication
