import Mathlib.Data.Finmap
import TailscaleDart.Publication.Mutate

/-!
# Publication.ServeConfig — the configuration, and what one call does to it

The node's Serve/Funnel configuration maps a `host:port` to the web handlers of its paths and, separately, to its
Funnel bit. Upstream's own functions have effects of their own: installing a handler deletes any other mount that
differs from it by one trailing slash, and removing the last mount of a `host:port` removes the port, with its
Funnel bit when the caller asks.

The maps are finite maps, so that equality of configurations is `reflect.DeepEqual`. What the functions do is
read off through two observations: the handler at a path (`handler`) and the Funnel bit (`funnelOn`).
-/

namespace TailscaleDart.Publication

abbrev Text := List Char

/-- `ipn.HTTPHandler`: a proxy, as this package makes them, or anything another writer installed. -/
inductive HTTPHandler where
  | proxy (target : Text)
  | other (content : Text)
  deriving DecidableEq, Repr

/-- `ipn.TCPPortHandler`: web, over TLS or not, or a port that forwards TCP. -/
inductive TCPPortHandler where
  | web (https : Bool)
  | forward (content : Text)
  deriving DecidableEq, Repr

/-- `ipn.HostPort`; the text `host:port` determines both. -/
structure HostPort where
  host : Text
  port : Nat
  deriving DecidableEq, Repr

abbrev Handlers := Finmap fun _ : Text => HTTPHandler

/-- `ipn.ServeConfig`, as far as this package reads or writes it. -/
structure ServeConfig where
  tcp : Finmap fun _ : Nat => TCPPortHandler := ∅
  web : Finmap fun _ : HostPort => Handlers := ∅
  allowFunnel : Finmap fun _ : HostPort => Bool := ∅
  deriving DecidableEq

instance : Inhabited ServeConfig := ⟨{}⟩

namespace ServeConfig

/-! ## Observations -/

def handler (hp : HostPort) (mount : Text) (sc : ServeConfig) : Option HTTPHandler :=
  (sc.web.lookup hp).bind fun handlers => handlers.lookup mount

def funnelOn (hp : HostPort) (sc : ServeConfig) : Bool := sc.allowFunnel.lookup hp = some true

/-- `strings.TrimSuffix(mount, "/")`. -/
def trimSlash (mount : Text) : Text := if mount.getLast? = some '/' then mount.dropLast else mount

/-- A mount that `SetWebHandler` deletes when it installs a handler at `mount`. -/
def IsSibling (mount other : Text) : Prop := other ≠ mount ∧ trimSlash other = trimSlash mount

instance (mount other : Text) : Decidable (IsSibling mount other) := inferInstanceAs (Decidable (_ ∧ _))

end ServeConfig

/-! ## Upstream -/

/-- The methods of upstream's `ipn.ServeConfig` that this package calls, and what is asked of them. -/
class Ipn where
  isTCPForwardingOnPort : Nat → ServeConfig → Bool
  setWebHandler : HTTPHandler → Text → Nat → Text → Bool → ServeConfig → ServeConfig
  setFunnel : Text → Nat → Bool → ServeConfig → ServeConfig
  /-- `RemoveWebHandler` of one mount. -/
  removeWebHandler : Text → Nat → Text → Bool → ServeConfig → ServeConfig
  /-- The new handler is installed, its siblings are gone, and nothing else changes. -/
  handler_setWebHandler : ∀ h host port mount https sc hp k, (setWebHandler h host port mount https sc).handler hp k =
    if hp = ⟨host, port⟩ then
      if k = mount then some h else if ServeConfig.IsSibling mount k then none else sc.handler hp k
    else sc.handler hp k
  funnelOn_setWebHandler : ∀ h host port mount https sc hp,
    (setWebHandler h host port mount https sc).funnelOn hp = sc.funnelOn hp
  handler_setFunnel : ∀ host port setOn sc hp k, (setFunnel host port setOn sc).handler hp k = sc.handler hp k
  funnelOn_setFunnel : ∀ host port setOn sc hp,
    (setFunnel host port setOn sc).funnelOn hp = if hp = ⟨host, port⟩ then setOn else sc.funnelOn hp
  /-- Where the `host:port` has handlers, the mount goes and nothing else. -/
  handler_removeWebHandler : ∀ {host port sc} {handlers : Handlers}, sc.web.lookup ⟨host, port⟩ = some handlers →
    ∀ mount cleanupFunnel hp k, (removeWebHandler host port mount cleanupFunnel sc).handler hp k =
      if hp = ⟨host, port⟩ ∧ k = mount then none else sc.handler hp k
  /-- The bit goes when the caller asks for it and no other mount is left. -/
  funnelOn_removeWebHandler : ∀ {host port sc} {handlers : Handlers}, sc.web.lookup ⟨host, port⟩ = some handlers →
    ∀ mount cleanupFunnel hp, (removeWebHandler host port mount cleanupFunnel sc).funnelOn hp =
      if cleanupFunnel = true ∧ hp = ⟨host, port⟩ ∧ handlers.erase mount = ∅ then false else sc.funnelOn hp

namespace ServeConfig

export Ipn (isTCPForwardingOnPort setWebHandler setFunnel removeWebHandler handler_setWebHandler
  funnelOn_setWebHandler handler_setFunnel funnelOn_setFunnel handler_removeWebHandler funnelOn_removeWebHandler)

attribute [simp] Ipn.funnelOn_setWebHandler Ipn.handler_setFunnel

/-! ### The methods as upstream has them -/

namespace Upstream

def isTCPForwardingOnPort (port : Nat) (sc : ServeConfig) : Bool :=
  match sc.tcp.lookup port with
  | some (.forward _) => true
  | _ => false

def dropSibling (mount : Text) (kept : Handlers) (other : Text) : Handlers :=
  if IsSibling mount other then kept.erase other else kept

theorem dropSibling_comm (mount : Text) (kept : Handlers) (a b : Text) :
    dropSibling mount (dropSibling mount kept a) b = dropSibling mount (dropSibling mount kept b) a := by
  unfold dropSibling
  split <;> split <;> first | rfl | exact Finmap.erase_erase

/-- The loop at the end of `SetWebHandler`, over the handlers of one `host:port`. -/
def dropSiblings (mount : Text) (handlers : Handlers) : Handlers :=
  handlers.foldl (fun kept other _ => dropSibling mount kept other)
  (fun kept a _ b _ => dropSibling_comm mount kept a b)
    handlers

def setWebHandler (handler : HTTPHandler) (host : Text) (port : Nat) (mount : Text) (https : Bool)
    (sc : ServeConfig) : ServeConfig :=
  let handlers := ((sc.web.lookup ⟨host, port⟩).getD ∅).insert mount handler
  { sc with
    tcp := sc.tcp.insert port (.web https)
    web := sc.web.insert ⟨host, port⟩ (dropSiblings mount handlers) }

def setFunnel (host : Text) (port : Nat) (setOn : Bool) (sc : ServeConfig) : ServeConfig :=
  if setOn then { sc with allowFunnel := sc.allowFunnel.insert ⟨host, port⟩ true }
  else { sc with allowFunnel := sc.allowFunnel.erase ⟨host, port⟩ }

def removeWebHandler (host : Text) (port : Nat) (mount : Text) (cleanupFunnel : Bool) (sc : ServeConfig) :
    ServeConfig :=
  let handlers := ((sc.web.lookup ⟨host, port⟩).getD ∅).erase mount
  if handlers = ∅ then
    { tcp := sc.tcp.erase port
      web := sc.web.erase ⟨host, port⟩
      allowFunnel := if cleanupFunnel then sc.allowFunnel.erase ⟨host, port⟩ else sc.allowFunnel }
  else { sc with web := sc.web.insert ⟨host, port⟩ handlers }

theorem lookup_dropSibling (mount k : Text) (kept : Handlers) (other : Text) :
    (dropSibling mount kept other).lookup k = if k = other ∧ IsSibling mount k then none else kept.lookup k := by
  unfold dropSibling
  by_cases hs : IsSibling mount other
  · rw [if_pos hs]
    by_cases hk : k = other
    · subst hk
      rw [if_pos ⟨rfl, hs⟩, Finmap.lookup_erase]
    · rw [if_neg (fun h => hk h.1), Finmap.lookup_erase_ne hk]
  · have hno : ¬ (k = other ∧ IsSibling mount k) := fun h => hs (h.1 ▸ h.2)
    rw [if_neg hs, if_neg hno]

theorem lookup_foldl_dropSibling (mount k : Text) (l : List (Sigma fun _ : Text => HTTPHandler)) (kept : Handlers) :
    (l.foldl (fun kept e => dropSibling mount kept e.1) kept).lookup k =
      if k ∈ l.keys ∧ IsSibling mount k then none else kept.lookup k := by
  induction l generalizing kept with
  | nil => simp
  | cons e l ih =>
    rw [List.foldl_cons, ih, lookup_dropSibling]
    by_cases hs : IsSibling mount k
    · by_cases hk : k = e.1
      · have hhead : k = e.1 ∧ IsSibling mount k := ⟨hk, hs⟩
        have hmem : k ∈ (e :: l).keys ∧ IsSibling mount k := ⟨by simp [hk], hs⟩
        rw [if_pos hhead, if_pos hmem, ite_self]
      · simp [hs, hk]
    · simp [hs]

theorem lookup_dropSiblings (mount k : Text) (handlers : Handlers) :
    (dropSiblings mount handlers).lookup k = if IsSibling mount k then none else handlers.lookup k := by
  induction handlers using Finmap.induction_on with
  | _ a =>
    have hfold := lookup_foldl_dropSibling mount k a.entries a.toFinmap
    refine Eq.trans hfold ?_
    by_cases hs : IsSibling mount k
    · rw [if_pos hs]
      split
      · rfl
      · next hno =>
        rw [Finmap.lookup_eq_none]
        exact fun hmem => hno ⟨hmem, hs⟩
    · rw [if_neg hs, if_neg (fun h => hs h.2)]

theorem handler_setWebHandler (h : HTTPHandler) (host : Text) (port : Nat) (mount : Text) (https : Bool)
    (sc : ServeConfig) (hp : HostPort) (k : Text) : (setWebHandler h host port mount https sc).handler hp k =
      if hp = ⟨host, port⟩ then if k = mount then some h else if IsSibling mount k then none else sc.handler hp k
      else sc.handler hp k := by
  unfold setWebHandler ServeConfig.handler
  by_cases hhp : hp = ⟨host, port⟩
  · rw [if_pos hhp, hhp]
    simp only [Finmap.lookup_insert, Option.bind_some, lookup_dropSiblings]
    by_cases hk : k = mount
    · have hno : ¬ IsSibling mount k := fun hs => hs.1 hk
      rw [if_neg hno, if_pos hk, hk, Finmap.lookup_insert]
    · rw [if_neg hk]
      split
      · rfl
      · rw [Finmap.lookup_insert_of_ne _ hk]
        cases sc.web.lookup ⟨host, port⟩ <;> rfl
  · rw [if_neg hhp]
    simp only [Finmap.lookup_insert_of_ne _ hhp]

theorem handler_setFunnel (host : Text) (port : Nat) (setOn : Bool) (sc : ServeConfig) (hp : HostPort) (k : Text) :
    (setFunnel host port setOn sc).handler hp k = sc.handler hp k := by
  unfold setFunnel
  split <;> rfl

theorem funnelOn_setFunnel (host : Text) (port : Nat) (setOn : Bool) (sc : ServeConfig) (hp : HostPort) :
    (setFunnel host port setOn sc).funnelOn hp = if hp = ⟨host, port⟩ then setOn else sc.funnelOn hp := by
  unfold setFunnel ServeConfig.funnelOn
  by_cases hhp : hp = ⟨host, port⟩
  · rw [if_pos hhp, hhp]
    cases setOn with
    | true => simp
    | false => simp
  · rw [if_neg hhp]
    cases setOn with
    | true => simp only [if_true, Finmap.lookup_insert_of_ne _ hhp]
    | false => simp only [Bool.false_eq_true, if_false, Finmap.lookup_erase_ne hhp]

section Removal

variable {host : Text} {port : Nat} {handlers : Handlers} {sc : ServeConfig}
  (hweb : sc.web.lookup ⟨host, port⟩ = some handlers) (mount : Text) (cleanupFunnel : Bool)

include hweb

theorem web_removeWebHandler : (removeWebHandler host port mount cleanupFunnel sc).web =
    if handlers.erase mount = ∅ then sc.web.erase ⟨host, port⟩
    else sc.web.insert ⟨host, port⟩ (handlers.erase mount) := by
  unfold removeWebHandler
  rw [hweb, Option.getD_some]
  by_cases hempty : handlers.erase mount = ∅
  · rw [if_pos hempty]
    simp only [if_pos hempty]
  · rw [if_neg hempty]
    simp only [if_neg hempty]

theorem handler_removeWebHandler (hp : HostPort) (k : Text) :
    (removeWebHandler host port mount cleanupFunnel sc).handler hp k =
      if hp = ⟨host, port⟩ ∧ k = mount then none else sc.handler hp k := by
  unfold ServeConfig.handler
  rw [web_removeWebHandler hweb]
  by_cases hhp : hp = ⟨host, port⟩
  · have hafter : (handlers.erase mount).lookup k = if k = mount then none else handlers.lookup k := by
      by_cases hk : k = mount
      · rw [if_pos hk, hk, Finmap.lookup_erase]
      · rw [if_neg hk, Finmap.lookup_erase_ne hk]
    rw [hhp, hweb]
    simp only [true_and, Option.bind_some]
    rw [← hafter]
    by_cases hempty : handlers.erase mount = ∅
    · rw [if_pos hempty, Finmap.lookup_erase, hempty, Finmap.lookup_empty, Option.bind_none]
    · rw [if_neg hempty, Finmap.lookup_insert, Option.bind_some]
  · have hno : ¬ (hp = ⟨host, port⟩ ∧ k = mount) := fun h => hhp h.1
    rw [if_neg hno]
    by_cases hempty : handlers.erase mount = ∅
    · rw [if_pos hempty, Finmap.lookup_erase_ne hhp]
    · rw [if_neg hempty, Finmap.lookup_insert_of_ne _ hhp]

theorem funnelOn_removeWebHandler (hp : HostPort) : (removeWebHandler host port mount cleanupFunnel sc).funnelOn hp =
    if cleanupFunnel = true ∧ hp = ⟨host, port⟩ ∧ handlers.erase mount = ∅ then false else sc.funnelOn hp := by
  unfold removeWebHandler ServeConfig.funnelOn
  rw [hweb, Option.getD_some]
  by_cases hempty : handlers.erase mount = ∅
  · simp only [if_pos hempty]
    cases cleanupFunnel with
    | false => simp
    | true =>
      by_cases hhp : hp = ⟨host, port⟩
      · subst hhp
        simp [hempty]
      · simp [hhp, Finmap.lookup_erase_ne hhp]
  · simp [hempty]

end Removal

end Upstream

instance : Ipn where
  isTCPForwardingOnPort := Upstream.isTCPForwardingOnPort
  setWebHandler := Upstream.setWebHandler
  setFunnel := Upstream.setFunnel
  removeWebHandler := Upstream.removeWebHandler
  handler_setWebHandler := Upstream.handler_setWebHandler
  funnelOn_setWebHandler _ _ _ _ _ _ _ := rfl
  handler_setFunnel := Upstream.handler_setFunnel
  funnelOn_setFunnel := Upstream.funnelOn_setFunnel
  handler_removeWebHandler := Upstream.handler_removeWebHandler
  funnelOn_removeWebHandler := Upstream.funnelOn_removeWebHandler

theorem handlers_eq_empty {handlers : Handlers} (h : ∀ k, handlers.lookup k = none) : handlers = ∅ :=
  Finmap.ext_lookup fun k => by rw [h k, Finmap.lookup_empty]

end ServeConfig

/-! ## Payloads -/

variable [Ipn]

/-- `unicode.IsSpace`. -/
def isSpace (c : Char) : Bool :=
  [0x09, 0x0a, 0x0b, 0x0c, 0x0d, 0x20, 0x85, 0xa0, 0x1680, 0x2028, 0x2029, 0x202f, 0x205f, 0x3000].contains c.toNat ||
    (0x2000 ≤ c.toNat && c.toNat ≤ 0x200a)

def trimSpace (text : Text) : Text := ((text.dropWhile isSpace).reverse.dropWhile isSpace).reverse

/-- `net.JoinHostPort`, of a port number. -/
def joinHostPort (host : Text) (port : Nat) : Text :=
  (if ':' ∈ host then '[' :: host ++ [']'] else host) ++ ':' :: (toString port).toList

def validateServePort (name : String) (port : Int) : Except Error Nat :=
  if port ≤ 0 ∨ port > 65535 then .error (.text s!"invalid {name} {port}: must be 1..65535") else .ok port.toNat

-- the messages below keep the quoted argument of their format

def containsServePathTraversal (path : Text) : Bool :=
  (path.splitOn '/').any fun segment => segment = ['.'] || segment = ['.', '.']

def normalizeServePath (raw : Text) : Except Error Text :=
  let path := trimSpace raw
  if path.isEmpty then .ok ['/']
  else if path.head? ≠ some '/' then .error (.text "serve path %q must start with /")
  else if path.any fun c => c = '?' || c = '#' then
    .error (.text "serve path %q must not include query or fragment")
  else if containsServePathTraversal path then .error (.text "serve path %q must not include . or .. segments")
  else .ok path

/-- What is asked of the standard library and of upstream about an address or a target. -/
structure Upstream where
  /-- `net.ParseIP(address).IsLoopback()`. -/
  isLoopback : Text → Bool
  /-- `strings.EqualFold(address, "localhost")`. -/
  equalFoldLocalhost : Text → Bool
  /-- `ipn.ExpandProxyTargetValue(target, []string{"http"}, "http")`. -/
  expandProxyTargetValue : Text → Except String Text

/-- `st.Self`, as far as a publication reads it. -/
structure SelfStatus where
  dnsName : Text
  capabilityHTTPS : Bool := true
  /-- `ipn.CheckFunnelAccess`, for each port. -/
  checkFunnelAccess : Nat → Option String := fun _ => none

/-- `ipnstate.Status`; a nil status has no self either. -/
structure Status where
  self : Option SelfStatus

/-- `serveHostFromStatus`, the DNS name without its trailing dot. -/
def serveHostFromStatus (status : Status) : Except Error Text :=
  match status.self with
  | none => .error (.text "serve unavailable: local node status missing")
  | some self =>
    let dnsName := if self.dnsName.getLast? = some '.' then self.dnsName.dropLast else self.dnsName
    if dnsName.isEmpty then .error (.text "serve unavailable: local node DNS name missing") else .ok dnsName

structure ServeForwardPayload where
  tailnetPort : Int
  localAddress : Text := []
  localPort : Int
  path : Text
  https : Bool := true
  funnel : Bool := false
  deriving DecidableEq, Repr

structure ServeClearPayload where
  tailnetPort : Int
  path : Text
  funnel : Bool := false
  generation : Option Nat := none
  mappingToken : Option Nat := none
  deriving DecidableEq, Repr

/-- `servePublication`; its URL, which only the caller reads, is left out. -/
structure ServePublication where
  port : Nat := 0
  localAddress : Text := []
  localPort : Nat := 0
  path : Text := []
  https : Bool := false
  funnel : Bool := false
  generation : Nat := 0
  mappingToken : Nat := 0
  host : Text := []
  deriving DecidableEq, Repr

def normalizeServeLocalAddress (up : Upstream) (address : Text) : Except Error Text :=
  let address := trimSpace address
  if address.isEmpty then .error (.text "serve localAddress must not be empty")
  else if up.equalFoldLocalhost address then .ok "127.0.0.1".toList
  else if up.isLoopback address then .ok address
  else .error (.text "serve localAddress %q must be a loopback address")

/-- The checks of `applyServeForward` on its node: Funnel needs HTTPS, HTTPS its capability, Funnel its port. -/
def checkServeFeatures (payload : ServeForwardPayload) (port : Nat) (self : SelfStatus) : Except Error Unit :=
  if payload.funnel && !payload.https then .error (.text "Funnel requires HTTPS")
  else if payload.https && !self.capabilityHTTPS then
    .error (.note "%w: Serve not available; HTTPS must be enabled. See https://tailscale.com/s/https."
      (.text "feature unavailable"))
  else
    match payload.funnel, self.checkFunnelAccess port with
    | true, some err => .error (.text err)
    | _, _ => .ok ()

/-- What `applyServeForward` computes from its arguments before it touches the configuration. -/
structure ForwardPlan where
  port : Nat
  localPort : Nat
  localAddress : Text
  mount : Text
  dnsName : Text
  proxy : Text

def forwardPlan (up : Upstream) (status : Status) (payload : ServeForwardPayload) (sc : ServeConfig) :
    Except Error ForwardPlan := do
  let port ← validateServePort "tailnetPort" payload.tailnetPort
  let localPort ← validateServePort "localPort" payload.localPort
  let trimmed := trimSpace payload.localAddress
  let localAddress ← normalizeServeLocalAddress up (if trimmed.isEmpty then "127.0.0.1".toList else trimmed)
  let mount ← normalizeServePath payload.path
  let dnsName ← serveHostFromStatus status
  match status.self with
  | none => throw (.text "serve unavailable: local node status missing")
  | some self =>
    checkServeFeatures payload port self
    if sc.isTCPForwardingOnPort port then throw (.text "cannot serve web; already serving TCP on port %d")
    else
      match up.expandProxyTargetValue ("http://".toList ++ joinHostPort localAddress localPort) with
      | .error err => throw (.text err)
      | .ok proxy => return ⟨port, localPort, localAddress, mount, dnsName, proxy⟩

def applyServeForward (up : Upstream) (status : Status) (payload : ServeForwardPayload) (sc : ServeConfig) :
    Except Error (ServeConfig × ServePublication) := do
  let plan ← forwardPlan up status payload sc
  let sc := sc.setWebHandler (.proxy plan.proxy) plan.dnsName plan.port plan.mount payload.https
  return (sc.setFunnel plan.dnsName plan.port payload.funnel,
    { port := plan.port
      localAddress := plan.localAddress
      localPort := plan.localPort
      path := plan.mount
      https := payload.https
      funnel := payload.funnel
      host := plan.dnsName })

/-- `removeServeWebHandlerWithFunnelCleanup`: upstream's removal panics where there is no web configuration. -/
def removeServeWebHandlerWithFunnelCleanup (host : Text) (port : Nat) (mount : Text) (cleanupFunnelWhenEmpty : Bool)
    (sc : ServeConfig) : ServeConfig :=
  if host.isEmpty || port = 0 || mount.isEmpty then sc
  else match sc.web.lookup ⟨host, port⟩ with
    | none => sc
    | some _ => sc.removeWebHandler host port mount cleanupFunnelWhenEmpty

/-- `applyServeClearForHostWithFunnelCleanup`, for a port and a path that were validated already. -/
def applyServeClearForHostWithFunnelCleanup (dnsName : Text) (port : Nat) (mount : Text) (funnel : Bool)
    (cleanupFunnelWhenEmpty : Bool) (sc : ServeConfig) : Except Error ServeConfig :=
  if sc.isTCPForwardingOnPort port then .error (.text "cannot clear web serve; currently serving TCP on port %d")
  else
    let sc := if funnel then sc.setFunnel dnsName port false else sc
    .ok (removeServeWebHandlerWithFunnelCleanup dnsName port mount cleanupFunnelWhenEmpty sc)

end TailscaleDart.Publication
