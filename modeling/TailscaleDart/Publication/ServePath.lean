import Mathlib.Data.List.DropRight
import TailscaleDart.Data.JsonText
import TailscaleDart.Publication.Calls

/-!
# Publication.ServePath — a path that is normalized twice

A mount path is normalized on the Dart side, travels in the payload, and is normalized again on the Go side, whose form
comes back in the result. Dart accepts the result only when the path in it is the one it sent: a difference between the
two normalizers would tear down the node AFTER the publication was committed.

What is proved: Go's normalizer returns every path that Dart's has returned, and the result of a successful forward of a
validated request passes Dart's check exactly when the generation is a real one and the authority of its URL has a host;
the path, which the URL carries escaped, has no part in it (`serve_path_accepted`).
-/

namespace TailscaleDart.Publication

/-! ## Trimming -/

section Trim

variable {space wider : Char → Bool}

/-- Remove what is white space at both ends. -/
def trimBy (space : Char → Bool) (text : Text) : Text := (text.dropWhile space).rdropWhile space

theorem trimSpace_eq_trimBy (text : Text) : trimSpace text = trimBy isSpace text := rfl

theorem not_space_of_trimBy {text rest : Text} {c : Char} (h : trimBy space text = c :: rest) : ¬ space c = true := by
  have hpre : c :: rest <+: text.dropWhile space := by
    rw [← h]
    exact List.rdropWhile_prefix space _
  obtain ⟨more, hmore⟩ := hpre
  have hne : text.dropWhile space ≠ [] := by
    rw [← hmore]
    nofun
  have hhead := List.head_dropWhile_not space hne
  simp only [← hmore, List.cons_append, List.head_cons] at hhead
  simp [hhead]

theorem trimBy_trimBy (hwider : ∀ c, space c = true → wider c = true) (text : Text) :
    trimBy space (trimBy wider text) = trimBy wider text := by
  have hlast : (trimBy wider text).rdropWhile space = trimBy wider text :=
    List.rdropWhile_eq_self_iff.mpr fun hne hspace => List.rdropWhile_last_not wider _ hne (hwider _ hspace)
  cases htrimmed : trimBy wider text with
  | nil => rfl
  | cons c rest =>
    have hfirst : ¬ space c = true := fun hspace => not_space_of_trimBy htrimmed (hwider c hspace)
    rw [htrimmed] at hlast
    rw [trimBy, List.dropWhile_cons_of_neg hfirst, hlast]

end Trim

/-! ## The Dart side of a request -/

/-- What is asked of Dart's core library. -/
structure DartCore where
  /-- White space to `String.trim`. -/
  isSpace : Char → Bool
  /-- `address.toLowerCase() == 'localhost'`. -/
  isLocalhost : Text → Bool
  /-- `InternetAddress.tryParse(address)?.isLoopback ?? false`. -/
  isLoopback : Text → Bool
  /-- The host of the authority of a URL; none when `Uri.parse` throws on it. -/
  uriHost : Text → Option Text

inductive DartError where
  | argument (value : Text) (name message : String)
  | range (value start stop : Int) (name : String)
  deriving DecidableEq, Repr

namespace Dart

variable (core : DartCore)

def validateServePort (port : Int) (name : String) : Except DartError Int :=
  if port < 1 ∨ port > 65535 then .error (.range port 1 65535 name) else .ok port

def isLoopbackAddress (address : Text) : Bool := core.isLocalhost address || core.isLoopback address

def normalizeServeLocalAddress (localAddress : Text) : Except DartError Text :=
  let trimmed := trimBy core.isSpace localAddress
  if trimmed.isEmpty then .error (.argument localAddress "localAddress" "must not be empty")
  else if !isLoopbackAddress core trimmed then
    .error (.argument localAddress "localAddress" "must be a loopback address such as 127.0.0.1, ::1, or localhost")
  else if core.isLocalhost trimmed then .ok "127.0.0.1".toList
  else .ok trimmed

def containsPathTraversal (path : Text) : Bool :=
  (path.splitOn '/').any fun segment => segment = ['.'] || segment = ['.', '.']

def normalizeServePath (path : Text) : Except DartError Text :=
  let trimmed := trimBy core.isSpace path
  if trimmed.isEmpty then .ok ['/']
  else if trimmed.head? ≠ some '/' then .error (.argument path "path" "must start with /")
  else if trimmed.contains '?' || trimmed.contains '#' then
    .error (.argument path "path" "must not include query or fragment")
  else if containsPathTraversal trimmed then .error (.argument path "path" "must not include . or .. segments")
  else .ok trimmed

/-- The arguments of `forward`; Funnel calls its port `publicPort` and is always HTTPS. -/
structure Request where
  tailnetPort : Int
  localPort : Int
  localAddress : Text := "127.0.0.1".toList
  path : Text := ['/']
  https : Bool := true
  funnel : Bool := false
  https_of_funnel : funnel = true → https = true := by decide

/-- `forward` up to its call of the native side: the payload of a request that is valid. -/
def forward (request : Request) : Except DartError ServeForwardPayload := do
  let normalizedPath ← normalizeServePath core request.path
  let normalizedAddress ← normalizeServeLocalAddress core request.localAddress
  let tailnetPort ← validateServePort request.tailnetPort (if request.funnel then "publicPort" else "tailnetPort")
  let localPort ← validateServePort request.localPort "localPort"
  return { tailnetPort, localPort, localAddress := normalizedAddress, path := normalizedPath
           https := request.https, funnel := request.funnel }

end Dart

variable {normalized path : Text}

theorem normalizeServePath_of_dart {core : DartCore} (htrim : ∀ c, isSpace c = true → core.isSpace c = true)
    (h : Dart.normalizeServePath core path = .ok normalized) : normalizeServePath normalized = .ok normalized := by
  unfold Dart.normalizeServePath at h
  simp only at h
  split at h
  · cases h
    decide
  · next hnonempty =>
    split at h
    · cases h
    · next hslash =>
      split at h
      · cases h
      · next hquery =>
        split at h
        · cases h
        · next htraversal =>
          cases h
          have hquery' : ¬ ((trimBy core.isSpace path).any fun c => c = '?' || c = '#') = true := by
            intro hany
            obtain ⟨c, hc, hor⟩ := List.any_eq_true.mp hany
            simp only [Bool.or_eq_true, decide_eq_true_eq, List.contains_iff_mem] at hor hquery
            rcases hor with rfl | rfl
            · exact hquery (.inl hc)
            · exact hquery (.inr hc)
          unfold normalizeServePath
          simp only [trimSpace_eq_trimBy, trimBy_trimBy htrim]
          have htraversal' : ¬ containsServePathTraversal (trimBy core.isSpace path) = true := htraversal
          rw [if_neg hnonempty, if_neg hslash, if_neg hquery', if_neg htraversal']

/-! ## The URL of a publication -/

def upperHex (n : Nat) : Char := (JsonText.hexDigit n).toUpper

/-- `url.escape`, of the bytes of the characters a mode does not keep. -/
def escape (keep : Char → Bool) (text : Text) : Text :=
  text.flatMap fun c =>
    if keep c then [c]
    else (String.utf8EncodeChar c).flatMap fun b => ['%', upperHex (b.toNat / 16), upperHex (b.toNat % 16)]

def isUnreserved (c : Char) : Bool := c.isAlphanum || "-_.~".toList.contains c

/-- The characters kept by `encodePath`. -/
def keptInPath (c : Char) : Bool := isUnreserved c || "$&+,/:;=@".toList.contains c

/-- The characters kept by `encodeHost`. -/
def keptInHost (c : Char) : Bool := isUnreserved c || "!$&'()*+,;=:[]<>\"".toList.contains c

def serveScheme (https : Bool) : Text := if https then "https".toList else "http".toList

/-- The authority of `serveURL`: the port is left out where it is the scheme's own. -/
def serveAuthority (https : Bool) (host : Text) (port : Nat) : Text :=
  escape keptInHost (if port = (if https then 443 else 80) then host else joinHostPort host port)

/-- `serveURL`, through `URL.String`. -/
def serveURL (https : Bool) (host : Text) (port : Nat) (path : Text) : Text :=
  serveScheme https ++ "://".toList ++ serveAuthority https host port ++ escape keptInPath path

/-- The end of a URL's authority. -/
def endsAuthority (c : Char) : Bool := c = '/' || c = '?' || c = '#'

theorem endsAuthority_upperHex (n : Nat) : endsAuthority (upperHex (n % 16)) = false := by
  have hall : ∀ i : Fin 16, endsAuthority (upperHex i) = false := by decide +kernel
  exact hall ⟨n % 16, Nat.mod_lt n (by decide)⟩

theorem not_endsAuthority_escape {keep : Char → Bool} (hkeep : ∀ c, keep c = true → endsAuthority c = false)
    (text : Text) : ∀ c ∈ escape keep text, endsAuthority c = false := by
  intro c hc
  obtain ⟨d, -, hd⟩ := List.mem_flatMap.mp hc
  split at hd
  · next hkept =>
    rw [List.mem_singleton.mp hd]
    exact hkeep d hkept
  · obtain ⟨b, -, hb⟩ := List.mem_flatMap.mp hd
    have hhigh : b.toNat / 16 % 16 = b.toNat / 16 := Nat.mod_eq_of_lt (by have := b.toNat_lt; omega)
    simp only [List.mem_cons, List.not_mem_nil, or_false] at hb
    rcases hb with rfl | rfl | rfl
    · decide
    · rw [← hhigh]
      exact endsAuthority_upperHex _
    · exact endsAuthority_upperHex _

theorem not_endsAuthority_of_keptInHost (c : Char) (h : keptInHost c = true) : endsAuthority c = false := by
  by_contra hends
  simp only [endsAuthority, Bool.or_eq_true, decide_eq_true_eq, Bool.not_eq_false] at hends
  rcases hends with (rfl | rfl) | rfl
  all_goals cases h

/-! ## Dart's check of the result -/

structure Uri where
  scheme : Text
  host : Text
  deriving DecidableEq, Repr

/-- Legal in a scheme. -/
def isSchemeChar (c : Char) : Bool := c.isAlphanum || c = '+' || c = '-' || c = '.'

/-- `Uri.tryParse`: the scheme is what stands before the first colon, the authority what follows two slashes up to the
next slash, question mark or hash; the rest makes it fail in no case. -/
def Uri.tryParse (core : DartCore) (text : Text) : Option Uri :=
  let first := text.takeWhile fun c => c ≠ ':' && !endsAuthority c
  match text.drop first.length with
  | ':' :: '/' :: '/' :: rest =>
    if first.all isSchemeChar then
      (core.uriHost (rest.takeWhile fun c => !endsAuthority c)).map fun host => ⟨first, host⟩
    else none
  | ':' :: _ => if first.all isSchemeChar then some ⟨first, []⟩ else none
  | _ => some ⟨[], []⟩

/-- The decoded result of the native call; a field is none where it is absent or null. -/
structure NativeResult where
  url : Option Text := none
  port : Option Int := none
  localAddress : Option Text := none
  localPort : Option Int := none
  path : Option Text := none
  https : Option Bool := none
  funnel : Option Bool := none
  generation : Option Int := none
  mappingToken : Option Int := none
  deriving DecidableEq, Repr

structure ServeForwardResult where
  url : Uri
  port : Int
  localAddress : Text
  localPort : Int
  path : Text
  https : Bool
  funnel : Bool
  generation : Int
  mappingToken : Int
  deriving DecidableEq, Repr

/-- `validateServeForwardResultForTesting`; none is its exception, after the delivery was reported as failed. -/
def validateServeForwardResult (core : DartCore) (result : NativeResult) (funnel : Bool) (tailnetPort : Int)
    (path : Text) : Option ServeForwardResult := do
  let generation ← result.generation
  guard (¬ generation ≤ 0)
  let mappingToken ← result.mappingToken
  guard (¬ mappingToken ≤ 0)
  let url ← Uri.tryParse core (result.url.getD [])
  guard (url.scheme ≠ [] ∧ url.host ≠ [])
  let port ← result.port
  guard (port = tailnetPort)
  let localAddress ← result.localAddress
  guard (localAddress ≠ [])
  let localPort ← result.localPort
  guard (¬ localPort ≤ 0)
  let resultPath ← result.path
  guard (resultPath = path)
  let https ← result.https
  let resultFunnel ← result.funnel
  guard (resultFunnel = funnel)
  return {
    url, port, localAddress, localPort, path := resultPath, https, funnel := resultFunnel, generation, mappingToken }

/-- The publication as `ServeForward` marshals it. -/
def ServePublication.marshal (publication : ServePublication) : NativeResult where
  url := serveURL publication.https publication.host publication.port publication.path
  port := some (publication.port : Int)
  localAddress := publication.localAddress
  localPort := some (publication.localPort : Int)
  path := publication.path
  https := publication.https
  funnel := publication.funnel
  generation := some (publication.generation : Int)
  mappingToken := some (publication.mappingToken : Int)

theorem takeWhile_append_stop {p : Char → Bool} {l rest : Text} {c : Char} (hl : ∀ d ∈ l, p d = true)
    (hc : p c = false) : (l ++ c :: rest).takeWhile p = l := by
  rw [List.takeWhile_append_of_pos hl, List.takeWhile_cons_of_neg (by simp [hc]), List.append_nil]

/-- A path that begins with a slash stays out of what Dart reads off the URL. -/
theorem tryParse_serveURL (core : DartCore) (https : Bool) (host : Text) (port : Nat) (hpath : path.head? = some '/') :
    Uri.tryParse core (serveURL https host port path) =
      (core.uriHost (serveAuthority https host port)).map fun host => ⟨serveScheme https, host⟩ := by
  obtain ⟨rest, rfl⟩ : ∃ rest, path = '/' :: rest := by
    cases path with
    | nil => cases hpath
    | cons c rest =>
      cases hpath
      exact ⟨rest, rfl⟩
  have hescaped : escape keptInPath ('/' :: rest) = '/' :: escape keptInPath rest := rfl
  have hscheme : ∀ c ∈ serveScheme https, (c ≠ ':' && !endsAuthority c) = true :=
    List.all_eq_true.mp (by cases https <;> rfl)
  have hlegal : (serveScheme https).all isSchemeChar = true := by cases https <;> decide
  have hurl : serveURL https host port ('/' :: rest) =
      serveScheme https ++ ':' :: '/' :: '/' :: (serveAuthority https host port ++ '/' :: escape keptInPath rest) := by
    simp [serveURL, hescaped]
  have hauthority : ∀ c ∈ serveAuthority https host port, (!endsAuthority c) = true := fun c hc => by
    rw [not_endsAuthority_escape not_endsAuthority_of_keptInHost _ c hc]
    rfl
  unfold Uri.tryParse
  rw [hurl, takeWhile_append_stop hscheme (by decide)]
  simp only [List.drop_left, hlegal, if_true]
  rw [takeWhile_append_stop hauthority (by decide)]

/-- What the check asks of a marshalled publication. -/
theorem validateServeForwardResult_marshal (core : DartCore) (publication : ServePublication) (funnel : Bool)
    (tailnetPort : Int) (path : Text) :
    (validateServeForwardResult core publication.marshal funnel tailnetPort path).isSome = true ↔
      publication.generation ≠ 0 ∧ publication.mappingToken ≠ 0 ∧
        ∃ url, Uri.tryParse core (serveURL publication.https publication.host publication.port publication.path) =
          some url ∧
          (url.scheme ≠ [] ∧ url.host ≠ []) ∧ (publication.port : Int) = tailnetPort ∧ publication.localAddress ≠ [] ∧
          publication.localPort ≠ 0 ∧ publication.path = path ∧ publication.funnel = funnel := by
  simp [validateServeForwardResult, ServePublication.marshal, Option.isSome_iff_exists, Option.bind_eq_some_iff, guard]

/-! ## A forward that succeeds -/

theorem validateServePort_ok {name : String} {port : Int} {valid : Nat} (h : validateServePort name port = .ok valid) :
    (valid : Int) = port ∧ valid ≠ 0 := by
  unfold validateServePort at h
  split at h
  · cases h
  · cases h
    omega

theorem normalizeServeLocalAddress_ne_nil {up : Upstream} {address : Text}
    (h : normalizeServeLocalAddress up address = .ok normalized) : normalized ≠ [] := by
  unfold normalizeServeLocalAddress at h
  simp only at h
  split at h
  · cases h
  · next hnonempty =>
    split at h
    · cases h
      decide
    · split at h
      · cases h
        simpa using hnonempty
      · cases h

theorem forwardPlan_local [Ipn] {up : Upstream} {status : Status} {payload : ServeForwardPayload} {sc : ServeConfig}
    {plan : ForwardPlan} (h : forwardPlan up status payload sc = .ok plan) :
    plan.localAddress ≠ [] ∧ plan.localPort ≠ 0 := by
  unfold forwardPlan at h
  obtain ⟨port, -, h⟩ := bind_ok h
  obtain ⟨localPort, hport, h⟩ := bind_ok h
  obtain ⟨localAddress, haddress, h⟩ := bind_ok h
  obtain ⟨mount, -, h⟩ := bind_ok h
  obtain ⟨dnsName, -, h⟩ := bind_ok h
  split at h
  · cases h
  obtain ⟨-, -, h⟩ := bind_ok h
  split at h
  · cases h
  split at h
  · cases h
  · cases h
    exact ⟨normalizeServeLocalAddress_ne_nil haddress, (validateServePort_ok hport).2⟩

/-- A forward that succeeds returns what it planned, under a new token. -/
theorem forward_publication [Ipn] {up : Upstream} {payload : ServeForwardPayload} {e : PublicationManager.ForwardEnv}
    {server : Versioned ServeConfig} {m m' : PublicationManager} {publication : ServePublication}
    {s : ServeState ServeConfig}
    (h : m.forward up payload e server = some ((.ok publication, m'), s)) :
    ∃ status sc plan, forwardPlan up status payload sc = .ok plan ∧
      publication = (plan.captured payload m.generation (m.nextMappingToken + 1)).publication := by
  have hcases := PublicationManager.forward_cases (S := Surroundings.any) trivial
    (fun a ha => e.answers.context a ha) h
  cases hcases with
  | @confirmed status sc plan _ _ _ _ _ _ _ hplan _ hfinish =>
    exact ⟨status, sc, plan, hplan, PublicationManager.finishForward_publication hfinish⟩

theorem head_of_normalizeServePath {core : DartCore}
    (h : Dart.normalizeServePath core path = .ok normalized) : normalized.head? = some '/' := by
  unfold Dart.normalizeServePath at h
  simp only at h
  split at h
  · cases h
    rfl
  split at h
  · cases h
  · next hslash =>
    split at h
    · cases h
    split at h
    · cases h
    · cases h
      exact Decidable.of_not_not hslash

/-- Go takes every path that Dart has normalized as it is, and Dart takes the result of every forward of a request it
has validated, unless the generation is zero or the authority of the URL has no host. -/
theorem serve_path_accepted [Ipn] (core : DartCore) (htrim : ∀ c, isSpace c = true → core.isSpace c = true) :
    (∀ path normalized, Dart.normalizeServePath core path = .ok normalized →
      normalizeServePath normalized = .ok normalized) ∧
    ∀ request payload, Dart.forward core request = .ok payload →
      ∀ (up : Upstream) (e : PublicationManager.ForwardEnv) (server : Versioned ServeConfig) (m m' : PublicationManager)
        (publication : ServePublication) (s : ServeState ServeConfig),
        m.forward up payload e server = some ((.ok publication, m'), s) →
        publication.path = payload.path ∧
        ((validateServeForwardResult core publication.marshal payload.funnel payload.tailnetPort payload.path).isSome =
          true ↔ m.generation ≠ 0 ∧
            ∃ host, core.uriHost (serveAuthority payload.https publication.host publication.port) = some host ∧
              host ≠ []) := by
  refine ⟨fun path normalized => normalizeServePath_of_dart htrim, ?_⟩
  intro request payload hrequest up e server m m' publication s hforward
  obtain ⟨normalizedPath, hpath, hrest⟩ := bind_ok hrequest
  obtain ⟨normalizedAddress, -, hrest⟩ := bind_ok hrest
  obtain ⟨tailnetPort, -, hrest⟩ := bind_ok hrest
  obtain ⟨localPort, -, hpayload⟩ := bind_ok hrest
  cases hpayload
  obtain ⟨status, sc, plan, hplan, rfl⟩ := forward_publication hforward
  obtain ⟨hport, hmount, -⟩ := forwardPlan_ok hplan
  -- the mount is the path that was sent
  obtain rfl : normalizedPath = plan.mount := by
    rw [normalizeServePath_of_dart htrim hpath] at hmount
    exact Except.ok.inj hmount
  refine ⟨rfl, ?_⟩
  rw [validateServeForwardResult_marshal]
  simp only [ForwardPlan.captured, tryParse_serveURL core _ _ _ (head_of_normalizeServePath hpath)]
  have hscheme : serveScheme request.https ≠ [] := by cases request.https <;> decide
  constructor
  · rintro ⟨hgeneration, -, url, hurl, ⟨-, hhost⟩, -⟩
    obtain ⟨host, hauthority, rfl⟩ := Option.map_eq_some_iff.mp hurl
    exact ⟨hgeneration, host, hauthority, hhost⟩
  · rintro ⟨hgeneration, host, hauthority, hhost⟩
    refine ⟨hgeneration, Nat.succ_ne_zero _, ⟨serveScheme request.https, host⟩, ?_, ⟨hscheme, hhost⟩,
      (validateServePort_ok hport).1, (forwardPlan_local hplan).1, (forwardPlan_local hplan).2, trivial, trivial⟩
    rw [hauthority]
    rfl

/-- White space as Dart defines it, the two usual loopback addresses, and authorities that are a name and a port. -/
def Quiet.dartCore : DartCore where
  isSpace c := Publication.isSpace c || c.toNat = 0xfeff
  isLocalhost address := address.map Char.toLower = "localhost".toList
  isLoopback address := address = "127.0.0.1".toList || address = "::1".toList
  uriHost authority := some (authority.takeWhile (· ≠ ':'))

def Quiet.request : Dart.Request where
  tailnetPort := 8443
  localPort := 3000
  path := " /docs/\n".toList

def Quiet.trimmed : ServeForwardPayload where
  tailnetPort := 8443
  localPort := 3000
  localAddress := "127.0.0.1".toList
  path := "/docs/".toList

theorem serve_path_accepted_trimmed :
    Dart.forward Quiet.dartCore Quiet.request = .ok Quiet.trimmed ∧ ∃ publication m' s,
      PublicationManager.forward Quiet.upstream Quiet.trimmed (Quiet.forwardEnv "n.ts.net." none false) ⟨{}, "e1"⟩
        { generation := 7 } = some ((.ok publication, m'), s) ∧
      publication.path = "/docs/".toList ∧
      (validateServeForwardResult Quiet.dartCore publication.marshal false 8443 "/docs/".toList).isSome = true := by
  have hpayload : Dart.forward Quiet.dartCore Quiet.request = .ok Quiet.trimmed := by decide +kernel
  have hrun : (PublicationManager.forward Quiet.upstream Quiet.trimmed (Quiet.forwardEnv "n.ts.net." none false)
      ⟨{}, "e1"⟩
        { generation := 7 }).any (fun outcome => outcome.1.1.toOption.any fun publication =>
          (serveAuthority true publication.host publication.port).takeWhile (· ≠ ':') ≠ []) = true := by
    decide +kernel
  obtain ⟨⟨⟨result, m'⟩, s⟩, hforward, hok⟩ := (Option.any_eq_true _ _).mp hrun
  cases result with
  | error err => cases hok
  | ok publication =>
    obtain ⟨hpath, haccepted⟩ := (serve_path_accepted Quiet.dartCore (fun c hc => by simp [Quiet.dartCore, hc])).2
      Quiet.request _ hpayload _ _ _ _ _ publication s hforward
    exact ⟨hpayload, publication, m', s, hforward, hpath, haccepted.mpr ⟨by decide, _, rfl, of_decide_eq_true hok⟩⟩

end TailscaleDart.Publication
