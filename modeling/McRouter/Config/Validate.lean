import McRouter.Config.Types
import McRouter.HostAddr
import McRouter.Access.ProxyProtocol
import McRouter.Access.ClientPolicy

/-!
# Validation

`Config.Validate` with every section it checks. What it asks of the outside,
environment variables, name resolution and URL parsing, is an `Env`. A
section's check returns the joined error of everything wrong with it, and
`Validate` the join of the sections'.
-/

namespace McRouter

open Strings Unicode Netip

/-- What validation reads outside the configuration. The resolvers return
the text of their error, the URL parser a scheme and a host. -/
structure Env where
  getenv : GoString → GoString
  resolveUDPAddr : GoString → Option GoString
  resolveTCPAddr : GoString → Option GoString
  parseRequestURI : GoString → Option (GoString × GoString)

/-- `bedrockroute.NormalizeHost`. -/
def normalizeHost (value : GoString) : Except Err GoString :=
  let value := trimSpace value
  if value = [] then .error ⟨go "must not be empty", []⟩
  else
    let host := match splitHostPort value with
      | .ok (splitHost, _) => splitHost
      | .error _ =>
        if value.count 58 = 1 ∧ cutAt 58 value ≠ [] ∧ (value.dropWhile (· != 58)).drop 1 ≠ [] then
          cutAt 58 value
        else value
    if trimSpace host = [] then .error ⟨go "host must not be empty", []⟩
    else HostAddr.normalize host

namespace Config

/-- One error when the condition holds. -/
def failIf (c : Prop) [Decidable c] (text : GoString) : List Err := if c then [⟨text, []⟩] else []

@[simp] theorem failIf_eq_nil {c : Prop} [Decidable c] {text : GoString} :
    failIf c text = [] ↔ ¬ c := by
  unfold failIf
  split_ifs with h <;> simp [h]

/-- `errs = append(errs, fmt.Errorf("<field>: %w", err))` when there is an
error. -/
def failAt (field : GoString) : Option Err → List Err
  | some err => [err.prefixed field]
  | none => []

/-- `isDNSLabel`. -/
def isDNSLabel (value : GoString) : Bool :=
  1 ≤ value.length && value.length ≤ 63 && value.all HostAddr.isLabelByte &&
    value.head? != some 45 && value.getLast? != some 45

/-- `validateBackend`. -/
def validateBackend (backend : GoString) : Option Err :=
  match splitHostPort backend with
  | .error text => some ⟨go "must be host:port: " ++ text, []⟩
  | .ok (host, port) =>
    if trimSpace host = [] then some ⟨go "host must not be empty", []⟩
    else if trimSpace port = [] then some ⟨go "port must not be empty", []⟩
    else if (atoi port).all (fun p => p < 1 || 65535 < p) then
      some ⟨go "port must be an integer from 1 to 65535", []⟩
    else match HostAddr.normalize host with
      | .error err => some (err.prefixed (go "host"))
      | .ok _ => none

/-- `validateUDPBackendAddress`. -/
def validateUDPBackendAddress (backend : GoString) : Option Err :=
  match splitHostPort backend with
  | .error text => some ⟨text, []⟩
  | .ok (host, _) =>
    if !isIP host then none
    else match parseAddr host with
      | .error _ => none
      | .ok ip => match ip.unmap with
        | .v4 a =>
          if a = 0 then some ⟨go "host must not be an unspecified address", []⟩
          else if a >>> 28 = 0xE then some ⟨go "host must not be a multicast address", []⟩
          else if a = 0xFFFFFFFF then some ⟨go "host must not be the IPv4 broadcast address", []⟩
          else none
        | .v6 a _ =>
          if a = 0 then some ⟨go "host must not be an unspecified address", []⟩
          else if a >>> 120 = 0xFF then some ⟨go "host must not be a multicast address", []⟩
          else none
        | .zero => none

/-- A backend that is reached over UDP: the second check is made where the
first passes. -/
def validateUDPBackend (backend : GoString) : Option Err :=
  validateBackend backend <|> validateUDPBackendAddress backend

/-- `validateClientPolicy`. -/
def validateClientPolicy (policy : Config.ClientPolicy) : Option Err :=
  match McRouter.ClientPolicy.new policy.allow policy.deny with
  | .error err => some (err.prefixed (go "clientPolicy"))
  | .ok _ => none

/-- `validateClientRateLimit`. -/
def validateClientRateLimit (limit : ClientRateLimit) : Option Err :=
  if !limit.enabled then none
  else errorsJoin <| List.flatten
    [ failIf (!limit.connectionsPerSecond.isPositive)
        (go "clientRateLimit.connectionsPerSecond must be positive when enabled"),
      failIf (limit.burst < 1) (go "clientRateLimit.burst must be at least 1 when enabled"),
      if limit.idleTimeout ≤ 0 then
        [⟨go "clientRateLimit.idleTimeout must be positive when enabled", []⟩]
      else failIf (maxClientRateLimitIdleTimeout < limit.idleTimeout)
        (go "clientRateLimit.idleTimeout must be no greater than 24h0m0s"),
      if limit.maxEntries < 1 then
        [⟨go "clientRateLimit.maxEntries must be at least 1 when enabled", []⟩]
      else failIf (maxClientRateLimitEntries < limit.maxEntries)
        (go "clientRateLimit.maxEntries must be no greater than 65536") ]

/-- `validateConfigReload`. -/
def validateConfigReload (reload : ConfigReload) : Option Err :=
  if !reload.watch then none
  else if reload.debounce < minConfigReloadDebounce then
    some ⟨go "configReload.debounce must be at least 100ms when configReload.watch is true", []⟩
  else if maxConfigReloadDebounce < reload.debounce then
    some ⟨go "configReload.debounce must be no greater than 1m0s", []⟩
  else none

/-- `validateStatusOverride`. -/
def validateStatusOverride : Option StatusOverride → Option Err
  | none => none
  | some override => errorsJoin <| List.flatten
    [ failIf (trimSpace override.motd = []) (go "motd must not be empty"),
      failIf (trimSpace override.protocolName = []) (go "protocolName must not be empty"),
      failIf (override.protocolVersion < 0) (go "protocolVersion must not be negative"),
      failIf (override.maxPlayers < 0) (go "maxPlayers must not be negative"),
      failIf (override.onlinePlayers < 0) (go "onlinePlayers must not be negative") ]

/-- A listen address: not empty, and one the resolver accepts. -/
def validateListen (field section_ kind : GoString) (resolve : GoString → Option GoString)
    (listen : GoString) : List Err :=
  if trimSpace listen = [] then
    [⟨field ++ go " must not be empty when " ++ section_ ++ go ".enabled is true", []⟩]
  else match resolve listen with
    | some text =>
      [⟨field ++ go " must be a valid " ++ kind ++ go " listen address: " ++ text, []⟩]
    | none => []

/-- A number that must be positive. -/
def positive (field section_ : GoString) (value : ℤ) : List Err :=
  failIf (value ≤ 0) (field ++ go " must be positive when " ++ section_ ++ go ".enabled is true")

/-- A number with an upper bound. -/
def atMost (field bound : GoString) (max value : ℤ) : List Err :=
  failIf (max < value) (field ++ go " must be no greater than " ++ bound)

/-- `voiceChat.backends["<id>"]`. -/
def voiceBackendField (id : GoString) : GoString := go "voiceChat.backends[" ++ quote id ++ go "]"

/-- The backend loop of `validateVoiceChat`, in the order the map is
visited; `seenTokens` pairs a token with the backend that has it. -/
def validateVoiceBackends (env : Env) : (seenTokens : List (GoString × GoString)) →
    List (Σ _ : GoString, VoiceBackend) → List Err
  | _, [] => []
  | seenTokens, ⟨id, backend⟩ :: rest =>
    let here :=
      failIf (trimSpace id = []) (go "voiceChat.backends contains an empty backend ID") ++
      failIf (id.any fun c => c == 32 || c == 9 || c == 13 || c == 10 || c == 47)
        (voiceBackendField id ++ go " backend ID must not contain whitespace or /") ++
      failAt (voiceBackendField id ++ go ".udp") (validateUDPBackend backend.udp)
    let token := env.getenv backend.tokenEnv
    if trimSpace backend.tokenEnv = [] then
      here ++ [⟨voiceBackendField id ++ go ".tokenEnv must not be empty", []⟩] ++
        validateVoiceBackends env seenTokens rest
    else if trimSpace token = [] then
      here ++ [⟨voiceBackendField id ++ go ".tokenEnv " ++ quote backend.tokenEnv ++
        go " is not set or is empty", []⟩] ++ validateVoiceBackends env seenTokens rest
    else match seenTokens.lookup token with
      | some other =>
        here ++ [⟨voiceBackendField id ++ go ".tokenEnv duplicates token for backend " ++
          quote other, []⟩] ++ validateVoiceBackends env seenTokens rest
      | none => here ++ validateVoiceBackends env ((token, id) :: seenTokens) rest

/-- `validateVoiceChat`. -/
def validateVoiceChat (env : Env) (voice : VoiceChat) : Option Err :=
  if !voice.enabled then none
  else
    let on := go "voiceChat"
    let day := go "24h0m0s"
    errorsJoin <| List.flatten
      [ validateListen (go "voiceChat.listen") on (go "UDP") env.resolveUDPAddr voice.listen,
        validateListen (go "voiceChat.registration.listen") on (go "TCP") env.resolveTCPAddr
          voice.registration.listen,
        positive (go "voiceChat.registration.registrationTTL") on voice.registration.registrationTTL,
        atMost (go "voiceChat.registration.registrationTTL") day maxUDPRelayIdleTimeout
          voice.registration.registrationTTL,
        positive (go "voiceChat.registration.requestTimeout") on voice.registration.requestTimeout,
        positive (go "voiceChat.registration.maxRegistrations") on
          voice.registration.maxRegistrations,
        atMost (go "voiceChat.registration.maxRegistrations") (go "65536") maxVoiceChatRegistrations
          voice.registration.maxRegistrations,
        positive (go "voiceChat.session.idleTimeout") on voice.session.idleTimeout,
        atMost (go "voiceChat.session.idleTimeout") day maxUDPRelayIdleTimeout
          voice.session.idleTimeout,
        positive (go "voiceChat.session.backendDialTimeout") on voice.session.backendDialTimeout,
        positive (go "voiceChat.session.maxSessions") on voice.session.maxSessions,
        atMost (go "voiceChat.session.maxSessions") (go "65536") maxUDPRelaySessions
          voice.session.maxSessions,
        positive (go "voiceChat.session.maxPacketSize") on voice.session.maxPacketSize,
        atMost (go "voiceChat.session.maxPacketSize") (go "65535") maxUDPRelayPacketSize
          voice.session.maxPacketSize,
        failIf (voice.backends.entries = [])
          (go "voiceChat.backends must contain at least one backend when voiceChat.enabled is true"),
        validateVoiceBackends env [] voice.backends.entries ]

/-- `validateUDPRelay`. -/
def validateUDPRelay (env : Env) (relay : UDPRelay) : Option Err :=
  if !relay.enabled then none
  else
    let on := go "udpRelay"
    errorsJoin <| List.flatten
      [ validateListen (go "udpRelay.listen") on (go "UDP") env.resolveUDPAddr relay.listen,
        failAt (go "udpRelay.backend") (validateUDPBackend relay.backend),
        positive (go "udpRelay.idleTimeout") on relay.idleTimeout,
        atMost (go "udpRelay.idleTimeout") (go "24h0m0s") maxUDPRelayIdleTimeout relay.idleTimeout,
        positive (go "udpRelay.backendDialTimeout") on relay.backendDialTimeout,
        positive (go "udpRelay.maxSessions") on relay.maxSessions,
        atMost (go "udpRelay.maxSessions") (go "65536") maxUDPRelaySessions relay.maxSessions,
        positive (go "udpRelay.maxPacketSize") on relay.maxPacketSize,
        atMost (go "udpRelay.maxPacketSize") (go "65535") maxUDPRelayPacketSize
          relay.maxPacketSize ]

/-- `bedrock.routes[i]` with what follows it. -/
def bedrockField (i : ℕ) (rest : GoString) : GoString :=
  go "bedrock.routes[" ++ itoa i ++ go "]" ++ rest

/-- The host loop of `validateBedrock`: the errors, and the hosts seen with
the route that has them. -/
def validateBedrockHosts (i : ℕ) (name : GoString) : (hostIndex : ℕ) →
    (seenHosts : List (GoString × GoString)) → List GoString →
    List Err × List (GoString × GoString)
  | _, seenHosts, [] => ([], seenHosts)
  | hostIndex, seenHosts, host :: hosts =>
    let field := bedrockField i (go ".hosts[" ++ itoa hostIndex ++ go "]")
    match normalizeHost host with
    | .error err =>
      let (errs, seen) := validateBedrockHosts i name (hostIndex + 1) seenHosts hosts
      (err.prefixed field :: errs, seen)
    | .ok normalized =>
      match seenHosts.lookup normalized with
      | some existing =>
        let (errs, seen) := validateBedrockHosts i name (hostIndex + 1) seenHosts hosts
        (⟨field ++ go " duplicates host " ++ quote normalized ++ go " from route " ++
          quote existing, []⟩ :: errs, seen)
      | none => validateBedrockHosts i name (hostIndex + 1) ((normalized, name) :: seenHosts) hosts

/-- The route loop of `validateBedrock`. -/
def validateBedrockRoutes : (i : ℕ) → (seenRoutes : List GoString) →
    (seenHosts : List (GoString × GoString)) → List BedrockRoute → List Err
  | _, _, _, [] => []
  | i, seenRoutes, seenHosts, route :: routes =>
    let name := trimSpace route.name
    let nameErrs :=
      if name = [] then [⟨bedrockField i (go ".name must not be empty"), []⟩]
      else
        failIf (name ≠ route.name)
          (bedrockField i (go ".name must not contain leading or trailing whitespace")) ++
        failIf (name ∈ seenRoutes) (bedrockField i (go ".name duplicates " ++ quote name))
    let seenRoutes := if name = [] then seenRoutes else name :: seenRoutes
    let (hostErrs, seenHosts) := validateBedrockHosts i name 0 seenHosts route.hosts
    nameErrs ++ hostErrs ++ failAt (bedrockField i (go ".backend")) (validateUDPBackend route.backend)
      ++ validateBedrockRoutes (i + 1) seenRoutes seenHosts routes

/-- `validateBedrock`. -/
def validateBedrock (env : Env) (bedrock : Bedrock) : Option Err :=
  if !bedrock.enabled then none
  else errorsJoin <| List.flatten
    [ validateListen (go "bedrock.listen") (go "bedrock") (go "UDP") env.resolveUDPAddr
        bedrock.listen,
      failIf (bedrock.mode ≠ [] ∧ bedrock.mode ≠ bedrockModeUDPForward ∧
          bedrock.mode ≠ bedrockModeHostProxy)
        (go "bedrock.mode must be \"udp-forward\" or \"host-proxy\""),
      failAt (go "bedrock.defaultBackend") (validateUDPBackend bedrock.defaultBackend),
      validateBedrockRoutes 0 [] [] bedrock.routes,
      positive (go "bedrock.sessionTimeout") (go "bedrock") bedrock.sessionTimeout,
      atMost (go "bedrock.sessionTimeout") (go "24h0m0s") maxUDPRelayIdleTimeout
        bedrock.sessionTimeout ]

/-- `validateAnnotationPrefix`. -/
def validateAnnotationPrefix (annotationPrefix : GoString) : Option Err :=
  if trimSpace annotationPrefix = [] then some ⟨go "must not be empty", []⟩
  else if trimSpace annotationPrefix ≠ annotationPrefix then
    some ⟨go "must not contain leading or trailing whitespace", []⟩
  else if 47 ∈ annotationPrefix then some ⟨go "must not contain /", []⟩
  else match HostAddr.normalize annotationPrefix with
    | .error err => some err
    | .ok normalized =>
      if normalized ≠ annotationPrefix then
        some ⟨go "must be a canonical lowercase DNS subdomain", []⟩
      else none

/-- `validateKubernetesDiscovery`. -/
def validateKubernetesDiscovery (k : KubernetesDiscovery) : Option Err :=
  if !k.enabled ∧ k.namespace_ = [] ∧ k.mode = [] ∧ k.annotationPrefix = [] then none
  else
    let ns := trimSpace k.namespace_
    errorsJoin <| List.flatten
      [ failIf (k.mode ≠ kubernetesDiscoveryModeAnnotations)
          (go "discovery.kubernetes.mode only supports \"service-annotations\""),
        failAt (go "discovery.kubernetes.annotationPrefix")
          (validateAnnotationPrefix k.annotationPrefix),
        failIf (ns ≠ [] ∧ ns ≠ k.namespace_)
          (go "discovery.kubernetes.namespace must not contain leading or trailing whitespace"),
        failIf (ns ≠ [] ∧ !isDNSLabel ns)
          (go "discovery.kubernetes.namespace must be empty or a DNS label") ]

/-- The URL is absolute, `http` or `https`. -/
def isHTTPURL (env : Env) (url : GoString) : Bool :=
  match env.parseRequestURI url with
  | some (scheme, host) => (scheme == go "http" || scheme == go "https") && host != []
  | none => false

/-- `validateScalerWebhook`. -/
def validateScalerWebhook (env : Env) (webhook : ScalerWebhook) : Option Err :=
  if !webhook.enabled then none
  else if !isHTTPURL env webhook.url then
    some ⟨go "scalerWebhook.url must be an absolute http or https URL when enabled", []⟩
  else if webhook.timeout ≤ 0 then
    some ⟨go "scalerWebhook.timeout must be positive when enabled", []⟩
  else if 30 * second < webhook.timeout then
    some ⟨go "scalerWebhook.timeout must be no greater than 30s", []⟩
  else if webhook.headers.keys.any fun name =>
      trimSpace name == [] || name.any fun c => c == 13 || c == 10 then
    some ⟨go "scalerWebhook.headers contains an invalid header name", []⟩
  else none

/-- The backend loop of `validateAvailability`. -/
def validateAvailabilityBackends : (seen : List GoString) → List AvailabilityBackend → Option Err
  | _, [] => none
  | seen, backend :: backends =>
    let field := go "availability.backends[" ++ quote backend.id ++ go "]"
    if !isDNSLabel backend.id then
      some ⟨go "availability.backends id " ++ quote backend.id ++ go " must be a DNS label", []⟩
    else if backend.id ∈ seen then
      some ⟨go "availability.backends contains duplicate id " ++ quote backend.id, []⟩
    else match validateBackend backend.address with
      | some err => some (err.prefixed (field ++ go ".address"))
      | none => match HostAddr.normalize backend.serverAddress with
        | .error err => some (err.prefixed (field ++ go ".serverAddress"))
        | .ok _ => validateAvailabilityBackends (backend.id :: seen) backends

/-- `validateAvailability`. -/
def validateAvailability (env : Env) (availability : Availability) : Option Err :=
  if !availability.enabled then none
  else if availability.interval < second then
    some ⟨go "availability.interval must be at least 1s when enabled", []⟩
  else if availability.timeout ≤ 0 ∨ availability.interval < availability.timeout then
    some ⟨go "availability.timeout must be positive and no greater than availability.interval when enabled",
      []⟩
  else if !isHTTPURL env availability.controlURL then
    some ⟨go "availability.controlURL must be an absolute http or https URL when enabled", []⟩
  else if trimSpace availability.tokenEnv = [] then
    some ⟨go "availability.tokenEnv must not be empty when enabled", []⟩
  else if availability.backends = [] then
    some ⟨go "availability.backends must not be empty when enabled", []⟩
  else validateAvailabilityBackends [] availability.backends

/-! ## Routes -/

/-- `routes[i].serverAddress` or `routes[i].aliases[j]`. -/
def identityField (i identityIndex : ℕ) : GoString :=
  go "routes[" ++ itoa i ++ go "]" ++
    (if identityIndex = 0 then go ".serverAddress"
     else go ".aliases[" ++ itoa (identityIndex - 1) ++ go "]")

/-- The identity loop of `Validate`: the errors, and the addresses seen so
far. An address that fails or repeats is not added. -/
def validateIdentities (i : ℕ) : (identityIndex : ℕ) → (seen : List GoString) → List GoString →
    List Err × List GoString
  | _, seen, [] => ([], seen)
  | identityIndex, seen, identity :: identities =>
    let field := identityField i identityIndex
    match HostAddr.normalize identity with
    | .error err =>
      let (errs, seen) := validateIdentities i (identityIndex + 1) seen identities
      (err.prefixed field :: errs, seen)
    | .ok addr =>
      if addr ∈ seen then
        let (errs, seen) := validateIdentities i (identityIndex + 1) seen identities
        (⟨field ++ go " duplicates " ++ quote addr, []⟩ :: errs, seen)
      else validateIdentities i (identityIndex + 1) (addr :: seen) identities

/-- The hosts that a list of identities normalises to. -/
def hostsOf (identities : List GoString) : List GoString :=
  identities.filterMap fun identity => (HostAddr.normalize identity).toOption

/-- The hosts a route answers to. -/
def Route.hosts (route : Route) : List GoString := hostsOf route.identities

/-- The checks of one route besides its identities. -/
def validateRouteBackends (i : ℕ) (route : Route) : List Err :=
  let field := go "routes[" ++ itoa i ++ go "]"
  failAt (field ++ go ".backend") (validateBackend route.backend) ++
  (if route.statusBackend ≠ [] then
    failAt (field ++ go ".statusBackend") (validateBackend route.statusBackend) else []) ++
  failAt (field ++ go ".statusOverride") (validateStatusOverride route.statusOverride)

/-- The route loop of `Validate`. -/
def validateRoutes : (i : ℕ) → (seen : List GoString) → List Route → List Err
  | _, _, [] => []
  | i, seen, route :: routes =>
    let (errs, seen) := validateIdentities i 0 seen route.identities
    errs ++ validateRouteBackends i route ++ validateRoutes (i + 1) seen routes

/-! ## The whole -/

/-- The checks on `metrics`. -/
def validateMetrics (metrics : Metrics) : List Err :=
  if metrics.enabled then List.flatten
    [ failIf (trimSpace metrics.listen = [])
        (go "metrics.listen must not be empty when metrics.enabled is true"),
      failIf (trimSpace metrics.path = [])
        (go "metrics.path must not be empty when metrics.enabled is true"),
      failIf (!hasPrefix metrics.path (go "/")) (go "metrics.path must start with /") ]
  else []

/-- The checks on `fallback`. -/
def validateFallback (fallback : Fallback) : List Err :=
  (if fallback.enabled ∧ fallback.status.enabled then List.flatten
    [ failIf (trimSpace fallback.status.motd = []) (go
        "fallback.status.motd must not be empty when fallback.enabled and fallback.status.enabled are true"),
      failIf (trimSpace fallback.status.protocolName = []) (go
        "fallback.status.protocolName must not be empty when fallback.enabled and fallback.status.enabled are true"),
      failIf (fallback.status.protocolVersion < 0)
        (go "fallback.status.protocolVersion must not be negative"),
      failIf (fallback.status.maxPlayers < 0) (go "fallback.status.maxPlayers must not be negative"),
      failIf (fallback.status.onlinePlayers < 0)
        (go "fallback.status.onlinePlayers must not be negative") ]
  else []) ++
  failIf (fallback.enabled ∧ fallback.login.enabled ∧ trimSpace fallback.login.message = []) (go
    "fallback.login.message must not be empty when fallback.enabled and fallback.login.enabled are true")

/-- The checks on `unknownHostPolicy` and `defaultRoute`. -/
def validateUnknownHost (policy : GoString) (route : DefaultRoute) : List Err :=
  (if policy = unknownHostDeny then []
   else if policy = unknownHostDefault then
    failIf (trimSpace route.backend = [])
      (go "defaultRoute.backend is required when unknownHostPolicy is default")
   else [⟨go "unknownHostPolicy must be \"deny\" or \"default\"", []⟩]) ++
  (if route.backend ≠ [] then List.flatten
    [ failAt (go "defaultRoute.backend") (validateBackend route.backend),
      failIf (route.mode = [])
        (go "defaultRoute.mode must not be empty when defaultRoute.backend is set"),
      failIf (route.mode ≠ routeModeAllow)
        (go "defaultRoute.mode only supports \"allow\" in the MVP") ]
  else [])

/-- Everything `Validate` finds wrong outside `routes`. -/
def sectionErrors (env : Env) (c : Config) : List Err := List.flatten
  [ failIf (trimSpace c.listen = []) (go "listen must not be empty"),
    failIf (c.handshakeTimeout ≤ 0) (go "handshakeTimeout must be positive"),
    failIf (c.backendDialTimeout ≤ 0) (go "backendDialTimeout must be positive"),
    (validateClientPolicy c.clientPolicy).toList,
    (validateClientRateLimit c.clientRateLimit).toList,
    failAt (go "proxyProtocol.trustedProxies")
      (match McRouter.ProxyProtocol.parseCIDRs c.proxyProtocol.trustedProxies with
        | .error err => some err
        | .ok _ => none),
    (validateScalerWebhook env c.scalerWebhook).toList,
    (validateConfigReload c.configReload).toList,
    (validateAvailability env c.availability).toList,
    validateMetrics c.metrics,
    (validateUDPRelay env c.udpRelay).toList,
    (validateBedrock env c.bedrock).toList,
    (validateVoiceChat env c.voiceChat).toList,
    failIf (c.udpRelay.enabled ∧ c.voiceChat.enabled ∧ c.udpRelay.listen = c.voiceChat.listen)
      (go "udpRelay and voiceChat cannot use the same listen address"),
    failIf (c.bedrock.enabled ∧ c.udpRelay.enabled ∧ c.bedrock.listen = c.udpRelay.listen)
      (go "bedrock and udpRelay cannot use the same listen address"),
    failIf (c.bedrock.enabled ∧ c.voiceChat.enabled ∧ c.bedrock.listen = c.voiceChat.listen)
      (go "bedrock and voiceChat cannot use the same listen address"),
    (validateKubernetesDiscovery c.kubernetes).toList,
    validateFallback c.fallback,
    validateUnknownHost c.unknownHostPolicy c.defaultRoute ]

/-- `Config.Validate`. -/
def validate (env : Env) (c : Config) : Option Err :=
  errorsJoin (sectionErrors env c ++ validateRoutes 0 [] c.routes)

end Config

end McRouter
