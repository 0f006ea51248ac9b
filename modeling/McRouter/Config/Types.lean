import McRouter.Errors
import McRouter.Common.GoMap
import Mathlib.Data.Rat.Defs

/-!
# The configuration

The structs of `internal/config`. Durations are nanoseconds. The cached
`token` of a voice backend is left out: it is a function of `tokenEnv` and
the process environment, which is read where a token is needed.
-/

namespace McRouter

/-- A `float64` read from YAML. -/
inductive GoFloat where
  | finite (q : ℚ)
  | inf (negative : Bool)
  | nan
deriving DecidableEq

/-- The number, where there is one. -/
def GoFloat.toRat : GoFloat → ℚ
  | finite q => q
  | _ => 0

/-- A number above zero: not zero or less, not infinite and not `NaN`. -/
def GoFloat.isPositive : GoFloat → Bool
  | finite q => 0 < q
  | _ => false

/-- A `time.Duration`. -/
abbrev Duration := ℤ

def second : Duration := 1000000000
def millisecond : Duration := 1000000
def minute : Duration := 60 * second
def hour : Duration := 60 * minute

namespace Config

structure ClientPolicy where
  allow : List GoString := []
  deny : List GoString := []
deriving DecidableEq

structure ClientRateLimit where
  enabled : Bool := false
  connectionsPerSecond : GoFloat := .finite 1
  burst : ℤ := 3
  idleTimeout : Duration := 10 * minute
  maxEntries : ℤ := 4096
deriving DecidableEq

structure ProxyProtocol where
  trustedProxies : List GoString := []
deriving DecidableEq

structure ScalerWebhook where
  enabled : Bool := false
  url : GoString := []
  timeout : Duration := 2 * second
  headers : GoMap GoString GoString := ∅
deriving DecidableEq

structure ConfigReload where
  watch : Bool := false
  debounce : Duration := second
deriving DecidableEq

structure AvailabilityBackend where
  id : GoString
  address : GoString
  serverAddress : GoString
deriving DecidableEq

structure Availability where
  enabled : Bool := false
  interval : Duration := 10 * second
  timeout : Duration := 3 * second
  controlURL : GoString := []
  tokenEnv : GoString := []
  backends : List AvailabilityBackend := []
deriving DecidableEq

structure FallbackLogin where
  enabled : Bool := false
  respondOnRouteDenied : Option Bool := some true
  message : GoString := go "Server unavailable. Please try again later."
deriving DecidableEq

structure FallbackStatus where
  enabled : Bool := false
  respondOnRouteDenied : Option Bool := some true
  respondOnBackendFailure : Bool := false
  motd : GoString := go "Server unavailable"
  protocolName : GoString := go "mc-gateway"
  protocolVersion : ℤ := 767
  maxPlayers : ℤ := 0
  onlinePlayers : ℤ := 0
deriving DecidableEq

structure Fallback where
  enabled : Bool := false
  login : FallbackLogin := {}
  status : FallbackStatus := {}
deriving DecidableEq

structure Metrics where
  enabled : Bool := false
  listen : GoString := go ":9090"
  path : GoString := go "/metrics"
deriving DecidableEq

structure UDPRelay where
  enabled : Bool := false
  listen : GoString := go ":24454"
  backend : GoString := go "127.0.0.1:24454"
  idleTimeout : Duration := 30 * second
  backendDialTimeout : Duration := 5 * second
  maxSessions : ℤ := 4096
  maxPacketSize : ℤ := 65535
deriving DecidableEq

structure BedrockRoute where
  name : GoString
  hosts : List GoString
  backend : GoString
deriving DecidableEq

structure Bedrock where
  enabled : Bool := false
  mode : GoString := go "udp-forward"
  listen : GoString := []
  defaultBackend : GoString := []
  sessionTimeout : Duration := 30 * second
  routes : List BedrockRoute := []
deriving DecidableEq

structure VoiceRegistration where
  listen : GoString := go "127.0.0.1:9091"
  registrationTTL : Duration := 30 * second
  requestTimeout : Duration := 5 * second
  maxRegistrations : ℤ := 4096
deriving DecidableEq

structure VoiceSession where
  idleTimeout : Duration := 30 * second
  backendDialTimeout : Duration := 5 * second
  maxSessions : ℤ := 4096
  maxPacketSize : ℤ := 65535
deriving DecidableEq

structure VoiceBackend where
  udp : GoString
  tokenEnv : GoString
deriving DecidableEq

structure VoiceChat where
  enabled : Bool := false
  listen : GoString := go ":24454"
  registration : VoiceRegistration := {}
  session : VoiceSession := {}
  backends : GoMap GoString VoiceBackend := ∅
deriving DecidableEq

structure KubernetesDiscovery where
  enabled : Bool := false
  namespace_ : GoString := []
  mode : GoString := go "service-annotations"
  annotationPrefix : GoString := go "mc-router.alexandergg.com"
deriving DecidableEq

structure DefaultRoute where
  backend : GoString := []
  mode : GoString := go "allow"
deriving DecidableEq

structure StatusOverride where
  motd : GoString
  protocolName : GoString
  protocolVersion : ℤ
  maxPlayers : ℤ
  onlinePlayers : ℤ
deriving DecidableEq

/-- `Route.Source`, which no configuration file sets. -/
inductive RouteSource where
  | unset
  | static
  | discovered
  | default
deriving DecidableEq, Repr

structure Route where
  serverAddress : GoString
  aliases : List GoString := []
  backend : GoString
  statusBackend : GoString := []
  statusOverride : Option StatusOverride := none
  source : RouteSource := .unset
deriving DecidableEq

/-- The addresses a route answers to: its own and its aliases. -/
def Route.identities (route : Route) : List GoString := route.serverAddress :: route.aliases

end Config

/-- `Config`. The default of each field is the one of `Defaults()`. -/
structure Config where
  listen : GoString := go ":25565"
  handshakeTimeout : Duration := 5 * second
  backendDialTimeout : Duration := 5 * second
  clientPolicy : Config.ClientPolicy := {}
  clientRateLimit : Config.ClientRateLimit := {}
  proxyProtocol : Config.ProxyProtocol := {}
  scalerWebhook : Config.ScalerWebhook := {}
  configReload : Config.ConfigReload := {}
  availability : Config.Availability := {}
  metrics : Config.Metrics := {}
  udpRelay : Config.UDPRelay := {}
  bedrock : Config.Bedrock := {}
  voiceChat : Config.VoiceChat := {}
  fallback : Config.Fallback := {}
  kubernetes : Config.KubernetesDiscovery := {}
  defaultRoute : Config.DefaultRoute := {}
  routes : List Config.Route := []
  unknownHostPolicy : GoString := go "deny"
deriving DecidableEq

namespace Config

def unknownHostDeny : GoString := go "deny"
def unknownHostDefault : GoString := go "default"
def routeModeAllow : GoString := go "allow"
def kubernetesDiscoveryModeAnnotations : GoString := go "service-annotations"
def bedrockModeUDPForward : GoString := go "udp-forward"
def bedrockModeHostProxy : GoString := go "host-proxy"
def maxUDPRelayIdleTimeout : Duration := 24 * hour
def maxUDPRelaySessions : ℤ := 65536
def maxUDPRelayPacketSize : ℤ := 65535
def maxVoiceChatRegistrations : ℤ := 65536
def maxClientRateLimitEntries : ℤ := 65536
def maxClientRateLimitIdleTimeout : Duration := 24 * hour
def minConfigReloadDebounce : Duration := 100 * millisecond
def maxConfigReloadDebounce : Duration := minute

/-- `Defaults`. -/
def defaults : Config := {}

end Config

end McRouter
