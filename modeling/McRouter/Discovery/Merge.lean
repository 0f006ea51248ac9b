import McRouter.Common.Sort
import McRouter.Kubernetes.Annotations

/-!
# Merging routes

`discovery/merge.go`. Static routes are kept with their addresses
normalised; a discovered route joins them when it is valid, no other valid
one has its host and no static route does. Everything else is ignored with
a reason.
-/

namespace McRouter

namespace Discovery

open Strings Unicode Netip Config Kubernetes Sorting

/-- The reasons a discovered route is ignored for. `ReasonUnknown` stands
in the source for a missing reason, and none is ever missing. -/
inductive IgnoreReason where
  | staticRoutePrecedence
  | duplicateDiscovered
  | invalidDiscovered
deriving DecidableEq, Repr

/-- The reason as the code spells it. -/
def IgnoreReason.text : IgnoreReason → GoString
  | staticRoutePrecedence => go "static_route_precedence"
  | duplicateDiscovered => go "duplicate_discovered_host"
  | invalidDiscovered => go "invalid_discovered_route"

/-- `IgnoredDiscoveredRoute`. -/
structure IgnoredDiscoveredRoute where
  host : GoString
  backend : GoString
  reason : IgnoreReason
  err : Err
deriving DecidableEq

/-- `MergeStats`. -/
structure MergeStats where
  staticRoutes : ℕ
  discoveredRoutes : ℕ
  mergedRoutes : ℕ
  ignoredDiscoveredRoutes : ℕ
  hasDefaultRoute : Bool
  ignoredByReason : IgnoreReason → ℕ

/-- `MergeResult`. -/
structure MergeResult where
  routes : List Route
  ignored : List IgnoredDiscoveredRoute
  stats : MergeStats

/-- `validateBackendPort`. -/
def validateBackendPort (port : GoString) : Option Err :=
  if trimSpace port = [] then some ⟨go "must not be empty", []⟩
  else if (atoi port).all (fun p => p < 1 || 65535 < p) then
    some ⟨go "must be an integer from 1 to 65535", []⟩
  else none

/-- `validateServiceDNSBackend`. -/
def validateServiceDNSBackend (host : GoString) : Option Err :=
  match split 46 host with
  | service :: ns :: svc :: domain :: rest =>
    if !isDNSLabel service || !isDNSLabel ns then
      some ⟨go "service and namespace must be DNS labels", []⟩
    else if svc ≠ go "svc" then some ⟨go "must include \"svc\" as the third DNS label", []⟩
    else if !(domain :: rest).all isDNSLabel then
      some ⟨go "cluster domain must be DNS labels", []⟩
    else none
  | _ => some ⟨go "must be service.namespace.svc.<cluster-domain>", []⟩

/-- `validateDiscoveredRoute`: the route with host and backend normalised. -/
def validateDiscoveredRoute (route : DiscoveredRoute) : Except Err DiscoveredRoute :=
  match HostAddr.normalize route.host with
  | .error err => .error (err.prefixed (go "host"))
  | .ok host =>
    if trimSpace route.backend = [] then .error ⟨go "backend must not be empty", []⟩
    else match splitHostPort route.backend with
      | .error text => .error ⟨go "backend must be host:port: " ++ text, []⟩
      | .ok (backendHost, port) =>
        match validateBackendPort port with
        | some err => .error (err.prefixed (go "backend port"))
        | none =>
          match HostAddr.normalize backendHost with
          | .error err => .error (err.prefixed (go "backend host"))
          | .ok normalizedBackendHost =>
            match validateServiceDNSBackend normalizedBackendHost with
            | some err => .error (err.prefixed (go "backend host"))
            | none => .ok ⟨host, joinHostPort normalizedBackendHost port⟩

/-- `lessConfigRoute`. -/
def lessConfigRoute (left right : Route) : Bool :=
  lessFields [(left.serverAddress, right.serverAddress), (left.backend, right.backend)]

/-- `lessDiscoveredCandidate`. -/
def lessDiscoveredCandidate (left right : DiscoveredRoute) : Bool :=
  lessFields [(left.host, right.host), (left.backend, right.backend)]

/-- `lessIgnored`. -/
def lessIgnored (left right : IgnoredDiscoveredRoute) : Bool :=
  lessFields [(left.reason.text, right.reason.text), (left.host, right.host),
    (left.backend, right.backend), (left.err.text, right.err.text)]

/-- A name as the merge writes it: normalised, or as it is where that
fails. -/
def normalizedOr (address : GoString) : GoString :=
  match HostAddr.normalize address with
  | .ok host => host
  | .error _ => address

/-- A static route in the merged list. -/
def normalizeStatic (route : Route) : Route :=
  { route with
    serverAddress := normalizedOr route.serverAddress
    aliases := route.aliases.map normalizedOr
    source := .static }

/-- The hosts the static routes answer to. -/
def staticHosts (staticRoutes : List Route) : List GoString := staticRoutes.flatMap Route.hosts

/-- The valid discovered routes, in order. -/
def candidates (discovered : List DiscoveredRoute) : List DiscoveredRoute :=
  discovered.filterMap fun route => (validateDiscoveredRoute route).toOption

/-- The discovered routes that fail validation. -/
def ignoredInvalid (discovered : List DiscoveredRoute) : List IgnoredDiscoveredRoute :=
  discovered.filterMap fun route => match validateDiscoveredRoute route with
    | .error err => some ⟨route.host, route.backend, .invalidDiscovered, err⟩
    | .ok _ => none

/-- `hostCounts[host]`. -/
def hostCount (cands : List DiscoveredRoute) (host : GoString) : ℕ :=
  cands.countP fun candidate => candidate.host == host

/-- Why a valid discovered route is ignored, if it is. -/
def ignoreCandidate (statics : List GoString) (cands : List DiscoveredRoute)
    (candidate : DiscoveredRoute) : Option IgnoredDiscoveredRoute :=
  if 1 < hostCount cands candidate.host then
    some ⟨candidate.host, candidate.backend, .duplicateDiscovered,
      ⟨go "host " ++ quote candidate.host ++ go " is discovered more than once", []⟩⟩
  else if candidate.host ∈ statics then
    some ⟨candidate.host, candidate.backend, .staticRoutePrecedence,
      ⟨go "host " ++ quote candidate.host ++ go " is already configured by a static route", []⟩⟩
  else none

/-- The route a discovered candidate becomes. -/
def discoveredRoute (candidate : DiscoveredRoute) : Route where
  serverAddress := candidate.host
  backend := candidate.backend
  source := .discovered

/-- `MergeRoutes`. -/
def mergeRoutes (staticRoutes : List Route) (discovered : List DiscoveredRoute)
    (defaultRoute : DefaultRoute) : MergeResult :=
  let statics := staticHosts staticRoutes
  let cands := candidates discovered
  let sorted := sortStable lessDiscoveredCandidate cands
  let routes := sortStable lessConfigRoute (staticRoutes.map normalizeStatic ++
    (sorted.filter fun c => (ignoreCandidate statics cands c).isNone).map discoveredRoute)
  let ignored := sortStable lessIgnored
    (ignoredInvalid discovered ++ sorted.filterMap (ignoreCandidate statics cands))
  { routes, ignored
    stats :=
      { staticRoutes := staticRoutes.length
        discoveredRoutes := discovered.length
        mergedRoutes := routes.length
        ignoredDiscoveredRoutes := ignored.length
        hasDefaultRoute := trimSpace defaultRoute.backend ≠ []
        ignoredByReason := fun reason => ignored.countP fun i => i.reason == reason } }

end Discovery

end McRouter
