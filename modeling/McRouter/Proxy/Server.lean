import McRouter.Proxy.Snapshot
import McRouter.Access.RateLimit

/-!
# The server's state

`serverState` of `proxy/server.go` and the calls that replace it:
`ReloadFile`, `ReloadConfigWithDiscovery` and `UpdateDiscoveredRoutes`. The
three run under one lock from the moment they read the current state, so a
call is one step. Each call sees the environment of its own moment, and
what it gets from outside, the loaded file, the provider's answer and the
context at each point where it is checked, is part of the call.
-/

namespace McRouter

namespace Proxy

open Config Kubernetes Discovery

/-- `serverState`. -/
structure ServerState where
  generation : Int64
  staticConfig : Config
  cfg : Config
  router : Router
  clientPolicy : ClientPolicy.Policy
  clientRateLimit : RateLimit.Limiter
  trustedProxies : List Netip.Prefix
  discoveryMerge : MergeResult
  discoveredRoutes : List DiscoveredRoute

/-- The limiter's configuration in a `Config`. -/
def rateLimitConfig (limit : Config.ClientRateLimit) : RateLimit.Config where
  enabled := limit.enabled
  connectionsPerSecond := limit.connectionsPerSecond.toRat
  burst := limit.burst
  idleTimeout := limit.idleTimeout
  maxEntries := limit.maxEntries

/-- `newServerState`, where `none` is one of its two panics. The scaler's
client holds nothing but its part of the configuration. -/
def newServerState (generation : Int64) (staticConfig cfg : Config) (routeTable : Router)
    (merge : MergeResult) (discoveredRoutes : List DiscoveredRoute) : Option ServerState :=
  match ClientPolicy.new cfg.clientPolicy.allow cfg.clientPolicy.deny with
  | .error _ => none
  | .ok policy =>
    match ProxyProtocol.parseCIDRs cfg.proxyProtocol.trustedProxies with
    | .error _ => none
    | .ok trustedProxies => some
      { generation, staticConfig, cfg
        router := routeTable
        clientPolicy := policy
        clientRateLimit := RateLimit.new (rateLimitConfig cfg.clientRateLimit)
        trustedProxies
        discoveryMerge := merge
        discoveredRoutes }

/-- What `newServer` and `updateRouteSnapshotLocked` store for a snapshot. -/
def stateOfSnapshot (generation : Int64) (snapshot : RouteSnapshot) : Option ServerState :=
  let staticConfig :=
    if snapshot.staticConfig.listen = [] then snapshot.config else snapshot.staticConfig
  newServerState generation staticConfig snapshot.config snapshot.router snapshot.discoveryMerge
    snapshot.discoveredRoutes

/-- `NewServerFromSnapshot`. -/
def newServerFromSnapshot (snapshot : RouteSnapshot) : Option ServerState :=
  stateOfSnapshot 1 snapshot

/-- `updateRouteSnapshotLocked`. -/
def updateRouteSnapshotLocked (s : ServerState) (snapshot : RouteSnapshot) : Option ServerState :=
  stateOfSnapshot (s.generation + 1) snapshot

/-- How a call ends. -/
inductive Outcome where
  | ok
  | failed (err : Err)
  | panicked
deriving DecidableEq

/-- A route provider's answer; `none` is the nil provider. -/
abbrev Provided := Option (Except Err (List DiscoveredRoute))

/-- `discoveredRoutesFromProvider`. -/
def discoveredRoutesFromProvider : Provided → Except Err (List DiscoveredRoute)
  | none => .ok []
  | some answer => answer

/-- A context as `UpdateDiscoveredRoutes` looks at it: `ctx.Err()` before
it asks the provider, once it holds the lock, and once it has built the
snapshot. -/
structure ContextChecks where
  entered : Option Err
  locked : Option Err
  built : Option Err
deriving DecidableEq

/-- Storing the snapshot of a build, or reporting its error. -/
def applySnapshot (s : ServerState) : Except Err RouteSnapshot → Outcome × ServerState
  | .error err => (.failed err, s)
  | .ok snapshot =>
    match updateRouteSnapshotLocked s snapshot with
    | none => (.panicked, s)
    | some s' => (.ok, s')

/-- `reloadConfigLocked`. -/
def reloadConfigLocked (env : Env) (s : ServerState) (cfg : Config)
    (discoveredRoutes : List DiscoveredRoute) : Outcome × ServerState :=
  applySnapshot s (buildRouteSnapshot env cfg discoveredRoutes)

/-- `ReloadFile`, with what `config.LoadFile` returned. -/
def reloadFile (env : Env) (s : ServerState) (loaded : Except Err Config) : Outcome × ServerState :=
  match loaded with
  | .error err => (.failed err, s)
  | .ok cfg => reloadConfigLocked env s cfg s.discoveredRoutes

/-- `ReloadConfigWithDiscovery`. -/
def reloadConfigWithDiscovery (env : Env) (s : ServerState) (cfg : Config) (provider : Provided) :
    Outcome × ServerState :=
  match discoveredRoutesFromProvider provider with
  | .error err => (.failed err, s)
  | .ok discoveredRoutes => reloadConfigLocked env s cfg discoveredRoutes

/-- `UpdateDiscoveredRoutes`; `none` is the nil context. -/
def updateDiscoveredRoutes (env : Env) (s : ServerState) (ctx : Option ContextChecks)
    (provider : Provided) : Outcome × ServerState :=
  match ctx with
  | none => (.failed ⟨go "context is nil", []⟩, s)
  | some ctx =>
    match ctx.entered with
    | some err => (.failed err, s)
    | none =>
      match discoveredRoutesFromProvider provider with
      | .error err => (.failed err, s)
      | .ok discoveredRoutes =>
        match ctx.locked with
        | some err => (.failed err, s)
        | none =>
          match buildRouteSnapshot env s.staticConfig discoveredRoutes with
          | .error err => (.failed err, s)
          | .ok snapshot =>
            match ctx.built with
            | some err => (.failed err, s)
            | none => applySnapshot s (.ok snapshot)

/-- A call that may replace the state, with all it gets from outside. -/
inductive Call where
  | reloadFile (loaded : Except Err Config)
  | reloadConfigWithDiscovery (cfg : Config) (provider : Provided)
  | updateDiscoveredRoutes (ctx : Option ContextChecks) (provider : Provided)

/-- One call in the environment of its moment. -/
def Call.run (env : Env) (s : ServerState) : Call → Outcome × ServerState
  | .reloadFile loaded => Proxy.reloadFile env s loaded
  | .reloadConfigWithDiscovery cfg provider => Proxy.reloadConfigWithDiscovery env s cfg provider
  | .updateDiscoveredRoutes ctx provider => Proxy.updateDiscoveredRoutes env s ctx provider

end Proxy

end McRouter
