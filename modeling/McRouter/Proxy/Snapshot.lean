import McRouter.Router
import McRouter.Discovery.Merge

/-!
# Route snapshots

`BuildRouteSnapshot` of `proxy/server.go`: the validated configuration, the
same with the discovered routes merged in, and the router built from that.
The clones the code makes are no copies here, where nothing is mutated.
-/

namespace McRouter

namespace Proxy

open Config Kubernetes Discovery

/-- `RouteSnapshot`. -/
structure RouteSnapshot where
  staticConfig : Config
  config : Config
  router : Router
  discoveryMerge : MergeResult
  discoveredRoutes : List DiscoveredRoute

/-- The configuration with the merged routes in place of its own. -/
def mergedConfig (cfg : Config) (discoveredRoutes : List DiscoveredRoute) : Config :=
  { cfg with routes := (mergeRoutes cfg.routes discoveredRoutes cfg.defaultRoute).routes }

/-- `BuildRouteSnapshot`. -/
def buildRouteSnapshot (env : Env) (cfg : Config) (discoveredRoutes : List DiscoveredRoute) :
    Except Err RouteSnapshot :=
  match cfg.validate env with
  | some err => .error err
  | none =>
    match Router.new env (mergedConfig cfg discoveredRoutes) with
    | .error err => .error err
    | .ok routeTable => .ok
      { staticConfig := cfg
        config := mergedConfig cfg discoveredRoutes
        router := routeTable
        discoveryMerge := mergeRoutes cfg.routes discoveredRoutes cfg.defaultRoute
        discoveredRoutes }

end Proxy

end McRouter
