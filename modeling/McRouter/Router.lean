import McRouter.Config.RoutesValid
import McRouter.Common.GoMap

/-!
# The router

`router/router.go`: a map from normalised host to route entry, built by
inserting each route under its own address and its aliases, later inserts
overwriting earlier ones. On a valid table there is nothing to overwrite,
and the map has exactly the entries of the routes (`new_lookup`).
-/

namespace McRouter

open Strings Unicode Config

/-- `MatchKind`. -/
inductive MatchKind where
  | canonical
  | alias_
  | default
deriving DecidableEq, Repr

/-- `MatchedBy`. -/
inductive MatchedBy where
  | route
  | default
deriving DecidableEq, Repr

/-- `routeEntry`. -/
structure RouteEntry where
  route : Route
  matchKind : MatchKind
deriving DecidableEq

/-- `Selection`. -/
structure Selection where
  backend : GoString
  statusBackend : GoString := []
  matchedBy : MatchedBy
  matchKind : MatchKind
  routeSource : RouteSource
  canonicalServerAddress : GoString := []
  statusOverride : Option StatusOverride := none
deriving DecidableEq

/-- `Router`. -/
structure Router where
  routes : GoMap GoString RouteEntry
  defaultBackend : GoString
  unknownHostPolicy : GoString
deriving DecidableEq

namespace Router

/-- `ErrNoRoute`. -/
def errNoRoute : Err := ⟨go "no route for requested server address", [.noRoute]⟩

/-- `ErrInvalidServerAddress`. -/
def errInvalidServerAddress : Err := ⟨go "invalid requested server address", [.invalidServerAddress]⟩

/-- The route as `New` stores it. -/
def stored (route : Route) (normalized : GoString) : Route :=
  { route with
    serverAddress := normalized
    source := if route.source = .unset then .static else route.source }

/-- The alias loop of `New`. -/
def insertAliases (route : Route) : GoMap GoString RouteEntry → List GoString →
    Except Err (GoMap GoString RouteEntry)
  | routes, [] => .ok routes
  | routes, name :: aliases =>
    match HostAddr.normalize name with
    | .error err => .error err
    | .ok normalizedAlias =>
      insertAliases route (routes.insert normalizedAlias ⟨route, .alias_⟩) aliases

/-- The route loop of `New`. -/
def insertRoutes : GoMap GoString RouteEntry → List Route → Except Err (GoMap GoString RouteEntry)
  | routes, [] => .ok routes
  | routes, route :: rest =>
    match HostAddr.normalize route.serverAddress with
    | .error err => .error err
    | .ok normalized =>
      let route := stored route normalized
      match insertAliases route (routes.insert normalized ⟨route, .canonical⟩) route.aliases with
      | .error err => .error err
      | .ok routes => insertRoutes routes rest

/-- `New`. -/
def new (env : Env) (cfg : Config) : Except Err Router :=
  match cfg.validate env with
  | some err => .error err
  | none =>
    match insertRoutes ∅ cfg.routes with
    | .error err => .error err
    | .ok routes => .ok ⟨routes, cfg.defaultRoute.backend, cfg.unknownHostPolicy⟩

/-- The selection a route entry stands for. -/
def RouteEntry.selection (entry : RouteEntry) : Selection where
  backend := entry.route.backend
  statusBackend := entry.route.statusBackend
  matchedBy := .route
  matchKind := entry.matchKind
  routeSource := entry.route.source
  canonicalServerAddress := entry.route.serverAddress
  statusOverride := entry.route.statusOverride

/-- The selection of the default backend. -/
def defaultSelection (backend : GoString) : Selection where
  backend := backend
  matchedBy := .default
  matchKind := .default
  routeSource := .default

/-- `fmt.Errorf("%w: %w", ErrInvalidServerAddress, err)`. -/
def invalidServerAddress (err : Err) : Err :=
  errorf (errInvalidServerAddress.text ++ go ": " ++ err.text) [errInvalidServerAddress, err]

/-- `fmt.Errorf("%w: %q", ErrNoRoute, address)`. -/
def noRoute (address : GoString) : Err :=
  errorf (errNoRoute.text ++ go ": " ++ quote address) [errNoRoute]

theorem invalidServerAddress_is (err : Err) :
    (invalidServerAddress err).is .invalidServerAddress = true := by
  simp [Err.is, invalidServerAddress, errorf, errInvalidServerAddress]

theorem noRoute_is (address : GoString) : (noRoute address).is .invalidServerAddress = false := by
  simp [Err.is, noRoute, errorf, errNoRoute]

/-- `Select`. -/
def select (r : Router) (serverAddress : GoString) : Except Err Selection :=
  match HostAddr.normalize serverAddress with
  | .error err => .error (invalidServerAddress err)
  | .ok address =>
    match r.routes.lookup address with
    | some entry => .ok (RouteEntry.selection entry)
    | none =>
      if r.unknownHostPolicy = unknownHostDefault ∧ r.defaultBackend ≠ [] then
        .ok (defaultSelection r.defaultBackend)
      else .error (noRoute address)

/-! ## The entries of a valid table -/

/-- What a route puts under `host`, in order: itself as canonical when that
is its address, then as alias once for each alias that normalises to it. -/
def entriesFor (host : GoString) (route : Route) : List RouteEntry :=
  match HostAddr.normalize route.serverAddress with
  | .error _ => []
  | .ok normalized =>
    (if normalized = host then [⟨stored route normalized, .canonical⟩] else []) ++
      ((hostsOf route.aliases).filter (· == host)).map fun _ => ⟨stored route normalized, .alias_⟩

/-- The alias loop stores the route under each alias. -/
theorem insertAliases_lookup (route : Route) (aliases : List GoString) :
    ∀ (routes : GoMap GoString RouteEntry),
      (∀ name ∈ aliases, ∃ host, HostAddr.normalize name = .ok host) →
      ∃ routes', insertAliases route routes aliases = .ok routes' ∧ ∀ host,
        routes'.lookup host =
          if host ∈ hostsOf aliases then some ⟨route, .alias_⟩ else routes.lookup host := by
  induction aliases with
  | nil => intro routes _; exact ⟨routes, rfl, by simp [hostsOf]⟩
  | cons name aliases ih =>
    intro routes hok
    obtain ⟨a, ha⟩ := hok name (by simp)
    obtain ⟨routes', hins, hlook⟩ := ih (routes.insert a ⟨route, .alias_⟩)
      fun b hb => hok b (by simp [hb])
    refine ⟨routes', by rw [insertAliases, ha]; exact hins, fun host => ?_⟩
    rw [hlook, hostsOf_cons_ok ha]
    by_cases hm : host ∈ hostsOf aliases
    · simp [hm]
    · by_cases heq : host = a
      · subst heq
        simp [hm]
      · simp [hm, heq, AList.lookup_insert_ne]

/-- The last entry a route puts under `host` is its alias when it has one. -/
theorem getLast_entriesFor {route : Route} {normalized : GoString}
    (h : HostAddr.normalize route.serverAddress = .ok normalized) (host : GoString) :
    (entriesFor host route).getLast? =
      if host ∈ hostsOf route.aliases then some ⟨stored route normalized, .alias_⟩
      else if host = normalized then some ⟨stored route normalized, .canonical⟩ else none := by
  simp only [entriesFor, h, List.getLast?_append]
  by_cases hm : host ∈ hostsOf route.aliases
  · have hne : (hostsOf route.aliases).filter (· == host) ≠ [] :=
      List.ne_nil_of_mem (List.mem_filter.mpr ⟨hm, by simp⟩)
    obtain ⟨t, b, hb⟩ := List.eq_nil_or_concat _ |>.resolve_left hne
    simp [hb, hm]
  · have hnil : (hostsOf route.aliases).filter (· == host) = [] :=
      List.filter_eq_nil_iff.mpr fun b hb => by
        simp only [beq_iff_eq]
        rintro rfl
        exact hm hb
    by_cases heq : host = normalized
    · subst heq
      simp [hnil, hm]
    · simp [hnil, hm, heq, Ne.symm heq]

/-- **The route loop stores, under each host, the last entry there is.** -/
theorem insertRoutes_lookup (rs : List Route) : ∀ (routes : GoMap GoString RouteEntry),
    (∀ route ∈ rs, route.Named) →
    ∃ routes', insertRoutes routes rs = .ok routes' ∧ ∀ host,
      routes'.lookup host = ((rs.flatMap (entriesFor host)).getLast?).or (routes.lookup host) := by
  induction rs with
  | nil => intro routes _; exact ⟨routes, rfl, by simp⟩
  | cons route rs ih =>
    intro routes hok
    have hnamed := hok route (by simp)
    obtain ⟨a, ha⟩ := hnamed route.serverAddress (by simp [Route.identities])
    obtain ⟨routes₁, hins₁, hlook₁⟩ := insertAliases_lookup (stored route a) route.aliases
      (routes.insert a ⟨stored route a, .canonical⟩)
      fun b hb => hnamed b (by simp [Route.identities, hb])
    obtain ⟨routes₂, hins₂, hlook₂⟩ := ih routes₁ fun r hr => hok r (by simp [hr])
    refine ⟨routes₂, ?_, fun host => ?_⟩
    · simp only [insertRoutes, ha]
      rw [show (stored route a).aliases = route.aliases from rfl, hins₁]
      exact hins₂
    · rw [hlook₂, hlook₁, List.flatMap_cons, List.getLast?_append, getLast_entriesFor ha,
        Option.or_assoc]
      refine congrArg (Option.or _) ?_
      by_cases hm : host ∈ hostsOf route.aliases
      · simp [hm]
      · by_cases heq : host = a
        · subst heq
          simp [hm]
        · simp [hm, heq, AList.lookup_insert_ne]

/-- A route has one entry under a host for each of its identities that
normalise to it. -/
theorem length_entriesFor {route : Route} (h : route.Named) (host : GoString) :
    (entriesFor host route).length = route.hosts.count host := by
  obtain ⟨a, ha⟩ := h route.serverAddress (by simp [Route.identities])
  rw [Route.hosts, Route.identities, hostsOf_cons_ok ha, List.count_cons]
  have hcount : ((hostsOf route.aliases).filter (· == host)).length =
      (hostsOf route.aliases).count host := List.count_eq_length_filter.symm
  by_cases heq : a = host
  · simp [entriesFor, ha, heq, hcount, Nat.add_comm]
  · simp [entriesFor, ha, heq, hcount]

/-- **On a valid table a host has at most one entry.** -/
theorem length_entries_le {rs : List Route} (h : RoutesValid rs) (host : GoString) :
    (rs.flatMap (entriesFor host)).length ≤ 1 := by
  have hlen : (rs.flatMap (entriesFor host)).length = (rs.flatMap Route.hosts).count host := by
    rw [List.length_flatMap, List.count_flatMap]
    refine congrArg List.sum (List.map_congr_left fun route hr => ?_)
    rw [length_entriesFor (h.named route hr) host, Function.comp_apply]
  rw [hlen]
  exact List.nodup_iff_count_le_one.mp h.distinct host

/-- **The router of a valid configuration**: under each host the one entry
the routes have for it. -/
theorem new_lookup {env : Env} {cfg : Config} (h : cfg.validate env = none) :
    ∃ r, new env cfg = .ok r ∧ r.defaultBackend = cfg.defaultRoute.backend ∧
      r.unknownHostPolicy = cfg.unknownHostPolicy ∧
      ∀ host, r.routes.lookup host = (cfg.routes.flatMap (entriesFor host)).getLast? := by
  have hvalid := (validate_eq_none.mp h).2
  obtain ⟨routes, hins, hlook⟩ := insertRoutes_lookup cfg.routes ∅ hvalid.named
  refine ⟨⟨routes, cfg.defaultRoute.backend, cfg.unknownHostPolicy⟩, ?_, rfl, rfl, fun host => ?_⟩
  · simp [new, h, hins]
  · simp [hlook]

end Router

end McRouter
