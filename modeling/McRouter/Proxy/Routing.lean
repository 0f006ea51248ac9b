import McRouter.Proxy.Snapshot
import McRouter.Discovery.MergeValid

/-!
# The routing decision

What the router of a snapshot answers, without the stages that compute it:
the one static route that has the host among its identities, else the one
valid discovered route for it, else the default backend where the policy
asks for that. `buildRouteSnapshot` succeeds on every valid configuration
whatever was discovered, and its router decides so
(`select_eq_decision`); the order of routes, aliases and discovered routes
is nowhere in the answer.
-/

namespace McRouter

namespace Proxy

open Strings Config Kubernetes Discovery Router

/-! ## The decision -/

/-- What a static route selects. -/
def staticSelection (route : Route) (kind : MatchKind) : Selection where
  backend := route.backend
  statusBackend := route.statusBackend
  matchedBy := .route
  matchKind := kind
  routeSource := .static
  canonicalServerAddress := normalizedOr route.serverAddress
  statusOverride := route.statusOverride

/-- The identities of a route that normalise to `host`, as selections. -/
def routeMatches (host : GoString) (route : Route) : List Selection :=
  (if HostAddr.normalize route.serverAddress = .ok host then [staticSelection route .canonical]
   else []) ++
  (route.aliases.filter fun name => HostAddr.normalize name = .ok host).map fun _ =>
    staticSelection route .alias_

/-- The static identities that normalise to `host`. -/
def staticMatches (routes : List Route) (host : GoString) : List Selection :=
  routes.flatMap (routeMatches host)

/-- What a discovered route selects. -/
def discoveredSelection (candidate : DiscoveredRoute) : Selection where
  backend := candidate.backend
  matchedBy := .route
  matchKind := .canonical
  routeSource := .discovered
  canonicalServerAddress := candidate.host

/-- **The decision for a normalised host.** -/
def decision (cfg : Config) (discovered : List DiscoveredRoute) (host : GoString) :
    Except Err Selection :=
  match staticMatches cfg.routes host with
  | selection :: _ => .ok selection
  | [] =>
    match (candidates discovered).filter (·.host == host) with
    | [candidate] => .ok (discoveredSelection candidate)
    | _ =>
      if cfg.unknownHostPolicy = unknownHostDefault then
        .ok (defaultSelection cfg.defaultRoute.backend)
      else .error (noRoute host)

/-- The only error of a decision is that there is no route. -/
theorem decision_error {cfg : Config} {discovered : List DiscoveredRoute} {host : GoString} {err : Err}
    (h : decision cfg discovered host = .error err) : err = noRoute host := by
  unfold decision at h
  split at h
  · cases h
  · split at h
    · cases h
    · split at h
      · cases h
      · cases h
        rfl

/-! ## The router decides so -/

/-- Lists of at most one element that agree up to order are equal. -/
theorem eq_of_perm_of_length_le_one {α : Type} {l l' : List α} (h : l.Perm l')
    (hlen : l.length ≤ 1) : l = l' := by
  match l, hlen with
  | [], _ => exact h.nil_eq
  | [a], _ => exact (List.singleton_perm.mp h)

/-- A valid configuration with discovered routes merged in is valid. -/
theorem validate_mergedConfig {env : Env} {cfg : Config} (h : cfg.validate env = none)
    (discovered : List DiscoveredRoute) : (mergedConfig cfg discovered).validate env = none := by
  obtain ⟨hsec, hroutes⟩ := validate_eq_none.mp h
  exact validate_eq_none.mpr ⟨hsec, mergeRoutes_valid hroutes discovered cfg.defaultRoute⟩

theorem hostsOf_filter (ids : List GoString) (host : GoString) :
    ((hostsOf ids).filter (· == host)).length =
      (ids.filter fun id => HostAddr.normalize id = .ok host).length := by
  induction ids with
  | nil => simp [hostsOf]
  | cons id ids ih =>
    cases hid : HostAddr.normalize id with
    | error err =>
      rw [hostsOf_cons_error hid, ih]
      simp [hid]
    | ok a =>
      rw [hostsOf_cons_ok hid]
      by_cases h : a = host <;> simp [hid, h, ih]

/-- The entries of a static route, seen as selections. -/
theorem selections_normalizeStatic {route : Route} (h : route.Named) (host : GoString) :
    (entriesFor host (normalizeStatic route)).map RouteEntry.selection = routeMatches host route := by
  obtain ⟨a, ha⟩ := h route.serverAddress (by simp [Route.identities])
  have haddress : (normalizeStatic route).serverAddress = normalizedOr route.serverAddress := by
    simp only [normalizeStatic]
  have hserver : HostAddr.normalize (normalizeStatic route).serverAddress = .ok a := by
    rw [haddress, normalize_normalizedOr, ha]
  have haliases : hostsOf (normalizeStatic route).aliases = hostsOf route.aliases :=
    hostsOf_map_normalizedOr route.aliases
  have hsel : ∀ kind, RouteEntry.selection ⟨stored (normalizeStatic route) a, kind⟩ =
      staticSelection route kind := by
    intro kind
    simp [RouteEntry.selection, stored, normalizeStatic, staticSelection, normalizedOr, ha]
  simp only [entriesFor, hserver, haliases, routeMatches, ha, Except.ok.injEq, List.map_append,
    List.map_const', hostsOf_filter]
  by_cases heq : a = host <;> simp [heq, ← hsel]

/-- The entry of a discovered route. -/
theorem entriesFor_discoveredRoute {c : DiscoveredRoute}
    (h : HostAddr.normalize c.host = .ok c.host) (host : GoString) :
    entriesFor host (discoveredRoute c) =
      if c.host == host then [⟨discoveredRoute c, .canonical⟩] else [] := by
  have hserver : HostAddr.normalize (discoveredRoute c).serverAddress = .ok c.host := h
  have haliases : hostsOf (discoveredRoute c).aliases = [] := rfl
  simp only [entriesFor, hserver, haliases, List.filter_nil, List.map_nil, List.append_nil,
    beq_iff_eq]
  rfl

theorem flatMap_discovered {l : List DiscoveredRoute}
    (h : ∀ c ∈ l, HostAddr.normalize c.host = .ok c.host) (host : GoString) :
    (l.map discoveredRoute).flatMap (entriesFor host) =
      (l.filter (·.host == host)).map fun c => ⟨discoveredRoute c, .canonical⟩ := by
  induction l with
  | nil => rfl
  | cons c l ih =>
    rw [List.map_cons, List.flatMap_cons, entriesFor_discoveredRoute (h c (by simp)),
      ih fun d hd => h d (by simp [hd])]
    by_cases heq : c.host = host <;> simp [heq]

/-- With no static route for the host, the accepted routes for it are the
valid ones when there is one, and none when there are several. -/
theorem accepted_filter {routes : List Route} {discovered : List DiscoveredRoute} {host : GoString}
    (h : host ∉ staticHosts routes) :
    (accepted routes discovered).filter (·.host == host) =
      if hostCount (candidates discovered) host ≤ 1 then
        (candidates discovered).filter (·.host == host) else [] := by
  rw [accepted, List.filter_filter]
  split
  · rename_i hcount
    refine List.filter_congr fun c hc => ?_
    by_cases heq : c.host = host
    · simp [heq, ignoreCandidate, h, Nat.not_lt.mpr hcount]
    · simp [heq]
  · rename_i hcount
    refine List.filter_eq_nil_iff.mpr fun c hc => ?_
    by_cases heq : c.host = host
    · simp [heq, ignoreCandidate, Nat.lt_of_not_le hcount]
    · simp [heq]

theorem length_staticMatches {routes : List Route} (h : RoutesValid routes) (host : GoString) :
    (staticMatches routes host).length = (staticHosts routes).count host := by
  rw [staticMatches, staticHosts, List.length_flatMap, List.count_flatMap]
  refine congrArg List.sum (List.map_congr_left fun route hr => ?_)
  rw [← selections_normalizeStatic (h.named route hr), List.length_map,
    length_entriesFor (named_normalizeStatic (h.named route hr)),
    hosts_normalizeStatic route, Function.comp_apply]

theorem mem_staticHosts {routes : List Route} (h : RoutesValid routes) {host : GoString} :
    host ∈ staticHosts routes ↔ staticMatches routes host ≠ [] := by
  rw [← List.count_pos_iff, ← length_staticMatches h, List.length_pos_iff]

/-- **Under a host the router has the static identity or the accepted
discovered route.** -/
theorem entries_mergedConfig {cfg : Config} (h : RoutesValid cfg.routes)
    (discovered : List DiscoveredRoute) (host : GoString) :
    (((mergedConfig cfg discovered).routes.flatMap (entriesFor host)).map RouteEntry.selection =
      staticMatches cfg.routes host ++
        ((accepted cfg.routes discovered).filter (·.host == host)).map discoveredSelection) ∧
      ((mergedConfig cfg discovered).routes.flatMap (entriesFor host)).length ≤ 1 := by
  have hlen := length_entries_le (mergeRoutes_valid h discovered cfg.defaultRoute) host
  refine ⟨?_, hlen⟩
  have hperm := ((mergeRoutes_perm cfg.routes discovered cfg.defaultRoute).flatMap_right
    (entriesFor host))
  rw [show (mergedConfig cfg discovered).routes =
      (mergeRoutes cfg.routes discovered cfg.defaultRoute).routes from rfl,
    eq_of_perm_of_length_le_one hperm hlen, List.flatMap_append, List.map_append]
  refine congrArg₂ (· ++ ·) ?_ ?_
  · rw [List.flatMap_map, List.map_flatMap, staticMatches]
    exact List.flatMap_congr fun route hr => selections_normalizeStatic (h.named route hr) host
  · rw [flatMap_discovered, List.map_map]
    · rfl
    · intro c hc
      obtain ⟨route, -, hok⟩ := mem_candidates.mp (mem_accepted.mp hc).1
      exact (validateDiscoveredRoute_ok hok).2.1

/-- Where the policy is `default` there is a default backend. -/
theorem defaultBackend_ne {env : Env} {cfg : Config} (h : cfg.validate env = none)
    (hpolicy : cfg.unknownHostPolicy = unknownHostDefault) : cfg.defaultRoute.backend ≠ [] := by
  have hsec := List.flatten_eq_nil_iff.mp (validate_eq_none.mp h).1
    (validateUnknownHost cfg.unknownHostPolicy cfg.defaultRoute)
    (by iterate 18 apply List.mem_cons_of_mem
        exact List.mem_cons_self)
  intro hnil
  rw [hpolicy, validateUnknownHost, hnil] at hsec
  exact absurd (List.append_eq_nil_iff.mp hsec).1 (by decide)

/-- **The router of a snapshot answers with the decision.** -/
theorem select_eq_decision {env : Env} {cfg : Config} (h : cfg.validate env = none)
    (discovered : List DiscoveredRoute) :
    ∃ snapshot, buildRouteSnapshot env cfg discovered = .ok snapshot ∧
      ∀ address host, HostAddr.normalize address = .ok host →
        snapshot.router.select address = decision cfg discovered host := by
  have hvalid := (validate_eq_none.mp h).2
  obtain ⟨r, hnew, hback, hpol, hlook⟩ := new_lookup (validate_mergedConfig h discovered)
  have hbuild : buildRouteSnapshot env cfg discovered = .ok ⟨cfg, mergedConfig cfg discovered, r,
      mergeRoutes cfg.routes discovered cfg.defaultRoute, discovered⟩ := by
    simp only [buildRouteSnapshot, h, hnew]
  refine ⟨_, hbuild, fun address host hnorm => ?_⟩
  obtain ⟨hentries, hlen⟩ := entries_mergedConfig hvalid discovered host
  have hmap : (r.routes.lookup host).map RouteEntry.selection =
      (staticMatches cfg.routes host ++
        ((accepted cfg.routes discovered).filter (·.host == host)).map discoveredSelection).getLast? := by
    rw [hlook, ← hentries, List.getLast?_map]
  have hlen' := hentries ▸ (List.length_map RouteEntry.selection).trans_le hlen
  have hselect : r.select address = ((r.routes.lookup host).map RouteEntry.selection).elim
      (if cfg.unknownHostPolicy = unknownHostDefault then
        .ok (defaultSelection cfg.defaultRoute.backend) else .error (noRoute host)) .ok := by
    have hback : r.defaultBackend = cfg.defaultRoute.backend := hback
    have hpol : r.unknownHostPolicy = cfg.unknownHostPolicy := hpol
    simp only [select, hnorm, hback, hpol]
    cases r.routes.lookup host with
    | some entry => rfl
    | none =>
      by_cases hdef : cfg.unknownHostPolicy = unknownHostDefault
      · simp [hdef, defaultBackend_ne h hdef]
      · simp [hdef]
  change r.select address = _
  rw [hselect, hmap, decision]
  cases hstatic : staticMatches cfg.routes host with
  | cons selection rest =>
    -- one static identity, so it is the whole list
    rw [hstatic, List.length_append, List.length_cons] at hlen'
    have hrest : rest = [] := List.eq_nil_of_length_eq_zero (by omega)
    have hacc : ((accepted cfg.routes discovered).filter (·.host == host)).map discoveredSelection = [] :=
      List.eq_nil_of_length_eq_zero (by omega)
    simp [hrest, hacc]
  | nil =>
    have hnot : host ∉ staticHosts cfg.routes := fun hm =>
      (mem_staticHosts hvalid).mp hm hstatic
    have hcount : hostCount (candidates discovered) host =
        ((candidates discovered).filter (·.host == host)).length := List.countP_eq_length_filter
    rw [accepted_filter hnot, hcount]
    generalize (candidates discovered).filter (·.host == host) = found
    cases found with
    | nil => simp
    | cons c found =>
      cases found with
      | nil => simp
      | cons d l => simp

/-! ## Order does not matter -/

/-- The same route with its aliases in another order. -/
def SameRoute (route route' : Route) : Prop :=
  ∃ aliases, route.aliases.Perm aliases ∧ route' = { route with aliases }

/-- Route tables that differ in the order of routes and of aliases only. -/
def Reordered (routes routes' : List Route) : Prop :=
  ∃ mid, routes.Perm mid ∧ List.Forall₂ SameRoute mid routes'

section Reordered

variable {route route' : Route} {routes routes' : List Route}

theorem SameRoute.identities_perm (h : SameRoute route route') :
    route.identities.Perm route'.identities := by
  obtain ⟨aliases, hperm, rfl⟩ := h
  exact hperm.cons _

theorem SameRoute.hosts_perm (h : SameRoute route route') : route.hosts.Perm route'.hosts := by
  unfold Route.hosts hostsOf
  exact h.identities_perm.filterMap _

theorem SameRoute.routeMatches_perm (h : SameRoute route route') (host : GoString) :
    (routeMatches host route).Perm (routeMatches host route') := by
  obtain ⟨aliases, hperm, rfl⟩ := h
  exact List.Perm.append_left _ ((hperm.filter _).map _)

/-- What each route contributes, the table contributes. -/
theorem flatMap_perm_of_forall₂ {β : Type} {f : Route → List β}
    (hf : ∀ r r', SameRoute r r' → (f r).Perm (f r')) (h : List.Forall₂ SameRoute routes routes') :
    (routes.flatMap f).Perm (routes'.flatMap f) := by
  induction h with
  | nil => exact List.Perm.refl _
  | cons hr _ ih => exact (hf _ _ hr).append ih

theorem Reordered.flatMap_perm {β : Type} {f : Route → List β}
    (hf : ∀ r r', SameRoute r r' → (f r).Perm (f r')) (h : Reordered routes routes') :
    (routes.flatMap f).Perm (routes'.flatMap f) := by
  obtain ⟨mid, hperm, hall⟩ := h
  exact (hperm.flatMap_right f).trans (flatMap_perm_of_forall₂ hf hall)

/-- Every route of a reordered table is a route of the other. -/
theorem Reordered.exists_of_mem (h : Reordered routes routes') (hr : route' ∈ routes') :
    ∃ route ∈ routes, SameRoute route route' := by
  obtain ⟨mid, hperm, hall⟩ := h
  obtain ⟨r, hmid, hsame⟩ : ∃ r ∈ mid, SameRoute r route' := by
    clear hperm
    induction hall with
    | nil => cases hr
    | cons hsame _ ih =>
      rcases List.mem_cons.mp hr with rfl | hr
      · exact ⟨_, List.mem_cons_self, hsame⟩
      · obtain ⟨r, hm, hs⟩ := ih hr
        exact ⟨r, List.mem_cons_of_mem _ hm, hs⟩
  exact ⟨r, hperm.mem_iff.mpr hmid, hsame⟩

theorem Reordered.valid (h : Reordered routes routes') (hv : RoutesValid routes) :
    RoutesValid routes' where
  named route' hr id hid := by
    obtain ⟨route, hm, hsame⟩ := h.exists_of_mem hr
    exact hv.named route hm id (hsame.identities_perm.mem_iff.mpr hid)
  backends route' hr := by
    obtain ⟨route, hm, aliases, -, rfl⟩ := h.exists_of_mem hr
    exact hv.backends route hm
  distinct := (h.flatMap_perm fun _ _ hs => hs.hosts_perm).nodup_iff.mp hv.distinct

end Reordered

theorem length_staticMatches_le {routes : List Route} (h : RoutesValid routes) (host : GoString) :
    (staticMatches routes host).length ≤ 1 := by
  rw [length_staticMatches h]
  exact List.nodup_iff_count_le_one.mp h.distinct host

/-- The decision does not see the order of anything. -/
theorem decision_perm {cfg : Config} {routes' : List Route}
    {discovered discovered' : List DiscoveredRoute}
    (hv : RoutesValid cfg.routes) (hr : Reordered cfg.routes routes')
    (hd : discovered.Perm discovered') (host : GoString) :
    decision { cfg with routes := routes' } discovered' host = decision cfg discovered host := by
  have hstatic : staticMatches cfg.routes host = staticMatches routes' host :=
    eq_of_perm_of_length_le_one (hr.flatMap_perm fun _ _ hs => hs.routeMatches_perm host)
      (length_staticMatches_le hv host)
  have hfound : ((candidates discovered).filter (·.host == host)).Perm
      ((candidates discovered').filter (·.host == host)) := (hd.filterMap _).filter _
  simp only [decision, ← hstatic]
  split
  · rfl
  · generalize (candidates discovered).filter (·.host == host) = found at hfound
    generalize (candidates discovered').filter (·.host == host) = found' at hfound
    match found, found', hfound, hfound.length_eq with
    | [], [], _, _ => rfl
    | [c], [c'], h, _ => rw [List.singleton_perm.mp h |> List.singleton_inj.mp]
    | c :: d :: l, c' :: d' :: l', _, _ => rfl

/-- **The routing decision.** On every valid configuration and whatever was
discovered, the snapshot is built. Its router calls an address invalid
exactly when it does not normalise. Otherwise at most one static identity
normalises to the host, and the answer is the decision. Reordering routes,
aliases or discovered routes gives a router with the same answers. -/
theorem routing_decision {env : Env} {cfg : Config} (h : cfg.validate env = none)
    (discovered : List DiscoveredRoute) :
    ∃ snapshot, buildRouteSnapshot env cfg discovered = .ok snapshot ∧
      (∀ address, ((∃ err, snapshot.router.select address = .error err ∧ err.is .invalidServerAddress) ↔
        ∃ err, HostAddr.normalize address = .error err)) ∧
      (∀ address host, HostAddr.normalize address = .ok host →
        (staticMatches cfg.routes host).length ≤ 1 ∧
          snapshot.router.select address = decision cfg discovered host) ∧
      ∀ routes' discovered', Reordered cfg.routes routes' → discovered.Perm discovered' →
        ∃ snapshot', buildRouteSnapshot env { cfg with routes := routes' } discovered' = .ok snapshot' ∧
          ∀ address, snapshot'.router.select address = snapshot.router.select address := by
  obtain ⟨hsec, hvalid⟩ := validate_eq_none.mp h
  obtain ⟨snapshot, hbuild, hsel⟩ := select_eq_decision h discovered
  refine ⟨snapshot, hbuild, fun address => ?_, fun address host hn =>
    ⟨length_staticMatches_le hvalid host, hsel address host hn⟩, fun routes' discovered' hr hd => ?_⟩
  · constructor
    · rintro ⟨err, herr, his⟩
      cases hn : HostAddr.normalize address with
      | error e => exact ⟨e, rfl⟩
      | ok host =>
        rw [hsel address host hn] at herr
        rw [decision_error herr, noRoute_is] at his
        cases his
    · rintro ⟨err, herr⟩
      exact ⟨invalidServerAddress err, by simp only [select, herr], invalidServerAddress_is err⟩
  · have h' : ({ cfg with routes := routes' } : Config).validate env = none :=
      validate_eq_none.mpr ⟨hsec, hr.valid hvalid⟩
    obtain ⟨snapshot', hbuild', hsel'⟩ := select_eq_decision h' discovered'
    refine ⟨snapshot', hbuild', fun address => ?_⟩
    cases hn : HostAddr.normalize address with
    | error e => simp only [select, hn]
    | ok host => rw [hsel address host hn, hsel' address host hn, decision_perm hvalid hr hd]

/-- An environment with no variables set, where every address resolves. -/
def emptyEnv : Env := ⟨fun _ => [], fun _ => none, fun _ => none, fun _ => none⟩

/-- A route with an alias. -/
def playRoute : Route where
  serverAddress := go "Play.Example.com"
  aliases := [go "alias.example.com"]
  backend := go "10.0.0.1:25565"

def playConfig : Config := { routes := [playRoute] }

theorem playConfig_valid : playConfig.validate emptyEnv = none := by
  decide +kernel

/-- Two Services for one host, one for another, and one for a static host. -/
def playDiscovered : List DiscoveredRoute :=
  [⟨go "twice.example.com", go "a.mc.svc.cluster.local:25565"⟩,
   ⟨go "Once.Example.com.", go "b.mc.svc.cluster.local:25565"⟩,
   ⟨go "TWICE.example.com", go "c.mc.svc.cluster.local:25565"⟩,
   ⟨go "alias.example.com", go "d.mc.svc.cluster.local:25565"⟩]

theorem routing_decision_play :
    ∃ snapshot, buildRouteSnapshot emptyEnv playConfig playDiscovered = .ok snapshot ∧
      snapshot.router.select (go "ALIAS.example.com") = .ok (staticSelection playRoute .alias_) ∧
      snapshot.router.select (go "once.example.com") =
        .ok (discoveredSelection ⟨go "once.example.com", go "b.mc.svc.cluster.local:25565"⟩) ∧
      snapshot.router.select (go "twice.example.com") = .error (noRoute (go "twice.example.com")) := by
  obtain ⟨snapshot, hbuild, -, hsel, -⟩ := routing_decision playConfig_valid playDiscovered
  exact ⟨snapshot, hbuild,
    (hsel _ (go "alias.example.com") (by decide +kernel)).2.trans (by decide +kernel),
    (hsel _ (go "once.example.com") (by decide +kernel)).2.trans (by decide +kernel),
    (hsel _ (go "twice.example.com") (by decide +kernel)).2.trans (by decide +kernel)⟩

/-- **Discovery never blocks routing.** Whatever strings are discovered, a
valid configuration is still valid with the merged routes in place of its
own, and its snapshot is built. -/
theorem discovery_never_blocks {env : Env} {cfg : Config} (h : cfg.validate env = none)
    (discovered : List DiscoveredRoute) :
    (∀ defaultRoute, ({ cfg with routes := (mergeRoutes cfg.routes discovered defaultRoute).routes } :
      Config).validate env = none) ∧
    ∃ snapshot, buildRouteSnapshot env cfg discovered = .ok snapshot := by
  obtain ⟨hsections, hroutes⟩ := validate_eq_none.mp h
  constructor
  · intro defaultRoute
    exact validate_eq_none.mpr ⟨hsections, mergeRoutes_valid hroutes discovered defaultRoute⟩
  · obtain ⟨snapshot, hbuild, -⟩ := select_eq_decision h discovered
    exact ⟨snapshot, hbuild⟩

/-- Blank hosts, bad backends and a host in another case do no harm. -/
theorem discovery_never_blocks_play :
    ∃ snapshot, buildRouteSnapshot emptyEnv playConfig
      [⟨[], []⟩, ⟨go "\x00", go "]:1"⟩, ⟨go "PLAY.example.com.", go "a.b.svc.c:1"⟩,
        ⟨go "x", go "a.b.svc.c:99999"⟩] = .ok snapshot :=
  (discovery_never_blocks playConfig_valid _).2

end Proxy

end McRouter
