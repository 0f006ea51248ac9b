import McRouter.Discovery.MergeValid
import McRouter.Proto.Formats
import McRouter.Router

/-!
# Normalised names

The handshake, the configuration, the merge and the router each normalise
the names they are given, so one name is normalised up to four times on
its way. What makes that harmless is that `Normalize` returns a canonical
form (`canonical_form`). A name written in that form beforehand is the same
name to all of them, and comes out of them as it went in
(`normalized_names`).
-/

namespace McRouter

open Strings Unicode Netip Config Discovery Kubernetes Sorting Proto

/-! ## The canonical form -/

namespace HostAddr

/-- **A host in canonical form**: at most 253 bytes of ASCII without an
upper-case letter, an address without brackets or labels with dots in
between. -/
structure Canonical (host : GoString) : Prop where
  short : host.length ≤ 253
  ascii : IsAscii host
  lower : ∀ b ∈ host, ¬ (65 ≤ b ∧ b ≤ 90)
  form : (isIP host = true ∧ 91 ∉ host ∧ 93 ∉ host) ∨ ∀ label ∈ split 46 host, IsLabel label

/-- **`Normalize` returns a canonical form**, which it leaves as it is. -/
theorem canonical_form {address host : GoString} (h : normalize address = .ok host) :
    normalize host = .ok host ∧ Canonical host := by
  obtain ⟨-, hlen, hplain, -, hkind⟩ := normalize_ok h
  refine ⟨normalize_idem h, hlen, fun b hb => (hplain b hb).2.1, fun b hb => (hplain b hb).2.2.2.1, ?_⟩
  rcases hkind with hip | ⟨-, hlabels⟩
  · exact Or.inl ⟨hip, fun hb => (hplain 91 hb).2.2.2.2.1 rfl, fun hb => (hplain 93 hb).2.2.2.2.2 rfl⟩
  · exact Or.inr (labels_pass.mp hlabels)

end HostAddr

/-! ## The handshake -/

namespace Router

/-- A router reads a name as `Normalize` does. -/
theorem select_normalized (r : Router) {address host : GoString}
    (h : HostAddr.normalize address = .ok host) : r.select host = r.select address := by
  rw [select, select, h, HostAddr.normalize_idem h]

/-- **The route address of a handshake is as good as its server address.** -/
theorem select_routeAddress (r : Router) {maxAddress : Int32} {payload : GoString} {hs : Handshake}
    (h : HandshakeCode maxAddress payload hs) : r.select hs.routeAddress = r.select hs.serverAddress := by
  obtain ⟨-, -, -, -, -, -, -, hhost, -, -⟩ := h
  have haddress := select_normalized r hhost
  rwa [Handshake.routeAddress, hhost]

end Router

/-! ## Configurations -/

namespace Config

/-- The route with its names in canonical form, as far as they have one. -/
def Route.canonical (route : Route) : Route :=
  { route with
    serverAddress := normalizedOr route.serverAddress
    aliases := route.aliases.map normalizedOr }

/-- All names of the route are in canonical form. -/
def Route.Normalized (route : Route) : Prop :=
  ∀ identity ∈ route.identities, HostAddr.normalize identity = .ok identity

/-- The configuration with the names of its routes in canonical form. -/
def canonical (cfg : Config) : Config := { cfg with routes := cfg.routes.map Route.canonical }

theorem identities_canonical (route : Route) :
    route.canonical.identities = route.identities.map normalizedOr := by
  simp only [Route.identities, Route.canonical, List.map_cons]

/-- The identity loop sees no difference. -/
theorem validateIdentities_map_normalizedOr (i : ℕ) (ids : List GoString) :
    ∀ (k : ℕ) (seen : List GoString),
      validateIdentities i k seen (ids.map normalizedOr) = validateIdentities i k seen ids := by
  induction ids with
  | nil => intro k seen; rfl
  | cons id ids ih =>
    intro k seen
    simp only [List.map_cons, validateIdentities, normalize_normalizedOr, ih]

theorem validateRoutes_canonical (routes : List Route) : ∀ (i : ℕ) (seen : List GoString),
    validateRoutes i seen (routes.map Route.canonical) = validateRoutes i seen routes := by
  induction routes with
  | nil => intro i seen; rfl
  | cons route routes ih =>
    intro i seen
    have hbackends : validateRouteBackends i route.canonical = validateRouteBackends i route := by
      have hbackend : route.canonical.backend = route.backend := by rw [Route.canonical]
      have hstatus : route.canonical.statusBackend = route.statusBackend := by rw [Route.canonical]
      have hoverride : route.canonical.statusOverride = route.statusOverride := by rw [Route.canonical]
      rw [validateRouteBackends, validateRouteBackends, hbackend, hstatus, hoverride]
    simp only [List.map_cons, validateRoutes, identities_canonical,
      validateIdentities_map_normalizedOr, hbackends, ih]

/-- **Validation finds the same errors**, word for word. -/
theorem validate_canonical (env : Env) (cfg : Config) :
    cfg.canonical.validate env = cfg.validate env := by
  have hsections : sectionErrors env cfg.canonical = sectionErrors env cfg := rfl
  rw [validate, validate, hsections]
  exact congrArg (fun errs => errorsJoin (sectionErrors env cfg ++ errs))
    (validateRoutes_canonical cfg.routes 0 [])

end Config

/-! ## The router -/

namespace Router

/-- A route puts the same selections under a host. -/
theorem entriesFor_canonical (host : GoString) (route : Route) :
    (entriesFor host route.canonical).map RouteEntry.selection =
      (entriesFor host route).map RouteEntry.selection := by
  have hserver : HostAddr.normalize route.canonical.serverAddress =
      HostAddr.normalize route.serverAddress := by
    simp only [Route.canonical, normalize_normalizedOr]
  have haliases : hostsOf route.canonical.aliases = hostsOf route.aliases := by
    simp only [Route.canonical, hostsOf_map_normalizedOr]
  unfold entriesFor
  rw [hserver, haliases]
  cases HostAddr.normalize route.serverAddress with
  | error err => rfl
  | ok normalized =>
    have hselection : ∀ kind, RouteEntry.selection ⟨stored route.canonical normalized, kind⟩ =
        RouteEntry.selection ⟨stored route normalized, kind⟩ := by
      intro kind
      have hsource : route.canonical.source = route.source := by rw [Route.canonical]
      rw [RouteEntry.selection, RouteEntry.selection, stored, stored, hsource]
      simp only [Route.canonical]
    simp only [List.map_append, List.map_map, Function.comp_def, hselection]
    split
    · simp only [List.map_singleton, hselection]
    · rfl

/-- A selection depends on the entry of the host by its selection only. -/
theorem select_eq (r : Router) (address : GoString) : r.select address =
    match HostAddr.normalize address with
    | .error err => .error (invalidServerAddress err)
    | .ok host =>
      match (r.routes.lookup host).map RouteEntry.selection with
      | some selection => .ok selection
      | none =>
        if r.unknownHostPolicy = unknownHostDefault ∧ r.defaultBackend ≠ [] then
          .ok (defaultSelection r.defaultBackend)
        else .error (noRoute host) := by
  unfold select
  cases HostAddr.normalize address with
  | error err => rfl
  | ok host =>
    dsimp only
    cases r.routes.lookup host with
    | none => rfl
    | some entry => rfl

/-- **The router of a configuration selects the same.** -/
theorem new_canonical (env : Env) (cfg : Config) :
    (new env cfg.canonical).map select = (new env cfg).map select := by
  cases hvalid : cfg.validate env with
  | some err =>
    have hvalid' := (validate_canonical env cfg).trans hvalid
    rw [new, new, hvalid, hvalid']
  | none =>
    obtain ⟨r, hr, hdefault, hpolicy, hlookup⟩ := new_lookup hvalid
    obtain ⟨r', hr', hdefault', hpolicy', hlookup'⟩ :=
      new_lookup ((validate_canonical env cfg).trans hvalid)
    have hdefault₂ : r'.defaultBackend = r.defaultBackend := hdefault'.trans hdefault.symm
    have hpolicy₂ : r'.unknownHostPolicy = r.unknownHostPolicy := hpolicy'.trans hpolicy.symm
    have hentries : ∀ host, (r'.routes.lookup host).map RouteEntry.selection =
        (r.routes.lookup host).map RouteEntry.selection := by
      intro host
      rw [hlookup, hlookup', ← List.getLast?_map, ← List.getLast?_map, List.map_flatMap,
        List.map_flatMap, canonical, List.flatMap_map]
      simp only [entriesFor_canonical]
    rw [hr, hr']
    refine congrArg Except.ok (funext fun address => ?_)
    rw [select_eq, select_eq, hdefault₂, hpolicy₂]
    simp only [hentries]

/-- **Names in canonical form are stored as they are.** -/
theorem stored_of_normalized {env : Env} {cfg : Config} {r : Router}
    (hnormalized : ∀ route ∈ cfg.routes, route.Normalized) (hr : new env cfg = .ok r)
    {host : GoString} {entry : RouteEntry} (hentry : r.routes.lookup host = some entry) :
    ∃ route ∈ cfg.routes, host ∈ route.identities ∧ entry.route = stored route route.serverAddress := by
  have hvalid : cfg.validate env = none := by
    cases hvalid : cfg.validate env with
    | none => rfl
    | some err =>
      rw [new, hvalid] at hr
      cases hr
  obtain ⟨r', hr', -, -, hlookup⟩ := new_lookup hvalid
  obtain rfl : r = r' := Except.ok.inj (hr.symm.trans hr')
  rw [hlookup] at hentry
  obtain ⟨route, hroute, hmem⟩ := List.mem_flatMap.mp (List.mem_of_getLast? hentry)
  have hnames := hnormalized route hroute
  refine ⟨route, hroute, ?_⟩
  rw [entriesFor, hnames route.serverAddress List.mem_cons_self] at hmem
  rcases List.mem_append.mp hmem with hmem | hmem
  · split at hmem
    · rename_i heq
      rw [List.mem_singleton] at hmem
      exact ⟨heq ▸ List.mem_cons_self, by rw [hmem]⟩
    · cases hmem
  · obtain ⟨name, hname, rfl⟩ := List.mem_map.mp hmem
    obtain ⟨hhost, heq⟩ := List.mem_filter.mp hname
    obtain rfl : name = host := by simpa using heq
    -- an alias in canonical form is the host it normalises to
    obtain ⟨id, hid, hok⟩ := List.mem_filterMap.mp hhost
    rw [hnames id (List.mem_cons_of_mem _ hid)] at hok
    obtain rfl : id = name := Option.some.inj hok
    exact ⟨List.mem_cons_of_mem _ hid, rfl⟩

end Router

/-! ## The merge -/

namespace Discovery

theorem normalizedOr_idem (address : GoString) :
    normalizedOr (normalizedOr address) = normalizedOr address := by
  cases h : HostAddr.normalize address with
  | ok host => rw [normalizedOr_ok h, normalizedOr_ok (HostAddr.normalize_idem h)]
  | error err =>
    have hsame : normalizedOr address = address := by rw [normalizedOr, h]
    rw [hsame, hsame]

theorem normalizeStatic_canonical (route : Route) :
    normalizeStatic route.canonical = normalizeStatic route := by
  simp only [normalizeStatic, Route.canonical, normalizedOr_idem, List.map_map, Function.comp_def]

theorem staticHosts_canonical (staticRoutes : List Route) :
    staticHosts (staticRoutes.map Route.canonical) = staticHosts staticRoutes := by
  rw [staticHosts, staticHosts, List.flatMap_map]
  refine List.flatMap_congr fun route _ => ?_
  rw [Route.hosts, Route.hosts, identities_canonical, hostsOf_map_normalizedOr]

/-- **The merge does not see how a static route spells its names.** -/
theorem mergeRoutes_canonical (staticRoutes : List Route) (discovered : List DiscoveredRoute)
    (defaultRoute : DefaultRoute) :
    mergeRoutes (staticRoutes.map Route.canonical) discovered defaultRoute =
      mergeRoutes staticRoutes discovered defaultRoute := by
  have hstatic : (staticRoutes.map Route.canonical).map normalizeStatic =
      staticRoutes.map normalizeStatic := by
    rw [List.map_map]
    exact List.map_congr_left fun route _ => normalizeStatic_canonical route
  simp only [mergeRoutes, staticHosts_canonical, hstatic, List.length_map]

/-- The discovered route with its host in canonical form. -/
def canonicalHost (route : DiscoveredRoute) : DiscoveredRoute :=
  { route with host := normalizedOr route.host }

/-- An ignored one. -/
def canonicalIgnored (ignored : IgnoredDiscoveredRoute) : IgnoredDiscoveredRoute :=
  { ignored with host := normalizedOr ignored.host }

theorem validateDiscoveredRoute_canonicalHost (route : DiscoveredRoute) :
    validateDiscoveredRoute (canonicalHost route) = validateDiscoveredRoute route := by
  unfold validateDiscoveredRoute canonicalHost
  rw [normalize_normalizedOr]

theorem candidates_canonicalHost (discovered : List DiscoveredRoute) :
    candidates (discovered.map canonicalHost) = candidates discovered := by
  rw [candidates, List.filterMap_map]
  refine List.filterMap_congr fun route _ => ?_
  rw [Function.comp_apply, validateDiscoveredRoute_canonicalHost]

/-- A route that is not valid is reported under the host as it is spelt. -/
theorem ignoredInvalid_canonicalHost (discovered : List DiscoveredRoute) :
    ignoredInvalid (discovered.map canonicalHost) = (ignoredInvalid discovered).map canonicalIgnored := by
  rw [ignoredInvalid, ignoredInvalid, List.filterMap_map, List.map_filterMap]
  refine List.filterMap_congr fun route _ => ?_
  rw [Function.comp_apply, validateDiscoveredRoute_canonicalHost]
  cases validateDiscoveredRoute route with
  | ok c => rfl
  | error err => simp only [Option.map_some, canonicalIgnored, canonicalHost]

/-- A valid route that is ignored is reported under its host in canonical
form. -/
theorem canonicalIgnored_of_candidate {discovered : List DiscoveredRoute} {statics : List GoString}
    {cands : List DiscoveredRoute} {c : DiscoveredRoute} {i : IgnoredDiscoveredRoute}
    (hc : c ∈ candidates discovered) (hi : ignoreCandidate statics cands c = some i) :
    i.host = c.host ∧ canonicalIgnored i = i := by
  obtain ⟨route, -, hok⟩ := mem_candidates.mp hc
  have hhost : i.host = c.host := by
    unfold ignoreCandidate at hi
    split at hi
    · cases hi
      rfl
    split at hi
    · cases hi
      rfl
    · cases hi
  refine ⟨hhost, ?_⟩
  rw [canonicalIgnored, hhost, normalizedOr_ok (validateDiscoveredRoute_ok hok).2.1, ← hhost]

/-- **Nor how a discovered route spells its host**, except where it reports
a route that is not valid. -/
theorem mergeRoutes_canonicalHost (staticRoutes : List Route) (discovered : List DiscoveredRoute)
    (defaultRoute : DefaultRoute) :
    let merged := mergeRoutes staticRoutes discovered defaultRoute
    let merged' := mergeRoutes staticRoutes (discovered.map canonicalHost) defaultRoute
    merged'.routes = merged.routes ∧ merged'.stats = merged.stats ∧
      merged'.ignored.Perm (merged.ignored.map canonicalIgnored) := by
  intro merged merged'
  have hroutes : merged'.routes = merged.routes := by
    simp only [merged, merged', mergeRoutes, candidates_canonicalHost]
  have hignored : merged'.ignored.Perm (merged.ignored.map canonicalIgnored) := by
    simp only [merged, merged', mergeRoutes, candidates_canonicalHost, ignoredInvalid_canonicalHost]
    refine (sortStable_perm _ _).trans (List.Perm.trans ?_ ((sortStable_perm _ _).map _).symm)
    rw [List.map_append]
    refine List.Perm.append_left _ (List.Perm.of_eq ?_)
    rw [List.map_filterMap]
    refine List.filterMap_congr fun c hc => ?_
    cases hi : ignoreCandidate (staticHosts staticRoutes) (candidates discovered) c with
    | none => rfl
    | some i =>
      have hmem := (sortStable_perm lessDiscoveredCandidate (candidates discovered)).mem_iff.mp hc
      rw [Option.map_some, (canonicalIgnored_of_candidate hmem hi).2]
  refine ⟨hroutes, ?_, hignored⟩
  have hlength : merged'.ignored.length = merged.ignored.length := by
    rw [hignored.length_eq, List.length_map]
  have hreasons : ∀ reason, merged'.ignored.countP (fun i => i.reason == reason) =
      merged.ignored.countP fun i => i.reason == reason := by
    intro reason
    rw [hignored.countP_eq, List.countP_map]
    simp only [Function.comp_def, canonicalIgnored]
  show MergeStats.mk _ _ _ _ _ _ = MergeStats.mk _ _ _ _ _ _
  congr 1
  · exact List.length_map _
  · exact congrArg List.length hroutes
  · exact funext hreasons

variable {staticRoutes : List Route} {discovered : List DiscoveredRoute}

/-- **Merged routes have their names in canonical form.** -/
theorem canonical_of_merged {defaultRoute : DefaultRoute} {route : Route}
    (h : route ∈ (mergeRoutes staticRoutes discovered defaultRoute).routes) :
    route.canonical = route := by
  rcases List.mem_append.mp ((mergeRoutes_perm _ _ _).mem_iff.mp h) with hroute | hroute
  · obtain ⟨s, -, rfl⟩ := List.mem_map.mp hroute
    simp only [normalizeStatic, Route.canonical, normalizedOr_idem, List.map_map, Function.comp_def]
  · obtain ⟨c, hc, rfl⟩ := List.mem_map.mp hroute
    have hhost := normalizedOr_ok (accepted_ok hc).1
    simp only [discoveredRoute, Route.canonical, hhost, List.map_nil]

/-- **Names in canonical form come out of the merge as they went in.** -/
theorem merged_of_normalized {defaultRoute : DefaultRoute}
    (hstatic : ∀ s ∈ staticRoutes, s.Normalized)
    (hdiscovered : ∀ d ∈ discovered, HostAddr.normalize d.host = .ok d.host) {route : Route}
    (h : route ∈ (mergeRoutes staticRoutes discovered defaultRoute).routes) :
    (∃ s ∈ staticRoutes, route = { s with source := .static }) ∨
      ∃ d ∈ discovered, route.identities = [d.host] := by
  rcases List.mem_append.mp ((mergeRoutes_perm _ _ _).mem_iff.mp h) with hroute | hroute
  · obtain ⟨s, hs, rfl⟩ := List.mem_map.mp hroute
    have hserver := normalizedOr_ok (hstatic s hs _ List.mem_cons_self)
    have haliases : s.aliases.map normalizedOr = s.aliases := by
      conv_rhs => rw [← List.map_id s.aliases]
      exact List.map_congr_left fun name hname =>
        normalizedOr_ok (hstatic s hs name (List.mem_cons_of_mem _ hname))
    exact Or.inl ⟨s, hs, by rw [normalizeStatic, hserver, haliases]⟩
  · obtain ⟨c, hc, rfl⟩ := List.mem_map.mp hroute
    obtain ⟨d, hd, hok⟩ := mem_candidates.mp (mem_accepted.mp hc).1
    have hhost : c.host = d.host :=
      (Except.ok.inj ((validateDiscoveredRoute_ok hok).1.symm.trans (hdiscovered d hd)))
    exact Or.inr ⟨d, hd, by rw [← hhost]; rfl⟩

end Discovery

/-! ## All of it -/

/-- **Normalised names.** `Normalize` returns a canonical form and leaves it
as it is. So a router selects the same for the route address of a handshake
as for its server address. A configuration with its names normalised
beforehand gets the same verdict and the same router, and routes merge as
they would have; and names that are in canonical form stay as they are. -/
theorem normalized_names :
    (∀ s n, HostAddr.normalize s = .ok n → HostAddr.normalize n = .ok n ∧ HostAddr.Canonical n) ∧
    (∀ (r : Router) (limits : Limits) (payload : GoString) (hs : Handshake),
      parseHandshakePayload payload limits = .ok hs →
      r.select hs.routeAddress = r.select hs.serverAddress) ∧
    (∀ (env : Env) (cfg : Config), cfg.canonical.validate env = cfg.validate env ∧
      (Router.new env cfg.canonical).map Router.select = (Router.new env cfg).map Router.select ∧
      ∀ r, (∀ route ∈ cfg.routes, route.Normalized) → Router.new env cfg = .ok r →
        ∀ host entry, r.routes.lookup host = some entry → ∃ route ∈ cfg.routes,
          host ∈ route.identities ∧ entry.route = Router.stored route route.serverAddress) ∧
    (∀ (staticRoutes : List Route) (discovered : List DiscoveredRoute) (defaultRoute : DefaultRoute),
      let merged := mergeRoutes staticRoutes discovered defaultRoute
      let merged' := mergeRoutes staticRoutes (discovered.map canonicalHost) defaultRoute
      mergeRoutes (staticRoutes.map Route.canonical) discovered defaultRoute = merged ∧
      (merged'.routes = merged.routes ∧ merged'.stats = merged.stats ∧
        merged'.ignored.Perm (merged.ignored.map canonicalIgnored)) ∧
      (∀ route ∈ merged.routes, route.canonical = route) ∧
      ((∀ s ∈ staticRoutes, s.Normalized) →
        (∀ d ∈ discovered, HostAddr.normalize d.host = .ok d.host) → ∀ route ∈ merged.routes,
          (∃ s ∈ staticRoutes, route = { s with source := .static }) ∨
            ∃ d ∈ discovered, route.identities = [d.host])) := by
  refine ⟨fun s n h => HostAddr.canonical_form h, fun r limits payload hs h => ?_,
    fun env cfg => ⟨validate_canonical env cfg, Router.new_canonical env cfg, ?_⟩, ?_⟩
  · exact Router.select_routeAddress r (parseHandshakePayload_eq_ok.mp h)
  · intro r hnormalized hr host entry hentry
    exact Router.stored_of_normalized hnormalized hr hentry
  · intro staticRoutes discovered defaultRoute merged merged'
    refine ⟨mergeRoutes_canonical _ _ _, mergeRoutes_canonicalHost _ _ _, ?_, ?_⟩
    · exact fun route hroute => canonical_of_merged hroute
    · exact fun hstatic hdiscovered route hroute => merged_of_normalized hstatic hdiscovered hroute

end McRouter
