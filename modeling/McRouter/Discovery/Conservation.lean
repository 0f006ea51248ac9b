import McRouter.Common.Placement
import McRouter.Discovery.MergeValid

/-!
# Merging loses and invents nothing

Each static route comes out of `MergeRoutes` once, with its names
normalised and marked as static. Each discovered route comes out once as
well, as a route or as an entry of `Ignored` (`fate`), and the statistics
count them. **Nothing of the result depends on the order of either list**:
once the static hosts are distinct, the comparison functions tell any two
entries apart.
-/

namespace McRouter

namespace Discovery

open Strings Unicode Config Kubernetes Sorting Placement

/-! ## Where each route goes -/

section Fate

variable (statics : List GoString) (cands : List DiscoveredRoute)

/-- What becomes of a discovered route. -/
def fate (entry : DiscoveredRoute) : Route ⊕ IgnoredDiscoveredRoute :=
  match validateDiscoveredRoute entry with
  | .error err => .inr ⟨entry.host, entry.backend, .invalidDiscovered, err⟩
  | .ok c => match ignoreCandidate statics cands c with
    | some ignored => .inr ignored
    | none => .inl (discoveredRoute c)

/-- A discovered route is ignored for `reason`. -/
def IgnoredFor (reason : IgnoreReason) (entry : DiscoveredRoute) : Prop :=
  ∃ ignored, fate statics cands entry = .inr ignored ∧ ignored.reason = reason

/-- For which reason a discovered route is ignored. -/
theorem ignoredFor_iff (entry : DiscoveredRoute) :
    (IgnoredFor statics cands .invalidDiscovered entry ↔
      ∃ err, validateDiscoveredRoute entry = .error err) ∧
    (IgnoredFor statics cands .duplicateDiscovered entry ↔
      ∃ c, validateDiscoveredRoute entry = .ok c ∧ 1 < hostCount cands c.host) ∧
    (IgnoredFor statics cands .staticRoutePrecedence entry ↔
      ∃ c, validateDiscoveredRoute entry = .ok c ∧ hostCount cands c.host ≤ 1 ∧
        c.host ∈ statics) := by
  unfold IgnoredFor fate
  cases hval : validateDiscoveredRoute entry with
  | error err => simp
  | ok c =>
    unfold ignoreCandidate
    by_cases hdup : 1 < hostCount cands c.host
    · simp [hdup]
    have hle := Nat.le_of_not_lt hdup
    by_cases hstatic : c.host ∈ statics
    · simp [hdup, hle, hstatic]
    · simp [hdup, hstatic]

/-- Which discovered routes are taken, and as what. -/
theorem fate_eq_inl (entry : DiscoveredRoute) (route : Route) :
    fate statics cands entry = .inl route ↔
      ∃ c, validateDiscoveredRoute entry = .ok c ∧ hostCount cands c.host ≤ 1 ∧
        c.host ∉ statics ∧ route = discoveredRoute c := by
  unfold fate
  cases hval : validateDiscoveredRoute entry with
  | error err => simp
  | ok c =>
    unfold ignoreCandidate
    by_cases hdup : 1 < hostCount cands c.host
    · simp [hdup]
    have hle := Nat.le_of_not_lt hdup
    by_cases hstatic : c.host ∈ statics
    · simp [hdup, hstatic]
    · simp [hdup, hle, hstatic, eq_comm]

/-- The discovered part of `Routes`, before it is sorted. -/
theorem taken_eq (discovered : List DiscoveredRoute) :
    ((candidates discovered).filter fun c => (ignoreCandidate statics cands c).isNone).map
      discoveredRoute = discovered.filterMap fun entry => (fate statics cands entry).getLeft? := by
  rw [candidates, List.filter_filterMap, List.map_filterMap]
  refine List.filterMap_congr fun entry _ => ?_
  unfold fate
  cases validateDiscoveredRoute entry with
  | error err => rfl
  | ok c =>
    cases h : ignoreCandidate statics cands c with
    | none => simp [Except.toOption, h]
    | some ignored => simp [Except.toOption, h]

/-- `Ignored`, before it is sorted. -/
theorem ignored_perm (discovered : List DiscoveredRoute) :
    (ignoredInvalid discovered ++ (candidates discovered).filterMap
      (ignoreCandidate statics cands)).Perm
      (discovered.filterMap fun entry => (fate statics cands entry).getRight?) := by
  rw [candidates, List.filterMap_filterMap, ignoredInvalid]
  refine filterMap_append_perm fun entry _ => ?_
  unfold fate
  cases validateDiscoveredRoute entry with
  | error err => exact Or.inr ⟨rfl, rfl⟩
  | ok c =>
    refine Or.inl ⟨rfl, ?_⟩
    cases h : ignoreCandidate statics cands c with
    | none => simp [Except.toOption, h]
    | some ignored => simp [Except.toOption, h]

variable {statics cands}

/-- It does not matter in which order the hosts and the candidates come. -/
theorem fate_congr {statics' : List GoString} {cands' : List DiscoveredRoute}
    (hstatics : statics.Perm statics') (hcands : cands.Perm cands') :
    fate statics cands = fate statics' cands' := by
  have hignore : ignoreCandidate statics cands = ignoreCandidate statics' cands' := by
    funext c
    unfold ignoreCandidate hostCount
    rw [hcands.countP_eq]
    exact if_congr Iff.rfl rfl (if_congr hstatics.mem_iff rfl rfl)
  funext entry
  simp only [fate, hignore]

end Fate

variable {staticRoutes staticRoutes' : List Route} {discovered discovered' : List DiscoveredRoute}

/-- A static route as the merge returns it: the names normalised, the
source set, the rest as it was. -/
structure ComesOutAs (route merged : Route) : Prop where
  serverAddress : HostAddr.normalize route.serverAddress = .ok merged.serverAddress
  aliases : List.Forall₂ (fun name host => HostAddr.normalize name = .ok host)
    route.aliases merged.aliases
  backend : merged.backend = route.backend
  statusBackend : merged.statusBackend = route.statusBackend
  statusOverride : merged.statusOverride = route.statusOverride
  source : merged.source = .static

theorem comesOutAs_normalizeStatic {route : Route} (h : route.Named) :
    ComesOutAs route (normalizeStatic route) where
  serverAddress := by
    obtain ⟨host, hok⟩ := h _ List.mem_cons_self
    rw [hok, normalizeStatic, normalizedOr_ok hok]
  aliases := by
    refine List.forall₂_map_right_iff.mpr (List.forall₂_same.mpr fun name hname => ?_)
    obtain ⟨host, hok⟩ := h name (List.mem_cons_of_mem _ hname)
    rw [hok, normalizedOr_ok hok]
  backend := by rw [normalizeStatic]
  statusBackend := by rw [normalizeStatic]
  statusOverride := by rw [normalizeStatic]
  source := by rw [normalizeStatic]

/-! ## The routes -/

/-- The names of a static route, merged, are its hosts. -/
theorem identities_of_named {route : Route} (h : route.Named) :
    (normalizeStatic route).identities = route.hosts := by
  rw [identities_normalizeStatic, Route.hosts, hostsOf, ← List.filterMap_eq_map]
  refine List.filterMap_congr fun name hname => ?_
  obtain ⟨host, hok⟩ := h name hname
  show some (normalizedOr name) = _
  rw [hok, normalizedOr_ok hok]
  rfl

/-- The names in a merged table are the static hosts and the accepted
ones. -/
theorem identities_merged (hnamed : ∀ route ∈ staticRoutes, route.Named) :
    (staticRoutes.map normalizeStatic ++
      (accepted staticRoutes discovered).map discoveredRoute).flatMap Route.identities =
      staticHosts staticRoutes ++ (accepted staticRoutes discovered).map (·.host) := by
  rw [List.flatMap_append, List.flatMap_map, List.flatMap_map, staticHosts, List.map_eq_flatMap]
  exact congrArg (· ++ _) (List.flatMap_congr fun r hr => identities_of_named (hnamed r hr))

theorem serverAddress_sublist (routes : List Route) :
    (routes.map (·.serverAddress)).Sublist (routes.flatMap Route.identities) := by
  induction routes with
  | nil => exact List.Sublist.slnil
  | cons route routes ih =>
    rw [List.map_cons, List.flatMap_cons, Route.identities, List.cons_append]
    exact (ih.trans (List.sublist_append_right _ _)).cons_cons _

/-- **Every route is placed once**: the merged routes are the static ones
and the discovered ones that are taken, the rest is ignored. -/
theorem mergeRoutes_fate (staticRoutes : List Route) (discovered : List DiscoveredRoute)
    (defaultRoute : DefaultRoute) :
    let way := fate (staticHosts staticRoutes) (candidates discovered)
    (mergeRoutes staticRoutes discovered defaultRoute).routes.Perm
      (staticRoutes.map normalizeStatic ++
        discovered.filterMap fun entry => (way entry).getLeft?) ∧
    (mergeRoutes staticRoutes discovered defaultRoute).ignored.Perm
      (discovered.filterMap fun entry => (way entry).getRight?) := by
  refine ⟨?_, ?_⟩
  · rw [← taken_eq]
    exact mergeRoutes_perm staticRoutes discovered defaultRoute
  · refine List.Perm.trans ?_ (ignored_perm _ _ discovered)
    refine (sortStable_perm _ _).trans (List.Perm.append_left _ ?_)
    exact (sortStable_perm _ _).filterMap _

/-- The statistics are counts of the other two. -/
theorem mergeRoutes_eq (staticRoutes : List Route) (discovered : List DiscoveredRoute)
    (defaultRoute : DefaultRoute) :
    mergeRoutes staticRoutes discovered defaultRoute =
      let routes := (mergeRoutes staticRoutes discovered defaultRoute).routes
      let ignored := (mergeRoutes staticRoutes discovered defaultRoute).ignored
      ⟨routes, ignored, staticRoutes.length, discovered.length, routes.length, ignored.length,
        trimSpace defaultRoute.backend ≠ [],
        fun reason => ignored.countP fun i => i.reason == reason⟩ :=
  rfl

/-- No two merged routes share a name. -/
theorem nodup_merged (hnamed : ∀ route ∈ staticRoutes, route.Named)
    (hdistinct : (staticHosts staticRoutes).Nodup) (defaultRoute : DefaultRoute) :
    ((mergeRoutes staticRoutes discovered defaultRoute).routes.flatMap Route.identities).Nodup := by
  have hperm := (mergeRoutes_perm staticRoutes discovered defaultRoute).flatMap_right
    Route.identities
  rw [hperm.nodup_iff, identities_merged hnamed]
  exact nodup_staticHosts_accepted hdistinct discovered

/-- The fields `lessConfigRoute` compares. -/
def routeFields (route : Route) : List GoString := [route.serverAddress, route.backend]

theorem lessConfigRoute_iff (a b : Route) :
    lessConfigRoute a b = true ↔ (routeFields a).map key < (routeFields b).map key :=
  lessFields_zip (routeFields a) (routeFields b) rfl

/-- The merged routes are in the order of their addresses. -/
theorem sorted_merged (hnamed : ∀ route ∈ staticRoutes, route.Named)
    (hdistinct : (staticHosts staticRoutes).Nodup) (defaultRoute : DefaultRoute) :
    (mergeRoutes staticRoutes discovered defaultRoute).routes.Pairwise fun a b =>
      less a.serverAddress b.serverAddress = true := by
  have hsorted := sortStable_pairwise (fun r => (routeFields r).map key) lessConfigRoute_iff
  refine pairwise_less_of_fields (hsorted _) ?_
  exact (nodup_merged hnamed hdistinct defaultRoute).sublist (serverAddress_sublist _)

/-! ## The order of the inputs -/

theorem staticHosts_perm (h : staticRoutes.Perm staticRoutes') :
    (staticHosts staticRoutes).Perm (staticHosts staticRoutes') :=
  h.flatMap_right Route.hosts

/-- What becomes of a route does not depend on the order of the lists. -/
theorem fate_of_perm (hstatic : staticRoutes.Perm staticRoutes')
    (hdiscovered : discovered.Perm discovered') :
    fate (staticHosts staticRoutes) (candidates discovered) =
      fate (staticHosts staticRoutes') (candidates discovered') :=
  fate_congr (staticHosts_perm hstatic) (hdiscovered.filterMap _)

/-- The routes are in one order only. -/
theorem routes_eq_of_perm (hnamed : ∀ route ∈ staticRoutes, route.Named)
    (hdistinct : (staticHosts staticRoutes).Nodup) (hstatic : staticRoutes.Perm staticRoutes')
    (hdiscovered : discovered.Perm discovered') (defaultRoute : DefaultRoute) :
    (mergeRoutes staticRoutes discovered defaultRoute).routes =
      (mergeRoutes staticRoutes' discovered' defaultRoute).routes := by
  have hnamed' : ∀ route ∈ staticRoutes', route.Named :=
    fun route hr => hnamed route (hstatic.mem_iff.mpr hr)
  have hdistinct' : (staticHosts staticRoutes').Nodup :=
    (staticHosts_perm hstatic).nodup_iff.mp hdistinct
  have hasymm : ∀ a b : Route, less a.serverAddress b.serverAddress = true →
      less b.serverAddress a.serverAddress = true → a = b := by
    intro a b hab hba
    exact absurd (of_decide_eq_true hba) (of_decide_eq_true hab).asymm
  refine List.Perm.eq_of_pairwise (fun a b _ _ => hasymm a b)
    (sorted_merged hnamed hdistinct defaultRoute) (sorted_merged hnamed' hdistinct' defaultRoute) ?_
  refine (mergeRoutes_fate staticRoutes discovered defaultRoute).1.trans ?_
  refine List.Perm.trans ?_ (mergeRoutes_fate staticRoutes' discovered' defaultRoute).1.symm
  rw [fate_of_perm hstatic hdiscovered]
  exact (hstatic.map _).append (hdiscovered.filterMap _)

/-- The error of an ignored entry is the one its reason, host and backend
give. -/
def Explained (ignored : IgnoredDiscoveredRoute) : Prop :=
  match ignored.reason with
  | .invalidDiscovered =>
    validateDiscoveredRoute ⟨ignored.host, ignored.backend⟩ = .error ignored.err
  | .duplicateDiscovered =>
    ignored.err = ⟨go "host " ++ quote ignored.host ++ go " is discovered more than once", []⟩
  | .staticRoutePrecedence => ignored.err =
    ⟨go "host " ++ quote ignored.host ++ go " is already configured by a static route", []⟩

theorem explained_of_fate {statics : List GoString} {cands : List DiscoveredRoute}
    {entry : DiscoveredRoute} {ignored : IgnoredDiscoveredRoute}
    (h : fate statics cands entry = .inr ignored) : Explained ignored := by
  unfold fate at h
  split at h
  · rename_i err herr
    obtain rfl := Sum.inr.inj h
    exact herr
  · rename_i c hc
    split at h
    · rename_i found hfound
      obtain rfl := Sum.inr.inj h
      unfold ignoreCandidate at hfound
      split at hfound
      · obtain rfl := Option.some.inj hfound
        exact rfl
      split at hfound
      · obtain rfl := Option.some.inj hfound
        exact rfl
      · cases hfound
    · cases h

/-- The fields `lessIgnored` compares. -/
def ignoredFields (i : IgnoredDiscoveredRoute) : List GoString :=
  [i.reason.text, i.host, i.backend, i.err.text]

theorem lessIgnored_iff (a b : IgnoredDiscoveredRoute) :
    lessIgnored a b = true ↔ (ignoredFields a).map key < (ignoredFields b).map key :=
  lessFields_zip (ignoredFields a) (ignoredFields b) rfl

theorem IgnoreReason.text_injective : Function.Injective IgnoreReason.text := by
  intro a b h
  cases a <;> cases b <;> first | rfl | exact absurd h (by decide +kernel)

/-- Explained entries are determined by the compared fields. -/
theorem ignoredFields_injective {a b : IgnoredDiscoveredRoute} (ha : Explained a)
    (hb : Explained b) (h : ignoredFields a = ignoredFields b) : a = b := by
  simp only [ignoredFields, List.cons.injEq, and_true] at h
  obtain ⟨hreason, hhost, hbackend, -⟩ := h
  obtain ⟨_, _, reason, _⟩ := a
  obtain ⟨_, _, reason', _⟩ := b
  obtain rfl : reason = reason' := IgnoreReason.text_injective hreason
  obtain rfl := hhost
  obtain rfl := hbackend
  cases reason with
  | invalidDiscovered => exact congrArg _ (Except.error.inj (ha.symm.trans hb))
  | duplicateDiscovered => exact congrArg _ (ha.trans hb.symm)
  | staticRoutePrecedence => exact congrArg _ (ha.trans hb.symm)

theorem ignored_eq_of_perm (hstatic : staticRoutes.Perm staticRoutes')
    (hdiscovered : discovered.Perm discovered') (defaultRoute : DefaultRoute) :
    (mergeRoutes staticRoutes discovered defaultRoute).ignored =
      (mergeRoutes staticRoutes' discovered' defaultRoute).ignored := by
  have hperm := (mergeRoutes_fate staticRoutes discovered defaultRoute).2
  have hperm' := (mergeRoutes_fate staticRoutes' discovered' defaultRoute).2
  rw [← fate_of_perm hstatic hdiscovered] at hperm'
  have hsorted := sortStable_pairwise (fun i => (ignoredFields i).map key) lessIgnored_iff
  refine List.Perm.eq_of_pairwise ?_ (hsorted _) (hsorted _)
    (hperm.trans ((hdiscovered.filterMap _).trans hperm'.symm))
  have hexplained : ∀ (l : List DiscoveredRoute) (i : IgnoredDiscoveredRoute),
      i ∈ l.filterMap (fun entry =>
        (fate (staticHosts staticRoutes) (candidates discovered) entry).getRight?) →
      Explained i := by
    intro l i hi
    obtain ⟨entry, -, hentry⟩ := List.mem_filterMap.mp hi
    exact explained_of_fate (Sum.getRight?_eq_some_iff.mp hentry)
  intro a b ha hb hab hba
  exact ignoredFields_injective (hexplained _ a (hperm.mem_iff.mp ha))
    (hexplained _ b (hperm'.mem_iff.mp hb)) (map_key_injective (le_antisymm hab hba))

/-- **The order of the inputs does not matter**: the routes, the ignored
entries with their errors and the statistics are the same. -/
theorem mergeRoutes_eq_of_perm (hnamed : ∀ route ∈ staticRoutes, route.Named)
    (hdistinct : (staticHosts staticRoutes).Nodup) (hstatic : staticRoutes.Perm staticRoutes')
    (hdiscovered : discovered.Perm discovered') (defaultRoute : DefaultRoute) :
    mergeRoutes staticRoutes discovered defaultRoute =
      mergeRoutes staticRoutes' discovered' defaultRoute := by
  have hroutes := routes_eq_of_perm hnamed hdistinct hstatic hdiscovered defaultRoute
  have hignored := ignored_eq_of_perm hstatic hdiscovered defaultRoute
  rw [mergeRoutes_eq, mergeRoutes_eq staticRoutes', hroutes, hignored, hstatic.length_eq,
    hdiscovered.length_eq]

instance : Fintype IgnoreReason :=
  ⟨{.staticRoutePrecedence, .duplicateDiscovered, .invalidDiscovered}, fun reason => by
    cases reason <;> decide⟩

/-- **Merging loses and invents nothing and ignores the order of its
inputs**, for static routes whose names normalise to distinct hosts. -/
theorem mergeRoutes_conserves (hnamed : ∀ route ∈ staticRoutes, route.Named)
    (hdistinct : (staticHosts staticRoutes).Nodup) (discovered : List DiscoveredRoute)
    (defaultRoute : DefaultRoute) :
    let result := mergeRoutes staticRoutes discovered defaultRoute
    let way := fate (staticHosts staticRoutes) (candidates discovered)
    let ignoredFor := IgnoredFor (staticHosts staticRoutes) (candidates discovered)
    -- every static route and every discovered one is there once
    (∃ statics, List.Forall₂ ComesOutAs staticRoutes statics ∧
      result.routes.Perm (statics ++ discovered.filterMap fun entry => (way entry).getLeft?) ∧
      result.ignored.Perm (discovered.filterMap fun entry => (way entry).getRight?)) ∧
    -- for the reason that applies
    (∀ entry ∈ discovered,
      (ignoredFor .invalidDiscovered entry ↔ ∃ err, validateDiscoveredRoute entry = .error err) ∧
      (ignoredFor .duplicateDiscovered entry ↔ ∃ c, validateDiscoveredRoute entry = .ok c ∧
        1 < hostCount (candidates discovered) c.host) ∧
      (ignoredFor .staticRoutePrecedence entry ↔ ∃ c, validateDiscoveredRoute entry = .ok c ∧
        hostCount (candidates discovered) c.host ≤ 1 ∧ c.host ∈ staticHosts staticRoutes) ∧
      ∀ route, way entry = .inl route ↔ ∃ c, validateDiscoveredRoute entry = .ok c ∧
        hostCount (candidates discovered) c.host ≤ 1 ∧ c.host ∉ staticHosts staticRoutes ∧
        route = discoveredRoute c) ∧
    -- counted
    result.stats.staticRoutes = staticRoutes.length ∧
    result.stats.discoveredRoutes = discovered.length ∧
    result.stats.mergedRoutes = result.routes.length ∧
    result.stats.ignoredDiscoveredRoutes = result.ignored.length ∧
    result.stats.mergedRoutes + result.stats.ignoredDiscoveredRoutes =
      result.stats.staticRoutes + result.stats.discoveredRoutes ∧
    ∑ reason, result.stats.ignoredByReason reason = result.stats.ignoredDiscoveredRoutes ∧
    -- sorted, with distinct hosts
    result.routes.Pairwise (fun a b => less a.serverAddress b.serverAddress = true) ∧
    (result.routes.flatMap Route.identities).Nodup ∧
    -- and the same whatever the order
    ∀ staticRoutes' discovered', staticRoutes.Perm staticRoutes' → discovered.Perm discovered' →
      mergeRoutes staticRoutes' discovered' defaultRoute = result := by
  obtain ⟨hroutes, hignored⟩ := mergeRoutes_fate staticRoutes discovered defaultRoute
  refine ⟨⟨_, ?_, hroutes, hignored⟩, fun entry _ => ?_, rfl, rfl, rfl, rfl, ?_, ?_,
    sorted_merged hnamed hdistinct defaultRoute, nodup_merged hnamed hdistinct defaultRoute,
    fun _ _ hstatic hdiscovered =>
      (mergeRoutes_eq_of_perm hnamed hdistinct hstatic hdiscovered defaultRoute).symm⟩
  · exact List.forall₂_map_right_iff.mpr
      (List.forall₂_same.mpr fun route hr => comesOutAs_normalizeStatic (hnamed route hr))
  · obtain ⟨hinvalid, hdup, hprecedence⟩ := ignoredFor_iff _ _ entry
    exact ⟨hinvalid, hdup, hprecedence, fate_eq_inl _ _ entry⟩
  · have hsplit := length_getLeft_add_getRight
      (fate (staticHosts staticRoutes) (candidates discovered)) discovered
    have hlen := hroutes.length_eq
    rw [List.length_append, List.length_map] at hlen
    have hlen' := hignored.length_eq
    show (mergeRoutes staticRoutes discovered defaultRoute).routes.length +
      (mergeRoutes staticRoutes discovered defaultRoute).ignored.length =
      staticRoutes.length + discovered.length
    omega
  · exact sum_countP_eq_length IgnoredDiscoveredRoute.reason _

/-- A static route as a configuration file gives it. -/
def lobbyRoute : Route where
  serverAddress := go "Lobby.Example."
  aliases := [go "hub.example"]
  backend := go "lobby:25565"

theorem lobbyRoute_named : ∀ route ∈ [lobbyRoute], route.Named := by
  intro route hroute name hname
  obtain rfl := List.mem_singleton.mp hroute
  simp only [Route.identities, lobbyRoute, List.mem_cons, List.not_mem_nil, or_false] at hname
  rcases hname with rfl | rfl
  · exact ⟨go "lobby.example", by decide +kernel⟩
  · exact ⟨go "hub.example", by decide +kernel⟩

theorem mergeRoutes_conserves_lobby :
    (staticHosts [lobbyRoute]).Nodup ∧
      ∑ reason, (mergeRoutes [lobbyRoute] [⟨go "hub.example", go "a.b.svc.c:1"⟩]
        {}).stats.ignoredByReason reason = 1 := by
  have hdistinct : (staticHosts [lobbyRoute]).Nodup := by decide +kernel
  have h := mergeRoutes_conserves lobbyRoute_named hdistinct
    [⟨go "hub.example", go "a.b.svc.c:1"⟩] {}
  refine ⟨hdistinct, h.2.2.2.2.2.2.2.1.trans ?_⟩
  decide +kernel

/-- A route comes out with another field changed than its names: the
source, which no file sets. -/
theorem source_of_merged_lobby :
    (∀ route ∈ [lobbyRoute], route.Named) ∧ (staticHosts [lobbyRoute]).Nodup ∧
      lobbyRoute.source = .unset ∧
      ∀ merged ∈ (mergeRoutes [lobbyRoute] [] {}).routes, merged.source ≠ lobbyRoute.source :=
  ⟨lobbyRoute_named, by decide +kernel, rfl, by decide +kernel⟩

end Discovery

end McRouter
