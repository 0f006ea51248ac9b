import McRouter.Discovery.Provenance

/-!
# Every Service is accounted for once

`BuildDiscoveredRoutes` turns each Service into one route or into one
skipped entry (`serviceFate`). Which of the two is a matter of its own
annotations and of whether another Service announces its host; the order
in which a map or an API list happened to return the Services has no part
in it.
-/

namespace McRouter

namespace Discovery

open Strings Config Kubernetes Sorting Placement

/-- What becomes of a Service, given the hosts all of them announce. -/
def serviceFate (annotationPrefix : GoString) (hosts : List GoString) (service : ServiceInput) :
    DiscoveredRoute ⊕ SkippedResource :=
  match parseServiceAnnotations annotationPrefix service with
  | .error skip => .inr
      { serviceName := service.name, namespace_ := service.namespace_, reason := skip.reason,
        err := skip.err }
  | .ok route =>
    if 1 < hosts.count route.host then
      .inr (RouteCandidate.duplicate ⟨route, service.name, service.namespace_⟩)
    else .inl route

section Services

variable (services : List ServiceInput) (options : Options)

/-- The hosts the Services announce, one for each that parses. -/
def announcedHosts : List GoString := services.filterMap (announcedHost options.prefixOrDefault)

/-- The candidates whose host others have too. -/
def duplicates : List RouteCandidate :=
  (sortedCandidates services options).filter fun c =>
    1 < (announcedHosts services options).count c.route.host

/-- The other ones. -/
def singles : List RouteCandidate :=
  (sortedCandidates services options).filter fun c =>
    ¬ 1 < (announcedHosts services options).count c.route.host

/-- `BuildDiscoveredRoutes` by the hosts that are announced. -/
theorem buildDiscoveredRoutes_eq :
    buildDiscoveredRoutes services options =
      let skipped := services.filterMap (skippedOf options.prefixOrDefault) ++
        (duplicates services options).map (·.duplicate)
      ⟨(singles services options).map (·.route), sortStable lessSkipped skipped,
        sortedKeys ((duplicates services options).map (·.route.host)),
        fun reason => skipped.countP fun s => s.reason = reason⟩ := by
  have hcount : ∀ host, ((sortedCandidates services options).map (·.route.host)).count host =
      (announcedHosts services options).count host := count_hosts services options
  unfold singles duplicates
  simp only [← hcount]
  rfl

/-! ## Where each Service goes -/

/-- The candidates are those of the Services. -/
theorem sortedCandidates_perm : (sortedCandidates services options).Perm
    (services.filterMap (candidateOf options.prefixOrDefault)) :=
  sortStable_perm _ _

theorem routes_perm :
    (buildDiscoveredRoutes services options).routes.Perm (services.filterMap fun service =>
      (serviceFate options.prefixOrDefault (announcedHosts services options) service).getLeft?) := by
  rw [buildDiscoveredRoutes_eq]
  refine (((sortedCandidates_perm services options).filter _).map _).trans (List.Perm.of_eq ?_)
  rw [List.filter_filterMap, List.map_filterMap]
  refine List.filterMap_congr fun service _ => ?_
  unfold candidateOf serviceFate
  cases parseServiceAnnotations options.prefixOrDefault service with
  | error skip => rfl
  | ok route =>
    by_cases h : 1 < (announcedHosts services options).count route.host
    · simp [h]
    · simp [h, Nat.le_of_not_lt h]

theorem skipped_perm :
    (buildDiscoveredRoutes services options).skipped.Perm (services.filterMap fun service =>
      (serviceFate options.prefixOrDefault (announcedHosts services options) service).getRight?) := by
  rw [buildDiscoveredRoutes_eq]
  refine (sortStable_perm _ _).trans ?_
  have hdup := ((sortedCandidates_perm services options).filter fun c =>
    1 < (announcedHosts services options).count c.route.host).map (·.duplicate)
  refine (hdup.append_left _).trans ?_
  rw [List.filter_filterMap, List.map_filterMap]
  refine filterMap_append_perm fun service _ => ?_
  unfold candidateOf skippedOf serviceFate
  cases parseServiceAnnotations options.prefixOrDefault service with
  | error skip => exact Or.inr ⟨rfl, rfl⟩
  | ok route =>
    refine Or.inl ⟨rfl, ?_⟩
    by_cases h : 1 < (announcedHosts services options).count route.host
    · simp [h]
    · simp [h, Nat.le_of_not_lt h]

/-- A host is announced more than once when two Services announce it. -/
theorem one_lt_count_announced {host : GoString} :
    1 < (announcedHosts services options).count host ↔
      ∃ (i j : ℕ) (service other : ServiceInput) (route route' : DiscoveredRoute), i ≠ j ∧
        services[i]? = some service ∧ services[j]? = some other ∧
        parseServiceAnnotations options.prefixOrDefault service = .ok route ∧
        parseServiceAnnotations options.prefixOrDefault other = .ok route' ∧
        route.host = host ∧ route'.host = host := by
  rw [announcedHosts, one_lt_count_filterMap]
  constructor
  · rintro ⟨i, j, service, other, hij, hi, hhost, hj, hhost'⟩
    obtain ⟨route, hparse, hroute⟩ := announcedHost_eq_some.mp hhost
    obtain ⟨route', hparse', hroute'⟩ := announcedHost_eq_some.mp hhost'
    exact ⟨i, j, service, other, route, route', hij, hi, hj, hparse, hparse', hroute, hroute'⟩
  · rintro ⟨i, j, service, other, route, route', hij, hi, hj, hparse, hparse', hroute, hroute'⟩
    exact ⟨i, j, service, other, hij, hi, announcedHost_eq_some.mpr ⟨route, hparse, hroute⟩,
      hj, announcedHost_eq_some.mpr ⟨route', hparse', hroute'⟩⟩

/-- **A Service that parses is routed exactly if no other one has its
host.** -/
theorem serviceFate_eq_inl {i : ℕ} {service : ServiceInput} {route : DiscoveredRoute}
    (hi : services[i]? = some service)
    (hparse : parseServiceAnnotations options.prefixOrDefault service = .ok route) :
    serviceFate options.prefixOrDefault (announcedHosts services options) service = .inl route ↔
      ∀ (j : ℕ) (other : ServiceInput) (route' : DiscoveredRoute), j ≠ i →
        services[j]? = some other →
        parseServiceAnnotations options.prefixOrDefault other = .ok route' →
        route'.host ≠ route.host := by
  have hfate : serviceFate options.prefixOrDefault (announcedHosts services options) service =
      .inl route ↔ ¬ 1 < (announcedHosts services options).count route.host := by
    unfold serviceFate
    rw [hparse]
    by_cases h : 1 < (announcedHosts services options).count route.host
    · simp [h]
    · simp [h]
  rw [hfate, one_lt_count_announced]
  constructor
  · intro hnone j other route' hji hj hparse' hhost
    exact hnone ⟨j, i, other, service, route', route, hji, hj, hi, hparse', hparse, hhost, rfl⟩
  · rintro hall ⟨j, k, a, b, ra, rb, hjk, hj, hk, ha, hb, hra, hrb⟩
    -- one of the two is another Service
    by_cases hji : j = i
    · exact hall k b rb (fun hki => hjk (hji.trans hki.symm)) hk hb hrb
    · exact hall j a ra hji hj ha hra

/-! ## The other results -/

theorem mem_duplicateHosts {host : GoString} :
    host ∈ (buildDiscoveredRoutes services options).duplicateHosts ↔
      1 < (announcedHosts services options).count host := by
  rw [buildDiscoveredRoutes_eq]
  show host ∈ sortedKeys _ ↔ _
  rw [sortedKeys, (sortStable_perm _ _).mem_iff, List.mem_dedup, List.mem_map]
  constructor
  · rintro ⟨c, hc, rfl⟩
    exact of_decide_eq_true (List.mem_filter.mp hc).2
  · intro hcount
    have hmem : host ∈ announcedHosts services options :=
      List.count_pos_iff.mp (by omega)
    obtain ⟨service, hs, hhost⟩ := List.mem_filterMap.mp hmem
    obtain ⟨c, hc, rfl⟩ := Option.map_eq_some_iff.mp hhost
    refine ⟨c, List.mem_filter.mpr ⟨?_, decide_eq_true hcount⟩, rfl⟩
    exact (sortedCandidates_perm services options).mem_iff.mpr (List.mem_filterMap.mpr ⟨service, hs, hc⟩)

theorem nodup_duplicateHosts : (buildDiscoveredRoutes services options).duplicateHosts.Nodup := by
  rw [buildDiscoveredRoutes_eq]
  exact (sortStable_perm _ _).nodup_iff.mpr (List.nodup_dedup _)

theorem sorted_duplicateHosts :
    (buildDiscoveredRoutes services options).duplicateHosts.Pairwise fun a b => less a b = true := by
  have hnodup := nodup_duplicateHosts services options
  rw [buildDiscoveredRoutes_eq] at hnodup ⊢
  have hsorted := sortStable_pairwise key (fun a b => decide_eq_true_iff (p := key a < key b))
    ((duplicates services options).map (·.route.host)).dedup
  refine (hsorted.and hnodup).imp fun {a b} ⟨hle, hne⟩ => decide_eq_true ?_
  exact lt_of_le_of_ne hle fun heq => hne (key_injective heq)

theorem sorted_routes : (buildDiscoveredRoutes services options).routes.Pairwise fun a b =>
    less a.host b.host = true := by
  have hnodup := nodup_built services options
  rw [buildDiscoveredRoutes_eq] at hnodup ⊢
  have hsorted : (sortedCandidates services options).Pairwise fun a b =>
      a.fields.map key ≤ b.fields.map key :=
    sortStable_pairwise (fun c : RouteCandidate => c.fields.map key) lessCandidate_iff _
  rw [List.map_map] at hnodup
  refine List.pairwise_map.mpr (pairwise_less_of_fields (hsorted.sublist List.filter_sublist) hnodup)

instance : Fintype SkipReason :=
  ⟨{.disabled, .invalidPrefix, .invalidServiceName, .invalidNamespace, .missingHost, .invalidHost,
    .missingPort, .invalidPort, .portNotFound, .duplicateHost, .unknown}, fun reason => by
    cases reason <;> decide⟩

theorem sum_skippedByReason :
    ∑ reason, (buildDiscoveredRoutes services options).skippedByReason reason =
      (buildDiscoveredRoutes services options).skipped.length := by
  rw [buildDiscoveredRoutes_eq]
  exact (sum_countP_eq_length SkippedResource.reason _).trans (sortStable_perm _ _).length_eq.symm

end Services

/-- **Service discovery is a partition that no order of the Services
changes.** -/
theorem services_partitioned (services : List ServiceInput) (options : Options) :
    let result := buildDiscoveredRoutes services options
    let way := serviceFate options.prefixOrDefault (announcedHosts services options)
    let parse := parseServiceAnnotations options.prefixOrDefault
    -- each Service is there once, as a route or as a skipped entry
    result.routes.Perm (services.filterMap fun service => (way service).getLeft?) ∧
    result.skipped.Perm (services.filterMap fun service => (way service).getRight?) ∧
    result.routes.length + result.skipped.length = services.length ∧
    -- one that parses is routed if and only if no other has its host
    (∀ (i : ℕ) (service : ServiceInput) (route : DiscoveredRoute), services[i]? = some service →
      parse service = .ok route →
      (way service = .inl route ↔ ∀ (j : ℕ) (other : ServiceInput) (route' : DiscoveredRoute),
        j ≠ i → services[j]? = some other → parse other = .ok route' →
          route'.host ≠ route.host)) ∧
    -- the duplicate hosts, in order
    result.duplicateHosts.Pairwise (fun a b => less a b = true) ∧
    result.duplicateHosts.Nodup ∧
    (∀ host, host ∈ result.duplicateHosts ↔
      ∃ (i j : ℕ) (service other : ServiceInput) (route route' : DiscoveredRoute), i ≠ j ∧
        services[i]? = some service ∧ services[j]? = some other ∧ parse service = .ok route ∧
        parse other = .ok route' ∧ route.host = host ∧ route'.host = host) ∧
    ∑ reason, result.skippedByReason reason = result.skipped.length ∧
    -- the routes, in order
    result.routes.Pairwise (fun a b => less a.host b.host = true) ∧
    (result.routes.map (·.host)).Nodup ∧
    ∀ services', services.Perm services' → buildDiscoveredRoutes services' options = result := by
  have hroutes := routes_perm services options
  have hskipped := skipped_perm services options
  refine ⟨hroutes, hskipped, ?_, fun i service route hi hparse =>
    serviceFate_eq_inl services options hi hparse, sorted_duplicateHosts services options,
    nodup_duplicateHosts services options, fun host => ?_, sum_skippedByReason services options,
    sorted_routes services options, nodup_built services options,
    fun services' hperm => (buildDiscoveredRoutes_perm hperm options).symm⟩
  · rw [hroutes.length_eq, hskipped.length_eq]
    exact length_getLeft_add_getRight _ services
  · exact (mem_duplicateHosts services options).trans (one_lt_count_announced services options)

end Discovery

end McRouter
