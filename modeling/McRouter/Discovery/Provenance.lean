import McRouter.Common.Placement
import McRouter.Kubernetes.Controller
import McRouter.Discovery.MergeValid

/-!
# Where a discovered backend comes from

The annotation parser and the merge check Services with different code.
**What the first accepts the second takes as it is**
(`validateDiscoveredRoute_announced`): the generated backend is a DNS name
of five labels and a port in plain digits, which splits, normalises and
joins to itself. So a discovered route is in the merged table unless a
static route has its host, and each one goes back to the one Service that
asked for it (`discovered_provenance`).
-/

namespace McRouter

namespace Discovery

open Strings Unicode Netip Config Kubernetes Sorting Placement

/-! ## What a Service announced -/

/-- The route is what the Service's annotations ask for: it is enabled, the
host is the normalised host annotation, and the backend is the Service's own
DNS name at a port that the Service declares. -/
structure Announced (annotationPrefix : GoString) (service : ServiceInput)
    (route : DiscoveredRoute) : Prop where
  enabled : service.annotated annotationPrefix (go "enabled") = some (go "true")
  name : isDNSLabel service.name = true
  namespace_ : isDNSLabel service.namespace_ = true
  host : ∃ value, service.annotated annotationPrefix (go "host") = some value ∧
    HostAddr.normalize value = .ok route.host
  backend : ∃ value port, service.annotated annotationPrefix (go "port") = some value ∧
    atoi (trimSpace value) = some port ∧ 1 ≤ port ∧ port ≤ 65535 ∧
    (∃ declared ∈ service.ports, declared.port = port) ∧
    route.backend = service.name ++ go "." ++ service.namespace_ ++ go ".svc.cluster.local" ++
      go ":" ++ itoaInt port

/-- A DNS label has no dot and no colon. -/
theorem notMem_of_isDNSLabel {label : GoString} (h : isDNSLabel label = true) :
    46 ∉ label ∧ 58 ∉ label := by
  have hbytes := bytes_of_isDNSLabel h
  exact ⟨fun hm => absurd (hbytes 46 hm) (by decide), fun hm => absurd (hbytes 58 hm) (by decide)⟩

/-- The labels of a generated backend. -/
def serviceLabels (service : ServiceInput) : List GoString :=
  [service.name, service.namespace_, go "svc", go "cluster", go "local"]

/-- The host of a generated backend is its labels with dots between. -/
theorem serviceHost_eq (service : ServiceInput) :
    service.name ++ go "." ++ service.namespace_ ++ go ".svc.cluster.local" =
      [46].intercalate (serviceLabels service) := by
  have htail : go ".svc.cluster.local" =
      [46] ++ (go "svc" ++ ([46] ++ (go "cluster" ++ ([46] ++ go "local")))) := by decide
  have hdot : go "." = [46] := by decide
  rw [htail, hdot]
  simp [serviceLabels, List.intercalate, List.intersperse]

variable {annotationPrefix : GoString} {service : ServiceInput} {route : DiscoveredRoute}

/-- **What the parser accepts was announced.** -/
theorem announced_of_parse (h : parseServiceAnnotations annotationPrefix service = .ok route) :
    Announced annotationPrefix service route := by
  unfold parseServiceAnnotations at h
  split at h
  · cases h
  split at h
  · cases h
  rename_i henabled
  split at h
  · cases h
  rename_i hname
  split at h
  · cases h
  rename_i hnamespace
  simp only [Bool.not_eq_true', Bool.not_eq_false] at hname hnamespace
  unfold parseHostAndPort at h
  split at h
  · cases h
  rename_i hostValue hhostValue
  split at h
  · cases h
  rename_i host hhost
  split at h
  · cases h
  rename_i portValue hportValue
  split at h
  · cases h
  rename_i port hport
  split at h
  · cases h
  rename_i hdeclared
  cases h
  obtain ⟨hatoi, hrange⟩ := Option.filter_eq_some_iff.mp hport
  obtain ⟨hlow, hhigh⟩ : 1 ≤ port ∧ port ≤ 65535 := by simpa using hrange
  refine ⟨by simpa using henabled, hname, hnamespace,
    ⟨hostValue, (Option.filter_eq_some_iff.mp hhostValue).1, hhost⟩,
    portValue, port, (Option.filter_eq_some_iff.mp hportValue).1, hatoi, hlow, hhigh, ?_, ?_⟩
  · simpa [serviceHasPort] using hdeclared
  · -- the host has no colon, so joining adds no brackets
    have hcolon : 58 ∉ service.name ++ go "." ++ service.namespace_ ++ go ".svc.cluster.local" := by
      simp only [List.mem_append, not_or]
      exact ⟨⟨⟨(notMem_of_isDNSLabel hname).2, by decide⟩, (notMem_of_isDNSLabel hnamespace).2⟩,
        by decide⟩
    rw [joinHostPort, if_neg hcolon]
    rfl

/-! ## The merge takes it as it is -/

/-- A DNS label is a label. -/
theorem isLabel_of_isDNSLabel {label : GoString} (h : isDNSLabel label = true) :
    HostAddr.IsLabel label := by
  have hbytes := bytes_of_isDNSLabel h
  simp only [isDNSLabel, Bool.and_eq_true, decide_eq_true_eq, bne_iff_ne, ne_eq] at h
  obtain ⟨⟨⟨⟨hpos, hlong⟩, -⟩, hfirst⟩, hlast⟩ := h
  exact ⟨hpos, hlong, hbytes, hfirst, hlast⟩

/-- The labels of a generated backend are DNS labels. -/
theorem isDNSLabel_serviceLabels (hname : isDNSLabel service.name = true)
    (hnamespace : isDNSLabel service.namespace_ = true) :
    ∀ label ∈ serviceLabels service, isDNSLabel label = true := by
  intro label hl
  simp only [serviceLabels, List.mem_cons, List.not_mem_nil, or_false] at hl
  rcases hl with rfl | rfl | rfl | rfl | rfl
  · exact hname
  · exact hnamespace
  · decide
  · decide
  · decide

theorem length_le_of_isDNSLabel {label : GoString} (h : isDNSLabel label = true) :
    label.length ≤ 63 := by
  simp only [isDNSLabel, Bool.and_eq_true, decide_eq_true_eq] at h
  exact h.1.1.1.2

/-- **A generated backend host is in normal form**, and is a Service name. -/
theorem normalize_serviceHost {host : GoString}
    (hhost : host = [46].intercalate (serviceLabels service))
    (hname : isDNSLabel service.name = true) (hnamespace : isDNSLabel service.namespace_ = true) :
    HostAddr.normalize host = .ok host ∧ validateServiceDNSBackend host = none := by
  have hlabels := isDNSLabel_serviceLabels hname hnamespace
  have hsplit : split 46 host = serviceLabels service := by
    rw [hhost]
    exact List.splitOn_intercalate 46 (fun l hl => (notMem_of_isDNSLabel (hlabels l hl)).1)
      (List.cons_ne_nil _ _)
  have hpass : (split 46 host).findSome? HostAddr.labelError = none := by
    rw [hsplit]
    exact List.findSome?_eq_none_iff.mpr fun l hl =>
      HostAddr.labelError_eq_none.mpr (isLabel_of_isDNSLabel (hlabels l hl))
  obtain ⟨hbytes, hdot⟩ := HostAddr.nameBytes_of_labels hpass
  have hplain : ∀ b ∈ host, HostAddr.IsPlain b :=
    fun b hb => HostAddr.isPlain_of_isNameByte b (hbytes b hb)
  have hascii : IsAscii host := fun b hb => (hplain b hb).2.1
  -- the `s` of `svc` is no byte of an address
  have hs : 115 ∈ host := by
    rw [hhost, ← serviceHost_eq]
    exact List.mem_append_right _ (by decide)
  have hip : isIP host = false := by
    rw [Bool.eq_false_iff]
    intro hip
    exact absurd ((ipText_of_isIP hip).1.1 115 hs) (by decide)
  have hlen : host.length ≤ HostAddr.maxHostBytes := by
    have h1 := length_le_of_isDNSLabel hname
    have h2 := length_le_of_isDNSLabel hnamespace
    have h3 : (go ".").length = 1 := rfl
    have h4 : (go ".svc.cluster.local").length = 18 := rfl
    rw [hhost, ← serviceHost_eq]
    simp only [List.length_append, HostAddr.maxHostBytes]
    omega
  constructor
  · unfold HostAddr.normalize
    simp only [HostAddr.clean_eq_self hplain hdot, HostAddr.ipCandidate_eq_self hplain]
    rw [if_neg (List.ne_nil_of_mem hs), if_neg (by omega),
      if_neg (by simp [validString_of_isAscii hascii]), if_neg (by simp [hip]), hpass]
  · rw [validateServiceDNSBackend, hsplit]
    have hsvc : isDNSLabel (go "cluster") = true ∧ isDNSLabel (go "local") = true := by decide
    simp [serviceLabels, hname, hnamespace, hsvc]

/-- **The two checks agree**: what was announced passes the merge's
validation unchanged. -/
theorem validateDiscoveredRoute_announced (h : Announced annotationPrefix service route) :
    validateDiscoveredRoute route = .ok route := by
  obtain ⟨_, hvalue⟩ := h.host
  have hnormal := HostAddr.normalize_idem hvalue.2
  obtain ⟨_, port, -, -, hlow, hhigh, -, hbackend⟩ := h.backend
  obtain ⟨n, rfl⟩ : ∃ n : ℕ, port = n := ⟨port.toNat, by omega⟩
  obtain ⟨hhost, hdns⟩ := normalize_serviceHost (serviceHost_eq service) h.name h.namespace_
  have hbytes := bytes_of_serviceDNS hdns
  have hatoi : atoi (itoa n) = some (n : ℤ) := atoi_itoa (by omega)
  have hcolon : 58 ∉ service.name ++ go "." ++ service.namespace_ ++ go ".svc.cluster.local" :=
    fun hm => (hbytes 58 hm).1 rfl
  have hjoin : route.backend = joinHostPort
      (service.name ++ go "." ++ service.namespace_ ++ go ".svc.cluster.local") (itoa n) := by
    rw [hbackend, joinHostPort, if_neg hcolon]
    rfl
  have hdigits : ∀ b : UInt8, 48 ≤ b ∧ b ≤ 57 → b < 0x80 ∧ isSpace b.toNat = false :=
    forall_byte (by decide +kernel)
  have hport : validateBackendPort (itoa n) = none := by
    have hne : itoa n ≠ [] := by
      intro hnil
      rw [hnil] at hatoi
      cases hatoi
    have htrim : trimSpace (itoa n) = itoa n :=
      trimSpace_eq_self (fun b hb => (hdigits b (isDigit_of_mem_itoa hb)).1)
        fun b hb => (hdigits b (isDigit_of_mem_itoa hb)).2
    rw [validateBackendPort, htrim, if_neg hne, hatoi, if_neg]
    simp only [Option.all_some, Bool.or_eq_true, decide_eq_true_eq, not_or]
    omega
  have hblank : trimSpace route.backend ≠ [] := by
    -- no byte of the backend is a blank
    have hplain := (HostAddr.normalize_ok hhost).2.2.1
    have hall : ∀ b ∈ route.backend, b < 0x80 ∧ isSpace b.toNat = false := by
      intro b hb
      rw [hbackend, List.mem_append, List.mem_append] at hb
      rcases hb with (hb | hb) | hb
      · exact ⟨(hplain b hb).2.1, (hplain b hb).2.2.1⟩
      · rw [List.mem_singleton.mp (show b ∈ [58] from hb)]
        decide
      · exact hdigits b (isDigit_of_mem_itoa hb)
    have hmem : 58 ∈ route.backend := by
      rw [hbackend]
      exact List.mem_append_left _ (List.mem_append_right _ (by decide))
    rw [trimSpace_eq_self (fun b hb => (hall b hb).1) fun b hb => (hall b hb).2]
    exact List.ne_nil_of_mem hmem
  rw [validateDiscoveredRoute, hnormal]
  simp only [if_neg hblank]
  rw [hjoin, splitHostPort_joinHostPort hbytes (port_of_atoi hatoi)]
  simp only [hport, hhost, hdns]
  rw [← hjoin]

/-! ## The routes of a set of Services -/

/-- The host a Service's annotations give. -/
def announcedHost (annotationPrefix : GoString) (service : ServiceInput) : Option GoString :=
  (candidateOf annotationPrefix service).map (·.route.host)

theorem candidateOf_eq_some {c : RouteCandidate} :
    candidateOf annotationPrefix service = some c ↔
      parseServiceAnnotations annotationPrefix service = .ok c.route ∧
        c.serviceName = service.name ∧ c.namespace_ = service.namespace_ := by
  unfold candidateOf
  cases parseServiceAnnotations annotationPrefix service with
  | error skip => simp
  | ok r =>
    simp only [Option.some.injEq, Except.ok.injEq]
    constructor
    · rintro rfl
      exact ⟨rfl, rfl, rfl⟩
    · rintro ⟨hr, hn, hs⟩
      obtain ⟨_, _, _⟩ := c
      simp_all

theorem announcedHost_eq_some {host : GoString} :
    announcedHost annotationPrefix service = some host ↔
      ∃ route, parseServiceAnnotations annotationPrefix service = .ok route ∧ route.host = host := by
  unfold announcedHost candidateOf
  cases parseServiceAnnotations annotationPrefix service with
  | error skip => simp
  | ok route => simp

section Built

variable (services : List ServiceInput) (options : Options)

/-- The candidates of a set of Services, sorted. -/
def sortedCandidates : List RouteCandidate :=
  sortStable lessCandidate (services.filterMap (candidateOf options.prefixOrDefault))

theorem count_hosts (host : GoString) :
    ((sortedCandidates services options).map (·.route.host)).count host =
      (services.filterMap (announcedHost options.prefixOrDefault)).count host := by
  have hperm : ((sortedCandidates services options).map (·.route.host)).Perm
      ((services.filterMap (candidateOf options.prefixOrDefault)).map (·.route.host)) :=
    (sortStable_perm _ _).map _
  rw [hperm.count_eq, List.map_filterMap]
  rfl

/-- A route is built from a candidate whose host no other has. -/
theorem mem_built {route : DiscoveredRoute} :
    route ∈ (buildDiscoveredRoutes services options).routes ↔
      (∃ service ∈ services,
        parseServiceAnnotations options.prefixOrDefault service = .ok route) ∧
      (services.filterMap (announcedHost options.prefixOrDefault)).count route.host ≤ 1 := by
  have hmem : ∀ c, c ∈ sortedCandidates services options ↔
      ∃ service ∈ services, candidateOf options.prefixOrDefault service = some c := by
    intro c
    rw [sortedCandidates, (sortStable_perm _ _).mem_iff, List.mem_filterMap]
  change route ∈ ((sortedCandidates services options).filter fun c => ¬ 1 <
    ((sortedCandidates services options).map (·.route.host)).count c.route.host).map (·.route) ↔ _
  simp only [List.mem_map, List.mem_filter, hmem, count_hosts, decide_eq_true_eq, Nat.not_lt]
  constructor
  · rintro ⟨c, ⟨⟨service, hs, hc⟩, hcount⟩, rfl⟩
    exact ⟨⟨service, hs, (candidateOf_eq_some.mp hc).1⟩, hcount⟩
  · rintro ⟨⟨service, hs, hparse⟩, hcount⟩
    exact ⟨⟨route, service.name, service.namespace_⟩,
      ⟨⟨service, hs, candidateOf_eq_some.mpr ⟨hparse, rfl, rfl⟩⟩, hcount⟩, rfl⟩

/-- The hosts of the built routes are distinct. -/
theorem nodup_built : ((buildDiscoveredRoutes services options).routes.map (·.host)).Nodup := by
  refine List.nodup_iff_count_le_one.mpr fun host => ?_
  by_cases hm : host ∈ (buildDiscoveredRoutes services options).routes.map (·.host)
  · obtain ⟨route, hroute, rfl⟩ := List.mem_map.mp hm
    have hcount := ((mem_built services options).mp hroute).2
    rw [← count_hosts] at hcount
    refine le_trans ?_ hcount
    change List.count route.host ((((sortedCandidates services options).filter _).map (·.route)).map
      (·.host)) ≤ _
    rw [List.map_map]
    exact (List.filter_sublist.map _).count_le _
  · simp [List.count_eq_zero.mpr hm]

/-- Every built route passes the merge's validation unchanged. -/
theorem validate_built {route : DiscoveredRoute}
    (h : route ∈ (buildDiscoveredRoutes services options).routes) :
    validateDiscoveredRoute route = .ok route := by
  obtain ⟨⟨service, -, hparse⟩, -⟩ := (mem_built services options).mp h
  exact validateDiscoveredRoute_announced (announced_of_parse hparse)

/-! ## Merging them -/

/-- All built routes are candidates of the merge, as they are. -/
theorem candidates_built : candidates (buildDiscoveredRoutes services options).routes =
    (buildDiscoveredRoutes services options).routes := by
  have hall : ∀ route ∈ (buildDiscoveredRoutes services options).routes,
      (validateDiscoveredRoute route).toOption = some route := by
    intro route h
    rw [validate_built services options h]
    rfl
  generalize (buildDiscoveredRoutes services options).routes = routes at hall
  unfold candidates
  induction routes with
  | nil => rfl
  | cons r routes ih =>
    rw [List.filterMap_cons, hall r (by simp), ih fun s hs => hall s (by simp [hs])]

/-- None is invalid. -/
theorem ignoredInvalid_built :
    ignoredInvalid (buildDiscoveredRoutes services options).routes = [] := by
  refine List.filterMap_eq_nil_iff.mpr fun route h => ?_
  rw [validate_built services options h]

/-- None is a duplicate: a static route is the one reason to ignore it. -/
theorem ignoreCandidate_built (statics : List GoString) (route : DiscoveredRoute) :
    ignoreCandidate statics (buildDiscoveredRoutes services options).routes route =
      if route.host ∈ statics then
        some ⟨route.host, route.backend, .staticRoutePrecedence,
          ⟨go "host " ++ quote route.host ++ go " is already configured by a static route", []⟩⟩
      else none := by
  have honce : hostCount (buildDiscoveredRoutes services options).routes route.host ≤ 1 := by
    have hcount := List.nodup_iff_count_le_one.mp (nodup_built services options) route.host
    rwa [List.count, List.countP_map] at hcount
  rw [ignoreCandidate, if_neg (by omega)]

/-- **Provenance of discovered backends.** Every built route is announced by
exactly one of the Services: the one at a position `i`, with no other
position whose Service gives a route for the same host. Merged with any
static routes, none is ignored as invalid or as a duplicate and none is
changed: the merged table is the static routes and the discovered ones whose
hosts are new, and the ignored ones are the others, each for the precedence
of a static route. -/
theorem discovered_provenance :
    (∀ route ∈ (buildDiscoveredRoutes services options).routes, ∃ (i : ℕ) (service : ServiceInput),
      services[i]? = some service ∧
      parseServiceAnnotations options.prefixOrDefault service = .ok route ∧
      Announced options.prefixOrDefault service route ∧
      ∀ (j : ℕ) (other : ServiceInput) (route' : DiscoveredRoute), services[j]? = some other →
        parseServiceAnnotations options.prefixOrDefault other = .ok route' →
        route'.host = route.host → j = i) ∧
    ∀ (staticRoutes : List Route) (defaultRoute : DefaultRoute),
      let routes := (buildDiscoveredRoutes services options).routes
      let merged := mergeRoutes staticRoutes routes defaultRoute
      merged.routes.Perm (staticRoutes.map normalizeStatic ++
        (routes.filter fun r => r.host ∉ staticHosts staticRoutes).map discoveredRoute) ∧
      (merged.ignored.map fun i => (i.host, i.backend, i.reason)).Perm
        ((routes.filter fun r => r.host ∈ staticHosts staticRoutes).map fun r =>
          (r.host, r.backend, .staticRoutePrecedence)) := by
  constructor
  · intro route hroute
    obtain ⟨⟨service, hs, hparse⟩, hcount⟩ := (mem_built services options).mp hroute
    obtain ⟨i, hi⟩ := List.getElem?_of_mem hs
    refine ⟨i, service, hi, hparse, announced_of_parse hparse, ?_⟩
    intro j other route' hj hother hsame
    by_contra hji
    refine Nat.not_lt.mpr hcount (one_lt_count_filterMap.mpr ⟨j, i, other, service, hji, hj, ?_, hi, ?_⟩)
    · exact announcedHost_eq_some.mpr ⟨route', hother, hsame⟩
    · exact announcedHost_eq_some.mpr ⟨route, hparse, rfl⟩
  · intro staticRoutes defaultRoute
    simp only
    have hcand := candidates_built services options
    have hignore := ignoreCandidate_built services options (staticHosts staticRoutes)
    constructor
    · refine (mergeRoutes_perm staticRoutes _ defaultRoute).trans ?_
      rw [accepted, hcand]
      refine List.Perm.append_left _ (List.Perm.of_eq (congrArg _ (List.filter_congr ?_)))
      intro route _
      rw [hignore route]
      by_cases hm : route.host ∈ staticHosts staticRoutes <;> simp [hm]
    · have hperm : (mergeRoutes staticRoutes (buildDiscoveredRoutes services options).routes
          defaultRoute).ignored.Perm ((buildDiscoveredRoutes services options).routes.filterMap
            (ignoreCandidate (staticHosts staticRoutes)
              (buildDiscoveredRoutes services options).routes)) := by
        refine (sortStable_perm _ _).trans ?_
        rw [ignoredInvalid_built, List.nil_append, hcand]
        exact (sortStable_perm _ _).filterMap _
      refine (hperm.map _).trans (List.Perm.of_eq ?_)
      rw [List.map_filterMap, ← List.filterMap_eq_map, List.filterMap_filter]
      refine List.filterMap_congr fun route _ => ?_
      rw [hignore route]
      by_cases hm : route.host ∈ staticHosts staticRoutes <;> simp [hm]

end Built

end Discovery

end McRouter
