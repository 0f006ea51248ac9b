import McRouter.Discovery.Merge
import McRouter.Config.RoutesValid

/-!
# Merging keeps a table valid

Whatever is discovered, merging it into a valid route table gives a valid
route table (`mergeRoutes_valid`): normalising twice changes nothing, a
discovered backend that passes `validateDiscoveredRoute` also passes
`validateBackend`, and a discovered host is taken only where it is new.
-/

namespace McRouter

namespace Discovery

open Strings Unicode Netip Config Kubernetes Sorting

/-! ## Static routes -/

theorem normalizedOr_ok {address host : GoString} (h : HostAddr.normalize address = .ok host) :
    normalizedOr address = host := by
  rw [normalizedOr, h]

/-- **Writing a name as the merge does changes nothing for `Normalize`**,
whether the name is one or not. -/
theorem normalize_normalizedOr (address : GoString) :
    HostAddr.normalize (normalizedOr address) = HostAddr.normalize address := by
  cases h : HostAddr.normalize address with
  | ok host => rw [normalizedOr_ok h, HostAddr.normalize_idem h]
  | error err => rw [normalizedOr, h]; exact h

/-- Normalised names normalise to the same hosts. -/
theorem hostsOf_map_normalizedOr (ids : List GoString) :
    hostsOf (ids.map normalizedOr) = hostsOf ids := by
  rw [hostsOf, List.filterMap_map]
  refine List.filterMap_congr fun id _ => ?_
  rw [Function.comp_apply, normalize_normalizedOr]

theorem identities_normalizeStatic (route : Route) :
    (normalizeStatic route).identities = route.identities.map normalizedOr := by
  simp only [Route.identities, normalizeStatic, List.map_cons]

theorem hosts_normalizeStatic (route : Route) : (normalizeStatic route).hosts = route.hosts := by
  rw [Route.hosts, Route.hosts, identities_normalizeStatic, hostsOf_map_normalizedOr]

theorem named_normalizeStatic {route : Route} (h : route.Named) : (normalizeStatic route).Named := by
  intro identity hid
  rw [identities_normalizeStatic, List.mem_map] at hid
  obtain ⟨id, hmem, rfl⟩ := hid
  obtain ⟨host, hok⟩ := h id hmem
  exact ⟨host, (normalize_normalizedOr id).trans hok⟩

/-! ## Discovered routes -/

/-- A DNS label is made of label bytes. -/
theorem bytes_of_isDNSLabel {label : GoString} (h : isDNSLabel label = true) :
    ∀ b ∈ label, HostAddr.isLabelByte b = true := by
  simp only [isDNSLabel, Bool.and_eq_true, List.all_eq_true] at h
  exact h.1.1.2

theorem ne_of_isLabelByte : ∀ b : UInt8, HostAddr.isLabelByte b = true → b ≠ 58 ∧ b ≠ 91 ∧ b ≠ 93 :=
  forall_byte (by decide +kernel)

/-- A Service's DNS name has no colon and no bracket. -/
theorem bytes_of_serviceDNS {host : GoString} (h : validateServiceDNSBackend host = none) :
    ∀ b ∈ host, b ≠ 58 ∧ b ≠ 91 ∧ b ≠ 93 := by
  intro b hb
  have hlabels : ∀ part ∈ split 46 host, isDNSLabel part = true := by
    intro part hpart
    unfold validateServiceDNSBackend at h
    split at h
    · rename_i service ns svc domain rest hsplit
      rw [hsplit] at hpart
      split at h
      · cases h
      rename_i hnames
      split at h
      · cases h
      rename_i hsvc
      split at h
      · cases h
      rename_i hdom
      simp only [Bool.or_eq_true, Bool.not_eq_true', not_or, Bool.not_eq_false] at hnames
      simp only [Bool.not_eq_true', Bool.not_eq_false, List.all_eq_true] at hdom
      simp only [ne_eq, Decidable.not_not] at hsvc
      rcases List.mem_cons.mp hpart with rfl | hpart
      · exact hnames.1
      rcases List.mem_cons.mp hpart with rfl | hpart
      · exact hnames.2
      rcases List.mem_cons.mp hpart with rfl | hpart
      · rw [hsvc]
        decide
      · exact hdom part hpart
    · cases h
  rcases mem_of_mem_split 46 hb with rfl | ⟨part, hpart, hbp⟩
  · decide
  · exact ne_of_isLabelByte b (bytes_of_isDNSLabel (hlabels part hpart) b hbp)

theorem ne_of_number : ∀ b : UInt8, (digit? b).isSome = true ∨ b = 43 ∨ b = 45 →
    b ≠ 58 ∧ b ≠ 91 ∧ b ≠ 93 :=
  forall_byte (by decide +kernel)

/-- A port `Atoi` accepts has no colon and no bracket. -/
theorem port_of_atoi {s : GoString} {n : ℤ} (h : atoi s = some n) :
    ∀ b ∈ s, b ≠ 58 ∧ b ≠ 91 ∧ b ≠ 93 :=
  fun b hb => ne_of_number b (bytes_of_atoi h b hb)

/-- A normalised name is not blank. -/
theorem trimSpace_normalized {address n : GoString} (h : HostAddr.normalize address = .ok n) :
    trimSpace n ≠ [] := by
  obtain ⟨hne, -, hplain, -⟩ := HostAddr.normalize_ok h
  rwa [trimSpace_eq_self (fun b hb => (hplain b hb).2.1) fun b hb => (hplain b hb).2.2.1]

/-- **What validation makes of a discovered route**: a host in normal form
and a backend that the configuration would accept. -/
theorem validateDiscoveredRoute_ok {route c : DiscoveredRoute}
    (h : validateDiscoveredRoute route = .ok c) :
    HostAddr.normalize route.host = .ok c.host ∧ HostAddr.normalize c.host = .ok c.host ∧
      validateBackend c.backend = none := by
  unfold validateDiscoveredRoute at h
  split at h
  · cases h
  rename_i host hhost
  split at h
  · cases h
  split at h
  · cases h
  rename_i backendHost port hsplit
  split at h
  · cases h
  rename_i hport
  split at h
  · cases h
  rename_i nb hnb
  split at h
  · cases h
  rename_i hdns
  cases h
  refine ⟨hhost, HostAddr.normalize_idem hhost, ?_⟩
  unfold validateBackendPort at hport
  split at hport
  · cases hport
  rename_i hblank
  split at hport
  · cases hport
  rename_i hrange
  obtain ⟨p, hp⟩ : ∃ p, atoi port = some p := by
    cases hp : atoi port with
    | none => simp [hp] at hrange
    | some p => exact ⟨p, rfl⟩
  unfold validateBackend
  rw [splitHostPort_joinHostPort (bytes_of_serviceDNS hdns) (port_of_atoi hp)]
  simp only [if_neg (trimSpace_normalized hnb), if_neg hblank, if_neg hrange,
    HostAddr.normalize_idem hnb]

theorem mem_candidates {discovered : List DiscoveredRoute} {c : DiscoveredRoute} :
    c ∈ candidates discovered ↔ ∃ route ∈ discovered, validateDiscoveredRoute route = .ok c := by
  unfold candidates
  rw [List.mem_filterMap]
  refine exists_congr fun route => and_congr_right fun _ => ?_
  cases validateDiscoveredRoute route <;> simp [Except.toOption]

/-! ## The merged table -/

/-- The discovered routes that are taken. -/
def accepted (staticRoutes : List Route) (discovered : List DiscoveredRoute) : List DiscoveredRoute :=
  (candidates discovered).filter fun c =>
    (ignoreCandidate (staticHosts staticRoutes) (candidates discovered) c).isNone

theorem mem_accepted {staticRoutes : List Route} {discovered : List DiscoveredRoute}
    {c : DiscoveredRoute} : c ∈ accepted staticRoutes discovered ↔
      c ∈ candidates discovered ∧ hostCount (candidates discovered) c.host ≤ 1 ∧
        c.host ∉ staticHosts staticRoutes := by
  rw [accepted, List.mem_filter, ignoreCandidate]
  refine and_congr_right fun _ => ?_
  by_cases h1 : 1 < hostCount (candidates discovered) c.host
  · simp [h1]
  · by_cases h2 : c.host ∈ staticHosts staticRoutes
    · simp [h1, h2]
    · simp [h1, h2, Nat.le_of_not_lt h1]

/-- Apart from order, the merged routes are the static ones and the
accepted ones. -/
theorem mergeRoutes_perm (staticRoutes : List Route) (discovered : List DiscoveredRoute)
    (defaultRoute : DefaultRoute) :
    (mergeRoutes staticRoutes discovered defaultRoute).routes.Perm
      (staticRoutes.map normalizeStatic ++ (accepted staticRoutes discovered).map discoveredRoute) := by
  refine (sortStable_perm _ _).trans (List.Perm.append_left _ (List.Perm.map _ ?_))
  exact (sortStable_perm _ _).filter _

theorem hosts_discoveredRoute {c : DiscoveredRoute} (h : HostAddr.normalize c.host = .ok c.host) :
    (discoveredRoute c).hosts = [c.host] :=
  hostsOf_cons_ok h []

/-- The accepted hosts are distinct. -/
theorem nodup_accepted (staticRoutes : List Route) (discovered : List DiscoveredRoute) :
    ((accepted staticRoutes discovered).map (·.host)).Nodup := by
  refine List.nodup_iff_count_le_one.mpr fun host => ?_
  by_cases hm : host ∈ (accepted staticRoutes discovered).map (·.host)
  · obtain ⟨c, hc, rfl⟩ := List.mem_map.mp hm
    have hcount := (mem_accepted.mp hc).2.1
    refine le_trans ?_ hcount
    rw [List.count, List.countP_map, hostCount]
    exact List.Sublist.countP_le List.filter_sublist
  · simp [List.count_eq_zero.mpr hm]

/-- An accepted route has a host in normal form and a usable backend. -/
theorem accepted_ok {staticRoutes : List Route} {discovered : List DiscoveredRoute}
    {c : DiscoveredRoute} (h : c ∈ accepted staticRoutes discovered) :
    HostAddr.normalize c.host = .ok c.host ∧ validateBackend c.backend = none := by
  obtain ⟨route, -, hok⟩ := mem_candidates.mp (mem_accepted.mp h).1
  exact (validateDiscoveredRoute_ok hok).2

/-- The accepted hosts are new ones. -/
theorem nodup_staticHosts_accepted {staticRoutes : List Route}
    (h : (staticHosts staticRoutes).Nodup) (discovered : List DiscoveredRoute) :
    (staticHosts staticRoutes ++ (accepted staticRoutes discovered).map (·.host)).Nodup := by
  refine List.nodup_append.mpr ⟨h, nodup_accepted _ _, ?_⟩
  rintro a ha b hb rfl
  obtain ⟨c, hc, rfl⟩ := List.mem_map.mp hb
  exact (mem_accepted.mp hc).2.2 ha

/-- **Merging keeps a valid table valid**, whatever is discovered. -/
theorem mergeRoutes_valid {staticRoutes : List Route} (h : RoutesValid staticRoutes)
    (discovered : List DiscoveredRoute) (defaultRoute : DefaultRoute) :
    RoutesValid (mergeRoutes staticRoutes discovered defaultRoute).routes := by
  refine RoutesValid.perm ?_ (mergeRoutes_perm staticRoutes discovered defaultRoute).symm
  have hstatic : (staticRoutes.map normalizeStatic).flatMap Route.hosts =
      staticHosts staticRoutes := by
    rw [List.flatMap_map]
    exact List.flatMap_congr fun r _ => hosts_normalizeStatic r
  have hdisc : ((accepted staticRoutes discovered).map discoveredRoute).flatMap Route.hosts =
      (accepted staticRoutes discovered).map (·.host) := by
    rw [List.flatMap_map, List.map_eq_flatMap]
    exact List.flatMap_congr fun c hc => hosts_discoveredRoute (accepted_ok hc).1
  constructor
  · intro route hr
    rcases List.mem_append.mp hr with hr | hr
    · obtain ⟨r, hmem, rfl⟩ := List.mem_map.mp hr
      exact named_normalizeStatic (h.named r hmem)
    · obtain ⟨c, hc, rfl⟩ := List.mem_map.mp hr
      intro id hid
      rw [show id = c.host by simpa [discoveredRoute, Route.identities] using hid]
      exact ⟨c.host, (accepted_ok hc).1⟩
  · intro route hr
    rcases List.mem_append.mp hr with hr | hr
    · obtain ⟨r, hmem, rfl⟩ := List.mem_map.mp hr
      have hbackends := h.backends r hmem
      simpa only [Route.BackendsValid, normalizeStatic] using hbackends
    · obtain ⟨c, hc, rfl⟩ := List.mem_map.mp hr
      exact ⟨(accepted_ok hc).2, fun hne => absurd rfl hne, rfl⟩
  · rw [List.flatMap_append, hstatic, hdisc]
    exact nodup_staticHosts_accepted h.distinct discovered

end Discovery

end McRouter
