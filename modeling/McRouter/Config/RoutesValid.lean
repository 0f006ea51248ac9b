import McRouter.Config.Validate

/-!
# What a valid route table is

The route loop of `Validate` carries the set of addresses seen. It finds
nothing wrong exactly when every identity normalises, no two do so to the
same host, and each route's backends pass (`validateRoutes_eq_nil`): a
condition that does not see the order of the routes.
-/

namespace McRouter

namespace Config

open Strings

/-- Every identity of the route is a host name. -/
def Route.Named (route : Route) : Prop :=
  ∀ identity ∈ route.identities, ∃ host, HostAddr.normalize identity = .ok host

/-- The checks on a route's backends and status override pass. -/
def Route.BackendsValid (route : Route) : Prop :=
  validateBackend route.backend = none ∧
    (route.statusBackend ≠ [] → validateBackend route.statusBackend = none) ∧
    validateStatusOverride route.statusOverride = none

/-- A route table `Validate` accepts. -/
structure RoutesValid (routes : List Route) : Prop where
  named : ∀ route ∈ routes, route.Named
  backends : ∀ route ∈ routes, route.BackendsValid
  distinct : (routes.flatMap Route.hosts).Nodup

theorem hostsOf_cons_ok {id host : GoString} (h : HostAddr.normalize id = .ok host)
    (ids : List GoString) : hostsOf (id :: ids) = host :: hostsOf ids := by
  simp [hostsOf, h, Except.toOption]

theorem hostsOf_cons_error {id : GoString} {err : Err} (h : HostAddr.normalize id = .error err)
    (ids : List GoString) : hostsOf (id :: ids) = hostsOf ids := by
  simp [hostsOf, h, Except.toOption]

theorem failAt_eq_nil {field : GoString} {err : Option Err} : failAt field err = [] ↔ err = none := by
  cases err <;> simp [failAt]

theorem validateRouteBackends_eq_nil {i : ℕ} {route : Route} :
    validateRouteBackends i route = [] ↔ route.BackendsValid := by
  unfold validateRouteBackends Route.BackendsValid
  by_cases h : route.statusBackend = [] <;> simp [h, failAt_eq_nil]

/-- Every identity that normalises ends up among the addresses seen. -/
theorem mem_seen_validateIdentities (i : ℕ) (ids : List GoString) : ∀ (k : ℕ) (seen : List GoString)
    (a : GoString), a ∈ (validateIdentities i k seen ids).2 ↔ a ∈ hostsOf ids ∨ a ∈ seen := by
  induction ids with
  | nil => intro k seen a; simp [validateIdentities, hostsOf]
  | cons id ids ih =>
    intro k seen a
    rw [validateIdentities]
    cases hn : HostAddr.normalize id with
    | error err => rw [hostsOf_cons_error hn, ih]
    | ok addr =>
      rw [hostsOf_cons_ok hn, List.mem_cons, or_assoc]
      by_cases hs : addr ∈ seen
      · simp only [if_pos hs, ih]
        constructor
        · exact Or.inr
        · rintro (rfl | h)
          · exact Or.inr hs
          · exact h
      · simp only [if_neg hs, ih, List.mem_cons]
        exact or_left_comm

/-- The identity loop finds nothing wrong when all names are new and
distinct. -/
theorem validateIdentities_eq_nil (i : ℕ) (ids : List GoString) : ∀ (k : ℕ) (seen : List GoString),
    (validateIdentities i k seen ids).1 = [] ↔
      (∀ id ∈ ids, ∃ host, HostAddr.normalize id = .ok host) ∧ (hostsOf ids).Nodup ∧
        ∀ a ∈ hostsOf ids, a ∉ seen := by
  induction ids with
  | nil => intro k seen; simp [validateIdentities, hostsOf]
  | cons id ids ih =>
    intro k seen
    rw [validateIdentities]
    cases hn : HostAddr.normalize id with
    | error err => simp [hn]
    | ok addr =>
      rw [hostsOf_cons_ok hn]
      by_cases hs : addr ∈ seen
      · simp [hs]
      · simp only [if_neg hs, ih, List.mem_cons, List.nodup_cons, not_or, forall_eq_or_imp, hn,
          Except.ok.injEq, exists_eq', true_and]
        constructor
        · rintro ⟨hok, hnd, hnew⟩
          exact ⟨hok, ⟨fun hm => (hnew addr hm).1 rfl, hnd⟩, hs, fun a ha => (hnew a ha).2⟩
        · rintro ⟨hok, ⟨hm, hnd⟩, -, hnew⟩
          exact ⟨hok, hnd, fun a ha => ⟨fun h => hm (h ▸ ha), hnew a ha⟩⟩

theorem validateRoutes_eq_nil_from (routes : List Route) : ∀ (i : ℕ) (seen : List GoString),
    validateRoutes i seen routes = [] ↔
      RoutesValid routes ∧ ∀ a ∈ routes.flatMap Route.hosts, a ∉ seen := by
  induction routes with
  | nil =>
    intro i seen
    simp only [validateRoutes, List.flatMap_nil, true_iff]
    exact ⟨⟨by simp, by simp, by simp⟩, by simp⟩
  | cons route routes ih =>
    intro i seen
    have hmem := mem_seen_validateIdentities i route.identities 0 seen
    have hnil := validateIdentities_eq_nil i route.identities 0 seen
    rw [validateRoutes]
    simp only [List.append_eq_nil_iff, validateRouteBackends_eq_nil, ih, hnil, hmem]
    change _ ↔ RoutesValid (route :: routes) ∧ ∀ a ∈ route.hosts ++ routes.flatMap Route.hosts, _
    constructor
    · rintro ⟨⟨⟨hok, hnd, hnew⟩, hback⟩, hrest, hdisj⟩
      refine ⟨⟨?_, ?_, ?_⟩, ?_⟩
      · exact List.forall_mem_cons.mpr ⟨hok, hrest.named⟩
      · exact List.forall_mem_cons.mpr ⟨hback, hrest.backends⟩
      · refine List.nodup_append.mpr ⟨hnd, hrest.distinct, fun a ha b hb hab => ?_⟩
        exact hdisj b hb (Or.inl (hab ▸ ha))
      · intro a ha hs
        rcases List.mem_append.mp ha with ha | ha
        · exact hnew a ha hs
        · exact hdisj a ha (Or.inr hs)
    · rintro ⟨hvalid, hnew⟩
      obtain ⟨hnd, hndrest, hdisj⟩ := List.nodup_append.mp
        (show (route.hosts ++ routes.flatMap Route.hosts).Nodup from hvalid.distinct)
      refine ⟨⟨⟨hvalid.named route (by simp), hnd, fun a ha => ?_⟩,
        hvalid.backends route (by simp)⟩, ⟨fun r hr => hvalid.named r (by simp [hr]),
        fun r hr => hvalid.backends r (by simp [hr]), hndrest⟩, fun a ha hs => ?_⟩
      · exact hnew a (List.mem_append_left _ ha)
      · rcases hs with hs | hs
        · exact hdisj a hs a ha rfl
        · exact hnew a (List.mem_append_right _ ha) hs

/-- **The route loop accepts exactly the valid tables.** -/
theorem validateRoutes_eq_nil {routes : List Route} :
    validateRoutes 0 [] routes = [] ↔ RoutesValid routes := by
  simp [validateRoutes_eq_nil_from]

/-- The order of the routes does not matter. -/
theorem RoutesValid.perm {routes routes' : List Route} (h : RoutesValid routes)
    (hperm : routes.Perm routes') : RoutesValid routes' where
  named route hr := h.named route (hperm.mem_iff.mpr hr)
  backends route hr := h.backends route (hperm.mem_iff.mpr hr)
  distinct := (hperm.flatMap_right Route.hosts).nodup_iff.mp h.distinct

/-- **Validation is a check of the sections and one of the routes.** -/
theorem validate_eq_none {env : Env} {c : Config} :
    c.validate env = none ↔ sectionErrors env c = [] ∧ RoutesValid c.routes := by
  rw [validate, errorsJoin_eq_none, List.append_eq_nil_iff, validateRoutes_eq_nil]

end Config

end McRouter
