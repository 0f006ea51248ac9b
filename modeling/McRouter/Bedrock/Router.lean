import McRouter.Bedrock.Hosts
import McRouter.Common.GoMap

/-!
# Bedrock routing

`bedrockroute/router.go`: the routes of the host proxy, found by the
normalised host. The router and the configuration's validator each look for
hosts that are there twice. They agree (`insertRoutes_of_valid`), so the
router of a valid configuration is always built, no two routes share a
host, and **a request is sent to the one route that has its host, whatever
the spelling and the port** (`bedrock_routing`).
-/

namespace McRouter

namespace Bedrock

open Strings Unicode Netip Config

/-- `Route`. -/
structure Route where
  name : GoString
  hosts : List GoString
  backend : GoString
deriving DecidableEq

/-- `Selection`. -/
structure Selection where
  routeName : GoString := []
  backend : GoString := []
  matched : Bool := false
deriving DecidableEq

/-- `Router`. -/
structure Router where
  defaultBackend : GoString
  hosts : GoMap GoString Selection

/-- The selection of a route. -/
def Route.selection (route : Route) : Selection := ⟨route.name, route.backend, true⟩

/-- The loop of `NewRouter` over the hosts of a route. -/
def insertHosts (route : Route) : (hosts : GoMap GoString Selection) → (rawHosts : List GoString) →
    Except Err (GoMap GoString Selection)
  | hosts, [] => .ok hosts
  | hosts, rawHost :: rawHosts =>
    match normalizeHost rawHost with
    | .error err =>
      .error (err.prefixed (go "route " ++ quote route.name ++ go " host " ++ quote rawHost))
    | .ok host =>
      match hosts.lookup host with
      | some existing =>
        .error ⟨go "host " ++ quote host ++ go " duplicates route " ++ quote existing.routeName, []⟩
      | none => insertHosts route (hosts.insert host route.selection) rawHosts

/-- The loop of `NewRouter` over the routes. -/
def insertRoutes : (hosts : GoMap GoString Selection) → List Route →
    Except Err (GoMap GoString Selection)
  | hosts, [] => .ok hosts
  | hosts, route :: routes =>
    match insertHosts route hosts route.hosts with
    | .error err => .error err
    | .ok hosts => insertRoutes hosts routes

/-- `NewRouter`. -/
def newRouter (defaultBackend : GoString) (routes : List Route) : Except Err Router :=
  match insertRoutes ∅ routes with
  | .error err => .error err
  | .ok hosts => .ok ⟨defaultBackend, hosts⟩

/-- The selection where no route has the host. -/
def Router.defaultSelection (r : Router) : Selection := ⟨go "default", r.defaultBackend, false⟩

/-- `Select`; `none` is the nil router. -/
def select : Option Router → (requestedHost : GoString) → Selection
  | none, _ => {}
  | some r, requestedHost =>
    match normalizeHost requestedHost with
    | .error _ => r.defaultSelection
    | .ok host => (r.hosts.lookup host).getD r.defaultSelection

/-- The routes `startBedrock` hands to the host proxy. -/
def routesOf (routes : List BedrockRoute) : List Route :=
  routes.map fun route => ⟨route.name, route.hosts, route.backend⟩

/-! ## Building the router -/

/-- One of the hosts is a spelling of `host`. -/
def Spells (rawHosts : List GoString) (host : GoString) : Prop :=
  ∃ rawHost ∈ rawHosts, normalizeHost rawHost = .ok host

/-- One of the hosts of the route is a spelling of `host`. -/
def Route.HasHost (route : Route) (host : GoString) : Prop := Spells route.hosts host

instance (rawHosts : List GoString) (host : GoString) : Decidable (Spells rawHosts host) :=
  List.decidableBEx _ rawHosts

instance (route : Route) (host : GoString) : Decidable (route.HasHost host) :=
  inferInstanceAs (Decidable (Spells route.hosts host))

/-- The validator and the router have seen the same hosts. -/
def SameHosts (seenHosts : List (GoString × GoString)) (hosts : GoMap GoString Selection) : Prop :=
  ∀ host, seenHosts.lookup host = none ↔ hosts.lookup host = none

theorem spells_cons {rawHost host : GoString} {rawHosts : List GoString} :
    Spells (rawHost :: rawHosts) host ↔ normalizeHost rawHost = .ok host ∨ Spells rawHosts host :=
  List.exists_mem_cons_iff _ _ _

/-- Both take down the next host. -/
theorem SameHosts.insert {seenHosts : List (GoString × GoString)} {hosts : GoMap GoString Selection}
    (h : SameHosts seenHosts hosts) (n name : GoString) (selection : Selection) :
    SameHosts ((n, name) :: seenHosts) (hosts.insert n selection) := by
  intro host
  rw [List.lookup_cons, GoMap.lookup_insert]
  by_cases heq : host = n
  · simp [heq]
  · rw [beq_eq_false_iff_ne.mpr heq, if_neg heq]
    exact h host

/-- **Hosts the validator accepts are inserted**, and none was there
before. -/
theorem insertHosts_of_valid {i : ℕ} {name : GoString} (route : Route) : ∀ {rawHosts : List GoString}
    {hostIndex : ℕ} {seen seen' : List (GoString × GoString)} {m : GoMap GoString Selection},
    validateBedrockHosts i name hostIndex seen rawHosts = ([], seen') → SameHosts seen m →
      ∃ m', insertHosts route m rawHosts = .ok m' ∧ SameHosts seen' m' ∧
        (∀ host, Spells rawHosts host → m.lookup host = none ∧ m'.lookup host = some route.selection) ∧
        ∀ host, ¬ Spells rawHosts host → m'.lookup host = m.lookup host := by
  intro rawHosts
  induction rawHosts with
  | nil =>
    intro hostIndex seen seen' m h hsame
    obtain rfl : seen = seen' := (Prod.mk.inj h).2
    exact ⟨m, rfl, hsame, fun host ⟨_, hmem, _⟩ => absurd hmem (by simp), fun _ _ => rfl⟩
  | cons rawHost rawHosts ih =>
    intro hostIndex seen seen' m h hsame
    cases hn : normalizeHost rawHost with
    | error err => simp [validateBedrockHosts, hn] at h
    | ok n =>
      cases hseen : seen.lookup n with
      | some existing => simp [validateBedrockHosts, hn, hseen] at h
      | none =>
        simp only [validateBedrockHosts, hn, hseen] at h
        have hfree := (hsame n).mp hseen
        obtain ⟨m', hins, hsame', hin, hout⟩ := ih h (hsame.insert n name route.selection)
        -- what is inserted is not there, and is not spelled again
        have hn' : ¬ Spells rawHosts n := by
          intro hagain
          have hnone := (hin n hagain).1
          rw [GoMap.lookup_insert, if_pos rfl] at hnone
          cases hnone
        have hcons : ∀ host, Spells (rawHost :: rawHosts) host ↔ host = n ∨ Spells rawHosts host := by
          intro host
          rw [spells_cons, hn, Except.ok.injEq, eq_comm]
        refine ⟨m', ?_, hsame', fun host hhost => ?_, fun host hhost => ?_⟩
        · simp only [insertHosts, hn, hfree, hins]
        · rcases (hcons host).mp hhost with rfl | hrest
          · refine ⟨hfree, ?_⟩
            rw [hout host hn', GoMap.lookup_insert, if_pos rfl]
          · obtain ⟨hnone, hsome⟩ := hin host hrest
            have hne : host ≠ n := by
              rintro rfl
              exact hn' hrest
            rw [GoMap.lookup_insert, if_neg hne] at hnone
            exact ⟨hnone, hsome⟩
        · obtain ⟨hne, hrest⟩ := not_or.mp (mt (hcons host).mpr hhost)
          rw [hout host hrest, GoMap.lookup_insert, if_neg hne]

/-- No host of the one is a host of the other. -/
def Route.Disjoint (route route' : Route) : Prop := ∀ host, route.HasHost host → ¬ route'.HasHost host

/-- **Routes the validator accepts make a router**: it knows their hosts
and no others, and no two of them share one. -/
theorem insertRoutes_of_valid : ∀ {routes : List BedrockRoute} {i : ℕ} {seenRoutes : List GoString}
    {seen : List (GoString × GoString)} {m : GoMap GoString Selection},
    validateBedrockRoutes i seenRoutes seen routes = [] → SameHosts seen m →
      ∃ m', insertRoutes m (routesOf routes) = .ok m' ∧ (routesOf routes).Pairwise Route.Disjoint ∧
        (∀ route ∈ routesOf routes, ∀ host, route.HasHost host →
          m.lookup host = none ∧ m'.lookup host = some route.selection) ∧
        ∀ host, (∀ route ∈ routesOf routes, ¬ route.HasHost host) → m'.lookup host = m.lookup host := by
  intro routes
  induction routes with
  | nil =>
    intro i seenRoutes seen m _ _
    exact ⟨m, rfl, List.Pairwise.nil, fun route hmem => absurd hmem (by simp [routesOf]), fun _ _ => rfl⟩
  | cons route routes ih =>
    intro i seenRoutes seen m h hsame
    let first : Route := ⟨route.name, route.hosts, route.backend⟩
    cases hhosts : validateBedrockHosts i (trimSpace route.name) 0 seen route.hosts with
    | mk errs seen₁ =>
      simp only [validateBedrockRoutes, hhosts, List.append_eq_nil_iff] at h
      obtain ⟨⟨⟨-, rfl⟩, -⟩, hrest⟩ := h
      obtain ⟨m₁, hins₁, hsame₁, hin₁, hout₁⟩ := insertHosts_of_valid first hhosts hsame
      obtain ⟨m', hins', hpair, hin', hout'⟩ := ih hrest hsame₁
      -- what the first route has is there when the others come
      have hdisjoint : ∀ route' ∈ routesOf routes, first.Disjoint route' := by
        intro route' hmem host hfirst hother
        have hnone := (hin' route' hmem host hother).1
        rw [(hin₁ host hfirst).2] at hnone
        cases hnone
      refine ⟨m', ?_, List.Pairwise.cons hdisjoint hpair, ?_, ?_⟩
      · have hfirst : insertHosts first m first.hosts = .ok m₁ := hins₁
        show insertRoutes m (first :: routesOf routes) = .ok m'
        rw [insertRoutes, hfirst]
        exact hins'
      · intro route' hmem host hhost
        rcases List.mem_cons.mp hmem with rfl | hmem
        · obtain ⟨hnone, hsome⟩ := hin₁ host hhost
          refine ⟨hnone, ?_⟩
          rw [hout' host fun route' hmem' => hdisjoint route' hmem' host hhost, hsome]
        · obtain ⟨hnone, hsome⟩ := hin' route' hmem host hhost
          rw [hout₁ host fun hfirst => hdisjoint route' hmem host hfirst hhost] at hnone
          exact ⟨hnone, hsome⟩
      · intro host hnot
        obtain ⟨hfirst, hothers⟩ := List.forall_mem_cons.mp hnot
        rw [hout' host hothers, hout₁ host hfirst]

/-- An enabled section that is accepted has accepted routes. -/
theorem routes_of_validateBedrock {env : Env} {bedrock : Config.Bedrock}
    (henabled : bedrock.enabled = true) (h : validateBedrock env bedrock = none) :
    validateBedrockRoutes 0 [] [] bedrock.routes = [] := by
  rw [validateBedrock, henabled, Bool.not_true, if_neg Bool.false_ne_true, errorsJoin_eq_none,
    List.flatten_eq_nil_iff] at h
  exact h _ (by simp)

/-- Routes that share no host are told apart by any host they have. -/
theorem index_unique {routes : List Route} (hpair : routes.Pairwise Route.Disjoint) {i j : ℕ}
    {route route' : Route} (hi : routes[i]? = some route) (hj : routes[j]? = some route')
    {host : GoString} (hhost : route.HasHost host) (hhost' : route'.HasHost host) : i = j := by
  obtain ⟨hlti, rfl⟩ := List.getElem?_eq_some_iff.mp hi
  obtain ⟨hltj, rfl⟩ := List.getElem?_eq_some_iff.mp hj
  rcases Nat.lt_trichotomy i j with hlt | heq | hlt
  · exact absurd hhost' (List.pairwise_iff_getElem.mp hpair i j hlti hltj hlt host hhost)
  · exact heq
  · exact absurd hhost (List.pairwise_iff_getElem.mp hpair j i hltj hlti hlt host hhost')

/-! ## Routing -/

/-- The router of accepted routes finds the one route that has the host. -/
theorem select_of_valid {routes : List BedrockRoute}
    (h : validateBedrockRoutes 0 [] [] routes = []) (defaultBackend : GoString) :
    ∃ r, newRouter defaultBackend (routesOf routes) = .ok r ∧ r.defaultBackend = defaultBackend ∧
      ∀ requestedHost host, normalizeHost requestedHost = .ok host →
        (∀ route ∈ routesOf routes, route.HasHost host →
          select (some r) requestedHost = route.selection) ∧
        ((∀ route ∈ routesOf routes, ¬ route.HasHost host) →
          select (some r) requestedHost = r.defaultSelection) := by
  obtain ⟨m, hins, -, hin, hout⟩ := insertRoutes_of_valid (m := ∅) h fun host => by simp
  refine ⟨⟨defaultBackend, m⟩, by rw [newRouter, hins], rfl, fun requestedHost host hn => ⟨?_, ?_⟩⟩
  · intro route hmem hhost
    rw [select, hn]
    simp only [(hin route hmem host hhost).2, Option.getD_some]
  · intro hnot
    rw [select, hn]
    simp only [hout host hnot, AList.lookup_empty, Option.getD_none]

/-- **Bedrock host routing.** The routes of an accepted section always make
a router. A request goes to the one route with a host that normalises to the
same name, and to the default backend if there is none or the request does
not normalise. And the port is irrelevant: with it or without, a host
without colons that `Normalize` accepts, an IPv6 literal, or any other text
with two colons and no brackets, is what `Normalize` makes of it. -/
theorem bedrock_routing :
    (∀ env (bedrock : Config.Bedrock), bedrock.enabled = true → validateBedrock env bedrock = none →
      validateBedrockRoutes 0 [] [] bedrock.routes = []) ∧
    (∀ routes defaultBackend, validateBedrockRoutes 0 [] [] routes = [] →
      ∃ r, newRouter defaultBackend (routesOf routes) = .ok r ∧
        (∀ requestedHost host, normalizeHost requestedHost = .ok host →
          (∀ (i j : Nat) (route route' : Route), (routesOf routes)[i]? = some route →
            (routesOf routes)[j]? = some route' → route.HasHost host → route'.HasHost host → i = j) ∧
          (∀ route ∈ routesOf routes, route.HasHost host →
            select (some r) requestedHost = ⟨route.name, route.backend, true⟩) ∧
          ((∀ route ∈ routesOf routes, ¬ route.HasHost host) →
            select (some r) requestedHost = ⟨go "default", defaultBackend, false⟩)) ∧
        ∀ requestedHost err, normalizeHost requestedHost = .error err →
          select (some r) requestedHost = ⟨go "default", defaultBackend, false⟩) ∧
    (∀ s n port, 58 ∉ s → HostAddr.normalize s = .ok n → IsPort port →
      normalizeHost (s ++ [58] ++ port) = .ok n ∧ normalizeHost s = .ok n) ∧
    (∀ x port, isIP x = true → 58 ∈ x → IsPort port →
      normalizeHost ([91] ++ x ++ [93] ++ [58] ++ port) = .ok (lowerAscii x) ∧
      normalizeHost x = .ok (lowerAscii x) ∧ HostAddr.normalize x = .ok (lowerAscii x)) ∧
    ∀ x port, 91 ∉ x → 93 ∉ x → 2 ≤ x.count 58 → IsPort port →
      normalizeHost ([91] ++ x ++ [93] ++ [58] ++ port) = HostAddr.normalize x ∧
      normalizeHost x = HostAddr.normalize x := by
  refine ⟨fun env bedrock => routes_of_validateBedrock, fun routes defaultBackend h => ?_,
    fun s n port hs hn hport => ?_, fun x port hip hcolon hport => ?_, fun x port h91 h93 h hport => ?_⟩
  · obtain ⟨r, hr, rfl, hselect⟩ := select_of_valid h defaultBackend
    obtain ⟨-, -, hpair, -⟩ := insertRoutes_of_valid (m := ∅) h fun host => by simp
    refine ⟨r, hr, fun requestedHost host hn => ⟨?_, ?_, ?_⟩, fun requestedHost err hn => ?_⟩
    · intro i j route route' hi hj hhost hhost'
      exact index_unique hpair hi hj hhost hhost'
    · exact (hselect requestedHost host hn).1
    · exact (hselect requestedHost host hn).2
    · rw [select, hn]
      rfl
  · refine ⟨normalizeHost_port hs hn hport, ?_⟩
    rw [normalizeHost_of_notMem hs (HostAddr.trimSpace_ne_nil hn), hn]
  · have hcolons := colons_of_isIP hip hcolon
    have hbrackets := HostAddr.noBrackets_of_isIP hip
    have hnorm := HostAddr.normalize_of_isIP hip (Or.inl rfl) (HostAddr.text_of_isIP hip)
    refine ⟨?_, ?_, hnorm⟩
    · rw [← hnorm]
      exact normalizeHost_bracketed hbrackets hcolons hport
    · rw [normalizeHost_of_colons hbrackets.1 hcolons, hnorm]
  · exact ⟨normalizeHost_bracketed ⟨h91, h93⟩ h hport, normalizeHost_of_colons h91 h⟩

/-- The routes of `router_test.go`. -/
def playRoutes : List BedrockRoute :=
  [⟨go "creative", [go "Creative.Play.Example.COM"], go "creative:19132"⟩,
    ⟨go "survival", [go "survival.play.example.com:19133", go "2001:DB8::1"], go "survival:19132"⟩]

/-- A name in other letters with a port, an address in brackets with a port,
a host no route has and one that is none. -/
theorem bedrock_routing_play :
    ∃ r, newRouter (go "hub:19132") (routesOf playRoutes) = .ok r ∧
      select (some r) (go "creative.play.example.com:19132") =
        ⟨go "creative", go "creative:19132", true⟩ ∧
      select (some r) (go "[2001:db8::1]:19132") = ⟨go "survival", go "survival:19132", true⟩ ∧
      select (some r) (go "unknown.play.example.com:19132") = ⟨go "default", go "hub:19132", false⟩ ∧
      select (some r) (go ":19132") = ⟨go "default", go "hub:19132", false⟩ := by
  have hvalid : validateBedrockRoutes 0 [] [] playRoutes = [] := by decide +kernel
  obtain ⟨-, hrouter, hport, hip, -⟩ := bedrock_routing
  obtain ⟨r, hr, hroute, hdefault⟩ := hrouter playRoutes (go "hub:19132") hvalid
  have hdigits : (go "19132").all (fun b => 48 ≤ b && b ≤ 57) = true := by decide
  have hnum : IsPort (go "19132") := ⟨by decide, by simpa using List.all_eq_true.mp hdigits⟩
  have hname := (hport (go "creative.play.example.com") _ (go "19132") (by decide) rfl hnum).1
  have haddr := (hip (go "2001:db8::1") (go "19132") (by decide +kernel) (by decide) hnum).1
  have hunknown := (hport (go "unknown.play.example.com") _ (go "19132") (by decide) rfl hnum).1
  refine ⟨r, hr, ?_, ?_, ?_, ?_⟩
  · exact (hroute _ _ hname).2.1 ⟨go "creative", _, _⟩ List.mem_cons_self ⟨_, List.mem_cons_self, rfl⟩
  · exact (hroute _ _ haddr).2.1 ⟨go "survival", _, _⟩ (List.mem_cons_of_mem _ List.mem_cons_self)
      ⟨go "2001:DB8::1", List.mem_cons_of_mem _ List.mem_cons_self, rfl⟩
  · refine (hroute _ _ hunknown).2.2 ?_
    decide +kernel
  · exact hdefault (go ":19132") _ rfl

end Bedrock

end McRouter
