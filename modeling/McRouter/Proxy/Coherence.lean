import McRouter.Proxy.Server
import McRouter.Proxy.Routing

/-!
# Coherence of the active state

The state is always the one a fresh start would build from two inputs: the
static configuration and the discovered routes that were last set. Each
call replaces one of them, or both, and re-derives the rest
(`run_coherent`); a call that fails changes nothing (`run_eq_of_ne_ok`).
So it does not matter in which order two calls set different inputs.
-/

namespace McRouter

namespace Proxy

open Config Kubernetes Discovery

/-! ## Building -/

/-- The router of a configuration does not depend on the environment it was
validated in. -/
theorem router_new_unique {env env' : Env} {cfg : Config} {r r' : Router}
    (h : Router.new env cfg = .ok r) (h' : Router.new env' cfg = .ok r') : r = r' := by
  unfold Router.new at h h'
  split at h
  · cases h
  split at h'
  · cases h'
  cases hins : Router.insertRoutes ∅ cfg.routes with
  | error err => simp [hins] at h
  | ok routes =>
    simp only [hins, Except.ok.injEq] at h h'
    exact h.symm.trans h'

/-- What a snapshot is built of. -/
theorem buildRouteSnapshot_eq_ok {env : Env} {cfg : Config} {discovered : List DiscoveredRoute}
    {snapshot : RouteSnapshot} (h : buildRouteSnapshot env cfg discovered = .ok snapshot) :
    cfg.validate env = none ∧ ∃ r, Router.new env (mergedConfig cfg discovered) = .ok r ∧
      snapshot = ⟨cfg, mergedConfig cfg discovered, r,
        mergeRoutes cfg.routes discovered cfg.defaultRoute, discovered⟩ := by
  unfold buildRouteSnapshot at h
  split at h
  · cases h
  rename_i hvalid
  split at h
  · cases h
  rename_i r hr
  exact ⟨hvalid, r, hr, (Except.ok.inj h).symm⟩

/-- A valid configuration has a listen address. -/
theorem listen_ne {env : Env} {cfg : Config} (h : cfg.validate env = none) : cfg.listen ≠ [] := by
  have hsec := List.flatten_eq_nil_iff.mp (validate_eq_none.mp h).1 _ List.mem_cons_self
  intro hnil
  rw [hnil] at hsec
  exact absurd hsec (by decide)

/-- A valid configuration has a client policy. -/
theorem policy_of_valid {env : Env} {cfg : Config} (h : cfg.validate env = none) :
    ∃ policy, ClientPolicy.new cfg.clientPolicy.allow cfg.clientPolicy.deny = .ok policy := by
  have hsec := List.flatten_eq_nil_iff.mp (validate_eq_none.mp h).1
    (validateClientPolicy cfg.clientPolicy).toList
    (by iterate 3 apply List.mem_cons_of_mem
        exact List.mem_cons_self)
  cases hp : ClientPolicy.new cfg.clientPolicy.allow cfg.clientPolicy.deny with
  | error err => simp [validateClientPolicy, hp] at hsec
  | ok policy => exact ⟨policy, rfl⟩

/-- A valid configuration has a list of trusted proxies. -/
theorem trusted_of_valid {env : Env} {cfg : Config} (h : cfg.validate env = none) :
    ∃ prefixes, ProxyProtocol.parseCIDRs cfg.proxyProtocol.trustedProxies = .ok prefixes := by
  have hsec := List.flatten_eq_nil_iff.mp (validate_eq_none.mp h).1 _
    (by iterate 5 apply List.mem_cons_of_mem
        exact List.mem_cons_self)
  cases hp : ProxyProtocol.parseCIDRs cfg.proxyProtocol.trustedProxies with
  | error err => simp [failAt, hp] at hsec
  | ok prefixes => exact ⟨prefixes, rfl⟩

/-! ## The invariant -/

/-- `s` is what a server started from `static` and `discovered` would hold,
at generation `gen`. -/
def Coherent (s : ServerState) (gen : Int64) (static : Config) (discovered : List DiscoveredRoute) :
    Prop :=
  ∃ env snapshot, buildRouteSnapshot env static discovered = .ok snapshot ∧
    stateOfSnapshot gen snapshot = some s

/-- A built snapshot can always be stored: the panics of `newServerState`
are out of reach. -/
theorem exists_coherent {env : Env} {static : Config} {discovered : List DiscoveredRoute}
    {snapshot : RouteSnapshot} (h : buildRouteSnapshot env static discovered = .ok snapshot)
    (gen : Int64) : ∃ s, stateOfSnapshot gen snapshot = some s ∧ Coherent s gen static discovered := by
  obtain ⟨hvalid, r, -, rfl⟩ := buildRouteSnapshot_eq_ok h
  obtain ⟨policy, hpolicy⟩ := policy_of_valid hvalid
  obtain ⟨prefixes, htrusted⟩ := trusted_of_valid hvalid
  have hs : ∃ s, stateOfSnapshot gen ⟨static, mergedConfig static discovered, r,
      mergeRoutes static.routes discovered static.defaultRoute, discovered⟩ = some s := by
    simp [stateOfSnapshot, newServerState, mergedConfig, hpolicy, htrusted]
  obtain ⟨s, hs⟩ := hs
  exact ⟨s, hs, env, _, h, hs⟩

namespace Coherent

variable {s s' : ServerState} {gen : Int64} {static : Config} {discovered : List DiscoveredRoute}

/-- The fields of a coherent state. -/
theorem fields (h : Coherent s gen static discovered) :
    s.generation = gen ∧ s.staticConfig = static ∧ s.cfg = mergedConfig static discovered ∧
      s.discoveredRoutes = discovered ∧ ∃ env, Router.new env s.cfg = .ok s.router := by
  obtain ⟨env, snapshot, hbuild, hstate⟩ := h
  obtain ⟨hvalid, r, hr, rfl⟩ := buildRouteSnapshot_eq_ok hbuild
  simp only [stateOfSnapshot, if_neg (listen_ne hvalid), newServerState] at hstate
  split at hstate
  · cases hstate
  split at hstate
  · cases hstate
  cases hstate
  exact ⟨rfl, rfl, rfl, rfl, env, hr⟩

/-- Who may connect, in a coherent state. -/
theorem access (h : Coherent s gen static discovered) :
    (∃ env, static.validate env = none) ∧
      ClientPolicy.new static.clientPolicy.allow static.clientPolicy.deny = .ok s.clientPolicy ∧
      ProxyProtocol.parseCIDRs static.proxyProtocol.trustedProxies = .ok s.trustedProxies ∧
      s.clientRateLimit = RateLimit.new (rateLimitConfig static.clientRateLimit) := by
  obtain ⟨env, snapshot, hbuild, hstate⟩ := h
  obtain ⟨hvalid, r, -, rfl⟩ := buildRouteSnapshot_eq_ok hbuild
  simp only [stateOfSnapshot, if_neg (listen_ne hvalid), newServerState] at hstate
  split at hstate
  · cases hstate
  rename_i policy hpolicy
  split at hstate
  · cases hstate
  rename_i trusted htrusted
  cases hstate
  exact ⟨⟨env, hvalid⟩, hpolicy, htrusted, rfl⟩

/-- The inputs determine the state. -/
theorem unique (h : Coherent s gen static discovered) (h' : Coherent s' gen static discovered) :
    s = s' := by
  obtain ⟨env, snapshot, hbuild, hstate⟩ := h
  obtain ⟨env', snapshot', hbuild', hstate'⟩ := h'
  obtain ⟨-, r, hr, rfl⟩ := buildRouteSnapshot_eq_ok hbuild
  obtain ⟨-, r', hr', rfl⟩ := buildRouteSnapshot_eq_ok hbuild'
  rw [router_new_unique hr hr', hstate', Option.some.injEq] at hstate
  exact hstate.symm

end Coherent

/-! ## One call -/

/-- The static configuration a call sets, if it succeeds. -/
def Call.staticSet : Call → Option Config
  | .reloadFile loaded => loaded.toOption
  | .reloadConfigWithDiscovery cfg _ => some cfg
  | .updateDiscoveredRoutes _ _ => none

/-- The routes that a provider answers with: an empty list where there is no
provider, and nothing where it fails. -/
def answeredRoutes : Provided → Option (List DiscoveredRoute)
  | none => some []
  | some (.ok routes) => some routes
  | some (.error _) => none

/-- The discovered routes a call sets, if it succeeds. -/
def Call.discoveredSet : Call → Option (List DiscoveredRoute)
  | .reloadFile _ => none
  | .reloadConfigWithDiscovery _ provider => answeredRoutes provider
  | .updateDiscoveredRoutes _ provider => answeredRoutes provider

/-- The code takes what the provider answers. -/
theorem answeredRoutes_eq_some {provider : Provided} {routes : List DiscoveredRoute} :
    answeredRoutes provider = some routes ↔ discoveredRoutesFromProvider provider = .ok routes := by
  cases provider with
  | none => simp [answeredRoutes, discoveredRoutesFromProvider]
  | some answer => cases answer <;> simp [answeredRoutes, discoveredRoutesFromProvider]

section Step

variable {env : Env} {s s' : ServerState} {gen : Int64} {static : Config}
variable {discovered : List DiscoveredRoute} {o : Outcome}

theorem applySnapshot_eq_of_ne_ok {built : Except Err RouteSnapshot}
    (h : (applySnapshot s built).1 ≠ .ok) : (applySnapshot s built).2 = s := by
  unfold applySnapshot at h ⊢
  split
  · rfl
  · split
    · rfl
    · rename_i hs
      simp [hs] at h

/-- Storing what was built from new inputs is coherent with them. -/
theorem applySnapshot_coherent (h : Coherent s gen static discovered) {static' : Config}
    {discovered' : List DiscoveredRoute} {o : Outcome}
    (hrun : applySnapshot s (buildRouteSnapshot env static' discovered') = (o, s')) :
    o ≠ .panicked ∧ (o = .ok → Coherent s' (gen + 1) static' discovered') := by
  cases hb : buildRouteSnapshot env static' discovered' with
  | error err =>
    rw [hb] at hrun
    cases hrun
    exact ⟨by simp, by simp⟩
  | ok snapshot =>
    obtain ⟨s₁, hs₁, hcoh⟩ := exists_coherent hb (s.generation + 1)
    rw [hb, applySnapshot, updateRouteSnapshotLocked, hs₁] at hrun
    cases hrun
    exact ⟨by simp, fun _ => h.fields.1 ▸ hcoh⟩

/-- What is built from a valid configuration is stored. -/
theorem applySnapshot_ok {static' : Config} (hvalid : static'.validate env = none)
    (s : ServerState) (discovered' : List DiscoveredRoute) :
    ∃ snapshot, buildRouteSnapshot env static' discovered' = .ok snapshot ∧
      (applySnapshot s (.ok snapshot)).1 = .ok := by
  obtain ⟨snapshot, hb, -⟩ := select_eq_decision hvalid discovered'
  obtain ⟨s₁, hs₁, -⟩ := exists_coherent hb (s.generation + 1)
  refine ⟨snapshot, hb, ?_⟩
  rw [applySnapshot, updateRouteSnapshotLocked, hs₁]

/-- **What a call can do**: fail at once, or store what it builds from the
inputs it sets and the current ones it does not. -/
theorem run_cases (env : Env) (s : ServerState) (call : Call) :
    (∃ err, call.run env s = (.failed err, s)) ∨
      call.run env s = applySnapshot s (buildRouteSnapshot env (call.staticSet.getD s.staticConfig)
        (call.discoveredSet.getD s.discoveredRoutes)) := by
  cases call with
  | reloadFile loaded =>
    cases loaded with
    | error err => exact Or.inl ⟨err, rfl⟩
    | ok cfg => exact Or.inr rfl
  | reloadConfigWithDiscovery cfg provider =>
    simp only [Call.run, reloadConfigWithDiscovery, Call.staticSet, Call.discoveredSet]
    cases hp : discoveredRoutesFromProvider provider with
    | error err => exact Or.inl ⟨err, rfl⟩
    | ok routes =>
      rw [answeredRoutes_eq_some.mpr hp]
      exact Or.inr rfl
  | updateDiscoveredRoutes ctx provider =>
    simp only [Call.run, Call.staticSet, Call.discoveredSet]
    cases ctx with
    | none => exact Or.inl ⟨_, rfl⟩
    | some ctx =>
      obtain ⟨entered, locked, built⟩ := ctx
      simp only [updateDiscoveredRoutes]
      cases entered with
      | some err => exact Or.inl ⟨err, rfl⟩
      | none =>
        cases hp : discoveredRoutesFromProvider provider with
        | error err => exact Or.inl ⟨err, rfl⟩
        | ok routes =>
          cases locked with
          | some err => exact Or.inl ⟨err, rfl⟩
          | none =>
            simp only [answeredRoutes_eq_some.mpr hp, Option.getD_none, Option.getD_some]
            cases buildRouteSnapshot env s.staticConfig routes with
            | error err => exact Or.inl ⟨err, rfl⟩
            | ok snapshot =>
              cases built with
              | some err => exact Or.inl ⟨err, rfl⟩
              | none => exact Or.inr rfl

/-- **A call that fails changes nothing.** -/
theorem run_eq_of_ne_ok {call : Call} (h : (call.run env s).1 ≠ .ok) : (call.run env s).2 = s := by
  rcases run_cases env s call with ⟨err, hrun⟩ | hrun
  · rw [hrun]
  · rw [hrun] at h ⊢
    exact applySnapshot_eq_of_ne_ok h

/-- **A call that succeeds replaces the inputs it sets** and leaves a state
coherent with them; no call panics. -/
theorem run_coherent (h : Coherent s gen static discovered) (env : Env) (call : Call) :
    (call.run env s).1 ≠ .panicked ∧ ((call.run env s).1 = .ok →
      Coherent (call.run env s).2 (gen + 1) (call.staticSet.getD static)
        (call.discoveredSet.getD discovered)) := by
  obtain ⟨-, hstatic, -, hdisc, -⟩ := h.fields
  rcases run_cases env s call with ⟨err, hrun⟩ | hrun
  · rw [hrun]
    exact ⟨by simp, by simp⟩
  · rw [hstatic, hdisc] at hrun
    rw [hrun]
    exact applySnapshot_coherent h Prod.mk.eta.symm

end Step

/-! ## Runs -/

/-- The calls one after the other, with what became of each. -/
def runCalls : ServerState → List (Env × Call) → List (Call × Outcome) × ServerState
  | s, [] => ([], s)
  | s, (env, call) :: rest =>
    let (outcome, s') := call.run env s
    let (history, s'') := runCalls s' rest
    ((call, outcome) :: history, s'')

/-- What the last successful call that set it left, or `initial`. -/
def lastSet {α : Type} (set : Call → Option α) (initial : α) (history : List (Call × Outcome)) : α :=
  history.foldl (fun current p => if p.2 = .ok then (set p.1).getD current else current) initial

/-- The number of calls that succeeded. -/
def successes (history : List (Call × Outcome)) : ℕ := history.countP fun p => p.2 = .ok

/-- **Along every run** the state stays coherent with the inputs last set. -/
theorem runCalls_coherent (calls : List (Env × Call)) : ∀ {s : ServerState} {gen : Int64}
    {static : Config} {discovered : List DiscoveredRoute}, Coherent s gen static discovered →
      Coherent (runCalls s calls).2 (gen + Int64.ofNat (successes (runCalls s calls).1))
        (lastSet Call.staticSet static (runCalls s calls).1)
        (lastSet Call.discoveredSet discovered (runCalls s calls).1) ∧
      ∀ p ∈ (runCalls s calls).1, p.2 ≠ .panicked := by
  induction calls with
  | nil =>
    intro s gen static discovered h
    refine ⟨?_, by simp [runCalls]⟩
    simpa [runCalls, successes, lastSet] using h
  | cons c rest ih =>
    intro s gen static discovered h
    obtain ⟨env, call⟩ := c
    obtain ⟨hpanic, hok⟩ := run_coherent h env call
    simp only [runCalls, List.mem_cons, forall_eq_or_imp, lastSet, List.foldl_cons]
    by_cases hout : (call.run env s).1 = .ok
    · obtain ⟨hcoh, hrest⟩ := ih (hok hout)
      refine ⟨?_, hpanic, hrest⟩
      have hgen : gen + Int64.ofNat (successes ((call, (call.run env s).1) ::
          (runCalls (call.run env s).2 rest).1)) =
            gen + 1 + Int64.ofNat (successes (runCalls (call.run env s).2 rest).1) := by
        rw [successes, List.countP_cons_of_pos (by simpa using hout), Int64.ofNat_add,
          Int64.add_comm (Int64.ofNat _), ← Int64.add_assoc]
        rfl
      rw [hgen]
      simpa [hout, lastSet] using hcoh
    · rw [run_eq_of_ne_ok hout] at *
      obtain ⟨hcoh, hrest⟩ := ih h
      refine ⟨?_, hpanic, hrest⟩
      rw [successes, List.countP_cons_of_neg (by simpa using hout)]
      simpa [hout, lastSet, successes] using hcoh

/-- **Snapshot coherence and atomic failure.** A server started from a
built snapshot exists, and after any run of calls its routes are the merge
of its static and discovered routes, its router is the one of its
configuration, its generation counts the successful calls, its inputs are
the ones last set, and no call panicked. A failing call leaves the state as
it is, and a reload and a discovery update that succeed in either order end
in the same state. -/
theorem snapshot_coherence {env₀ : Env} {cfg₀ : Config} {discovered₀ : List DiscoveredRoute}
    {snapshot : RouteSnapshot} (hbuild : buildRouteSnapshot env₀ cfg₀ discovered₀ = .ok snapshot) :
    ∃ s₀, newServerFromSnapshot snapshot = some s₀ ∧ ∀ calls,
      let history := (runCalls s₀ calls).1
      let s := (runCalls s₀ calls).2
      s.cfg.routes =
          (mergeRoutes s.staticConfig.routes s.discoveredRoutes s.staticConfig.defaultRoute).routes ∧
        (∃ env, Router.new env s.cfg = .ok s.router) ∧
        s.generation = 1 + Int64.ofNat (successes history) ∧
        s.staticConfig = lastSet Call.staticSet cfg₀ history ∧
        s.discoveredRoutes = lastSet Call.discoveredSet discovered₀ history ∧
        (∀ p ∈ history, p.2 ≠ .panicked) ∧
        (∀ (env : Env) (call : Call), (call.run env s).1 ≠ .ok → (call.run env s).2 = s) ∧
        ∀ (env₁ env₂ env₃ env₄ : Env) (loaded : Except Err Config) (ctx ctx' : Option ContextChecks)
          (provider : Provided),
          let reloaded := reloadFile env₁ s loaded
          let thenUpdated := updateDiscoveredRoutes env₂ reloaded.2 ctx provider
          let updated := updateDiscoveredRoutes env₃ s ctx' provider
          let thenReloaded := reloadFile env₄ updated.2 loaded
          reloaded.1 = .ok → thenUpdated.1 = .ok → updated.1 = .ok → thenReloaded.1 = .ok →
            thenUpdated.2 = thenReloaded.2 := by
  obtain ⟨s₀, hs₀, hcoh₀⟩ := exists_coherent hbuild 1
  refine ⟨s₀, hs₀, fun calls => ?_⟩
  obtain ⟨hcoh, hpanic⟩ := runCalls_coherent calls hcoh₀
  obtain ⟨hgen, hstatic, hcfg, hdisc, hrouter⟩ := hcoh.fields
  refine ⟨?_, hrouter, hgen, hstatic, hdisc, hpanic, fun env call => run_eq_of_ne_ok, ?_⟩
  · rw [hcfg, hstatic, hdisc]
    rfl
  · intro env₁ env₂ env₃ env₄ loaded ctx ctx' provider reloaded thenUpdated updated thenReloaded
      h₁ h₂ h₃ h₄
    have hA := (run_coherent hcoh env₁ (.reloadFile loaded)).2 h₁
    have hA := (run_coherent hA env₂ (.updateDiscoveredRoutes ctx provider)).2 h₂
    have hB := (run_coherent hcoh env₃ (.updateDiscoveredRoutes ctx' provider)).2 h₃
    have hB := (run_coherent hB env₄ (.reloadFile loaded)).2 h₄
    exact hA.unique hB

/-- A configuration with another backend. -/
def movedConfig : Config :=
  { routes := [{ playRoute with backend := go "10.0.0.2:25565" }] }

/-- A reload, an update that finds no Services any more, and a reload that
fails. -/
def playCalls : List (Env × Call) :=
  [(emptyEnv, .reloadFile (.ok movedConfig)),
    (emptyEnv, .updateDiscoveredRoutes (some ⟨none, none, none⟩) (some (.ok []))),
    (emptyEnv, .reloadFile (.error ioEOF))]

theorem snapshot_coherence_play :
    ∃ snapshot s₀, buildRouteSnapshot emptyEnv playConfig playDiscovered = .ok snapshot ∧
      newServerFromSnapshot snapshot = some s₀ ∧
      (runCalls s₀ playCalls).1.map Prod.snd = [.ok, .ok, .failed ioEOF] ∧
      (runCalls s₀ playCalls).2.generation = 3 ∧
      (runCalls s₀ playCalls).2.staticConfig = movedConfig ∧
      (runCalls s₀ playCalls).2.discoveredRoutes = [] := by
  have hmoved : movedConfig.validate emptyEnv = none := by decide +kernel
  obtain ⟨snapshot, hbuild, -⟩ := select_eq_decision playConfig_valid playDiscovered
  obtain ⟨s₀, hs₀, hrun⟩ := snapshot_coherence hbuild
  have hreload : (reloadFile emptyEnv s₀ (.ok movedConfig)).1 = .ok := by
    obtain ⟨snapshot', hb, hok⟩ := applySnapshot_ok hmoved s₀ s₀.discoveredRoutes
    rw [reloadFile, reloadConfigLocked, hb, hok]
  have hstatic : (reloadFile emptyEnv s₀ (.ok movedConfig)).2.staticConfig = movedConfig := by
    obtain ⟨-, -, -, hset, -⟩ := hrun (playCalls.take 1)
    simpa only [playCalls, List.take, runCalls, Call.run, lastSet, List.foldl_cons, List.foldl_nil,
      hreload, if_true, Call.staticSet, Except.toOption, Option.getD_some] using hset
  have hupdate : (updateDiscoveredRoutes emptyEnv (reloadFile emptyEnv s₀ (.ok movedConfig)).2
      (some ⟨none, none, none⟩) (some (.ok []))).1 = .ok := by
    obtain ⟨snapshot', hb, hok⟩ := applySnapshot_ok hmoved
      (reloadFile emptyEnv s₀ (.ok movedConfig)).2 []
    simp only [updateDiscoveredRoutes, discoveredRoutesFromProvider, hstatic, hb, hok]
  have hhistory : (runCalls s₀ playCalls).1 = [(.reloadFile (.ok movedConfig), .ok),
      (.updateDiscoveredRoutes (some ⟨none, none, none⟩) (some (.ok [])), .ok),
      (.reloadFile (.error ioEOF), .failed ioEOF)] := by
    simp only [playCalls, runCalls, Call.run, hreload, hupdate]
    rfl
  obtain ⟨-, -, hgen, hset, hroutes, -⟩ := hrun playCalls
  rw [hhistory] at hgen hset hroutes
  exact ⟨snapshot, s₀, hbuild, hs₀, by rw [hhistory]; rfl, hgen, hset, hroutes⟩

end Proxy

end McRouter
