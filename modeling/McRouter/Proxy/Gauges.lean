import McRouter.Proxy.Coherence
import McRouter.Common.System

/-!
# What the gauges say of the active state

The server keeps three gauges of its state: its generation, its number of
routes and, with Kubernetes discovery, its number of discovered routes. The
first two are set where a snapshot is stored, so they are right after every
call (`live_step`). The third is set at the start and by
`UpdateDiscoveredRoutes`, and by nothing else: `ReloadConfigWithDiscovery`
stores other discovered routes and leaves the gauge as it was. So it stays
right as long as a reload brings as many discovered routes as there were
(`discoveredRight_step`), and is wrong after one that does not
(`not_discoveredRight_of_reload`).

The calls here do to the state what those of `Proxy.Server` do
(`meter_meters`).
-/

namespace McRouter

namespace Metrics

/-- `float64(n)`: 53 significant bits, a tie to the even neighbour. -/
def float64 (n : ℤ) : ℤ :=
  if n.natAbs < 2 ^ 53 then n
  else
    let unit := 2 ^ (n.natAbs.log2 - 52)
    let low := n.natAbs / unit
    let rest := n.natAbs % unit
    let rounded := if unit < 2 * rest ∨ (2 * rest = unit ∧ low % 2 = 1) then low + 1 else low
    n.sign * (rounded * unit : ℕ)

theorem float64_of_lt {n : ℤ} (h : n.natAbs < 2 ^ 53) : float64 n = n := if_pos h

example : float64 9007199254740993 = 9007199254740992 := by decide

/-- `Recorder`: its part for the configuration and for discovery. A counter
with labels is the map of its counts. -/
structure Recorder where
  enabled : Bool := false
  reloadTotal : GoMap GoString ℕ := ∅
  kubernetesDiscoveryErrorsTotal : GoMap GoString ℕ := ∅
  configGeneration : ℤ := 0
  routes : ℤ := 0
  kubernetesLastSuccessfulSyncTime : ℤ := 0
  kubernetesDiscoveredRoutes : ℤ := 0

def reloadResultFailed : GoString := go "failed"
def reloadResultSuccess : GoString := go "success"
def kubernetesDiscoveryErrorReasonRebuildFailed : GoString := go "rebuild_failed"
def kubernetesDiscoveryErrorReasonUnknown : GoString := go "unknown"

/-- `WithLabelValues(label).Inc()`. -/
def inc (counts : GoMap GoString ℕ) (label : GoString) : GoMap GoString ℕ :=
  counts.insert label ((counts.lookup label).getD 0 + 1)

namespace Recorder

/-- `NewRecorder`. -/
def new (enabled : Bool) : Recorder := if enabled then { enabled := true } else {}

/-- `SetConfig`. -/
def setConfig (r : Recorder) (generation : Int64) (cfg : Config) : Recorder :=
  if !r.enabled then r
  else
    { r with
      configGeneration := float64 generation.toInt
      routes := float64 cfg.routes.length }

/-- `Reload`. -/
def reload (r : Recorder) (result : GoString) : Recorder :=
  if !r.enabled then r else { r with reloadTotal := inc r.reloadTotal result }

/-- `KubernetesDiscoverySync`; `now` is the Unix time. -/
def kubernetesDiscoverySync (r : Recorder) (now : ℤ) (discoveredRoutes : ℕ) : Recorder :=
  if !r.enabled then r
  else
    { r with
      kubernetesDiscoveredRoutes := float64 discoveredRoutes
      kubernetesLastSuccessfulSyncTime := float64 now }

/-- `KubernetesDiscoveryError`. -/
def kubernetesDiscoveryError (r : Recorder) (reason : GoString) : Recorder :=
  if !r.enabled then r
  else { r with kubernetesDiscoveryErrorsTotal := inc r.kubernetesDiscoveryErrorsTotal reason }

/-- Two recorders that are enabled alike and say the same of the state. -/
def SameGauges (r r' : Recorder) : Prop :=
  r'.enabled = r.enabled ∧ r'.configGeneration = r.configGeneration ∧ r'.routes = r.routes ∧
    r'.kubernetesDiscoveredRoutes = r.kubernetesDiscoveredRoutes

theorem SameGauges.refl (r : Recorder) : SameGauges r r := ⟨rfl, rfl, rfl, rfl⟩

theorem sameGauges_reload (r : Recorder) (result : GoString) : SameGauges r (r.reload result) := by
  unfold reload
  split <;> exact ⟨rfl, rfl, rfl, rfl⟩

theorem sameGauges_kubernetesDiscoveryError (r : Recorder) (reason : GoString) :
    SameGauges r (r.kubernetesDiscoveryError reason) := by
  unfold kubernetesDiscoveryError
  split <;> exact ⟨rfl, rfl, rfl, rfl⟩

end Recorder

end Metrics

namespace Proxy

open Config Kubernetes Discovery Metrics

/-! ## The server and its recorder -/

/-- `Server`: the state and the recorder. -/
structure Server where
  state : ServerState
  metrics : Recorder

/-- `newServer`. -/
def newServer (now : ℤ) (snapshot : RouteSnapshot) : Option Server :=
  let staticConfig :=
    if snapshot.staticConfig.listen = [] then snapshot.config else snapshot.staticConfig
  let recorder := Recorder.new snapshot.config.metrics.enabled
  match newServerFromSnapshot snapshot with
  | none => none
  | some state =>
    let recorder := recorder.setConfig 1 snapshot.config
    some ⟨state, if staticConfig.kubernetes.enabled then
      recorder.kubernetesDiscoverySync now snapshot.discoveredRoutes.length else recorder⟩

namespace Server

/-- `updateRouteSnapshotLocked`. -/
def updateRouteSnapshotLocked (s : Server) (snapshot : RouteSnapshot) : Option Server :=
  match Proxy.updateRouteSnapshotLocked s.state snapshot with
  | none => none
  | some state => some ⟨state, s.metrics.setConfig (s.state.generation + 1) snapshot.config⟩

/-- Storing a snapshot and recording the success. -/
def applySnapshot (s : Server) (snapshot : RouteSnapshot) (record : Recorder → Recorder) :
    Outcome × Server :=
  match s.updateRouteSnapshotLocked snapshot with
  | none => (.panicked, s)
  | some s' => (.ok, { s' with metrics := record s'.metrics })

/-- `reloadConfigLocked`. -/
def reloadConfigLocked (env : Env) (s : Server) (cfg : Config)
    (discoveredRoutes : List DiscoveredRoute) : Outcome × Server :=
  match buildRouteSnapshot env cfg discoveredRoutes with
  | .error err => (.failed err, { s with metrics := s.metrics.reload reloadResultFailed })
  | .ok snapshot => s.applySnapshot snapshot (Recorder.reload · reloadResultSuccess)

/-- `ReloadFile`, with what `config.LoadFile` returned. -/
def reloadFile (env : Env) (s : Server) (loaded : Except Err Config) : Outcome × Server :=
  match loaded with
  | .error err => (.failed err, { s with metrics := s.metrics.reload reloadResultFailed })
  | .ok cfg => s.reloadConfigLocked env cfg s.state.discoveredRoutes

/-- `ReloadConfigWithDiscovery`. -/
def reloadConfigWithDiscovery (env : Env) (s : Server) (cfg : Config) (provider : Provided) :
    Outcome × Server :=
  match discoveredRoutesFromProvider provider with
  | .error err => (.failed err, { s with metrics := s.metrics.reload reloadResultFailed })
  | .ok discoveredRoutes => s.reloadConfigLocked env cfg discoveredRoutes

/-- `UpdateDiscoveredRoutes`; `none` is the nil context. -/
def updateDiscoveredRoutes (env : Env) (now : ℤ) (s : Server) (ctx : Option ContextChecks)
    (provider : Provided) : Outcome × Server :=
  match ctx with
  | none => (.failed ⟨go "context is nil", []⟩, s)
  | some ctx =>
    match ctx.entered with
    | some err => (.failed err, s)
    | none =>
      match discoveredRoutesFromProvider provider with
      | .error err => (.failed err, { s with
          metrics := s.metrics.kubernetesDiscoveryError kubernetesDiscoveryErrorReasonUnknown })
      | .ok discoveredRoutes =>
        match ctx.locked with
        | some err => (.failed err, s)
        | none =>
          match buildRouteSnapshot env s.state.staticConfig discoveredRoutes with
          | .error err => (.failed err, { s with
              metrics := s.metrics.kubernetesDiscoveryError
                kubernetesDiscoveryErrorReasonRebuildFailed })
          | .ok snapshot =>
            match ctx.built with
            | some err => (.failed err, s)
            | none => s.applySnapshot snapshot
                (Recorder.kubernetesDiscoverySync · now discoveredRoutes.length)

end Server

/-- One call in the environment and at the time of its moment, with the
recorder. -/
def Call.meter (env : Env) (now : ℤ) (s : Server) : Call → Outcome × Server
  | .reloadFile loaded => s.reloadFile env loaded
  | .reloadConfigWithDiscovery cfg provider => s.reloadConfigWithDiscovery env cfg provider
  | .updateDiscoveredRoutes ctx provider => s.updateDiscoveredRoutes env now ctx provider

/-- Whether a call sets the gauge of discovered routes when it succeeds. -/
def Call.syncs : Call → Bool
  | .updateDiscoveredRoutes _ _ => true
  | _ => false

/-! ## One call -/

section Step

variable {env : Env} {now : ℤ} {s : Server}

/-- What is stored of a snapshot. -/
theorem stateOfSnapshot_fields {gen : Int64} {snapshot : RouteSnapshot} {state : ServerState}
    (h : stateOfSnapshot gen snapshot = some state) :
    state.generation = gen ∧ state.cfg = snapshot.config ∧
      state.discoveredRoutes = snapshot.discoveredRoutes := by
  simp only [stateOfSnapshot, newServerState] at h
  split at h
  · cases h
  split at h
  · cases h
  obtain rfl := Option.some.inj h
  exact ⟨rfl, rfl, rfl⟩

/-- The recorder of `s'` says what is stored in `s'`; the gauge of the
discovered routes only if the call that led there from `s` sets it. -/
structure Recorded (s s' : Server) (syncs : Bool) : Prop where
  enabled : s'.metrics.enabled = true
  configGeneration : s'.metrics.configGeneration = float64 s'.state.generation.toInt
  routes : s'.metrics.routes = float64 s'.state.cfg.routes.length
  discovered : s'.metrics.kubernetesDiscoveredRoutes =
    if syncs then float64 s'.state.discoveredRoutes.length else s.metrics.kubernetesDiscoveredRoutes

/-- `metered` is the call `plain` with the recorder of `s`: a call that
fails leaves its gauges as they are, one that succeeds sets them. -/
structure Meters (s : Server) (plain : Outcome × ServerState) (metered : Outcome × Server)
    (syncs : Bool) : Prop where
  outcome : metered.1 = plain.1
  state : metered.2.state = plain.2
  unchanged : plain.1 ≠ .ok → Recorder.SameGauges s.metrics metered.2.metrics
  recorded : plain.1 = .ok → s.metrics.enabled = true → Recorded s metered.2 syncs

theorem meters_failed (err : Err) {metrics : Recorder} (h : Recorder.SameGauges s.metrics metrics)
    (syncs : Bool) : Meters s (.failed err, s.state) (.failed err, ⟨s.state, metrics⟩) syncs :=
  ⟨rfl, rfl, fun _ => h, fun hok => by cases hok⟩

/-- Storing a snapshot sets the two gauges of the configuration. -/
theorem meters_applySnapshot {snapshot : RouteSnapshot} {record : Recorder → Recorder} {syncs : Bool}
    (hrecord : ∀ r : Recorder, r.enabled = true → (record r).enabled = true ∧
      (record r).configGeneration = r.configGeneration ∧ (record r).routes = r.routes ∧
      (record r).kubernetesDiscoveredRoutes = if syncs then
        float64 snapshot.discoveredRoutes.length else r.kubernetesDiscoveredRoutes) :
    Meters s (applySnapshot s.state (.ok snapshot)) (s.applySnapshot snapshot record) syncs := by
  cases hstate : updateRouteSnapshotLocked s.state snapshot with
  | none =>
    simp only [applySnapshot, Server.applySnapshot, Server.updateRouteSnapshotLocked, hstate]
    exact ⟨rfl, rfl, fun _ => .refl _, fun hok => by cases hok⟩
  | some state =>
    obtain ⟨hgen, hcfg, hdisc⟩ := stateOfSnapshot_fields hstate
    simp only [applySnapshot, Server.applySnapshot, Server.updateRouteSnapshotLocked, hstate]
    refine ⟨rfl, rfl, fun hne => absurd rfl hne, fun _ hen => ?_⟩
    have hset : (s.metrics.setConfig (s.state.generation + 1) snapshot.config) =
        { s.metrics with
          configGeneration := float64 state.generation.toInt
          routes := float64 state.cfg.routes.length } := by
      simp [Recorder.setConfig, hen, hgen, hcfg]
    rw [hset]
    obtain ⟨hen', hgen', hroutes', hdisc'⟩ := hrecord { s.metrics with
      configGeneration := float64 state.generation.toInt
      routes := float64 state.cfg.routes.length } hen
    exact ⟨hen', hgen', hroutes', by rw [hdisc', hdisc]⟩

theorem meters_reloadConfigLocked (env : Env) (s : Server) (cfg : Config)
    (discovered : List DiscoveredRoute) :
    Meters s (reloadConfigLocked env s.state cfg discovered)
      (s.reloadConfigLocked env cfg discovered) false := by
  unfold reloadConfigLocked Server.reloadConfigLocked
  cases buildRouteSnapshot env cfg discovered with
  | error err => exact meters_failed err (Recorder.sameGauges_reload _ _) _
  | ok snapshot =>
    refine meters_applySnapshot fun r hen => ?_
    obtain ⟨hen', hgen, hroutes, hdisc⟩ := r.sameGauges_reload reloadResultSuccess
    exact ⟨hen'.trans hen, hgen, hroutes, hdisc⟩

theorem meters_updateDiscoveredRoutes (env : Env) (now : ℤ) (s : Server)
    (ctx : Option ContextChecks) (provider : Provided) :
    Meters s (updateDiscoveredRoutes env s.state ctx provider)
      (s.updateDiscoveredRoutes env now ctx provider) true := by
  cases ctx with
  | none => exact meters_failed _ (.refl _) _
  | some ctx =>
    obtain ⟨entered, locked, built⟩ := ctx
    simp only [updateDiscoveredRoutes, Server.updateDiscoveredRoutes]
    cases entered with
    | some err => exact meters_failed _ (.refl _) _
    | none =>
      cases discoveredRoutesFromProvider provider with
      | error err => exact meters_failed _ (Recorder.sameGauges_kubernetesDiscoveryError _ _) _
      | ok routes =>
        cases locked with
        | some err => exact meters_failed _ (.refl _) _
        | none =>
          dsimp only
          cases hb : buildRouteSnapshot env s.state.staticConfig routes with
          | error err => exact meters_failed _ (Recorder.sameGauges_kubernetesDiscoveryError _ _) _
          | ok snapshot =>
            cases built with
            | some err => exact meters_failed _ (.refl _) _
            | none =>
              obtain ⟨-, r, -, rfl⟩ := buildRouteSnapshot_eq_ok hb
              refine meters_applySnapshot fun r hen => ?_
              simp [Recorder.kubernetesDiscoverySync, hen]

/-- **What a call does to the recorder.** -/
theorem meter_meters (env : Env) (now : ℤ) (s : Server) (call : Call) :
    Meters s (call.run env s.state) (call.meter env now s) call.syncs := by
  cases call with
  | reloadFile loaded =>
    cases loaded with
    | error err => exact meters_failed err (Recorder.sameGauges_reload _ _) _
    | ok cfg => exact meters_reloadConfigLocked env s cfg _
  | reloadConfigWithDiscovery cfg provider =>
    simp only [Call.run, Call.meter, reloadConfigWithDiscovery, Server.reloadConfigWithDiscovery]
    cases discoveredRoutesFromProvider provider with
    | error err => exact meters_failed err (Recorder.sameGauges_reload _ _) _
    | ok routes => exact meters_reloadConfigLocked env s cfg routes
  | updateDiscoveredRoutes ctx provider => exact meters_updateDiscoveredRoutes env now s ctx provider

end Step

/-! ## Runs -/

/-- A call with the environment and the time of its moment. -/
structure Moment where
  env : Env
  now : ℤ
  call : Call

/-- A call is always possible. -/
def meterStep (s : Server) (m : Moment) : Option Server := some (m.call.meter m.env m.now s).2

/-- The recorder is on, the state is one a server can have, and the two
gauges of the configuration are right. -/
structure Live (s : Server) : Prop where
  enabled : s.metrics.enabled = true
  coherent : ∃ gen static discovered, Coherent s.state gen static discovered
  configGeneration : s.metrics.configGeneration = float64 s.state.generation.toInt
  routes : s.metrics.routes = float64 s.state.cfg.routes.length

/-- The gauge of the discovered routes is right. -/
def DiscoveredRight (s : Server) : Prop :=
  s.metrics.kubernetesDiscoveredRoutes = float64 s.state.discoveredRoutes.length

/-- A reload that goes through brings as many discovered routes as there
are in the active state. -/
def KeepsCount (s : Server) (m : Moment) : Prop :=
  ∀ cfg provider routes, m.call = .reloadConfigWithDiscovery cfg provider →
    cfg.validate m.env = none → discoveredRoutesFromProvider provider = .ok routes →
      routes.length = s.state.discoveredRoutes.length

/-- The server a snapshot is started with. -/
theorem newServer_live {env : Env} {cfg : Config} {discovered : List DiscoveredRoute}
    {snapshot : RouteSnapshot} (hbuild : buildRouteSnapshot env cfg discovered = .ok snapshot)
    (hmetrics : cfg.metrics.enabled = true) (hkube : cfg.kubernetes.enabled = true) (now : ℤ) :
    ∃ s, newServer now snapshot = some s ∧ newServerFromSnapshot snapshot = some s.state ∧
      Live s ∧ DiscoveredRight s := by
  obtain ⟨state, hstate, hcoh⟩ := exists_coherent hbuild 1
  obtain ⟨hgen, hcfg, hdisc⟩ := stateOfSnapshot_fields hstate
  obtain ⟨hvalid, r, -, rfl⟩ := buildRouteSnapshot_eq_ok hbuild
  have hmerged : (mergedConfig cfg discovered).metrics.enabled = true := hmetrics
  have hlisten : (if cfg.listen = [] then mergedConfig cfg discovered else cfg).kubernetes.enabled =
      true := by
    rw [if_neg (listen_ne hvalid)]
    exact hkube
  refine ⟨⟨state, { enabled := true
                    configGeneration := float64 state.generation.toInt
                    routes := float64 state.cfg.routes.length
                    kubernetesLastSuccessfulSyncTime := float64 now
                    kubernetesDiscoveredRoutes := float64 state.discoveredRoutes.length }⟩,
    ?_, hstate, ⟨rfl, ⟨_, _, _, hcoh⟩, rfl, rfl⟩, rfl⟩
  simp only [newServer, newServerFromSnapshot, hstate, hlisten, hmerged, hgen, hcfg, hdisc]
  rfl

section Step

variable {s s' : Server} {m : Moment}

/-- **The gauges of the configuration are right after every call.** -/
theorem live_step (h : Live s) (hs : meterStep s m = some s') : Live s' := by
  obtain rfl := Option.some.inj hs
  obtain ⟨-, hstate, hsame, hrec⟩ := meter_meters m.env m.now s m.call
  obtain ⟨gen, static, discovered, hcoh⟩ := h.coherent
  by_cases hok : (m.call.run m.env s.state).1 = .ok
  · obtain ⟨hen, hgen, hroutes, -⟩ := hrec hok h.enabled
    have hcoh' := (run_coherent hcoh m.env m.call).2 hok
    rw [← hstate] at hcoh'
    exact ⟨hen, ⟨_, _, _, hcoh'⟩, hgen, hroutes⟩
  · obtain ⟨hen, hgen, hroutes, -⟩ := hsame hok
    rw [run_eq_of_ne_ok hok] at hstate
    refine ⟨hen.trans h.enabled, ?_, ?_, ?_⟩
    · rw [hstate]
      exact h.coherent
    · rw [hgen, hstate, h.configGeneration]
    · rw [hroutes, hstate, h.routes]

/-- When a reload goes through. -/
theorem reload_ok_iff {env : Env} {cfg : Config} {provider : Provided} :
    ((Call.reloadConfigWithDiscovery cfg provider).run env s.state).1 = .ok ↔
      cfg.validate env = none ∧ ∃ routes, discoveredRoutesFromProvider provider = .ok routes := by
  simp only [Call.run, reloadConfigWithDiscovery]
  cases discoveredRoutesFromProvider provider with
  | error err => simp
  | ok routes =>
    simp only [reloadConfigLocked, Except.ok.injEq, exists_eq', and_true]
    constructor
    · intro hok
      cases hb : buildRouteSnapshot env cfg routes with
      | error err => simp [hb, applySnapshot] at hok
      | ok snapshot => exact (buildRouteSnapshot_eq_ok hb).1
    · intro hvalid
      obtain ⟨snapshot, hb, hok⟩ := applySnapshot_ok hvalid s.state routes
      rw [hb, hok]

/-- What the discovered routes are after a call that goes through. -/
theorem discoveredRoutes_of_ok (h : Live s) {env : Env} {call : Call}
    (hok : (call.run env s.state).1 = .ok) :
    (call.run env s.state).2.discoveredRoutes = call.discoveredSet.getD s.state.discoveredRoutes := by
  obtain ⟨gen, static, discovered, hcoh⟩ := h.coherent
  rw [((run_coherent hcoh env call).2 hok).fields.2.2.2.1, hcoh.fields.2.2.2.1]

/-- A reload that goes through stores the routes of the provider and leaves
the gauge of the discovered routes as it was. -/
theorem meter_reload_of_ok (h : Live s) {env : Env} (now : ℤ) {cfg : Config} {provider : Provided}
    {routes : List DiscoveredRoute} (hvalid : cfg.validate env = none)
    (hprovider : discoveredRoutesFromProvider provider = .ok routes) :
    let s' := (Call.meter env now s (.reloadConfigWithDiscovery cfg provider)).2
    s'.state.discoveredRoutes = routes ∧
      s'.metrics.kubernetesDiscoveredRoutes = s.metrics.kubernetesDiscoveredRoutes := by
  have hok : ((Call.reloadConfigWithDiscovery cfg provider).run env s.state).1 = .ok :=
    reload_ok_iff.mpr ⟨hvalid, routes, hprovider⟩
  obtain ⟨-, hstate, -, hrec⟩ := meter_meters env now s (.reloadConfigWithDiscovery cfg provider)
  have hroutes := discoveredRoutes_of_ok h hok
  simp only [Call.discoveredSet, answeredRoutes_eq_some.mpr hprovider, Option.getD_some] at hroutes
  exact ⟨hstate ▸ hroutes, (hrec hok h.enabled).discovered⟩

/-- **The gauge of the discovered routes stays right** in a step that keeps
the count. -/
theorem discoveredRight_step (h : Live s) (hright : DiscoveredRight s) (hkeeps : KeepsCount s m)
    (hs : meterStep s m = some s') : DiscoveredRight s' := by
  obtain rfl := Option.some.inj hs
  obtain ⟨env, now, call⟩ := m
  dsimp only
  obtain ⟨-, hstate, hsame, hrec⟩ := meter_meters env now s call
  unfold DiscoveredRight at hright ⊢
  by_cases hok : (call.run env s.state).1 = .ok
  · have hdisc := (hrec hok h.enabled).discovered
    cases call with
    | reloadFile loaded =>
      have hroutes := discoveredRoutes_of_ok h hok
      rw [hstate, hroutes]
      exact hdisc.trans hright
    | reloadConfigWithDiscovery cfg provider =>
      obtain ⟨hvalid, routes, hprovider⟩ := reload_ok_iff.mp hok
      obtain ⟨hroutes, hgauge⟩ := meter_reload_of_ok h now hvalid hprovider
      rw [hgauge, hright, hroutes, hkeeps cfg provider routes rfl hvalid hprovider]
    | updateDiscoveredRoutes ctx provider => exact hdisc
  · rw [(hsame hok).2.2.2, hstate, run_eq_of_ne_ok hok, hright]

/-- **A reload that changes the count leaves the gauge wrong.** -/
theorem not_discoveredRight_of_reload (h : Live s) (hright : DiscoveredRight s) {env : Env}
    (now : ℤ) {cfg : Config} {provider : Provided} {routes : List DiscoveredRoute}
    (hvalid : cfg.validate env = none)
    (hprovider : discoveredRoutesFromProvider provider = .ok routes)
    (hne : routes.length ≠ s.state.discoveredRoutes.length) (hlt : routes.length < 2 ^ 53)
    (hlt' : s.state.discoveredRoutes.length < 2 ^ 53) :
    ¬ DiscoveredRight (Call.meter env now s (.reloadConfigWithDiscovery cfg provider)).2 := by
  obtain ⟨hroutes, hgauge⟩ := meter_reload_of_ok h now hvalid hprovider
  intro hwrong
  rw [DiscoveredRight, hgauge, hright, hroutes, float64_of_lt (by simpa using hlt'),
    float64_of_lt (by simpa using hlt)] at hwrong
  exact hne (by exact_mod_cast hwrong.symm)

end Step

/-- Every server reached is live. -/
theorem live_run {s s' : Server} (h : Live s) {moments : List Moment}
    (hrun : System.run meterStep s moments = some s') : Live s' :=
  System.run_invariant_of_step (fun _ _ _ hlive hs => live_step hlive hs) h hrun

/-- **The gauges tell the state.** A server started with metrics and
Kubernetes discovery exists, and after any run of calls its first two
gauges are its generation and its number of merged routes; the third is its
number of discovered routes after every run in which a reload that goes
through keeps that number. A number is shown as it is below `2 ^ 53`. -/
theorem gauges_tell_the_state {env₀ : Env} {cfg₀ : Config} {discovered₀ : List DiscoveredRoute}
    {snapshot : RouteSnapshot} (hbuild : buildRouteSnapshot env₀ cfg₀ discovered₀ = .ok snapshot)
    (hmetrics : cfg₀.metrics.enabled = true) (hkube : cfg₀.kubernetes.enabled = true) (now : ℤ) :
    ∃ s₀, newServer now snapshot = some s₀ ∧ newServerFromSnapshot snapshot = some s₀.state ∧
      (∀ moments s, System.run meterStep s₀ moments = some s →
        s.metrics.configGeneration = float64 s.state.generation.toInt ∧
        s.metrics.routes = float64 (mergeRoutes s.state.staticConfig.routes s.state.discoveredRoutes
          s.state.staticConfig.defaultRoute).routes.length ∧
        (System.Meets meterStep KeepsCount s₀ moments →
          s.metrics.kubernetesDiscoveredRoutes = float64 s.state.discoveredRoutes.length)) ∧
      ∀ n : ℤ, n.natAbs < 2 ^ 53 → float64 n = n := by
  obtain ⟨s₀, hs₀, hstate₀, hlive₀, hright₀⟩ := newServer_live hbuild hmetrics hkube now
  refine ⟨s₀, hs₀, hstate₀, fun moments s hrun => ?_, fun n => float64_of_lt⟩
  have hlive := live_run hlive₀ hrun
  obtain ⟨gen, static, discovered, hcoh⟩ := hlive.coherent
  obtain ⟨-, hstatic, hcfg, hdisc, -⟩ := hcoh.fields
  refine ⟨hlive.configGeneration, ?_, fun hmeets => ?_⟩
  · rw [hlive.routes, hcfg, hstatic, hdisc]
    rfl
  · refine (System.run_invariant (C := KeepsCount) (I := fun s => Live s ∧ DiscoveredRight s) ?_
      moments s₀ s ⟨hlive₀, hright₀⟩ hmeets hrun).2
    rintro s m s' ⟨hlive, hright⟩ hkeeps hs
    exact ⟨live_step hlive hs, discoveredRight_step hlive hright hkeeps hs⟩

/-- The configuration of `playConfig` for a cluster, with metrics. -/
def meteredConfig : Config :=
  { playConfig with
    metrics := { enabled := true }
    kubernetes := { enabled := true } }

theorem meteredConfig_valid : meteredConfig.validate emptyEnv = none := by
  decide +kernel

/-- The moment of a reload for which the cluster has the given Services. -/
def reloadMoment (services : List DiscoveredRoute) : Moment :=
  ⟨emptyEnv, 0, .reloadConfigWithDiscovery meteredConfig (some (.ok services))⟩

/-- Reloading as many Services as before. -/
theorem gauges_tell_the_state_play :
    ∃ snapshot s₀ s, buildRouteSnapshot emptyEnv meteredConfig playDiscovered = .ok snapshot ∧
      newServer 0 snapshot = some s₀ ∧
      System.run meterStep s₀ [reloadMoment playDiscovered.reverse] = some s ∧
      s.metrics.kubernetesDiscoveredRoutes = float64 s.state.discoveredRoutes.length := by
  obtain ⟨snapshot, hbuild, -⟩ := select_eq_decision meteredConfig_valid playDiscovered
  obtain ⟨s₀, hs₀, hstate₀, hrun, -⟩ := gauges_tell_the_state hbuild rfl rfl 0
  have hmoments := hrun [reloadMoment playDiscovered.reverse] _ rfl
  refine ⟨snapshot, s₀, _, hbuild, hs₀, rfl, hmoments.2.2 ⟨?_, fun _ _ => trivial⟩⟩
  intro cfg provider routes hcall _ hprovider
  obtain ⟨rfl, rfl⟩ := Call.reloadConfigWithDiscovery.inj hcall
  obtain rfl := Except.ok.inj hprovider
  obtain ⟨-, r, -, rfl⟩ := buildRouteSnapshot_eq_ok hbuild
  rw [(stateOfSnapshot_fields hstate₀).2.2]
  rfl

/-- **The gauge of a cluster whose Services are gone.** The server starts
with four discovered routes; a reload that goes through finds none, and the
gauge still says four. -/
theorem gauge_stale_after_reload :
    ∃ snapshot s₀ s, buildRouteSnapshot emptyEnv meteredConfig playDiscovered = .ok snapshot ∧
      meteredConfig.metrics.enabled = true ∧ meteredConfig.kubernetes.enabled = true ∧
      newServer 0 snapshot = some s₀ ∧ s₀.metrics.kubernetesDiscoveredRoutes = 4 ∧
      (Call.meter emptyEnv 0 s₀ (reloadMoment []).call).1 = .ok ∧
      System.run meterStep s₀ [reloadMoment []] = some s ∧
      s.metrics.kubernetesDiscoveredRoutes = 4 ∧ s.state.discoveredRoutes = [] ∧
      s.metrics.kubernetesDiscoveredRoutes ≠ float64 s.state.discoveredRoutes.length := by
  obtain ⟨snapshot, hbuild, -⟩ := select_eq_decision meteredConfig_valid playDiscovered
  obtain ⟨s₀, hs₀, hstate₀, hlive, hright⟩ := newServer_live hbuild rfl rfl 0
  have hlen : s₀.state.discoveredRoutes = playDiscovered := by
    obtain ⟨-, r, -, rfl⟩ := buildRouteSnapshot_eq_ok hbuild
    exact (stateOfSnapshot_fields hstate₀).2.2
  have hfour : s₀.metrics.kubernetesDiscoveredRoutes = 4 := by
    rw [hright, hlen]
    rfl
  obtain ⟨hroutes, hgauge⟩ := meter_reload_of_ok hlive 0 meteredConfig_valid
    (rfl : discoveredRoutesFromProvider (some (.ok [])) = .ok [])
  refine ⟨snapshot, s₀, _, hbuild, rfl, rfl, hs₀, hfour, ?_, rfl, hgauge.trans hfour, hroutes,
    not_discoveredRight_of_reload hlive hright 0 meteredConfig_valid rfl ?_ (by decide) ?_⟩
  · rw [(meter_meters emptyEnv 0 s₀ (reloadMoment []).call).outcome]
    exact reload_ok_iff.mpr ⟨meteredConfig_valid, [], rfl⟩
  · rw [hlen]
    decide
  · rw [hlen]
    decide

end Proxy

end McRouter
