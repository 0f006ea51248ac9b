import McRouter.Gateway.Reload

/-!
# Reloads and watch updates

`cmd/mc-gateway/discovery_reload.go` and `discovery_runtime.go`. Three
goroutines replace the discovered routes of the server: the two that reload
the file, each of which lists the Services and later applies what it built
with the new configuration, and the watch, which applies what it built after
each event. Each observes the cluster at one moment and applies at another;
the server's lock orders the applies, not the observations.

So the active set is that of the last apply, whichever state of the cluster
it saw. **Each goroutine on its own never goes back**, and together they
never do in an orderly run, where nobody applies while another one still
holds an older state and a reload lists only when the watch has caught up
(`discovered_follow_applies`).
-/

namespace McRouter

namespace Gateway

open Config Kubernetes Proxy
open Reload (Trigger)

/-- Who applies discovered routes: a goroutine that reloads the file, or the
watch. -/
inductive Producer where
  | reload (who : Trigger)
  | watch
deriving DecidableEq, Repr

/-- The gateway between the cluster and its active snapshot. States of the
cluster are numbered in the order they come about. -/
structure World where
  server : ServerState
  /-- The state the cluster is in. -/
  current : ℕ
  /-- The state the watch controller's map reflects. -/
  watched : ℕ
  /-- The configuration of each goroutine's reload under way and the state
  it listed. -/
  reloading : Trigger → Option (Config × ℕ) := fun _ => none
  /-- The state of a watch result that is built and not yet applied. -/
  publishing : Option ℕ := none
  /-- What was applied with success, the last one first. -/
  applied : List (Producer × ℕ) := []
  /-- The newest state that was listed or received. -/
  newest : ℕ := 0
  /-- Whether some apply has failed. -/
  failed : Bool := false

namespace World

/-- The state of the cluster that the active snapshot reflects. -/
def active (w : World) : ℕ :=
  match w.applied with
  | [] => 0
  | (_, version) :: _ => version

/-- The state that a goroutine has observed and not yet applied. -/
def held (w : World) : Producer → Option ℕ
  | .reload who => (w.reloading who).map Prod.snd
  | .watch => w.publishing

/-- The goroutine's reload is now this one. -/
def setReload (w : World) (who : Trigger) (reload : Option (Config × ℕ)) : World :=
  { w with reloading := Function.update w.reloading who reload }

end World

/-- What a producer has applied, the last one first. -/
def versionsBy (p : Producer) (applied : List (Producer × ℕ)) : List ℕ :=
  (applied.filter fun a => a.1 = p).map Prod.snd

/-- What happens next. -/
inductive Action where
  /-- A Service changes. -/
  | change
  /-- A reload has loaded its configuration and lists the Services. -/
  | list (who : Trigger) (cfg : Config)
  /-- The reload applies what it listed. -/
  | applyReload (who : Trigger) (env : Env)
  /-- The watch controller takes in an event, or the list of a new run. -/
  | receive (version : ℕ)
  /-- The sink applies the controller's result. -/
  | applyWatch (env : Env) (ctx : ContextChecks)

section Step

variable (cluster : ℕ → List Service) (options : Options)

/-- The routes of a state of the cluster, as `BuildDiscoveredRoutes` makes
them for both producers. -/
def routesAt (version : ℕ) : List DiscoveredRoute :=
  (buildDiscoveredRoutes (listServices (cluster version)) options).routes

/-- The provider of a result. -/
def providerAt (version : ℕ) : Provided := some (.ok (routesAt cluster options version))

/-- A call of a producer, with what came of it. -/
def World.apply (w : World) (p : Producer) (version : ℕ) (out : Outcome × ServerState) : World :=
  if out.1 = .ok then { w with server := out.2, applied := (p, version) :: w.applied }
  else { w with server := out.2, failed := true }

/-- One step. Each goroutine reloads one at a time, and so does the watch. -/
def step (w : World) : Action → Option World
  | .change => some { w with current := w.current + 1 }
  | .list who cfg =>
    match w.reloading who with
    | some _ => none
    | none => some { w.setReload who (some (cfg, w.current)) with newest := max w.newest w.current }
  | .applyReload who env =>
    match w.reloading who with
    | none => none
    | some (cfg, version) => some <| (w.setReload who none).apply (.reload who) version
        (reloadConfigWithDiscovery env w.server cfg (providerAt cluster options version))
  | .receive version =>
    match w.publishing with
    | some _ => none
    | none =>
      -- events arrive in order, some time after the change
      if w.watched ≤ version ∧ version ≤ w.current then
        some { w with watched := version, publishing := some version,
                      newest := max w.newest version }
      else none
  | .applyWatch env ctx =>
    match w.publishing with
    | none => none
    | some version => some <| { w with publishing := none }.apply .watch version
        (updateDiscoveredRoutes env w.server (some ctx) (providerAt cluster options version))

/-- The gateway after startup, on the list it starts from. -/
def start (env : Env) (cfg : Config) : Option World :=
  match buildRouteSnapshot env cfg (routesAt cluster options 0) with
  | .error _ => none
  | .ok snapshot => (newServerFromSnapshot snapshot).map fun server =>
      { server, current := 0, watched := 0 }

end Step

/-- Nobody holds an older state than this one. -/
def World.Oldest (w : World) (version : ℕ) : Prop :=
  (∀ who, ∀ v ∈ w.held (.reload who), version ≤ v) ∧ ∀ v ∈ w.held .watch, version ≤ v

instance (w : World) (version : ℕ) : Decidable (w.Oldest version) :=
  decidable_of_iff ((w.held (.reload .signal)).all (version ≤ ·) = true ∧
      (w.held (.reload .watcher)).all (version ≤ ·) = true ∧
      (w.held .watch).all (version ≤ ·) = true) (by
    simp only [World.Oldest, Option.all_eq_true, decide_eq_true_eq, Option.mem_def, ← and_assoc]
    exact and_congr_left fun _ => ⟨fun h who => by cases who; exacts [h.1, h.2],
      fun h => ⟨h .signal, h .watcher⟩⟩)

/-- A step that keeps the goroutines out of each other's way: a reload lists
when the watch has caught up, and what is applied is the oldest state that
somebody holds. -/
def Orderly (w : World) : Action → Prop
  | .list _ _ => w.watched = w.current
  | .applyReload who _ => ∀ v ∈ w.held (.reload who), w.Oldest v
  | .applyWatch _ _ => ∀ v ∈ w.held .watch, w.Oldest v
  | _ => True

instance (w : World) (a : Action) : Decidable (Orderly w a) := by
  cases a <;> unfold Orderly <;> infer_instance

/-! ## What every step keeps -/

/-- The steps one by one: when each can be taken, and where it leads. -/
inductive Step (cluster : ℕ → List Service) (options : Options) (w : World) : Action → World → Prop
  | change : Step cluster options w .change { w with current := w.current + 1 }
  | list {who : Trigger} {cfg : Config} (idle : w.reloading who = none) :
    Step cluster options w (.list who cfg)
      { w.setReload who (some (cfg, w.current)) with newest := max w.newest w.current }
  | applyReload {who : Trigger} {env : Env} {cfg : Config} {version : ℕ}
      (listed : w.reloading who = some (cfg, version)) :
    Step cluster options w (.applyReload who env) ((w.setReload who none).apply (.reload who) version
      (reloadConfigWithDiscovery env w.server cfg (providerAt cluster options version)))
  | receive {version : ℕ} (idle : w.publishing = none)
      (next : w.watched ≤ version ∧ version ≤ w.current) : Step cluster options w (.receive version)
      { w with watched := version, publishing := some version, newest := max w.newest version }
  | applyWatch {env : Env} {ctx : ContextChecks} {version : ℕ} (received : w.publishing = some version) :
    Step cluster options w (.applyWatch env ctx) ({ w with publishing := none }.apply .watch version
      (updateDiscoveredRoutes env w.server (some ctx) (providerAt cluster options version)))

variable {cluster : ℕ → List Service} {options : Options}

theorem Step.of_step {w w' : World} {a : Action} (h : step cluster options w a = some w') :
    Step cluster options w a w' := by
  cases a with
  | change =>
    obtain rfl := Option.some.inj h
    exact .change
  | list who cfg =>
    cases hr : w.reloading who with
    | some r => simp [step, hr] at h
    | none =>
      simp only [step, hr, Option.some.injEq] at h
      exact h ▸ .list hr
  | applyReload who env =>
    cases hr : w.reloading who with
    | none => simp [step, hr] at h
    | some r =>
      simp only [step, hr, Option.some.injEq] at h
      exact h ▸ .applyReload hr
  | receive version =>
    cases hp : w.publishing with
    | some v => simp [step, hp] at h
    | none =>
      simp only [step, hp] at h
      split at h
      · rename_i hnext
        exact Option.some.inj h ▸ .receive hp hnext
      · cases h
  | applyWatch env ctx =>
    cases hp : w.publishing with
    | none => simp [step, hp] at h
    | some version =>
      simp only [step, hp, Option.some.injEq] at h
      exact h ▸ .applyWatch hp

/-- The server holds the routes of the last apply, and each goroutine's
observations are in order. -/
structure Sound (cluster : ℕ → List Service) (options : Options) (w : World) : Prop where
  coherent : ∃ gen static, Coherent w.server gen static (routesAt cluster options w.active)
  watched_le : w.watched ≤ w.current
  publishing_eq : ∀ v, w.publishing = some v → v = w.watched
  watch_le : ∀ v ∈ versionsBy .watch w.applied, v ≤ w.watched
  listed_le : ∀ who cfg v, w.reloading who = some (cfg, v) →
    v ≤ w.current ∧ ∀ v' ∈ versionsBy (.reload who) w.applied, v' ≤ v
  reload_le : ∀ who, ∀ v ∈ versionsBy (.reload who) w.applied, v ≤ w.current
  sorted : ∀ p, (versionsBy p w.applied).Pairwise (· ≥ ·)

/-- A call either leaves the server as it is or leaves it coherent with the
routes it was given. -/
theorem call_cases {w : World} (h : ∃ gen static,
      Coherent w.server gen static (routesAt cluster options w.active))
    {version : ℕ} {call : Call} (env : Env)
    (hset : call.discoveredSet = some (routesAt cluster options version)) :
    ((call.run env w.server).1 ≠ .ok ∧ (call.run env w.server).2 = w.server) ∨
      ((call.run env w.server).1 = .ok ∧ ∃ gen static,
        Coherent (call.run env w.server).2 gen static (routesAt cluster options version)) := by
  obtain ⟨gen, static, hcoh⟩ := h
  by_cases hok : (call.run env w.server).1 = .ok
  · refine Or.inr ⟨hok, gen + 1, call.staticSet.getD static, ?_⟩
    have := (run_coherent hcoh env call).2 hok
    rwa [hset] at this
  · exact Or.inl ⟨hok, run_eq_of_ne_ok hok⟩

/-- What an apply adds. -/
theorem versionsBy_cons (p q : Producer) (version : ℕ) (applied : List (Producer × ℕ)) :
    versionsBy q ((p, version) :: applied) =
      if p = q then version :: versionsBy q applied else versionsBy q applied := by
  unfold versionsBy
  by_cases h : p = q
  · simp [h]
  · simp [h]

/-- **An apply.** It fails and changes nothing, or it is of a version no
older than the goroutine's last one. -/
theorem sound_apply {w : World} (h : Sound cluster options w) {p : Producer} {version : ℕ}
    {call : Call} (env : Env) (hset : call.discoveredSet = some (routesAt cluster options version))
    (hlast : ∀ v ∈ versionsBy p w.applied, v ≤ version)
    (hwatch : p = .watch → version ≤ w.watched)
    (hreload : ∀ who, p = .reload who → version ≤ w.current ∧ w.reloading who = none) :
    Sound cluster options (w.apply p version (call.run env w.server)) := by
  rcases call_cases h.coherent env hset with ⟨hne, hsame⟩ | ⟨hok, hcoh⟩
  · rw [World.apply, if_neg hne, hsame]
    exact { h with }
  · rw [World.apply, if_pos hok]
    -- a version of the list is the new one, or was there before
    have hmem : ∀ q, ∀ v ∈ versionsBy q ((p, version) :: w.applied),
        (p = q ∧ v = version) ∨ v ∈ versionsBy q w.applied := by
      intro q v hv
      rw [versionsBy_cons] at hv
      split at hv
      · rename_i hpq
        exact (List.mem_cons.mp hv).imp_left fun hv => ⟨hpq, hv⟩
      · exact Or.inr hv
    refine ⟨hcoh, h.watched_le, h.publishing_eq, fun v hv => ?_, fun who cfg v hv => ?_,
      fun who v hv => ?_, fun q => ?_⟩
    · rcases hmem _ v hv with ⟨hp, rfl⟩ | hv
      · exact hwatch hp
      · exact h.watch_le v hv
    · refine ⟨(h.listed_le who cfg v hv).1, fun v' hv' => ?_⟩
      rcases hmem _ v' hv' with ⟨hp, rfl⟩ | hv'
      · have hnone : w.reloading who = none := (hreload who hp).2
        have hsome : w.reloading who = some (cfg, v) := hv
        rw [hnone] at hsome
        cases hsome
      · exact (h.listed_le who cfg v hv).2 v' hv'
    · rcases hmem _ v hv with ⟨hp, rfl⟩ | hv
      · exact (hreload who hp).1
      · exact h.reload_le who v hv
    · rw [versionsBy_cons]
      split
      · rename_i hpq
        exact List.pairwise_cons.mpr ⟨fun v hv => hlast v (hpq ▸ hv), h.sorted q⟩
      · exact h.sorted q

/-- A reload of a world where one goroutine's reload was replaced. -/
theorem reloading_setReload {w : World} {who who' : Trigger} {r r' : Option (Config × ℕ)}
    (h : (w.setReload who r).reloading who' = r') :
    (who' = who ∧ r = r') ∨ (who' ≠ who ∧ w.reloading who' = r') := by
  by_cases hw : who' = who
  · subst hw
    simp only [World.setReload, Function.update_self] at h
    exact Or.inl ⟨rfl, h⟩
  · simp only [World.setReload, Function.update_of_ne hw] at h
    exact Or.inr ⟨hw, h⟩

/-- **The step lemma.** -/
theorem step_sound {w w' : World} {a : Action} (h : Sound cluster options w)
    (hstep : step cluster options w a = some w') : Sound cluster options w' := by
  cases Step.of_step hstep with
  | change =>
    exact { h with
      watched_le := Nat.le_succ_of_le h.watched_le
      listed_le := fun who cfg v hv => ⟨Nat.le_succ_of_le (h.listed_le who cfg v hv).1,
        (h.listed_le who cfg v hv).2⟩
      reload_le := fun who v hv => Nat.le_succ_of_le (h.reload_le who v hv) }
  | @list who cfg =>
    refine { h with listed_le := fun who' cfg' v hv => ?_ }
    rcases reloading_setReload hv with ⟨rfl, heq⟩ | ⟨-, hv⟩
    · obtain ⟨-, rfl⟩ := Prod.mk.inj (Option.some.inj heq)
      exact ⟨le_refl _, h.reload_le who'⟩
    · exact h.listed_le who' cfg' v hv
  | receive _ hnext =>
    exact { h with
      watched_le := hnext.2
      publishing_eq := fun v hv => (Option.some.inj hv).symm
      watch_le := fun v hv => le_trans (h.watch_le v hv) hnext.1 }
  | @applyReload who env cfg version hr =>
    obtain ⟨hcur, hprev⟩ := h.listed_le who cfg version hr
    have hended : Sound cluster options (w.setReload who none) := by
      refine { h with listed_le := fun who' cfg' v hv => ?_ }
      rcases reloading_setReload hv with ⟨-, heq⟩ | ⟨-, hv⟩
      · cases heq
      · exact h.listed_le who' cfg' v hv
    have hset : (Call.reloadConfigWithDiscovery cfg
        (providerAt cluster options version)).discoveredSet =
          some (routesAt cluster options version) := rfl
    refine sound_apply hended env hset hprev (fun hp => by cases hp) fun who' hp => ?_
    cases hp
    exact ⟨hcur, by simp [World.setReload]⟩
  | @applyWatch env ctx version hp =>
    have hversion := h.publishing_eq version hp
    have hended : Sound cluster options { w with publishing := none } :=
      { h with publishing_eq := fun _ hv => by cases hv }
    have hset : (Call.updateDiscoveredRoutes (some ctx)
        (providerAt cluster options version)).discoveredSet =
          some (routesAt cluster options version) := rfl
    have hlast : ∀ v ∈ versionsBy .watch w.applied, v ≤ version := fun v hv =>
      hversion ▸ h.watch_le v hv
    exact sound_apply hended env hset hlast (fun _ => le_of_eq hversion) fun _ hp => by cases hp

/-! ## Orderly runs -/

/-- The goroutines as workers that publish what they have observed. The
source is the watch: in an orderly run a reload lists what the watch has
received. -/
def World.view (w : World) : Publication.State Producer ℕ where
  current := w.watched
  newest := w.newest
  published := w.active
  held := w.held

theorem oldest_iff {w : World} {version : ℕ} :
    w.Oldest version ↔ ∀ p v, w.held p = some v → version ≤ v :=
  ⟨fun h p v hv => by cases p with
    | reload who => exact h.1 who v hv
    | watch => exact h.2 v hv,
  fun h => ⟨fun who v => h (.reload who) v, fun v => h .watch v⟩⟩

/-- What is held once a goroutine's reload is another one. -/
theorem held_setReload (w : World) (who : Trigger) (r : Option (Config × ℕ)) :
    (w.setReload who r).held = Function.update w.held (.reload who) (r.map Prod.snd) := by
  funext p
  cases p with
  | watch => rfl
  | reload who' =>
    by_cases hw : who' = who
    · subst hw
      simp [World.held, World.setReload]
    · have hne : Producer.reload who' ≠ .reload who := fun h => hw (Producer.reload.inj h)
      simp [World.held, World.setReload, hw, hne]

/-- What is held once the watch's result is another one. -/
theorem held_publishing (w : World) (result : Option ℕ) :
    World.held { w with publishing := result } = Function.update w.held .watch result := by
  funext p
  cases p with
  | reload who => simp [World.held]
  | watch => simp [World.held]

/-- A reload that ends holds nothing any more. -/
theorem view_reloaded (w : World) (who : Trigger) :
    (w.setReload who none).view = w.view.drop (.reload who) :=
  congrArg (fun held => { w.view with held := held }) (held_setReload w who none)

/-- Nor does the watch once its result is applied. -/
theorem view_published (w : World) :
    World.view { w with publishing := none } = w.view.drop .watch :=
  congrArg (fun held => { w.view with held := held }) (held_publishing w none)

/-- A reload takes what the watch has received, if the watch has caught
up. -/
theorem view_listed {w : World} (hcaught : w.watched = w.current) (hnewest : w.newest ≤ w.watched)
    (who : Trigger) (cfg : Config) :
    World.view { w.setReload who (some (cfg, w.current)) with newest := max w.newest w.current } =
      w.view.take (.reload who) := by
  have hmax : max w.newest w.current = w.watched := by omega
  have hheld : (w.setReload who (some (cfg, w.current))).held =
      Function.update w.held (.reload who) (some w.watched) := by
    rw [held_setReload, Option.map_some, hcaught]
  simp only [hmax]
  exact congrArg (fun held => { w.view with newest := w.watched, held := held }) hheld

/-- The watch moves on and takes what it moves to. -/
theorem view_received {w : World} {version : ℕ} (hle : w.newest ≤ version) :
    World.view { w with watched := version, publishing := some version,
                        newest := max w.newest version } =
      Publication.State.take { w.view with current := version } .watch := by
  simp only [max_eq_right hle]
  exact congrArg (fun held => { w.view with current := version, newest := version, held := held })
    (held_publishing w (some version))

/-- What is active and what is observed are in order, and nothing is lost
as long as no apply has failed. -/
structure InOrder (w : World) : Prop where
  ordered : Publication.Ordered w.view
  settled : w.failed = false → Publication.Settled w.view

/-- An apply is seen as the goroutine publishing, or giving up. -/
theorem inOrder_apply {w w₁ : World} {p : Producer} {version : ℕ} {out : Outcome × ServerState}
    (ho : InOrder w) (hheld : w.view.held p = some version)
    (hfirst : ∀ q v, w.view.held q = some v → version ≤ v) (hview : w₁.view = w.view.drop p)
    (hfailed : w₁.failed = w.failed) :
    InOrder (w₁.apply p version out) ∧ w.active ≤ (w₁.apply p version out).active := by
  unfold World.apply
  split
  · obtain ⟨hordered, hle⟩ := ho.ordered.publish hheld hfirst
    have hpublish : World.view { w₁ with server := out.2, applied := (p, version) :: w₁.applied } =
        w.view.publish p version :=
      congrArg (fun s : Publication.State Producer ℕ => { s with published := version }) hview
    refine ⟨⟨?_, fun hf => ?_⟩, hle⟩
    · rw [hpublish]
      exact hordered
    · rw [hpublish]
      exact (ho.settled (hfailed ▸ hf)).publish ho.ordered hheld
  · have hdrop : World.view { w₁ with server := out.2, failed := true } = w.view.drop p := hview
    have hactive : w₁.active = w.active := congrArg Publication.State.published hview
    refine ⟨⟨?_, fun hf => by cases hf⟩, le_of_eq hactive.symm⟩
    rw [hdrop]
    exact ho.ordered.drop p

/-- **The orderly step.** It keeps the order, and the active version does
not go back. -/
theorem step_inOrder {w w' : World} {a : Action} (ho : InOrder w) (horderly : Orderly w a)
    (hstep : step cluster options w a = some w') : InOrder w' ∧ w.active ≤ w'.active := by
  have hnewest : w.newest ≤ w.watched := ho.ordered.newest_le
  cases Step.of_step hstep with
  | change => exact ⟨⟨ho.ordered, ho.settled⟩, le_refl _⟩
  | @list who cfg =>
    have hview := view_listed horderly hnewest who cfg
    refine ⟨⟨?_, fun _ => ?_⟩, le_refl _⟩
    · rw [hview]
      exact ho.ordered.take (.reload who)
    · rw [hview]
      exact Publication.settled_take w.view (.reload who)
  | receive _ hnext =>
    have hview := view_received (hnewest.trans hnext.1)
    refine ⟨⟨?_, fun _ => ?_⟩, le_refl _⟩
    · rw [hview]
      exact (ho.ordered.advance hnext.1).take .watch
    · rw [hview]
      exact Publication.settled_take _ Producer.watch
  | @applyReload who env cfg version hr =>
    have hheld : w.held (.reload who) = some version := by rw [World.held, hr, Option.map_some]
    exact inOrder_apply ho hheld (oldest_iff.mp (horderly version hheld)) (view_reloaded w who) rfl
  | @applyWatch env ctx version hp =>
    exact inOrder_apply ho hp (oldest_iff.mp (horderly version hp)) (view_published w) rfl

/-- The gateway starts in order. -/
theorem start_sound {env : Env} {cfg : Config} {w : World}
    (h : start cluster options env cfg = some w) : Sound cluster options w ∧ InOrder w := by
  unfold start at h
  split at h
  · cases h
  rename_i snapshot hbuild
  obtain ⟨server, hserver, rfl⟩ := Option.map_eq_some_iff.mp h
  obtain ⟨s, hs, hcoh⟩ := exists_coherent hbuild 1
  obtain rfl : server = s := Option.some.inj (hserver.symm.trans hs)
  have hnone : ∀ p v, v ∉ versionsBy p [] := by simp [versionsBy]
  constructor
  · exact
      { coherent := ⟨1, cfg, hcoh⟩
        watched_le := le_refl _
        publishing_eq := fun _ hv => by cases hv
        watch_le := fun v hv => absurd hv (hnone _ v)
        listed_le := fun _ _ _ hv => by cases hv
        reload_le := fun _ v hv => absurd hv (hnone _ v)
        sorted := fun _ => List.Pairwise.nil }
  · refine ⟨⟨le_refl _, le_refl _, fun p v hv => ?_⟩, fun _ => Or.inl rfl⟩
    cases p with
    | reload => cases hv
    | watch => cases hv

/-- **The discovered routes follow the applies.** In every run the active
routes are those of the state of the cluster that the last successful apply
saw, and no goroutine applies an older state after a newer one of its own.
In an orderly run the active version never decreases, and once nothing
is under way and nothing has failed it is the newest one observed. -/
theorem discovered_follow_applies (cluster : ℕ → List Service) (options : Options) {env : Env}
    {cfg : Config} {w₀ : World} (hstart : start cluster options env cfg = some w₀) :
    (∀ actions w, System.run (step cluster options) w₀ actions = some w →
      w.server.discoveredRoutes = routesAt cluster options w.active ∧
      ∀ p, (versionsBy p w.applied).Pairwise (· ≥ ·)) ∧
    ∀ actions w, System.Meets (step cluster options) Orderly w₀ actions →
      System.run (step cluster options) w₀ actions = some w →
      (∀ actions' w', System.Meets (step cluster options) Orderly w actions' →
        System.run (step cluster options) w actions' = some w' → w.active ≤ w'.active) ∧
      (w.failed = false → (∀ who, w.reloading who = none) → w.publishing = none →
        w.active = w.newest) := by
  obtain ⟨hsound, horder⟩ := start_sound hstart
  have hstep : ∀ w a w', Sound cluster options w ∧ InOrder w → Orderly w a →
      step cluster options w a = some w' →
        (Sound cluster options w' ∧ InOrder w') ∧ w.active ≤ w'.active := by
    intro w a w' h hc hs
    obtain ⟨ho, hle⟩ := step_inOrder h.2 hc hs
    exact ⟨⟨step_sound h.1 hs, ho⟩, hle⟩
  refine ⟨fun actions w hrun => ?_, fun actions w hmeets hrun => ?_⟩
  · have h := System.run_invariant_of_step (fun w a w' h hs => step_sound h hs) hsound hrun
    obtain ⟨gen, static, hcoh⟩ := h.coherent
    exact ⟨hcoh.fields.2.2.2.1, h.sorted⟩
  · have h := System.run_invariant (fun w a w' h hc hs => (hstep w a w' h hc hs).1) actions w₀ w
      ⟨hsound, horder⟩ hmeets hrun
    refine ⟨fun actions' w' hmeets' hrun' => ?_, fun hf hr hp => ?_⟩
    · exact System.run_relation (R := fun w w' => w.active ≤ w'.active) (fun w => le_refl _)
        (fun _ _ _ => le_trans) hstep actions' w w' h hmeets' hrun'
    · refine (h.2.settled hf).published_eq fun p => ?_
      cases p with
      | reload who => simp only [World.view, World.held, hr who, Option.map_none]
      | watch => exact hp

/-! ## Out of order -/

/-- A cluster where a Service appears in state `1`. -/
def lobbyCluster (version : ℕ) : List Service :=
  if version = 0 then [] else [ServiceWatchController.lobby .clusterIP]

/-- A context that is not done. -/
def background : ContextChecks := ⟨none, none, none⟩

/-- A reload lists, and is overtaken by the watch before it applies. -/
def overtakenReload : List Action :=
  [.list .signal playConfig, .change, .receive 1, .applyWatch emptyEnv background,
    .applyReload .signal emptyEnv]

/-- A reload lists what the watch has not been told yet. -/
def laggingWatch : List Action :=
  [.change, .change, .list .signal playConfig, .applyReload .signal emptyEnv, .receive 1,
    .applyWatch emptyEnv background]

/-- The reload on a signal is overtaken by that of the file watcher. -/
def overtakenSignal : List Action :=
  [.list .signal playConfig, .change, .list .watcher playConfig, .applyReload .watcher emptyEnv,
    .applyReload .signal emptyEnv]

/-- What is left of a run: the active version before its last action and
after it, the newest one observed, and whether all is applied. -/
def summary (actions : List Action) : Option (ℕ × ℕ × ℕ × Bool) :=
  (start lobbyCluster ⟨[]⟩ emptyEnv playConfig).bind fun w₀ =>
    (System.run (step lobbyCluster ⟨[]⟩) w₀ actions.dropLast).bind fun w =>
      (System.run (step lobbyCluster ⟨[]⟩) w₀ actions).map fun w' =>
        (w.active, w'.active, w'.newest, (w'.reloading .signal).isNone &&
          (w'.reloading .watcher).isNone && w'.publishing.isNone && !w'.failed)

/-- **The active version can go back.** A reload puts back the list it took
before the watch, or the other goroutine, applied a newer state, and a watch
that lags behind puts back a state older than the one a reload has listed;
in all three runs everything is applied at the end, and the active snapshot
is not the newest observed. -/
theorem discovered_routes_go_back :
    summary overtakenReload = some (1, 0, 1, true) ∧
      summary laggingWatch = some (2, 1, 2, true) ∧
      summary overtakenSignal = some (1, 0, 1, true) := by
  decide +kernel

/-- An orderly run: a watch update, then the reloads of both goroutines, the
watch receiving the next state meanwhile. -/
def orderlyRun : List Action :=
  [.change, .receive 1, .applyWatch emptyEnv background, .list .signal playConfig,
    .list .watcher playConfig, .change, .receive 2, .applyReload .watcher emptyEnv,
    .applyReload .signal emptyEnv, .applyWatch emptyEnv background]

theorem discovered_follow_applies_orderly :
    ∃ w₀ w, start lobbyCluster ⟨[]⟩ emptyEnv playConfig = some w₀ ∧
      System.run (step lobbyCluster ⟨[]⟩) w₀ orderlyRun = some w ∧
      w.server.discoveredRoutes =
        [⟨go "play.example.com", go "lobby.games.svc.cluster.local:25565"⟩] ∧
      w.active = w.newest := by
  have heval : (start lobbyCluster ⟨[]⟩ emptyEnv playConfig).any (fun w₀ =>
      System.Meets (step lobbyCluster ⟨[]⟩) Orderly w₀ orderlyRun ∧
      (System.run (step lobbyCluster ⟨[]⟩) w₀ orderlyRun).any fun w =>
        w.active = 2 ∧ w.failed = false ∧ w.reloading .signal = none ∧
          w.reloading .watcher = none ∧ w.publishing = none) = true := by
    decide +kernel
  obtain ⟨w₀, hstart, hw₀⟩ := (Option.any_eq_true _ _).mp heval
  simp only [decide_eq_true_eq] at hw₀
  obtain ⟨hmeets, hrun⟩ := hw₀
  obtain ⟨w, hrun, hw⟩ := (Option.any_eq_true _ _).mp hrun
  obtain ⟨hactive, hf, hsignal, hwatcher, hp⟩ := of_decide_eq_true hw
  obtain ⟨hall, horderly⟩ := discovered_follow_applies lobbyCluster ⟨[]⟩ hstart
  have hr : ∀ who, w.reloading who = none := by
    intro who
    cases who with
    | signal => exact hsignal
    | watcher => exact hwatcher
  refine ⟨w₀, w, hstart, hrun, ?_, (horderly _ w hmeets hrun).2 hf hr hp⟩
  rw [(hall _ w hrun).1, hactive]
  decide +kernel

end Gateway

end McRouter
