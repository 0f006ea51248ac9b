import McRouter.Gateway.Reload

/-!
# The config watcher

`configwatch/watcher.go`. The watcher remembers a digest of the file, and
once the directory is watched an event for each write sets its timer. When
the timer fires it compares the file with the digest, takes over the new
digest, and only then reloads.

What is active, what is remembered and what is announced are three things
with three beginnings, so a change can fall between them: after startup has
read the file and before the digest is taken, or before the directory is
watched; and a reload that fails, or reads another content than the digest
was taken of, leaves a digest that hides the change for good
(`config_change_lost`). **In an undisturbed run no change is lost**
(`no_config_change_lost`).
-/

namespace McRouter

namespace Reload

open Config Kubernetes Proxy

/-- The configuration of a reload under way. -/
def Task.cfg? : Task → Option Config
  | .loaded _ cfg => some cfg
  | _ => none

/-- All is quiet: the watch is installed, every event is received, the
timer is not set and no reload is running. -/
structure Quiescent (w : World) : Prop where
  watching : w.phase = .watching
  received : w.events = []
  unset : w.timer = false
  idle : ∀ who, w.tasks who = .idle

/-- The same as a test. -/
theorem quiescent_iff {w : World} :
    Quiescent w ↔ w.phase = .watching ∧ w.events = [] ∧ w.timer = false ∧
      w.tasks .signal = .idle ∧ w.tasks .watcher = .idle := by
  constructor
  · intro h
    exact ⟨h.watching, h.received, h.unset, h.idle _, h.idle _⟩
  · rintro ⟨hw, he, ht, hs, hi⟩
    refine ⟨hw, he, ht, fun who => ?_⟩
    cases who with
    | signal => exact hs
    | watcher => exact hi

instance decidableQuiescent (w : World) : Decidable (Quiescent w) :=
  decidable_of_iff _ quiescent_iff.symm

section Condition

variable (file : ResolvedPath) (decode : GoString → Except Err Config)
variable (contents : ℕ → Except Err GoString) (env₀ : Env)

/-- The configuration is the one in the file, if that one is valid. -/
def Reflects (static : Config) (content : Except Err GoString) : Prop :=
  ∀ cfg, loadFile decode file.path env₀ content = .ok cfg → static = cfg

instance decidableReflects (static : Config) (content : Except Err GoString) :
    Decidable (Reflects file decode env₀ static content) :=
  match h : loadFile decode file.path env₀ content with
  | .error _ => isTrue fun cfg hcfg => by simp [h] at hcfg
  | .ok cfg => decidable_of_iff (static = cfg) (by simp [Reflects, h])

/-- The file, if there is one, is what the digest was taken of. -/
def Remembered (w : World) : Prop :=
  match contents w.version with
  | .error _ => True
  | .ok data => data = w.digest

instance decidableRemembered (w : World) : Decidable (Remembered contents w) := by
  unfold Remembered
  split <;> infer_instance

/-- What the apply of a reload needs: a valid configuration, and the list of
the Services where discovery is on. -/
def CanApply (w : World) (env : Env) (cfg : Config) (services : Except Err (List Service)) : Prop :=
  cfg.validate env = none ∧ (w.kubernetes.enabled = true → services.isOk = true)

instance decidableCanApply (w : World) (env : Env) (cfg : Config)
    (services : Except Err (List Service)) : Decidable (CanApply w env cfg services) :=
  inferInstanceAs (Decidable (_ ∧ _))

/-- A step that does not make the watcher miss a change:
* when `Start` takes the digest, the file still is what is active, and when
  it adds the directory, the file still is what the digest was taken of;
* the watcher can read the file, and where it finds nothing new, what it
  remembers is active; a reload of its own reads what the digest was taken
  of, and nothing but an invalid configuration makes it fail;
* a reload on a signal applies nothing else than what the watcher remembers,
  unless the watcher is reloading itself or about to look at the file. -/
def Undisturbed (w : World) : Action → Prop
  | .digest _ => Reflects file decode env₀ w.server.staticConfig (contents w.version)
  | .add => Remembered contents w
  | .fire io => io = none ∧ (Remembered contents w →
      Reflects file decode env₀ w.server.staticConfig (.ok w.digest))
  | .read .watcher io env => contents w.version = .ok w.digest ∧
      ((loadFile decode file.path env₀ (contents w.version)).isOk →
        (loadFile decode file.path env (readFile io (contents w.version))).isOk)
  | .apply .watcher env services => ∀ cfg ∈ (w.tasks .watcher).cfg?,
      cfg.validate env₀ = none → CanApply w env cfg services
  | .apply .signal env services => w.phase ≠ .starting → w.tasks .watcher = .idle →
      w.pending file = false → ∀ cfg ∈ (w.tasks .signal).cfg?, CanApply w env cfg services →
        Reflects file decode env₀ cfg (.ok w.digest)
  | _ => True

end Condition

instance decidableUndisturbed (file : ResolvedPath) (decode : GoString → Except Err Config)
    (contents : ℕ → Except Err GoString) (env₀ : Env) (w : World) :
    ∀ a, Decidable (Undisturbed file decode contents env₀ w a)
  | .digest _ => decidableReflects ..
  | .add => decidableRemembered ..
  | .fire io => inferInstanceAs (Decidable (io = none ∧ (Remembered contents w →
      Reflects file decode env₀ w.server.staticConfig (.ok w.digest))))
  | .read .watcher io env => inferInstanceAs (Decidable (contents w.version = .ok w.digest ∧
      ((loadFile decode file.path env₀ (contents w.version)).isOk →
        (loadFile decode file.path env (readFile io (contents w.version))).isOk)))
  | .apply .watcher env services => inferInstanceAs (Decidable (∀ cfg ∈ (w.tasks .watcher).cfg?,
      cfg.validate env₀ = none → CanApply w env cfg services))
  | .apply .signal env services => inferInstanceAs
      (Decidable (w.phase ≠ .starting → w.tasks .watcher = .idle → w.pending file = false →
        ∀ cfg ∈ (w.tasks .signal).cfg?, CanApply w env cfg services →
          Reflects file decode env₀ cfg (.ok w.digest)))
  | .read .signal _ _ | .write _ | .notify _ | .receive | .sighup
  | .discover _ _ _ => instDecidableTrue

/-! ## When a reload succeeds -/

/-- A snapshot is built and stored of every valid configuration. -/
theorem applySnapshot_ok_iff {env : Env} {s : ServerState} {cfg : Config}
    {discovered : List DiscoveredRoute} :
    (applySnapshot s (buildRouteSnapshot env cfg discovered)).1 = .ok ↔
      cfg.validate env = none := by
  constructor
  · intro hok
    by_contra hne
    obtain ⟨err, herr⟩ := Option.ne_none_iff_exists'.mp hne
    simp [buildRouteSnapshot, herr, applySnapshot] at hok
  · intro hvalid
    obtain ⟨snapshot, hbuild, hok⟩ := applySnapshot_ok hvalid s discovered
    rw [hbuild, hok]

theorem reload_ok_iff {w : World} {env : Env} {cfg : Config}
    {services : Except Err (List Service)} :
    (w.reload env cfg services).1 = .ok ↔ CanApply w env cfg services := by
  unfold World.reload CanApply
  by_cases henabled : w.kubernetes.enabled = true
  · cases services with
    | error err => simp [henabled, Except.isOk, Except.toBool]
    | ok services =>
      have happly : (applySnapshot w.server
          (buildRouteSnapshot env cfg (w.reportRoutes services))).1 = .ok ↔
            cfg.validate env = none := applySnapshot_ok_iff
      simpa [henabled, Except.isOk, Except.toBool, reloadConfigWithDiscovery,
        discoveredRoutesFromProvider, reloadConfigLocked] using happly
  · simpa [henabled, reloadFile, reloadConfigLocked] using applySnapshot_ok_iff

/-! ## What an undisturbed step keeps -/

variable {file : ResolvedPath} {decode : GoString → Except Err Config}
variable {contents : ℕ → Except Err GoString} {env₀ : Env}

/-- What is active is what the watcher remembers, up to a reload of its own,
and what it remembers is what the file holds; both up to an event or the
timer. -/
structure Tracks (file : ResolvedPath) (decode : GoString → Except Err Config)
    (contents : ℕ → Except Err GoString) (env₀ : Env) (w : World) : Prop where
  active : w.phase ≠ .starting → w.tasks .watcher = .idle → w.pending file = false →
    Reflects file decode env₀ w.server.staticConfig (.ok w.digest)
  noticed : w.phase = .watching → w.pending file = false → Remembered contents w
  loaded : ∀ v cfg, w.tasks .watcher = .loaded v cfg → decode w.digest = .ok cfg
  waiting : w.phase ≠ .watching → w.tasks .watcher = .idle ∧ w.timer = false

/-- A read that gives something has met no error and gives the file. -/
theorem readFile_eq_ok {io : Option Err} {content : Except Err GoString} {data : GoString}
    (h : readFile io content = .ok data) : content = .ok data := by
  cases io with
  | none => exact h
  | some err => cases h

/-- Only a valid file has to be reflected. -/
theorem reflects_of_not_isOk {static : Config} {content : Except Err GoString}
    (h : ¬ (loadFile decode file.path env₀ content).isOk) :
    Reflects file decode env₀ static content := by
  intro cfg hcfg
  rw [hcfg] at h
  exact absurd rfl h

/-- A configuration that the decoder makes of a content reflects it. -/
theorem reflects_of_decode {cfg : Config} {data : GoString} (h : decode data = .ok cfg) :
    Reflects file decode env₀ cfg (.ok data) := by
  intro cfg' hcfg'
  obtain ⟨data', hdata', hdecode, -⟩ := loadFile_eq_ok.mp hcfg'
  cases hdata'
  exact Except.ok.inj (h.symm.trans hdecode)

theorem reflects_of_invalid {static cfg : Config} {data : GoString} (h : decode data = .ok cfg)
    (hinvalid : cfg.validate env₀ ≠ none) : Reflects file decode env₀ static (.ok data) := by
  intro cfg' hcfg'
  obtain ⟨data', hdata', hdecode, hvalid⟩ := loadFile_eq_ok.mp hcfg'
  cases hdata'
  obtain rfl : cfg = cfg' := Except.ok.inj (h.symm.trans hdecode)
  exact absurd hvalid hinvalid

namespace Tracks

variable {w w' : World}

/-- A change elsewhere: the file, what is remembered, the watcher and what
is active are the same. -/
theorem congr (h : Tracks file decode contents env₀ w) (hphase : w'.phase = w.phase)
    (hversion : w'.version = w.version) (hdigest : w'.digest = w.digest)
    (hpending : w'.pending file = w.pending file) (htimer : w'.timer = w.timer)
    (htask : w'.tasks .watcher = w.tasks .watcher)
    (hstatic : w'.server.staticConfig = w.server.staticConfig) :
    Tracks file decode contents env₀ w' := by
  constructor
  · rw [hphase, htask, hstatic, hdigest, hpending]
    exact h.active
  · rw [hphase, hpending]
    intro hw hp
    have := h.noticed hw hp
    unfold Remembered at this ⊢
    rwa [hversion, hdigest]
  · rw [htask, hdigest]
    exact h.loaded
  · rw [hphase, htask, htimer]
    exact h.waiting

/-- The watcher only works in the last phase. -/
theorem watching_of_timer (h : Tracks file decode contents env₀ w) (ht : w.timer = true) :
    w.phase = .watching := by
  by_contra hne
  have := (h.waiting hne).2
  rw [ht] at this
  cases this

theorem watching_of_task (h : Tracks file decode contents env₀ w)
    (ht : w.tasks .watcher ≠ .idle) : w.phase = .watching := by
  by_contra hne
  exact ht (h.waiting hne).1

/-- A write is announced once the directory is watched, and not seen before
`add` otherwise. -/
theorem write (h : Tracks file decode contents env₀ w) {event : Event}
    (hevent : isConfigEvent file event = true) :
    Tracks file decode contents env₀ { w with
      version := w.version + 1
      events := if w.phase = .watching then w.events ++ [event] else w.events } := by
  refine ⟨fun hphase hidle hp => h.active hphase hidle ?_, fun hw hp => ?_, h.loaded, h.waiting⟩
  · simp only [World.pending] at hp ⊢
    split_ifs at hp
    · rw [List.any_append, ← Bool.or_assoc, Bool.or_eq_false_iff] at hp
      exact hp.1
    · exact hp
  · have hw : w.phase = .watching := hw
    simp [World.pending, hw, hevent] at hp

/-- The first digest is of what is active. -/
theorem digest (h : Tracks file decode contents env₀ w) (hphase : w.phase = .starting)
    {data : GoString} (hfile : contents w.version = .ok data)
    (hreflects : Reflects file decode env₀ w.server.staticConfig (contents w.version)) :
    Tracks file decode contents env₀ { w with digest := data, phase := .digested } := by
  have hwaiting := h.waiting (by simp [hphase])
  refine ⟨fun _ _ _ => ?_, fun hw _ => (by cases hw), fun v cfg hv => ?_, fun _ => hwaiting⟩
  · rwa [hfile] at hreflects
  · have hv : w.tasks .watcher = .loaded v cfg := hv
    rw [hwaiting.1] at hv
    cases hv

/-- An event that is received sets the timer, or is none of the file's. -/
theorem receive (h : Tracks file decode contents env₀ w) {event : Event} {events : List Event}
    (hevents : w.events = event :: events) (hwatching : w.phase = .watching)
    (hstep : w' = if isConfigEvent file event then { w with events, timer := true }
      else { w with events }) : Tracks file decode contents env₀ w' := by
  subst hstep
  by_cases hevent : isConfigEvent file event = true
  · rw [if_pos hevent]
    refine ⟨fun _ _ hp => ?_, fun _ hp => ?_, h.loaded, fun hne => absurd hwatching hne⟩
    · simp [World.pending] at hp
    · simp [World.pending] at hp
  · rw [if_neg hevent]
    refine h.congr rfl rfl rfl ?_ rfl rfl rfl
    simp [World.pending, hevents, Bool.eq_false_iff.mpr hevent]

/-- The timer fires and the file is what is remembered. -/
theorem rest (h : Tracks file decode contents env₀ w) (htimer : w.timer = true)
    (hsame : Remembered contents w)
    (hactive : Reflects file decode env₀ w.server.staticConfig (.ok w.digest)) :
    Tracks file decode contents env₀ { w with timer := false } :=
  ⟨fun _ _ _ => hactive, fun _ _ => hsame, h.loaded,
    fun hne => absurd (h.watching_of_timer htimer) hne⟩

/-- **The timer fires and the file has changed.** It is remembered from now
on, and a reload is called. -/
theorem call (h : Tracks file decode contents env₀ w) (htimer : w.timer = true) {data : GoString}
    (hfile : contents w.version = .ok data) : Tracks file decode contents env₀
      ({ w with timer := false, digest := data }.setTask .watcher .called) := by
  have hwatching := h.watching_of_timer htimer
  refine ⟨fun _ hidle _ => ?_, fun _ _ => ?_, fun v cfg hv => ?_, fun hne => absurd hwatching hne⟩
  · simp [World.setTask] at hidle
  · simp only [Remembered, World.setTask, hfile]
  · simp [World.setTask] at hv

section Read

variable {io : Option Err} {env : Env}

/-- **The watcher's reload reads** what the digest was taken of. If it is
refused, it is not valid. -/
theorem refused (h : Tracks file decode contents env₀ w) (hcalled : w.tasks .watcher = .called)
    (hu : Undisturbed file decode contents env₀ w (.read .watcher io env)) {err : Err}
    (hload : loadFile decode file.path env (readFile io (contents w.version)) = .error err) :
    Tracks file decode contents env₀ { w.setTask .watcher .idle with failed := true } := by
  have hwatching := h.watching_of_task (by simp [hcalled])
  obtain ⟨hfile, hvalid⟩ := hu
  refine ⟨fun _ _ _ => ?_, h.noticed, fun v cfg hv => ?_, fun hne => absurd hwatching hne⟩
  · have hnot : ¬ (loadFile decode file.path env₀ (.ok w.digest)).isOk := by
      intro hok
      rw [hfile] at hvalid
      have := hvalid hok
      rw [← hfile, hload] at this
      cases this
    exact reflects_of_not_isOk hnot
  · simp [World.setTask] at hv

/-- If it is not, what it has loaded is what the digest was taken of. -/
theorem load (h : Tracks file decode contents env₀ w) (hcalled : w.tasks .watcher = .called)
    (hu : Undisturbed file decode contents env₀ w (.read .watcher io env)) {cfg : Config}
    (hload : loadFile decode file.path env (readFile io (contents w.version)) = .ok cfg) :
    Tracks file decode contents env₀
      { w.setTask .watcher (.loaded w.version cfg) with newest := w.version } := by
  have hwatching := h.watching_of_task (by simp [hcalled])
  refine ⟨fun _ hidle _ => ?_, h.noticed, fun v cfg' hv => ?_, fun hne => absurd hwatching hne⟩
  · simp [World.setTask] at hidle
  · obtain ⟨data, hdata, hdecode, -⟩ := loadFile_eq_ok.mp hload
    have hdigest : w.digest = data := Except.ok.inj (hu.1.symm.trans (readFile_eq_ok hdata))
    have hcfg : cfg = cfg' := by
      simp only [World.setTask, Function.update_self, Task.loaded.injEq] at hv
      exact hv.2
    rw [← hcfg]
    exact hdigest ▸ hdecode

end Read

/-- **The watcher's reload applies** what the digest was taken of, or fails
on what is not valid. -/
theorem apply (h : Tracks file decode contents env₀ w) (hs : Sound decode contents w) {env : Env}
    {services : Except Err (List Service)} {v : ℕ} {cfg : Config}
    (hloaded : w.tasks .watcher = .loaded v cfg)
    (hu : Undisturbed file decode contents env₀ w (.apply .watcher env services)) :
    Tracks file decode contents env₀
      ((w.setTask .watcher .idle).finish v (w.reload env cfg services)) := by
  have hwatching := h.watching_of_task (by simp [hloaded])
  have hdecode := h.loaded v cfg hloaded
  have hvalid : cfg.validate env₀ = none → (w.reload env cfg services).1 = .ok := fun hval =>
    reload_ok_iff.mpr (hu cfg (by simp [hloaded, Task.cfg?]) hval)
  rcases reload_cases hs env cfg services with ⟨hne, hsame⟩ | ⟨hok, gen, discovered, hcoh⟩
  · rw [World.finish, if_neg hne]
    refine ⟨fun _ _ _ => ?_, h.noticed, fun v' cfg' hv => ?_, fun hne => absurd hwatching hne⟩
    · exact reflects_of_invalid hdecode fun hval => hne (hvalid hval)
    · simp [World.setTask] at hv
  · rw [World.finish, if_pos hok]
    refine ⟨fun _ _ _ => ?_, h.noticed, fun v' cfg' hv => ?_, fun hne => absurd hwatching hne⟩
    · rw [hcoh.fields.2.1]
      exact reflects_of_decode hdecode
    · simp [World.setTask] at hv

/-- **A reload on a signal applies** what is remembered, or comes before the
watcher's own apply, or before the watcher looks at the file. -/
theorem applySignal (h : Tracks file decode contents env₀ w) (hs : Sound decode contents w)
    {env : Env} {services : Except Err (List Service)} {v : ℕ} {cfg : Config}
    (hloaded : w.tasks .signal = .loaded v cfg)
    (hu : Undisturbed file decode contents env₀ w (.apply .signal env services)) :
    Tracks file decode contents env₀
      ((w.setTask .signal .idle).finish v (w.reload env cfg services)) := by
  rcases reload_cases hs env cfg services with ⟨hne, hsame⟩ | ⟨hok, gen, discovered, hcoh⟩
  · rw [World.finish, if_neg hne]
    exact h.congr rfl rfl rfl rfl rfl rfl (congrArg ServerState.staticConfig hsame)
  · have hstatic := hcoh.fields.2.1
    rw [World.finish, if_pos hok]
    refine ⟨fun hphase hidle hp => ?_, h.noticed, h.loaded, h.waiting⟩
    rw [hstatic]
    exact hu hphase hidle hp cfg (by simp [hloaded, Task.cfg?]) (reload_ok_iff.mp hok)

end Tracks

/-- **The undisturbed step.** -/
theorem step_tracks {w w' : World} {a : Action} (hs : Sound decode contents w)
    (h : Tracks file decode contents env₀ w) (hu : Undisturbed file decode contents env₀ w a)
    (hstep : step file decode contents w a = some w') : Tracks file decode contents env₀ w' := by
  cases Step.of_step hstep with
  | write hevent => exact h.write hevent
  | notify =>
    have hpending : ∀ {event : Event}, World.pending { w with events := w.events ++ [event] } file =
        false → w.pending file = false := by
      intro event hp
      simp only [World.pending, List.any_append, Bool.or_eq_false_iff] at hp ⊢
      exact ⟨hp.1, hp.2.1⟩
    exact ⟨fun hphase hidle hp => h.active hphase hidle (hpending hp),
      fun hw hp => h.noticed hw (hpending hp), h.loaded, h.waiting⟩
  | digest hphase hread => exact h.digest hphase (readFile_eq_ok hread) hu
  | add hphase =>
    exact ⟨fun _ => h.active (by simp [hphase]), fun _ _ => hu, h.loaded, fun hne => absurd rfl hne⟩
  | receive hwatching hevents => exact h.receive hevents hwatching rfl
  | unreadable htimer hread =>
    obtain ⟨rfl, hactive⟩ := hu
    have hsame : Remembered contents w := by
      rw [Remembered, show contents w.version = _ from hread]
      trivial
    exact h.rest htimer hsame (hactive hsame)
  | unchanged htimer hread =>
    have hsame : Remembered contents w := by rw [Remembered, readFile_eq_ok hread]
    exact h.rest htimer hsame (hu.2 hsame)
  | changed htimer _ hread => exact h.call htimer (readFile_eq_ok hread)
  | sighup => exact h.congr rfl rfl rfl rfl rfl rfl rfl
  | @refused who _ _ _ hcalled hload =>
    cases who with
    | watcher => exact h.refused hcalled hu hload
    | signal => exact h.congr rfl rfl rfl rfl rfl rfl rfl
  | @loaded who _ _ _ hcalled hload =>
    cases who with
    | watcher => exact h.load hcalled hu hload
    | signal => exact h.congr rfl rfl rfl rfl rfl rfl rfl
  | @apply who _ _ _ _ hloaded =>
    cases who with
    | watcher => exact h.apply hs hloaded hu
    | signal => exact h.applySignal hs hloaded hu
  | discover => exact h.congr rfl rfl rfl rfl rfl rfl (discover_static hs _ _ _).1

/-! ## Whole runs -/

/-- Before `Start` there is nothing to track. -/
theorem tracks_start (server : ServerState) (kubernetes : KubernetesDiscovery) (watch : Bool) :
    Tracks file decode contents env₀ { server, kubernetes, watch } where
  active hphase := absurd rfl hphase
  noticed hphase := by cases hphase
  loaded _ _ hv := by cases hv
  waiting _ := ⟨rfl, rfl⟩

/-- Where all is quiet, what is tracked is what the file holds. -/
theorem Tracks.reflects {w : World} (h : Tracks file decode contents env₀ w) (hq : Quiescent w) :
    Reflects file decode env₀ w.server.staticConfig (contents w.version) := by
  have hpending : w.pending file = false := by simp [World.pending, hq.received, hq.unset]
  have hactive := h.active (by simp [hq.watching]) (hq.idle .watcher) hpending
  have hnoticed := h.noticed hq.watching hpending
  unfold Remembered at hnoticed
  cases hfile : contents w.version with
  | error err =>
    intro cfg hcfg
    cases hcfg
  | ok data =>
    rw [hfile] at hnoticed
    obtain rfl : data = w.digest := hnoticed
    exact hactive

/-- **No change is lost in an undisturbed run.** Whatever is written and
whenever, in every state where all is quiet, a valid configuration in the
file is the active one. -/
theorem no_config_change_lost (file : ResolvedPath) (decode : GoString → Except Err Config)
    (contents : ℕ → Except Err GoString) (env₀ : Env) {env : Env}
    {services : Except Err (List Service)} {w₀ : World}
    (hstart : start file decode contents env services = some w₀) :
    ∀ actions w, System.Meets (step file decode contents) (Undisturbed file decode contents env₀)
        w₀ actions →
      System.run (step file decode contents) w₀ actions = some w → Quiescent w →
      ∀ cfg, loadFile decode file.path env₀ (contents w.version) = .ok cfg →
        w.server.staticConfig = cfg := by
  intro actions w hmeets hrun hq
  obtain ⟨hsound, server, kubernetes, watch, rfl⟩ := start_sound hstart
  have hstep : ∀ w a w', Sound decode contents w ∧ Tracks file decode contents env₀ w →
      Undisturbed file decode contents env₀ w a → step file decode contents w a = some w' →
        Sound decode contents w' ∧ Tracks file decode contents env₀ w' := by
    intro w a w' h hu hs
    exact ⟨step_sound h.1 hs, step_tracks h.1 h.2 hu hs⟩
  have h := System.run_invariant hstep actions _ w
    ⟨hsound, tracks_start server kubernetes watch⟩ hmeets hrun
  exact h.2.reflects hq

/-! ## Lost changes -/

/-- The texts of `playDecode`, with discovery on. -/
def clusterDecode (data : GoString) : Except Err Config :=
  (playDecode data).map fun cfg => { cfg with kubernetes := { enabled := true } }

/-- The backend is moved there and back by the second and third write. -/
def movedBack (version : ℕ) : Except Err GoString :=
  .ok <| match version with
    | 0 => go "10.0.0.1:25565"
    | 2 => go "10.0.0.3:25565"
    | _ => go "10.0.0.2:25565"

/-- What is left of a run: whether all is quiet, whether the file is valid,
and whether it is then the active configuration. -/
def outcome (contents : ℕ → Except Err GoString) (actions : List Action) :
    Option (Bool × Bool × Bool) :=
  (start playFile clusterDecode contents emptyEnv (.ok [])).bind fun w₀ =>
    (System.run (step playFile clusterDecode contents) w₀ actions).map fun w =>
      (Quiescent w, (loadFile clusterDecode playFile.path emptyEnv (contents w.version)).isOk,
        Reflects playFile clusterDecode emptyEnv w.server.staticConfig (contents w.version))

/-- The watcher takes in a write that was announced, and reloads. -/
def reloaded (services : Except Err (List Service)) : List Action :=
  [.receive, .fire none, .read .watcher none emptyEnv, .apply .watcher emptyEnv services]

/-- **A change can be lost**, in each of these ways: the file is written
after startup has read it and before the digest is taken; or after that and
before the directory is watched; the reload fails to list the Services; the
watcher cannot read the file when its timer fires; or the file is written
between the digest and the reload's own read, and then back. All is quiet at
the end of each run, and the valid configuration in the file is not the
active one. -/
theorem config_change_lost :
    outcome movedBackend [saved, .digest none, .add] = some (true, true, false) ∧
    outcome movedBackend [.digest none, saved, .add] = some (true, true, false) ∧
    outcome movedBackend ([.digest none, .add, saved] ++
      reloaded (.error ⟨go "connection refused", []⟩)) = some (true, true, false) ∧
    outcome movedBackend [.digest none, .add, saved, .receive,
      .fire (some ⟨go "too many open files", []⟩)] = some (true, true, false) ∧
    outcome movedBack ([.digest none, .add, saved, .receive, .fire none, saved,
      .read .watcher none emptyEnv, .apply .watcher emptyEnv (.ok []), saved, .receive, .receive,
      .fire none]) = some (true, true, false) := by
  decide +kernel

/-- A write that is taken in, on a signal and then by the watcher. -/
def undisturbed : List Action :=
  [.digest none, .add, saved, .sighup, .read .signal none emptyEnv,
    .apply .signal emptyEnv (.ok [])] ++ reloaded (.ok [])

theorem no_config_change_lost_moved :
    ∃ w₀ w, start playFile clusterDecode movedBackend emptyEnv (.ok []) = some w₀ ∧
      System.run (step playFile clusterDecode movedBackend) w₀ undisturbed = some w ∧
      w.server.staticConfig =
        { playWith (go "10.0.0.2:25565") with kubernetes := { enabled := true } } := by
  have heval : (start playFile clusterDecode movedBackend emptyEnv (.ok [])).any (fun w₀ =>
      System.Meets (step playFile clusterDecode movedBackend)
        (Undisturbed playFile clusterDecode movedBackend emptyEnv) w₀ undisturbed ∧
      (System.run (step playFile clusterDecode movedBackend) w₀ undisturbed).any fun w =>
        w.version = 1 ∧ Quiescent w) = true := by
    decide +kernel
  obtain ⟨w₀, hstart, hw₀⟩ := (Option.any_eq_true _ _).mp heval
  simp only [decide_eq_true_eq] at hw₀
  obtain ⟨hmeets, hrun⟩ := hw₀
  obtain ⟨w, hrun, hw⟩ := (Option.any_eq_true _ _).mp hrun
  obtain ⟨hversion, hq⟩ := of_decide_eq_true hw
  refine ⟨w₀, w, hstart, hrun, ?_⟩
  refine no_config_change_lost playFile clusterDecode movedBackend emptyEnv hstart undisturbed w
    hmeets hrun hq _ ?_
  rw [hversion]
  decide +kernel

end Reload

end McRouter
