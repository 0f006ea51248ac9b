import McRouter.Proxy.Coherence
import McRouter.Kubernetes.Watch
import McRouter.Common.Publication
import McRouter.Common.System

/-!
# Reloading the configuration file

`cmd/mc-gateway/main.go`, `discovery_reload.go` and `configwatch/watcher.go`.
Two goroutines reload the file, one on `SIGHUP` and one when the watcher has
seen a change. A reload reads and validates the file, then lists the
Services if discovery is on, and applies under the server's lock; only the
apply is locked.

The file has numbered contents, each write the next one; a run of the
gateway begins with the content that startup has read, number `0`. **What is
active is what the last successful reload has read**, which need not be the
newest content: a reload that reads early and applies late puts an old
configuration back. In the order of their reads the reloads never do
(`reloads_never_roll_back`).
-/

namespace McRouter

namespace Reload

open Config Kubernetes Proxy Strings Unicode

/-! ## Loading -/

/-- `os.ReadFile`, on a file that may be missing, and with an error of its
own where one is met. -/
def readFile (io : Option Err) (file : Except Err GoString) : Except Err GoString :=
  match io with
  | some err => .error err
  | none => file

section Load

variable (decode : GoString → Except Err Config)

/-- `Load`; `decode` is the YAML decoder on `Defaults()`. -/
def load (env : Env) (data : GoString) : Except Err Config :=
  match decode data with
  | .error err => .error (err.prefixed (go "parse yaml"))
  | .ok cfg =>
    match cfg.validate env with
    | some err => .error (err.prefixed (go "validate config"))
    | none => .ok cfg

/-- `LoadFile`. -/
def loadFile (path : GoString) (env : Env) : Except Err GoString → Except Err Config
  | .error err => .error (err.prefixed (go "read config " ++ quote path))
  | .ok data =>
    match load decode env data with
    | .error err => .error (err.prefixed (go "load config " ++ quote path))
    | .ok cfg => .ok cfg

variable {decode}

/-- What is loaded is what the decoder made of the file, and it is valid. -/
theorem loadFile_eq_ok {path : GoString} {env : Env} {file : Except Err GoString} {cfg : Config} :
    loadFile decode path env file = .ok cfg ↔
      ∃ data, file = .ok data ∧ decode data = .ok cfg ∧ cfg.validate env = none := by
  cases file with
  | error err => simp [loadFile]
  | ok data =>
    cases hd : decode data with
    | error err => simp [loadFile, load, hd]
    | ok cfg' =>
      cases hv : cfg'.validate env with
      | some err =>
        have hne : cfg' = cfg → cfg.validate env ≠ none := by
          rintro rfl
          simp [hv]
        simpa [loadFile, load, hd, hv] using hne
      | none =>
        have : cfg' = cfg ↔ cfg' = cfg ∧ cfg.validate env = none := by
          constructor
          · rintro rfl
            exact ⟨rfl, hv⟩
          · exact And.left
        simpa [loadFile, load, hd, hv] using this

end Load

/-! ## The gateway -/

/-- `resolvedPath`. -/
structure ResolvedPath where
  path : GoString
  dir : GoString
  fileName : GoString

/-- An event of `fsnotify`: the directory and the base of its name. -/
structure Event where
  dir : GoString
  name : GoString
deriving DecidableEq

/-- `isConfigEvent`. -/
def isConfigEvent (file : ResolvedPath) (event : Event) : Bool :=
  if event.dir ≠ file.dir then false
  else event.name = file.fileName ∨ event.name = go "..data" ∨ event.name = go "..data_tmp"

/-- Who calls `ReloadFile`. -/
inductive Trigger where
  | signal
  | watcher
deriving DecidableEq, Repr

/-- Where a goroutine stands. -/
inductive Task where
  /-- In its `select`. -/
  | idle
  /-- In `ReloadFile`, before the file is read. -/
  | called
  /-- The configuration is loaded and not yet applied; which content it was. -/
  | loaded (version : ℕ) (cfg : Config)
deriving DecidableEq

/-- How far `configwatch.Start` is. -/
inductive Phase where
  | starting
  | digested
  | watching
deriving DecidableEq, Repr

/-- The gateway and its file. A digest is the content itself. -/
structure World where
  /-- How often the file was written since startup has read it. -/
  version : ℕ := 0
  server : ServerState
  /-- The startup settings of discovery. -/
  kubernetes : KubernetesDiscovery
  /-- `ConfigReload.Watch` at startup. -/
  watch : Bool
  phase : Phase := .starting
  digest : GoString := []
  /-- Events that the watcher has not received. -/
  events : List Event := []
  /-- Whether the debounce timer is set. -/
  timer : Bool := false
  tasks : Trigger → Task := fun _ => .idle
  /-- The content that the active configuration was loaded from. -/
  active : ℕ := 0
  /-- The newest content read. -/
  newest : ℕ := 0
  /-- What the reloads that went through have read, the last one first. -/
  applied : List ℕ := []
  /-- Whether some reload has failed. -/
  failed : Bool := false

/-- What happens next. -/
inductive Action where
  /-- The file is written, or replaced with the volume's `..data` link. -/
  | write (event : Event)
  /-- Something else happens in the directory. -/
  | notify (event : Event)
  /-- `Start` reads the initial digest. -/
  | digest (io : Option Err)
  /-- `Start` adds the directory to the watch. -/
  | add
  /-- The watcher receives an event. -/
  | receive
  /-- The debounce timer fires. -/
  | fire (io : Option Err)
  /-- The signal goroutine receives a `SIGHUP`. -/
  | sighup
  /-- A reload loads the file. -/
  | read (who : Trigger) (io : Option Err) (env : Env)
  /-- A reload lists the Services if it has to, and applies. -/
  | apply (who : Trigger) (env : Env) (services : Except Err (List Service))
  /-- The runtime discovery updates the server. -/
  | discover (env : Env) (ctx : Option ContextChecks) (provider : Provided)

namespace World

/-- The goroutine moves to another point. -/
def setTask (w : World) (who : Trigger) (task : Task) : World :=
  { w with tasks := Function.update w.tasks who task }

/-- Some event that waits is one of the configuration's. -/
def pending (w : World) (file : ResolvedPath) : Bool := w.timer || w.events.any (isConfigEvent file)

/-- The routes of `buildReloadDiscoveryReport`. -/
def reportRoutes (w : World) (services : List Service) : List DiscoveredRoute :=
  (buildDiscoveredRoutes (listServices services) ⟨w.kubernetes.annotationPrefix⟩).routes

/-- `kubernetesReloadReloader.ReloadFile`, from the loaded configuration on. -/
def reload (w : World) (env : Env) (cfg : Config) (services : Except Err (List Service)) :
    Outcome × ServerState :=
  if w.kubernetes.enabled then
    match services with
    | .error err => (.failed err, w.server)
    | .ok services =>
      reloadConfigWithDiscovery env w.server cfg (some (.ok (w.reportRoutes services)))
  else reloadFile env w.server (.ok cfg)

/-- The reload of content `version` ends so. -/
def finish (w : World) (version : ℕ) (out : Outcome × ServerState) : World :=
  if out.1 = .ok then
    { w with server := out.2, active := version, applied := version :: w.applied }
  else { w with server := out.2, failed := true }

end World

section Step

variable (file : ResolvedPath) (decode : GoString → Except Err Config)
variable (contents : ℕ → Except Err GoString)

/-- One step. -/
def step (w : World) : Action → Option World
  | .write event =>
    -- every write is announced once the directory is watched
    if isConfigEvent file event then
      some { w with version := w.version + 1,
                    events := if w.phase = .watching then w.events ++ [event] else w.events }
    else none
  | .notify event =>
    if w.phase = .watching then some { w with events := w.events ++ [event] } else none
  | .digest io =>
    if w.watch ∧ w.phase = .starting then
      match readFile io (contents w.version) with
      | .error _ => none
      | .ok data => some { w with digest := data, phase := .digested }
    else none
  | .add => if w.phase = .digested then some { w with phase := .watching } else none
  | .receive =>
    if w.phase = .watching ∧ w.tasks .watcher = .idle then
      match w.events with
      | [] => none
      | event :: events =>
        if isConfigEvent file event then some { w with events, timer := true }
        else some { w with events }
    else none
  | .fire io =>
    if w.timer ∧ w.tasks .watcher = .idle then
      match readFile io (contents w.version) with
      | .error _ => some { w with timer := false }
      | .ok data =>
        if data = w.digest then some { w with timer := false }
        else some ({ w with timer := false, digest := data }.setTask .watcher .called)
    else none
  | .sighup => if w.tasks .signal = .idle then some (w.setTask .signal .called) else none
  | .read who io env =>
    match w.tasks who with
    | .called =>
      match loadFile decode file.path env (readFile io (contents w.version)) with
      | .error _ => some { w.setTask who .idle with failed := true }
      | .ok cfg => some { w.setTask who (.loaded w.version cfg) with newest := w.version }
    | _ => none
  | .apply who env services =>
    match w.tasks who with
    | .loaded version cfg => some ((w.setTask who .idle).finish version (w.reload env cfg services))
    | _ => none
  | .discover env ctx provider =>
    some { w with server := (updateDiscoveredRoutes env w.server ctx provider).2 }

/-- `loadStartupWithDiscovery` and `NewServerFromSnapshot`, on the content
that startup reads. -/
def start (env : Env) (services : Except Err (List Service)) : Option World :=
  match loadFile decode file.path env (contents 0) with
  | .error _ => none
  | .ok cfg =>
    let discovered : Except Err (List DiscoveredRoute) :=
      if cfg.kubernetes.enabled then services.map fun services =>
        (buildDiscoveredRoutes (listServices services) ⟨cfg.kubernetes.annotationPrefix⟩).routes
      else .ok []
    match discovered with
    | .error _ => none
    | .ok discovered =>
      match buildRouteSnapshot env cfg discovered with
      | .error _ => none
      | .ok snapshot => (newServerFromSnapshot snapshot).map fun server =>
          { server, kubernetes := snapshot.staticConfig.kubernetes,
            watch := snapshot.config.configReload.watch }

end Step

/-! ## What a step does -/

/-- The steps one by one: when each can be taken, and where it leads. -/
inductive Step (file : ResolvedPath) (decode : GoString → Except Err Config)
    (contents : ℕ → Except Err GoString) (w : World) : Action → World → Prop
  | write {event : Event} (announced : isConfigEvent file event = true) :
    Step file decode contents w (.write event) { w with
      version := w.version + 1
      events := if w.phase = .watching then w.events ++ [event] else w.events }
  | notify {event : Event} (watching : w.phase = .watching) :
    Step file decode contents w (.notify event) { w with events := w.events ++ [event] }
  | digest {io : Option Err} {data : GoString} (starting : w.phase = .starting)
      (read : readFile io (contents w.version) = .ok data) :
    Step file decode contents w (.digest io) { w with digest := data, phase := .digested }
  | add (digested : w.phase = .digested) :
    Step file decode contents w .add { w with phase := .watching }
  | receive {event : Event} {events : List Event} (watching : w.phase = .watching)
      (next : w.events = event :: events) : Step file decode contents w .receive
        (if isConfigEvent file event then { w with events, timer := true } else { w with events })
  | unreadable {io : Option Err} {err : Err} (timer : w.timer = true)
      (read : readFile io (contents w.version) = .error err) :
    Step file decode contents w (.fire io) { w with timer := false }
  | unchanged {io : Option Err} (timer : w.timer = true)
      (read : readFile io (contents w.version) = .ok w.digest) :
    Step file decode contents w (.fire io) { w with timer := false }
  | changed {io : Option Err} {data : GoString} (timer : w.timer = true)
      (idle : w.tasks .watcher = .idle) (read : readFile io (contents w.version) = .ok data) :
    Step file decode contents w (.fire io)
      ({ w with timer := false, digest := data }.setTask .watcher .called)
  | sighup (idle : w.tasks .signal = .idle) :
    Step file decode contents w .sighup (w.setTask .signal .called)
  | refused {who : Trigger} {io : Option Err} {env : Env} {err : Err} (called : w.tasks who = .called)
      (load : loadFile decode file.path env (readFile io (contents w.version)) = .error err) :
    Step file decode contents w (.read who io env) { w.setTask who .idle with failed := true }
  | loaded {who : Trigger} {io : Option Err} {env : Env} {cfg : Config} (called : w.tasks who = .called)
      (load : loadFile decode file.path env (readFile io (contents w.version)) = .ok cfg) :
    Step file decode contents w (.read who io env)
      { w.setTask who (.loaded w.version cfg) with newest := w.version }
  | apply {who : Trigger} {env : Env} {services : Except Err (List Service)} {version : ℕ}
      {cfg : Config} (loaded : w.tasks who = .loaded version cfg) :
    Step file decode contents w (.apply who env services)
      ((w.setTask who .idle).finish version (w.reload env cfg services))
  | discover {env : Env} {ctx : Option ContextChecks} {provider : Provided} :
    Step file decode contents w (.discover env ctx provider)
      { w with server := (updateDiscoveredRoutes env w.server ctx provider).2 }

variable {file : ResolvedPath} {decode : GoString → Except Err Config}
variable {contents : ℕ → Except Err GoString}

theorem Step.of_step {w w' : World} {a : Action} (h : step file decode contents w a = some w') :
    Step file decode contents w a w' := by
  cases a with
  | write event =>
    simp only [step] at h
    split at h
    · rename_i hevent
      exact Option.some.inj h ▸ .write hevent
    · cases h
  | notify event =>
    simp only [step] at h
    split at h
    · rename_i hphase
      exact Option.some.inj h ▸ .notify hphase
    · cases h
  | digest io =>
    simp only [step] at h
    split at h
    · rename_i hphase
      split at h
      · cases h
      · rename_i data hread
        exact Option.some.inj h ▸ .digest hphase.2 hread
    · cases h
  | add =>
    simp only [step] at h
    split at h
    · rename_i hphase
      exact Option.some.inj h ▸ .add hphase
    · cases h
  | receive =>
    simp only [step] at h
    split at h
    · rename_i hready
      split at h
      · cases h
      · rename_i event events hevents
        rw [← apply_ite some] at h
        exact Option.some.inj h ▸ .receive hready.1 hevents
    · cases h
  | fire io =>
    simp only [step] at h
    split at h
    · rename_i hready
      split at h
      · rename_i err hread
        exact Option.some.inj h ▸ .unreadable hready.1 hread
      · rename_i data hread
        split at h
        · rename_i hsame
          exact Option.some.inj h ▸ .unchanged hready.1 (hsame ▸ hread)
        · exact Option.some.inj h ▸ .changed hready.1 hready.2 hread
    · cases h
  | sighup =>
    simp only [step] at h
    split at h
    · rename_i hidle
      exact Option.some.inj h ▸ .sighup hidle
    · cases h
  | read who io env =>
    simp only [step] at h
    split at h
    · rename_i hcalled
      split at h
      · rename_i err hload
        exact Option.some.inj h ▸ .refused hcalled hload
      · rename_i cfg hload
        exact Option.some.inj h ▸ .loaded hcalled hload
    · cases h
  | apply who env services =>
    simp only [step] at h
    split at h
    · rename_i version cfg hloaded
      exact Option.some.inj h ▸ .apply hloaded
    · cases h
  | discover env ctx provider =>
    obtain rfl := Option.some.inj h
    exact .discover

/-- The content a goroutine has read and not yet applied. -/
def Task.version? : Task → Option ℕ
  | .loaded version _ => some version
  | _ => none

/-- The reloads as workers that publish what they have read. -/
def World.view (w : World) : Publication.State Trigger ℕ where
  current := w.version
  newest := w.newest
  published := w.active
  held who := (w.tasks who).version?

/-- A step that loads nothing and applies nothing. -/
structure Quiet (w w' : World) : Prop where
  server_eq : w'.server = w.server
  failed_eq : w'.failed = w.failed
  applied_eq : w'.applied = w.applied
  version_le : w.version ≤ w'.version
  view_eq : w'.view = { w.view with current := w'.version }
  loaded : ∀ who v cfg, w'.tasks who = .loaded v cfg → w.tasks who = .loaded v cfg

/-- A step that leaves the goroutines and the marks alone. -/
theorem quiet_of_tasks {w w' : World} (hserver : w'.server = w.server)
    (hfailed : w'.failed = w.failed) (hversion : w.version ≤ w'.version)
    (htasks : w'.tasks = w.tasks)
    (hmarks : w'.active = w.active ∧ w'.newest = w.newest ∧ w'.applied = w.applied) :
    Quiet w w' := by
  refine ⟨hserver, hfailed, hmarks.2.2, hversion, ?_, fun who v cfg h => htasks ▸ h⟩
  simp only [World.view, htasks, hmarks.1, hmarks.2.1]

/-- A goroutine that enters `ReloadFile`. -/
theorem quiet_called {w w' : World} {who : Trigger} (hidle : w.tasks who = .idle)
    (hserver : w'.server = w.server) (hfailed : w'.failed = w.failed)
    (hversion : w'.version = w.version) (htasks : w'.tasks = Function.update w.tasks who .called)
    (hmarks : w'.active = w.active ∧ w'.newest = w.newest ∧ w'.applied = w.applied) :
    Quiet w w' := by
  refine ⟨hserver, hfailed, hmarks.2.2, le_of_eq hversion.symm, ?_, fun who' v cfg h => ?_⟩
  · have hheld : ∀ who', (w'.tasks who').version? = (w.tasks who').version? := by
      intro who'
      by_cases h : who' = who
      · subst h
        rw [htasks, Function.update_self, hidle]
        rfl
      · rw [htasks, Function.update_of_ne h]
    simp only [World.view, hheld, hmarks.1, hmarks.2.1]
  · by_cases heq : who' = who
    · subst heq
      rw [htasks, Function.update_self] at h
      cases h
    · rwa [htasks, Function.update_of_ne heq] at h

/-- **What a step can do.** -/
theorem step_effect {w w' : World} {a : Action} (h : step file decode contents w a = some w') :
    Quiet w w' ∨
    (∃ env ctx provider,
      w' = { w with server := (updateDiscoveredRoutes env w.server ctx provider).2 }) ∨
    (∃ who io env, a = .read who io env ∧ w.tasks who = .called ∧
      ((∃ err, loadFile decode file.path env (readFile io (contents w.version)) = .error err ∧
        w' = { w.setTask who .idle with failed := true }) ∨
      ∃ cfg, loadFile decode file.path env (readFile io (contents w.version)) = .ok cfg ∧
        w' = { w.setTask who (.loaded w.version cfg) with newest := w.version })) ∨
    ∃ who env services v cfg, a = .apply who env services ∧ w.tasks who = .loaded v cfg ∧
      w' = (w.setTask who .idle).finish v (w.reload env cfg services) := by
  cases Step.of_step h with
  | write => exact Or.inl (quiet_of_tasks rfl rfl (Nat.le_succ _) rfl ⟨rfl, rfl, rfl⟩)
  | notify => exact Or.inl (quiet_of_tasks rfl rfl le_rfl rfl ⟨rfl, rfl, rfl⟩)
  | digest => exact Or.inl (quiet_of_tasks rfl rfl le_rfl rfl ⟨rfl, rfl, rfl⟩)
  | add => exact Or.inl (quiet_of_tasks rfl rfl le_rfl rfl ⟨rfl, rfl, rfl⟩)
  | receive =>
    split
    · exact Or.inl (quiet_of_tasks rfl rfl le_rfl rfl ⟨rfl, rfl, rfl⟩)
    · exact Or.inl (quiet_of_tasks rfl rfl le_rfl rfl ⟨rfl, rfl, rfl⟩)
  | unreadable => exact Or.inl (quiet_of_tasks rfl rfl le_rfl rfl ⟨rfl, rfl, rfl⟩)
  | unchanged => exact Or.inl (quiet_of_tasks rfl rfl le_rfl rfl ⟨rfl, rfl, rfl⟩)
  | changed _ hidle => exact Or.inl (quiet_called hidle rfl rfl rfl rfl ⟨rfl, rfl, rfl⟩)
  | sighup hidle => exact Or.inl (quiet_called hidle rfl rfl rfl rfl ⟨rfl, rfl, rfl⟩)
  | refused hcalled hload =>
    exact Or.inr (Or.inr (Or.inl ⟨_, _, _, rfl, hcalled, Or.inl ⟨_, hload, rfl⟩⟩))
  | loaded hcalled hload =>
    exact Or.inr (Or.inr (Or.inl ⟨_, _, _, rfl, hcalled, Or.inr ⟨_, hload, rfl⟩⟩))
  | apply hloaded => exact Or.inr (Or.inr (Or.inr ⟨_, _, _, _, _, rfl, hloaded, rfl⟩))
  | discover => exact Or.inr (Or.inl ⟨_, _, _, rfl⟩)

/-! ## What every step keeps -/

/-- The configuration is the one in that content of the file. -/
def Loaded (decode : GoString → Except Err Config) (contents : ℕ → Except Err GoString)
    (version : ℕ) (cfg : Config) : Prop :=
  ∃ data, contents version = .ok data ∧ decode data = .ok cfg

/-- The server is coherent, and all that is active or loaded comes from the
content that is noted with it. -/
structure Sound (decode : GoString → Except Err Config) (contents : ℕ → Except Err GoString)
    (w : World) : Prop where
  coherent : ∃ gen discovered, Coherent w.server gen w.server.staticConfig discovered
  active_loaded : Loaded decode contents w.active w.server.staticConfig
  task_loaded : ∀ who v cfg, w.tasks who = .loaded v cfg → Loaded decode contents v cfg

/-- **A reload** changes nothing or makes its configuration the static one. -/
theorem reload_cases {w : World} (h : Sound decode contents w) (env : Env) (cfg : Config)
    (services : Except Err (List Service)) :
    ((w.reload env cfg services).1 ≠ .ok ∧ (w.reload env cfg services).2 = w.server) ∨
      ((w.reload env cfg services).1 = .ok ∧ ∃ gen discovered,
        Coherent (w.reload env cfg services).2 gen cfg discovered) := by
  obtain ⟨gen, discovered, hcoh⟩ := h.coherent
  have hcall : ∀ call : Call, call.staticSet = some cfg →
      ((call.run env w.server).1 ≠ .ok ∧ (call.run env w.server).2 = w.server) ∨
        ((call.run env w.server).1 = .ok ∧ ∃ gen discovered,
          Coherent (call.run env w.server).2 gen cfg discovered) := by
    intro call hset
    by_cases hok : (call.run env w.server).1 = .ok
    · have hrun := (run_coherent hcoh env call).2 hok
      rw [hset] at hrun
      exact Or.inr ⟨hok, _, _, hrun⟩
    · exact Or.inl ⟨hok, run_eq_of_ne_ok hok⟩
  unfold World.reload
  split
  · cases services with
    | error err => exact Or.inl ⟨by simp, rfl⟩
    | ok services => exact hcall (.reloadConfigWithDiscovery cfg _) rfl
  · exact hcall (.reloadFile (.ok cfg)) rfl

/-- An update of the discovered routes keeps the static configuration. -/
theorem discover_static {w : World} (h : Sound decode contents w) (env : Env)
    (ctx : Option ContextChecks) (provider : Provided) :
    (updateDiscoveredRoutes env w.server ctx provider).2.staticConfig = w.server.staticConfig ∧
      ∃ gen discovered, Coherent (updateDiscoveredRoutes env w.server ctx provider).2 gen
        w.server.staticConfig discovered := by
  obtain ⟨gen, discovered, hcoh⟩ := h.coherent
  by_cases hok : ((Call.updateDiscoveredRoutes ctx provider).run env w.server).1 = .ok
  · have hrun := (run_coherent hcoh env (.updateDiscoveredRoutes ctx provider)).2 hok
    exact ⟨hrun.fields.2.1, _, _, hrun⟩
  · have hsame := run_eq_of_ne_ok hok
    simp only [Call.run] at hsame
    rw [hsame]
    exact ⟨rfl, gen, discovered, hcoh⟩

/-- What a goroutine has loaded after another task was set. -/
theorem loaded_setTask {w : World} {who who' : Trigger} {task : Task} {v : ℕ} {cfg : Config}
    (h : (w.setTask who task).tasks who' = .loaded v cfg) :
    task = .loaded v cfg ∨ w.tasks who' = .loaded v cfg := by
  by_cases heq : who' = who
  · subst heq
    left
    simpa [World.setTask] using h
  · right
    simpa [World.setTask, heq] using h

/-- **The step lemma.** -/
theorem step_sound {w w' : World} {a : Action} (h : Sound decode contents w)
    (hstep : step file decode contents w a = some w') : Sound decode contents w' := by
  rcases step_effect hstep with hq | ⟨env, ctx, provider, rfl⟩ |
    ⟨who, io, env, -, -, ⟨err, -, rfl⟩ | ⟨cfg, hload, rfl⟩⟩ |
    ⟨who, env, services, v, cfg, -, hv, rfl⟩
  · have hactive : w'.active = w.active := congrArg Publication.State.published hq.view_eq
    exact
      { coherent := hq.server_eq ▸ h.coherent
        active_loaded := by
          rw [hq.server_eq, hactive]
          exact h.active_loaded
        task_loaded := fun who v cfg hv => h.task_loaded who v cfg (hq.loaded who v cfg hv) }
  · obtain ⟨hstatic, hcoh⟩ := discover_static h env ctx provider
    exact
      { coherent := by
          rw [hstatic]
          exact hcoh
        active_loaded := by
          rw [hstatic]
          exact h.active_loaded
        task_loaded := h.task_loaded }
  · refine ⟨h.coherent, h.active_loaded, fun who' v cfg hv => ?_⟩
    rcases loaded_setTask hv with hv | hv
    · cases hv
    · exact h.task_loaded who' v cfg hv
  · obtain ⟨data, hdata, hdecode, -⟩ := loadFile_eq_ok.mp hload
    refine ⟨h.coherent, h.active_loaded, fun who' v' cfg' hv => ?_⟩
    rcases loaded_setTask hv with hv | hv
    · cases hv
      -- a read that met no error of its own has seen the file
      cases io with
      | some err => cases hdata
      | none => exact ⟨data, hdata, hdecode⟩
    · exact h.task_loaded who' v' cfg' hv
  · have htasks : ∀ who' v' cfg', (w.setTask who .idle).tasks who' = .loaded v' cfg' →
        Loaded decode contents v' cfg' := by
      intro who' v' cfg' hv'
      rcases loaded_setTask hv' with hv' | hv'
      · cases hv'
      · exact h.task_loaded who' v' cfg' hv'
    rcases reload_cases h env cfg services with ⟨hne, hsame⟩ | ⟨hok, gen, discovered, hcoh⟩
    · rw [World.finish, if_neg hne, hsame]
      exact ⟨h.coherent, h.active_loaded, htasks⟩
    · have hstatic := hcoh.fields.2.1
      rw [World.finish, if_pos hok]
      exact
        { coherent := ⟨gen, discovered, hstatic.symm ▸ hcoh⟩
          active_loaded := by
            rw [hstatic]
            exact h.task_loaded who v cfg hv
          task_loaded := htasks }

/-- The gateway starts with the content it has read. -/
theorem start_sound {env : Env} {services : Except Err (List Service)} {w : World}
    (h : start file decode contents env services = some w) :
    Sound decode contents w ∧ ∃ server kubernetes watch, w = { server, kubernetes, watch } := by
  unfold start at h
  split at h
  · cases h
  rename_i cfg hload
  obtain ⟨data, hdata, hdecode, -⟩ := loadFile_eq_ok.mp hload
  simp only at h
  split at h
  · cases h
  rename_i discovered _
  split at h
  · cases h
  rename_i snapshot hbuild
  obtain ⟨server, hserver, rfl⟩ := Option.map_eq_some_iff.mp h
  obtain ⟨s, hs, hcoh⟩ := exists_coherent hbuild 1
  obtain rfl : server = s := Option.some.inj (hserver.symm.trans hs)
  have hstatic := hcoh.fields.2.1
  refine ⟨⟨⟨1, discovered, hstatic.symm ▸ hcoh⟩, ⟨data, hdata, ?_⟩, fun _ _ _ hv => by cases hv⟩,
    server, _, _, rfl⟩
  rw [hstatic]
  exact hdecode

/-! ## In the order of the reads -/

/-- The other goroutine. -/
def Trigger.other : Trigger → Trigger
  | .signal => .watcher
  | .watcher => .signal

/-- A step that applies nothing while the other goroutine holds an older
content. -/
def InTurn (w : World) : Action → Prop
  | .apply who _ _ =>
    ∀ v ∈ (w.tasks who).version?, ∀ v' ∈ (w.tasks who.other).version?, v ≤ v'
  | _ => True

instance decidableInTurn (w : World) (a : Action) : Decidable (InTurn w a) := by
  cases a <;> unfold InTurn <;> infer_instance

theorem view_setTask (w : World) (who : Trigger) (task : Task) :
    (w.setTask who task).view =
      { w.view with held := Function.update w.view.held who task.version? } := by
  simp only [World.view, World.setTask]
  congr 1
  funext who'
  by_cases h : who' = who
  · subst h
    simp
  · simp [h]

/-- What is published and held is in order, what is active is the newest of
what was applied, and nothing is lost as long as no reload has failed. -/
structure Orderly (w : World) : Prop where
  ordered : Publication.Ordered w.view
  active_mem : w.active ∈ 0 :: w.applied
  applied_le : ∀ v ∈ w.applied, v ≤ w.active
  settled : w.failed = false → Publication.Settled w.view

/-- **The orderly step.** It keeps the order, and what is active does not go
back. -/
theorem step_orderly {w w' : World} {a : Action} (h : Sound decode contents w) (ho : Orderly w)
    (hturn : InTurn w a) (hstep : step file decode contents w a = some w') :
    Orderly w' ∧ w.active ≤ w'.active := by
  rcases step_effect hstep with hq | ⟨env, ctx, provider, rfl⟩ |
    ⟨who, io, env, -, -, ⟨err, -, rfl⟩ | ⟨cfg, -, rfl⟩⟩ | ⟨who, env, services, v, cfg, rfl, hv, rfl⟩
  · have hactive : w'.active = w.active := congrArg Publication.State.published hq.view_eq
    refine ⟨⟨?_, ?_, ?_, fun hf => ?_⟩, le_of_eq hactive.symm⟩
    · rw [hq.view_eq]
      exact ho.ordered.advance hq.version_le
    · rw [hactive, hq.applied_eq]
      exact ho.active_mem
    · rw [hactive, hq.applied_eq]
      exact ho.applied_le
    · rw [hq.view_eq]
      exact ho.settled (hq.failed_eq ▸ hf)
  · exact ⟨⟨ho.ordered, ho.active_mem, ho.applied_le, ho.settled⟩, le_rfl⟩
  · have hview : World.view { w.setTask who .idle with failed := true } = w.view.drop who :=
      view_setTask w who .idle
    refine ⟨⟨?_, ho.active_mem, ho.applied_le, fun hf => by cases hf⟩, le_rfl⟩
    rw [hview]
    exact ho.ordered.drop who
  · have hview : World.view { w.setTask who (.loaded w.version cfg) with newest := w.version } =
        w.view.take who := by
      have hset := view_setTask w who (.loaded w.version cfg)
      rw [Publication.State.take]
      exact congrArg (fun s : Publication.State Trigger ℕ => { s with newest := w.version }) hset
    refine ⟨⟨?_, ho.active_mem, ho.applied_le, fun _ => ?_⟩, le_rfl⟩
    · rw [hview]
      exact ho.ordered.take who
    · rw [hview]
      exact Publication.settled_take w.view who
  · have hheld : w.view.held who = some v := by
      simp only [World.view, hv, Task.version?]
    -- nobody holds an older content: neither this goroutine nor the other
    have hfirst : ∀ who' v', w.view.held who' = some v' → v ≤ v' := by
      intro who' v' hv'
      by_cases heq : who' = who
      · subst heq
        exact le_of_eq (Option.some.inj (hheld.symm.trans hv'))
      · have hother : who' = who.other := by
          cases who <;> cases who' <;> first | rfl | exact absurd rfl heq
        subst hother
        exact hturn v hheld v' hv'
    have hdrop : (w.setTask who .idle).view = w.view.drop who := view_setTask w who .idle
    rcases reload_cases h env cfg services with ⟨hne, hsame⟩ | ⟨hok, -⟩
    · rw [World.finish, if_neg hne]
      refine ⟨⟨?_, ho.active_mem, ho.applied_le, fun hf => by cases hf⟩, le_rfl⟩
      have hview : World.view { w.setTask who .idle with
          server := (w.reload env cfg services).2, failed := true } = w.view.drop who := hdrop
      rw [hview]
      exact ho.ordered.drop who
    · obtain ⟨hordered, hle⟩ := ho.ordered.publish hheld hfirst
      have hview : World.view { w.setTask who .idle with
          server := (w.reload env cfg services).2, active := v,
          applied := v :: (w.setTask who .idle).applied } = w.view.publish who v :=
        congrArg (fun s : Publication.State Trigger ℕ => { s with published := v }) hdrop
      rw [World.finish, if_pos hok]
      refine ⟨⟨?_, List.mem_cons_of_mem _ List.mem_cons_self, fun v' hv' => ?_, fun hf => ?_⟩, hle⟩
      · rw [hview]
        exact hordered
      · rcases List.mem_cons.mp hv' with rfl | hv'
        · exact le_rfl
        · exact (ho.applied_le v' hv').trans hle
      · rw [hview]
        exact (ho.settled hf).publish ho.ordered hheld

/-- A gateway that has just started is in order. -/
theorem orderly_start (server : ServerState) (kubernetes : KubernetesDiscovery) (watch : Bool) :
    Orderly { server, kubernetes, watch } where
  ordered := ⟨le_rfl, le_rfl, fun _ _ hv => by cases hv⟩
  active_mem := List.mem_cons_self
  applied_le _ hv := by cases hv
  settled _ := Or.inl rfl

/-- **Reloads in turn never roll back.** In every run the active static
configuration is the one of the content noted as active. In a run where no
reload applies while the other holds an older content, the active content
never gets older: it is the newest that any reload which went through has
read, or that of the start. Once both goroutines are idle and no reload has
failed, it is the newest that any of them has read. -/
theorem reloads_never_roll_back (file : ResolvedPath) (decode : GoString → Except Err Config)
    (contents : ℕ → Except Err GoString) {env : Env} {services : Except Err (List Service)}
    {w₀ : World} (hstart : start file decode contents env services = some w₀) :
    (∀ actions w, System.run (step file decode contents) w₀ actions = some w →
      Loaded decode contents w.active w.server.staticConfig) ∧
    ∀ actions w, System.Meets (step file decode contents) InTurn w₀ actions →
      System.run (step file decode contents) w₀ actions = some w →
      (∀ actions' w', System.Meets (step file decode contents) InTurn w actions' →
        System.run (step file decode contents) w actions' = some w' → w.active ≤ w'.active) ∧
      (w.active ∈ 0 :: w.applied ∧ ∀ v ∈ w.applied, v ≤ w.active) ∧
      (w.failed = false → (∀ who, w.tasks who = .idle) → w.active = w.newest) := by
  obtain ⟨hsound, server, kubernetes, watch, rfl⟩ := start_sound hstart
  have hstep : ∀ w a w', Sound decode contents w ∧ Orderly w → InTurn w a →
      step file decode contents w a = some w' →
        (Sound decode contents w' ∧ Orderly w') ∧ w.active ≤ w'.active := by
    intro w a w' h hturn hs
    obtain ⟨ho, hle⟩ := step_orderly h.1 h.2 hturn hs
    exact ⟨⟨step_sound h.1 hs, ho⟩, hle⟩
  refine ⟨fun actions w hrun => ?_, fun actions w hmeets hrun => ?_⟩
  · have h := System.run_invariant_of_step (fun w a w' h hs => step_sound h hs) hsound hrun
    exact h.active_loaded
  · have h := System.run_invariant (fun w a w' h hc hs => (hstep w a w' h hc hs).1) actions _ w
      ⟨hsound, orderly_start server kubernetes watch⟩ hmeets hrun
    refine ⟨fun actions' w' hmeets' hrun' => ?_, ⟨h.2.active_mem, h.2.applied_le⟩,
      fun hf hidle => ?_⟩
    · exact System.run_relation (R := fun w w' => w.active ≤ w'.active) (fun w => le_refl _)
        (fun _ _ _ => le_trans) hstep actions' w w' h hmeets' hrun'
    · refine (h.2.settled hf).published_eq fun who => ?_
      simp only [World.view, hidle who, Task.version?]

/-! ## Out of turn -/

/-- The file of the runs below. -/
def playFile : ResolvedPath := ⟨go "/etc/mc/config.yaml", go "/etc/mc", go "config.yaml"⟩

/-- A write of the file itself. -/
def saved : Action := .write ⟨go "/etc/mc", go "config.yaml"⟩

/-- A configuration that is watched, with this backend. -/
def playWith (backend : GoString) : Config :=
  { routes := [{ playRoute with backend }], configReload := { watch := true } }

/-- Texts that only name a backend. -/
def playDecode (data : GoString) : Except Err Config :=
  if data = [] then .error ⟨go "EOF", [.ioEOF]⟩ else .ok (playWith data)

/-- The backend is moved from one host to another by the first write. -/
def movedBackend (version : ℕ) : Except Err GoString :=
  .ok (if version = 0 then go "10.0.0.1:25565" else go "10.0.0.2:25565")

/-- A reload on a signal has loaded the file when it is written; the watcher
reloads what was written before the first reload applies. -/
def overtaken : List Action :=
  [.digest none, .add, .sighup, .read .signal none emptyEnv, saved, .receive, .fire none,
    .read .watcher none emptyEnv, .apply .watcher emptyEnv (.ok []),
    .apply .signal emptyEnv (.ok [])]

/-- What is left of a run: the active content before its last action and
after it, the newest one read, and whether all reloads are done and went
well. -/
def summary (actions : List Action) : Option (ℕ × ℕ × ℕ × Bool) :=
  (start playFile playDecode movedBackend emptyEnv (.ok [])).bind fun w₀ =>
    (System.run (step playFile playDecode movedBackend) w₀ actions.dropLast).bind fun w =>
      (System.run (step playFile playDecode movedBackend) w₀ actions).map fun w' =>
        (w.active, w'.active, w'.newest,
          w'.tasks .signal = .idle ∧ w'.tasks .watcher = .idle ∧ !w'.failed)

/-- **An old configuration can come back.** Content `1` is active when the
last reload puts content `0` back; no reload fails, all of them are done,
and nobody will look at the file again. -/
theorem reload_rolls_back : summary overtaken = some (1, 0, 1, true) := by
  decide +kernel

/-- The same reloads in turn. -/
def inTurn : List Action :=
  [.digest none, .add, .sighup, .read .signal none emptyEnv, saved, .receive, .fire none,
    .apply .signal emptyEnv (.ok []), .read .watcher none emptyEnv,
    .apply .watcher emptyEnv (.ok [])]

theorem reloads_never_roll_back_moved :
    ∃ w₀ w, start playFile playDecode movedBackend emptyEnv (.ok []) = some w₀ ∧
      System.run (step playFile playDecode movedBackend) w₀ inTurn = some w ∧
      w.active = w.newest ∧ w.server.staticConfig = playWith (go "10.0.0.2:25565") := by
  have heval : (start playFile playDecode movedBackend emptyEnv (.ok [])).any (fun w₀ =>
      System.Meets (step playFile playDecode movedBackend) InTurn w₀ inTurn ∧
      (System.run (step playFile playDecode movedBackend) w₀ inTurn).any fun w =>
        w.active = 1 ∧ w.failed = false ∧ w.tasks .signal = .idle ∧ w.tasks .watcher = .idle) =
      true := by
    decide +kernel
  obtain ⟨w₀, hstart, hw₀⟩ := (Option.any_eq_true _ _).mp heval
  simp only [decide_eq_true_eq] at hw₀
  obtain ⟨hmeets, hrun⟩ := hw₀
  obtain ⟨w, hrun, hw⟩ := (Option.any_eq_true _ _).mp hrun
  obtain ⟨hactive, hf, hsignal, hwatcher⟩ := of_decide_eq_true hw
  obtain ⟨hall, hturn⟩ := reloads_never_roll_back playFile playDecode movedBackend hstart
  have hidle : ∀ who, w.tasks who = .idle := by
    intro who
    cases who with
    | signal => exact hsignal
    | watcher => exact hwatcher
  refine ⟨w₀, w, hstart, hrun, (hturn _ w hmeets hrun).2.2 hf hidle, ?_⟩
  obtain ⟨data, hdata, hdecode⟩ := hall _ w hrun
  rw [hactive] at hdata
  cases hdata
  exact (Except.ok.inj hdecode).symm

end Reload

end McRouter
