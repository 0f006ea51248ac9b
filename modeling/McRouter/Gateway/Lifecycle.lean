import McRouter.Common.Settling
import McRouter.Errors

/-!
# The life of the gateway

`run` and `waitForServers` of `cmd/mc-gateway/main.go`. The main goroutine
starts the runtimes one by one, and each of them runs in a goroutine that
sends what it returned to its channel, once. When one has ended, or a start
has failed, the main goroutine cancels the context and waits for the others
in the reverse order of their starts. What the runtimes do is not here: each
of them ends when it will, and is told to end by the context or by a call of
its own.
-/

namespace McRouter

namespace Lifecycle

/-! ## The program -/

/-- What runs beside the main goroutine, each with a channel for its end. -/
inductive Runtime where
  | discovery
  | metrics
  | udpRelay
  | bedrock
  | voiceChat
  | proxy
deriving DecidableEq

/-- The channel of a runtime: there is none, as its section of the
configuration is off, or it is empty, filled or emptied. -/
inductive Done where
  | absent
  | running
  | sent (err : Option Err)
  | received (err : Option Err)
deriving DecidableEq

/-- What the main goroutine does on its way out. `shutdown` closes the
listener of the Java proxy, if there is one yet, and goes on to wait for its
handlers. -/
inductive Op where
  | cancel
  | close (r : Runtime)
  | receive (r : Runtime)
  | awaitMetrics
  | shutdownMetrics
  | shutdown
  | awaitHandlers
deriving DecidableEq

/-- The starts, in their order. -/
inductive Stage where
  | load
  | discovery
  | metrics
  | udpRelay
  | bedrock
  | voiceChat
  | availability
  | watch
  | proxy
deriving DecidableEq

/-- The runtime that a stage starts, if it has a channel. -/
def Stage.runtime : Stage → Option Runtime
  | load | availability | watch => none
  | discovery => some .discovery
  | metrics => some .metrics
  | udpRelay => some .udpRelay
  | bedrock => some .bedrock
  | voiceChat => some .voiceChat
  | proxy => some .proxy

/-- Why the gateway ends. -/
inductive Cause where
  | failed (stage : Stage) (err : Err)
  | ended (r : Runtime) (err : Option Err)
deriving DecidableEq

/-- The main goroutine. -/
inductive Main where
  | starting (stage : Stage)
  | selecting
  | winding (cause : Cause) (result : Option Err) (ops : List Op)
  | returned (cause : Cause) (result : Option Err)

/-- The stage after this one; the last one goes on to `waitForServers`. -/
def Stage.next : Stage → Main
  | load => .starting .discovery
  | discovery => .starting .metrics
  | metrics => .starting .udpRelay
  | udpRelay => .starting .bedrock
  | bedrock => .starting .voiceChat
  | voiceChat => .starting .availability
  | availability => .starting .watch
  | watch => .starting .proxy
  | proxy => .selecting

section Ways

variable (done : Runtime → Done)

/-- Closing a runtime, if there is one, and waiting for its end. -/
def waitShutdown (r : Runtime) : List Op :=
  if done r = .absent then [] else [.close r, .receive r]

def waitUDPRelayShutdown : List Op := waitShutdown done .udpRelay

def waitBedrockShutdown : List Op := waitShutdown done .bedrock

def waitVoiceChatShutdown : List Op := waitShutdown done .voiceChat

def waitMetricsShutdown : List Op := if done .metrics = .absent then [] else [.awaitMetrics]

/-- The calls that `run` defers: `runtimeDiscovery.Stop` and `cancel`. -/
def deferred : List Op := waitShutdown done .discovery ++ [.cancel]

/-- What follows when a start has failed. `Stop` is not deferred before the
discovery runs. -/
def onFailure : Stage → List Op
  | .load | .discovery => [.cancel]
  | .metrics | .proxy => deferred done
  | .udpRelay => .cancel :: (waitMetricsShutdown done ++ deferred done)
  | .bedrock =>
    .cancel :: (waitUDPRelayShutdown done ++ waitMetricsShutdown done ++ deferred done)
  | .voiceChat =>
    .cancel :: (waitBedrockShutdown done ++ waitUDPRelayShutdown done ++ waitMetricsShutdown done ++
      deferred done)
  | .availability | .watch =>
    .cancel :: (waitVoiceChatShutdown done ++ waitBedrockShutdown done ++
      waitUDPRelayShutdown done ++ waitMetricsShutdown done ++ deferred done)

/-- The branches of the `select` in `waitForServers`, with what `run` defers. -/
def onEnd : Runtime → List Op
  | .proxy =>
    .cancel :: (waitVoiceChatShutdown done ++ waitBedrockShutdown done ++
      waitUDPRelayShutdown done ++ waitMetricsShutdown done ++ deferred done)
  | .metrics =>
    .cancel :: (waitVoiceChatShutdown done ++ waitBedrockShutdown done ++
      waitUDPRelayShutdown done ++ [.shutdown, .receive .proxy] ++ deferred done)
  | .udpRelay =>
    .cancel :: (waitVoiceChatShutdown done ++ waitBedrockShutdown done ++
      [.shutdown] ++ waitMetricsShutdown done ++ deferred done)
  | .bedrock =>
    .cancel :: (waitVoiceChatShutdown done ++ waitUDPRelayShutdown done ++
      [.shutdown] ++ waitMetricsShutdown done ++ deferred done)
  | .voiceChat =>
    .cancel :: (waitBedrockShutdown done ++ waitUDPRelayShutdown done ++
      [.shutdown] ++ waitMetricsShutdown done ++ deferred done)
  | .discovery => deferred done

end Ways

/-- What `run` makes of the error of `waitForServers`. -/
def unlessCanceled : Option Err → Option Err
  | none => none
  | some err => if err.is .contextCanceled then none else some err

def Cause.finish (result : Option Err) : Cause → Option Err
  | failed _ _ => result
  | ended _ _ => unlessCanceled result

/-! ## The world -/

/-- `ctx.Err` of a context that was cancelled. -/
def canceled : Err := ⟨go "context canceled", [.contextCanceled]⟩

/-- `listening` is that the Java proxy has stored its listener, `drained` that
its handlers are over once the listener is closed, and `missed` that
`Shutdown` found no listener to close. No step looks at `missed`. -/
structure World where
  main : Main := .starting .load
  done : Runtime → Done := fun _ => .absent
  closed : Runtime → Bool := fun _ => false
  ctxDone : Bool := false
  listening : Bool := false
  drained : Bool := false
  missed : Bool := false

def boot : World := {}

inductive Action where
  | signal
  | start (failure : Option Err) (enabled : Bool)
  | abandon
  | select (r : Runtime)
  | main
  | mainCtx
  | ends (r : Runtime) (err : Option Err)
  | listen
  | drain

namespace World

def setDone (w : World) (r : Runtime) (d : Done) : World :=
  { w with done := Function.update w.done r d }

def setClosed (w : World) (r : Runtime) : World :=
  { w with closed := Function.update w.closed r true }

section Fields

variable (w : World) (r : Runtime) (d : Done)

@[simp] theorem setDone_ctxDone : (w.setDone r d).ctxDone = w.ctxDone := rfl

@[simp] theorem setClosed_ctxDone : (w.setClosed r).ctxDone = w.ctxDone := rfl

@[simp] theorem setClosed_drained : (w.setClosed r).drained = w.drained := rfl

@[simp] theorem setClosed_missed : (w.setClosed r).missed = w.missed := rfl

end Fields

end World

/-- A start. The goroutine of the Java proxy is always started, and cannot
fail before it runs. -/
def startStep (w : World) (failure : Option Err) (enabled : Bool) (stage : Stage) : Option World :=
  match failure with
  | some err =>
    if stage = .proxy then none
    else some { w with
      main := .winding (.failed stage err) (some err) (onFailure w.done stage) }
  | none =>
    match stage.runtime with
    | none => some { w with main := stage.next }
    | some r =>
      if r = .proxy ∧ enabled = false then none
      else some { w.setDone r (if enabled then .running else .absent) with main := stage.next }

/-- The first operation is done. Only the branch of the metrics server looks
at what it receives, from the Java proxy. -/
def opStep (w : World) (cause : Cause) (result : Option Err) (ops : List Op) : Op → Option World
  | .cancel => some { w with ctxDone := true, main := .winding cause result ops }
  | .close r => some { w.setClosed r with main := .winding cause result ops }
  | .receive r =>
    match w.done r with
    | .sent err => some { w.setDone r (.received err) with
        main := .winding cause (if r = .proxy then result.or err else result) ops }
    | _ => none
  | .awaitMetrics =>
    match w.done .metrics with
    | .sent err => some { w.setDone .metrics (.received err) with
        main := .winding cause result ops }
    | _ => none
  | .shutdownMetrics => some { w.setClosed .metrics with main := .winding cause result ops }
  | .shutdown =>
    if w.listening then some { w.setClosed .proxy with
      main := .winding cause result (.awaitHandlers :: ops) }
    else some { w with missed := true, main := .winding cause result ops }
  | .awaitHandlers => if w.drained then some { w with main := .winding cause result ops } else none

def step (w : World) : Action → Option World
  | .signal => some { w with ctxDone := true }
  | .start failure enabled =>
    match w.main with
    | .starting stage => startStep w failure enabled stage
    | _ => none
  | .abandon =>
    -- the start of the discovery returns with its goroutine running
    match w.main with
    | .starting .discovery =>
      if w.ctxDone then some { (w.setDone .discovery .running).setClosed .discovery with
        main := .winding (.failed .discovery canceled) (some canceled) [.cancel] }
      else none
    | _ => none
  | .select r =>
    match w.main, w.done r with
    | .selecting, .sent err =>
      if r = .discovery then none
      else some { w.setDone r (.received err) with
        main := .winding (.ended r err) err (onEnd w.done r) }
    | _, _ => none
  | .main =>
    match w.main with
    | .winding cause result [] => some { w with main := .returned cause (cause.finish result) }
    | .winding cause result (op :: ops) => opStep w cause result ops op
    | _ => none
  | .mainCtx =>
    match w.main with
    | .winding cause result (.awaitMetrics :: ops) =>
      if w.ctxDone then
        some { w with main := .winding cause result (.shutdownMetrics :: .receive .metrics :: ops) }
      else none
    | _ => none
  | .ends r err => if w.done r = .running then some (w.setDone r (.sent err)) else none
  | .listen =>
    if w.done .proxy = .running ∧ w.listening = false then some { w with listening := true }
    else none
  | .drain => if w.closed .proxy then some { w with drained := true } else none

/-! ## What a step can do -/

inductive Starts (w : World) (stage : Stage) : World → Prop
  | fails (err : Err) (hs : stage ≠ .proxy) :
      Starts w stage { w with
        main := .winding (.failed stage err) (some err) (onFailure w.done stage) }
  | passes (hr : stage.runtime = none) : Starts w stage { w with main := stage.next }
  | off (r : Runtime) (hr : stage.runtime = some r) (hne : r ≠ .proxy) :
      Starts w stage { w.setDone r .absent with main := stage.next }
  | begins (r : Runtime) (hr : stage.runtime = some r) :
      Starts w stage { w.setDone r .running with main := stage.next }

theorem Starts.of_startStep {w w' : World} {failure : Option Err} {enabled : Bool} {stage : Stage}
    (h : startStep w failure enabled stage = some w') : Starts w stage w' := by
  unfold startStep at h
  split at h
  · next err =>
    split_ifs at h with hs
    cases h
    exact .fails err hs
  · split at h
    · next hr =>
      cases h
      exact .passes hr
    · next r hr =>
      split_ifs at h with hno hen
      · cases h
        exact .begins r hr
      · cases h
        exact .off r hr fun hp => hno ⟨hp, by simpa using hen⟩

/-- One operation on the way out. -/
inductive Operates (w : World) (cause : Cause) (result : Option Err) (ops : List Op) :
    Op → World → Prop
  | cancels :
      Operates w cause result ops .cancel
        { w with ctxDone := true, main := .winding cause result ops }
  | closes (r : Runtime) :
      Operates w cause result ops (.close r) { w.setClosed r with
        main := .winding cause result ops }
  | receives (r : Runtime) (err : Option Err) (hr : w.done r = .sent err) :
      Operates w cause result ops (.receive r) { w.setDone r (.received err) with
        main := .winding cause (if r = .proxy then result.or err else result) ops }
  | receivesMetrics (err : Option Err) (hr : w.done .metrics = .sent err) :
      Operates w cause result ops .awaitMetrics { w.setDone .metrics (.received err) with
        main := .winding cause result ops }
  | closesMetrics :
      Operates w cause result ops .shutdownMetrics { w.setClosed .metrics with
        main := .winding cause result ops }
  | closesProxy (hl : w.listening = true) :
      Operates w cause result ops .shutdown { w.setClosed .proxy with
        main := .winding cause result (.awaitHandlers :: ops) }
  | misses (hl : w.listening = false) :
      Operates w cause result ops .shutdown { w with
        missed := true, main := .winding cause result ops }
  | drained (hd : w.drained = true) :
      Operates w cause result ops .awaitHandlers { w with main := .winding cause result ops }

theorem Operates.of_opStep {w w' : World} {cause : Cause} {result : Option Err} {ops : List Op}
    {op : Op} (h : opStep w cause result ops op = some w') : Operates w cause result ops op w' := by
  cases op with
  | cancel =>
    cases h
    exact .cancels
  | close r =>
    cases h
    exact .closes r
  | receive r =>
    simp only [opStep] at h
    split at h
    · next err hr =>
      cases h
      exact .receives r err hr
    · cases h
  | awaitMetrics =>
    simp only [opStep] at h
    split at h
    · next err hr =>
      cases h
      exact .receivesMetrics err hr
    · cases h
  | shutdownMetrics =>
    cases h
    exact .closesMetrics
  | shutdown =>
    simp only [opStep] at h
    split_ifs at h with hl
    · cases h
      exact .closesProxy hl
    · cases h
      exact .misses (by simpa using hl)
  | awaitHandlers =>
    simp only [opStep] at h
    split_ifs at h with hd
    cases h
    exact .drained hd

inductive Step (w : World) : Action → World → Prop
  | signal : Step w .signal { w with ctxDone := true }
  | starts (failure : Option Err) (enabled : Bool) (stage : Stage) (w' : World)
      (hm : w.main = .starting stage) (h : Starts w stage w') : Step w (.start failure enabled) w'
  | abandons (hm : w.main = .starting .discovery) (hctx : w.ctxDone = true) :
      Step w .abandon { (w.setDone .discovery .running).setClosed .discovery with
        main := .winding (.failed .discovery canceled) (some canceled) [.cancel] }
  | selects (r : Runtime) (err : Option Err) (hm : w.main = .selecting) (hr : w.done r = .sent err)
      (hne : r ≠ .discovery) :
      Step w (.select r) { w.setDone r (.received err) with
        main := .winding (.ended r err) err (onEnd w.done r) }
  | returns (cause : Cause) (result : Option Err) (hm : w.main = .winding cause result []) :
      Step w .main { w with main := .returned cause (cause.finish result) }
  | operates (cause : Cause) (result : Option Err) (op : Op) (ops : List Op) (w' : World)
      (hm : w.main = .winding cause result (op :: ops)) (h : Operates w cause result ops op w') :
      Step w .main w'
  | gives (cause : Cause) (result : Option Err) (ops : List Op)
      (hm : w.main = .winding cause result (.awaitMetrics :: ops)) (hctx : w.ctxDone = true) :
      Step w .mainCtx { w with
        main := .winding cause result (.shutdownMetrics :: .receive .metrics :: ops) }
  | ends (r : Runtime) (err : Option Err) (hr : w.done r = .running) :
      Step w (.ends r err) (w.setDone r (.sent err))
  | listens (hr : w.done .proxy = .running) : Step w .listen { w with listening := true }
  | drains (hc : w.closed .proxy = true) : Step w .drain { w with drained := true }

theorem Step.of_step {w w' : World} {a : Action} (h : step w a = some w') : Step w a w' := by
  cases a with
  | signal =>
    cases h
    exact .signal
  | start failure enabled =>
    simp only [step] at h
    split at h
    · next stage hm => exact .starts failure enabled stage w' hm (.of_startStep h)
    · cases h
  | abandon =>
    simp only [step] at h
    split at h
    · next hm =>
      split_ifs at h with hctx
      cases h
      exact .abandons hm hctx
    · cases h
  | select r =>
    simp only [step] at h
    split at h
    · next err hm hr =>
      split_ifs at h with hne
      cases h
      exact .selects r err hm hr hne
    · cases h
  | main =>
    simp only [step] at h
    split at h
    · next cause result hm =>
      cases h
      exact .returns cause result hm
    · next cause result op ops hm => exact .operates cause result op ops w' hm (.of_opStep h)
    · cases h
  | mainCtx =>
    simp only [step] at h
    split at h
    · next cause result ops hm =>
      split_ifs at h with hctx
      cases h
      exact .gives cause result ops hm hctx
    · cases h
  | ends r err =>
    simp only [step] at h
    split_ifs at h with hr
    cases h
    exact .ends r err hr
  | listen =>
    simp only [step] at h
    split_ifs at h with hr
    cases h
    exact .listens hr.1
  | drain =>
    simp only [step] at h
    split_ifs at h with hc
    cases h
    exact .drains hc

end Lifecycle

end McRouter
