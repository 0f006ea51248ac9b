import McRouter.Gateway.Lifecycle

/-!
# The end of the gateway

A channel holds one value, so a second receive would block for ever. **Every
path out of `run` receives from each channel exactly once**, with two
exceptions. After the end of one of the UDP runtimes the channel of the Java
proxy is left alone, and `run` may return while `ListenAndServe` is still on
its way, or has yet to begin. A start of the discovery that is cancelled
leaves its goroutine to itself (`run_leaves_nothing`). Whatever happens, `run`
comes back (`run_comes_back`).

The argument is in `Winding`: what the operations that are left will receive
is what is owed, and none of them waits for a runtime that was not told to
end.
-/

namespace McRouter

namespace Lifecycle

/-! ## The ways out -/

/-- How often an operation receives from a channel. -/
@[simp] def Op.receives (r : Runtime) : Op → ℕ
  | .receive q => if q = r then 1 else 0
  | .awaitMetrics => if .metrics = r then 1 else 0
  | _ => 0

def receives (r : Runtime) (ops : List Op) : ℕ := (ops.map (Op.receives r)).sum

@[simp] theorem receives_nil (r : Runtime) : receives r [] = 0 := rfl

@[simp] theorem receives_cons (r : Runtime) (op : Op) (ops : List Op) :
    receives r (op :: ops) = op.receives r + receives r ops := List.sum_cons

@[simp] theorem receives_append (r : Runtime) (ops ops' : List Op) :
    receives r (ops ++ ops') = receives r ops + receives r ops' := by
  simp [receives]

/-- What is still to be received from a channel. -/
@[simp] def Done.owed : Done → ℕ
  | running | sent _ => 1
  | absent | received _ => 0

/-- As long as nothing was received, what there is is owed. -/
def Done.Unreceived (d : Done) : Prop := ∀ err, d ≠ .received err

section Receives

variable {done : Runtime → Done} {q r : Runtime}

theorem receives_waitShutdown (hq : (done q).Unreceived) :
    receives r (waitShutdown done q) = if q = r then (done q).owed else 0 := by
  unfold waitShutdown
  cases hd : done q with
  | received err => exact absurd hd (hq err)
  | absent | running | sent => by_cases hqr : q = r <;> simp [hqr]

theorem receives_waitMetricsShutdown (hq : (done .metrics).Unreceived) :
    receives r (waitMetricsShutdown done) = if .metrics = r then (done .metrics).owed else 0 := by
  unfold waitMetricsShutdown
  cases hd : done .metrics with
  | received err => exact absurd hd (hq err)
  | absent | running | sent => by_cases hqr : .metrics = r <;> simp [hqr]

theorem receives_deferred (hq : (done .discovery).Unreceived) :
    receives r (deferred done) = if .discovery = r then (done .discovery).owed else 0 := by
  simp [deferred, receives_waitShutdown hq]

end Receives

/-- No operation waits for what nobody has told to end. -/
def ready (ctxDone : Bool) (closed : Runtime → Bool) : List Op → Bool
  | [] => true
  | .cancel :: ops => ready true closed ops
  | .close r :: ops => ready ctxDone (Function.update closed r true) ops
  | .receive r :: ops => (ctxDone || closed r) && ready ctxDone closed ops
  | .awaitMetrics :: ops => ctxDone && ready ctxDone closed ops
  | .shutdownMetrics :: ops => ready ctxDone (Function.update closed .metrics true) ops
  | .shutdown :: ops => ctxDone && ready ctxDone closed ops
  | .awaitHandlers :: ops => ready ctxDone closed ops

/-- Everybody ends with the context. -/
theorem ready_true (closed : Runtime → Bool) (ops : List Op) : ready true closed ops = true := by
  induction ops generalizing closed with
  | nil => rfl
  | cons op ops ih => cases op <;> simp [ready, ih]

theorem ready_deferred (done : Runtime → Done) (ctxDone : Bool) (closed : Runtime → Bool) :
    ready ctxDone closed (deferred done) = true := by
  unfold deferred waitShutdown
  split_ifs <;> simp [ready]

/-! ## The invariant -/

/-- The stages after the one that starts a runtime. -/
def Stage.reached : Stage → Runtime → Bool
  | load, _ | discovery, _ => false
  | metrics, r => r = .discovery
  | udpRelay, r => r = .discovery ∨ r = .metrics
  | bedrock, r => r = .discovery ∨ r = .metrics ∨ r = .udpRelay
  | voiceChat, r => r ≠ .voiceChat ∧ r ≠ .proxy
  | availability, r | watch, r | proxy, r => r ≠ .proxy

/-- On the way out. -/
structure Winding (w : World) (cause : Cause) (result : Option Err) (ops : List Op) : Prop where
  owed : ∀ r, receives r ops ≤ (w.done r).owed
  all : ∀ r, r ≠ .proxy → r ≠ .discovery → receives r ops = (w.done r).owed
  discovery : receives .discovery ops ≠ (w.done .discovery).owed →
    cause = .failed .discovery canceled ∧ w.closed .discovery = true
  left : receives .proxy ops ≠ (w.done .proxy).owed →
    (∃ r err, cause = .ended r err ∧ (r = .udpRelay ∨ r = .bedrock ∨ r = .voiceChat)) ∧
      ((w.drained = true ∨ w.missed = true) ∨ .awaitHandlers ∈ ops ∨ .shutdown ∈ ops)
  handlers : .awaitHandlers ∈ ops → w.closed .proxy = true
  cancels : w.ctxDone = true ∨ .cancel ∈ ops
  ready : ready w.ctxDone w.closed ops = true
  failed : ∀ stage err, cause = .failed stage err → result = some err ∧ receives .proxy ops = 0
  ended : ∀ r err, cause = .ended r err → r ≠ .metrics → result = err ∧ receives .proxy ops = 0
  metrics : ∀ err, cause = .ended .metrics err →
    (receives .proxy ops = 1 ∧ result = err) ∨
      ∃ proxyErr, w.done .proxy = .received proxyErr ∧ result = err.or proxyErr

/-- What holds of every reachable world. -/
structure Inv (w : World) : Prop where
  starting : ∀ stage, w.main = .starting stage → ∀ r, (w.done r).Unreceived ∧
    (stage.reached r = false → w.done r = .absent)
  selecting : w.main = .selecting → (∀ r, (w.done r).Unreceived) ∧ w.done .proxy ≠ .absent
  winding : ∀ cause result ops, w.main = .winding cause result ops → Winding w cause result ops
  returned : ∀ cause result, w.main = .returned cause result →
    ∃ result', Winding w cause result' [] ∧ result = cause.finish result'
  drained : w.drained = true → w.closed .proxy = true

theorem boot_inv : Inv boot := by
  constructor <;> simp [boot, Done.Unreceived]

section Creation

variable {done : Runtime → Done}

theorem awaitHandlers_not_mem (q : Runtime) : .awaitHandlers ∉ waitShutdown done q := by
  unfold waitShutdown
  split_ifs <;> simp

theorem awaitHandlers_not_mem_metrics : .awaitHandlers ∉ waitMetricsShutdown done := by
  unfold waitMetricsShutdown
  split_ifs <;> simp

theorem awaitHandlers_not_mem_onFailure (stage : Stage) :
    .awaitHandlers ∉ onFailure done stage := by
  cases stage <;>
    simp [onFailure, deferred, waitVoiceChatShutdown, waitBedrockShutdown, waitUDPRelayShutdown,
      awaitHandlers_not_mem, awaitHandlers_not_mem_metrics]

theorem awaitHandlers_not_mem_onEnd (r : Runtime) : .awaitHandlers ∉ onEnd done r := by
  cases r <;>
    simp [onEnd, deferred, waitVoiceChatShutdown, waitBedrockShutdown, waitUDPRelayShutdown,
      awaitHandlers_not_mem, awaitHandlers_not_mem_metrics]

/-- The way out of a failed start waits for all that was started. -/
theorem receives_onFailure {stage : Stage} (hun : ∀ r, (done r).Unreceived)
    (habs : ∀ r, stage.reached r = false → done r = .absent) (hs : stage ≠ .proxy) (r : Runtime) :
    receives r (onFailure done stage) = (done r).owed := by
  have hr := habs r
  have hmetrics := receives_waitMetricsShutdown (r := r) (hun .metrics)
  have hdeferred := receives_deferred (r := r) (hun .discovery)
  have hwait := fun q => receives_waitShutdown (r := r) (hun q)
  cases stage <;> cases r <;>
    simp_all [onFailure, waitVoiceChatShutdown, waitBedrockShutdown, waitUDPRelayShutdown,
      Stage.reached]

/-- A branch of the `select` waits for all the others but the Java proxy. -/
theorem receives_onEnd {r q : Runtime} (hun : ∀ r, (done r).Unreceived) (hr : r ≠ .discovery)
    (hq : q ≠ .proxy) : receives q (onEnd done r) = if q = r then 0 else (done q).owed := by
  have hmetrics := receives_waitMetricsShutdown (r := q) (hun .metrics)
  have hdeferred := receives_deferred (r := q) (hun .discovery)
  have hwait := fun p => receives_waitShutdown (r := q) (hun p)
  cases r <;> cases q <;>
    simp_all [onEnd, waitVoiceChatShutdown, waitBedrockShutdown, waitUDPRelayShutdown]

/-- The branch of the metrics server waits for the Java proxy too. -/
theorem receives_onEnd_proxy {r : Runtime} (hun : ∀ r, (done r).Unreceived) :
    receives .proxy (onEnd done r) = if r = .metrics then 1 else 0 := by
  have hmetrics := receives_waitMetricsShutdown (r := .proxy) (hun .metrics)
  have hdeferred := receives_deferred (r := .proxy) (hun .discovery)
  have hwait := fun p => receives_waitShutdown (r := .proxy) (hun p)
  cases r <;>
    simp_all [onEnd, waitVoiceChatShutdown, waitBedrockShutdown, waitUDPRelayShutdown]

theorem shutdown_mem_onEnd {r : Runtime} (h : r = .udpRelay ∨ r = .bedrock ∨ r = .voiceChat) :
    .shutdown ∈ onEnd done r := by
  rcases h with rfl | rfl | rfl <;> simp [onEnd]

end Creation

/-- A start that fails. -/
theorem winding_of_failure {w : World} {stage : Stage} {err : Err} {m : Main}
    (hs : stage ≠ .proxy) (h : ∀ r, (w.done r).Unreceived ∧
      (stage.reached r = false → w.done r = .absent)) :
    Winding { w with main := m } (.failed stage err) (some err) (onFailure w.done stage) := by
  have hrec := receives_onFailure (fun r => (h r).1) (fun r => (h r).2) hs
  have hproxy : w.done .proxy = .absent := by
    refine (h .proxy).2 ?_
    cases stage <;> simp [Stage.reached] at hs ⊢
  have hnone : receives .proxy (onFailure w.done stage) = 0 := by
    rw [hrec, hproxy]
    rfl
  refine ⟨fun r => (hrec r).le, fun r _ _ => hrec r, fun hne => absurd (hrec .discovery) hne,
    fun hne => absurd (hrec .proxy) hne,
    fun hmem => absurd hmem (awaitHandlers_not_mem_onFailure stage), ?_, ?_, fun stage' e he => ?_,
    by simp, by simp⟩
  · right
    cases stage <;> simp [onFailure, deferred]
  · cases stage <;> simp [onFailure, Lifecycle.ready, ready_true, ready_deferred]
  · obtain ⟨rfl, rfl⟩ := Cause.failed.inj he
    exact ⟨rfl, hnone⟩

/-- A start of the discovery that is cancelled. -/
theorem winding_of_abandon {w : World} {m : Main} (hctx : w.ctxDone = true)
    (h : ∀ r, (w.done r).Unreceived ∧ (Stage.discovery.reached r = false → w.done r = .absent)) :
    Winding { (w.setDone .discovery .running).setClosed .discovery with main := m }
      (.failed .discovery canceled) (some canceled) [.cancel] := by
  have hrec : ∀ r, receives r [Op.cancel] = 0 := fun r => by simp
  have hnone : ∀ r, r ≠ .discovery →
      (Function.update w.done .discovery Done.running r).owed = 0 := by
    intro r hr
    rw [Function.update_of_ne hr, (h r).2 rfl]
    rfl
  refine ⟨fun r => by simp, fun r _ hr => ?_, fun _ => ⟨rfl, ?_⟩, fun hne => ?_, by simp,
    .inl hctx, rfl, fun stage err he => ?_, by simp, by simp⟩
  · rw [hrec]
    exact (hnone r hr).symm
  · exact Function.update_self Runtime.discovery true w.closed
  · exact absurd (hnone .proxy (by decide)).symm (by rwa [hrec] at hne)
  · obtain ⟨rfl, rfl⟩ := Cause.failed.inj he
    exact ⟨rfl, hrec .proxy⟩

/-- A runtime that has ended. -/
theorem winding_of_end {w : World} {r : Runtime} {err : Option Err} {m : Main}
    (hun : ∀ r, (w.done r).Unreceived) (hproxy : w.done .proxy ≠ .absent)
    (hr : w.done r = .sent err) (hne : r ≠ .discovery) :
    Winding { w.setDone r (.received err) with main := m } (.ended r err) err (onEnd w.done r) := by
  have hrec := fun (q : Runtime) (hq : q ≠ .proxy) => receives_onEnd (r := r) hun hne hq
  have hpr := receives_onEnd_proxy (r := r) hun
  have hall : ∀ q, q ≠ .proxy →
      receives q (onEnd w.done r) = (Function.update w.done r (.received err) q).owed := by
    intro q hq
    rw [hrec q hq]
    by_cases hqr : q = r
    · simp [hqr]
    · simp [hqr]
  have howed : (w.done .proxy).owed = 1 := by
    have hnot := hun .proxy
    cases hd : w.done .proxy with
    | absent => exact absurd hd hproxy
    | received e => exact absurd hd (hnot e)
    | running | sent => rfl
  refine ⟨fun q => ?_, fun q hq _ => hall q hq, fun hne => absurd (hall .discovery (by simp)) hne,
    fun hleft => ?_, fun hmem => absurd hmem (awaitHandlers_not_mem_onEnd r), ?_, ?_, by simp,
    fun q e hq hqm => ?_, fun e he => ?_⟩
  · by_cases hq : q = .proxy
    · subst hq
      rw [hpr]
      by_cases hp : r = .proxy
      · simp [hp]
      · have hsame : Function.update w.done r (.received err) .proxy = w.done .proxy :=
          Function.update_of_ne (Ne.symm hp) ..
        simp only [World.setDone, hsame, howed]
        split_ifs <;> omega
    · exact (hall q hq).le
  · have hudp : r = .udpRelay ∨ r = .bedrock ∨ r = .voiceChat := by
      cases r with
      | discovery => exact absurd rfl hne
      | proxy => exact absurd (by simp [hpr, World.setDone]) hleft
      | metrics =>
        rw [hpr, if_pos rfl] at hleft
        exact absurd howed.symm hleft
      | udpRelay | bedrock | voiceChat => simp
    exact ⟨⟨r, err, rfl, hudp⟩, .inr (.inr (shutdown_mem_onEnd hudp))⟩
  · right
    cases r <;> simp [onEnd] at hne ⊢
  · cases r <;> simp [onEnd, Lifecycle.ready, ready_true] at hne ⊢
  · obtain ⟨rfl, rfl⟩ : r = q ∧ err = e := by simpa using hq
    rw [hpr, if_neg hqm]
    exact ⟨rfl, rfl⟩
  · obtain ⟨rfl, rfl⟩ : r = .metrics ∧ err = e := by simpa using he
    exact .inl ⟨by rw [hpr, if_pos rfl], rfl⟩

namespace Winding

variable {w w' : World} {cause : Cause} {result : Option Err} {ops ops' : List Op}

/-- A step that receives nothing. -/
theorem mono (h : Winding w cause result ops)
    (howed : ∀ r, (w'.done r).owed = (w.done r).owed)
    (hreceived : ∀ err, w.done .proxy = .received err → w'.done .proxy = .received err)
    (hrec : ∀ r, receives r ops' = receives r ops)
    (hstays : w.closed .discovery = true → w'.closed .discovery = true)
    (hleft : (w.drained = true ∨ w.missed = true) ∨ .awaitHandlers ∈ ops ∨ .shutdown ∈ ops →
      (w'.drained = true ∨ w'.missed = true) ∨ .awaitHandlers ∈ ops' ∨ .shutdown ∈ ops')
    (hhandlers : .awaitHandlers ∈ ops' → w'.closed .proxy = true)
    (hcancels : w'.ctxDone = true ∨ .cancel ∈ ops')
    (hready : Lifecycle.ready w'.ctxDone w'.closed ops' = true) : Winding w' cause result ops' where
  owed r := by
    rw [hrec, howed]
    exact h.owed r
  all r hr hr' := by rw [hrec, howed, h.all r hr hr']
  discovery hne := by
    obtain ⟨hcause, hclosed⟩ := h.discovery (by rwa [hrec, howed] at hne)
    exact ⟨hcause, hstays hclosed⟩
  left hne := by
    obtain ⟨hcause, hway⟩ := h.left (by rwa [hrec, howed] at hne)
    exact ⟨hcause, hleft hway⟩
  handlers := hhandlers
  cancels := hcancels
  ready := hready
  failed stage err he := by
    rw [hrec]
    exact h.failed stage err he
  ended r err he hr := by
    rw [hrec]
    exact h.ended r err he hr
  metrics err he := by
    rw [hrec]
    refine (h.metrics err he).imp_right ?_
    rintro ⟨proxyErr, hp, hres⟩
    exact ⟨proxyErr, hreceived proxyErr hp, hres⟩

/-- A receive that `run` makes nothing of. -/
theorem receive {r : Runtime} {err : Option Err} {m : Main} {op : Op}
    (h : Winding w cause result (op :: ops)) (hop : ∀ q, op.receives q = if r = q then 1 else 0)
    (hhand : op ≠ .awaitHandlers ∧ op ≠ .shutdown ∧ op ≠ .cancel)
    (hready : Lifecycle.ready w.ctxDone w.closed ops = true) (hr : w.done r = .sent err)
    (hne : r ≠ .proxy) :
    Winding { w.setDone r (.received err) with main := m } cause result ops := by
  have hrec : ∀ q, receives q (op :: ops) = (if r = q then 1 else 0) + receives q ops := by
    intro q
    rw [receives_cons, hop]
  have hsame : ∀ q, q ≠ r → Function.update w.done r (.received err) q = w.done q := fun q hq =>
    Function.update_of_ne hq ..
  have hproxy : receives .proxy ops = receives .proxy (op :: ops) := by
    rw [hrec, if_neg hne, Nat.zero_add]
  -- what is left to receive is one less on both sides
  have hless : ∀ q, (w.done q).owed = (if r = q then 1 else 0) +
      (Function.update w.done r (.received err) q).owed := by
    intro q
    by_cases hqr : r = q
    · subst hqr
      rw [hr, Function.update_self]
      simp
    · rw [hsame q (Ne.symm hqr), if_neg hqr, Nat.zero_add]
  refine ⟨fun q => ?_, fun q hq hq' => ?_, fun hq => h.discovery fun heq => hq ?_, ?_, ?_, ?_, hready,
    ?_, ?_, ?_⟩
  · have howed := h.owed q
    rw [hrec, hless] at howed
    exact Nat.le_of_add_le_add_left howed
  · have hall := h.all q hq hq'
    rw [hrec, hless] at hall
    exact Nat.add_left_cancel hall
  · rw [hrec, hless] at heq
    exact Nat.add_left_cancel heq
  · simp only [World.setDone, hsame .proxy (Ne.symm hne), hproxy]
    intro hleft
    obtain ⟨hcause, hway⟩ := h.left hleft
    refine ⟨hcause, ?_⟩
    simpa [hhand.1.symm, hhand.2.1.symm] using hway
  · intro hmem
    exact h.handlers (List.mem_cons_of_mem _ hmem)
  · simpa [hhand.2.2.symm] using h.cancels
  · rw [hproxy]
    exact h.failed
  · rw [hproxy]
    exact h.ended
  · simp only [World.setDone, hsame .proxy (Ne.symm hne), hproxy]
    exact h.metrics

/-- The receive from the Java proxy, in the branch of the metrics server. -/
theorem receiveProxy {err : Option Err} {m : Main}
    (h : Winding w cause result (.receive .proxy :: ops)) (hr : w.done .proxy = .sent err) :
    Winding { w.setDone .proxy (.received err) with main := m } cause (result.or err) ops := by
  have hproxy := h.owed .proxy
  rw [receives_cons, hr] at hproxy
  have hzero : receives .proxy ops = 0 := by
    simp only [Op.receives, if_true, Done.owed] at hproxy
    omega
  have hready := h.ready
  simp only [Lifecycle.ready, Bool.and_eq_true] at hready
  have hself : Function.update w.done .proxy (.received err) .proxy = .received err :=
    Function.update_self ..
  have hsame : ∀ q, q ≠ .proxy → receives q (.receive .proxy :: ops) = receives q ops ∧
      Function.update w.done .proxy (.received err) q = w.done q := fun q hq =>
    ⟨by simp [Ne.symm hq], Function.update_of_ne hq ..⟩
  refine ⟨fun q => ?_, fun q hq hq' => ?_, ?_, ?_, ?_, ?_, hready.2, fun stage e he => ?_,
    fun q e he hq => ?_, fun e he => ?_⟩
  · by_cases hq : q = .proxy
    · subst hq
      rw [hzero]
      exact Nat.zero_le _
    · have howed := h.owed q
      rw [(hsame q hq).1] at howed
      simpa only [World.setDone, (hsame q hq).2] using howed
  · have hall := h.all q hq hq'
    rw [(hsame q hq).1] at hall
    simpa only [World.setDone, (hsame q hq).2] using hall
  · have hdiscovery := h.discovery
    rw [(hsame .discovery (by decide)).1] at hdiscovery
    simpa only [World.setDone, (hsame .discovery (by decide)).2] using hdiscovery
  · simp only [World.setDone, hself, hzero, Done.owed]
    exact fun hne => absurd rfl hne
  · intro hmem
    exact h.handlers (List.mem_cons_of_mem _ hmem)
  · simpa using h.cancels
  · have hno := (h.failed stage e he).2
    simp at hno
  · have hno := (h.ended q e he hq).2
    simp at hno
  · right
    refine ⟨err, hself, ?_⟩
    rcases h.metrics e he with ⟨-, hres⟩ | ⟨proxyErr, hp, -⟩
    · rw [hres]
    · rw [hr] at hp
      cases hp

/-- **One operation on the way out.** -/
theorem operate {op : Op} (h : Winding w cause result (op :: ops))
    (hop : Operates w cause result ops op w') :
    ∃ result' ops', w'.main = .winding cause result' ops' ∧ Winding w' cause result' ops' := by
  have hready := h.ready
  have hcancels := h.cancels
  have hhandlers := fun hmem => h.handlers (List.mem_cons_of_mem op hmem)
  cases hop with
  | cancels =>
    refine ⟨result, ops, rfl, h.mono (fun _ => rfl) (fun _ hp => hp) (by simp) id (by simp)
      hhandlers (.inl rfl) (ready_true ..)⟩
  | closes r =>
    have hstays : ∀ q, w.closed q = true → Function.update w.closed r true q = true := by
      intro q hq
      by_cases hqr : q = r <;> simp [hqr, hq]
    exact ⟨result, ops, rfl, h.mono (fun _ => rfl) (fun _ hp => hp) (by simp) (hstays .discovery)
      (by simp) (fun hmem => hstays .proxy (hhandlers hmem)) (by simpa using hcancels) hready⟩
  | receives r err hr =>
    simp only [Lifecycle.ready, Bool.and_eq_true] at hready
    by_cases hp : r = .proxy
    · subst hp
      exact ⟨result.or err, ops, by simp, h.receiveProxy hr⟩
    · exact ⟨result, ops, by simp [hp], h.receive (by simp) (by simp) hready.2 hr hp⟩
  | receivesMetrics err hr =>
    simp only [Lifecycle.ready, Bool.and_eq_true] at hready
    exact ⟨result, ops, rfl, h.receive (by simp) (by simp) hready.2 hr (by simp)⟩
  | closesMetrics =>
    refine ⟨result, ops, rfl, h.mono (fun _ => rfl) (fun _ hp => hp) (by simp)
      (by simp [World.setClosed]) (by simp) (fun hmem => ?_) (by simpa using hcancels) hready⟩
    simpa [World.setClosed] using hhandlers hmem
  | closesProxy hl =>
    simp only [Lifecycle.ready, Bool.and_eq_true] at hready
    exact ⟨result, _, rfl, h.mono (fun _ => rfl) (fun _ hp => hp) (by simp)
      (by simp [World.setClosed]) (by simp) (fun _ => by simp [World.setClosed]) (.inl hready.1)
      (by simp only [World.setClosed_ctxDone, hready.1, ready_true])⟩
  | misses hl =>
    simp only [Lifecycle.ready, Bool.and_eq_true] at hready
    exact ⟨result, ops, rfl, h.mono (fun _ => rfl) (fun _ hp => hp) (by simp) id
      (fun _ => .inl (.inr rfl)) hhandlers (.inl hready.1) hready.2⟩
  | drained hd =>
    exact ⟨result, ops, rfl, h.mono (fun _ => rfl) (fun _ hp => hp) (by simp) id
      (fun _ => .inl (.inl hd)) hhandlers (by simpa using hcancels) hready⟩

end Winding

/-- What the next stage has not reached, this one neither has nor starts. -/
theorem Stage.not_reached {stage next : Stage} (h : stage.next = .starting next) (r : Runtime)
    (hr : next.reached r = false) : stage.reached r = false ∧ stage.runtime ≠ some r := by
  cases stage <;> cases h <;> cases r <;> simp_all [Stage.reached, Stage.runtime]

namespace Inv

variable {w w' : World}

theorem of_winding {cause : Cause} {result : Option Err} {ops : List Op}
    (hm : w.main = .winding cause result ops) (hw : Winding w cause result ops)
    (hd : w.drained = true → w.closed .proxy = true) : Inv w where
  starting _ h := by simp [hm] at h
  selecting h := by simp [hm] at h
  winding c r o h := by
    obtain ⟨rfl, rfl, rfl⟩ : cause = c ∧ result = r ∧ ops = o := by simpa [hm] using h
    exact hw
  returned _ _ h := by simp [hm] at h
  drained := hd

/-- A stage has passed. -/
theorem next {stage : Stage} (h : Inv w) (hm : w.main = .starting stage)
    (hdone : ∀ r, stage.runtime ≠ some r → w'.done r = w.done r)
    (hnew : ∀ r, stage.runtime = some r → (w'.done r).Unreceived)
    (hproxy : stage = .proxy → w'.done .proxy ≠ .absent) (hnext : w'.main = stage.next)
    (hdrained : w'.drained = true → w'.closed .proxy = true) : Inv w' := by
  have hun : ∀ r, (w'.done r).Unreceived := by
    intro r
    by_cases hr : stage.runtime = some r
    · exact hnew r hr
    · rw [hdone r hr]
      exact (h.starting stage hm r).1
  refine ⟨fun s hs r => ⟨hun r, fun hr => ?_⟩, fun hs => ⟨hun, hproxy ?_⟩, fun c r o hs => ?_,
    fun c r hs => ?_, hdrained⟩
  · obtain ⟨hbefore, hne⟩ := Stage.not_reached (hnext.symm.trans hs) r hr
    rw [hdone r hne]
    exact (h.starting stage hm r).2 hbefore
  · rw [hnext] at hs
    cases stage <;> simp [Stage.next] at hs ⊢
  · rw [hnext] at hs
    cases stage <;> simp [Stage.next] at hs
  · rw [hnext] at hs
    cases stage <;> simp [Stage.next] at hs

/-- A stage that says what its runtime does. -/
theorem sets {stage : Stage} {r : Runtime} {d : Done} (h : Inv w) (hm : w.main = .starting stage)
    (hr : stage.runtime = some r) (hd : d.Unreceived) (hproxy : r = .proxy → d ≠ .absent) :
    Inv { w.setDone r d with main := stage.next } := by
  refine h.next hm (fun q hq => ?_) (fun q hq => ?_) (fun hp => ?_) rfl h.drained
  · have hqr : q ≠ r := by
      rintro rfl
      exact hq hr
    exact Function.update_of_ne hqr ..
  · obtain rfl : r = q := by simpa [hr] using hq
    simpa [World.setDone] using hd
  · subst hp
    obtain rfl : Runtime.proxy = r := Option.some.inj hr
    simpa [World.setDone] using hproxy rfl

theorem starts {stage : Stage} (h : Inv w) (hm : w.main = .starting stage)
    (hs : Starts w stage w') : Inv w' := by
  cases hs with
  | fails err hne =>
    exact of_winding rfl (winding_of_failure hne (h.starting stage hm)) h.drained
  | passes hr =>
    exact h.next hm (fun _ _ => rfl) (by simp [hr]) (by rintro rfl; cases hr) rfl h.drained
  | off r hr hne => exact h.sets hm hr (by simp [Done.Unreceived]) fun hp => absurd hp hne
  | begins r hr => exact h.sets hm hr (by simp [Done.Unreceived]) (by simp)

/-- The goroutines and the signal touch nothing that was received. -/
theorem outside (h : Inv w) (hmain : w'.main = w.main)
    (hunreceived : ∀ r, (w.done r).Unreceived → (w'.done r).Unreceived)
    (habsent : ∀ r, w.done r = .absent ↔ w'.done r = .absent)
    (howed : ∀ r, (w'.done r).owed = (w.done r).owed)
    (hreceived : ∀ err, w.done .proxy = .received err → w'.done .proxy = .received err)
    (hover : w.drained = true ∨ w.missed = true → w'.drained = true ∨ w'.missed = true)
    (hclosed : w'.closed = w.closed)
    (hctx : w.ctxDone = true → w'.ctxDone = true)
    (hpair : w'.drained = true → w'.closed .proxy = true) : Inv w' := by
  have hwinding : ∀ {cause result ops}, Winding w cause result ops →
      Winding w' cause result ops := by
    intro cause result ops hw
    refine hw.mono howed hreceived (fun _ => rfl) (fun hd => hclosed ▸ hd) (Or.imp_left hover)
      (fun hmem => hclosed ▸ hw.handlers hmem) (hw.cancels.imp_left hctx) ?_
    cases hctx' : w'.ctxDone with
    | true => exact ready_true ..
    | false =>
      have hoff : w.ctxDone = false := by
        by_contra hne
        have hon := hctx (by simpa using hne)
        simp [hctx'] at hon
      rw [hclosed, ← hoff]
      exact hw.ready
  refine ⟨fun stage hm r => ?_, fun hm => ?_, fun cause result ops hm => ?_,
    fun cause result hm => ?_, hpair⟩
  · obtain ⟨hun, habs⟩ := h.starting stage (hmain ▸ hm) r
    exact ⟨hunreceived r hun, fun hr => (habsent r).mp (habs hr)⟩
  · obtain ⟨hun, hproxy⟩ := h.selecting (hmain ▸ hm)
    exact ⟨fun r => hunreceived r (hun r), fun hp => hproxy ((habsent .proxy).mpr hp)⟩
  · exact hwinding (h.winding cause result ops (hmain ▸ hm))
  · obtain ⟨result', hw, hres⟩ := h.returned cause result (hmain ▸ hm)
    exact ⟨result', hwinding hw, hres⟩

end Inv

/-- **Every step keeps the invariant.** -/
theorem step_inv {w w' : World} {a : Action} (h : Inv w) (hs : Step w a w') : Inv w' := by
  cases hs with
  | signal =>
    exact h.outside rfl (fun _ hu => hu) (fun _ => Iff.rfl) (fun _ => rfl) (fun _ hp => hp) id rfl
      (fun _ => rfl) h.drained
  | starts failure enabled stage w' hm hs => exact h.starts hm hs
  | abandons hm hctx =>
    refine .of_winding rfl (winding_of_abandon hctx (h.starting .discovery hm)) fun hd => ?_
    simpa [World.setClosed, World.setDone] using h.drained hd
  | selects r err hm hr hne =>
    obtain ⟨hun, hproxy⟩ := h.selecting hm
    exact .of_winding rfl (winding_of_end hun hproxy hr hne) h.drained
  | returns cause result hm =>
    have hw := h.winding cause result [] hm
    refine ⟨by simp, by simp, by simp, fun c r hm' => ?_, h.drained⟩
    obtain ⟨rfl, rfl⟩ : cause = c ∧ cause.finish result = r := by simpa using hm'
    exact ⟨result, ⟨hw.owed, hw.all, hw.discovery, hw.left, hw.handlers, hw.cancels, hw.ready, hw.failed,
      hw.ended, hw.metrics⟩, rfl⟩
  | operates cause result op ops w' hm hop =>
    obtain ⟨result', ops', hm', hw⟩ := (h.winding _ _ _ hm).operate hop
    refine .of_winding hm' hw ?_
    have hd := h.drained
    cases hop with
    | closes r | closesMetrics | closesProxy =>
      intro hdrained
      simp [World.setClosed, Function.update_apply, hd hdrained]
    | _ => exact hd
  | gives cause result ops hm hctx =>
    refine .of_winding rfl ((h.winding _ _ _ hm).mono (fun _ => rfl) (fun _ hp => hp) (by simp)
      id (by simp) ?_ (.inl hctx) ?_) h.drained
    · intro hmem
      exact (h.winding _ _ _ hm).handlers (by simpa using hmem)
    · simp only [hctx]
      exact ready_true ..
  | ends r err hr =>
    have hsame : ∀ q, q ≠ r → (w.setDone r (.sent err)).done q = w.done q := fun q hq =>
      Function.update_of_ne hq ..
    have hself : (w.setDone r (.sent err)).done r = .sent err := Function.update_self ..
    refine h.outside rfl (fun q hu => ?_) (fun q => ?_) (fun q => ?_) (fun e hp => ?_) id rfl id
      h.drained
    · by_cases hq : q = r
      · subst hq
        rw [hself]
        simp [Done.Unreceived]
      · rw [hsame q hq]
        exact hu
    · by_cases hq : q = r
      · subst hq
        simp [hself, hr]
      · rw [hsame q hq]
    · by_cases hq : q = r
      · subst hq
        rw [hself, hr]
        rfl
      · rw [hsame q hq]
    · have hne : Runtime.proxy ≠ r := by
        rintro rfl
        rw [hr] at hp
        cases hp
      rw [hsame _ hne, hp]
  | listens hr =>
    exact h.outside rfl (fun _ hu => hu) (fun _ => Iff.rfl) (fun _ => rfl) (fun _ hp => hp) id rfl
      id h.drained
  | drains hc =>
    exact h.outside rfl (fun _ hu => hu) (fun _ => Iff.rfl) (fun _ => rfl) (fun _ hp => hp)
      (fun _ => .inl rfl) rfl id fun _ => hc

theorem run_inv {actions : List Action} {w : World} (hrun : System.run step boot actions = some w) :
    Inv w :=
  System.run_invariant_of_step (fun _ _ _ hI hs => step_inv hI (.of_step hs)) boot_inv hrun

/-- The UDP relay ends by itself, while the Java proxy goes on. -/
def relayEnds : List Action :=
  [.start none true, .start none false, .start none false, .start none true, .start none false,
    .start none false, .start none true, .start none true, .start none true, .listen,
    .ends .udpRelay none, .select .udpRelay, .main, .main, .drain, .main, .main, .main]

/-- The stages that may wait for the cluster. -/
def Stage.waits : Stage → Bool
  | load | discovery => true
  | metrics | udpRelay | bedrock | voiceChat | availability | watch | proxy => false

/-- The steps that the gateway takes by itself: the main goroutine's own, the
ends of the runtimes that were told to end, and of the handlers. -/
def due (w : World) : Action → Bool
  | .start _ _ =>
    match w.main with
    | .starting stage => w.ctxDone || !stage.waits
    | _ => false
  | .abandon | .select _ | .main | .mainCtx => true
  | .ends r _ => w.ctxDone || w.closed r
  | .drain => !w.drained
  | .signal | .listen => false

/-- The steps an operation takes. -/
@[simp] def Op.rank : Op → ℕ
  | .awaitMetrics => 3
  | .shutdown => 2
  | _ => 1

@[simp] def Done.rank : Done → ℕ
  | running => 2
  | sent _ => 1
  | absent | received _ => 0

def Stage.rank : Stage → ℕ
  | load => 90
  | discovery => 80
  | metrics => 70
  | udpRelay => 60
  | bedrock => 50
  | voiceChat => 40
  | availability => 30
  | watch => 20
  | proxy => 10

def Main.rank : Main → ℕ
  | starting stage => 30 + stage.rank
  | selecting => 30
  | winding _ _ ops => (ops.map Op.rank).sum + 1
  | returned _ _ => 0

def pending (done : Runtime → Done) : ℕ :=
  (done .discovery).rank + (done .metrics).rank + (done .udpRelay).rank + (done .bedrock).rank +
    (done .voiceChat).rank + (done .proxy).rank

def World.rank (w : World) : ℕ :=
  w.main.rank + pending w.done + (!w.drained).toNat

theorem pending_update (done : Runtime → Done) (r : Runtime) (d : Done) :
    pending (Function.update done r d) + (done r).rank = pending done + d.rank := by
  cases r <;> simp [pending] <;> omega

theorem wait_rank (done : Runtime → Done) :
    (∀ q, ((waitShutdown done q).map Op.rank).sum ≤ 2) ∧
      ((waitMetricsShutdown done).map Op.rank).sum ≤ 3 := by
  unfold waitShutdown waitMetricsShutdown
  refine ⟨fun q => ?_, ?_⟩ <;> split_ifs <;> simp

/-- No way out is long. -/
theorem out_rank (done : Runtime → Done) :
    (∀ stage, ((onFailure done stage).map Op.rank).sum ≤ 13) ∧
      ∀ r, ((onEnd done r).map Op.rank).sum ≤ 13 := by
  obtain ⟨hwait, hmetrics⟩ := wait_rank done
  have hdiscovery := hwait .discovery
  have hudp := hwait .udpRelay
  have hbedrock := hwait .bedrock
  have hvoice := hwait .voiceChat
  constructor
  · intro stage
    cases stage <;>
      simp only [onFailure, deferred, waitVoiceChatShutdown, waitBedrockShutdown,
        waitUDPRelayShutdown, List.map_append, List.map_cons, List.map_nil, List.sum_append,
        List.sum_cons, List.sum_nil, Op.rank] <;> omega
  · intro r
    cases r <;>
      simp only [onEnd, deferred, waitVoiceChatShutdown, waitBedrockShutdown,
        waitUDPRelayShutdown, List.map_append, List.map_cons, List.map_nil, List.sum_append,
        List.sum_cons, List.sum_nil, Op.rank] <;> omega

theorem Stage.next_rank (stage : Stage) : stage.next.rank + 10 = 30 + stage.rank := by
  cases stage <;> rfl

theorem Starts.rank {w w' : World} {stage : Stage} (hm : w.main = .starting stage)
    (h : Starts w stage w') : w'.rank < w.rank := by
  have hbefore : w.main.rank = 30 + stage.rank := by
    rw [hm]
    rfl
  have hnext := stage.next_rank
  cases h with
  | fails err hs =>
    have hops := (out_rank w.done).1 stage
    have hafter : (Main.winding (.failed stage err) (some err) (onFailure w.done stage)).rank =
        ((onFailure w.done stage).map Op.rank).sum + 1 := rfl
    simp only [World.rank]
    omega
  | passes hr =>
    simp only [World.rank]
    omega
  | off r hr hne =>
    have hpending := pending_update w.done r .absent
    have hzero : Done.absent.rank = 0 := rfl
    simp only [World.rank, World.setDone]
    omega
  | begins r hr =>
    have hpending := pending_update w.done r .running
    have htwo : Done.running.rank = 2 := rfl
    simp only [World.rank, World.setDone]
    omega

theorem Operates.rank {w w' : World} {cause : Cause} {result : Option Err} {op : Op}
    {ops : List Op} (hm : w.main = .winding cause result (op :: ops))
    (h : Operates w cause result ops op w') : w'.rank < w.rank := by
  have hpending := fun r d => pending_update w.done r d
  cases h with
  | cancels | closes | closesMetrics | closesProxy | misses | drained =>
    simp only [World.rank, World.setClosed, hm, Main.rank, List.map_cons, List.sum_cons, Op.rank]
    omega
  | receives r err hr =>
    have hr' := hpending r (.received err)
    simp only [hr, Done.rank] at hr'
    simp only [World.rank, World.setDone, hm, Main.rank, List.map_cons, List.sum_cons, Op.rank]
    omega
  | receivesMetrics err hr =>
    have hr' := hpending .metrics (.received err)
    simp only [hr, Done.rank] at hr'
    simp only [World.rank, World.setDone, hm, Main.rank, List.map_cons, List.sum_cons, Op.rank]
    omega

theorem step_rank {w w' : World} {a : Action} (h : Step w a w') :
    w'.rank ≤ w.rank ∧ (due w a = true → w'.rank < w.rank) := by
  have hpending := fun r d => pending_update w.done r d
  have hlt : ∀ {x y : ℕ}, x < y → x ≤ y ∧ (due w a = true → x < y) := fun hxy =>
    ⟨hxy.le, fun _ => hxy⟩
  cases h with
  | signal => exact ⟨Nat.le_refl _, by simp [due]⟩
  | starts failure enabled stage w' hm hs => exact hlt (hs.rank hm)
  | abandons hm hctx =>
    have hr := hpending .discovery .running
    have htwo : Done.running.rank = 2 := rfl
    refine hlt ?_
    simp only [World.rank, World.setDone, World.setClosed, hm, Main.rank, Stage.rank, List.map_cons,
      List.map_nil, List.sum_cons, List.sum_nil, Op.rank]
    omega
  | selects r err hm hr hne =>
    have hops := (out_rank w.done).2 r
    have hr' := hpending r (.received err)
    simp only [hr, Done.rank] at hr'
    refine hlt ?_
    simp only [World.rank, World.setDone, hm, Main.rank]
    omega
  | returns cause result hm =>
    refine hlt ?_
    simp only [World.rank, hm, Main.rank]
    simp
  | operates cause result op ops w' hm hop => exact hlt (hop.rank hm)
  | gives cause result ops hm hctx =>
    refine hlt ?_
    simp only [World.rank, hm, Main.rank, List.map_cons, List.sum_cons, Op.rank]
    omega
  | ends r err hr =>
    have hr' := hpending r (.sent err)
    simp only [hr, Done.rank] at hr'
    refine hlt ?_
    simp only [World.rank, World.setDone]
    omega
  | listens hr => exact ⟨Nat.le_refl _, by simp [due]⟩
  | drains hc =>
    simp only [World.rank, due, Bool.not_eq_true']
    refine ⟨by simp, fun hd => ?_⟩
    simp [hd]

/-- The gateway was told to stop, or something in it has ended. -/
structure Ending (w : World) : Prop where
  inv : Inv w
  ending : w.ctxDone = true ∨ (∃ r err, r ≠ .discovery ∧ w.done r = .sent err) ∨
    (∃ cause result ops, w.main = .winding cause result ops) ∨
    ∃ cause result, w.main = .returned cause result

theorem Stage.reached_runtime {stage : Stage} {r : Runtime} (h : stage.runtime = some r) :
    stage.reached r = false := by
  cases stage <;> cases h <;> rfl

/-- Nothing but the discovery has ended before the metrics server starts. -/
theorem Inv.waits {w : World} (h : Inv w) {stage : Stage} (hm : w.main = .starting stage)
    {r : Runtime} {err : Option Err} (hr : w.done r = .sent err) : stage.waits = false := by
  have hreached : stage.reached r ≠ false := by
    intro hno
    rw [(h.starting stage hm r).2 hno] at hr
    cases hr
  cases stage with
  | load | discovery => exact absurd rfl hreached
  | metrics | udpRelay | bedrock | voiceChat | availability | watch | proxy => rfl

namespace Ending

variable {w w' : World} {a : Action}

/-- A start goes on with what has ended. -/
theorem starts {stage : Stage} (h : Ending w) (hm : w.main = .starting stage)
    (hs : Starts w stage w') (hinv : Inv w') : Ending w' := by
  refine ⟨hinv, ?_⟩
  have hending : w.ctxDone = true ∨ ∃ r err, r ≠ .discovery ∧ w.done r = .sent err := by
    simpa [hm] using h.ending
  rcases hending with hctx | ⟨r, err, hne, hr⟩
  · cases hs with
    | fails | passes | off | begins => exact .inl hctx
  · have hother : ∀ q, stage.runtime = some q → r ≠ q := by
      rintro q hq rfl
      rw [(h.inv.starting stage hm r).2 (Stage.reached_runtime hq)] at hr
      cases hr
    cases hs with
    | fails => exact .inr (.inr (.inl ⟨_, _, _, rfl⟩))
    | passes => exact .inr (.inl ⟨r, err, hne, hr⟩)
    | off q hq | begins q hq =>
      refine .inr (.inl ⟨r, err, hne, ?_⟩)
      exact (Function.update_of_ne (hother q hq) ..).trans hr

theorem step (h : Ending w) (hs : Lifecycle.step w a = some w') : Ending w' := by
  have hinv := step_inv h.inv (.of_step hs)
  cases Step.of_step hs with
  | signal => exact ⟨hinv, .inl rfl⟩
  | starts failure enabled stage w' hm hstart => exact h.starts hm hstart hinv
  | selects | abandons | gives => exact ⟨hinv, .inr (.inr (.inl ⟨_, _, _, rfl⟩))⟩
  | returns => exact ⟨hinv, .inr (.inr (.inr ⟨_, _, rfl⟩))⟩
  | operates cause result op ops w' hm hop =>
    obtain ⟨result', ops', hm', -⟩ := (h.inv.winding _ _ _ hm).operate hop
    exact ⟨hinv, .inr (.inr (.inl ⟨_, _, _, hm'⟩))⟩
  | ends q e hq =>
    refine ⟨hinv, h.ending.imp_right (Or.imp_left ?_)⟩
    rintro ⟨r, err, hne, hr⟩
    have hrq : r ≠ q := by
      rintro rfl
      rw [hq] at hr
      cases hr
    exact ⟨r, err, hne, (Function.update_of_ne hrq ..).trans hr⟩
  | listens | drains => exact ⟨hinv, h.ending⟩

/-- As long as `run` has not returned, something is due. -/
theorem enabled (h : Ending w) (hret : ∀ cause result, w.main ≠ .returned cause result) :
    ∃ a w', due w a = true ∧ Lifecycle.step w a = some w' := by
  cases hm : w.main with
  | returned cause result => exact absurd hm (hret cause result)
  | starting stage =>
    have hdue : w.ctxDone = true ∨ stage.waits = false := by
      have hending : w.ctxDone = true ∨ ∃ r err, r ≠ .discovery ∧ w.done r = .sent err := by
        simpa [hm] using h.ending
      rcases hending with hctx | ⟨r, err, -, hr⟩
      · exact .inl hctx
      · exact .inr (h.inv.waits hm hr)
    cases hr : stage.runtime with
    | none => exact ⟨.start none true, by simp [due, Lifecycle.step, startStep, hm, hdue, hr]⟩
    | some r => exact ⟨.start none true, by simp [due, Lifecycle.step, startStep, hm, hdue, hr]⟩
  | selecting =>
    have hending : w.ctxDone = true ∨ ∃ r err, r ≠ .discovery ∧ w.done r = .sent err := by
      simpa [hm] using h.ending
    rcases hending with hctx | ⟨r, err, hne, hr⟩
    · obtain ⟨hun, hproxy⟩ := h.inv.selecting hm
      cases hd : w.done .proxy with
      | absent => exact absurd hd hproxy
      | received err => exact absurd hd (hun .proxy err)
      | running => exact ⟨.ends .proxy none, by simp [due, Lifecycle.step, hctx, hd]⟩
      | sent err => exact ⟨.select .proxy, by simp [due, Lifecycle.step, hm, hd]⟩
    · exact ⟨.select r, by simp [due, Lifecycle.step, hm, hr, hne]⟩
  | winding cause result ops =>
    have hw := h.inv.winding cause result ops hm
    cases ops with
    | nil => exact ⟨.main, by simp [due, Lifecycle.step, hm]⟩
    | cons op ops =>
      have hready := hw.ready
      cases op with
      | cancel | close | shutdownMetrics =>
        exact ⟨.main, by simp [due, Lifecycle.step, opStep, hm]⟩
      | shutdown =>
        cases hl : w.listening with
        | true => exact ⟨.main, by simp [due, Lifecycle.step, opStep, hm, hl]⟩
        | false => exact ⟨.main, by simp [due, Lifecycle.step, opStep, hm, hl]⟩
      | awaitMetrics =>
        have hctx : w.ctxDone = true := by
          simp only [Lifecycle.ready, Bool.and_eq_true] at hready
          exact hready.1
        exact ⟨.mainCtx, by simp [due, Lifecycle.step, hm, hctx]⟩
      | awaitHandlers =>
        have hclosed := hw.handlers List.mem_cons_self
        cases hd : w.drained with
        | true => exact ⟨.main, by simp [due, Lifecycle.step, opStep, hm, hd]⟩
        | false => exact ⟨.drain, by simp [due, Lifecycle.step, hd, hclosed]⟩
      | receive r =>
        simp only [Lifecycle.ready, Bool.and_eq_true] at hready
        have howed : 1 ≤ (w.done r).owed := by
          have hone : 1 ≤ receives r (.receive r :: ops) := by simp
          exact hone.trans (hw.owed r)
        cases hd : w.done r with
        | absent | received => simp [hd] at howed
        | running =>
          exact ⟨.ends r none, by
            simp only [due, Lifecycle.step, hd, hready.1]
            simp⟩
        | sent err => exact ⟨.main, by simp [due, Lifecycle.step, opStep, hm, hd]⟩

theorem settling : System.Settling Lifecycle.step (fun _ _ => True) (fun w a => due w a = true)
    Ending (fun w => ∃ cause result, w.main = .returned cause result) World.rank where
  keeps _ _ _ h hs := h.step hs
  never_raises _ _ _ _ _ hs := (step_rank (.of_step hs)).1
  lowers _ _ _ _ hdue hs := (step_rank (.of_step hs)).2 hdue
  enabled _ h hgoal := h.enabled fun cause result hm => hgoal ⟨cause, result, hm⟩

end Ending

/-- **`run` comes back.** Once the context is done, by a signal or by the
gateway itself, or a runtime other than the discovery has ended, or a start
has failed, at most 121 steps remain in any continuation, given that each
runtime ends when it is told to and that the handlers end: no receive waits
for a value that has been taken, and none for a runtime that nobody has told
to end. -/
theorem run_comes_back (actions : List Action) (w : World)
    (hrun : System.run step boot actions = some w)
    (hending : w.ctxDone = true ∨ (∃ r err, r ≠ .discovery ∧ w.done r = .sent err) ∨
      ∃ cause result ops, w.main = .winding cause result ops) :
    (∀ more w', System.run step w more = some w' →
      System.dueSteps step (fun w a => due w a = true) w more ≤ 121) ∧
    ∃ more w' cause result, System.Meets step (fun w a => due w a = true) w more ∧
      System.run step w more = some w' ∧ w'.main = .returned cause result := by
  have hend : Ending w := ⟨run_inv hrun, hending.imp_right (Or.imp_right .inl)⟩
  have hrank : w.rank ≤ 121 := System.run_invariant_of_step (I := fun w => w.rank ≤ 121)
    (fun _ _ _ hI hs => (step_rank (.of_step hs)).1.trans hI) (Nat.le_refl _) hrun
  obtain ⟨hbound, more, w', hmeets, hmore, cause, result, hm⟩ := Ending.settling.settles hend hrank
  exact ⟨hbound, more, w', cause, result, hmeets, hmore, hm⟩

/-- The relay has just ended, and nobody has noticed. -/
theorem run_comes_back_relay : ∃ w, System.run step boot (relayEnds.take 11) = some w ∧
    w.main = .selecting ∧ w.ctxDone = false ∧
    ∃ more w' cause result, System.Meets step (fun w a => due w a = true) w more ∧
      System.run step w more = some w' ∧ w'.main = .returned cause result :=
  ⟨_, rfl, rfl, rfl, (run_comes_back (relayEnds.take 11) _ rfl
    (.inr (.inl ⟨.udpRelay, none, by simp, rfl⟩))).2⟩

end Lifecycle

end McRouter
