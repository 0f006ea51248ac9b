import McRouter.Proxy.Serving

/-!
# Every connection, once

What holds of the accept loop in every interleaving. The wait group counts
the handlers (`Counted`), so when `Serve` has returned every client is closed;
`Shutdown` waits for the handlers too, but one connection can slip past it.
The metrics tell how many connections are being handled and how each one
ended (`Metered`). And though the handlers run side by side, each of them does
what it would do alone: for each stored state there is an order in which
handling its connections one after the other gives every one of them its
outcome (`Logged`). The order is that of the limiter's lock. What a handler
did before does not depend on the limiter, and what it does after depends on
its answer alone, so all of it could have been done at that moment.
-/

namespace McRouter

namespace Proxy

namespace Serving

/-! ## What a phase stands for -/

namespace Phase

/-- The wait group counts the connection. -/
@[simp] def live : Phase → ℕ
  | held | done _ _ => 0
  | _ => 1

/-- Its handler has returned. -/
@[simp] def ended : Phase → Bool
  | done _ _ => true
  | _ => false

/-- The metrics know of the connection. -/
@[simp] def begun : Phase → ℕ
  | held | started => 0
  | _ => 1

/-- The metrics know of its end. -/
@[simp] def finishedAs (result : ConnectionResult) (reason : Reason) : Phase → ℕ
  | recorded _ h | closed _ h | done _ h =>
    if h.result = result ∧ h.reason = reason then 1 else 0
  | _ => 0

/-- It is an active connection. -/
@[simp] def active : Phase → ℕ
  | counted | loaded _ | clocked _ _ _ | answered _ _ _ _ _ => 1
  | _ => 0

/-- The state its handler holds. -/
@[simp] def version : Phase → Option ℕ
  | held | started | counted => none
  | loaded k | clocked k _ _ | answered k _ _ _ _ | recorded k _ | closed k _ | done k _ => some k

/-- Its outcome, once its handler is done with the client. -/
@[simp] def outcome : Phase → Option (ℕ × Handled)
  | recorded k h | closed k h | done k h => some (k, h)
  | _ => none

/-- It has the limiter's answer, or was refused before. -/
@[simp] def through : Phase → Bool
  | answered _ _ _ _ _ | recorded _ _ | closed _ _ | done _ _ => true
  | _ => false

end Phase

/-! ## The frame of a handler's step -/

/-- A sum over the connections after one has moved. -/
theorem sum_moved (f : Phase → ℕ) {conns : List Connection} {i : ℕ} {c : Connection}
    (hi : conns[i]? = some c) (phase : Phase) :
    ((conns.set i { c with phase }).map fun c => f c.phase).sum + f c.phase =
      (conns.map fun c => f c.phase).sum + f phase :=
  System.sum_set (fun c : Connection => f c.phase) hi { c with phase }

/-- What a step of a handler leaves alone: all but its own phase, the wait
group, the metrics and a limiter. -/
structure Moves (w w' : World) (i : ℕ) (c : Connection) (phase : Phase) : Prop where
  conns : w'.conns = w.conns.set i { c with phase }
  serve : w'.serve = w.serve
  shutdowns : w'.shutdowns = w.shutdowns
  listening : w'.listening = w.listening
  listenerClosed : w'.listenerClosed = w.listenerClosed
  live : c.phase.live = 1
  wg : w'.wg = w.wg - (1 - phase.live)
  not_held : phase ≠ .held

theorem Works.moves {w w' : World} {i : ℕ} {c : Connection} (h : Works w i c w') :
    ∃ phase, Moves w w' i c phase := by
  cases h with
  | accepts hp | loads hp | looks _ _ _ hp | asks _ _ _ _ hp | closes _ _ hp | leaves _ _ hp =>
    exact ⟨_, rfl, rfl, rfl, rfl, rfl, by simp [hp], rfl, by simp⟩
  | refuses _ _ _ _ hp | records _ _ _ _ _ _ hp =>
    exact ⟨_, rfl, rfl, rfl, rfl, rfl, by simp [hp], rfl, by simp⟩

/-! ## The wait group -/

/-- Where the connections are, as `Serve` and `Shutdown` see it. -/
structure Counted (w : World) : Prop where
  wg : w.wg = (w.conns.map (·.phase.live)).sum
  held : ∀ (i : ℕ) (c : Connection), w.conns[i]? = some c → c.phase = .held → w.serve = .holding i
  holds : ∀ i, w.serve = .holding i → ∃ c, w.conns[i]? = some c ∧ c.phase = .held
  returned : ∀ err, w.serve = .returned err → w.wg = 0
  waiting : .waiting true ∈ w.shutdowns → w.listenerClosed = true
  shut : .returned true ∈ w.shutdowns → w.listenerClosed = true ∧
    ∃ late, ∀ (i : ℕ) (c : Connection), w.conns[i]? = some c → i = late ∨ c.phase.ended = true

theorem boot_counted (state : ServerState) (metricsEnabled : Bool) :
    Counted (boot state metricsEnabled) := by
  constructor <;> simp [boot]

namespace Counted

variable {w w' : World}

/-- A handler that the wait group does not count has not begun, or is over. -/
theorem phase_of_wg (h : Counted w) (hwg : w.wg = 0) {i : ℕ} {c : Connection}
    (hi : w.conns[i]? = some c) : c.phase = .held ∨ c.phase.ended = true := by
  have hle := System.le_sum (fun c : Connection => c.phase.live) hi
  have hsum := h.wg
  have hlive : c.phase.live = 0 := by omega
  cases hp : c.phase <;> simp_all

/-- All are over when `Serve` has returned. -/
theorem ended_of_returned (h : Counted w) {err : Option Err} (hret : w.serve = .returned err)
    {i : ℕ} {c : Connection} (hi : w.conns[i]? = some c) : c.phase.ended = true := by
  refine (h.phase_of_wg (h.returned err hret) hi).resolve_left fun hp => ?_
  have hheld := h.held i c hi hp
  simp [hret] at hheld

/-- The connection in the hands of `Serve`. -/
theorem held_of_holding (h : Counted w) {i : ℕ} {c : Connection} (hs : w.serve = .holding i)
    (hi : w.conns[i]? = some c) : c.phase = .held := by
  obtain ⟨d, hd, hheld⟩ := h.holds i hs
  obtain rfl : c = d := Option.some.inj (hi.symm.trans hd)
  exact hheld

/-- `Serve` is where it has no connection in its hands. -/
theorem serve (h : Counted w) {serve : Serve} (hs : ∀ i, w.serve ≠ .holding i)
    (hs' : ∀ i, serve ≠ .holding i) (hwg : ∀ err, serve = .returned err → w.wg = 0) :
    Counted { w with serve } :=
  ⟨h.wg, fun i c hi hc => absurd (h.held i c hi hc) (hs i), fun i hi => absurd hi (hs' i), hwg,
    h.waiting, h.shut⟩

theorem moves {i : ℕ} {c : Connection} {phase : Phase} (h : Counted w)
    (hi : w.conns[i]? = some c) (hm : Moves w w' i c phase) : Counted w' where
  wg := by
    have hset := sum_moved Phase.live hi phase
    have hle := System.le_sum (fun c : Connection => c.phase.live) hi
    have hsum := h.wg
    have hlive := hm.live
    have hphase : phase.live ≤ 1 := by cases phase <;> simp
    rw [hm.conns, hm.wg]
    omega
  held j d hj hd := by
    rw [hm.serve]
    rw [hm.conns] at hj
    rcases System.getElem?_set_cases hj with ⟨-, rfl⟩ | ⟨-, hj⟩
    · exact absurd hd hm.not_held
    · exact h.held j d hj hd
  holds j hs := by
    obtain ⟨d, hj, hd⟩ := h.holds j (hm.serve ▸ hs)
    refine ⟨d, ?_, hd⟩
    have hne : j ≠ i := by
      rintro rfl
      obtain rfl : c = d := Option.some.inj (hi.symm.trans hj)
      have hlive := hm.live
      simp [hd] at hlive
    rw [hm.conns, List.getElem?_set_ne hne.symm, hj]
  returned err hs := by
    have hwg := h.returned err (hm.serve ▸ hs)
    rw [hm.wg, hwg]
    omega
  waiting hj := by
    rw [hm.listenerClosed]
    exact h.waiting (hm.shutdowns ▸ hj)
  shut hj := by
    obtain ⟨hclosed, late, hlate⟩ := h.shut (hm.shutdowns ▸ hj)
    rw [hm.conns, hm.listenerClosed]
    refine ⟨hclosed, late, System.forall_set hlate ((hlate i c hi).imp_right fun hended => ?_)⟩
    -- it was not over, so it is the late one
    have hlive := hm.live
    cases hp : c.phase <;> simp_all

end Counted

theorem step_counted {w w' : World} {a : Action} (hstep : Step w a w') (h : Counted w) :
    Counted w' := by
  cases hstep with
  | tick | cancel | reorders | reloads =>
    exact ⟨h.wg, h.held, h.holds, h.returned, h.waiting, h.shut⟩
  | retries | keeps => exact h
  | listens hs =>
    exact ⟨h.wg, fun i c hi hc => absurd (h.held i c hi hc) (by simp [hs]), by simp, by simp,
      h.waiting, h.shut⟩
  | watches hctx hl =>
    exact ⟨h.wg, h.held, h.holds, h.returned, fun _ => rfl, fun hj => ⟨rfl, (h.shut hj).2⟩⟩
  | accepts env hs hl =>
    have hopen : ∀ b : Bool, w.listenerClosed = true → b = true := by simp [hl]
    refine ⟨?_, fun i c hi hc => ?_, fun i hi => ?_, by simp, fun hj => hopen _ (h.waiting hj),
      fun hj => absurd (h.shut hj).1 (by simp [hl])⟩
    · simpa using h.wg
    · rcases System.getElem?_concat_cases hi with hi | ⟨rfl, -⟩
      · have hheld := h.held i c hi hc
        simp [hs] at hheld
      · rfl
    · obtain rfl : w.conns.length = i := by simpa using hi
      exact ⟨_, List.getElem?_concat_length .., rfl⟩
  | drains e err hs => exact h.serve (by simp [hs]) (by simp) (by simp)
  | spawns i c hs hi =>
    have hheld := h.held_of_holding hs hi
    refine ⟨?_, fun j d hj hd => ?_, by simp, by simp, h.waiting, fun hj => ?_⟩
    · have hset := sum_moved Phase.live hi .started
      have hbefore : c.phase.live = 0 := by rw [hheld]; rfl
      have hafter : Phase.started.live = 1 := rfl
      have hsum := h.wg
      simp only [World.goto]
      omega
    · rcases System.getElem?_set_cases hj with ⟨-, rfl⟩ | ⟨hne, hj⟩
      · cases hd
      · have hholding := h.held j d hj hd
        rw [hs] at hholding
        exact absurd (Serve.holding.inj hholding).symm hne
    · obtain ⟨hclosed, late, hlate⟩ := h.shut hj
      exact ⟨hclosed, late, System.forall_set hlate ((hlate i c hi).imp_right (by simp [hheld]))⟩
  | returns err hs hwg => exact h.serve (by simp [hs]) (by simp) fun _ _ => hwg
  | works i c w' hi hworks =>
    obtain ⟨phase, hm⟩ := hworks.moves
    exact h.moves hi hm
  | shutdown =>
    exact ⟨h.wg, h.held, h.holds, h.returned, by simpa using h.waiting, by simpa using h.shut⟩
  | shuts j hj =>
    refine ⟨h.wg, h.held, h.holds, h.returned, fun hk => ?_, fun hk => ?_⟩
    · rcases List.mem_or_eq_of_mem_set hk with hk | hl
      · simp [h.waiting hk]
      · simp [← Shutdown.waiting.inj hl]
    · rcases List.mem_or_eq_of_mem_set hk with hk | hl
      · exact ⟨by simp [(h.shut hk).1], (h.shut hk).2⟩
      · cases hl
  | waited j listening hj hwg =>
    refine ⟨h.wg, h.held, h.holds, h.returned, fun hk => ?_, fun hk => ?_⟩
    · exact h.waiting ((List.mem_or_eq_of_mem_set hk).resolve_right (by simp))
    · rcases List.mem_or_eq_of_mem_set hk with hk | hl
      · exact h.shut hk
      · obtain rfl := Shutdown.returned.inj hl
        -- the late one is the one in the hands of `Serve`
        have hlate : ∃ late, ∀ i, w.serve = .holding i → i = late := by
          by_cases hx : ∃ late, w.serve = .holding late
          · obtain ⟨late, hlate⟩ := hx
            refine ⟨late, fun i hi => ?_⟩
            rw [hlate] at hi
            exact (Serve.holding.inj hi).symm
          · exact ⟨0, fun i hi => absurd ⟨i, hi⟩ hx⟩
        obtain ⟨late, hlate⟩ := hlate
        refine ⟨h.waiting (List.mem_of_getElem? hj), late, fun i c hi => ?_⟩
        exact (h.phase_of_wg hwg hi).imp_left fun hc => hlate i (h.held i c hi hc)

theorem run_counted {state : ServerState} {metricsEnabled : Bool} {actions : List Action}
    {w : World} (hrun : System.run step (boot state metricsEnabled) actions = some w) : Counted w :=
  System.run_invariant_of_step (fun _ _ _ hI hs => step_counted (.of_step hs) hI)
    (boot_counted state metricsEnabled) hrun

/-- Once `Serve` has returned, no connection moves any more. -/
theorem conns_of_returned {w w' : World} {a : Action} {err : Option Err} (h : Counted w)
    (hret : w.serve = .returned err) (hstep : Step w a w') :
    w'.serve = .returned err ∧ w'.conns = w.conns := by
  cases hstep with
  | listens hs | accepts _ hs | drains _ _ hs | spawns _ _ hs | returns _ hs =>
    rw [hs] at hret
    cases hret
  | works i c w' hi hworks =>
    obtain ⟨phase, hm⟩ := hworks.moves
    have hlive := hm.live
    have hended := h.ended_of_returned hret hi
    cases hc : c.phase <;> simp_all
  | _ => exact ⟨hret, rfl⟩

/-- Once the listener is closed, nobody comes in. -/
theorem conns_of_closed {w w' : World} {a : Action} (hclosed : w.listenerClosed = true)
    (hstep : Step w a w') :
    w'.listenerClosed = true ∧ w'.conns.length = w.conns.length := by
  cases hstep with
  | accepts env hs hl => simp [hl] at hclosed
  | works i c w' hi hworks =>
    obtain ⟨phase, hm⟩ := hworks.moves
    exact ⟨hm.listenerClosed ▸ hclosed, by rw [hm.conns, List.length_set]⟩
  | spawns i c hs hi => exact ⟨hclosed, List.length_set⟩
  | watches => exact ⟨rfl, rfl⟩
  | shuts => exact ⟨by simp [hclosed], rfl⟩
  | _ => exact ⟨hclosed, rfl⟩

/-- The steps in which a `Shutdown` returns between `Accept` and `wg.Add`. -/
def slipping (env : ConnEnv) : List Action :=
  [.listen, .accept env, .shutdown, .shut 0, .shut 0, .serve]

/-- **No connection is left behind, except by `Shutdown`.** When `Serve` has
returned, every connection it accepted has been closed and its handler is
over, and there will be no other. When a `Shutdown` that found the listener
has returned, nobody comes in any more and all handlers are over but that of
at most one connection; and there can be that one, since `Serve` may hold a
connection it has not yet added to the wait group. -/
theorem connections_drained (state : ServerState) (metricsEnabled : Bool) :
    (∀ actions w, System.run step (boot state metricsEnabled) actions = some w →
      (∀ err, w.serve = .returned err →
        (∀ (i : ℕ) (c : Connection), w.conns[i]? = some c → c.phase.ended = true) ∧
        ∀ more w', System.run step w more = some w' → w'.conns = w.conns) ∧
      ∀ j : ℕ, w.shutdowns[j]? = some (.returned true) →
        (∃ late, ∀ (i : ℕ) (c : Connection), w.conns[i]? = some c →
          i = late ∨ c.phase.ended = true) ∧
        ∀ more w', System.run step w more = some w' → w'.conns.length = w.conns.length) ∧
    ∀ env, ∃ w, System.run step (boot state metricsEnabled) (slipping env) = some w ∧
      w.shutdowns[0]? = some (.returned true) ∧ w.conns.map (·.phase) = [.started] := by
  refine ⟨fun actions w hrun => ?_, fun env => ⟨_, rfl, rfl, rfl⟩⟩
  have hcounted := run_counted hrun
  refine ⟨fun err hret => ⟨fun i c hi => hcounted.ended_of_returned hret hi,
    fun more w' hmore => ?_⟩, fun j hj => ?_⟩
  · have hkeep := System.run_invariant_of_step
      (I := fun w' => Counted w' ∧ w'.serve = .returned err ∧ w'.conns = w.conns)
      (fun w₁ a w₂ h hs => by
        obtain ⟨hserve, hconns⟩ := conns_of_returned h.1 h.2.1 (.of_step hs)
        exact ⟨step_counted (.of_step hs) h.1, hserve, hconns.trans h.2.2⟩)
      ⟨hcounted, hret, rfl⟩ hmore
    exact hkeep.2.2
  · obtain ⟨hclosed, hlate⟩ := hcounted.shut (List.mem_of_getElem? hj)
    refine ⟨hlate, fun more w' hmore => ?_⟩
    have hkeep := System.run_invariant_of_step
      (I := fun w' => w'.listenerClosed = true ∧ w'.conns.length = w.conns.length)
      (fun w₁ a w₂ h hs => by
        obtain ⟨hl, hconns⟩ := conns_of_closed h.1 (.of_step hs)
        exact ⟨hl, hconns.trans h.2⟩)
      ⟨hclosed, rfl⟩ hmore
    exact hkeep.2

/-- A client comes and goes, and the context ends. -/
def visit : List Action :=
  [.listen, .accept paddedEnv, .serve, .cancel, .watch, .acceptFails .closed] ++
    List.replicate 7 (.conn 0) ++ [.serve]

/-- After the visit the one client is closed. -/
theorem connections_drained_visit : ∃ w, System.run step (boot openState true) visit = some w ∧
    ∀ (i : ℕ) (c : Connection), w.conns[i]? = some c → c.phase.ended = true :=
  ⟨_, rfl, (((connections_drained openState true).1 visit _ rfl).1 none rfl).1⟩

/-! ## The metrics -/

/-- What the metrics say, if they are on. -/
structure Metered (w : World) : Prop where
  off : w.metrics.enabled = false →
    w.metrics.connectionsTotal = [] ∧ w.metrics.activeConnections = 0
  accepted : w.metrics.enabled = true →
    w.metrics.connectionsTotal.count .accepted = (w.conns.map (·.phase.begun)).sum
  finished : w.metrics.enabled = true → ∀ result reason,
    w.metrics.connectionsTotal.count (.finished result reason) =
      (w.conns.map (·.phase.finishedAs result reason)).sum
  active : w.metrics.enabled = true →
    w.metrics.activeConnections = (w.conns.map (·.phase.active)).sum

theorem boot_metered (state : ServerState) (metricsEnabled : Bool) :
    Metered (boot state metricsEnabled) :=
  ⟨fun _ => ⟨rfl, rfl⟩, fun _ => rfl, fun _ _ _ => rfl, fun _ => rfl⟩

/-- What the metrics make of a connection that goes from one phase to the
next: if they are on, they count what is new. -/
structure Metrics.Counts (m m' : Metrics) (p q : Phase) : Prop where
  enabled : m'.enabled = m.enabled
  off : m.enabled = false → m' = m
  accepted : m.enabled = true → m'.connectionsTotal.count .accepted + p.begun =
    m.connectionsTotal.count .accepted + q.begun
  finished : m.enabled = true → ∀ result reason,
    m'.connectionsTotal.count (.finished result reason) + p.finishedAs result reason =
      m.connectionsTotal.count (.finished result reason) + q.finishedAs result reason
  active : m.enabled = true → m'.activeConnections + p.active = m.activeConnections + q.active

/-- A step that the metrics do not see. -/
theorem Metrics.Counts.unseen {m : Metrics} {p q : Phase} (hbegun : q.begun = p.begun)
    (hfinished : ∀ result reason, q.finishedAs result reason = p.finishedAs result reason)
    (hactive : q.active = p.active) : Metrics.Counts m m p q where
  enabled := rfl
  off _ := rfl
  accepted _ := by rw [hbegun]
  finished _ result reason := by rw [hfinished]
  active _ := by rw [hactive]

theorem Metrics.counts_connectionAccepted (m : Metrics) :
    m.Counts m.connectionAccepted .started .counted := by
  cases hon : m.enabled with
  | false => constructor <;> simp [connectionAccepted, hon]
  | true => constructor <;> simp [connectionAccepted, hon]

theorem Metrics.counts_connectionFinished (m : Metrics) {p : Phase} (hactive : p.active = 1) (k : ℕ)
    (h : Handled) : m.Counts (m.connectionFinished h.result h.reason) p (.recorded k h) := by
  cases p with
  | counted | loaded | clocked | answered =>
    cases hon : m.enabled with
    | false => constructor <;> simp [connectionFinished, hon]
    | true => constructor <;> simp [connectionFinished, hon, List.count_singleton]
  | _ => simp at hactive

theorem Works.counts {w w' : World} {i : ℕ} {c : Connection} (h : Works w i c w') :
    ∃ phase, w'.conns = w.conns.set i { c with phase } ∧
      w.metrics.Counts w'.metrics c.phase phase := by
  cases h with
  | accepts hp => exact ⟨_, rfl, hp ▸ w.metrics.counts_connectionAccepted⟩
  | refuses k _ _ _ hp | records k _ _ _ _ _ hp =>
    exact ⟨_, rfl, w.metrics.counts_connectionFinished (by simp [hp]) k _⟩
  | loads hp | looks _ _ _ hp | asks _ _ _ _ hp | closes _ _ hp | leaves _ _ hp =>
    exact ⟨_, rfl, .unseen (by simp [hp]) (by simp [hp]) (by simp [hp])⟩

/-- A connection goes on. -/
theorem Metered.moves {w w' : World} {i : ℕ} {c : Connection} {phase : Phase} (h : Metered w)
    (hi : w.conns[i]? = some c) (hconns : w'.conns = w.conns.set i { c with phase })
    (hm : w.metrics.Counts w'.metrics c.phase phase) : Metered w' := by
  refine ⟨fun hoff => ?_, fun hon => ?_, fun hon result reason => ?_, fun hon => ?_⟩
  · have hoff := hm.enabled ▸ hoff
    rw [hm.off hoff]
    exact h.off hoff
  · have hsum := sum_moved Phase.begun hi phase
    have hacc := h.accepted (hm.enabled ▸ hon)
    have hcount := hm.accepted (hm.enabled ▸ hon)
    rw [hconns]
    omega
  · have hsum := sum_moved (Phase.finishedAs result reason) hi phase
    have hfin := h.finished (hm.enabled ▸ hon) result reason
    have hcount := hm.finished (hm.enabled ▸ hon) result reason
    rw [hconns]
    omega
  · have hsum := sum_moved Phase.active hi phase
    have hact := h.active (hm.enabled ▸ hon)
    have hcount := hm.active (hm.enabled ▸ hon)
    rw [hconns]
    omega

theorem step_metered {w w' : World} {a : Action} (hstep : Step w a w') (hc : Counted w)
    (h : Metered w) : Metered w' := by
  cases hstep with
  | works i c w' hi hworks =>
    obtain ⟨phase, hconns, hcounts⟩ := hworks.counts
    exact h.moves hi hconns hcounts
  | accepts env hs hl =>
    exact ⟨h.off, by simpa using h.accepted, by simpa using h.finished, by simpa using h.active⟩
  | spawns i c hs hi =>
    have hheld := hc.held_of_holding hs hi
    exact h.moves hi rfl (.unseen (by simp [hheld]) (by simp [hheld]) (by simp [hheld]))
  | _ => exact ⟨h.off, h.accepted, h.finished, h.active⟩

theorem run_metered {state : ServerState} {metricsEnabled : Bool} {actions : List Action}
    {w : World} (hrun : System.run step (boot state metricsEnabled) actions = some w) :
    Metered w := by
  have hkeep := System.run_invariant_of_step (I := fun w => Counted w ∧ Metered w)
    (fun _ _ _ hI hs =>
      ⟨step_counted (.of_step hs) hI.1, step_metered (.of_step hs) hI.1 hI.2⟩)
    ⟨boot_counted state metricsEnabled, boot_metered state metricsEnabled⟩ hrun
  exact hkeep.2

/-- Nobody turns the metrics on or off. -/
theorem enabled_of_step {w w' : World} {a : Action} (hstep : Step w a w') :
    w'.metrics.enabled = w.metrics.enabled := by
  cases hstep with
  | works i c w' hi hworks =>
    obtain ⟨phase, -, hcounts⟩ := hworks.counts
    exact hcounts.enabled
  | _ => rfl

theorem run_enabled {state : ServerState} {metricsEnabled : Bool} {actions : List Action}
    {w : World} (hrun : System.run step (boot state metricsEnabled) actions = some w) :
    w.metrics.enabled = metricsEnabled :=
  System.run_invariant_of_step (fun _ _ _ hI hs => (enabled_of_step (.of_step hs)).trans hI) rfl
    hrun

/-- **The metrics tell the truth at every moment.** With the metrics on, the
gauge is the number of connections being handled, and each counter the number
of connections that came, or that ended in its way. When `Serve` has returned
the gauge is at zero and every connection it accepted is in the counters.
With the metrics off they are never touched. -/
theorem metrics_balance (state : ServerState) (metricsEnabled : Bool) (actions : List Action)
    (w : World) (hrun : System.run step (boot state metricsEnabled) actions = some w) :
    if metricsEnabled then
      w.metrics.activeConnections = (w.conns.map (·.phase.active)).sum ∧
      w.metrics.connectionsTotal.count .accepted = (w.conns.map (·.phase.begun)).sum ∧
      (∀ result reason, w.metrics.connectionsTotal.count (.finished result reason) =
        (w.conns.map (·.phase.finishedAs result reason)).sum) ∧
      ∀ err, w.serve = .returned err → w.metrics.activeConnections = 0 ∧
        w.metrics.connectionsTotal.count .accepted = w.conns.length
    else w.metrics.connectionsTotal = [] ∧ w.metrics.activeConnections = 0 := by
  have hcounted := run_counted hrun
  have hmetered := run_metered hrun
  have henabled := run_enabled hrun
  cases metricsEnabled with
  | false => exact hmetered.off henabled
  | true =>
    have hactive := hmetered.active henabled
    have haccepted := hmetered.accepted henabled
    refine ⟨hactive, haccepted, hmetered.finished henabled, fun err hret => ?_⟩
    have hended : ∀ c ∈ w.conns, c.phase.active = 0 ∧ c.phase.begun = 1 := by
      intro c hc
      obtain ⟨i, hi⟩ := List.mem_iff_getElem?.mp hc
      have hended := hcounted.ended_of_returned hret hi
      cases hc : c.phase <;> simp_all
    have hzero : (w.conns.map (·.phase.active)).sum = 0 := by
      rw [List.map_congr_left fun c hc => (hended c hc).1]
      simp
    have hall : (w.conns.map (·.phase.begun)).sum = w.conns.length := by
      rw [List.map_congr_left fun c hc => (hended c hc).2]
      simp
    exact ⟨by rw [hactive, hzero]; rfl, by rw [haccepted, hall]⟩

/-- Both counters and the gauge, in the middle of the visit. -/
theorem metrics_balance_visit :
    ∃ w, System.run step (boot openState true) (visit.take 9) = some w ∧
      w.metrics.activeConnections = (w.conns.map (·.phase.active)).sum ∧
      w.metrics.connectionsTotal.count .accepted = (w.conns.map (·.phase.begun)).sum := by
  have h := metrics_balance openState true (visit.take 9) _ rfl
  rw [if_pos rfl] at h
  exact ⟨_, rfl, h.1, h.2.1⟩

/-! ## One connection after the other -/

/-- The connections of one state, handled one after the other from the
limiter `l` on, leave the limiter `last`. -/
def Sequential (state : ServerState) : RateLimit.Limiter → List Entry → RateLimit.Limiter → Prop
  | l, [], last => RateLimit.Reordered l last
  | l, e :: es, last => ∃ l', RateLimit.Reordered l l' ∧
      e.handled = handleConn { state with clientRateLimit := l' } e.env ∧
      Sequential state e.handled.limiter es last

/-- One list of connections after the other. -/
theorem Sequential.append {state : ServerState} {l mid last : RateLimit.Limiter}
    {es ds : List Entry} (h : Sequential state l es mid) (hds : Sequential state mid ds last) :
    Sequential state l (es ++ ds) last := by
  induction es generalizing l with
  | nil =>
    cases ds with
    | nil => exact RateLimit.Reordered.trans h hds
    | cons d ds =>
      obtain ⟨l', hl', hrest⟩ := hds
      exact ⟨l', RateLimit.Reordered.trans h hl', hrest⟩
  | cons e es ih =>
    obtain ⟨l', hl', hhandled, hrest⟩ := h
    exact ⟨l', hl', hhandled, ih hrest⟩

/-- The connections that went through the limiter of a state. -/
def World.entries (w : World) (k : ℕ) : List Entry := w.log.filter (·.version = k)

/-- The outcome a connection has, or is bound to have with the answer it got. -/
def World.decided (w : World) (c : Connection) : Option (ℕ × Handled) :=
  match c.phase with
  | .answered k peer now admitted limiter =>
    (w.versions[k]?).map fun v => (k, peer.rest v.stored { c.env with now } admitted limiter)
  | phase => phase.outcome

theorem World.decided_of_not_through {w : World} {c : Connection} (h : c.phase.through = false) :
    w.decided c = none := by
  cases hp : c.phase <;> simp_all [decided]

theorem World.decided_of_outcome {w : World} {c : Connection} {o : ℕ × Handled}
    (h : c.phase.outcome = some o) : w.decided c = some o := by
  cases hp : c.phase <;> simp_all [decided]

/-- The stored states stay, but for their limiters, and so does the log. -/
structure Grows (w w' : World) : Prop where
  stored : ∀ (k : ℕ) (v : Version), w.versions[k]? = some v →
    ∃ v', w'.versions[k]? = some v' ∧ v'.stored = v.stored
  log : w.log <+: w'.log

namespace Grows

variable {w w' : World}

theorem of_eq (h : w'.versions = w.versions) (hlog : w.log <+: w'.log) : Grows w w' :=
  ⟨fun _ v hk => ⟨v, by rw [h, hk], rfl⟩, hlog⟩

/-- A limiter has changed. -/
theorem of_set {k : ℕ} {v : Version} {limiter : RateLimit.Limiter} (hv : w.versions[k]? = some v)
    (h : w'.versions = w.versions.set k { v with limiter }) (hlog : w.log <+: w'.log) :
    Grows w w' := by
  refine ⟨fun j u hj => ?_, hlog⟩
  rw [h]
  by_cases hjk : j = k
  · subst hjk
    obtain rfl : v = u := Option.some.inj (hv.symm.trans hj)
    exact ⟨_, System.getElem?_set_eq hv, rfl⟩
  · exact ⟨u, by rw [List.getElem?_set_ne (Ne.symm hjk), hj], rfl⟩

/-- A state was stored. -/
theorem of_concat {v : Version} (h : w'.versions = w.versions ++ [v]) (hlog : w.log <+: w'.log) :
    Grows w w' := by
  refine ⟨fun j u hj => ?_, hlog⟩
  have hlt := (List.getElem?_eq_some_iff.mp hj).1
  exact ⟨u, by rw [h, List.getElem?_append_left hlt, hj], rfl⟩

theorem lt_length (h : Grows w w') {k : ℕ} (hk : k < w.versions.length) :
    k < w'.versions.length := by
  obtain ⟨v', hv', -⟩ := h.stored k _ (List.getElem?_eq_getElem hk)
  exact (List.getElem?_eq_some_iff.mp hv').1

/-- What is decided stays decided. -/
theorem decided (h : Grows w w') {c : Connection} {o : ℕ × Handled}
    (ho : w.decided c = some o) : w'.decided c = some o := by
  unfold World.decided at ho ⊢
  cases hp : c.phase <;> simp only [hp] at ho ⊢ <;> try exact ho
  obtain ⟨v, hv, rfl⟩ := Option.map_eq_some_iff.mp ho
  obtain ⟨v', hv', hstored⟩ := h.stored _ v hv
  rw [hv', Option.map_some, hstored]

end Grows

/-- What is known of a connection: if it is through, it is in the log with
what was decided, and if its handler is about to ask, it was screened. -/
structure Known (w : World) (i : ℕ) (c : Connection) : Prop where
  listed : c.phase.through = true → ∃ e ∈ w.log, e.conn = i ∧
    w.decided c = some (e.version, e.handled) ∧ ∃ now, e.env = { c.env with now }
  screened : ∀ k peer now, c.phase = .clocked k peer now →
    ∃ v, w.versions[k]? = some v ∧ screen v.stored c.env = .ok peer
  loaded : ∀ k, c.phase.version = some k → c.since ≤ k + 1 ∧ k < w.versions.length
  since : 0 < c.since ∧ c.since - 1 < w.versions.length

theorem Known.grows {w w' : World} {i : ℕ} {c : Connection} (h : Known w i c) (hg : Grows w w') :
    Known w' i c where
  listed hc := by
    obtain ⟨e, he, hi, hd, henv⟩ := h.listed hc
    exact ⟨e, hg.log.subset he, hi, hg.decided hd, henv⟩
  screened k peer now hp := by
    obtain ⟨v, hv, hscreen⟩ := h.screened k peer now hp
    obtain ⟨v', hv', hstored⟩ := hg.stored k v hv
    exact ⟨v', hv', by rw [hstored, hscreen]⟩
  loaded k hk := ⟨(h.loaded k hk).1, hg.lt_length (h.loaded k hk).2⟩
  since := ⟨h.since.1, hg.lt_length h.since.2⟩

/-- What the log says. -/
structure Logged (w : World) : Prop where
  sequential : ∀ (k : ℕ) (v : Version), w.versions[k]? = some v →
    Sequential v.stored v.stored.clientRateLimit (w.entries k) v.limiter
  bounded : ∀ e ∈ w.log, e.version < w.versions.length
  once : (w.log.map (·.conn)).Nodup
  logged : ∀ e ∈ w.log, ∃ c, w.conns[e.conn]? = some c ∧ c.phase.through = true
  known : ∀ (i : ℕ) (c : Connection), w.conns[i]? = some c → Known w i c

theorem boot_logged (state : ServerState) (metricsEnabled : Bool) :
    Logged (boot state metricsEnabled) := by
  constructor
  case sequential =>
    intro k v hk
    obtain ⟨-, rfl⟩ : k = 0 ∧ Version.ofState state = v := by
      cases k <;> simp_all [boot]
    exact RateLimit.Reordered.refl _
  all_goals simp [boot]

namespace Logged

variable {w w' : World} {i : ℕ} {c : Connection} {phase : Phase}

/-- Who is through stays so when a connection moves. -/
theorem logged_set (h : Logged w) (hi : w.conns[i]? = some c)
    (hphase : c.phase.through = true → phase.through = true) {e : Entry} (he : e ∈ w.log) :
    ∃ d, (w.conns.set i { c with phase })[e.conn]? = some d ∧ d.phase.through = true := by
  obtain ⟨d, hd, hthrough⟩ := h.logged e he
  by_cases hei : e.conn = i
  · subst hei
    obtain rfl : c = d := Option.some.inj (hi.symm.trans hd)
    exact ⟨_, System.getElem?_set_eq hi, hphase hthrough⟩
  · exact ⟨d, by rw [List.getElem?_set_ne (Ne.symm hei), hd], hthrough⟩

/-- A connection moves, and the limiters stay as they are. -/
theorem goto (h : Logged w) (hi : w.conns[i]? = some c)
    (hconns : w'.conns = w.conns.set i { c with phase }) (hversions : w'.versions = w.versions)
    (hlog : w'.log = w.log) (hphase : c.phase.through = true → phase.through = true)
    (hknown : Known w i { c with phase }) : Logged w' := by
  have hgrows : Grows w w' := .of_eq hversions (hlog ▸ List.prefix_rfl)
  refine ⟨fun k v hk => ?_, fun e he => ?_, hlog ▸ h.once, fun e he => ?_, ?_⟩
  · rw [World.entries, hlog]
    exact h.sequential k v (hversions ▸ hk)
  · exact hgrows.lt_length (h.bounded e (hlog ▸ he))
  · exact hconns ▸ h.logged_set hi hphase (hlog ▸ he)
  · rw [hconns]
    exact System.forall_set (fun j d hj => (h.known j d hj).grows hgrows) (hknown.grows hgrows)

/-- **A connection comes through**: its outcome is decided, and is what
`handleConn` does with it now. -/
theorem enter {k : ℕ} {now : ℤ} {v : Version} {handled : Handled} (h : Logged w)
    (hi : w.conns[i]? = some c) (hthrough : c.phase.through = false)
    (hv : w.versions[k]? = some v) (hhandled : handled = handleConn v.state { c.env with now })
    (hloaded : c.phase.version = some k)
    (hconns : w'.conns = w.conns.set i { c with phase })
    (hversions : w'.versions = w.versions.set k { v with limiter := handled.limiter })
    (hlog : w'.log = w.log ++ [⟨i, k, { c.env with now }, handled⟩])
    (hphase : phase.through = true) (hversion : phase.version = some k)
    (hdecided : w'.decided { c with phase } = some (k, handled)) : Logged w' := by
  have hfresh : ∀ e ∈ w.log, e.conn ≠ i := by
    rintro e he rfl
    obtain ⟨d, hd, hd'⟩ := h.logged e he
    obtain rfl : c = d := Option.some.inj (hi.symm.trans hd)
    rw [hthrough] at hd'
    cases hd'
  have hgrows : Grows w w' := .of_set hv hversions (hlog ▸ List.prefix_append ..)
  have hbefore := (h.known i c hi).grows hgrows
  refine ⟨fun j u hj => ?_, fun e he => ?_, ?_, fun e he => ?_, ?_⟩
  · rw [World.entries, hlog, List.filter_append]
    rw [hversions] at hj
    rcases System.getElem?_set_cases hj with ⟨rfl, rfl⟩ | ⟨hne, hj⟩
    · simp only [List.filter_cons, List.filter_nil, decide_true, if_true]
      exact (h.sequential j v hv).append ⟨v.limiter, .refl _, hhandled, .refl handled.limiter⟩
    · simp only [List.filter_cons, List.filter_nil, decide_eq_false hne.symm, Bool.false_eq_true,
        if_false, List.append_nil]
      exact h.sequential j u hj
  · rcases List.mem_append.mp (hlog ▸ he) with he | he
    · exact hgrows.lt_length (h.bounded e he)
    · rw [List.mem_singleton.mp he]
      exact (hbefore.loaded k hloaded).2
  · rw [hlog, List.map_append]
    refine List.Nodup.append h.once (List.nodup_singleton _) fun j hj hji => ?_
    obtain ⟨e, he, rfl⟩ := List.mem_map.mp hj
    exact hfresh e he (List.mem_singleton.mp hji)
  · rw [hconns]
    rcases List.mem_append.mp (hlog ▸ he) with he | he
    · exact h.logged_set hi (fun _ => hphase) he
    · rw [List.mem_singleton.mp he]
      exact ⟨_, System.getElem?_set_eq hi, hphase⟩
  · rw [hconns]
    refine System.forall_set (fun j d hj => (h.known j d hj).grows hgrows)
      ⟨fun _ => ⟨_, hlog ▸ List.mem_append_right _ (List.mem_singleton_self _), rfl, hdecided, now,
        rfl⟩,
        fun m peer now hp => ?_, fun m hm => ?_, hbefore.since⟩
    · obtain rfl : phase = .clocked m peer now := hp
      cases hphase
    · exact hbefore.loaded m (hloaded.trans (hversion.symm.trans hm))

/-- A client is refused before the limiter. -/
theorem refuse {k : ℕ} {v : Version} {events : List Event} {reason : Reason} (h : Logged w)
    (hi : w.conns[i]? = some c) (hp : c.phase = .loaded k) (hv : w.versions[k]? = some v)
    (hscreen : screen v.state c.env = .error (events, reason)) :
    Logged (w.refuse i c k v events reason) := by
  have hhandled := handleConn_of_refused hscreen
  have hset : w.versions.set k v = w.versions := by
    obtain ⟨hlt, rfl⟩ := List.getElem?_eq_some_iff.mp hv
    exact List.set_getElem_self hlt
  refine h.enter hi (by simp [hp]) hv rfl (by simp [hp]) rfl ?_ rfl rfl rfl
    (World.decided_of_outcome ?_)
  · rw [hhandled]
    exact hset.symm
  · rw [hhandled]
    rfl

/-- A client asks the limiter of its state. -/
theorem allow {k : ℕ} {peer : Peer} {now : ℤ} {v : Version} (h : Logged w)
    (hi : w.conns[i]? = some c) (hp : c.phase = .clocked k peer now)
    (hv : w.versions[k]? = some v) : Logged (w.allow i c k peer now v) := by
  obtain ⟨u, hu, hscreen⟩ := (h.known i c hi).screened k peer now hp
  obtain rfl : v = u := Option.some.inj (hv.symm.trans hu)
  -- who the client is depends on neither the limiter nor the clock
  have hscreen : screen v.state { c.env with now } = .ok peer := hscreen
  have hhandled := handleConn_of_screened hscreen
  refine h.enter hi (by simp [hp]) hv rfl (by simp [hp]) rfl ?_ rfl rfl rfl ?_
  · rw [hhandled, limiter_rest]
    rfl
  · rw [hhandled, Peer.rest_state]
    simp only [World.decided, World.allow, System.getElem?_set_eq hv, Option.map_some]
    rfl

/-- A limiter's table is visited in another order. -/
theorem reorder {k : ℕ} {v : Version} {limiter : RateLimit.Limiter} (h : Logged w)
    (hv : w.versions[k]? = some v) (hre : RateLimit.Reordered v.limiter limiter) :
    Logged { w with versions := w.versions.set k { v with limiter } } where
  sequential := System.forall_set h.sequential
    (List.append_nil (w.entries k) ▸
      (h.sequential k v hv).append (show Sequential _ _ [] _ from hre))
  bounded e he := by simpa using h.bounded e he
  once := h.once
  logged := h.logged
  known i c hi := (h.known i c hi).grows (.of_set hv rfl List.prefix_rfl)

/-- A new state begins with its own limiter. -/
theorem store (h : Logged w) (state : ServerState) :
    Logged { w with versions := w.versions ++ [.ofState state] } where
  sequential := by
    refine System.forall_concat h.sequential ?_
    have hnil : w.entries w.versions.length = [] := by
      refine List.filter_eq_nil_iff.mpr fun e he => ?_
      have hlt := h.bounded e he
      simp only [decide_eq_true_eq]
      omega
    change Sequential _ _ (w.entries w.versions.length) _
    rw [hnil]
    exact RateLimit.Reordered.refl _
  bounded e he := by
    have hlt := h.bounded e he
    simp only [List.length_append, List.length_singleton]
    omega
  once := h.once
  logged := h.logged
  known i c hi := (h.known i c hi).grows (.of_concat rfl List.prefix_rfl)

/-- A client comes in. -/
theorem accept (h : Logged w) (hne : 0 < w.versions.length) (env : ConnEnv) (serve : Serve) :
    Logged { w with
      conns := w.conns ++ [⟨env, w.versions.length, .held⟩]
      serve } where
  sequential := h.sequential
  bounded := h.bounded
  once := h.once
  logged e he := by
    obtain ⟨c, hc, hthrough⟩ := h.logged e he
    have hlt := (List.getElem?_eq_some_iff.mp hc).1
    exact ⟨c, by rw [List.getElem?_append_left hlt, hc], hthrough⟩
  known := by
    refine System.forall_concat (fun j d hj => (h.known j d hj).grows (.of_eq rfl List.prefix_rfl))
      ⟨by simp, by simp, by simp, hne, ?_⟩
    dsimp only
    omega

end Logged

/-- A handler that is not through goes on to where it is not either. -/
theorem Known.goto {w : World} {i : ℕ} {c : Connection} {phase : Phase} (h : Known w i c)
    (hphase : phase.through = false)
    (hscreened : ∀ k peer now, phase = .clocked k peer now →
      ∃ v, w.versions[k]? = some v ∧ screen v.stored c.env = .ok peer)
    (hloaded : ∀ k, phase.version = some k → c.since ≤ k + 1 ∧ k < w.versions.length) :
    Known w i { c with phase } where
  listed hc := by
    rw [hphase] at hc
    cases hc
  screened := hscreened
  loaded := hloaded
  since := h.since

/-- A handler that is through keeps its outcome. -/
theorem Known.keep {w : World} {i : ℕ} {c : Connection} {k : ℕ} {handled : Handled} {phase : Phase}
    (h : Known w i c) (hc : w.decided c = some (k, handled)) (hversion : c.phase.version = some k)
    (hphase : phase.outcome = some (k, handled)) : Known w i { c with phase } := by
  have hthrough : c.phase.through = true := by
    by_contra hno
    rw [World.decided_of_not_through (by simpa using hno)] at hc
    cases hc
  obtain ⟨e, he, hi, hd, henv⟩ := h.listed hthrough
  refine ⟨fun _ => ⟨e, he, hi, ?_, henv⟩, fun k peer now hp => ?_, fun j hj => ?_, h.since⟩
  · rw [World.decided_of_outcome hphase, ← hc, hd]
  · obtain rfl : phase = .clocked k peer now := hp
    cases hphase
  · refine h.loaded j (hversion.trans (Eq.trans ?_ hj))
    cases phase <;> simp_all

theorem Works.logged {w w' : World} {i : ℕ} {c : Connection} (hworks : Works w i c w')
    (hi : w.conns[i]? = some c) (h : Logged w) : Logged w' := by
  have hknown := h.known i c hi
  cases hworks with
  | accepts hp => exact h.goto hi rfl rfl rfl (by simp [hp]) (hknown.goto rfl (by simp) (by simp))
  | loads hp =>
    have hsince := hknown.since
    refine h.goto hi rfl rfl rfl (by simp [hp]) (hknown.goto rfl (by simp) fun k hk => ?_)
    obtain rfl : w.versions.length - 1 = k := by simpa using hk
    omega
  | looks k v peer hp hv hscreen =>
    refine h.goto hi rfl rfl rfl (by simp [hp]) (hknown.goto rfl ?_
      (by simpa [hp] using hknown.loaded))
    rintro _ _ _ ⟨⟩
    exact ⟨v, hv, hscreen⟩
  | asks k peer now v hp hv => exact h.allow hi hp hv
  | refuses k v events reason hp hv hscreen => exact h.refuse hi hp hv hscreen
  | records k peer now admitted limiter v hp hv =>
    refine h.goto hi rfl rfl rfl (by simp) (hknown.keep ?_ (by simp [hp]) rfl)
    rw [World.decided, hp]
    simp only [hv, Option.map_some, Peer.rest_state]
  | closes k handled hp | leaves k handled hp =>
    exact h.goto hi rfl rfl rfl (by simp)
      (hknown.keep (World.decided_of_outcome (by rw [hp]; rfl)) (by simp [hp]) rfl)

/-- A step only adds to the states and to the log. -/
theorem step_logged {w w' : World} {a : Action} (hstep : Step w a w') (hc : Counted w)
    (hne : 0 < w.versions.length) (h : Logged w) : Logged w' ∧ Grows w w' := by
  cases hstep with
  | works i c w' hi hworks =>
    refine ⟨hworks.logged hi h, ?_⟩
    cases hworks with
    | asks k peer now v hp hv => exact .of_set hv rfl (List.prefix_append ..)
    | refuses => exact .of_eq rfl (List.prefix_append ..)
    | _ => exact .of_eq rfl List.prefix_rfl
  | accepts env hs hl => exact ⟨h.accept hne env _, .of_eq rfl List.prefix_rfl⟩
  | spawns i c hs hi =>
    have hheld := hc.held_of_holding hs hi
    exact ⟨h.goto hi rfl rfl rfl (by simp [hheld]) ((h.known i c hi).goto rfl (by simp) (by simp)),
      .of_eq rfl List.prefix_rfl⟩
  | reorders k v limiter hv hre => exact ⟨h.reorder hv hre, .of_set hv rfl List.prefix_rfl⟩
  | reloads env call v state hv hrun => exact ⟨h.store state, .of_concat rfl List.prefix_rfl⟩
  | _ =>
    exact ⟨⟨h.sequential, h.bounded, h.once, h.logged,
      fun i c hi => (h.known i c hi).grows (.of_eq rfl List.prefix_rfl)⟩,
      .of_eq rfl List.prefix_rfl⟩

/-- What holds of a reachable world, and of those that follow it. -/
structure Ordered (w : World) : Prop where
  counted : Counted w
  nonempty : 0 < w.versions.length
  logged : Logged w

theorem step_ordered {w w' : World} {a : Action} (h : Ordered w) (hs : step w a = some w') :
    Ordered w' ∧ w.log <+: w'.log := by
  obtain ⟨hlogged, hgrows⟩ := step_logged (.of_step hs) h.counted h.nonempty h.logged
  exact ⟨⟨step_counted (.of_step hs) h.counted, hgrows.lt_length h.nonempty, hlogged⟩, hgrows.log⟩

theorem run_ordered {state : ServerState} {metricsEnabled : Bool} {actions : List Action}
    {w : World} (hrun : System.run step (boot state metricsEnabled) actions = some w) : Ordered w :=
  System.run_invariant_of_step (fun _ _ _ hI hs => (step_ordered hI hs).1)
    ⟨boot_counted state metricsEnabled, Nat.one_pos, boot_logged state metricsEnabled⟩ hrun

/-- **The handlers might as well run one after the other.** Each connection
with an outcome stands in the log exactly once, with that outcome and the
state its handler loaded, which is no older than the one that was current when
it was accepted. For each stored state, handling the connections of the log
one after the other, from the limiter it was stored with, gives every one of
them the outcome of the log and leaves the limiter as it is. The log only
grows, so that order is one in which the connections could have come. -/
theorem connections_linearise (state : ServerState) (metricsEnabled : Bool) (actions : List Action)
    (w : World) (hrun : System.run step (boot state metricsEnabled) actions = some w) :
    (∀ (k : ℕ) (v : Version), w.versions[k]? = some v →
      Sequential v.stored v.stored.clientRateLimit (w.entries k) v.limiter) ∧
    (w.log.map (·.conn)).Nodup ∧
    (∀ (i : ℕ) (c : Connection), w.conns[i]? = some c → ∀ k h, c.phase.outcome = some (k, h) →
      c.since ≤ k + 1 ∧ ∃ now, (⟨i, k, { c.env with now }, h⟩ : Entry) ∈ w.log) ∧
    ∀ more w', System.run step w more = some w' → w.log <+: w'.log := by
  have hord := run_ordered hrun
  refine ⟨hord.logged.sequential, hord.logged.once, fun i c hi k h ho => ?_,
    fun more w' hmore => ?_⟩
  · have hknown := hord.logged.known i c hi
    obtain ⟨hversion, hthrough⟩ : c.phase.version = some k ∧ c.phase.through = true := by
      cases hp : c.phase <;> simp_all
    refine ⟨(hknown.loaded k hversion).1, ?_⟩
    obtain ⟨e, he, rfl, hout, now, henv⟩ := hknown.listed hthrough
    obtain ⟨rfl, rfl⟩ : k = e.version ∧ h = e.handled := by
      simpa using (World.decided_of_outcome ho).symm.trans hout
    exact ⟨now, henv ▸ he⟩
  · exact System.run_relation (I := Ordered) (R := fun w w' => w.log <+: w'.log)
      (fun _ => List.prefix_rfl)
      (fun _ _ _ h₁ h₂ => h₁.trans h₂) (fun _ _ _ hI _ hs => step_ordered hI hs) more w w' hord
      (System.meets_true more w) hmore

/-- Two clients, the second of which reaches the limiter first. -/
def overtaking : List Action :=
  [.listen, .accept paddedEnv, .serve, .accept paddedEnv, .serve, .conn 0, .conn 1, .conn 0] ++
    List.replicate 3 (.conn 1) ++ List.replicate 2 (.conn 0)

/-- They are handled in the order of the limiter. -/
theorem connections_linearise_overtaking :
    ∃ w, System.run step (boot openState true) overtaking = some w ∧
      w.log.map (·.conn) = [1, 0] ∧ ∀ v, w.versions[0]? = some v →
        Sequential v.stored v.stored.clientRateLimit (w.entries 0) v.limiter :=
  ⟨_, rfl, rfl, (connections_linearise openState true overtaking _ rfl).1 0⟩

/-! ## The way out -/

/-- The steps that nobody outside has to make possible, given that the work
of each handler ends. That is an assumption about its client as well as about
its backend: `proxy` has to return, and the header of a trusted proxy, which
is read without a deadline, has to come. -/
def due (w : World) : Action → Bool
  | .conn i => (w.conns[i]?).any fun c => c.phase.live = 1
  | .acceptFails .closed =>
    match w.serve with
    | .accepting => true
    | _ => false
  | .serve =>
    match w.serve with
    | .holding _ => true
    | .draining _ => w.wg = 0
    | _ => false
  | _ => false

/-- How many steps a connection has before it. -/
@[simp] def Phase.rank : Phase → ℕ
  | held => 8
  | started => 7
  | counted => 6
  | loaded _ => 5
  | clocked _ _ _ => 4
  | answered _ _ _ _ _ => 3
  | recorded _ _ => 2
  | closed _ _ => 1
  | done _ _ => 0

@[simp] def Serve.rank : Serve → ℕ
  | idle => 4
  | holding _ => 3
  | accepting => 2
  | draining _ => 1
  | returned _ => 0

def World.rank (w : World) : ℕ := (w.conns.map (·.phase.rank)).sum + w.serve.rank

/-- `Serve` was called and its listener is closed. -/
structure Closing (w : World) : Prop where
  ordered : Ordered w
  serving : w.serve ≠ .idle
  closed : w.listenerClosed = true

namespace Closing

variable {w w' : World} {a : Action}

theorem works_rank {i : ℕ} {c : Connection} (hi : w.conns[i]? = some c) (h : Works w i c w') :
    w'.rank < w.rank ∧ w'.serve = w.serve := by
  have hsum := sum_moved Phase.rank hi
  have hmove : ∀ phase : Phase, w'.conns = w.conns.set i { c with phase } →
      w'.serve = w.serve → phase.rank < c.phase.rank → w'.rank < w.rank ∧ w'.serve = w.serve := by
    intro phase hconns hserve hlt
    have hphase := hsum phase
    simp only [World.rank, hconns, hserve]
    exact ⟨by omega, trivial⟩
  cases h with
  | accepts hp | loads hp | looks _ _ _ hp | asks _ _ _ _ hp | closes _ _ hp | leaves _ _ hp =>
    exact hmove _ rfl rfl (by simp [hp])
  | refuses _ _ _ _ hp | records _ _ _ _ _ _ hp => exact hmove _ rfl rfl (by simp [hp])

theorem step_rank (hc : Closing w) (h : Step w a w') :
    w'.serve ≠ .idle ∧ w'.rank ≤ w.rank ∧ (due w a = true → w'.rank < w.rank) := by
  have hserving := hc.serving
  cases h with
  | listens hs => exact absurd hs hserving
  | accepts env hs hl =>
    have hclosed := hc.closed
    simp [hl] at hclosed
  | drains e err hs =>
    have hlt : World.rank { w with serve := .draining err } < w.rank := by
      simp [World.rank, hs]
    exact ⟨by simp, hlt.le, fun _ => hlt⟩
  | spawns i c hs hi =>
    have hheld := hc.ordered.counted.held_of_holding hs hi
    have hsum := sum_moved Phase.rank hi .started
    have hbefore : c.phase.rank = 8 := by rw [hheld]; rfl
    have hafter : Phase.started.rank = 7 := rfl
    have hlt : World.rank { w.goto i c .started with wg := w.wg + 1, serve := .accepting } <
        w.rank := by
      simp only [World.rank, World.goto, hs, Serve.rank]
      omega
    exact ⟨by simp, hlt.le, fun _ => hlt⟩
  | returns err hs hwg =>
    have hlt : World.rank { w with serve := .returned err } < w.rank := by
      simp [World.rank, hs]
    exact ⟨by simp, hlt.le, fun _ => hlt⟩
  | works i c w' hi hworks =>
    obtain ⟨hlt, hserve⟩ := works_rank hi hworks
    exact ⟨hserve ▸ hserving, hlt.le, fun _ => hlt⟩
  | retries | tick | cancel | watches | reorders | reloads | keeps | shutdown | shuts | waited =>
    exact ⟨hserving, Nat.le_refl _, by simp [due]⟩

theorem step (hc : Closing w) (hs : Serving.step w a = some w') : Closing w' :=
  ⟨(step_ordered hc.ordered hs).1, (hc.step_rank (.of_step hs)).1,
    (conns_of_closed hc.closed (.of_step hs)).1⟩

/-- A handler can always go on. -/
theorem enabled_of_live (hc : Closing w) {i : ℕ} {c : Connection} (hi : w.conns[i]? = some c)
    (hlive : c.phase.live = 1) : ∃ a w', due w a = true ∧ Serving.step w a = some w' := by
  refine ⟨.conn i, ?_⟩
  have hdue : due w (.conn i) = true := by
    rw [due, hi]
    exact decide_eq_true hlive
  have hstored : ∀ k, c.phase.version = some k → ∃ v, w.versions[k]? = some v := fun k hk =>
    ⟨_, List.getElem?_eq_getElem ((hc.ordered.logged.known i c hi).loaded k hk).2⟩
  cases hp : c.phase with
  | held | done => simp [hp] at hlive
  | loaded k =>
    obtain ⟨v, hv⟩ := hstored k (by rw [hp]; rfl)
    rcases hscreen : screen v.state c.env with ⟨events, reason⟩ | peer <;>
      simp [hdue, Serving.step, hi, connStep, hp, hv, hscreen]
  | clocked k | answered k =>
    obtain ⟨v, hv⟩ := hstored k (by rw [hp]; rfl)
    simp [hdue, Serving.step, hi, connStep, hp, hv]
  | started | counted | recorded | closed =>
    simp [hdue, Serving.step, hi, connStep, hp]

/-- As long as `Serve` has not returned, something is due. -/
theorem enabled (hc : Closing w) (hret : ∀ err, w.serve ≠ .returned err) :
    ∃ a w', due w a = true ∧ Serving.step w a = some w' := by
  cases hs : w.serve with
  | idle => exact absurd hs hc.serving
  | returned err => exact absurd hs (hret err)
  | accepting =>
    exact ⟨.acceptFails .closed, by simp [due, Serving.step, hs, hc.closed]⟩
  | holding i =>
    obtain ⟨c, hi, -⟩ := hc.ordered.counted.holds i hs
    exact ⟨.serve, by simp [due, Serving.step, serveStep, hs, hi]⟩
  | draining err =>
    by_cases hwg : w.wg = 0
    · exact ⟨.serve, by simp [due, Serving.step, serveStep, hs, hwg]⟩
    · -- the wait group counts somebody
      by_cases hall : ∀ c ∈ w.conns, c.phase.live = 0
      · have hsum := hc.ordered.counted.wg
        rw [List.map_congr_left hall] at hsum
        simp at hsum
        exact absurd hsum hwg
      · push Not at hall
        obtain ⟨c, hmem, hlive⟩ := hall
        obtain ⟨i, hi⟩ := List.mem_iff_getElem?.mp hmem
        exact hc.enabled_of_live hi (by cases hp : c.phase <;> simp_all)

theorem settling : System.Settling Serving.step (fun _ _ => True) (fun w a => due w a = true)
    Closing (fun w => ∃ err, w.serve = .returned err) World.rank where
  keeps _ _ _ hc hs := hc.step hs
  never_raises _ _ _ hc _ hs := (hc.step_rank (.of_step hs)).2.1
  lowers _ _ _ hc hdue hs := (hc.step_rank (.of_step hs)).2.2 hdue
  enabled _ hc hgoal := hc.enabled fun err hs => hgoal ⟨err, hs⟩

theorem rank_le (w : World) : w.rank ≤ 8 * w.conns.length + 4 := by
  have hsum := List.sum_le_card_nsmul (w.conns.map (·.phase.rank)) 8 fun x hx => by
    obtain ⟨c, -, rfl⟩ := List.mem_map.mp hx
    cases c.phase <;> simp
  have hserve : w.serve.rank ≤ 4 := by cases w.serve <;> simp
  simp only [List.length_map, Nat.nsmul_eq_mul] at hsum
  simp only [World.rank]
  omega

end Closing

/-- **Once its listener is closed, `Serve` returns**, if the work of each
handler ends: whatever reloads, shutdowns and other steps come between, the
steps towards it are at most eight for each connection and four more, and
they alone lead there. The wait group does not keep it. -/
theorem server_stops (state : ServerState) (metricsEnabled : Bool) (actions : List Action)
    (w : World) (hrun : System.run step (boot state metricsEnabled) actions = some w)
    (hserving : w.serve ≠ .idle) (hclosed : w.listenerClosed = true) :
    (∀ more w', System.run step w more = some w' →
      System.dueSteps step (fun w a => due w a = true) w more ≤ 8 * w.conns.length + 4) ∧
    ∃ more w' err, System.Meets step (fun w a => due w a = true) w more ∧
      System.run step w more = some w' ∧ w'.serve = .returned err := by
  have hclosing : Closing w := ⟨run_ordered hrun, hserving, hclosed⟩
  obtain ⟨hbound, more, w', hmeets, hmore, err, hret⟩ :=
    Closing.settling.settles hclosing (Closing.rank_le w)
  exact ⟨hbound, more, w', err, hmeets, hmore, hret⟩

/-- From the middle of the visit, with the listener just closed. -/
theorem server_stops_visit :
    ∃ w, System.run step (boot openState true) (visit.take 5) = some w ∧
      ∃ more w' err, System.Meets step (fun w a => due w a = true) w more ∧
        System.run step w more = some w' ∧ w'.serve = .returned err :=
  ⟨_, rfl, (server_stops openState true (visit.take 5) _ rfl (by simp) rfl).2⟩

end Serving

end Proxy

end McRouter
