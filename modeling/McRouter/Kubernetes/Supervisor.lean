import McRouter.Kubernetes.Watch
import Mathlib.Data.Rat.Floor

/-!
# The watch supervisor

`kubernetes/watch_supervisor.go`. The supervisor runs the one-shot watch
again and again. Once a first sync was seen, an error of the runner is
followed by a backoff sleep and a new run; a cancellation ends the
supervisor without an error.

`isWatchNormalStop` reads "cancellation" off the error, and takes
`context.DeadlineExceeded` for one too. A list or watch call that timed out
wraps just that, so **the supervisor keeps going exactly as long as no run
times out** (`gives_up_only_on_cancellation_iff`).
-/

namespace McRouter

namespace Kubernetes

open Strings

/-- `BackoffPolicy`. -/
structure BackoffPolicy where
  initialDelay : Duration
  maxDelay : Duration
  factor : ℚ
  jitter : ℚ
deriving DecidableEq

namespace BackoffPolicy

/-- `withDefaults`. -/
def withDefaults (p : BackoffPolicy) : BackoffPolicy :=
  let initialDelay := if p.initialDelay ≤ 0 then second else p.initialDelay
  let maxDelay := if p.maxDelay ≤ 0 then 30 * second else p.maxDelay
  { initialDelay := initialDelay
    maxDelay := if maxDelay < initialDelay then initialDelay else maxDelay
    factor := if p.factor ≤ 1 then 2 else p.factor
    jitter := if p.jitter < 0 then 0 else if 1 < p.jitter then 1 else p.jitter }

/-- `Delay`, with the number `rand.Float64` draws. The numbers are exact here:
the rounding of `float64` is left out, and so is what `time.Duration` makes of
a number past its range, which takes a `MaxDelay` that `float64` rounds up to
`2 ^ 63` nanoseconds. -/
def delay (p : BackoffPolicy) (attempt : ℕ) (draw : ℚ) : Duration :=
  let p := p.withDefaults
  let attempt := if attempt < 1 then 1 else attempt
  let capped := min (p.initialDelay * p.factor ^ (attempt - 1)) p.maxDelay
  let delay : Duration := capped.floor
  if p.jitter = 0 ∨ delay ≤ 0 then delay
  else
    let spread := delay * p.jitter
    let jittered := delay - spread + draw * (delay + spread - (delay - spread))
    (min (max jittered 0) p.maxDelay).floor

end BackoffPolicy

/-- What a round of the `select` in `runOnce` takes. `done` says whether
`drainSynced` finds a token after the runner returned. -/
inductive Observation where
  | contextDone
  | synced
  | done (pending : Bool)
deriving DecidableEq, Repr

/-- `runOnce`: whether this run synced, once the runner has returned. -/
def runOnce : List Observation → Bool → Option Bool
  | [], _ => none
  | .contextDone :: _, synced => some synced
  | .synced :: rest, _ => runOnce rest true
  | .done pending :: _, synced => some (synced || pending)

/-- `isWatchNormalStop`, by whether the context is done. -/
def isWatchNormalStop (ctxDone : Bool) (err : Option Err) : Bool :=
  ctxDone || err.any fun e => e.is .contextCanceled || e.is .contextDeadlineExceeded

/-- What one round of `Run` meets: the runner and its error, whether the
context is done when that error is looked at and after the sleep, whether
`ready` is closed by then, and what the sleeper returns. -/
structure Round where
  observations : List Observation
  err : Option Err
  ctxDone : Bool := false
  readyClosed : Bool := false
  draw : ℚ := 0
  sleepErr : Option Err := none
  ctxAfterSleep : Bool := false
  /-- A context that is done stays done. -/
  done_observed : Observation.contextDone ∈ observations → ctxDone = true := by decide
  /-- A context that is done stays done. -/
  done_stays : ctxDone = true → ctxAfterSleep = true := by decide
  /-- A `Sleeper` returns early only when the context is cancelled. -/
  sleeps : sleepErr ≠ none → ctxAfterSleep = true := by decide

/-- The loop variables of `Run`. -/
structure SupervisorState where
  initialSyncSeen : Bool
  attempt : ℕ
deriving DecidableEq

/-- How a round ends. -/
inductive RoundEnd where
  /-- The runner has not returned. -/
  | running
  /-- `Run` has returned. -/
  | returned (err : Option Err)
  /-- The next run starts. -/
  | next (s : SupervisorState)
deriving DecidableEq

/-- What `Run` calls between two runs. -/
inductive RetryCall where
  | onRetry (err : Err)
  | sleep (delay : Duration)
deriving DecidableEq

def RetryCall.delay? : RetryCall → Option Duration
  | onRetry _ => none
  | sleep delay => some delay

namespace BackoffPolicy

variable (p : BackoffPolicy) (hooked : Bool)

/-- One round of the loop in `Run`: its calls, and how it ends. `hooked` says
whether `onRetry` is set. A sync within the run resets the attempts. -/
def round (s : SupervisorState) (r : Round) : List RetryCall × RoundEnd :=
  match runOnce r.observations false with
  | none => ([], .running)
  | some syncedThisRun =>
    let attempt := if syncedThisRun then 0 else s.attempt
    if isWatchNormalStop r.ctxDone r.err then ([], .returned none)
    else match r.err with
      | none => ([], .returned none)
      | some err =>
        if !syncedThisRun && !s.initialSyncSeen && !r.readyClosed then ([], .returned (some err))
        else
          let attempt := attempt + 1
          ((if hooked then [.onRetry err] else []) ++ [.sleep (p.delay attempt r.draw)],
            match r.sleepErr with
            | none => .next ⟨s.initialSyncSeen || syncedThisRun, attempt⟩
            | some sleepErr =>
              if isWatchNormalStop r.ctxAfterSleep (some sleepErr) then .returned none
              else .returned (some (sleepErr.prefixed (go "sleep before Kubernetes watch retry"))))

/-- A round that was started, and what came of it. -/
structure Entry where
  before : SupervisorState
  round : Round
  calls : List RetryCall
  result : RoundEnd

/-- The sleep that a round asks for. -/
def Entry.slept (e : Entry) : Option Duration := e.calls.findSome? RetryCall.delay?

/-- The rounds `Run` gets to. -/
def trace : SupervisorState → List Round → List Entry
  | _, [] => []
  | s, r :: rounds =>
    let out := p.round hooked s r
    ⟨s, r, out.1, out.2⟩ :: match out.2 with
      | .next s' => trace s' rounds
      | _ => []

/-- `Run`, by whether `ready` is closed when it starts. -/
def run (ready : Bool) (rounds : List Round) : List Entry := p.trace hooked ⟨ready, 0⟩ rounds

end BackoffPolicy

/-! ## What the supervisor is for -/

open BackoffPolicy (Entry)

/-- The run of this round synced. -/
def Entry.synced (e : Entry) : Prop := runOnce e.round.observations false = some true

/-- By the end of round `i` a run has synced, or `ready` is closed. -/
def SyncedBy (ready : Bool) (entries : List Entry) (i : ℕ) : Prop :=
  ready = true ∨ (∃ j ≤ i, ∃ e, entries[j]? = some e ∧ Entry.synced e) ∨
    ∃ e, entries[i]? = some e ∧ e.round.readyClosed = true

/-- **The supervisor gives up only on cancellation.** Once synced, a round
whose runner has returned ends `Run` without error only when the context is
done, the runner returned nil or reported a cancellation; every other error
is followed by a backoff sleep, and by a new run unless the context ends the
sleep. -/
def GivesUpOnlyOnCancellation (p : BackoffPolicy) (ready : Bool) (entries : List Entry) : Prop :=
  ∀ i e, entries[i]? = some e → SyncedBy ready entries i → e.result ≠ .running →
    (e.result = .returned none → e.round.ctxAfterSleep = true ∨ e.round.err = none ∨
      ∃ err, e.round.err = some err ∧ err.is .contextCanceled = true) ∧
    ∀ err, e.round.err = some err → e.round.ctxDone = false → err.is .contextCanceled = false →
      (∃ attempt, 1 ≤ attempt ∧ e.slept = some (p.delay attempt e.round.draw)) ∧
      (e.round.ctxAfterSleep = false → ∃ s, e.result = .next s)

/-- No run that ended after the first sync, with the context alive, timed
out. -/
def NoTimeout (ready : Bool) (entries : List Entry) : Prop :=
  ∀ i e err, entries[i]? = some e → SyncedBy ready entries i → e.result ≠ .running →
    e.round.ctxDone = false → e.round.err = some err → err.is .contextDeadlineExceeded = true →
      err.is .contextCanceled = true

namespace BackoffPolicy

variable {p : BackoffPolicy} {hooked : Bool} {s : SupervisorState} {r : Round}

theorem Entry.slept_of_no_calls {e : Entry} (h : e.calls = []) : e.slept = none := by
  rw [slept, h]
  rfl

theorem Entry.slept_of_calls {e : Entry} {err : Err} {delay : Duration}
    (h : e.calls = (if hooked then [.onRetry err] else []) ++ [.sleep delay]) :
    e.slept = some delay := by
  rw [slept, h]
  cases hooked <;> rfl

/-- **What a synced round does with an error.** -/
theorem round_of_err (hooked : Bool) {err : Err} {synced : Bool}
    (hrun : runOnce r.observations false = some synced) (herr : r.err = some err)
    (hctx : r.ctxDone = false)
    (hsync : synced = true ∨ s.initialSyncSeen = true ∨ r.readyClosed = true) :
    if err.is .contextCanceled || err.is .contextDeadlineExceeded then
      p.round hooked s r = ([], .returned none)
    else (∃ attempt, 1 ≤ attempt ∧ (p.round hooked s r).1 =
        (if hooked then [.onRetry err] else []) ++ [.sleep (p.delay attempt r.draw)]) ∧
      (r.ctxAfterSleep = false → ∃ s', (p.round hooked s r).2 = .next s') := by
  have hstay : (!synced && !s.initialSyncSeen && !r.readyClosed) = false := by
    rcases hsync with h | h | h <;> simp [h]
  split
  · rename_i hstop
    simp only [round, hrun, herr, isWatchNormalStop, hctx, Bool.false_or, Option.any_some, hstop,
      if_true]
  · rename_i hstop
    simp only [round, hrun, herr, isWatchNormalStop, hctx, Bool.false_or, Option.any_some, hstop,
      hstay, Bool.false_eq_true, if_false]
    refine ⟨⟨_, Nat.le_add_left 1 _, rfl⟩, fun hafter => ?_⟩
    -- the sleeper cannot have returned early
    have hsleep : r.sleepErr = none := by
      by_contra h
      rw [r.sleeps h] at hafter
      cases hafter
    simp only [hsleep]
    exact ⟨_, rfl⟩

/-- **When a new run starts**: after an error that is no cancellation, once
synced, and a sleep that was not cut short. It starts with the syncs of
before and of this round. -/
theorem round_next {s' : SupervisorState} (h : (p.round hooked s r).2 = .next s') :
    ∃ synced err, runOnce r.observations false = some synced ∧ r.err = some err ∧
      isWatchNormalStop r.ctxDone r.err = false ∧
      (!synced && !s.initialSyncSeen && !r.readyClosed) = false ∧ r.sleepErr = none ∧
      s' = ⟨s.initialSyncSeen || synced, (if synced then 0 else s.attempt) + 1⟩ := by
  unfold round at h
  cases hrun : runOnce r.observations false with
  | none => simp [hrun] at h
  | some synced =>
    cases hstop : isWatchNormalStop r.ctxDone r.err with
    | true => simp [hrun, hstop] at h
    | false =>
      cases herr : r.err with
      | none => simp [hrun, herr] at h
      | some err =>
        cases hstay : (!synced && !s.initialSyncSeen && !r.readyClosed) with
        | true => simp [hrun, herr ▸ hstop, herr, hstay] at h
        | false =>
          cases hsleep : r.sleepErr with
          | none =>
            simp only [hrun, herr ▸ hstop, herr, hstay, hsleep, Bool.false_eq_true, if_false,
              RoundEnd.next.injEq] at h
            exact ⟨synced, err, rfl, rfl, rfl, hstay, rfl, h.symm⟩
          | some sleepErr =>
            simp only [hrun, herr ▸ hstop, herr, hstay, hsleep, Bool.false_eq_true, if_false] at h
            split at h <;> cases h

theorem getElem?_trace_zero {rounds : List Round} {e : Entry}
    (h : (p.trace hooked s (r :: rounds))[0]? = some e) :
    e = ⟨s, r, (p.round hooked s r).1, (p.round hooked s r).2⟩ :=
  (Option.some.inj h).symm

/-- The rounds after the first one are those from the state it leads to. -/
theorem getElem?_trace_succ {rounds : List Round} {i : ℕ} {e : Entry} :
    (p.trace hooked s (r :: rounds))[i + 1]? = some e ↔
      ∃ s', (p.round hooked s r).2 = .next s' ∧ (p.trace hooked s' rounds)[i]? = some e := by
  rw [trace, List.getElem?_cons_succ]
  cases hres : (p.round hooked s r).2 with
  | running => simp
  | returned err => simp
  | next s' => simp

/-- The loop remembers a sync: what was seen before a round is in its state. -/
theorem trace_initialSyncSeen : ∀ (rounds : List Round) (s : SupervisorState) (i : ℕ) (e : Entry),
    (p.trace hooked s rounds)[i]? = some e →
    (s.initialSyncSeen = true ∨
      ∃ j < i, ∃ e', (p.trace hooked s rounds)[j]? = some e' ∧ Entry.synced e') →
    e.before.initialSyncSeen = true := by
  intro rounds
  induction rounds with
  | nil =>
    intro s i e he
    simp [trace] at he
  | cons r rounds ih =>
    intro s i e he hseen
    cases i with
    | zero =>
      obtain rfl := getElem?_trace_zero he
      rcases hseen with h | ⟨j, hj, -⟩
      · exact h
      · exact absurd hj (by omega)
    | succ i =>
      obtain ⟨s', hres, he⟩ := getElem?_trace_succ.mp he
      have hnext : (s.initialSyncSeen = true ∨ runOnce r.observations false = some true) →
          s'.initialSyncSeen = true := by
        obtain ⟨synced, -, hrun, -, -, -, -, rfl⟩ := round_next hres
        rw [hrun, Option.some.injEq, Bool.or_eq_true]
        exact id
      refine ih s' i e he ?_
      rcases hseen with h | ⟨j, hj, e', he', hsync⟩
      · exact Or.inl (hnext (Or.inl h))
      · cases j with
        | zero =>
          obtain rfl := getElem?_trace_zero he'
          exact Or.inl (hnext (Or.inr hsync))
        | succ j =>
          obtain ⟨s₁, hres₁, he'⟩ := getElem?_trace_succ.mp he'
          obtain rfl := RoundEnd.next.inj (hres.symm.trans hres₁)
          exact Or.inr ⟨j, by omega, e', he', hsync⟩

/-- An entry is its round, run from the state before. -/
theorem trace_round : ∀ (rounds : List Round) (s : SupervisorState) (i : ℕ) (e : Entry),
    (p.trace hooked s rounds)[i]? = some e →
      e.round ∈ rounds ∧ p.round hooked e.before e.round = (e.calls, e.result) := by
  intro rounds
  induction rounds with
  | nil =>
    intro s i e he
    simp [trace] at he
  | cons r rounds ih =>
    intro s i e he
    cases i with
    | zero =>
      obtain rfl := getElem?_trace_zero he
      exact ⟨List.mem_cons_self, rfl⟩
    | succ i =>
      obtain ⟨s', -, he⟩ := getElem?_trace_succ.mp he
      obtain ⟨hmem, hround⟩ := ih s' i e he
      exact ⟨List.mem_cons_of_mem _ hmem, hround⟩

end BackoffPolicy

open BackoffPolicy

/-- A round that was reached after the first sync is one the loop retries. -/
theorem sync_of_syncedBy {p : BackoffPolicy} {hooked ready : Bool} {rounds : List Round} {i : ℕ}
    {e : Entry} {synced : Bool} (he : (p.run hooked ready rounds)[i]? = some e)
    (hrun : runOnce e.round.observations false = some synced)
    (h : SyncedBy ready (p.run hooked ready rounds) i) :
    synced = true ∨ e.before.initialSyncSeen = true ∨ e.round.readyClosed = true := by
  rcases h with h | ⟨j, hj, e', he', hsync⟩ | ⟨e', he', hready⟩
  · exact Or.inr (Or.inl (trace_initialSyncSeen rounds _ i e he (Or.inl h)))
  · rcases Nat.lt_or_ge j i with hlt | hge
    · exact Or.inr (Or.inl (trace_initialSyncSeen rounds _ i e he (Or.inr ⟨j, hlt, e', he', hsync⟩)))
    · obtain rfl : j = i := by omega
      obtain rfl : e = e' := Option.some.inj (he.symm.trans he')
      exact Or.inl (Option.some.inj (hrun.symm.trans hsync))
  · obtain rfl : e = e' := Option.some.inj (he.symm.trans he')
    exact Or.inr (Or.inr hready)

/-- **The supervisor gives up only on cancellation exactly when no run times
out.** Errors that wrap `context.DeadlineExceeded` and no cancellation, seen
after the first sync with the context alive, are the only ones that end it. -/
theorem gives_up_only_on_cancellation_iff (p : BackoffPolicy) (hooked ready : Bool)
    (rounds : List Round) :
    GivesUpOnlyOnCancellation p ready (p.run hooked ready rounds) ↔
      NoTimeout ready (p.run hooked ready rounds) := by
  constructor
  · intro h i e err he hsync hended hctx herr hdeadline
    by_contra hcanceled
    obtain ⟨⟨_, -, hslept⟩, -⟩ := (h i e he hsync hended).2 err herr hctx (by simpa using hcanceled)
    obtain ⟨-, hround⟩ := trace_round rounds _ i e he
    cases hrun : runOnce e.round.observations false with
    | none =>
      simp only [BackoffPolicy.round, hrun, Prod.mk.injEq] at hround
      simp [Entry.slept, ← hround.1] at hslept
    | some synced =>
      have hout := round_of_err (p := p) hooked hrun herr hctx (sync_of_syncedBy he hrun hsync)
      rw [hdeadline, Bool.or_true, if_pos rfl, hround, Prod.mk.injEq] at hout
      simp [Entry.slept, hout.1] at hslept
  · intro h i e he hsync hended
    obtain ⟨-, hround⟩ := trace_round rounds _ i e he
    cases hrun : runOnce e.round.observations false with
    | none =>
      simp only [BackoffPolicy.round, hrun, Prod.mk.injEq] at hround
      exact absurd hround.2.symm hended
    | some synced =>
      cases herr : e.round.err with
      | none => exact ⟨fun _ => Or.inr (Or.inl rfl), fun err h => by cases h⟩
      | some err =>
        -- the context alive and no cancellation: then no timeout either, and the round sleeps
        have hkey : e.round.ctxDone = false → err.is .contextCanceled = false →
            (∃ attempt, 1 ≤ attempt ∧ e.slept = some (p.delay attempt e.round.draw)) ∧
              (e.round.ctxAfterSleep = false → ∃ s, e.result = .next s) := by
          intro hctx hcanceled
          have hdeadline : err.is .contextDeadlineExceeded = false := by
            by_contra hd
            have := h i e err he hsync hended hctx herr (by simpa using hd)
            rw [hcanceled] at this
            cases this
          have hout := round_of_err (p := p) hooked hrun herr hctx
            (sync_of_syncedBy he hrun hsync)
          rw [hcanceled, hdeadline, hround] at hout
          obtain ⟨⟨attempt, hone, hcalls⟩, hnext⟩ := hout
          exact ⟨⟨attempt, hone, Entry.slept_of_calls hcalls⟩, hnext⟩
        refine ⟨fun hreturned => ?_, fun err' herr' hctx hcanceled => ?_⟩
        · by_contra hcon
          push Not at hcon
          obtain ⟨hafter, -, hcanceled⟩ := hcon
          have hafter : e.round.ctxAfterSleep = false := by simpa using hafter
          have hctx : e.round.ctxDone = false := by
            by_contra hd
            rw [e.round.done_stays (by simpa using hd)] at hafter
            cases hafter
          obtain ⟨s, hs⟩ := (hkey hctx (by simpa using hcanceled err rfl)).2 hafter
          rw [hreturned] at hs
          cases hs
        · obtain rfl := Option.some.inj herr'
          exact hkey hctx hcanceled

/-! ## A relist that times out -/

/-- How the network stack reports a dial to the API server that timed out. -/
def dialTimeout : Err :=
  ⟨go "dial tcp 10.96.0.1:443: i/o timeout", [.netTimeout, .contextDeadlineExceeded]⟩

/-- What the controller of a namespace returns when its watch is closed. -/
def watchClosed : Err :=
  errorf (go "kubernetes service watch closed: watch services in namespace \"games\" closed")
    [errServiceWatchClosed]

/-- What it returns when the list of the next run times out. -/
def relistTimeout : Err :=
  errorf (go "kubernetes service list failed: list services in namespace \"games\": " ++
    go "dial tcp 10.96.0.1:443: i/o timeout") [errServiceListFailed, dialTimeout]

/-- A run that syncs and whose watch is then closed. -/
def closedRound : Round := { observations := [.synced, .done false], err := some watchClosed }

/-- A run whose list times out. -/
def timedOutRound : Round := { observations := [.done false], err := some relistTimeout }

/-- **A timeout ends the supervisor.** The first run syncs and its watch is
closed; the relist times out, and `Run` returns nil with its context alive. -/
theorem relist_timeout_ends_supervisor :
    let c : ServiceWatchController := ⟨go "games", ⟨[]⟩⟩
    let p : BackoffPolicy := ⟨second, 30 * second, 2, 0⟩
    c.run (fun _ => id) (.ok []) none [.closed false] =
        ([c.updateSink id ∅], some (some watchClosed)) ∧
      c.run (fun _ => id) (.error dialTimeout) none [] = ([], some (some relistTimeout)) ∧
      (p.run true false [closedRound, timedOutRound]).map (·.result) =
        [.next ⟨true, 1⟩, .returned none] ∧
      ¬ GivesUpOnlyOnCancellation p false (p.run true false [closedRound, timedOutRound]) := by
  intro c p
  refine ⟨by rfl, by rfl, by rfl, fun h => ?_⟩
  obtain ⟨⟨_, -, hslept⟩, -⟩ := (h 1 ⟨⟨true, 1⟩, timedOutRound, [], .returned none⟩ rfl
    (Or.inr (Or.inl ⟨0, by omega, _, rfl, rfl⟩)) (by simp)).2 relistTimeout rfl rfl (by decide)
  cases hslept

/-- With errors other than timeouts the loop goes on. -/
theorem gives_up_only_on_cancellation_closed :
    let p : BackoffPolicy := ⟨second, 30 * second, 2, 0⟩
    (∀ r ∈ [closedRound, closedRound], ∀ err, r.err = some err →
      err.is .contextDeadlineExceeded = false) ∧
    GivesUpOnlyOnCancellation p false (p.run true false [closedRound, closedRound]) := by
  intro p
  have hno : ∀ r ∈ [closedRound, closedRound], ∀ err, r.err = some err →
      err.is .contextDeadlineExceeded = false := by
    intro r hr err herr
    obtain rfl : r = closedRound := by simpa using hr
    obtain rfl := Option.some.inj herr
    decide
  refine ⟨hno, (gives_up_only_on_cancellation_iff p true false _).mpr ?_⟩
  intro i e err he _ _ _ herr hdeadline
  obtain ⟨hmem, -⟩ := trace_round _ _ i e he
  rw [hno e.round hmem err herr] at hdeadline
  cases hdeadline

end Kubernetes

end McRouter
