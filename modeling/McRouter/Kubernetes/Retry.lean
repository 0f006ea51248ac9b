import McRouter.Kubernetes.Supervisor

/-!
# The retry schedule

What `WatchSupervisor.Run` does between two runs: whether it gives up, how
long it sleeps and whom it tells. A run reports its syncs through a channel
with a buffer, while the `select` of `runOnce` waits for the sync and for
the end of the run at once. `Observes` holds every order in which it can see
them; whichever it is, `runOnce` finds out whether the run has published a
sync (`runOnce_of_observes`), because tokens of earlier runs are drained
before it starts and a token that was not looked at is drained at its end.
So the delays depend on the runs alone (`retry_schedule`).
-/

namespace McRouter

namespace Kubernetes

/-! ## The channel of syncs -/

/-- `drainSynced`: whether there was a token, and how many are left. -/
def drainSynced : (tokens : ℕ) → (drained : Bool) → Bool × ℕ
  | 0, drained => (drained, 0)
  | tokens + 1, _ => drainSynced tokens true

theorem drainSynced_eq (tokens : ℕ) (drained : Bool) :
    drainSynced tokens drained = (drained || decide (0 < tokens), 0) := by
  induction tokens generalizing drained with
  | zero => simp [drainSynced]
  | succ tokens ih => simp [drainSynced, ih]

/-- The send of `runtimeDiscoverySink.update`, which drops the token when
the buffer is full. -/
def trySend (capacity tokens : ℕ) : ℕ := if tokens < capacity then tokens + 1 else tokens

/-- What the `select` of `runOnce` can observe of a run that has still
`syncs` syncs to publish, with `tokens` in the channel. The runner returns
after it has published them; a token that is there and the end of the run
can be taken in either order. -/
inductive Observes (capacity : ℕ) : (tokens syncs : ℕ) → List Observation → Prop
  | publish {tokens syncs : ℕ} {seen : List Observation} :
      Observes capacity (trySend capacity tokens) syncs seen →
      Observes capacity tokens (syncs + 1) seen
  | synced {tokens syncs : ℕ} {seen : List Observation} :
      Observes capacity tokens syncs seen →
      Observes capacity (tokens + 1) syncs (.synced :: seen)
  | done (tokens : ℕ) : Observes capacity tokens 0 [.done (drainSynced tokens false).1]
  | contextDone (tokens syncs : ℕ) : Observes capacity tokens syncs [.contextDone]

/-- **The order does not matter**: `runOnce` finds out whether there was a
token or one was published. -/
theorem runOnce_of_observes {capacity tokens syncs : ℕ} {seen : List Observation}
    (hcap : 0 < capacity) (h : Observes capacity tokens syncs seen)
    (hctx : Observation.contextDone ∉ seen) (synced : Bool) :
    runOnce seen synced = some (synced || decide (0 < tokens) || decide (0 < syncs)) := by
  induction h generalizing synced with
  | @publish tokens syncs seen _ ih =>
    have hsent : 0 < trySend capacity tokens := by
      unfold trySend
      split <;> omega
    rw [ih hctx synced]
    simp [hsent]
  | @synced tokens syncs seen _ ih =>
    rw [runOnce, ih (fun hmem => hctx (List.mem_cons_of_mem _ hmem)) true]
    simp
  | done tokens =>
    rw [runOnce, drainSynced_eq]
    simp
  | contextDone => exact absurd List.mem_cons_self hctx

/-! ## Runs under supervision -/

/-- A round of `Run` with the run in it: how many syncs it publishes, how
many tokens earlier runs have left behind, and an order in which `runOnce`
can have observed that. -/
structure Watched (capacity : ℕ) extends Round where
  syncs : ℕ
  stale : ℕ
  order : Observes capacity (drainSynced stale false).2 syncs observations

/-- The run has published a sync. -/
def Watched.published {capacity : ℕ} (run : Watched capacity) : Bool := decide (0 < run.syncs)

/-- The runner has returned an error that is not taken for a cancellation. -/
def Round.FailsWith (r : Round) (err : Err) : Prop :=
  r.err = some err ∧ isWatchNormalStop r.ctxDone r.err = false

/-- What a `Run` meets. -/
structure Supervision where
  capacity : ℕ
  /-- `syncedCh` has a buffer. -/
  buffered : 0 < capacity
  /-- Whether `ready` is closed when `Run` starts; a nil channel counts as
  closed. -/
  ready : Bool
  runs : List (Watched capacity)
  /-- A channel that is closed stays closed. -/
  closed_stays : (ready :: runs.map (·.readyClosed)).Pairwise
    fun before after => before = true → after = true

/-- The rounds of a supervision. -/
def Supervision.rounds (w : Supervision) : List Round := w.runs.map (·.toRound)

/-- A run that fails under supervision is known to have synced or not. -/
theorem Watched.runOnce_eq {capacity : ℕ} (hcap : 0 < capacity) {run : Watched capacity} {err : Err}
    (h : run.FailsWith err) : runOnce run.observations false = some run.published := by
  have hctx : Observation.contextDone ∉ run.observations := by
    intro hmem
    have hstop := h.2
    rw [isWatchNormalStop, run.done_observed hmem, Bool.true_or] at hstop
    cases hstop
  rw [runOnce_of_observes hcap run.order hctx, drainSynced_eq]
  simp [Watched.published]

/-! ## One round -/

namespace BackoffPolicy

variable {p : BackoffPolicy} {hooked : Bool} {s s' : SupervisorState} {r : Round} {err : Err}
variable {synced : Bool}

/-- A round before the first sync: the error is returned at once. -/
theorem round_failsFast (hooked : Bool) (hrun : runOnce r.observations false = some synced)
    (hfail : r.FailsWith err)
    (hfast : (!synced && !s.initialSyncSeen && !r.readyClosed) = true) :
    p.round hooked s r = ([], .returned (some err)) := by
  obtain ⟨herr, hstop⟩ := hfail
  rw [herr] at hstop
  simp only [round, hrun, herr, hstop, hfast, Bool.false_eq_true, if_false, if_true]

/-- A round that retries. -/
theorem round_retries (hooked : Bool) (hrun : runOnce r.observations false = some synced)
    (hfail : r.FailsWith err)
    (hfast : (!synced && !s.initialSyncSeen && !r.readyClosed) = false) :
    let delay := p.delay (if synced then 1 else s.attempt + 1) r.draw
    (p.round hooked s r).1 = (if hooked then [.onRetry err] else []) ++ [.sleep delay] ∧
      (r.sleepErr = none → (p.round hooked s r).2 =
        .next ⟨s.initialSyncSeen || synced, if synced then 1 else s.attempt + 1⟩) := by
  obtain ⟨herr, hstop⟩ := hfail
  rw [herr] at hstop
  have hattempt : (if synced then 0 else s.attempt) + 1 = if synced then 1 else s.attempt + 1 := by
    cases synced <;> rfl
  simp only [round, hrun, herr, hstop, hfast, hattempt, Bool.false_eq_true, if_false]
  refine ⟨trivial, fun hsleep => ?_⟩
  rw [hsleep]

/-- A round whose run has not failed calls nothing. -/
theorem round_of_not_fails (hooked : Bool) (h : ∀ err, ¬ r.FailsWith err) :
    (p.round hooked s r).1 = [] := by
  unfold round
  cases runOnce r.observations false with
  | none => rfl
  | some synced =>
    cases hstop : isWatchNormalStop r.ctxDone r.err with
    | true => rfl
    | false =>
      cases herr : r.err with
      | none => rfl
      | some err => exact absurd ⟨herr, hstop⟩ (h err)

/-! ## The rounds one after the other -/

/-- The first round starts in the first state. -/
theorem before_of_trace_zero {rounds : List Round} {e : Entry}
    (he : (p.trace hooked s rounds)[0]? = some e) : e.before = s := by
  cases rounds with
  | nil => simp [trace] at he
  | cons r rounds => rw [getElem?_trace_zero he]

/-- An entry is that of the round at its place. -/
theorem getElem?_of_trace : ∀ {rounds : List Round} {s : SupervisorState} {i : ℕ} {e : Entry},
    (p.trace hooked s rounds)[i]? = some e → rounds[i]? = some e.round := by
  intro rounds
  induction rounds with
  | nil =>
    intro s i e he
    simp [trace] at he
  | cons r rounds ih =>
    intro s i e he
    cases i with
    | zero => rw [getElem?_trace_zero he, List.getElem?_cons_zero]
    | succ i =>
      obtain ⟨s', -, he⟩ := getElem?_trace_succ.mp he
      exact ih he

/-- The round before one that was started has led to it. -/
theorem pred_of_trace : ∀ {rounds : List Round} {s : SupervisorState} {i : ℕ} {e' : Entry},
    (p.trace hooked s rounds)[i + 1]? = some e' →
      ∃ e, (p.trace hooked s rounds)[i]? = some e ∧ e.result = .next e'.before := by
  intro rounds
  induction rounds with
  | nil =>
    intro s i e' he'
    simp [trace] at he'
  | cons r rounds ih =>
    intro s i e' he'
    obtain ⟨s', hs', he'⟩ := getElem?_trace_succ.mp he'
    cases i with
    | zero => exact ⟨_, rfl, by rw [before_of_trace_zero he', hs']⟩
    | succ i =>
      obtain ⟨e, he, hres⟩ := ih he'
      exact ⟨e, getElem?_trace_succ.mpr ⟨s', hs', he⟩, hres⟩

/-- A round that leads to another one is followed by it, if there is one. -/
theorem succ_of_trace : ∀ {rounds : List Round} {s s' : SupervisorState} {i : ℕ} {e : Entry},
    (p.trace hooked s rounds)[i]? = some e → e.result = .next s' → i + 1 < rounds.length →
      ∃ e', (p.trace hooked s rounds)[i + 1]? = some e' := by
  intro rounds
  induction rounds with
  | nil =>
    intro s s' i e he
    simp [trace] at he
  | cons r rounds ih =>
    intro s s' i e he hres hlen
    rw [List.length_cons] at hlen
    cases i with
    | zero =>
      rw [getElem?_trace_zero he] at hres
      cases rounds with
      | nil => simp at hlen
      | cons r' rounds => exact ⟨_, getElem?_trace_succ.mpr ⟨s', hres, rfl⟩⟩
    | succ i =>
      obtain ⟨s₁, hs₁, he⟩ := getElem?_trace_succ.mp he
      obtain ⟨e', he'⟩ := ih he hres (by omega)
      exact ⟨e', getElem?_trace_succ.mpr ⟨s₁, hs₁, he'⟩⟩

end BackoffPolicy

/-! ## The schedule -/

open BackoffPolicy (Entry)

namespace Supervision

variable (w : Supervision)

/-- The number of the retry after a run, by the runs up to it: `1` if it has
synced, and else one more than after the run before. -/
def retryNumber : (runs : ℕ) → ℕ
  | 0 => 0
  | i + 1 => if w.runs[i]?.any Watched.published then 1 else retryNumber i + 1

/-- No run up to this one has synced, and `ready` is not closed after it. -/
def FailsFast (i : ℕ) (run : Watched w.capacity) : Prop :=
  (∀ run' ∈ w.runs.take (i + 1), run'.published = false) ∧ run.readyClosed = false

variable {w}

/-- A channel closed at the start is closed after every run. -/
theorem readyClosed_of_ready (hready : w.ready = true) {run : Watched w.capacity}
    (hmem : run ∈ w.runs) : run.readyClosed = true :=
  (List.pairwise_cons.mp w.closed_stays).1 _ (List.mem_map_of_mem hmem) hready

theorem getElem?_rounds {i : ℕ} {r : Round} :
    w.rounds[i]? = some r ↔ ∃ run, w.runs[i]? = some run ∧ run.toRound = r := by
  rw [rounds, List.getElem?_map, Option.map_eq_some_iff]

/-- **The state before a round**: what was synced before it, and the number
of the last retry. -/
theorem before_of_run {p : BackoffPolicy} {hooked : Bool} : ∀ {i : ℕ} {e : Entry},
    (p.run hooked w.ready w.rounds)[i]? = some e →
      e.before = ⟨w.ready || (w.runs.take i).any Watched.published, w.retryNumber i⟩ := by
  intro i
  induction i with
  | zero =>
    intro e he
    rw [BackoffPolicy.before_of_trace_zero he]
    simp [retryNumber]
  | succ i ih =>
    intro e' he'
    obtain ⟨e, he, hnext⟩ := BackoffPolicy.pred_of_trace he'
    obtain ⟨run, hrun, htoRound⟩ := getElem?_rounds.mp (BackoffPolicy.getElem?_of_trace he)
    have hround := (BackoffPolicy.trace_round w.rounds _ i e he).2
    have hnext : (p.round hooked e.before e.round).2 = .next e'.before := by rw [hround, hnext]
    obtain ⟨synced, err, honce, herr, hstop, -, -, hstate⟩ := BackoffPolicy.round_next hnext
    rw [← htoRound] at honce herr hstop
    rw [Watched.runOnce_eq w.buffered ⟨herr, hstop⟩, Option.some.injEq] at honce
    rw [hstate, ih he, ← honce, retryNumber, hrun, List.take_add_one, hrun]
    cases hpub : run.published <;> simp [hpub]

/-- When a round gives up. -/
theorem failsFast_iff {i : ℕ} {run : Watched w.capacity} (hrun : w.runs[i]? = some run) :
    (!run.published && !(w.ready || (w.runs.take i).any Watched.published) && !run.readyClosed) =
      true ↔ w.FailsFast i run := by
  have hready : run.readyClosed = false → w.ready = false := by
    intro hclosed
    by_contra h
    rw [readyClosed_of_ready (by simpa using h) (List.mem_of_getElem? hrun)] at hclosed
    cases hclosed
  simp only [FailsFast, List.take_add_one, hrun, Option.toList_some, List.mem_append,
    List.mem_singleton, Bool.and_eq_true, Bool.not_eq_true', Bool.or_eq_false_iff, List.any_eq_false,
    Bool.not_eq_true]
  constructor
  · rintro ⟨⟨hpub, -, hbefore⟩, hclosed⟩
    refine ⟨?_, hclosed⟩
    rintro run' (hmem | rfl)
    · exact hbefore run' hmem
    · exact hpub
  · rintro ⟨hall, hclosed⟩
    exact ⟨⟨hall run (Or.inr rfl), hready hclosed, fun run' hmem => hall run' (Or.inl hmem)⟩, hclosed⟩

end Supervision

/-- **The retry schedule.** After a run that failed, `Run` gives up with the
runner's error and no sleep exactly when no run so far has synced and `ready`
is not closed; else it calls `onRetry` once and sleeps once, for the delay of
the retry's number. After any other run it calls neither. The runs follow
each other as long as no sleep is cut short. -/
theorem retry_schedule (p : BackoffPolicy) (w : Supervision) (hooked : Bool) :
    (w.runs ≠ [] → ∃ e, (p.run hooked w.ready w.rounds)[0]? = some e) ∧
    ∀ i e, (p.run hooked w.ready w.rounds)[i]? = some e → ∃ run, w.runs[i]? = some run ∧
      e.round = run.toRound ∧
      (∀ err, run.FailsWith err →
        (e.result = .returned (some err) ∧ e.slept = none ↔ w.FailsFast i run) ∧
        (w.FailsFast i run → e.calls = []) ∧
        (¬ w.FailsFast i run →
          e.slept = some (p.delay (w.retryNumber (i + 1)) run.draw) ∧
          e.calls = (if hooked then [.onRetry err] else []) ++
            [.sleep (p.delay (w.retryNumber (i + 1)) run.draw)] ∧
          (run.sleepErr = none → i + 1 < w.runs.length →
            ∃ e', (p.run hooked w.ready w.rounds)[i + 1]? = some e'))) ∧
      ((∀ err, ¬ run.FailsWith err) →
        e.slept = none ∧ e.calls = []) := by
  constructor
  · intro hne
    obtain ⟨run, runs, hruns⟩ := List.exists_cons_of_ne_nil hne
    rw [Supervision.rounds, hruns]
    exact ⟨_, rfl⟩
  intro i e he
  obtain ⟨run, hrun, htoRound⟩ := Supervision.getElem?_rounds.mp (BackoffPolicy.getElem?_of_trace he)
  have hround := (BackoffPolicy.trace_round w.rounds _ i e he).2
  have hbefore := Supervision.before_of_run he
  rw [← htoRound] at hround
  refine ⟨run, hrun, htoRound.symm, fun err hfail => ?_, fun hnot => ?_⟩
  · have honce := Watched.runOnce_eq w.buffered hfail
    have hfast := Supervision.failsFast_iff hrun
    have hseen : e.before.initialSyncSeen = (w.ready || (w.runs.take i).any Watched.published) := by
      rw [hbefore]
    have hnumber : w.retryNumber (i + 1) =
        if run.published then 1 else e.before.attempt + 1 := by
      rw [Supervision.retryNumber, hrun, hbefore]
      rfl
    rw [← hseen] at hfast
    rw [hnumber]
    by_cases hff : w.FailsFast i run
    · have hres := BackoffPolicy.round_failsFast (p := p) hooked honce hfail (hfast.mpr hff)
      rw [hround] at hres
      obtain ⟨hcalls, hresult⟩ := Prod.mk.inj hres
      exact ⟨⟨fun _ => hff, fun _ => ⟨hresult, Entry.slept_of_no_calls hcalls⟩⟩, fun _ => hcalls,
        fun hnff => absurd hff hnff⟩
    · obtain ⟨hcalls, hnext⟩ := BackoffPolicy.round_retries (p := p) hooked honce
        hfail (by simpa using mt hfast.mp hff)
      rw [hround] at hcalls hnext
      have hslept := Entry.slept_of_calls hcalls
      refine ⟨⟨fun h => ?_, fun h => absurd h hff⟩, fun h => absurd h hff, fun _ => ⟨hslept, hcalls, ?_⟩⟩
      · rw [hslept] at h
        cases h.2
      · intro hsleep hlen
        exact BackoffPolicy.succ_of_trace he (hnext hsleep) (by simpa [Supervision.rounds] using hlen)
  · have hcalls := BackoffPolicy.round_of_not_fails (p := p) (s := e.before) hooked hnot
    rw [hround] at hcalls
    exact ⟨Entry.slept_of_no_calls hcalls, hcalls⟩

/-- Both orders of one sync and the end of its run. -/
example : Observes 1 0 1 [.synced, .done false] ∧ Observes 1 0 1 [.done true] :=
  ⟨.publish (.synced (.done 0)), .publish (.done 1)⟩

end Kubernetes

end McRouter
