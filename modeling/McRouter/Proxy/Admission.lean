import McRouter.Proxy.Forwarding

/-!
# Who is let through, and what they are told

`handleConn` has some twenty exits. They come in two kinds: a connection
that is turned away before its handshake is parsed, which does nothing but
read, and an admitted one, whose actions start with the same `opening` and
go on as `routeConn` says (`handleConn_cases`). From there **at most one
backend is dialled, the one the selected route names for the intent of the
handshake, and the router speaks for itself only where it is configured
to** (`admission_safety`).
-/

namespace McRouter

namespace Proxy

open Config Netip Proto

/-! ## What is observed -/

/-- The address an action dials. -/
def Event.dialled : Event → Option GoString
  | .dial address => some address
  | _ => none

/-- What the router itself writes to the client. -/
def Event.answer : Event → Option GoString
  | .writeClient bytes => some bytes
  | _ => none

/-- The action touches no backend and tells the client nothing. -/
def Event.Quiet (e : Event) : Prop := e.onBackend = false ∧ e.answer = none

/-- The addresses dialled, in order. -/
def dialled (events : List Event) : List GoString := events.filterMap Event.dialled

/-- The router's own writes to the client, in order. -/
def answers (events : List Event) : List GoString := events.filterMap Event.answer

theorem dialled_append (es es' : List Event) : dialled (es ++ es') = dialled es ++ dialled es' :=
  List.filterMap_append

theorem answers_append (es es' : List Event) : answers (es ++ es') = answers es ++ answers es' :=
  List.filterMap_append

/-- Actions off the backend dial nothing. -/
theorem dialled_eq_nil {events : List Event} (h : ∀ e ∈ events, e.onBackend = false) :
    dialled events = [] := by
  refine List.filterMap_eq_nil_iff.mpr fun e he => ?_
  have hoff := h e he
  cases e <;> simp_all [Event.onBackend, Event.dialled]

theorem answers_eq_nil {events : List Event} (h : ∀ e ∈ events, e.Quiet) : answers events = [] :=
  List.filterMap_eq_nil_iff.mpr fun e he => (h e he).2

/-- An address was dialled when an action dials it. -/
theorem mem_dialled {events : List Event} {address : GoString} :
    address ∈ dialled events ↔ .dial address ∈ events := by
  rw [dialled, List.mem_filterMap]
  constructor
  · rintro ⟨e, he, hd⟩
    cases e <;> simp_all [Event.dialled]
  · intro h
    exact ⟨_, h, rfl⟩

/-! ## An admitted client -/

/-- A client that was let through to route selection: its address, where
its stream starts, the handshake it sent and what is left of the stream. -/
structure Admission (state : ServerState) (env : ConnEnv) where
  addr : Addr
  before : List Event
  client : Conn
  handshake : Handshake
  raw : GoString
  rest : Conn
  identified : identify state env = .ok (addr, before, client)
  allowed : state.clientPolicy.allows addr = true
  admitted : (RateLimit.allow state.clientRateLimit addr env.now).1 = true
  parsed : readHandshake connReader env.limits client = (.ok (handshake, raw), rest)

variable {state : ServerState} {env : ConnEnv}

namespace Admission

variable (a : Admission state env)

/-- The actions up to route selection: the address is admitted and the
handshake read. -/
def opening : List Event :=
  a.before ++ [.allow a.addr true, .setReadDeadline (some state.cfg.handshakeTimeout) none,
    .read .handshake, .setReadDeadline none none]

end Admission

/-- Finding out whose connection it is only reads. -/
theorem identify_quiet {addr : Addr} {before : List Event} {client : Conn}
    (h : identify state env = .ok (addr, before, client)) : ∀ e ∈ before, e.Quiet := by
  unfold identify at h
  split at h
  · cases h
  split at h
  · split at h
    · cases h
    · cases h
      simp [Event.Quiet, Event.onBackend, Event.answer]
  · cases h
    simp

/-- The handshake is parsed and the connection routed, or nothing is said. -/
theorem readAndRoute_cases (state : ServerState) (env : ConnEnv) (limiter : RateLimit.Limiter)
    (client : Conn) :
    (∀ e ∈ (readAndRoute state env limiter client).events, e.Quiet) ∨
    ∃ handshake raw rest, readHandshake connReader env.limits client =
        (.ok (handshake, raw), rest) ∧
      (readAndRoute state env limiter client).events =
        [.setReadDeadline (some state.cfg.handshakeTimeout) none, .read .handshake,
          .setReadDeadline none none] ++
        (routeConn state env limiter handshake raw rest).events := by
  unfold readAndRoute
  cases env.setReadDeadline 0 with
  | some err => exact .inl (by simp [Event.Quiet, Event.onBackend, Event.answer])
  | none =>
    rcases hread : readHandshake connReader env.limits client with ⟨⟨raw, err⟩ | ⟨hs, raw⟩, rest⟩
    · exact .inl (by simp [Event.Quiet, Event.onBackend, Event.answer])
    · simp only
      cases env.setReadDeadline 1 with
      | some err => exact .inl (by simp [Event.Quiet, Event.onBackend, Event.answer])
      | none => exact .inr ⟨hs, raw, rest, rfl, rfl⟩

/-- **A connection is turned away in silence or admitted.** -/
theorem handleConn_cases (state : ServerState) (env : ConnEnv) :
    (∀ e ∈ (handleConn state env).events, e.Quiet) ∨
    ∃ (a : Admission state env) (limiter : RateLimit.Limiter), (handleConn state env).events =
      a.opening ++ (routeConn state env limiter a.handshake a.raw a.rest).events := by
  unfold handleConn
  rcases hid : identify state env with refused | ⟨addr, before, client⟩
  · cases refused <;> simp [Event.Quiet, Event.onBackend, Event.answer]
  · have hbefore := identify_quiet hid
    have hallow : ∀ admitted, ∀ e ∈ before ++ [.allow addr admitted], e.Quiet := by
      intro admitted
      refine List.forall_mem_append.mpr ⟨hbefore, ?_⟩
      simp [Event.Quiet, Event.onBackend, Event.answer]
    simp only
    split
    · exact .inl hbefore
    rename_i hallowed
    split
    · exact .inl (hallow false)
    rename_i hadmitted
    rcases readAndRoute_cases state env (RateLimit.allow state.clientRateLimit addr env.now).2 client
      with hquiet | ⟨hs, raw, rest, hread, hevents⟩
    · exact .inl (List.forall_mem_append.mpr ⟨hallow true, hquiet⟩)
    · refine .inr ⟨⟨addr, before, client, hs, raw, rest, hid, by simpa using hallowed,
        by simpa using hadmitted, hread⟩, (RateLimit.allow state.clientRateLimit addr env.now).2, ?_⟩
      rw [Handled.after, hevents, Admission.opening]
      simp only [List.append_assoc, List.cons_append, List.nil_append]

namespace Admission

variable (a : Admission state env)

theorem opening_quiet : ∀ e ∈ a.opening, e.Quiet := by
  refine List.forall_mem_append.mpr ⟨identify_quiet a.identified, ?_⟩
  simp [Event.Quiet, Event.onBackend, Event.answer]

theorem dialled_opening : dialled a.opening = [] :=
  dialled_eq_nil fun e he => (a.opening_quiet e he).1

theorem answers_opening : answers a.opening = [] := answers_eq_nil a.opening_quiet

end Admission

/-! ## The router's own answers -/

/-- The writes of a status exchange: nothing, the response or a part of it,
or the whole response and the pong or a part of it. -/
def StatusWrites (env : ConnEnv) (status : StatusResponse) (writes : List GoString) : Prop :=
  writes = [] ∨
  (∃ sent, sent <+: buildStatusResponsePacket env.json status ∧ writes = [sent]) ∨
  ∃ payload sent, payload.length = 8 ∧ sent <+: buildStatusPongPacket payload ∧
    writes = [buildStatusResponsePacket env.json status, sent]

/-- A ping is answered by at most one pong. -/
theorem answers_servePing (env : ConnEnv) (timeout : Duration) (client : Conn) :
    answers (servePing env timeout client).1 = [] ∨
    ∃ payload sent, payload.length = 8 ∧ sent <+: buildStatusPongPacket payload ∧
      answers (servePing env timeout client).1 = [sent] := by
  unfold servePing
  split
  · exact .inl rfl
  split
  · exact .inl rfl
  · rename_i packetID payload _ _
    split
    · exact .inl rfl
    · rename_i hping
      push Not at hping
      have hwritten := writeAll_prefix (env.clientWrites 1)
      exact .inr ⟨payload, _, hping.2, (hwritten _).1, rfl⟩

theorem answers_serveStatus (env : ConnEnv) (timeout : Duration) (status : StatusResponse)
    (client : Conn) : StatusWrites env status (answers (serveStatus env timeout status client).1) := by
  unfold serveStatus
  split
  · exact .inl rfl
  split
  · exact .inl rfl
  split
  · exact .inl rfl
  obtain ⟨hpre, hall⟩ :=
    writeAll_prefix (env.clientWrites 0) (buildStatusResponsePacket env.json status)
  split
  · rename_i sent err hwrite
    rw [hwrite] at hpre
    exact .inr (.inl ⟨sent, hpre, rfl⟩)
  · rename_i client _ _ _ sent hwrite
    rw [hwrite] at hall
    obtain rfl := hall rfl
    -- the response is out; the ping may be answered or not
    rw [answers_append]
    rcases answers_servePing env timeout client with hping | ⟨payload, pong, hlen, hpong, hping⟩
    · rw [hping]
      exact .inr (.inl ⟨_, List.prefix_rfl, rfl⟩)
    · rw [hping]
      exact .inr (.inr ⟨payload, pong, hlen, hpong, rfl⟩)

/-- The writes of a login disconnect: nothing, or the packet or a part of
it. -/
def DisconnectWrites (env : ConnEnv) (cfg : Config) (handshake : Handshake)
    (writes : List GoString) : Prop :=
  writes = [] ∨ ∃ response sent, buildLoginDisconnectPacket env.json handshake.protocolVersion
    cfg.fallback.login.message = .ok response ∧ sent <+: response ∧ writes = [sent]

theorem answers_serveLoginDisconnectFallback (env : ConnEnv) (cfg : Config) (handshake : Handshake)
    (client : Conn) : DisconnectWrites env cfg handshake
      (answers (serveLoginDisconnectFallback env cfg handshake client).1) := by
  unfold serveLoginDisconnectFallback
  split
  · exact .inl rfl
  split
  · exact .inl rfl
  split
  · exact .inl rfl
  split
  · exact .inl rfl
  split
  · exact .inl rfl
  · rename_i response hresponse
    have hwritten := writeAll_prefix (env.clientWrites 0) response
    exact .inr ⟨response, _, hresponse, hwritten.1, rfl⟩

/-- The status a route answers with instead of its backend. -/
def overrideStatus (override : StatusOverride) : StatusResponse :=
  ⟨override.protocolName, override.protocolVersion, override.maxPlayers, override.onlinePlayers,
    override.motd⟩

/-- The status of the fallback. -/
def fallbackStatus (cfg : Config) : StatusResponse :=
  ⟨cfg.fallback.status.protocolName, cfg.fallback.status.protocolVersion,
    cfg.fallback.status.maxPlayers, cfg.fallback.status.onlinePlayers, cfg.fallback.status.motd⟩

/-- **What the router may say to an admitted client**: nothing; the status
its route overrides; the fallback status, when no route was found or the
dial failed or timed out; or a login disconnect when no route was found.
Each only to a handshake of that intent and only where it is enabled. -/
inductive MayAnswer (state : ServerState) (env : ConnEnv) (handshake : Handshake) :
    List GoString → Prop
  | silent : MayAnswer state env handshake []
  | override {selection : Selection} {override : StatusOverride} {writes : List GoString}
      (status : handshake.nextState = nextStateStatus)
      (selected : state.router.select handshake.routeAddress = .ok selection)
      (overridden : selection.statusOverride = some override)
      (shape : StatusWrites env (overrideStatus override) writes) :
      MayAnswer state env handshake writes
  | routeDenied {err : Err} {writes : List GoString}
      (status : handshake.nextState = nextStateStatus)
      (denied : state.router.select handshake.routeAddress = .error err)
      (enabled : state.cfg.fallback.enabled = true ∧ state.cfg.fallback.status.enabled = true)
      (respond : state.cfg.fallback.status.respondOnRouteDenied ≠ some false)
      (shape : StatusWrites env (fallbackStatus state.cfg) writes) :
      MayAnswer state env handshake writes
  | backendFailed {selection : Selection} {err : Err} {writes : List GoString}
      (status : handshake.nextState = nextStateStatus)
      (selected : state.router.select handshake.routeAddress = .ok selection)
      (plain : selection.statusOverride = none)
      (failed : env.dial (selectedBackend handshake selection) = .error err)
      (reason : classifyDialError err = .backendDialFailed ∨
        classifyDialError err = .backendDialTimeout)
      (enabled : state.cfg.fallback.enabled = true ∧ state.cfg.fallback.status.enabled = true)
      (respond : state.cfg.fallback.status.respondOnBackendFailure = true)
      (shape : StatusWrites env (fallbackStatus state.cfg) writes) :
      MayAnswer state env handshake writes
  | loginDenied {err : Err} {writes : List GoString}
      (login : handshake.nextState = nextStateLogin)
      (denied : state.router.select handshake.routeAddress = .error err)
      (enabled : state.cfg.fallback.enabled = true ∧ state.cfg.fallback.login.enabled = true)
      (respond : state.cfg.fallback.login.respondOnRouteDenied ≠ some false)
      (shape : DisconnectWrites env state.cfg handshake writes) :
      MayAnswer state env handshake writes


/-! ## The stages -/

/-- The fallback and the override write a status exchange. -/
theorem answers_serveStatusFallback (env : ConnEnv) (cfg : Config) (client : Conn) :
    StatusWrites env (fallbackStatus cfg) (answers (serveStatusFallback env cfg client).1) :=
  answers_serveStatus env _ _ client

theorem answers_serveStatusOverride (env : ConnEnv) (timeout : Duration) (override : StatusOverride)
    (client : Conn) : StatusWrites env (overrideStatus override)
      (answers (serveStatusOverride env timeout override client).1) :=
  answers_serveStatus env _ _ client

/-- What a routed connection does: no dial and an answer, or the one dial of
its route. -/
structure Routed (state : ServerState) (env : ConnEnv) (handshake : Handshake)
    (events : List Event) : Prop where
  once : (dialled events).length ≤ 1
  dial : ∀ address, .dial address ∈ events → ∃ selection,
    state.router.select handshake.routeAddress = .ok selection ∧
    (handshake.nextState = nextStateStatus → selection.statusOverride = none) ∧
    address = selectedBackend handshake selection ∧
    ∃ after, events =
      .notify address handshake.routeAddress handshake.nextState :: .dial address :: after
  answer : MayAnswer state env handshake (answers events)
  proxied : ∀ bytes, .copyToClient bytes ∈ events → answers events = []

/-- Without a dial only the answer matters. -/
theorem Routed.of_offBackend {handshake : Handshake} {events : List Event}
    (hoff : ∀ e ∈ events, e.onBackend = false)
    (hanswer : MayAnswer state env handshake (answers events)) :
    Routed state env handshake events where
  once := by simp [dialled_eq_nil hoff]
  dial address hmem := absurd (hoff _ hmem) (by simp [Event.onBackend])
  answer := hanswer
  proxied bytes hmem := absurd (hoff _ hmem) (by simp [Event.onBackend])

theorem optionBool_ne {o : Option Bool} (h : o.getD true = true) : o ≠ some false := by
  rintro rfl
  cases h

/-- A denied handshake gets the fallback of its intent, if any. -/
theorem routed_denied {limiter : RateLimit.Limiter} {handshake : Handshake} {raw : GoString}
    {client : Conn} {err : Err} (hsel : state.router.select handshake.routeAddress = .error err) :
    Routed state env handshake (routeConn state env limiter handshake raw client).events := by
  simp only [routeConn, hsel]
  split
  · rename_i hstatus
    simp only [statusFallbackForRouteDeniedEnabled, statusFallbackEnabled, Bool.and_eq_true,
      beq_iff_eq] at hstatus
    obtain ⟨⟨henabled, hnext⟩, hrespond⟩ := hstatus
    exact .of_offBackend (serveStatus_offBackend env _ _ client)
      (.routeDenied hnext hsel henabled (optionBool_ne hrespond)
        (answers_serveStatusFallback env state.cfg client))
  split
  · rename_i hlogin
    simp only [loginFallbackForRouteDeniedEnabled, loginFallbackEnabled, Bool.and_eq_true,
      beq_iff_eq] at hlogin
    obtain ⟨⟨henabled, hnext⟩, hrespond⟩ := hlogin
    exact .of_offBackend (serveLoginDisconnectFallback_offBackend env _ handshake client)
      (.loginDenied hnext hsel henabled (optionBool_ne hrespond)
        (answers_serveLoginDisconnectFallback env state.cfg handshake client))
  · exact .of_offBackend (by simp) .silent

/-- A status that the route overrides. -/
theorem routed_override {limiter : RateLimit.Limiter} {handshake : Handshake} {raw : GoString}
    {client : Conn} {selection : Selection} {override : StatusOverride}
    (hsel : state.router.select handshake.routeAddress = .ok selection)
    (hnext : handshake.nextState = nextStateStatus)
    (hoverride : selection.statusOverride = some override) :
    Routed state env handshake (routeConn state env limiter handshake raw client).events := by
  have hevents : (routeConn state env limiter handshake raw client).events =
      (serveStatusOverride env state.cfg.handshakeTimeout override client).1 := by
    simp only [routeConn, hsel, if_pos hnext, hoverride]
    rcases serveStatusOverride env state.cfg.handshakeTimeout override client with ⟨events, _ | err⟩
    · rfl
    · rfl
  rw [hevents]
  exact .of_offBackend (serveStatus_offBackend env _ _ client)
    (.override hnext hsel hoverride (answers_serveStatusOverride env _ override client))

/-- **From the dial on** there is no other dial, and an answer only when it
failed. -/
theorem routed_dial {limiter : RateLimit.Limiter} {handshake : Handshake} {raw : GoString}
    {client : Conn} {selection : Selection}
    (hsel : state.router.select handshake.routeAddress = .ok selection)
    (hplain : handshake.nextState = nextStateStatus → selection.statusOverride = none) :
    Routed state env handshake (routeConn state env limiter handshake raw client).events := by
  have hnone : (if handshake.nextState = nextStateStatus then selection.statusOverride else none) =
      none := by
    split
    · rename_i hnext
      exact hplain hnext
    · rfl
  let address := selectedBackend handshake selection
  have hevents : (routeConn state env limiter handshake raw client).events =
      .notify address handshake.routeAddress handshake.nextState ::
        (dialAndProxy state env limiter handshake raw client address).events := by
    simp only [routeConn, hsel, hnone]
    rfl
  rw [hevents]
  -- the dial is the first action after the notification, and the only one
  have hshape : ∃ after, (dialAndProxy state env limiter handshake raw client address).events =
        .dial address :: after ∧ dialled after = [] ∧
      MayAnswer state env handshake (answers after) ∧
      ∀ bytes, .copyToClient bytes ∈ after → answers after = [] := by
    cases hdial : env.dial address with
    | error err =>
      simp only [dialAndProxy, hdial]
      refine ⟨_, rfl, ?_⟩
      split
      · rename_i hfallback
        simp only [statusFallbackForBackendFailureEnabled, statusFallbackEnabled, Bool.and_eq_true,
          Bool.or_eq_true, beq_iff_eq] at hfallback
        obtain ⟨⟨⟨henabled, hnext⟩, hrespond⟩, hreason⟩ := hfallback
        have hoff := serveStatus_offBackend env state.cfg.handshakeTimeout
          (fallbackStatus state.cfg) client
        refine ⟨dialled_eq_nil hoff, ?_, fun bytes hmem => absurd (hoff _ hmem) ?_⟩
        · exact .backendFailed hnext hsel (hplain hnext) hdial hreason henabled hrespond
            (answers_serveStatusFallback env state.cfg client)
        · simp [Event.onBackend]
      · exact ⟨rfl, .silent, by simp⟩
    | ok backend =>
      simp only [dialAndProxy, hdial]
      split
      · exact ⟨_, rfl, rfl, .silent, fun _ _ => rfl⟩
      · exact ⟨_, rfl, rfl, .silent, fun _ _ => rfl⟩
  obtain ⟨after, hafter, hdialled, hanswer, hproxied⟩ := hshape
  rw [hafter]
  have honce : dialled (.notify address handshake.routeAddress handshake.nextState ::
      .dial address :: after) = address :: dialled after := rfl
  refine ⟨?_, ?_, hanswer, ?_⟩
  · simp [honce, hdialled]
  · intro address' hmem
    have hmem' := mem_dialled.mpr hmem
    rw [honce, hdialled] at hmem'
    obtain rfl := List.mem_singleton.mp hmem'
    exact ⟨selection, hsel, hplain, rfl, after, rfl⟩
  · intro bytes hmem
    exact hproxied bytes (by simpa using hmem)

/-- **What a routed connection does.** -/
theorem routeConn_routed (state : ServerState) (env : ConnEnv) (limiter : RateLimit.Limiter)
    (handshake : Handshake) (raw : GoString) (client : Conn) :
    Routed state env handshake (routeConn state env limiter handshake raw client).events := by
  cases hsel : state.router.select handshake.routeAddress with
  | error err => exact routed_denied hsel
  | ok selection =>
    by_cases hnext : handshake.nextState = nextStateStatus
    · cases hoverride : selection.statusOverride with
      | some override => exact routed_override hsel hnext hoverride
      | none => exact routed_dial hsel fun _ => hoverride
    · exact routed_dial hsel fun h => absurd h hnext

/-- **Admission safety.** Whatever the snapshot, the peer, the client's
bytes and the outcome of the dial: at most one backend is dialled. It is
dialled after an address that the policy allows was admitted by the limiter
and its handshake read, for a selection that succeeded and that no override
answers, at the status backend exactly when the intent is status and there
is one. What the router itself writes to the client is an answer it may
give to the handshake of an admitted client, and nothing when the
connection is proxied. -/
theorem admission_safety (state : ServerState) (env : ConnEnv) :
    (dialled (handleConn state env).events).length ≤ 1 ∧
    (∀ address, .dial address ∈ (handleConn state env).events →
      ∃ (a : Admission state env) (selection : Selection),
        state.router.select a.handshake.routeAddress = .ok selection ∧
        (a.handshake.nextState = nextStateStatus → selection.statusOverride = none) ∧
        address = (if a.handshake.nextState = nextStateStatus ∧ selection.statusBackend ≠ [] then
          selection.statusBackend else selection.backend) ∧
        ∃ after, (handleConn state env).events = a.opening ++
          .notify address a.handshake.routeAddress a.handshake.nextState :: .dial address :: after) ∧
    (answers (handleConn state env).events = [] ∨ ∃ a : Admission state env,
      MayAnswer state env a.handshake (answers (handleConn state env).events)) ∧
    (∀ bytes, .copyToClient bytes ∈ (handleConn state env).events →
      answers (handleConn state env).events = []) := by
  rcases handleConn_cases state env with hquiet | ⟨a, limiter, hevents⟩
  · have hoff : ∀ e ∈ (handleConn state env).events, e.onBackend = false :=
      fun e he => (hquiet e he).1
    refine ⟨by simp [dialled_eq_nil hoff], fun address hmem => ?_, .inl (answers_eq_nil hquiet),
      fun _ _ => answers_eq_nil hquiet⟩
    exact absurd (hoff _ hmem) (by simp [Event.onBackend])
  · have hrouted := routeConn_routed state env limiter a.handshake a.raw a.rest
    -- nothing of the opening is on the backend or said to the client
    have hin : ∀ e, e.onBackend = true → e ∈ (handleConn state env).events →
        e ∈ (routeConn state env limiter a.handshake a.raw a.rest).events := by
      intro e hon he
      rw [hevents] at he
      rcases List.mem_append.mp he with he | he
      · rw [(a.opening_quiet e he).1] at hon
        cases hon
      · exact he
    have hdialled : dialled (handleConn state env).events =
        dialled (routeConn state env limiter a.handshake a.raw a.rest).events := by
      rw [hevents, dialled_append, a.dialled_opening, List.nil_append]
    have hanswers : answers (handleConn state env).events =
        answers (routeConn state env limiter a.handshake a.raw a.rest).events := by
      rw [hevents, answers_append, a.answers_opening, List.nil_append]
    refine ⟨?_, ?_, .inr ⟨a, ?_⟩, ?_⟩
    · rw [hdialled]
      exact hrouted.once
    · intro address hmem
      obtain ⟨selection, hsel, hplain, haddress, after, hafter⟩ :=
        hrouted.dial address (hin _ rfl hmem)
      exact ⟨a, selection, hsel, hplain, haddress, after, by rw [hevents, hafter]⟩
    · rw [hanswers]
      exact hrouted.answer
    · intro bytes hmem
      rw [hanswers]
      exact hrouted.proxied bytes (hin _ rfl hmem)

end Proxy

end McRouter
