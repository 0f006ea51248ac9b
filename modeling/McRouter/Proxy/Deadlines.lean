import McRouter.Proxy.Conn
import McRouter.Proxy.Coherence

/-!
# Read deadlines

A client that says nothing must not hold its connection for ever: before the
two sides are copied, every read has to happen under a deadline. The
handshake, the status request, the ping and the login start do, on every
path: each of the functions that read arms the deadline first, whatever it
was before (`bounded_readAndRoute`).

**The PROXY header does not.** It is read before any deadline is set, so the
law holds exactly for peers that are not trusted proxies
(`reads_bounded_iff`), and a trusted peer that sends nothing is waited for
without end (`header_read_unbounded`).
-/

namespace McRouter

namespace Proxy

open Config Proto

/-- The deadline for reads after an action, where `none` is no deadline: a
call that fails sets nothing. -/
@[simp] def Event.deadlineAfter (armed : Option Duration) : Event → Option Duration
  | .setReadDeadline timeout none => timeout
  | _ => armed

/-- The deadline after a run of actions on a new connection. -/
def deadlineAfter (events : List Event) : Option Duration :=
  events.foldl Event.deadlineAfter none

/-- Every read happens under the deadline of `timeout`. -/
def ReadsBounded (timeout : Duration) (events : List Event) : Prop :=
  ∀ before kind after, events = before ++ .read kind :: after → deadlineAfter before = some timeout

/-! ## Walking through the actions -/

/-- The same, from the deadline that is armed. -/
inductive Bounded (timeout : Duration) : Option Duration → List Event → Prop
  | nil {armed : Option Duration} : Bounded timeout armed []
  | cons {armed : Option Duration} {event : Event} {events : List Event}
      (hread : ∀ kind, event = .read kind → armed = some timeout)
      (hrest : Bounded timeout (event.deadlineAfter armed) events) :
      Bounded timeout armed (event :: events)

section Walk

variable {timeout : Duration} {armed : Option Duration} {events : List Event}

@[simp] theorem bounded_nil : Bounded timeout armed [] := .nil

@[simp] theorem bounded_cons {event : Event} : Bounded timeout armed (event :: events) ↔
    (∀ kind, event = .read kind → armed = some timeout) ∧
      Bounded timeout (event.deadlineAfter armed) events := by
  constructor
  · rintro (_ | ⟨hread, hrest⟩)
    exact ⟨hread, hrest⟩
  · rintro ⟨hread, hrest⟩
    exact .cons hread hrest

theorem bounded_iff (timeout : Duration) : ∀ (events : List Event) (armed : Option Duration),
    Bounded timeout armed events ↔ ∀ before kind after, events = before ++ .read kind :: after →
      before.foldl Event.deadlineAfter armed = some timeout := by
  intro events
  induction events with
  | nil =>
    intro armed
    simp
  | cons event events ih =>
    intro armed
    rw [bounded_cons, ih]
    constructor
    · rintro ⟨hread, hrest⟩ before kind after h
      cases before with
      | nil => exact hread kind (List.cons.inj h).1
      | cons e before =>
        obtain ⟨rfl, hrest'⟩ := List.cons.inj h
        exact hrest before kind after hrest'
    · intro h
      refine ⟨fun kind hkind => h [] kind events (by rw [hkind]; rfl), fun before kind after hrest => ?_⟩
      exact h (event :: before) kind after (by rw [hrest]; rfl)

theorem bounded_append {events' : List Event} : Bounded timeout armed (events ++ events') ↔
    Bounded timeout armed events ∧
      Bounded timeout (events.foldl Event.deadlineAfter armed) events' := by
  induction events generalizing armed with
  | nil => simp
  | cons event events ih =>
    rw [List.cons_append, bounded_cons, bounded_cons, ih, and_assoc, List.foldl_cons]

end Walk

/-! ## The handler's pieces

Each one is bounded from whatever is armed, so they may follow each other in
any way. -/

section Pieces

variable {state : ServerState} {env : ConnEnv} {armed : Option Duration}

theorem bounded_servePing (timeout : Duration) (client : Conn) :
    Bounded timeout armed (servePing env timeout client).1 := by
  unfold servePing
  cases env.setReadDeadline 3 with
  | some err => simp
  | none =>
    rcases readPacket connReader env.limits.maxPacketLength client with ⟨err | ⟨id, payload⟩, rest⟩
    · simp
    · simp only
      split_ifs <;> simp

/-- The status exchange, of an override or of the fallback. -/
theorem bounded_serveStatus (timeout : Duration) (status : StatusResponse) (client : Conn) :
    Bounded timeout armed (serveStatus env timeout status client).1 := by
  unfold serveStatus
  cases env.setReadDeadline 2 with
  | some err => simp
  | none =>
    rcases readPacket connReader env.limits.maxPacketLength client with ⟨err | ⟨id, payload⟩, rest⟩
    · simp
    · simp only
      split_ifs
      · simp
      · rcases writeAll (env.clientWrites 0) (buildStatusResponsePacket env.json status) with
          ⟨sent, _ | err⟩
        · exact bounded_append.mpr ⟨by simp, bounded_servePing timeout rest⟩
        · simp

theorem bounded_serveLoginDisconnectFallback (cfg : Config) (handshake : Handshake) (client : Conn) :
    Bounded cfg.handshakeTimeout armed (serveLoginDisconnectFallback env cfg handshake client).1 := by
  unfold serveLoginDisconnectFallback
  cases env.setReadDeadline 2 with
  | some err => simp
  | none =>
    rcases readPacket connReader env.limits.maxPacketLength client with ⟨err | ⟨id, payload⟩, rest⟩
    · simp
    · simp only
      split_ifs
      · simp
      · cases validateLoginStartPayload handshake.protocolVersion payload with
        | some err => simp
        | none =>
          cases buildLoginDisconnectPacket env.json handshake.protocolVersion
            cfg.fallback.login.message <;> simp

theorem bounded_dialAndProxy (limiter : RateLimit.Limiter) (handshake : Handshake) (raw : GoString)
    (client : Conn) (address : GoString) :
    Bounded state.cfg.handshakeTimeout armed
      (dialAndProxy state env limiter handshake raw client address).events := by
  unfold dialAndProxy
  cases env.dial address with
  | error err =>
    simp only
    split_ifs
    · exact .cons nofun (bounded_serveStatus _ _ client)
    · simp
  | ok backend =>
    simp only
    rcases writeAll backend.writes raw with ⟨sent, _ | err⟩ <;> simp

theorem bounded_routeConn (state : ServerState) (env : ConnEnv) (limiter : RateLimit.Limiter)
    (handshake : Handshake) (raw : GoString) (client : Conn) :
    Bounded state.cfg.handshakeTimeout armed
      (routeConn state env limiter handshake raw client).events := by
  unfold routeConn
  simp only
  cases state.router.select handshake.routeAddress with
  | error err =>
    simp only
    split_ifs
    · exact bounded_serveStatus _ _ client
    · exact bounded_serveLoginDisconnectFallback _ handshake client
    · exact .nil
  | ok selection =>
    simp only
    rcases (if handshake.nextState = nextStateStatus then selection.statusOverride else none) with
      _ | override
    · simp only [Handled.after]
      exact bounded_append.mpr ⟨by simp, bounded_dialAndProxy limiter handshake raw client _⟩
    · have hstatus : Bounded state.cfg.handshakeTimeout armed
          (serveStatusOverride env state.cfg.handshakeTimeout override client).1 :=
        bounded_serveStatus _ _ client
      simp only
      rcases hserve : serveStatusOverride env state.cfg.handshakeTimeout override client with
        ⟨events, _ | err⟩
      · simpa only [hserve] using hstatus
      · simpa only [hserve] using hstatus

/-- **From the admission on every read is bounded**, whatever was armed. -/
theorem bounded_readAndRoute (limiter : RateLimit.Limiter) (client : Conn) :
    Bounded state.cfg.handshakeTimeout armed (readAndRoute state env limiter client).events := by
  unfold readAndRoute
  cases env.setReadDeadline 0 with
  | some err => simp
  | none =>
    rcases readHandshake connReader env.limits client with ⟨⟨raw, err⟩ | ⟨hs, raw⟩, rest⟩
    · simp
    · simp only
      cases env.setReadDeadline 1 with
      | some err => simp
      | none =>
        simp only [Handled.after]
        exact bounded_append.mpr ⟨by simp, bounded_routeConn state env limiter hs raw rest⟩

end Pieces

/-- Once it is known whose connection it is, nothing is read without a
deadline. -/
theorem handleConn_after {state : ServerState} {env : ConnEnv} {addr : Netip.Addr}
    {before : List Event} {client : Conn} (hid : identify state env = .ok (addr, before, client)) :
    ∃ rest, (handleConn state env).events = before ++ rest ∧
      Bounded state.cfg.handshakeTimeout (before.foldl Event.deadlineAfter none) rest := by
  unfold handleConn
  rw [hid]
  simp only
  split_ifs
  · exact ⟨[], (List.append_nil _).symm, .nil⟩
  · exact ⟨[.allow addr false], rfl, by simp⟩
  · refine ⟨.allow addr true :: (readAndRoute state env
      (RateLimit.allow state.clientRateLimit addr env.now).2 client).events, ?_, ?_⟩
    · simp only [Handled.after, List.append_assoc, List.cons_append, List.nil_append]
    · exact .cons (by simp) (bounded_readAndRoute _ client)

/-- The peer is one of the proxies that announce their clients. -/
def fromTrustedProxy (state : ServerState) (env : ConnEnv) : Bool :=
  match addressFromAddr env.remoteAddr with
  | .error _ => false
  | .ok peer => ProxyProtocol.trusted state.trustedProxies peer

/-- A trusted proxy's header is read first, and there is no deadline yet. -/
theorem header_first {state : ServerState} {env : ConnEnv} (h : fromTrustedProxy state env = true) :
    ∃ rest, (handleConn state env).events = .read .proxyHeader :: rest := by
  unfold fromTrustedProxy at h
  cases hpeer : addressFromAddr env.remoteAddr with
  | error err => simp [hpeer] at h
  | ok peer =>
    have htrusted : ProxyProtocol.trusted state.trustedProxies peer = true := by simpa [hpeer] using h
    rcases hread : ProxyProtocol.read connReader env.client with ⟨err | addr, client⟩
    · have hid : identify state env = .error true := by
        simp [identify, hpeer, htrusted, hread]
      exact ⟨[], by simp [handleConn, hid]⟩
    · have hid : identify state env = .ok (addr, [.read .proxyHeader], client) := by
        simp [identify, hpeer, htrusted, hread]
      obtain ⟨rest, hevents, -⟩ := handleConn_after hid
      exact ⟨rest, hevents⟩

/-- **When no read is unbounded**: for every server and whatever a client
does, every read before the copying happens under a deadline of
`handshakeTimeout` exactly if the peer is not a trusted proxy. -/
theorem reads_bounded_iff (state : ServerState) (env : ConnEnv) :
    ReadsBounded state.cfg.handshakeTimeout (handleConn state env).events ↔
      fromTrustedProxy state env = false := by
  have hwalk := bounded_iff state.cfg.handshakeTimeout (handleConn state env).events none
  refine hwalk.symm.trans ?_
  cases htrusted : fromTrustedProxy state env with
  | true =>
    obtain ⟨rest, hevents⟩ := header_first htrusted
    rw [hevents]
    simp
  | false =>
    refine iff_of_true ?_ rfl
    unfold fromTrustedProxy at htrusted
    cases hpeer : addressFromAddr env.remoteAddr with
    | error err =>
      have hid : identify state env = .error false := by simp [identify, hpeer]
      simp [handleConn, hid]
    | ok peer =>
      have hnot : ProxyProtocol.trusted state.trustedProxies peer = false := by
        simpa [hpeer] using htrusted
      have hid : identify state env = .ok (peer, [], env.client) := by
        simp [identify, hpeer, hnot]
      obtain ⟨rest, hevents, hrest⟩ := handleConn_after hid
      rw [hevents]
      exact hrest

/-- A configuration that trusts one proxy. -/
def proxiedConfig : Config :=
  { playConfig with proxyProtocol := { trustedProxies := [go "10.0.0.1"] } }

/-- That proxy, which sends nothing. -/
def silentProxy : ConnEnv where
  json := ⟨fun _ => [], fun _ => []⟩
  limits := defaultLimits
  remoteAddr := .tcp [10, 0, 0, 1] (go "10.0.0.1:4711")
  client := ⟨[], ioEOF⟩
  now := 0
  setReadDeadline _ := none
  clientWrites _ := []
  dial _ := .error ioEOF

/-- A trusted proxy's header is read without a deadline. -/
theorem header_read_unbounded :
    ¬ ∀ (env₀ : Env) (cfg : Config) (discovered : List Kubernetes.DiscoveredRoute)
      (snapshot : RouteSnapshot) (state : ServerState),
      buildRouteSnapshot env₀ cfg discovered = .ok snapshot →
      newServerFromSnapshot snapshot = some state → ∀ env : ConnEnv,
        ReadsBounded state.cfg.handshakeTimeout (handleConn state env).events := by
  intro h
  have hvalid : proxiedConfig.validate emptyEnv = none := by decide +kernel
  obtain ⟨snapshot, hbuild, -⟩ := select_eq_decision hvalid []
  obtain ⟨state, hstate, hcoh⟩ := exists_coherent hbuild 1
  have hproxies := hcoh.access.2.2.1
  have hparse : ProxyProtocol.parseCIDRs proxiedConfig.proxyProtocol.trustedProxies =
      .ok [⟨.v4 0x0A000001, some 32⟩] := by decide +kernel
  have htrusted : state.trustedProxies = [⟨.v4 0x0A000001, some 32⟩] :=
    (Except.ok.inj (hparse.symm.trans hproxies)).symm
  have hfrom : fromTrustedProxy state silentProxy = true := by
    unfold fromTrustedProxy
    rw [htrusted]
    decide +kernel
  obtain ⟨rest, hevents⟩ := header_first hfrom
  have hdeadline := h _ _ _ snapshot state hbuild hstate silentProxy [] .proxyHeader rest hevents
  exact absurd hdeadline nofun

end Proxy

end McRouter
