import McRouter.Proto.Packet
import McRouter.Proxy.Server

/-!
# One client connection

`handleConn` of `proxy/server.go`, with the two status responders and the
login disconnect. A connection is a pure function of the server's state and
of what the outside does: the bytes the client sends and how they are cut,
how much each write takes, which calls fail. It yields the actions taken,
in order, and the result reported to the metrics. Logging is left out.
-/

namespace McRouter

namespace Proxy

open Config Unicode Netip Proto

/-! ## The outside -/

/-- What one `Write` does: how many bytes it takes, and the error it
returns. -/
structure WriteOutcome where
  accepted : ℕ
  err : Option Err := none
deriving DecidableEq

/-- What `proxy` sees end first. -/
inductive ProxyEnd where
  | contextDone
  | clientToBackend
  | backendToClient
deriving DecidableEq

/-- A dialled backend: what its writes do, how many of the client's
remaining bytes `io.Copy` gets across before it ends, what the backend
sends to the client, and what ends the copying. -/
structure Backend where
  writes : List WriteOutcome
  copied : ℕ
  toClient : GoString
  ended : ProxyEnd
deriving DecidableEq

/-- `client.RemoteAddr()`, with its `String`. -/
inductive RemoteAddr where
  | tcp (ip text : GoString)
  | other (text : GoString)
deriving DecidableEq

/-- Everything a connection gets from outside. `setReadDeadline n` and
`clientWrites n` are what the `n`-th such call does, `dial` what dialling an
address yields. -/
structure ConnEnv where
  json : Json
  limits : Limits
  remoteAddr : RemoteAddr
  client : Conn
  now : ℤ
  setReadDeadline : ℕ → Option Err
  clientWrites : ℕ → List WriteOutcome
  dial : GoString → Except Err Backend

/-! ## The actions -/

/-- What is read from the client. -/
inductive ReadKind where
  | proxyHeader
  | handshake
  | packet
deriving DecidableEq, Repr

/-- One action of the handler. -/
inductive Event where
  | setReadDeadline (timeout : Option Duration) (err : Option Err)
  | read (kind : ReadKind)
  | allow (addr : Addr) (admitted : Bool)
  | notify (backend serverAddress : GoString) (nextState : Int32)
  | dial (address : GoString)
  | writeBackend (bytes : GoString)
  | writeClient (bytes : GoString)
  | copyToBackend (bytes : GoString)
  | copyToClient (bytes : GoString)
deriving DecidableEq

/-- `connectionResult`. -/
inductive ConnectionResult where
  | closed
  | denied
  | failed
deriving DecidableEq, Repr

/-- `connectionReason`. -/
inductive Reason where
  | backendClose
  | backendDialFailed
  | backendDialTimeout
  | clientClose
  | clientDenied
  | contextCancelled
  | handshakeMalformed
  | handshakeTimeout
  | initialWriteFailed
  | routeDenied
  | rateLimited
  | success
  | unknown
deriving DecidableEq, Repr

/-- A handled connection: its actions, its result and the limiter after it. -/
structure Handled where
  events : List Event
  result : ConnectionResult
  reason : Reason
  limiter : RateLimit.Limiter

/-- Actions before the rest of a handler. -/
def Handled.after (events : List Event) (h : Handled) : Handled :=
  { h with events := events ++ h.events }

/-! ## The pieces -/

/-- `writeAll`: the bytes that went out, and the error. A script that ends
early goes on with writes that take everything. -/
def writeAll : List WriteOutcome → GoString → GoString × Option Err
  | _, [] => ([], none)
  | [], b :: data => (b :: data, none)
  | w :: script, b :: data =>
    match w.err with
    | some err => ((b :: data).take w.accepted, some err)
    | none =>
      if w.accepted = 0 then ([], some ⟨go "short write", [.ioShortWrite]⟩)
      else
        let rest := writeAll script ((b :: data).drop w.accepted)
        ((b :: data).take w.accepted ++ rest.1, rest.2)

/-- `addressFromAddr`. -/
def addressFromAddr : RemoteAddr → Except Err Addr
  | .tcp ip text =>
    match addrFromSlice ip with
    | none => .error ⟨go "parse client TCP address " ++ quote text, []⟩
    | some parsed => .ok parsed.unmap
  | .other text =>
    match splitHostPort text with
    | .error why => .error ⟨go "split client address " ++ quote text ++ go ": " ++ why, []⟩
    | .ok (host, _) =>
      match parseAddr host with
      | .error f => .error ⟨go "parse client address " ++ quote host ++ go ": " ++ f.text host, []⟩
      | .ok parsed => .ok parsed.unmap

/-- `isTimeout`. -/
def isTimeout (err : Err) : Bool := err.is .netTimeout

/-- `classifyDialError`. -/
def classifyDialError (err : Err) : Reason :=
  if err.is .contextCanceled then .contextCancelled
  else if err.is .contextDeadlineExceeded || isTimeout err then .backendDialTimeout
  else .backendDialFailed

/-- The reason of a proxied connection: `closeReasonForDirection` of the
direction that ended first. -/
def ProxyEnd.reason : ProxyEnd → Reason
  | contextDone => .contextCancelled
  | clientToBackend => .clientClose
  | backendToClient => .backendClose

/-- `selectedBackend`. -/
def selectedBackend (handshake : Handshake) (selection : Selection) : GoString :=
  if handshake.nextState = nextStateStatus ∧ selection.statusBackend ≠ [] then
    selection.statusBackend
  else selection.backend

/-- `statusFallbackEnabled`. -/
def statusFallbackEnabled (cfg : Config) (handshake : Handshake) : Bool :=
  cfg.fallback.enabled && cfg.fallback.status.enabled && handshake.nextState == nextStateStatus

/-- `statusFallbackForRouteDeniedEnabled`. -/
def statusFallbackForRouteDeniedEnabled (cfg : Config) (handshake : Handshake) : Bool :=
  statusFallbackEnabled cfg handshake && cfg.fallback.status.respondOnRouteDenied.getD true

/-- `statusFallbackForBackendFailureEnabled`. -/
def statusFallbackForBackendFailureEnabled (cfg : Config) (handshake : Handshake) (reason : Reason) :
    Bool :=
  statusFallbackEnabled cfg handshake && cfg.fallback.status.respondOnBackendFailure &&
    (reason == .backendDialFailed || reason == .backendDialTimeout)

/-- `loginFallbackEnabled`. -/
def loginFallbackEnabled (cfg : Config) (handshake : Handshake) : Bool :=
  cfg.fallback.enabled && cfg.fallback.login.enabled && handshake.nextState == nextStateLogin

/-- `loginFallbackForRouteDeniedEnabled`. -/
def loginFallbackForRouteDeniedEnabled (cfg : Config) (handshake : Handshake) : Bool :=
  loginFallbackEnabled cfg handshake && cfg.fallback.login.respondOnRouteDenied.getD true

/-! ## Answers of the router's own -/

/-- The second half of a status exchange: the ping and its pong. -/
def servePing (env : ConnEnv) (timeout : Duration) (client : Conn) : List Event × Option Err :=
  match env.setReadDeadline 3 with
  | some err => ([.setReadDeadline (some timeout) (some err)], some err)
  | none =>
    let asked := [.setReadDeadline (some timeout) none, .read .packet]
    match readPacket connReader env.limits.maxPacketLength client with
    | (.error err, _) => (asked, if err.is .ioEOF || isTimeout err then none else some err)
    | (.ok (packetID, payload), _) =>
      if packetID ≠ statusPingPacketID ∨ payload.length ≠ 8 then
        (asked, some ⟨go "malformed status ping", []⟩)
      else
        let (sent, err) := writeAll (env.clientWrites 1) (buildStatusPongPacket payload)
        (asked ++ [.writeClient sent], err)

/-- The status exchange that `serveStatusOverride` and
`serveStatusFallback` share: one request, the response, and a ping. -/
def serveStatus (env : ConnEnv) (timeout : Duration) (status : StatusResponse) (client : Conn) :
    List Event × Option Err :=
  match env.setReadDeadline 2 with
  | some err => ([.setReadDeadline (some timeout) (some err)], some err)
  | none =>
    let asked := [.setReadDeadline (some timeout) none, .read .packet]
    match readPacket connReader env.limits.maxPacketLength client with
    | (.error err, _) => (asked, some err)
    | (.ok (packetID, payload), client) =>
      if packetID ≠ statusRequestPacketID ∨ payload.length ≠ 0 then
        (asked, some ⟨go "malformed status request", []⟩)
      else
        match writeAll (env.clientWrites 0) (buildStatusResponsePacket env.json status) with
        | (sent, some err) => (asked ++ [.writeClient sent], some err)
        | (sent, none) =>
          let (events, err) := servePing env timeout client
          (asked ++ [.writeClient sent] ++ events, err)

/-- `serveStatusOverride`. -/
def serveStatusOverride (env : ConnEnv) (handshakeTimeout : Duration) (override : StatusOverride) :
    Conn → List Event × Option Err :=
  serveStatus env handshakeTimeout ⟨override.protocolName, override.protocolVersion,
    override.maxPlayers, override.onlinePlayers, override.motd⟩

/-- `serveStatusFallback`. -/
def serveStatusFallback (env : ConnEnv) (cfg : Config) : Conn → List Event × Option Err :=
  serveStatus env cfg.handshakeTimeout ⟨cfg.fallback.status.protocolName,
    cfg.fallback.status.protocolVersion, cfg.fallback.status.maxPlayers,
    cfg.fallback.status.onlinePlayers, cfg.fallback.status.motd⟩

/-- `serveLoginDisconnectFallback`. -/
def serveLoginDisconnectFallback (env : ConnEnv) (cfg : Config) (handshake : Handshake)
    (client : Conn) : List Event × Option Err :=
  match env.setReadDeadline 2 with
  | some err => ([.setReadDeadline (some cfg.handshakeTimeout) (some err)], some err)
  | none =>
    let asked := [.setReadDeadline (some cfg.handshakeTimeout) none, .read .packet]
    match readPacket connReader env.limits.maxPacketLength client with
    | (.error err, _) => (asked, some err)
    | (.ok (packetID, payload), _) =>
      if packetID ≠ loginStartPacketID then (asked, some ⟨go "malformed login start", []⟩)
      else match validateLoginStartPayload handshake.protocolVersion payload with
        | some err => (asked, some err)
        | none =>
          match buildLoginDisconnectPacket env.json handshake.protocolVersion
              cfg.fallback.login.message with
          | .error err => (asked, some err)
          | .ok response =>
            let (sent, err) := writeAll (env.clientWrites 0) response
            (asked ++ [.writeClient sent], err)

/-! ## The handler -/

/-- From the dial on: `rawHandshake` goes to the backend first, then the
two directions are copied. `client` is the connection after the
handshake. -/
def dialAndProxy (state : ServerState) (env : ConnEnv) (limiter : RateLimit.Limiter)
    (handshake : Handshake) (rawHandshake : GoString) (client : Conn) (backendAddress : GoString) :
    Handled :=
  match env.dial backendAddress with
  | .error err =>
    let reason := classifyDialError err
    let answer := if statusFallbackForBackendFailureEnabled state.cfg handshake reason then
      (serveStatusFallback env state.cfg client).1 else []
    ⟨.dial backendAddress :: answer, .failed, reason, limiter⟩
  | .ok backend =>
    match writeAll backend.writes rawHandshake with
    | (sent, some _) =>
      ⟨[.dial backendAddress, .writeBackend sent], .failed, .initialWriteFailed, limiter⟩
    | (sent, none) =>
      ⟨[.dial backendAddress, .writeBackend sent,
        .copyToBackend (client.view.rest.take backend.copied), .copyToClient backend.toClient],
        .closed, backend.ended.reason, limiter⟩

/-- From the parsed handshake on. -/
def routeConn (state : ServerState) (env : ConnEnv) (limiter : RateLimit.Limiter)
    (handshake : Handshake) (rawHandshake : GoString) (client : Conn) : Handled :=
  let routeAddress := handshake.routeAddress
  match state.router.select routeAddress with
  | .error _ =>
    let answer :=
      if statusFallbackForRouteDeniedEnabled state.cfg handshake then
        (serveStatusFallback env state.cfg client).1
      else if loginFallbackForRouteDeniedEnabled state.cfg handshake then
        (serveLoginDisconnectFallback env state.cfg handshake client).1
      else []
    ⟨answer, .denied, .routeDenied, limiter⟩
  | .ok selection =>
    match (if handshake.nextState = nextStateStatus then selection.statusOverride else none) with
    | some override =>
      match serveStatusOverride env state.cfg.handshakeTimeout override client with
      | (events, some _) => ⟨events, .failed, .unknown, limiter⟩
      | (events, none) => ⟨events, .closed, .success, limiter⟩
    | none =>
      let backendAddress := selectedBackend handshake selection
      (dialAndProxy state env limiter handshake rawHandshake client backendAddress).after
        [.notify backendAddress routeAddress handshake.nextState]

/-- From the admitted client on: the handshake under its deadline. -/
def readAndRoute (state : ServerState) (env : ConnEnv) (limiter : RateLimit.Limiter) (client : Conn) :
    Handled :=
  let timeout := some state.cfg.handshakeTimeout
  match env.setReadDeadline 0 with
  | some err => ⟨[.setReadDeadline timeout (some err)], .failed, .unknown, limiter⟩
  | none =>
    let asked := [.setReadDeadline timeout none, .read .handshake]
    match readHandshake connReader env.limits client with
    | (.error (_, err), _) =>
      ⟨asked, .denied, if isTimeout err then .handshakeTimeout else .handshakeMalformed, limiter⟩
    | (.ok (handshake, rawHandshake), client) =>
      match env.setReadDeadline 1 with
      | some err => ⟨asked ++ [.setReadDeadline none (some err)], .failed, .unknown, limiter⟩
      | none =>
        (routeConn state env limiter handshake rawHandshake client).after
          (asked ++ [.setReadDeadline none none])

/-- Whose connection it is, and where its stream starts: after a PROXY
header when the peer is trusted, at the first byte otherwise. The error is
`true` when a header was there to read and could not be. -/
def identify (state : ServerState) (env : ConnEnv) : Except Bool (Addr × List Event × Conn) :=
  match addressFromAddr env.remoteAddr with
  | .error _ => .error false
  | .ok peer =>
    if ProxyProtocol.trusted state.trustedProxies peer then
      match ProxyProtocol.read connReader env.client with
      | (.error _, _) => .error true
      | (.ok addr, client) => .ok (addr, [.read .proxyHeader], client)
    else .ok (peer, [], env.client)

/-- `handleConn`. -/
def handleConn (state : ServerState) (env : ConnEnv) : Handled :=
  match identify state env with
  | .error true => ⟨[.read .proxyHeader], .denied, .handshakeMalformed, state.clientRateLimit⟩
  | .error false => ⟨[], .denied, .clientDenied, state.clientRateLimit⟩
  | .ok (clientAddr, events, client) =>
    if !state.clientPolicy.allows clientAddr then
      ⟨events, .denied, .clientDenied, state.clientRateLimit⟩
    else
      let (admitted, limiter) := RateLimit.allow state.clientRateLimit clientAddr env.now
      if !admitted then ⟨events ++ [.allow clientAddr false], .denied, .rateLimited, limiter⟩
      else (readAndRoute state env limiter client).after (events ++ [.allow clientAddr true])

/-! ## The limiter after a connection -/

section Limiter

variable {s : ServerState} {env : ConnEnv} {l : RateLimit.Limiter}

theorem limiter_dialAndProxy {handshake : Handshake} {raw : GoString} {client : Conn}
    {address : GoString} : (dialAndProxy s env l handshake raw client address).limiter = l := by
  unfold dialAndProxy
  cases env.dial address with
  | error err => rfl
  | ok backend =>
    simp only
    rcases writeAll backend.writes raw with ⟨sent, _ | _⟩ <;> rfl

theorem limiter_routeConn (handshake : Handshake) (raw : GoString) (client : Conn) :
    (routeConn s env l handshake raw client).limiter = l := by
  unfold routeConn
  simp only
  cases s.router.select handshake.routeAddress with
  | error err => rfl
  | ok selection =>
    simp only
    rcases (if handshake.nextState = nextStateStatus then selection.statusOverride else none) with
      _ | override
    · exact limiter_dialAndProxy
    · simp only
      rcases serveStatusOverride env s.cfg.handshakeTimeout override client with ⟨events, _ | _⟩ <;> rfl

/-- Nothing after the admission of a client touches the limiter. -/
theorem limiter_readAndRoute {client : Conn} : (readAndRoute s env l client).limiter = l := by
  unfold readAndRoute
  cases env.setReadDeadline 0 with
  | some err => rfl
  | none =>
    rcases readHandshake connReader env.limits client with ⟨⟨raw, err⟩ | ⟨hs, raw⟩, rest⟩
    · rfl
    · simp only
      cases env.setReadDeadline 1 with
      | some err => rfl
      | none =>
        simp only [Handled.after]
        exact limiter_routeConn hs raw rest

end Limiter

end Proxy

end McRouter
