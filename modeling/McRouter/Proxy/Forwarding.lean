import McRouter.Proxy.Conn

/-!
# Transparent forwarding

The router parses the handshake and forwards the bytes it parsed, then the
rest of the stream. So the backend receives the client's stream, byte for
byte and however the network cut it: from its first byte, or from the end
of the PROXY header a trusted peer put in front
(`transparent_forwarding`). A stream whose handshake does not parse reaches
no backend.
-/

namespace McRouter

namespace Proxy

open Config Netip Proto

/-! ## What reaches a backend -/

/-- The bytes an action delivers to the backend. -/
def Event.toBackend : Event → GoString
  | .writeBackend bytes => bytes
  | .copyToBackend bytes => bytes
  | _ => []

/-- An action on a backend: dialling it, or moving bytes to or from it. -/
def Event.onBackend : Event → Bool
  | .dial _ => true
  | .writeBackend _ => true
  | .copyToBackend _ => true
  | .copyToClient _ => true
  | _ => false

/-- Everything the actions deliver to the backend, in order. -/
def delivered (events : List Event) : GoString := events.flatMap Event.toBackend

@[simp] theorem delivered_append (es es' : List Event) :
    delivered (es ++ es') = delivered es ++ delivered es' :=
  List.flatMap_append

/-- Actions off the backend deliver nothing to it. -/
theorem delivered_eq_nil {events : List Event} (h : ∀ e ∈ events, e.onBackend = false) :
    delivered events = [] := by
  refine List.flatMap_eq_nil_iff.mpr fun e he => ?_
  have := h e he
  cases e <;> simp_all [Event.onBackend, Event.toBackend]

/-! ## Partial writes -/

/-- What goes out is a beginning of the data, and all of it when there is
no error. -/
theorem writeAll_prefix (script : List WriteOutcome) : ∀ data : GoString,
    (writeAll script data).1 <+: data ∧
      ((writeAll script data).2 = none → (writeAll script data).1 = data) := by
  induction script with
  | nil => intro data; cases data <;> simp [writeAll]
  | cons w script ih =>
    intro data
    cases data with
    | nil => simp [writeAll]
    | cons b data =>
      obtain ⟨hpre, hall⟩ := ih ((b :: data).drop w.accepted)
      rw [writeAll]
      split
      · exact ⟨List.take_prefix _ _, by simp⟩
      · split
        · exact ⟨List.nil_prefix, by simp⟩
        · dsimp only
          have hsplit := List.take_append_drop w.accepted (b :: data)
          refine ⟨?_, fun herr => ?_⟩
          · obtain ⟨t, ht⟩ := hpre
            exact ⟨t, by rw [List.append_assoc, ht, hsplit]⟩
          · rw [hall herr, hsplit]

/-- **Writes that make progress deliver everything.** -/
theorem writeAll_of_progress (script : List WriteOutcome)
    (h : ∀ w ∈ script, w.err = none ∧ 1 ≤ w.accepted) : ∀ data : GoString,
    writeAll script data = (data, none) := by
  induction script with
  | nil => intro data; cases data <;> rfl
  | cons w script ih =>
    intro data
    cases data with
    | nil => rfl
    | cons b data =>
      obtain ⟨herr, hpos⟩ := h w (by simp)
      rw [writeAll, herr, ih (fun v hv => h v (by simp [hv]))]
      simp [Nat.ne_of_gt hpos]

/-! ## The stages -/

/-- What forwarding a stream means: the backend gets a beginning of it, and
all of it when it is dialled, its writes make progress and the copying runs
to the end. -/
structure Forwards (env : ConnEnv) (events : List Event) (stream : GoString) : Prop where
  upTo : delivered events <+: stream
  whole : ∀ address backend, .dial address ∈ events → env.dial address = .ok backend →
    (∀ w ∈ backend.writes, w.err = none ∧ 1 ≤ w.accepted) → stream.length ≤ backend.copied →
    delivered events = stream

namespace Forwards

variable {env : ConnEnv} {events before : List Event} {stream : GoString}

/-- A handler that does nothing on a backend forwards nothing. -/
theorem of_offBackend (h : ∀ e ∈ events, e.onBackend = false) : Forwards env events stream where
  upTo := by
    rw [delivered_eq_nil h]
    exact List.nil_prefix
  whole address backend hmem _ _ _ := absurd (h _ hmem) (by simp [Event.onBackend])

/-- Actions off the backend before the rest do not matter. -/
theorem after (h : Forwards env events stream) (hbefore : ∀ e ∈ before, e.onBackend = false) :
    Forwards env (before ++ events) stream where
  upTo := by
    rw [delivered_append, delivered_eq_nil hbefore]
    exact h.upTo
  whole address backend hmem hok hprog hlen := by
    rw [delivered_append, delivered_eq_nil hbefore]
    rcases List.mem_append.mp hmem with hm | hm
    · exact absurd (hbefore _ hm) (by simp [Event.onBackend])
    · exact h.whole address backend hm hok hprog hlen

end Forwards

section Stages

variable (state : ServerState) (env : ConnEnv) (limiter : RateLimit.Limiter)

theorem servePing_offBackend (timeout : Duration) (client : Conn) :
    ∀ e ∈ (servePing env timeout client).1, e.onBackend = false := by
  unfold servePing
  repeat' split
  all_goals simp [Event.onBackend]

theorem serveStatus_offBackend (timeout : Duration) (status : StatusResponse) (client : Conn) :
    ∀ e ∈ (serveStatus env timeout status client).1, e.onBackend = false := by
  unfold serveStatus
  split
  · simp [Event.onBackend]
  split
  · simp [Event.onBackend]
  split
  · simp [Event.onBackend]
  split
  · simp [Event.onBackend]
  · exact List.forall_mem_append.mpr ⟨by simp [Event.onBackend], servePing_offBackend env timeout _⟩

theorem serveLoginDisconnectFallback_offBackend (cfg : Config) (handshake : Handshake)
    (client : Conn) :
    ∀ e ∈ (serveLoginDisconnectFallback env cfg handshake client).1, e.onBackend = false := by
  unfold serveLoginDisconnectFallback
  repeat' split
  all_goals simp [Event.onBackend]

/-- **From the dial on** the raw handshake and the rest are forwarded. -/
theorem dialAndProxy_forwards (handshake : Handshake) (raw : GoString) (client : Conn)
    (address : GoString) :
    Forwards env (dialAndProxy state env limiter handshake raw client address).events
      (raw ++ client.view.rest) := by
  cases hdial : env.dial address with
  | error err =>
    simp only [dialAndProxy, hdial]
    have hoff : ∀ e ∈ (if statusFallbackForBackendFailureEnabled state.cfg handshake
        (classifyDialError err) then (serveStatusFallback env state.cfg client).1 else []),
        e.onBackend = false := by
      split
      · exact serveStatus_offBackend env _ _ client
      · simp
    constructor
    · rw [delivered, List.flatMap_cons]
      rw [show List.flatMap Event.toBackend _ = _ from delivered_eq_nil hoff]
      exact List.nil_prefix
    · intro address' backend hmem hok
      rcases List.mem_cons.mp hmem with heq | hmem
      · cases heq
        rw [hdial] at hok
        cases hok
      · exact absurd (hoff _ hmem) (by simp [Event.onBackend])
  | ok backend =>
    obtain ⟨hpre, hall⟩ := writeAll_prefix backend.writes raw
    rcases hw : writeAll backend.writes raw with ⟨sent, _ | err⟩
    · -- everything was taken, and the copying starts
      rw [hw] at hall
      simp only [dialAndProxy, hdial, hw]
      obtain rfl : sent = raw := hall rfl
      constructor
      · simpa [delivered, Event.toBackend] using
          List.take_prefix backend.copied client.view.rest
      · intro address' backend' hmem hok _ hlen
        simp only [List.mem_cons, Event.dial.injEq, reduceCtorEq, List.not_mem_nil, or_self,
          or_false] at hmem
        rw [hmem, hdial, Except.ok.injEq] at hok
        subst hok
        have hrest : client.view.rest.length ≤ backend.copied := by
          rw [List.length_append] at hlen
          omega
        simp [delivered, Event.toBackend, List.take_of_length_le hrest]
    · -- a write failed, so one of them made no progress
      rw [hw] at hpre
      simp only [dialAndProxy, hdial, hw]
      constructor
      · simpa [delivered, Event.toBackend] using hpre.trans (List.prefix_append raw client.view.rest)
      · intro address' backend' hmem hok hprog _
        simp only [List.mem_cons, Event.dial.injEq, reduceCtorEq, List.not_mem_nil, or_self,
          or_false] at hmem
        rw [hmem, hdial, Except.ok.injEq] at hok
        subst hok
        rw [writeAll_of_progress _ hprog] at hw
        cases hw

/-- The same from the parsed handshake on. -/
theorem routeConn_forwards (handshake : Handshake) (raw : GoString) (client : Conn) :
    Forwards env (routeConn state env limiter handshake raw client).events
      (raw ++ client.view.rest) := by
  cases hsel : state.router.select handshake.routeAddress with
  | error err =>
    simp only [routeConn, hsel]
    refine Forwards.of_offBackend ?_
    split
    · exact serveStatus_offBackend env _ _ client
    · split
      · exact serveLoginDisconnectFallback_offBackend env _ handshake client
      · simp
  | ok selection =>
    simp only [routeConn, hsel]
    split
    · rename_i override _
      have hoff : ∀ e ∈ (serveStatusOverride env state.cfg.handshakeTimeout override client).1,
          e.onBackend = false := serveStatus_offBackend env _ _ client
      split
      · rename_i heq
        rw [heq] at hoff
        exact Forwards.of_offBackend hoff
      · rename_i heq
        rw [heq] at hoff
        exact Forwards.of_offBackend hoff
    · exact (dialAndProxy_forwards state env limiter handshake raw client _).after
        (by simp [Event.onBackend])

/-- **From the admitted client on** its stream is forwarded. -/
theorem readAndRoute_forwards (client : Conn) :
    Forwards env (readAndRoute state env limiter client).events client.view.rest := by
  unfold readAndRoute
  cases env.setReadDeadline 0 with
  | some err => exact Forwards.of_offBackend (by simp [Event.onBackend])
  | none =>
    rcases hread : readHandshake connReader env.limits client with ⟨⟨raw, err⟩ | ⟨hs, raw⟩, client'⟩
    · exact Forwards.of_offBackend (by simp [Event.onBackend])
    · simp only
      cases env.setReadDeadline 1 with
      | some err => exact Forwards.of_offBackend (by simp [Event.onBackend])
      | none =>
        rw [readHandshake_consumes hread]
        exact (routeConn_forwards state env limiter hs raw client').after
          (by simp [Event.onBackend])

/-- A handshake that does not parse is the end of it. -/
theorem readAndRoute_offBackend {client client' : Conn} {failure : GoString × Err}
    (h : readHandshake connReader env.limits client = (.error failure, client')) :
    ∀ e ∈ (readAndRoute state env limiter client).events, e.onBackend = false := by
  unfold readAndRoute
  cases env.setReadDeadline 0 with
  | some err => simp [Event.onBackend]
  | none => simp [h, Event.onBackend]

end Stages

/-- The stream starts after the header of a trusted peer. -/
theorem identify_stream {state : ServerState} {env : ConnEnv} {addr : Addr} {events : List Event}
    {client : Conn} (h : identify state env = .ok (addr, events, client)) :
    (∃ header, env.client.view.rest = header ++ client.view.rest ∧
      (.read .proxyHeader ∉ events → header = [])) ∧ ∀ e ∈ events, e.onBackend = false := by
  unfold identify at h
  split at h
  · cases h
  split at h
  · split at h
    · cases h
    · rename_i hread
      cases h
      obtain ⟨header, hheader⟩ := ProxyProtocol.read_consumes hread
      exact ⟨⟨header, hheader, by simp⟩, by simp [Event.onBackend]⟩
  · cases h
    exact ⟨⟨[], rfl, fun _ => rfl⟩, by simp⟩

/-- **Transparent forwarding.** The raw bytes of a parsed handshake are the
part of the stream that was consumed. A connection whose peer is identified
forwards that peer's stream, which starts after the PROXY header if one was
read and at the first byte otherwise: what the backend gets is a beginning
of the stream, and the whole stream when the backend was dialled, each of
its writes takes at least a byte and the copying runs to the end. When the
handshake does not parse, and when the peer is not identified, no backend
is dialled or written to. -/
theorem transparent_forwarding (state : ServerState) (env : ConnEnv) :
    (∀ (limits : Limits) (s s' : Conn) (handshake : Handshake) (raw : GoString),
      readHandshake connReader limits s = (.ok (handshake, raw), s') →
        raw ++ s'.view.rest = s.view.rest) ∧
    (∀ refused, identify state env = .error refused →
      ∀ e ∈ (handleConn state env).events, e.onBackend = false) ∧
    ∀ addr before client, identify state env = .ok (addr, before, client) →
      (∃ header, env.client.view.rest = header ++ client.view.rest ∧
        (.read .proxyHeader ∉ before → header = [])) ∧
      delivered (handleConn state env).events <+: client.view.rest ∧
      (∀ address backend, .dial address ∈ (handleConn state env).events →
        env.dial address = .ok backend → (∀ w ∈ backend.writes, w.err = none ∧ 1 ≤ w.accepted) →
        client.view.rest.length ≤ backend.copied →
        delivered (handleConn state env).events = client.view.rest) ∧
      (∀ failure client', readHandshake connReader env.limits client = (.error failure, client') →
        ∀ e ∈ (handleConn state env).events, e.onBackend = false) := by
  refine ⟨fun limits s s' handshake raw h => (readHandshake_consumes h).symm, ?_, ?_⟩
  · intro refused h
    unfold handleConn
    rw [h]
    cases refused <;> simp [Event.onBackend]
  · intro addr before client h
    obtain ⟨hheader, hbefore⟩ := identify_stream h
    have hallow : ∀ admitted, ∀ e ∈ before ++ [.allow addr admitted], e.onBackend = false := by
      intro admitted e he
      rcases List.mem_append.mp he with he | he
      · exact hbefore e he
      · rw [List.mem_singleton.mp he]
        rfl
    -- the client is refused, or its stream is read
    have hcases : (∀ e ∈ (handleConn state env).events, e.onBackend = false) ∨
        ∃ limiter, (handleConn state env).events =
          (before ++ [.allow addr true]) ++ (readAndRoute state env limiter client).events := by
      unfold handleConn
      rw [h]
      simp only
      split
      · exact Or.inl hbefore
      · split
        · exact Or.inl (hallow false)
        · exact Or.inr ⟨_, rfl⟩
    rcases hcases with hoff | ⟨limiter, hevents⟩
    · have hfwd : Forwards env _ client.view.rest := Forwards.of_offBackend hoff
      exact ⟨hheader, hfwd.upTo, hfwd.whole, fun _ _ _ => hoff⟩
    · have hfwd := (readAndRoute_forwards state env limiter client).after (hallow true)
      rw [hevents]
      refine ⟨hheader, hfwd.upTo, hfwd.whole, fun failure client' hfail e he => ?_⟩
      rcases List.mem_append.mp he with he | he
      · exact hallow true e he
      · exact readAndRoute_offBackend state env limiter hfail e he

/-- A state that routes every host to one backend and admits everyone. -/
def openState : ServerState where
  generation := 1
  staticConfig := {}
  cfg := {}
  router := ⟨∅, go "10.0.0.1:25565", unknownHostDefault⟩
  clientPolicy := ⟨[], []⟩
  clientRateLimit := RateLimit.new (rateLimitConfig {})
  trustedProxies := [⟨.v4 0x0A000002, some 32⟩]
  discoveryMerge := Discovery.mergeRoutes [] [] {}
  discoveredRoutes := []

/-- A login handshake behind a PROXY header, its length and packet id
written in more bytes than needed, cut in the middle of both, and sent on
in writes of one and three bytes. -/
def paddedEnv : ConnEnv where
  json := ⟨fun _ => [], fun _ => []⟩
  limits := defaultLimits
  remoteAddr := .tcp [10, 0, 0, 2] (go "10.0.0.2:40000")
  client := ⟨[go "PROXY TCP4 203.0.113.7 192.0.2.1 1 2\r\n" ++ [0x8B], [0x00, 0x80],
    [0x00, 0xFF, 0x05, 0x03, 97, 46, 98, 0x63, 0xDD, 0x02, 1], [2, 3]], ioEOF⟩
  now := 0
  setReadDeadline _ := none
  clientWrites _ := []
  dial _ := .ok ⟨[⟨1, none⟩, ⟨3, none⟩], 100, [], .clientToBackend⟩

/-- The backend gets the stream after the header, padding included. -/
theorem transparent_forwarding_padded :
    delivered (handleConn openState paddedEnv).events =
      [0x8B, 0x00, 0x80, 0x00, 0xFF, 0x05, 0x03, 97, 46, 98, 0x63, 0xDD, 0x02, 1, 2, 3] := by
  have h := (transparent_forwarding openState paddedEnv).2.2 (.v4 0xCB007107) [.read .proxyHeader]
    ⟨[[0x8B], [0x00, 0x80], [0x00, 0xFF, 0x05, 0x03, 97, 46, 98, 0x63, 0xDD, 0x02, 1], [2, 3]],
      ioEOF⟩ (by decide +kernel)
  exact h.2.2.1 (go "10.0.0.1:25565") _ (by decide +kernel) rfl (by decide) (by decide)

end Proxy

end McRouter
