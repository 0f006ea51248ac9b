import McRouter.Common.Settling
import McRouter.Limits.Buckets
import McRouter.Proxy.Forwarding

/-!
# The accept loop and its connections

`Serve`, `Shutdown`, the reloads and one goroutine for each connection run
side by side. They share the pointer to the current state, the limiter of
each state, the wait group, the listener and the metrics. What a connection
does with its client and its backend is `handleConn`; here is when it does it.

A handler loads the state once, so a reload does not touch it, and it takes
the limiter's lock once. `screen` and `Peer.rest` are the parts of
`handleConn` before and after the lock, and a step of a handler goes up to
the next thing it shares with others.

The states that were ever stored stay in the world, in the order in which
they were stored: a handler may hold any of them. `log` is not part of the
program; it lists the connections in the order of the limiter's lock, each
with what `handleConn` would have done with it at that moment.
-/

namespace McRouter

namespace Proxy

namespace Serving

open Netip

/-! ## The two sides of the lock -/

/-- A client that comes to the limiter. -/
structure Peer where
  addr : Addr
  events : List Event
  client : Conn

/-- `handleConn` before the limiter; the error is what was done with a
refused client, and why it was refused. -/
def screen (state : ServerState) (env : ConnEnv) : Except (List Event × Reason) Peer :=
  match identify state env with
  | .error true => .error ([.read .proxyHeader], .handshakeMalformed)
  | .error false => .error ([], .clientDenied)
  | .ok (clientAddr, events, client) =>
    if !state.clientPolicy.allows clientAddr then .error (events, .clientDenied)
    else .ok ⟨clientAddr, events, client⟩

/-- `handleConn` after the limiter, which was left as `limiter`. -/
def Peer.rest (peer : Peer) (state : ServerState) (env : ConnEnv) (admitted : Bool)
    (limiter : RateLimit.Limiter) : Handled :=
  if !admitted then ⟨peer.events ++ [.allow peer.addr false], .denied, .rateLimited, limiter⟩
  else (readAndRoute state env limiter peer.client).after (peer.events ++ [.allow peer.addr true])

section Sides

variable {state : ServerState} {env : ConnEnv}

/-- **A refused client** does not come to the limiter. -/
theorem handleConn_of_refused {events : List Event} {reason : Reason}
    (h : screen state env = .error (events, reason)) :
    handleConn state env = ⟨events, .denied, reason, state.clientRateLimit⟩ := by
  unfold screen at h
  unfold handleConn
  rcases hid : identify state env with (_ | _) | ⟨addr, before, client⟩ <;> simp only [hid] at h ⊢
  · cases h
    rfl
  · cases h
    rfl
  · split_ifs at h with hallows
    cases h
    rw [if_pos hallows]

/-- **The others** are answered by it, and the rest follows from the answer. -/
theorem handleConn_of_screened {peer : Peer} (h : screen state env = .ok peer) :
    handleConn state env =
      peer.rest state env (RateLimit.allow state.clientRateLimit peer.addr env.now).1
        (RateLimit.allow state.clientRateLimit peer.addr env.now).2 := by
  unfold screen at h
  unfold handleConn
  rcases hid : identify state env with (_ | _) | ⟨addr, before, client⟩ <;> simp only [hid] at h ⊢
  · cases h
  · cases h
  · split_ifs at h with hallows
    cases h
    rw [if_neg hallows]
    rfl

/-- The rest of a handler leaves the limiter alone. -/
theorem limiter_rest (peer : Peer) (admitted : Bool) (limiter : RateLimit.Limiter) :
    (peer.rest state env admitted limiter).limiter = limiter := by
  cases admitted with
  | false => rfl
  | true => exact limiter_readAndRoute

end Sides

/-! ## The world -/

/-- A stored state. Its limiter is the only part that changes. -/
structure Version where
  stored : ServerState
  limiter : RateLimit.Limiter

/-- The state as a handler finds it. -/
def Version.state (v : Version) : ServerState := { v.stored with clientRateLimit := v.limiter }

def Version.ofState (state : ServerState) : Version := ⟨state, state.clientRateLimit⟩

/-- Nothing but the lock's holder looks at the limiter. -/
theorem Peer.rest_state (peer : Peer) (v : Version) (env : ConnEnv) (admitted : Bool)
    (limiter : RateLimit.Limiter) :
    peer.rest v.state env admitted limiter = peer.rest v.stored env admitted limiter := by
  have hcfg : v.state.cfg = v.stored.cfg := rfl
  have hrouter : v.state.router = v.stored.router := rfl
  simp only [rest, readAndRoute, routeConn, dialAndProxy, hcfg, hrouter]

/-- The labels of `connectionsTotal`. -/
inductive Label where
  | accepted
  | finished (result : ConnectionResult) (reason : Reason)
deriving DecidableEq

/-- The connection part of the recorder; a counter is the list of its
increments. -/
structure Metrics where
  enabled : Bool
  connectionsTotal : List Label := []
  activeConnections : ℤ := 0

/-- `ConnectionAccepted`. -/
def Metrics.connectionAccepted (m : Metrics) : Metrics :=
  if !m.enabled then m
  else { m with
    connectionsTotal := m.connectionsTotal ++ [.accepted]
    activeConnections := m.activeConnections + 1 }

/-- `ConnectionFinished`. -/
def Metrics.connectionFinished (m : Metrics) (result : ConnectionResult) (reason : Reason) :
    Metrics :=
  if !m.enabled then m
  else { m with
    connectionsTotal := m.connectionsTotal ++ [.finished result reason]
    activeConnections := m.activeConnections - 1 }

/-- Where a connection is: in the hands of `Serve`, or what its handler did
last. -/
inductive Phase where
  | held
  | started
  | counted
  | loaded (version : ℕ)
  | clocked (version : ℕ) (peer : Peer) (now : ℤ)
  | answered (version : ℕ) (peer : Peer) (now : ℤ) (admitted : Bool) (limiter : RateLimit.Limiter)
  | recorded (version : ℕ) (handled : Handled)
  | closed (version : ℕ) (handled : Handled)
  | done (version : ℕ) (handled : Handled)

/-- An accepted connection. `env` is what it will get from outside, apart
from the clock, and `since` the number of states stored when it came. -/
structure Connection where
  env : ConnEnv
  since : ℕ
  phase : Phase

/-- `Serve`. -/
inductive Serve where
  | idle
  | accepting
  | holding (i : ℕ)
  | draining (err : Option Err)
  | returned (err : Option Err)

/-- A call of `Shutdown`; `listening` is whether it found a listener. -/
inductive Shutdown where
  | locking
  | waiting (listening : Bool)
  | returned (listening : Bool)
deriving DecidableEq

/-- A connection that went through its limiter, or was refused before it. -/
structure Entry where
  conn : ℕ
  version : ℕ
  env : ConnEnv
  handled : Handled

structure World where
  versions : List Version
  metrics : Metrics
  now : ℤ := 0
  ctxDone : Bool := false
  listening : Bool := false
  listenerClosed : Bool := false
  serve : Serve := .idle
  conns : List Connection := []
  wg : ℕ := 0
  shutdowns : List Shutdown := []
  log : List Entry := []

/-- A new server. -/
def boot (state : ServerState) (metricsEnabled : Bool) : World where
  versions := [.ofState state]
  metrics := { enabled := metricsEnabled }

/-- What `Accept` can return for an error. -/
inductive AcceptError where
  | closed
  | temporary
  | other (err : Err)

/-- What can happen next. `reorder` is the choice of Go's map iteration: the
table of a limiter may stand in any order when it is looked at. -/
inductive Action where
  | tick (now : ℤ)
  | cancel
  | listen
  | watch
  | accept (env : ConnEnv)
  | acceptFails (e : AcceptError)
  | serve
  | conn (i : ℕ)
  | reorder (k : ℕ) (limiter : RateLimit.Limiter)
  | reload (env : Env) (call : Call)
  | shutdown
  | shut (j : ℕ)

/-! ## The steps -/

namespace World

def goto (w : World) (i : ℕ) (c : Connection) (phase : Phase) : World :=
  { w with conns := w.conns.set i { c with phase } }

/-- The limiter's critical section. -/
def allow (w : World) (i : ℕ) (c : Connection) (k : ℕ) (peer : Peer) (now : ℤ) (v : Version) :
    World :=
  let answer := RateLimit.allow v.limiter peer.addr now
  { w.goto i c (.answered k peer now answer.1 answer.2) with
    versions := w.versions.set k { v with limiter := answer.2 }
    log := w.log ++ [⟨i, k, { c.env with now }, handleConn v.state { c.env with now }⟩] }

/-- A handler is done with its client and tells the metrics. -/
def record (w : World) (i : ℕ) (c : Connection) (k : ℕ) (handled : Handled) : World :=
  { w.goto i c (.recorded k handled) with
    metrics := w.metrics.connectionFinished handled.result handled.reason }

/-- The client is refused; the limiter is not touched. -/
def refuse (w : World) (i : ℕ) (c : Connection) (k : ℕ) (v : Version) (events : List Event)
    (reason : Reason) : World :=
  { w.record i c k ⟨events, .denied, reason, v.limiter⟩ with
    log := w.log ++ [⟨i, k, c.env, handleConn v.state c.env⟩] }

end World

/-- The next step of a handler. Its deferred calls run in the reverse of the
order in which they were deferred. -/
def connStep (w : World) (i : ℕ) (c : Connection) : Option World :=
  match c.phase with
  | .held => none
  | .started => some { w.goto i c .counted with metrics := w.metrics.connectionAccepted }
  | .counted => some (w.goto i c (.loaded (w.versions.length - 1)))
  | .loaded k =>
    match w.versions[k]? with
    | none => none
    | some v =>
      match screen v.state c.env with
      | .error (events, reason) => some (w.refuse i c k v events reason)
      | .ok peer => some (w.goto i c (.clocked k peer w.now))
  | .clocked k peer now =>
    match w.versions[k]? with
    | none => none
    | some v => some (w.allow i c k peer now v)
  | .answered k peer now admitted limiter =>
    match w.versions[k]? with
    | none => none
    | some v => some (w.record i c k (peer.rest v.state { c.env with now } admitted limiter))
  | .recorded k h => some (w.goto i c (.closed k h))
  | .closed k h => some { w.goto i c (.done k h) with wg := w.wg - 1 }
  | .done _ _ => none

/-- `Accept` returns an error. -/
def acceptFails (w : World) : AcceptError → World
  | .closed => { w with serve := .draining none }
  | .temporary => if w.ctxDone then { w with serve := .draining none } else w
  | .other err => { w with serve := .draining (if w.ctxDone then none else some err) }

/-- The next step of `Serve` when it is not in `Accept`. -/
def serveStep (w : World) : Option World :=
  match w.serve with
  | .holding i =>
    match w.conns[i]? with
    | some c => some { w.goto i c .started with wg := w.wg + 1, serve := .accepting }
    | none => none
  | .draining err => if w.wg = 0 then some { w with serve := .returned err } else none
  | _ => none

/-- The next step of a `Shutdown`. -/
def shutStep (w : World) (j : ℕ) : Shutdown → Option World
  | .locking => some { w with
      listenerClosed := w.listenerClosed || w.listening
      shutdowns := w.shutdowns.set j (.waiting w.listening) }
  | .waiting listening =>
    if w.wg = 0 then some { w with shutdowns := w.shutdowns.set j (.returned listening) } else none
  | .returned _ => none

instance decidableReordered (l l' : RateLimit.Limiter) : Decidable (RateLimit.Reordered l l') :=
  decidable_of_iff (l'.cfg = l.cfg ∧ l'.entries.entries.Perm l.entries.entries)
    ⟨fun h => ⟨h.1, h.2⟩, fun h => ⟨h.cfg, h.perm⟩⟩

def step (w : World) : Action → Option World
  | .tick now => some { w with now }
  | .cancel => some { w with ctxDone := true }
  | .listen =>
    match w.serve with
    | .idle => some { w with serve := .accepting, listening := true }
    | _ => none
  | .watch => if w.ctxDone && w.listening then some { w with listenerClosed := true } else none
  | .accept env =>
    match w.serve, w.listenerClosed with
    | .accepting, false => some { w with
        conns := w.conns ++ [⟨env, w.versions.length, .held⟩]
        serve := .holding w.conns.length }
    | _, _ => none
  | .acceptFails e =>
    match w.serve, e, w.listenerClosed with
    | .accepting, .closed, false => none
    | .accepting, e, _ => some (acceptFails w e)
    | _, _, _ => none
  | .serve => serveStep w
  | .conn i =>
    match w.conns[i]? with
    | none => none
    | some c => connStep w i c
  | .reorder k limiter =>
    match w.versions[k]? with
    | none => none
    | some v =>
      if RateLimit.Reordered v.limiter limiter then
        some { w with versions := w.versions.set k { v with limiter } }
      else none
  | .reload env call =>
    match w.versions.getLast? with
    | none => none
    | some v =>
      match call.run env v.state with
      | (.ok, state) => some { w with versions := w.versions ++ [.ofState state] }
      | _ => some w
  | .shutdown => some { w with shutdowns := w.shutdowns ++ [.locking] }
  | .shut j =>
    match w.shutdowns[j]? with
    | none => none
    | some s => shutStep w j s

/-! ## What a step can do -/

/-- One step of a handler. -/
inductive Works (w : World) (i : ℕ) (c : Connection) : World → Prop
  | accepts (hp : c.phase = .started) :
      Works w i c { w.goto i c .counted with metrics := w.metrics.connectionAccepted }
  | loads (hp : c.phase = .counted) : Works w i c (w.goto i c (.loaded (w.versions.length - 1)))
  | refuses (k : ℕ) (v : Version) (events : List Event) (reason : Reason)
      (hp : c.phase = .loaded k) (hv : w.versions[k]? = some v)
      (hscreen : screen v.state c.env = .error (events, reason)) :
      Works w i c (w.refuse i c k v events reason)
  | looks (k : ℕ) (v : Version) (peer : Peer) (hp : c.phase = .loaded k)
      (hv : w.versions[k]? = some v) (hscreen : screen v.state c.env = .ok peer) :
      Works w i c (w.goto i c (.clocked k peer w.now))
  | asks (k : ℕ) (peer : Peer) (now : ℤ) (v : Version) (hp : c.phase = .clocked k peer now)
      (hv : w.versions[k]? = some v) : Works w i c (w.allow i c k peer now v)
  | records (k : ℕ) (peer : Peer) (now : ℤ) (admitted : Bool) (limiter : RateLimit.Limiter)
      (v : Version) (hp : c.phase = .answered k peer now admitted limiter)
      (hv : w.versions[k]? = some v) :
      Works w i c (w.record i c k (peer.rest v.state { c.env with now } admitted limiter))
  | closes (k : ℕ) (h : Handled) (hp : c.phase = .recorded k h) :
      Works w i c (w.goto i c (.closed k h))
  | leaves (k : ℕ) (h : Handled) (hp : c.phase = .closed k h) :
      Works w i c { w.goto i c (.done k h) with wg := w.wg - 1 }

theorem Works.of_connStep {w w' : World} {i : ℕ} {c : Connection} (h : connStep w i c = some w') :
    Works w i c w' := by
  unfold connStep at h
  cases hp : c.phase with
  | held | done => simp [hp] at h
  | loaded k =>
    cases hv : w.versions[k]? with
    | none => simp [hp, hv] at h
    | some v =>
      cases hscreen : screen v.state c.env with
      | error refusal =>
        obtain ⟨events, reason⟩ := refusal
        simp only [hp, hv, hscreen, Option.some.injEq] at h
        exact h ▸ .refuses k v events reason hp hv hscreen
      | ok peer =>
        simp only [hp, hv, hscreen, Option.some.injEq] at h
        exact h ▸ .looks k v peer hp hv hscreen
  | clocked k peer now =>
    cases hv : w.versions[k]? with
    | none => simp [hp, hv] at h
    | some v =>
      simp only [hp, hv, Option.some.injEq] at h
      exact h ▸ .asks k peer now v hp hv
  | answered k peer now admitted limiter =>
    cases hv : w.versions[k]? with
    | none => simp [hp, hv] at h
    | some v =>
      simp only [hp, hv, Option.some.injEq] at h
      exact h ▸ .records k peer now admitted limiter v hp hv
  | started | counted | recorded | closed =>
    simp only [hp, Option.some.injEq] at h
    subst h
    constructor
    exact hp

inductive Step (w : World) : Action → World → Prop
  | tick (now : ℤ) : Step w (.tick now) { w with now }
  | cancel : Step w .cancel { w with ctxDone := true }
  | listens (hs : w.serve = .idle) :
      Step w .listen { w with serve := .accepting, listening := true }
  | watches (hctx : w.ctxDone = true) (hl : w.listening = true) :
      Step w .watch { w with listenerClosed := true }
  | accepts (env : ConnEnv) (hs : w.serve = .accepting) (hl : w.listenerClosed = false) :
      Step w (.accept env) { w with
        conns := w.conns ++ [⟨env, w.versions.length, .held⟩]
        serve := .holding w.conns.length }
  | retries (hs : w.serve = .accepting) (hctx : w.ctxDone = false) :
      Step w (.acceptFails .temporary) w
  | drains (e : AcceptError) (err : Option Err) (hs : w.serve = .accepting) :
      Step w (.acceptFails e) { w with serve := .draining err }
  | spawns (i : ℕ) (c : Connection) (hs : w.serve = .holding i) (hi : w.conns[i]? = some c) :
      Step w .serve { w.goto i c .started with wg := w.wg + 1, serve := .accepting }
  | returns (err : Option Err) (hs : w.serve = .draining err) (hwg : w.wg = 0) :
      Step w .serve { w with serve := .returned err }
  | works (i : ℕ) (c : Connection) (w' : World) (hi : w.conns[i]? = some c) (h : Works w i c w') :
      Step w (.conn i) w'
  | reorders (k : ℕ) (v : Version) (limiter : RateLimit.Limiter) (hv : w.versions[k]? = some v)
      (hre : RateLimit.Reordered v.limiter limiter) :
      Step w (.reorder k limiter) { w with versions := w.versions.set k { v with limiter } }
  | reloads (env : Env) (call : Call) (v : Version) (state : ServerState)
      (hv : w.versions.getLast? = some v) (hrun : call.run env v.state = (.ok, state)) :
      Step w (.reload env call) { w with versions := w.versions ++ [.ofState state] }
  | keeps (env : Env) (call : Call) : Step w (.reload env call) w
  | shutdown : Step w .shutdown { w with shutdowns := w.shutdowns ++ [.locking] }
  | shuts (j : ℕ) (hj : w.shutdowns[j]? = some .locking) :
      Step w (.shut j) { w with
        listenerClosed := w.listenerClosed || w.listening
        shutdowns := w.shutdowns.set j (.waiting w.listening) }
  | waited (j : ℕ) (listening : Bool) (hj : w.shutdowns[j]? = some (.waiting listening))
      (hwg : w.wg = 0) :
      Step w (.shut j) { w with shutdowns := w.shutdowns.set j (.returned listening) }

theorem Step.of_acceptFails {w : World} (e : AcceptError) (hs : w.serve = .accepting) :
    Step w (.acceptFails e) (acceptFails w e) := by
  cases e with
  | closed => exact .drains .closed none hs
  | other err => exact .drains (.other err) _ hs
  | temporary =>
    simp only [acceptFails]
    split_ifs with hctx
    · exact .drains .temporary none hs
    · exact .retries hs (by simpa using hctx)

theorem Step.of_serveStep {w w' : World} (h : serveStep w = some w') : Step w .serve w' := by
  simp only [serveStep] at h
  split at h
  · next i hs =>
    split at h
    · next c hi =>
      cases h
      exact .spawns i c hs hi
    · cases h
  · next err hs =>
    split_ifs at h with hwg
    cases h
    exact .returns err hs hwg
  · cases h

theorem Step.of_shutStep {w w' : World} {j : ℕ} {s : Shutdown} (hj : w.shutdowns[j]? = some s)
    (h : shutStep w j s = some w') : Step w (.shut j) w' := by
  cases s with
  | locking =>
    cases h
    exact .shuts j hj
  | waiting listening =>
    simp only [shutStep] at h
    split_ifs at h with hwg
    cases h
    exact .waited j listening hj hwg
  | returned listening => cases h

theorem Step.of_step {w w' : World} {a : Action} (h : step w a = some w') : Step w a w' := by
  cases a with
  | tick now =>
    cases h
    exact .tick now
  | cancel =>
    cases h
    exact .cancel
  | listen =>
    simp only [step] at h
    split at h
    · next hs =>
      cases h
      exact .listens hs
    · cases h
  | watch =>
    simp only [step, Bool.and_eq_true] at h
    split_ifs at h with hc
    cases h
    exact .watches hc.1 hc.2
  | accept env =>
    simp only [step] at h
    split at h
    · next hs hl =>
      cases h
      exact .accepts env hs hl
    · cases h
  | acceptFails e =>
    simp only [step] at h
    split at h
    · cases h
    · next hs _ =>
      cases h
      exact .of_acceptFails _ hs
    · cases h
  | serve => exact .of_serveStep h
  | conn i =>
    simp only [step] at h
    split at h
    · cases h
    next c hi => exact .works i c w' hi (.of_connStep h)
  | reorder k limiter =>
    simp only [step] at h
    split at h
    · cases h
    next v hv =>
      split_ifs at h with hre
      cases h
      exact .reorders k v limiter hv hre
  | reload env call =>
    simp only [step] at h
    split at h
    · cases h
    next v hv =>
      split at h
      · next state hrun =>
        cases h
        exact .reloads env call v state hv hrun
      · cases h
        exact .keeps env call
  | shutdown =>
    cases h
    exact .shutdown
  | shut j =>
    simp only [step] at h
    split at h
    · cases h
    next s hj => exact .of_shutStep hj h

end Serving

end Proxy

end McRouter
