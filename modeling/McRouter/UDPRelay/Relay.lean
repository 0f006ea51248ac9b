import McRouter.Common.GoMap
import McRouter.Common.System
import McRouter.Common.UDPAddr
import McRouter.Errors

/-!
# The UDP relay

`udprelay/relay.go`: a table of sessions, one for each client endpoint, and
the goroutines that work on it side by side. Any number of them may be
inside `forwardToBackend`; each session has a reader; the sweeper expires
idle sessions; `Close` takes everything down. A goroutine stands at a point
between two pieces of its code, a piece being a critical section of `r.mu`
or an operation on a socket, and a step runs one piece of one of them.

`Serve` calls `forwardToBackend` for one datagram after the other. Here a
call may start at any time, so its runs are among those of the model.
Logging is left out; a backend resolver is what it returns.
-/

namespace McRouter

namespace UDPRelay

open Strings Net

/-! ## The relay -/

/-- `Config`, without the addresses that `New` resolves. -/
structure Config where
  idleTimeout : ℤ
  backendDialTimeout : ℤ
  maxSessions : ℤ
  maxPacketSize : ℤ
deriving DecidableEq, Repr

/-- The checks of `New`. -/
def Config.check (cfg : Config) : Option Err :=
  if cfg.idleTimeout ≤ 0 then some ⟨go "idle timeout must be positive", []⟩
  else if cfg.backendDialTimeout ≤ 0 then some ⟨go "backend dial timeout must be positive", []⟩
  else if cfg.maxSessions ≤ 0 then some ⟨go "max sessions must be positive", []⟩
  else if cfg.maxPacketSize ≤ 0 then some ⟨go "max packet size must be positive", []⟩
  else none

/-- A relay that `New` returned. -/
structure Relay where
  cfg : Config
  valid : cfg.check = none

/-- `New`. -/
def new (cfg : Config) : Except Err Relay :=
  match h : cfg.check with
  | some err => .error err
  | none => .ok ⟨cfg, h⟩

theorem Relay.maxSessions_pos (r : Relay) : 0 < r.cfg.maxSessions := by
  have h := r.valid
  unfold Config.check at h
  split at h
  · cases h
  split at h
  · cases h
  split at h
  · cases h
  · omega

/-- `session`. The key is the text of the endpoint; `id` tells sessions
apart as their pointers do, and names the backend socket. -/
structure Session where
  id : ℕ
  key : GoString
  clientAddr : UDPAddr
  backendAddr : UDPAddr
  key_eq : key = clientAddr.string
deriving DecidableEq

/-- A session as `sessionForClient` makes it. -/
def newSession (id : ℕ) (clientAddr backendAddr : UDPAddr) : Session :=
  ⟨id, clientAddr.string, clientAddr, backendAddr, rfl⟩

/-- The reasons a session is closed for. -/
inductive CloseReason where
  | backendError
  | idleTimeout
  | shutdown
deriving DecidableEq, Repr

/-! ## What the lock guards -/

/-- The fields under `r.mu`. -/
structure Shared where
  sessions : GoMap GoString Session := ∅
  closed : Bool := false

/-- What the first section of `sessionForClient` finds. -/
inductive Found where
  | closed
  | existing (sess : Session)
  | limit
  | absent
deriving DecidableEq

namespace Shared

variable (r : Relay) (s : Shared)

/-- The first section of `sessionForClient`; the last one asks the same
again. -/
def find (key : GoString) : Found :=
  if s.closed then .closed
  else match s.sessions.lookup key with
    | some sess => .existing sess
    | none => if r.cfg.maxSessions ≤ s.sessions.len then .limit else .absent

/-- `r.sessions[key] = sess`. -/
def insert (sess : Session) : Shared := { s with sessions := s.sessions.insert sess.key sess }

/-- The session is the one in the table. -/
def holds (sess : Session) : Bool := s.sessions.lookup sess.key == some sess

/-- The section of `closeSession`. -/
def remove (sess : Session) : Shared :=
  if s.holds sess then { s with sessions := s.sessions.erase sess.key } else s

/-- `sessionIsCurrent`. -/
def sessionIsCurrent (sess : Session) : Bool := !s.closed && s.holds sess

end Shared

/-! ## The goroutines -/

/-- What a goroutine goes on with once it has closed a session. -/
inductive Rest where
  | done
  | sweep (now : ℤ) (sessions : List Session)
  | shut (sessions : List Session)
deriving DecidableEq

/-- Where a goroutine stands. -/
inductive Goroutine where
  /-- In `forwardToBackend`, before the first section of `sessionForClient`. -/
  | finding (clientAddr : UDPAddr) (payload : GoString)
  | resolving (clientAddr : UDPAddr) (payload : GoString)
  | dialing (clientAddr : UDPAddr) (payload : GoString) (backendAddr : UDPAddr)
  /-- Before the last section, with the session made. -/
  | inserting (payload : GoString) (sess : Session)
  | writing (payload : GoString) (sess : Session)
  /-- In `readBackend`: before `Read`, `sessionIsCurrent` and `WriteToUDP`. -/
  | reading (sess : Session)
  | checking (sess : Session) (payload : GoString)
  | replying (sess : Session) (payload : GoString)
  /-- In `expireSessions`: in its `select`, then with the time it read, then
  going through `snapshotSessions`. -/
  | waiting
  | ticked (now : ℤ)
  | sweeping (now : ℤ) (sessions : List Session)
  /-- In `Close`: before the listener is closed, then going through the
  sessions taken out. -/
  | stopping (sessions : List Session)
  | shutting (sessions : List Session)
  /-- In `closeSession`, before its section. -/
  | removing (sess : Session) (reason : CloseReason) (rest : Rest)
  /-- In `close`, or in `closeWithoutMetric` when there is no reason: before
  `closeOnce`, and inside it with `closed` set and the socket still open. -/
  | once (sess : Session) (reason : Option CloseReason) (rest : Rest)
  | socket (sess : Session) (reason : Option CloseReason) (rest : Rest)
  | done
deriving DecidableEq

/-- Where the goroutine stands when it goes on. -/
def Rest.goroutine : Rest → Goroutine
  | done => .done
  | sweep now sessions => .sweeping now sessions
  | shut sessions => .shutting sessions

/-- What the dial returns: an error, a connection that is not a UDP one, or a
UDP connection. -/
inductive Dial where
  | failed
  | other
  | udp
deriving DecidableEq, Repr

/-- What the outside does to the piece that runs: the answer of the resolver,
the result of the dial, whether a write fails and what a read returns. -/
structure Outside where
  resolved : Option UDPAddr := none
  dialled : Dial := .failed
  fails : Bool := false
  data : Option GoString := none
deriving DecidableEq

/-- The relay with its goroutines. -/
structure World where
  now : ℤ
  shared : Shared := {}
  /-- The number of backend sockets opened. -/
  made : ℕ := 0
  /-- The sessions whose `closed` is set, by `id`. -/
  closedSessions : List ℕ := []
  closedSockets : List ℕ := []
  lastActivity : ℕ → ℤ := fun _ => 0
  listenerClosed : Bool := false
  goroutines : List Goroutine := [.waiting]
  /-- `UDPSessionCreated` and `UDPSessionClosed`. -/
  created : ℕ := 0
  closedReasons : List CloseReason := []

namespace World

variable (r : Relay) (w : World)

/-- A goroutine moves on. -/
def set (i : ℕ) (g : Goroutine) : World := { w with goroutines := w.goroutines.set i g }

/-- `touch`. -/
def touch (sess : Session) : World :=
  { w with lastActivity := Function.update w.lastActivity sess.id w.now }

/-- `closeWithoutMetric` of a session nobody else has seen. -/
def discard (sess : Session) : World :=
  { w with closedSessions := sess.id :: w.closedSessions
           closedSockets := sess.id :: w.closedSockets }

/-- The dial, and the session that is made of it. -/
def dial (i : ℕ) (clientAddr : UDPAddr) (payload : GoString) (backendAddr : UDPAddr) : Dial → World
  | .failed => w.set i .done
  | .other => { w.set i .done with
      made := w.made + 1, closedSockets := w.made :: w.closedSockets }
  | .udp =>
    let sess := newSession w.made clientAddr backendAddr
    { (w.touch sess).set i (.inserting payload sess) with made := w.made + 1 }

/-- The last section of `sessionForClient`. A session that is not needed is
closed under the lock; one that is gets its reader. -/
def insert (i : ℕ) (payload : GoString) (sess : Session) : World :=
  match w.shared.find r sess.key with
  | .closed => (w.discard sess).set i .done
  | .existing existing => (w.discard sess).set i (.writing payload existing)
  | .limit => (w.discard sess).set i .done
  | .absent =>
    { w with
      shared := w.shared.insert sess
      goroutines := w.goroutines.set i (.writing payload sess) ++ [.reading sess]
      created := w.created + 1 }

/-- `Read` of a session returns. -/
def read (i : ℕ) (sess : Session) : Option GoString → Option World
  | none =>
    if sess.id ∈ w.closedSessions ∨ w.shared.closed then some (w.set i .done)
    else some (w.set i (.removing sess .backendError .done))
  | some data =>
    if sess.id ∈ w.closedSockets then none
    else if r.cfg.maxPacketSize < data.length then some w
    else some (w.set i (.checking sess data))

/-- `WriteToUDP` and what follows it. -/
def reply (i : ℕ) (sess : Session) (fails : Bool) : World :=
  if w.listenerClosed ∨ fails then
    if w.shared.closed ∨ w.listenerClosed then w.set i .done
    else w.set i (.removing sess .backendError .done)
  else (w.touch sess).set i (.reading sess)

/-- `closeOnce.Do`. Whoever comes second waits for the first. -/
def enterOnce (i : ℕ) (sess : Session) (reason : Option CloseReason) (rest : Rest) : Option World :=
  if sess.id ∈ w.closedSessions then
    if sess.id ∈ w.closedSockets then some (w.set i rest.goroutine) else none
  else some { w.set i (.socket sess reason rest) with
    closedSessions := sess.id :: w.closedSessions }

/-- The next piece of a goroutine. -/
def advance (i : ℕ) (o : Outside) : Goroutine → Option World
  | .finding clientAddr payload =>
    some (w.set i (match w.shared.find r clientAddr.string with
      | .closed => .done
      | .existing sess => .writing payload sess
      | .limit => .done
      | .absent => .resolving clientAddr payload))
  | .resolving clientAddr payload =>
    some (w.set i (match o.resolved with
      | none => .done
      | some backendAddr => .dialing clientAddr payload backendAddr))
  | .dialing clientAddr payload backendAddr => some (w.dial i clientAddr payload backendAddr o.dialled)
  | .inserting payload sess => some (w.insert r i payload sess)
  | .writing _ sess =>
    some ((w.touch sess).set i (if sess.id ∈ w.closedSockets ∨ o.fails then
      .removing sess .backendError .done else .done))
  | .reading sess => w.read r i sess o.data
  | .checking sess payload =>
    some (w.set i (if w.shared.sessionIsCurrent sess then .replying sess payload else .done))
  | .replying sess _ => some (w.reply i sess o.fails)
  | .waiting => some (w.set i (.ticked w.now))
  | .ticked now => some (w.set i (.sweeping now w.shared.sessions.values))
  | .sweeping _ [] => some (w.set i .waiting)
  | .sweeping now (sess :: sessions) =>
    some (w.set i (if r.cfg.idleTimeout ≤ now - w.lastActivity sess.id then
      .removing sess .idleTimeout (.sweep now sessions) else .sweeping now sessions))
  | .stopping sessions => some { w.set i (.shutting sessions) with listenerClosed := true }
  | .shutting [] => some (w.set i .done)
  | .shutting (sess :: sessions) => some (w.set i (.once sess (some .shutdown) (.shut sessions)))
  | .removing sess reason rest =>
    some { w.set i (.once sess (if w.shared.holds sess then some reason else none) rest) with
      shared := w.shared.remove sess }
  | .once sess reason rest => w.enterOnce i sess reason rest
  | .socket sess reason rest =>
    some { w.set i rest.goroutine with
      closedSockets := sess.id :: w.closedSockets
      closedReasons := reason.toList ++ w.closedReasons }
  | .done => none

/-- The section of `Close`. A second call does nothing. -/
def close : Option World :=
  if w.shared.closed then none
  else some { w with
    shared := { sessions := ∅, closed := true }
    goroutines := w.goroutines ++ [.stopping w.shared.sessions.values] }

end World

/-- What can happen next: a call of `forwardToBackend`, `Close`, time that
passes, or the next piece of a goroutine. -/
inductive Action where
  | call (clientAddr : UDPAddr) (payload : GoString)
  | close
  | clock (now : ℤ)
  | run (i : ℕ) (o : Outside)
deriving DecidableEq

/-- One step. -/
def step (r : Relay) (w : World) : Action → Option World
  | .call clientAddr payload =>
    some { w with goroutines := w.goroutines ++ [.finding clientAddr payload] }
  | .close => w.close
  | .clock now => some { w with now }
  | .run i o => (w.goroutines[i]?).bind (w.advance r i o)

/-- The relay as it starts serving. -/
def boot (now : ℤ) : World := { now }

end UDPRelay

end McRouter
