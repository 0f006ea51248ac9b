import McRouter.Bedrock.Router
import McRouter.Common.Pipe
import McRouter.Common.Settling

/-!
# The Bedrock host proxy

`bedrockproxy/proxy.go`: `Serve` accepts clients and starts a handler for
each; a handler asks the router for the backend of the address its client
wanted, dials it, spawns both sides into the game and copies packets both
ways until one side ends. `Close`, called by anybody or at the end of the
context, closes the listener and every registered connection. All of these
run at once.

The listener and the connections are a library's, and nothing is built in
about them. A session is the list of the calls the program has made on its
two connections, with what they returned; a `Library` says what a call can
return after those before it, and may say anything. The map `conns` is the
flag `registered` of a session's two connections.
-/

namespace McRouter

namespace Bedrock

namespace HostProxy

open Pipe

variable {P : Type}

/-! ## The library -/

/-- A call on a connection of a session, with what it returned. `spawn` is
`StartGame` of the client and `DoSpawn` of the backend; `disconnect` is the
listener's `Disconnect` of the client. -/
inductive Call (P : Type) where
  | dial (backend : GoString) (ok : Bool)
  | spawn (side : Side) (ok : Bool)
  | readPacket (side : Side) (pk : Option P)
  | writePacket (side : Side) (pk : P) (ok : Bool)
  | close (side : Side)
  | disconnect (message : GoString)
deriving DecidableEq

/-- A call on the listener. -/
inductive ListenerCall where
  | accept (ok : Bool)
  | close
deriving DecidableEq

/-- What the library's calls can return: one on a connection after `calls`
on its session's connections, `cancelled` or not as the context of the dial
is, and one on the listener, `closed` or not. -/
structure Library (P : Type) where
  returns : (cancelled : Bool) → (calls : List (Call P)) → Call P → Bool
  listener : (closed : Bool) → ListenerCall → Bool

/-! ## Sessions -/

/-- One of the two loops of `bridge`. `leaving` calls `closeBoth`; `closing`
is inside it, with the client closed. -/
inductive Loop (P : Type) where
  | reading
  | writing (pk : P)
  | leaving
  | closing
  | ended
deriving DecidableEq

/-- What a goroutine of a session does, besides going on. -/
inductive Op (P : Type) where
  | pass
  | call (c : Call P)
  | register (side : Side)
  | unregister (side : Side)
deriving DecidableEq

namespace Op

@[simp] def calls : Op P → List (Call P)
  | call c => [c]
  | _ => []

/-- What becomes of the flags. -/
@[simp] def mark : Op P → (Side → Bool) → Side → Bool
  | register side, registered => Function.update registered side true
  | unregister side, registered => Function.update registered side false
  | _, registered => registered

end Op

/-- How far the handler of a session is; `leaving` has a list of calls left,
deferred ones included. -/
inductive Phase (P : Type) where
  | dialing
  | failed
  | registering
  | spawning (spawned : Side → Option Bool)
  | bridging (loop : Side → Loop P)
  | leaving (todo : List (Op P))
  | ended

/-- What a session does next: a step of its handler, or a call that
returns, or `closeBoth` of the loop that reads from `side`. -/
inductive Move (P : Type) where
  | own
  | dial (ok : Bool)
  | spawn (side : Side) (ok : Bool)
  | read (side : Side) (pk : Option P)
  | write (side : Side) (ok : Bool)
  | closeBoth (side : Side)

/-- The messages to a client. -/
def unavailable : GoString := go "Bedrock backend unavailable."

def lost : GoString := go "connection lost"

/-- The deferred calls of a session that got to `spawn`. -/
def deferred : List (Op P) :=
  [.call (.disconnect lost), .call (.close .backend), .unregister .backend, .unregister .client]

/-- `handleConn`, with `spawn` and `bridge`: the next step in a phase.
`closeOnce` of `bridge` lets the first loop in, keeps the second waiting
while it runs, and then lets it pass. -/
def Phase.next (backend : GoString) (ctxDone closed : Bool) :
    Phase P → Move P → Option (Op P × Phase P)
  | .dialing, .dial ok => some (.call (.dial backend ok), if ok then .registering else .failed)
  | .failed, .own => some (.pass, .leaving
      [.call (if ctxDone || closed then .close .client else .disconnect unavailable),
        .unregister .client])
  | .registering, .own =>
    some (if closed then (.pass, .leaving
        [.call (.close .backend), .call (.close .client), .unregister .client])
      else (.register .backend, .spawning fun _ => none))
  | .spawning spawned, .spawn side ok =>
    if spawned side = none then
      some (.call (.spawn side ok), .spawning (Function.update spawned side (some ok)))
    else none
  | .spawning spawned, .own =>
    match spawned .client, spawned .backend with
    | some client, some backend =>
      some (.pass, if client && backend then .bridging fun _ => .reading else .leaving deferred)
    | _, _ => none
  | .bridging loop, .read side pk =>
    match loop side with
    | .reading => some (.call (.readPacket side pk),
        .bridging (Function.update loop side (pk.elim .leaving .writing)))
    | _ => none
  | .bridging loop, .write side ok =>
    match loop side with
    | .writing pk => some (.call (.writePacket side.other pk ok),
        .bridging (Function.update loop side (if ok then .reading else .leaving)))
    | _ => none
  | .bridging loop, .closeBoth side =>
    match loop side, loop side.other with
    | .leaving, .closing => none
    | .leaving, .ended => some (.pass, .bridging (Function.update loop side .ended))
    | .leaving, _ => some (.call (.close .client), .bridging (Function.update loop side .closing))
    | .closing, _ => some (.call (.close .backend), .bridging (Function.update loop side .ended))
    | _, _ => none
  | .bridging loop, .own =>
    match loop .client, loop .backend with
    | .ended, .ended => some (.pass, .leaving deferred)
    | _, _ => none
  | .leaving (op :: todo), .own => some (op, .leaving todo)
  | .leaving [], .own => some (.pass, .ended)
  | _, _ => none

/-- A session: `ClientData().ServerAddress` of its client, its phase, which
of its connections are in `conns`, and the calls. -/
structure Session (P : Type) where
  requestedAddress : GoString
  phase : Phase P
  registered : Side → Bool
  calls : List (Call P)

/-- `op` is done, if the library lets its call return, and the session goes
on to `phase`. -/
def Session.perform (lib : Library P) (cancelled : Bool) (s : Session P) (op : Op P)
    (phase : Phase P) : Option (Session P) :=
  if op.calls.all (lib.returns cancelled s.calls) then
    some { s with phase, registered := op.mark s.registered, calls := s.calls ++ op.calls }
  else none

/-! ## The proxy -/

/-- `Serve`; `holding` has a client from `Accept` and has not yet registered
it. -/
inductive Serve where
  | accepting
  | holding (requestedAddress : GoString)
  | waiting
  | returned
deriving DecidableEq

/-- The proxy. `closed` stands for the field and for `closedCh`, which
change together, and `todo` is what `Close` has yet to close. -/
structure World (P : Type) where
  sessions : List (Session P) := []
  serve : Serve := .accepting
  ctxDone : Bool := false
  closed : Bool := false
  listenerClosed : Bool := false
  todo : List (ℕ × Side) := []
  wg : ℕ := 0

inductive Action (P : Type) where
  | cancel
  | accept (requestedAddress : GoString)
  | acceptFails (errClosed : Bool)
  | serve
  | move (i : ℕ) (m : Move P)
  | close
  | closeListener
  | closeConn (i : ℕ) (side : Side)

/-- The connections `conns` holds. -/
def World.conns (w : World P) : List (ℕ × Side) :=
  w.sessions.zipIdx.flatMap fun (s, i) =>
    [(i, Side.client), (i, Side.backend)].filter fun t => s.registered t.2

variable (lib : Library P) (router : Option Router)

/-- The last deferred call of a session is `wg.Done`. -/
def World.moved (w : World P) (i : ℕ) (s : Session P) : World P :=
  { w with
    sessions := w.sessions.set i s
    wg := match s.phase with
      | .ended => w.wg - 1
      | _ => w.wg }

/-- `Serve` with a client: `registerConn`, and `Close` where that refuses. -/
def World.admit (w : World P) (requestedAddress : GoString) : Option (World P) :=
  if w.closed then
    if lib.returns true [] (.close .client) then
      some { w with
        sessions := w.sessions ++ [⟨requestedAddress, .ended, fun _ => false, [.close .client]⟩]
        serve := .accepting }
    else none
  else some { w with
    sessions := w.sessions ++ [⟨requestedAddress, .dialing, fun side => side = .client, []⟩]
    serve := .accepting
    wg := w.wg + 1 }

/-- One step. `Close` marks the proxy and takes the connections under
`connMu`; it closes the listener first, and them in the order of the map. -/
def step (w : World P) : Action P → Option (World P)
  | .cancel => some { w with ctxDone := true }
  | .accept requestedAddress =>
    if w.serve = .accepting ∧ lib.listener w.listenerClosed (.accept true) = true then
      some { w with serve := .holding requestedAddress }
    else none
  | .acceptFails errClosed =>
    if w.serve = .accepting ∧ lib.listener w.listenerClosed (.accept false) = true then
      some { w with serve := if w.ctxDone || errClosed || w.closed then .waiting else .accepting }
    else none
  | .serve =>
    match w.serve with
    | .holding requestedAddress => w.admit lib requestedAddress
    | .waiting => if w.wg = 0 then some { w with serve := .returned } else none
    | _ => none
  | .move i m => w.sessions[i]?.bind fun s =>
      (s.phase.next (select router s.requestedAddress).backend w.ctxDone w.closed m).bind fun next =>
        (s.perform lib (w.ctxDone || w.closed) next.1 next.2).map (w.moved i)
  | .close => some (if w.closed then w else { w with closed := true, todo := w.conns })
  | .closeListener =>
    if w.closed ∧ w.listenerClosed = false ∧ lib.listener false .close = true then
      some { w with listenerClosed := true }
    else none
  | .closeConn i side =>
    if w.listenerClosed ∧ (i, side) ∈ w.todo then
      w.sessions[i]?.bind fun s => (s.perform lib true (.call (.close side)) s.phase).map fun s' =>
        { w with sessions := w.sessions.set i s', todo := w.todo.erase (i, side) }
    else none

end HostProxy

end Bedrock

end McRouter
