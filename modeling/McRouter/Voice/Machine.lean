import McRouter.Voice.Sequential

/-!
# Voice goroutines, interleaved

The goroutines of `voicechat/runtime.go` side by side: the UDP loop, a
reader for each session, any number of registration requests, each under
the timeout of the API, the sweeper and `Close`. Each stands at one of the
points between two pieces of its code, a piece being a critical section of
`r.mu` or an operation on a socket, and a step runs one piece of one of
them. What a goroutine keeps in its local variables is carried by the point
it stands at.

The world also keeps a log of what happened, the newest first. No step
looks at the log, except for the leases a replacing `PUT` leaves behind,
which are noted for what is to be said about it later.
-/

namespace McRouter

namespace Voice

open Net

/-- What `newLeaseID` gives to each request: random bytes, which are assumed
never to come twice, or an error. -/
structure LeaseIDs where
  newLeaseID : ℕ → Option GoString
  fresh : ∀ i j id, newLeaseID i = some id → newLeaseID j = some id → i = j

/-- Numbers will do for leases. -/
def numberedLeases : LeaseIDs where
  newLeaseID i := some (Strings.itoa i)
  fresh _ _ _ hi hj := Strings.itoa_injective (Option.some.inj (hi.trans hj.symm))

/-- A client packet on its way through `forwardClientPacket`. -/
structure Datagram where
  clientAddr : UDPAddr
  payload : GoString
  uuid : UUID
deriving DecidableEq

/-- Where the UDP loop stands. -/
inductive Udp where
  /-- In `ReadFromUDP`. -/
  | idle
  /-- In `lookupRegistration`, the time read and the lock not taken. -/
  | looking (d : Datagram) (now : ℤ)
  /-- In `sessionFor`, before its first section. -/
  | finding (d : Datagram) (reg : Registration)
  /-- A session of another lease is out of the table and to be closed. -/
  | closingOld (d : Datagram) (reg : Registration) (old : Session)
  /-- Before the second section. -/
  | limiting (d : Datagram) (reg : Registration)
  /-- Before the dial. -/
  | dialing (d : Datagram) (reg : Registration)
  /-- Before the last section, with the session made. -/
  | inserting (d : Datagram) (reg : Registration) (sess : Session)
  /-- Before the write; `reg` is what the lookup returned. -/
  | writing (d : Datagram) (reg : Registration) (sess : Session)
  /-- In `closeSession` after a failed write. -/
  | failed (sess : Session)
  | failedSocket (sess : Session)
deriving DecidableEq

/-- Where the reader of a session stands. -/
inductive Reader where
  /-- In `Read`. -/
  | reading (sess : Session)
  /-- Before `sessionIsCurrent`. -/
  | checking (sess : Session) (payload : GoString)
  /-- Before `WriteToUDP`. -/
  | writing (sess : Session) (payload : GoString)
  /-- In `closeSession` after an error. -/
  | failed (sess : Session)
  | failedSocket (sess : Session)
  | done
deriving DecidableEq

/-- Where a registration request stands. `older` is there for a `PUT` that
replaced a registration: the leases of the player it put an end to. -/
inductive Request where
  | put (authorization : GoString) (reg : Registration)
  | refresh (uuid : UUID) (backendID ownerID leaseID : GoString)
  | delete (uuid : UUID) (backendID ownerID leaseID : GoString)
  /-- Before the section of `closeSessionsForUUID`. -/
  | closing (uuid : UUID) (status : ℕ) (older : Option (List GoString))
  /-- The sessions taken out, to be closed before the answer. -/
  | sockets (sessions : List Session) (uuid : UUID) (status : ℕ) (older : Option (List GoString))
  | answered (status : ℕ)
deriving DecidableEq

/-- The player and the older leases of a `PUT` that has replaced a
registration and not yet answered. -/
def Request.replacing : Request → Option (UUID × List GoString)
  | .closing uuid _ (some older) | .sockets _ uuid _ (some older) => some (uuid, older)
  | _ => none

/-- Where `expireLoop` stands. -/
inductive Sweeper where
  | idle
  /-- In `expireRegistrations`, with the time it was given. -/
  | expiring (now : ℤ)
  | closing (uuids : List UUID)
  | sockets (sessions : List Session) (uuids : List UUID)
  /-- Going through `snapshotSessions`. -/
  | checking (sessions : List Session)
  | removing (sess : Session) (sessions : List Session)
  | socket (sess : Session) (sessions : List Session)
deriving DecidableEq

/-- Where `Close` stands. -/
inductive Closer where
  | running
  | listener (sessions : List Session)
  | sockets (sessions : List Session)
deriving DecidableEq

/-- What happened. -/
inductive Entry where
  | received (clientAddr : UDPAddr) (datagram : GoString)
  /-- `lookupRegistration` ran at `now` and this was in the table. -/
  | looked (uuid : UUID) (now : ℤ) (found : Option Registration)
  | inserted (sess : Session)
  | wroteBackend (sess : Session) (payload : GoString)
  | wroteClient (sess : Session) (payload : GoString)
  /-- A `PUT` with this `Authorization` header was accepted. -/
  | stored (authorization : GoString) (reg : Registration) (replaced : Option Registration)
  | refreshed (uuid : UUID) (backendID ownerID leaseID : GoString) (expiresAt : ℤ)
  | deleted (uuid : UUID) (backendID ownerID leaseID : GoString)
  | swept (now : ℤ)
  | closed
  /-- A `PUT` that replaced a registration answered. -/
  | answered (uuid : UUID) (older : List GoString)
deriving DecidableEq

/-- The leases stored for a player. -/
def leasesOf (uuid : UUID) (log : List Entry) : List GoString :=
  log.filterMap fun
    | .stored _ reg _ => if reg.playerUUID = uuid then some reg.leaseID else none
    | _ => none

/-- Everything. -/
structure World where
  now : ℤ
  shared : Shared := {}
  /-- The number of sessions made. -/
  made : ℕ := 0
  /-- The sessions whose socket is closed, by `id`. -/
  closedSockets : List ℕ := []
  lastActivity : ℕ → ℤ := fun _ => 0
  listenerClosed : Bool := false
  udp : Udp := .idle
  readers : List Reader := []
  requests : List Request := []
  /-- The requests that were answered by the `TimeoutHandler`. -/
  timedOut : List ℕ := []
  sweeper : Sweeper := .idle
  closer : Closer := .running
  log : List Entry := []

namespace World

variable (r : Runtime) (ids : LeaseIDs) (w : World)

/-- `dynamicSession.touch`. -/
def touch (sess : Session) : World :=
  { w with lastActivity := Function.update w.lastActivity sess.id w.now }

/-- `dynamicSession.close`. -/
def closeSocket (sess : Session) : World :=
  { w with closedSockets := sess.id :: w.closedSockets }

/-! ## The UDP loop -/

/-- A datagram comes in: `serveUDP` up to the clock of `lookupRegistration`.
Once the listener is closed there is none. -/
def receive (clientAddr : UDPAddr) (data : GoString) : Option World :=
  if w.listenerClosed ∨ w.udp ≠ .idle then none
  else
    let w := { w with log := .received clientAddr data :: w.log }
    if r.cfg.maxPacketSize < data.length then some w
    else match parseClientPacket data with
      | .error _ => some w
      | .ok packet => some { w with udp := .looking ⟨clientAddr, data, packet.playerUUID⟩ w.now }

/-- The section of `lookupRegistration`. -/
def udpLook (d : Datagram) (now : ℤ) : World :=
  let out := w.shared.lookupRegistration now d.uuid
  { w with
    shared := out.2
    log := .looked d.uuid now (w.shared.registrations.lookup d.uuid) :: w.log
    udp := match out.1 with
      | .error _ => .idle
      | .ok reg => .finding d reg }

/-- The first section of `sessionFor`. -/
def udpFind (d : Datagram) (reg : Registration) : World :=
  let out := w.shared.findSession (dynamicSessionKey d.uuid d.clientAddr) reg
  { w with
    shared := out.2
    udp := match out.1 with
      | .closed => .idle
      | .absent => .limiting d reg
      | .current sess => .writing d reg sess
      | .replaced old => .closingOld d reg old }

/-- The second section of `sessionFor`. -/
def udpLimit (d : Datagram) (reg : Registration) : World :=
  { w with
    udp := match w.shared.backendFor r reg with
      | .error _ => .idle
      | .ok _ => .dialing d reg }

/-- The dial, and the session that is made of it. -/
def udpDial (d : Datagram) (reg : Registration) (fails : Bool) : World :=
  if fails then { w with udp := .idle }
  else
    let sess := newSession w.made d.uuid d.clientAddr reg
    { w.touch sess with made := w.made + 1, udp := .inserting d reg sess }

/-- The last section of `sessionFor`. A session that is not needed is closed
under the lock. -/
def udpInsert (d : Datagram) (reg : Registration) (sess : Session) : World :=
  match w.shared.insertSession r sess with
  | (.failed _, _) => { w.closeSocket sess with udp := .idle }
  | (.existing existing, _) => { w.closeSocket sess with udp := .writing d reg existing }
  | (.created, shared) =>
    { w with
      shared
      udp := .writing d reg sess
      readers := w.readers ++ [.reading sess]
      log := .inserted sess :: w.log }

/-- The write to the backend. -/
def udpWrite (d : Datagram) (sess : Session) (fails : Bool) : World :=
  let w := w.touch sess
  if sess.id ∈ w.closedSockets ∨ fails then { w with udp := .failed sess }
  else { w with udp := .idle, log := .wroteBackend sess d.payload :: w.log }

/-- The next piece of the UDP loop; `fails` is for the dial and the write. -/
def udpStep (fails : Bool) : Option World :=
  match w.udp with
  | .idle => none
  | .looking d now => some (w.udpLook d now)
  | .finding d reg => some (w.udpFind d reg)
  | .closingOld d reg old => some { w.closeSocket old with udp := .limiting d reg }
  | .limiting d reg => some (w.udpLimit r d reg)
  | .dialing d reg => some (w.udpDial d reg fails)
  | .inserting d reg sess => some (w.udpInsert r d reg sess)
  | .writing d _ sess => some (w.udpWrite d sess fails)
  | .failed sess =>
    some { w with shared := w.shared.closeSession sess, udp := .failedSocket sess }
  | .failedSocket sess => some { w.closeSocket sess with udp := .idle }

/-! ## The readers -/

/-- A reader moves on. -/
def setReader (i : ℕ) (rd : Reader) : World := { w with readers := w.readers.set i rd }

/-- `Read` of a session returns, with a datagram or an error. -/
def backendRead (i : ℕ) (result : Option GoString) : Option World :=
  match w.readers[i]?, result with
  | some (.reading sess), none =>
    if sess.id ∈ w.closedSockets ∨ w.shared.closed then some (w.setReader i .done)
    else some (w.setReader i (.failed sess))
  | some (.reading sess), some data =>
    if sess.id ∈ w.closedSockets then none
    else if r.cfg.maxPacketSize < data.length then some w
    else some (w.setReader i (.checking sess data))
  | _, _ => none

/-- The next piece of a reader; `fails` is for `WriteToUDP`. -/
def readerStep (i : ℕ) (fails : Bool) : Option World :=
  match w.readers[i]? with
  | some (.checking sess payload) =>
    if w.shared.sessionIsCurrent sess then some (w.setReader i (.writing sess payload))
    else some (w.setReader i .done)
  | some (.writing sess payload) =>
    if w.listenerClosed ∨ fails then
      if w.shared.closed ∨ w.listenerClosed then some (w.setReader i .done)
      else some (w.setReader i (.failed sess))
    else
      some { (w.touch sess).setReader i (.reading sess) with
        log := .wroteClient sess payload :: w.log }
  | some (.failed sess) =>
    some { w.setReader i (.failedSocket sess) with shared := w.shared.closeSession sess }
  | some (.failedSocket sess) => some ((w.closeSocket sess).setReader i .done)
  | _ => none

/-! ## Registration requests -/

/-- A request moves on. -/
def setRequest (i : ℕ) (q : Request) : World := { w with requests := w.requests.set i q }

/-- A request comes in: `handleRegistration` up to the section of its
handler. -/
def accept (req : HTTPRequest) : Request :=
  match r.handleRegistration req with
  | .error status => .answered status
  | .ok (backendID, .put uuid ownerID) =>
    match ids.newLeaseID w.requests.length with
    | none => .answered 500
    | some leaseID => .put req.authorization
        ⟨uuid, backendID, ownerID, leaseID, 0, w.now + r.cfg.registrationTTL⟩
  | .ok (backendID, .refresh uuid ownerID leaseID) => .refresh uuid backendID ownerID leaseID
  | .ok (backendID, .delete uuid ownerID leaseID) => .delete uuid backendID ownerID leaseID

/-- The section of `handlePutRegistration`. -/
def handlerPut (i : ℕ) (authorization : GoString) (reg : Registration) : World :=
  match w.shared.putRegistration r reg with
  | (.closed, _) => w.setRequest i (.answered 503)
  | (.limit, _) => w.setRequest i (.answered 429)
  | (.stored reg none, shared) =>
    { w.setRequest i (.answered 200) with
      shared, log := .stored authorization reg none :: w.log }
  | (.stored reg (some old), shared) =>
    { w.setRequest i (.closing reg.playerUUID 200 (some (leasesOf reg.playerUUID w.log))) with
      shared, log := .stored authorization reg (some old) :: w.log }

/-- The section of `handleRefreshRegistration`. -/
def handlerRefresh (i : ℕ) (uuid : UUID) (backendID ownerID leaseID : GoString) : World :=
  let out := w.shared.refreshRegistration r w.now uuid backendID ownerID leaseID
  { w.setRequest i (.answered (if out.1.isSome then 200 else 409)) with
    shared := out.2
    log := .refreshed uuid backendID ownerID leaseID (w.now + r.cfg.registrationTTL) :: w.log }

/-- The section of `handleDeleteRegistration`. -/
def handlerDelete (i : ℕ) (uuid : UUID) (backendID ownerID leaseID : GoString) : World :=
  let out := w.shared.deleteRegistration uuid backendID ownerID leaseID
  { w.setRequest i (if out.1 then .closing uuid 204 none else .answered 204) with
    shared := out.2
    log := .deleted uuid backendID ownerID leaseID :: w.log }

/-- The answer, which nobody gets any more from a request that has timed
out. -/
def answer (i : ℕ) (uuid : UUID) (status : ℕ) (older : Option (List GoString)) : World :=
  { w.setRequest i (.answered status) with
    log := match older with
      | none => w.log
      | some older => if i ∈ w.timedOut then w.log else .answered uuid older :: w.log }

/-- `http.TimeoutHandler`: a request that has not answered for
`RequestTimeout` is answered with 503 in the place of its handler, which
goes on. -/
def timeout (i : ℕ) : Option World :=
  match w.requests[i]? with
  | none | some (.answered _) => none
  | some q =>
    if i ∈ w.timedOut then none
    else some
      { w with
        timedOut := i :: w.timedOut
        log := match q.replacing with
          | none => w.log
          | some (uuid, older) => .answered uuid older :: w.log }

/-- The next piece of a request. -/
def handlerStep (i : ℕ) : Option World :=
  match w.requests[i]? with
  | some (.put authorization reg) => some (w.handlerPut r i authorization reg)
  | some (.refresh uuid backendID ownerID leaseID) =>
    some (w.handlerRefresh r i uuid backendID ownerID leaseID)
  | some (.delete uuid backendID ownerID leaseID) =>
    some (w.handlerDelete i uuid backendID ownerID leaseID)
  | some (.closing uuid status older) =>
    let out := w.shared.closeSessionsForUUID uuid
    some { w.setRequest i (.sockets out.1 uuid status older) with shared := out.2 }
  | some (.sockets (sess :: sessions) uuid status older) =>
    some ((w.closeSocket sess).setRequest i (.sockets sessions uuid status older))
  | some (.sockets [] uuid status older) => some (w.answer i uuid status older)
  | _ => none

/-! ## The sweeper and `Close` -/

/-- The next piece of `expireLoop`. -/
def sweeperStep : World :=
  match w.sweeper with
  | .idle => { w with sweeper := .expiring w.now }
  | .expiring now =>
    let out := w.shared.expireRegistrations now
    { w with shared := out.2, sweeper := .closing out.1, log := .swept now :: w.log }
  | .closing [] => { w with sweeper := .checking w.shared.sessions.values }
  | .closing (uuid :: uuids) =>
    let out := w.shared.closeSessionsForUUID uuid
    { w with shared := out.2, sweeper := .sockets out.1 uuids }
  | .sockets [] uuids => { w with sweeper := .closing uuids }
  | .sockets (sess :: sessions) uuids =>
    { w.closeSocket sess with sweeper := .sockets sessions uuids }
  | .checking [] => { w with sweeper := .idle }
  | .checking (sess :: sessions) =>
    { w with
      sweeper :=
        if r.cfg.idleTimeout ≤ w.now - w.lastActivity sess.id then .removing sess sessions
        else .checking sessions }
  | .removing sess sessions =>
    { w with shared := w.shared.closeSession sess, sweeper := .socket sess sessions }
  | .socket sess sessions => { w.closeSocket sess with sweeper := .checking sessions }

/-- The next piece of `Close`. -/
def closerStep : Option World :=
  match w.closer with
  | .running =>
    let out := w.shared.shutdown
    some { w with shared := out.2, closer := .listener out.1, log := .closed :: w.log }
  | .listener sessions => some { w with listenerClosed := true, closer := .sockets sessions }
  | .sockets (sess :: sessions) => some { w.closeSocket sess with closer := .sockets sessions }
  | .sockets [] => none

end World

/-- Which goroutine moves, and what it meets. -/
inductive Action where
  | tick (d : ℕ)
  | receive (clientAddr : UDPAddr) (datagram : GoString)
  | udp (fails : Bool)
  | backendRead (i : ℕ) (result : Option GoString)
  | reader (i : ℕ) (fails : Bool)
  | request (req : HTTPRequest)
  | handler (i : ℕ)
  | timeout (i : ℕ)
  | sweeper
  | close

/-- One step of one goroutine. -/
def step (r : Runtime) (ids : LeaseIDs) (w : World) : Action → Option World
  | .tick d => some { w with now := w.now + d }
  | .receive clientAddr data => w.receive r clientAddr data
  | .udp fails => w.udpStep r fails
  | .backendRead i result => w.backendRead r i result
  | .reader i fails => w.readerStep i fails
  | .request req => some { w with requests := w.requests ++ [w.accept r ids req] }
  | .handler i => w.handlerStep r i
  | .timeout i => w.timeout i
  | .sweeper => some (w.sweeperStep r)
  | .close => w.closerStep

/-- A runtime that has just been started. -/
def boot (now : ℤ) : World := { now }

end Voice

end McRouter
