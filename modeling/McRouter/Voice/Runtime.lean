import McRouter.Voice.Packet
import McRouter.Config.Types
import McRouter.Common.GoMap

/-!
# The voice runtime

`voicechat/runtime.go`: what `Runtime` holds and each of its critical
sections as a function on it. The sections are the pieces that the
goroutines are made of; how the pieces are put together is the business of
`Sequential.lean`, where an operation runs to its end, and of
`Machine.lean`, where the goroutines interleave.
-/

namespace McRouter

namespace Voice

open Strings Unicode Net

/-! ## Configuration -/

/-- `BackendConfig`. -/
structure BackendConfig where
  udp : GoString
  token : GoString
deriving DecidableEq

/-- `Config`. -/
structure Config where
  listen : GoString
  registrationListen : GoString
  registrationTTL : Duration
  requestTimeout : Duration
  maxRegistrations : ℤ
  idleTimeout : Duration
  backendDialTimeout : Duration
  maxSessions : ℤ
  maxPacketSize : ℤ
  backends : GoMap GoString BackendConfig

/-- `backend`. -/
structure Backend where
  id : GoString
  addr : UDPAddr
deriving DecidableEq

/-- `backendToken`. -/
structure BackendToken where
  backendID : GoString
  token : GoString
deriving DecidableEq

/-- What `NewRuntime` asks of the network: a resolver, where `none` is an
address without an IP, and the error of the listening socket. -/
structure NetEnv where
  resolveUDPAddr : GoString → Except Err (Option UDPAddr)
  listenUDP : Option Err

/-- The part of `Runtime` that does not change. -/
structure Runtime where
  cfg : Config
  backends : GoMap GoString Backend := ∅
  tokens : List BackendToken := []

/-- The high byte of the first group. -/
def firstByte (ip : IP) : ℕ := (ip.groups.headD 0).toNat / 256

/-- `IP.To4`: the two groups of an IPv4 address. -/
def to4 (ip : IP) : Option (ℕ × ℕ) :=
  match ip.groups with
  | [0, 0, 0, 0, 0, 0xFFFF, hi, lo] => some (hi.toNat, lo.toNat)
  | _ => none

/-- `IP.IsUnspecified`. -/
def isUnspecified (ip : IP) : Bool :=
  to4 ip == some (0, 0) || ip.groups.all (· == 0)

/-- `IP.IsMulticast`. -/
def isMulticast (ip : IP) : Bool :=
  match to4 ip with
  | some (hi, _) => 0xE0 ≤ hi / 256 && hi / 256 < 0xF0
  | none => firstByte ip == 0xFF

/-- `validateBackendAddr`: the address, if it will do. -/
def validateBackendAddr (addr : Option UDPAddr) : Except Err UDPAddr :=
  match addr with
  | none => .error ⟨go "resolved address is empty", []⟩
  | some addr =>
    if isUnspecified addr.ip then .error ⟨go "resolved address must not be unspecified", []⟩
    else if isMulticast addr.ip then .error ⟨go "resolved address must not be multicast", []⟩
    else if to4 addr.ip = some (0xFFFF, 0xFFFF) then
      .error ⟨go "resolved address must not be broadcast", []⟩
    else .ok addr

/-- One round of the backend loop of `NewRuntime`. -/
def addBackend (env : NetEnv) (r : Runtime) (id : GoString) (cfg : BackendConfig) :
    Except Err Runtime :=
  match env.resolveUDPAddr cfg.udp with
  | .error err => .error (err.prefixed (go "resolve voicechat backend " ++ quote id))
  | .ok resolved =>
    match validateBackendAddr resolved with
    | .error err => .error (err.prefixed (go "invalid voicechat backend " ++ quote id))
    | .ok addr => .ok
        { r with backends := r.backends.insert id ⟨id, addr⟩,
                 tokens := r.tokens ++ [⟨id, cfg.token⟩] }

/-- The backend loop of `NewRuntime`, in the order of the map. -/
def addBackends (env : NetEnv) : Runtime → List (Σ _ : GoString, BackendConfig) → Except Err Runtime
  | r, [] => .ok r
  | r, e :: rest =>
    match addBackend env r e.1 e.2 with
    | .error err => .error err
    | .ok r => addBackends env r rest

/-- A setting that has to be positive. -/
def positive (value : ℤ) (name : GoString) : Option Err :=
  if value ≤ 0 then some ⟨name ++ go " must be positive", []⟩ else none

/-- The checks of `NewRuntime`, the first one that fails. -/
def Config.check (cfg : Config) : Option Err :=
  (positive cfg.registrationTTL (go "registration TTL")).or <|
  (positive cfg.requestTimeout (go "request timeout")).or <|
  (positive cfg.maxRegistrations (go "max registrations")).or <|
  (positive cfg.idleTimeout (go "idle timeout")).or <|
  (positive cfg.backendDialTimeout (go "backend dial timeout")).or <|
  (positive cfg.maxSessions (go "max sessions")).or <|
  (positive cfg.maxPacketSize (go "max packet size")).or <|
  if cfg.backends.len = 0 then some ⟨go "at least one voicechat backend is required", []⟩ else none

/-- `NewRuntime`. -/
def newRuntime (env : NetEnv) (cfg : Config) : Except Err Runtime :=
  match cfg.check with
  | some err => .error err
  | none =>
    match env.resolveUDPAddr cfg.listen with
    | .error err =>
      .error (err.prefixed (go "resolve voicechat listen address " ++ quote cfg.listen))
    | .ok _ =>
      match env.listenUDP with
      | some err => .error (err.prefixed (go "listen voicechat UDP " ++ quote cfg.listen))
      | none => addBackends env { cfg } cfg.backends.entries

/-! ## Requests -/

/-- `http.Request.Method`, as far as it is told apart. -/
inductive Method where
  | put
  | post
  | delete
  | other
deriving DecidableEq, Repr

/-- `leaseRequest`; a `putRegistrationRequest` has the owner only. -/
structure LeaseRequest where
  ownerID : GoString
  leaseID : GoString := []
deriving DecidableEq

/-- A request to the registration API. `body` is what `decodeJSON` makes of
the body for the handler of the method, `none` if it fails. -/
structure HTTPRequest where
  method : Method
  authorization : GoString
  path : GoString
  body : Option LeaseRequest
deriving DecidableEq

/-- The token of an `Authorization` header. -/
def bearerToken (auth : GoString) : Option GoString :=
  if hasPrefix auth (go "Bearer ") then some (trimSpace (trimPrefix auth (go "Bearer ")))
  else none

/-- `authenticate`. -/
def Runtime.authenticate (r : Runtime) (auth : GoString) : Option GoString :=
  match bearerToken auth with
  | none => none
  | some token => (r.tokens.find? fun candidate => token = candidate.token).map (·.backendID)

/-- `parseRegistrationPath`. -/
def parseRegistrationPath (path : GoString) : Option (UUID × GoString) :=
  if !hasPrefix path (go "/v1/voicechat/registrations/") then none
  else
    let rest := trimPrefix path (go "/v1/voicechat/registrations/")
    match split 47 rest with
    | [id] => (parseUUID id).bind fun uuid => if uuid.string = id then some (uuid, []) else none
    | [id, action] =>
      (parseUUID id).bind fun uuid => if uuid.string = id then some (uuid, action) else none
    | _ => none

theorem slash_notMem_string (u : UUID) : (47 : UInt8) ∉ u.string := by
  have hno : ∀ bs, (47 : UInt8) ∉ hexEncode bs := fun bs => notMem_hexEncode (by decide)
  simp [UUID.string, hno]

/-- The identifier in a path has to be spelt as it is printed. -/
theorem bind_parseUUID_eq_some {id action action' : GoString} {u : UUID} :
    ((parseUUID id).bind fun uuid => if uuid.string = id then some (uuid, action) else none) =
      some (u, action') ↔ id = u.string ∧ action' = action := by
  constructor
  · intro h
    obtain ⟨uuid, -, h⟩ := Option.bind_eq_some_iff.mp h
    split at h
    · rename_i hid
      obtain ⟨rfl, rfl⟩ := Prod.mk.inj (Option.some.inj h)
      exact ⟨hid.symm, rfl⟩
    · cases h
  · rintro ⟨rfl, rfl⟩
    rw [parseUUID_string, Option.bind_some, if_pos rfl]

/-- **The paths of a player**: the identifier as it is printed, and nothing
after it or a slash and an action. -/
theorem parseRegistrationPath_eq_some {path : GoString} {u : UUID} {action : GoString} :
    parseRegistrationPath path = some (u, action) ↔
      path = go "/v1/voicechat/registrations/" ++ u.string ∧ action = [] ∨
      path = go "/v1/voicechat/registrations/" ++ (u.string ++ 47 :: action) ∧ (47 : UInt8) ∉ action := by
  constructor
  · intro h
    cases hstart : hasPrefix path (go "/v1/voicechat/registrations/") with
    | false =>
      rw [parseRegistrationPath, hstart] at h
      cases h
    | true =>
      obtain ⟨rest, rfl⟩ := List.isPrefixOf_iff_prefix.mp hstart
      simp only [parseRegistrationPath, hstart, trimPrefix_append, Bool.not_true,
        Bool.false_eq_true, if_false] at h
      split at h
      · rename_i id hsplit
        obtain ⟨-, -, rfl⟩ := split_eq_iff.mp hsplit
        obtain ⟨rfl, rfl⟩ := bind_parseUUID_eq_some.mp h
        exact Or.inl ⟨by simp, rfl⟩
      · rename_i id act hsplit
        obtain ⟨-, hno, rfl⟩ := split_eq_iff.mp hsplit
        obtain ⟨rfl, rfl⟩ := bind_parseUUID_eq_some.mp h
        exact Or.inr ⟨by simp, hno action (by simp)⟩
      · cases h
  · have hu := split_of_notMem (slash_notMem_string u)
    rintro (⟨rfl, rfl⟩ | ⟨rfl, hno⟩)
    · simp only [parseRegistrationPath, hasPrefix_append, trimPrefix_append, hu]
      exact bind_parseUUID_eq_some.mpr ⟨rfl, rfl⟩
    · simp only [parseRegistrationPath, hasPrefix_append, trimPrefix_append, split_append_sep, hu,
        split_of_notMem hno]
      exact bind_parseUUID_eq_some.mpr ⟨rfl, rfl⟩

/-- **One spelling for each player.** An identifier reads back, and a path
addresses a player exactly when it holds the identifier as it is printed,
with no segments but an action after it. -/
theorem one_spelling :
    (∀ u : UUID, parseUUID u.string = some u) ∧
    ∀ (path : GoString) (u : UUID) (action : GoString),
      parseRegistrationPath path = some (u, action) ↔
        path = go "/v1/voicechat/registrations/" ++ u.string ∧ action = [] ∨
        path = go "/v1/voicechat/registrations/" ++ (u.string ++ 47 :: action) ∧
          (47 : UInt8) ∉ action :=
  ⟨parseUUID_string, fun _ _ _ => parseRegistrationPath_eq_some⟩

/-- What a request asks for once it is authenticated and well formed. -/
inductive Command where
  | put (uuid : UUID) (ownerID : GoString)
  | refresh (uuid : UUID) (ownerID leaseID : GoString)
  | delete (uuid : UUID) (ownerID leaseID : GoString)
deriving DecidableEq

/-- The body of a `PUT`, if it is one. -/
def putBody (body : Option LeaseRequest) : Option GoString :=
  body.bind fun b => if trimSpace b.ownerID = [] then none else some b.ownerID

/-- The body of a refresh or a `DELETE`, if it is one. -/
def leaseBody (body : Option LeaseRequest) : Option (GoString × GoString) :=
  body.bind fun b =>
    if trimSpace b.ownerID = [] ∨ trimSpace b.leaseID = [] then none
    else some (b.ownerID, b.leaseID)

/-- `handleRegistration` up to the handlers: the status it answers with, or
the backend and what it asks for. -/
def Runtime.handleRegistration (r : Runtime) (req : HTTPRequest) : Except ℕ (GoString × Command) :=
  match r.authenticate req.authorization with
  | none => .error 401
  | some backendID =>
    match parseRegistrationPath req.path with
    | none => .error 404
    | some (uuid, action) =>
      if req.method = .put ∧ action = [] then
        match putBody req.body with
        | none => .error 400
        | some ownerID => .ok (backendID, .put uuid ownerID)
      else if req.method = .post ∧ action = go "refresh" then
        match leaseBody req.body with
        | none => .error 400
        | some (ownerID, leaseID) => .ok (backendID, .refresh uuid ownerID leaseID)
      else if req.method = .delete ∧ action = [] then
        match leaseBody req.body with
        | none => .error 400
        | some (ownerID, leaseID) => .ok (backendID, .delete uuid ownerID leaseID)
      else .error 405

/-! ## Registrations and sessions -/

/-- `registration`. -/
structure Registration where
  playerUUID : UUID
  backendID : GoString
  ownerID : GoString
  leaseID : GoString
  generation : UInt64
  expiresAt : ℤ
deriving DecidableEq

/-- `dynamicSession`, without what changes. Each one made has an `id` of its
own, so that two are the same pointer when they are equal. -/
structure Session where
  id : ℕ
  key : GoString
  playerUUID : UUID
  clientAddr : UDPAddr
  backendID : GoString
  leaseID : GoString
  generation : UInt64
deriving DecidableEq

/-- A session for a packet of `uuid` from `clientAddr` under `reg`. -/
def newSession (id : ℕ) (uuid : UUID) (clientAddr : UDPAddr) (reg : Registration) : Session where
  id := id
  key := dynamicSessionKey uuid clientAddr
  playerUUID := uuid
  clientAddr := clientAddr
  backendID := reg.backendID
  leaseID := reg.leaseID
  generation := reg.generation

/-- The session is one of this lease. -/
def Session.carries (sess : Session) (reg : Registration) : Prop :=
  sess.backendID = reg.backendID ∧ sess.leaseID = reg.leaseID ∧ sess.generation = reg.generation

instance (sess : Session) (reg : Registration) : Decidable (sess.carries reg) := by
  unfold Session.carries
  infer_instance

/-- The registration is held by this backend and owner, under this lease. -/
def Registration.heldBy (reg : Registration) (backendID ownerID leaseID : GoString) : Prop :=
  reg.backendID = backendID ∧ reg.ownerID = ownerID ∧ reg.leaseID = leaseID

instance (reg : Registration) (backendID ownerID leaseID : GoString) :
    Decidable (reg.heldBy backendID ownerID leaseID) := by
  unfold Registration.heldBy
  infer_instance

/-- What `r.mu` guards. -/
structure Shared where
  closed : Bool := false
  registrations : GoMap UUID Registration := ∅
  sessions : GoMap GoString Session := ∅

/-- `errUnknownRegistration`. -/
def errUnknownRegistration : Err := ⟨go "voicechat registration not found", []⟩

/-- `errExpiredRegistration`. -/
def errExpiredRegistration : Err := ⟨go "voicechat registration expired", []⟩

/-- `errSessionLimit`. -/
def errSessionLimit : Err := ⟨go "voicechat session limit reached", []⟩

/-- `errBackendMissing`. -/
def errBackendMissing : Err := ⟨go "voicechat backend missing", []⟩

/-- `net.ErrClosed`. -/
def errNetClosed : Err := ⟨go "use of closed network connection", [.netClosed]⟩

namespace Shared

variable (r : Runtime) (s : Shared)

/-- `lookupRegistration`, at the time it has read. -/
def lookupRegistration (now : ℤ) (uuid : UUID) : Except Err Registration × Shared :=
  match s.registrations.lookup uuid with
  | none => (.error errUnknownRegistration, s)
  | some reg =>
    if reg.expiresAt < now then
      (.error errExpiredRegistration, { s with registrations := s.registrations.erase uuid })
    else (.ok reg, s)

/-- What the first section of `sessionFor` finds under the key. -/
inductive Found where
  | closed
  | absent
  | current (sess : Session)
  | replaced (sess : Session)
deriving DecidableEq

/-- The first section of `sessionFor`: a session of another lease is taken
out of the table. -/
def findSession (key : GoString) (reg : Registration) : Found × Shared :=
  if s.closed then (.closed, s)
  else match s.sessions.lookup key with
    | none => (.absent, s)
    | some sess =>
      if sess.carries reg then (.current sess, s)
      else (.replaced sess, { s with sessions := s.sessions.erase key })

/-- The second section of `sessionFor`. -/
def backendFor (reg : Registration) : Except Err Backend :=
  if r.cfg.maxSessions ≤ s.sessions.len then .error errSessionLimit
  else match r.backends.lookup reg.backendID with
    | none => .error errBackendMissing
    | some backend => .ok backend

/-- What the last section of `sessionFor` does with a new session. -/
inductive Inserted where
  | failed (err : Err)
  | existing (sess : Session)
  | created
deriving DecidableEq

/-- The last section of `sessionFor`. -/
def insertSession (sess : Session) : Inserted × Shared :=
  if s.closed then (.failed errNetClosed, s)
  else match s.sessions.lookup sess.key with
    | some existing => (.existing existing, s)
    | none =>
      if r.cfg.maxSessions ≤ s.sessions.len then (.failed errSessionLimit, s)
      else (.created, { s with sessions := s.sessions.insert sess.key sess })

/-- The section of `expireRegistrations`: the players whose registration is
gone. -/
def expireRegistrations (now : ℤ) : List UUID × Shared :=
  ((s.registrations.entries.filter fun e => e.2.expiresAt < now).map Sigma.fst,
    { s with registrations := s.registrations.filter fun _ reg => ¬ reg.expiresAt < now })

/-- The section of `closeSessionsForUUID`: the sessions taken out. -/
def closeSessionsForUUID (uuid : UUID) : List Session × Shared :=
  (s.sessions.values.filter fun sess => sess.playerUUID = uuid,
    { s with sessions := s.sessions.filter fun _ sess => ¬ sess.playerUUID = uuid })

/-- `r.sessions[sess.key] == sess`. -/
def holds (sess : Session) : Prop := s.sessions.lookup sess.key = some sess

instance (sess : Session) : Decidable (s.holds sess) := by
  unfold holds
  infer_instance

/-- The section of `closeSession`. -/
def closeSession (sess : Session) : Shared :=
  if s.holds sess then { s with sessions := s.sessions.erase sess.key } else s

/-- `sessionIsCurrent`. -/
def sessionIsCurrent (sess : Session) : Bool := !s.closed && decide (s.holds sess)

/-- What the section of `handlePutRegistration` does. -/
inductive Put where
  | closed
  | limit
  | stored (reg : Registration) (replaced : Option Registration)
deriving DecidableEq

/-- The section of `handlePutRegistration`, for a registration whose
generation is not set yet. -/
def putRegistration (reg : Registration) : Put × Shared :=
  if s.closed then (.closed, s)
  else match s.registrations.lookup reg.playerUUID with
    | some existing =>
      let reg := { reg with generation := existing.generation + 1 }
      (.stored reg (some existing),
        { s with registrations := s.registrations.insert reg.playerUUID reg })
    | none =>
      if r.cfg.maxRegistrations ≤ s.registrations.len then (.limit, s)
      else
        let reg := { reg with generation := 1 }
        (.stored reg none, { s with registrations := s.registrations.insert reg.playerUUID reg })

/-- The section of `handleRefreshRegistration`, at the time it reads. -/
def refreshRegistration (now : ℤ) (uuid : UUID) (backendID ownerID leaseID : GoString) :
    Option Registration × Shared :=
  match s.registrations.lookup uuid with
  | none => (none, s)
  | some reg =>
    if reg.heldBy backendID ownerID leaseID then
      let reg := { reg with expiresAt := now + r.cfg.registrationTTL }
      (some reg, { s with registrations := s.registrations.insert uuid reg })
    else (none, s)

/-- The section of `handleDeleteRegistration`: whether it deletes. -/
def deleteRegistration (uuid : UUID) (backendID ownerID leaseID : GoString) : Bool × Shared :=
  match s.registrations.lookup uuid with
  | none => (false, s)
  | some reg =>
    if reg.heldBy backendID ownerID leaseID then
      (true, { s with registrations := s.registrations.erase uuid })
    else (false, s)

/-- The section of `Close`: the sessions to be closed. -/
def shutdown : List Session × Shared :=
  (s.sessions.values, { closed := true, registrations := ∅, sessions := ∅ })

end Shared

end Voice

end McRouter
