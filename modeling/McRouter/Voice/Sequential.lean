import McRouter.Voice.Runtime
import McRouter.Common.System

/-!
# Voice operations, one at a time

The operations of `voicechat/runtime.go` put together from their critical
sections and run to their end: a datagram of a client, a request to the
registration API, a sweep of `expireLoop`, a datagram of a backend, `Close`.

A session should not outlive the registration it was made under. The
handlers and the sweep close the sessions of a player whose registration
they remove; `lookupRegistration` removes an expired registration and leaves
the sessions. So **no session is left behind exactly as long as no datagram
comes in for an expired registration that still has one**
(`no_orphan_session_iff`).
-/

namespace McRouter

namespace Voice

open Net

/-- The runtime between two operations. -/
structure State where
  now : ℤ
  shared : Shared := {}
  /-- Every session made so far, the newest first. -/
  made : List Session := []
  /-- The sessions whose backend socket is closed, by `id`. -/
  closed : List ℕ := []
  lastActivity : ℕ → ℤ := fun _ => 0
  /-- What was written to backends, the newest first. -/
  toBackend : List (Session × GoString) := []
  /-- What was written to clients, the newest first. -/
  toClient : List (Session × GoString) := []

namespace State

variable (r : Runtime) (s : State)

/-- `dynamicSession.touch`. -/
def touch (sess : Session) : State :=
  { s with lastActivity := Function.update s.lastActivity sess.id s.now }

/-- `dynamicSession.close`. -/
def closeSocket (sess : Session) : State := { s with closed := sess.id :: s.closed }

/-- `closeSession`. -/
def closeSession (sess : Session) : State :=
  { s with shared := s.shared.closeSession sess }.closeSocket sess

/-- `closeSessionsForUUID`. -/
def closeSessionsForUUID (uuid : UUID) : State :=
  let out := s.shared.closeSessionsForUUID uuid
  out.1.foldl closeSocket { s with shared := out.2 }

/-- `sessionFor` from its second section on. -/
def dialSession (uuid : UUID) (clientAddr : UDPAddr) (reg : Registration) (dialErr : Option Err) :
    Option Session × State :=
  match s.shared.backendFor r reg, dialErr with
  | .error _, _ => (none, s)
  | .ok _, some _ => (none, s)
  | .ok _, none =>
    let sess := newSession s.made.length uuid clientAddr reg
    let s := { s with made := sess :: s.made }.touch sess
    match s.shared.insertSession r sess with
    | (.failed _, _) => (none, s.closeSocket sess)
    | (.existing existing, _) => (some existing, s.closeSocket sess)
    | (.created, shared) => (some sess, { s with shared })

/-- `sessionFor`. -/
def sessionFor (uuid : UUID) (clientAddr : UDPAddr) (reg : Registration) (dialErr : Option Err) :
    Option Session × State :=
  match s.shared.findSession (dynamicSessionKey uuid clientAddr) reg with
  | (.closed, _) => (none, s)
  | (.current sess, _) => (some sess, s)
  | (.absent, _) => s.dialSession r uuid clientAddr reg dialErr
  | (.replaced old, shared) =>
    ({ s with shared }.closeSocket old).dialSession r uuid clientAddr reg dialErr

/-- The end of `forwardClientPacket`: the datagram is written through the
session. -/
def writeBackend (sess : Session) (payload : GoString) (writeErr : Option Err) : State :=
  let s := s.touch sess
  if sess.id ∈ s.closed ∨ writeErr ≠ none then s.closeSession sess
  else { s with toBackend := (sess, payload) :: s.toBackend }

/-- `forwardClientPacket`. -/
def forwardClientPacket (clientAddr : UDPAddr) (payload : GoString)
    (dialErr writeErr : Option Err) : State :=
  match parseClientPacket payload with
  | .error _ => s
  | .ok packet =>
    match s.shared.lookupRegistration s.now packet.playerUUID with
    | (.error _, shared) => { s with shared }
    | (.ok reg, shared) =>
      match { s with shared }.sessionFor r packet.playerUUID clientAddr reg dialErr with
      | (none, s) => s
      | (some sess, s) => s.writeBackend sess payload writeErr

/-- A round of `serveUDP`: what does not fit is dropped. -/
def serveUDP (clientAddr : UDPAddr) (datagram : GoString) (dialErr writeErr : Option Err) : State :=
  if r.cfg.maxPacketSize < datagram.length then s
  else s.forwardClientPacket r clientAddr datagram dialErr writeErr

/-- A round of `readBackend` of a session: the datagram is written to its
client. -/
def readBackend (sess : Session) (datagram : GoString) (writeErr : Option Err) : State :=
  if sess.id ∈ s.closed ∨ r.cfg.maxPacketSize < datagram.length then s
  else if !s.shared.sessionIsCurrent sess then s
  else match writeErr with
    | some err => if s.shared.closed || err.is .netClosed then s else s.closeSession sess
    | none => { s with toClient := (sess, datagram) :: s.toClient }.touch sess

/-- A tick of `expireLoop`. -/
def sweep : State :=
  let out := s.shared.expireRegistrations s.now
  let s := out.1.foldl closeSessionsForUUID { s with shared := out.2 }
  s.shared.sessions.values.foldl (fun s sess =>
    if r.cfg.idleTimeout ≤ s.now - s.lastActivity sess.id then s.closeSession sess else s) s

/-- `handlePutRegistration`, with the lease `newLeaseID` makes, if it makes
one. -/
def handlePutRegistration (backendID : GoString) (uuid : UUID) (ownerID : GoString)
    (leaseID : Option GoString) : State :=
  match leaseID with
  | none => s
  | some leaseID =>
    match s.shared.putRegistration r
        ⟨uuid, backendID, ownerID, leaseID, 0, s.now + r.cfg.registrationTTL⟩ with
    | (.stored _ (some _), shared) => { s with shared }.closeSessionsForUUID uuid
    | (.stored _ none, shared) => { s with shared }
    | (_, _) => s

/-- `handleRefreshRegistration`. -/
def handleRefreshRegistration (backendID : GoString) (uuid : UUID) (ownerID leaseID : GoString) :
    State :=
  { s with shared := (s.shared.refreshRegistration r s.now uuid backendID ownerID leaseID).2 }

/-- `handleDeleteRegistration`. -/
def handleDeleteRegistration (backendID : GoString) (uuid : UUID) (ownerID leaseID : GoString) :
    State :=
  match s.shared.deleteRegistration uuid backendID ownerID leaseID with
  | (true, shared) => { s with shared }.closeSessionsForUUID uuid
  | (false, _) => s

/-- `handleRegistration`. -/
def handle (req : HTTPRequest) (leaseID : Option GoString) : State :=
  match r.handleRegistration req with
  | .error _ => s
  | .ok (backendID, .put uuid ownerID) => s.handlePutRegistration r backendID uuid ownerID leaseID
  | .ok (backendID, .refresh uuid ownerID leaseID) =>
    s.handleRefreshRegistration r backendID uuid ownerID leaseID
  | .ok (backendID, .delete uuid ownerID leaseID) =>
    s.handleDeleteRegistration backendID uuid ownerID leaseID

/-- `Close`. -/
def close : State :=
  let out := s.shared.shutdown
  out.1.foldl closeSocket { s with shared := out.2 }

end State

/-- An operation, with what it meets. -/
inductive Op where
  | tick (d : ℕ)
  | datagram (clientAddr : UDPAddr) (datagram : GoString) (dialErr writeErr : Option Err)
  | request (req : HTTPRequest) (leaseID : Option GoString)
  | sweep
  | backendDatagram (id : ℕ) (datagram : GoString) (writeErr : Option Err)
  | close

/-- An operation run to its end. -/
def Op.run (r : Runtime) (s : State) : Op → State
  | .tick d => { s with now := s.now + d }
  | .datagram clientAddr data dialErr writeErr => s.serveUDP r clientAddr data dialErr writeErr
  | .request req leaseID => s.handle r req leaseID
  | .sweep => s.sweep r
  | .backendDatagram id data writeErr =>
    match s.made.find? fun sess => sess.id = id with
    | none => s
    | some sess => s.readBackend r sess data writeErr
  | .close => s.close

/-- Operations as steps. -/
def opStep (r : Runtime) (s : State) (op : Op) : Option State := some (op.run r s)

/-! ## Sessions and their registrations -/

/-- **Every session in the table is one of its player's registration.** -/
def Backed (s : Shared) : Prop :=
  ∀ key sess, s.sessions.lookup key = some sess →
    ∃ reg, s.registrations.lookup sess.playerUUID = some reg ∧ sess.carries reg

/-- No session is left of a player without a registration. -/
def NoOrphan (s : Shared) : Prop :=
  ∀ key sess, s.sessions.lookup key = some sess →
    s.registrations.lookup sess.playerUUID ≠ none

theorem Backed.noOrphan {s : Shared} (h : Backed s) : NoOrphan s := by
  intro key sess hs hnone
  obtain ⟨reg, hreg, -⟩ := h key sess hs
  rw [hnone] at hreg
  cases hreg

section Sections

variable {r : Runtime} {s s' : Shared}

/-- Taking sessions out of the table. -/
theorem Backed.of_sublist (h : Backed s) (hreg : s'.registrations = s.registrations)
    (hsub : ∀ key sess, s'.sessions.lookup key = some sess → s.sessions.lookup key = some sess) :
    Backed s' := by
  intro key sess hs
  rw [hreg]
  exact h key sess (hsub key sess hs)

theorem closeSession_sub (sess₀ : Session) :
    (s.closeSession sess₀).registrations = s.registrations ∧
      ∀ key sess, (s.closeSession sess₀).sessions.lookup key = some sess →
        s.sessions.lookup key = some sess := by
  unfold Shared.closeSession
  split
  · exact ⟨rfl, fun key sess h => GoMap.lookup_of_erase h⟩
  · exact ⟨rfl, fun _ _ h => h⟩

theorem Backed.closeSession (h : Backed s) (sess : Session) : Backed (s.closeSession sess) :=
  h.of_sublist (closeSession_sub sess).1 (closeSession_sub sess).2

/-- What is left after the sessions of a player are closed. -/
theorem lookup_closeSessionsForUUID (uuid : UUID) (key : GoString) (sess : Session) :
    (s.closeSessionsForUUID uuid).2.sessions.lookup key = some sess ↔
      s.sessions.lookup key = some sess ∧ sess.playerUUID ≠ uuid := by
  simp [Shared.closeSessionsForUUID, Option.filter_eq_some_iff]

/-- Replacing or removing the registration of a player whose sessions are
closed next. -/
theorem Backed.closeSessionsForUUID {uuid : UUID} (h : Backed s)
    (hsess : s'.sessions = s.sessions)
    (hreg : ∀ u, u ≠ uuid → s'.registrations.lookup u = s.registrations.lookup u) :
    Backed (s'.closeSessionsForUUID uuid).2 := by
  intro key sess hs
  obtain ⟨hs, hne⟩ := (lookup_closeSessionsForUUID uuid key sess).mp hs
  rw [hsess] at hs
  obtain ⟨reg, hreg', hcarries⟩ := h key sess hs
  exact ⟨reg, (hreg sess.playerUUID hne).trans hreg', hcarries⟩

/-- A new session of a registration that is in the table. -/
theorem Backed.insertSession (h : Backed s) {sess : Session} {reg : Registration}
    (hreg : s.registrations.lookup sess.playerUUID = some reg) (hcarries : sess.carries reg) :
    Backed (s.insertSession r sess).2 := by
  unfold Shared.insertSession
  split
  · exact h
  split
  · exact h
  split
  · exact h
  intro key sess' hs
  by_cases hk : key = sess.key
  · subst hk
    simp only [AList.lookup_insert, Option.some.injEq] at hs
    exact ⟨reg, hs ▸ hreg, hs ▸ hcarries⟩
  · simp only [AList.lookup_insert_ne hk] at hs
    exact h key sess' hs

/-- A lookup that finds the registration leaves everything as it is. -/
theorem lookupRegistration_ok {now : ℤ} {uuid : UUID} {reg : Registration}
    (h : s.lookupRegistration now uuid = (.ok reg, s')) :
    s' = s ∧ s.registrations.lookup uuid = some reg ∧ ¬ reg.expiresAt < now := by
  unfold Shared.lookupRegistration at h
  split at h
  · cases h
  rename_i reg' hreg
  split at h
  · cases h
  rename_i hnow
  simp only [Prod.mk.injEq, Except.ok.injEq] at h
  obtain ⟨rfl, rfl⟩ := h
  exact ⟨rfl, hreg, hnow⟩

/-- A lookup that fails removes at most an expired registration. -/
theorem lookupRegistration_error {now : ℤ} {uuid : UUID} {err : Err}
    (h : s.lookupRegistration now uuid = (.error err, s')) :
    s' = s ∨ ∃ reg, s.registrations.lookup uuid = some reg ∧ reg.expiresAt < now ∧
      s' = { s with registrations := s.registrations.erase uuid } := by
  unfold Shared.lookupRegistration at h
  split at h
  · simp only [Prod.mk.injEq] at h
    exact Or.inl h.2.symm
  rename_i reg hreg
  split at h
  · rename_i hnow
    simp only [Prod.mk.injEq] at h
    exact Or.inr ⟨reg, hreg, hnow, h.2.symm⟩
  · cases h

end Sections

/-! ## One operation -/

section Operations

variable {r : Runtime} {s : State}

@[simp] theorem shared_closeSocket (sess : Session) : (s.closeSocket sess).shared = s.shared := rfl

@[simp] theorem shared_touch (sess : Session) : (s.touch sess).shared = s.shared := rfl

@[simp] theorem shared_closeSession (sess : Session) :
    (s.closeSession sess).shared = s.shared.closeSession sess := rfl

theorem shared_foldl_closeSocket (sessions : List Session) : ∀ s : State,
    (sessions.foldl State.closeSocket s).shared = s.shared := by
  induction sessions with
  | nil => intro s; rfl
  | cons sess sessions ih => intro s; exact ih _

@[simp] theorem shared_closeSessionsForUUID (uuid : UUID) :
    (s.closeSessionsForUUID uuid).shared = (s.shared.closeSessionsForUUID uuid).2 :=
  shared_foldl_closeSocket _ _

/-- Closing the sessions of several players. -/
theorem foldl_closeSessionsForUUID (uuids : List UUID) : ∀ s : State,
    (uuids.foldl State.closeSessionsForUUID s).shared.registrations = s.shared.registrations ∧
      ∀ key sess, (uuids.foldl State.closeSessionsForUUID s).shared.sessions.lookup key = some sess →
        s.shared.sessions.lookup key = some sess ∧ sess.playerUUID ∉ uuids := by
  induction uuids with
  | nil =>
    intro s
    exact ⟨rfl, fun key sess h => ⟨h, by simp⟩⟩
  | cons uuid uuids ih =>
    intro s
    obtain ⟨hreg, hsess⟩ := ih (s.closeSessionsForUUID uuid)
    refine ⟨hreg.trans (by rw [shared_closeSessionsForUUID]; rfl), fun key sess h => ?_⟩
    obtain ⟨h, hnot⟩ := hsess key sess h
    rw [shared_closeSessionsForUUID, lookup_closeSessionsForUUID] at h
    exact ⟨h.1, by simp [h.2, hnot]⟩

/-- **The sweep closes the sessions of every registration it removes.** -/
theorem sweep_backed (h : Backed s.shared) : Backed (s.sweep r).shared := by
  have hidle : ∀ (sessions : List Session) (s : State), Backed s.shared →
      Backed (sessions.foldl (fun s sess =>
        if r.cfg.idleTimeout ≤ s.now - s.lastActivity sess.id then s.closeSession sess else s)
          s).shared := by
    intro sessions
    induction sessions with
    | nil => intro s h; exact h
    | cons sess sessions ih =>
      intro s h
      refine ih _ ?_
      dsimp only
      split
      · exact h.closeSession sess
      · exact h
  refine hidle _ _ ?_
  intro key sess hs
  obtain ⟨hreg, hsess⟩ := foldl_closeSessionsForUUID (s.shared.expireRegistrations s.now).1
    { s with shared := (s.shared.expireRegistrations s.now).2 }
  obtain ⟨hs, hnot⟩ := hsess key sess hs
  obtain ⟨reg, hlookup, hcarries⟩ := h key sess hs
  refine ⟨reg, ?_, hcarries⟩
  rw [hreg]
  -- a registration that was removed is one whose player is on the list
  have hlive : ¬ reg.expiresAt < s.now := by
    intro hexpired
    refine hnot (List.mem_map.mpr ⟨⟨sess.playerUUID, reg⟩, ?_, rfl⟩)
    exact List.mem_filter.mpr ⟨GoMap.mem_entries.mpr hlookup, by simpa using hexpired⟩
  simpa [Shared.expireRegistrations, hlookup] using hlive

/-- A `PUT` closes the sessions of a registration it replaces. -/
theorem handlePutRegistration_backed (h : Backed s.shared) (backendID : GoString) (uuid : UUID)
    (ownerID : GoString) (leaseID : Option GoString) :
    Backed (s.handlePutRegistration r backendID uuid ownerID leaseID).shared := by
  unfold State.handlePutRegistration
  cases leaseID with
  | none => exact h
  | some leaseID =>
    cases hclosed : s.shared.closed with
    | true => simpa [Shared.putRegistration, hclosed] using h
    | false =>
      cases hlookup : s.shared.registrations.lookup uuid with
      | some existing =>
        simp only [Shared.putRegistration, hclosed, hlookup, Bool.false_eq_true, if_false,
          shared_closeSessionsForUUID]
        refine h.closeSessionsForUUID rfl fun u hu => ?_
        exact AList.lookup_insert_ne hu
      | none =>
        simp only [Shared.putRegistration, hclosed, hlookup, Bool.false_eq_true, if_false]
        split_ifs
        · exact h
        · -- the player had no registration, so none of the sessions is theirs
          intro key sess hs
          obtain ⟨reg, hreg, hcarries⟩ := h key sess hs
          have hne : sess.playerUUID ≠ uuid := by
            rintro rfl
            rw [hlookup] at hreg
            cases hreg
          exact ⟨reg, (AList.lookup_insert_ne hne).trans hreg, hcarries⟩

/-- A refresh moves the deadline and nothing else. -/
theorem handleRefreshRegistration_backed (h : Backed s.shared) (backendID : GoString) (uuid : UUID)
    (ownerID leaseID : GoString) :
    Backed (s.handleRefreshRegistration r backendID uuid ownerID leaseID).shared := by
  unfold State.handleRefreshRegistration Shared.refreshRegistration
  cases hlookup : s.shared.registrations.lookup uuid with
  | none => exact h
  | some existing =>
    dsimp only
    split_ifs
    · intro key sess hs
      obtain ⟨reg, hreg, hcarries⟩ := h key sess hs
      by_cases hu : sess.playerUUID = uuid
      · subst hu
        obtain rfl := Option.some.inj (hlookup.symm.trans hreg)
        exact ⟨_, AList.lookup_insert s.shared.registrations, hcarries⟩
      · exact ⟨reg, (AList.lookup_insert_ne hu).trans hreg, hcarries⟩
    · exact h

/-- A `DELETE` closes the sessions of the registration it removes. -/
theorem handleDeleteRegistration_backed (h : Backed s.shared) (backendID : GoString) (uuid : UUID)
    (ownerID leaseID : GoString) :
    Backed (s.handleDeleteRegistration backendID uuid ownerID leaseID).shared := by
  unfold State.handleDeleteRegistration Shared.deleteRegistration
  cases hlookup : s.shared.registrations.lookup uuid with
  | none => exact h
  | some existing =>
    by_cases hheld : existing.heldBy backendID ownerID leaseID
    · simp only [hheld, if_true, shared_closeSessionsForUUID]
      refine h.closeSessionsForUUID rfl fun u hu => ?_
      exact AList.lookup_erase_ne hu
    · simpa [hheld] using h

theorem handle_backed (h : Backed s.shared) (req : HTTPRequest) (leaseID : Option GoString) :
    Backed (s.handle r req leaseID).shared := by
  unfold State.handle
  split
  · exact h
  · exact handlePutRegistration_backed h _ _ _ _
  · exact handleRefreshRegistration_backed h _ _ _ _
  · exact handleDeleteRegistration_backed h _ _ _ _

/-- A datagram leaves the sessions with their registrations, once the
lookup has found one. -/
theorem sessionFor_backed (h : Backed s.shared) {uuid : UUID} {reg : Registration}
    (hreg : s.shared.registrations.lookup uuid = some reg) (clientAddr : UDPAddr)
    (dialErr : Option Err) : Backed (s.sessionFor r uuid clientAddr reg dialErr).2.shared := by
  have hdial : ∀ s : State, Backed s.shared → s.shared.registrations.lookup uuid = some reg →
      Backed (s.dialSession r uuid clientAddr reg dialErr).2.shared := by
    intro s h hreg
    unfold State.dialSession
    split
    · exact h
    · exact h
    · have hins : Backed
          (s.shared.insertSession r (newSession s.made.length uuid clientAddr reg)).2 :=
        h.insertSession hreg ⟨rfl, rfl, rfl⟩
      dsimp only [State.touch]
      split
      · exact h
      · exact h
      · rename_i shared heq
        rwa [heq] at hins
  unfold State.sessionFor Shared.findSession
  cases hclosed : s.shared.closed with
  | true => simpa using h
  | false =>
    cases hlookup : s.shared.sessions.lookup (dynamicSessionKey uuid clientAddr) with
    | none => simpa using hdial s h hreg
    | some sess =>
      by_cases hcarries : sess.carries reg
      · simpa [hcarries] using h
      · simp only [hcarries, Bool.false_eq_true, if_false]
        exact hdial _ (h.of_sublist rfl fun key sess hs => GoMap.lookup_of_erase hs) hreg

theorem writeBackend_backed (h : Backed s.shared) (sess : Session) (payload : GoString)
    (writeErr : Option Err) : Backed (s.writeBackend sess payload writeErr).shared := by
  unfold State.writeBackend
  dsimp only
  split_ifs
  · exact h.closeSession sess
  · exact h

theorem readBackend_backed (h : Backed s.shared) (sess : Session) (datagram : GoString)
    (writeErr : Option Err) : Backed (s.readBackend r sess datagram writeErr).shared := by
  unfold State.readBackend
  split_ifs
  · exact h
  · exact h
  · split
    · split_ifs
      · exact h
      · exact h.closeSession sess
    · exact h

end Operations

/-! ## Runs -/

/-- No datagram comes in for a player whose registration is expired and who
has a session. -/
def LookupSafe (r : Runtime) (s : State) : Op → Prop
  | .datagram _ data _ _ =>
    match parseClientPacket data with
    | .error _ => True
    | .ok packet =>
      match s.shared.registrations.lookup packet.playerUUID with
      | none => True
      | some reg => data.length ≤ r.cfg.maxPacketSize → reg.expiresAt < s.now →
          ∀ sess ∈ s.shared.sessions.values, sess.playerUUID ≠ packet.playerUUID
  | _ => True

instance (r : Runtime) (s : State) (op : Op) : Decidable (LookupSafe r s op) := by
  cases op <;> unfold LookupSafe
  case datagram =>
    dsimp only
    split
    · infer_instance
    · split <;> infer_instance
  all_goals infer_instance

/-- **The step lemma.** A safe operation keeps every session with its
registration. -/
theorem run_backed {r : Runtime} {s : State} (h : Backed s.shared) {op : Op}
    (hsafe : LookupSafe r s op) : Backed (op.run r s).shared := by
  cases op with
  | tick d => exact h
  | request req leaseID => exact handle_backed h req leaseID
  | sweep => exact sweep_backed h
  | backendDatagram id data writeErr =>
    simp only [Op.run]
    split
    · exact h
    · exact readBackend_backed h _ _ _
  | close =>
    simp only [Op.run, State.close, shared_foldl_closeSocket]
    intro key sess hs
    simp [Shared.shutdown] at hs
  | datagram clientAddr data dialErr writeErr =>
    simp only [Op.run, State.serveUDP]
    split_ifs with hsize
    · exact h
    unfold State.forwardClientPacket
    split
    · exact h
    rename_i packet hparse
    split
    · rename_i err shared hlookup
      rcases lookupRegistration_error hlookup with rfl | ⟨reg, hreg, hexpired, rfl⟩
      · exact h
      · -- the registration goes, and by safety no session was left of it
        intro key sess hs
        obtain ⟨reg', hreg', hcarries⟩ := h key sess hs
        simp only [LookupSafe, hparse, hreg] at hsafe
        have hne := hsafe (by omega) hexpired sess (GoMap.mem_values.mpr ⟨key, hs⟩)
        exact ⟨reg', (AList.lookup_erase_ne hne).trans hreg', hcarries⟩
    · rename_i reg shared hlookup
      obtain ⟨rfl, hreg, -⟩ := lookupRegistration_ok hlookup
      have hsession := sessionFor_backed (r := r) h hreg clientAddr dialErr
      split
      · rename_i s' heq
        rwa [heq] at hsession
      · rename_i sess s' heq
        rw [heq] at hsession
        exact writeBackend_backed hsession _ _ _

/-- **An operation that is not safe leaves a session behind.** -/
theorem orphan_of_not_safe {r : Runtime} {s : State} {op : Op} (hsafe : ¬ LookupSafe r s op) :
    ¬ NoOrphan (op.run r s).shared := by
  cases op with
  | datagram clientAddr data dialErr writeErr =>
    simp only [LookupSafe] at hsafe
    split at hsafe
    · exact absurd trivial hsafe
    rename_i packet hparse
    split at hsafe
    · exact absurd trivial hsafe
    rename_i reg hreg
    push Not at hsafe
    obtain ⟨hsize, hexpired, sess, hsess, huuid⟩ := hsafe
    obtain ⟨key, hsess⟩ := GoMap.mem_values.mp hsess
    have hrun : (Op.run r s (.datagram clientAddr data dialErr writeErr)).shared =
        { s.shared with registrations := s.shared.registrations.erase packet.playerUUID } := by
      simp only [Op.run, State.serveUDP, if_neg (not_lt.mpr hsize), State.forwardClientPacket,
        hparse, Shared.lookupRegistration, hreg, hexpired, if_true]
    intro h
    refine h key sess (by rw [hrun]; exact hsess) ?_
    rw [hrun, huuid]
    exact AList.lookup_erase _ _
  | _ => exact absurd trivial hsafe

theorem no_orphan_from {r : Runtime} : ∀ (ops : List Op) (s₀ : State), Backed s₀.shared →
    ((∀ pre post s, ops = pre ++ post → System.run (opStep r) s₀ pre = some s → NoOrphan s.shared) ↔
      System.Meets (opStep r) (LookupSafe r) s₀ ops) := by
  intro ops
  induction ops with
  | nil =>
    intro s₀ h
    refine ⟨fun _ => trivial, fun _ pre post s happ hrun => ?_⟩
    obtain ⟨rfl, rfl⟩ := List.append_eq_nil_iff.mp happ.symm
    exact Option.some.inj hrun ▸ h.noOrphan
  | cons op ops ih =>
    intro s₀ h
    constructor
    · intro hall
      have hsafe : LookupSafe r s₀ op := by
        by_contra hsafe
        exact orphan_of_not_safe hsafe (hall [op] ops (op.run r s₀) rfl rfl)
      refine ⟨hsafe, fun s₁ hs₁ => ?_⟩
      obtain rfl := Option.some.inj hs₁
      refine (ih _ (run_backed h hsafe)).mp fun pre post s happ hrun => ?_
      exact hall (op :: pre) post s (by rw [happ]; rfl) hrun
    · rintro ⟨hsafe, hmeets⟩ pre post s happ hrun
      cases pre with
      | nil => exact Option.some.inj hrun ▸ h.noOrphan
      | cons op' pre =>
        obtain ⟨rfl, htail⟩ := List.cons.inj happ
        exact (ih _ (run_backed h hsafe)).mpr (hmeets _ rfl) pre post s htail hrun

/-- What is delivered to a client goes through a session in the table. -/
theorem lookup_of_delivered {r : Runtime} {s : State} {id : ℕ} {data : GoString}
    {writeErr : Option Err}
    (h : (Op.run r s (.backendDatagram id data writeErr)).toClient ≠ s.toClient) :
    ∃ sess, s.made.find? (fun sess => sess.id = id) = some sess ∧
      s.shared.sessions.lookup sess.key = some sess := by
  simp only [Op.run] at h
  split at h
  · exact absurd rfl h
  rename_i sess hsess
  refine ⟨sess, hsess, ?_⟩
  unfold State.readBackend at h
  split_ifs at h with h₁ h₂
  · exact absurd rfl h
  · exact absurd rfl h
  · simp only [Shared.sessionIsCurrent, Bool.not_and, Bool.not_not, Bool.or_eq_true, not_or,
      Bool.not_eq_true', decide_eq_false_iff_not, not_not] at h₂
    exact h₂.2

/-- **No session outlives its registration, exactly while lookups are
safe.** In a run whose operations are all safe, what is delivered to a
client comes through a session of its player's current registration. -/
theorem no_orphan_session_iff (r : Runtime) (start : ℤ) (ops : List Op) :
    ((∀ pre post s, ops = pre ++ post →
        System.run (opStep r) { now := start } pre = some s → NoOrphan s.shared) ↔
      System.Meets (opStep r) (LookupSafe r) { now := start } ops) ∧
    (System.Meets (opStep r) (LookupSafe r) { now := start } ops →
      ∀ s, System.run (opStep r) { now := start } ops = some s → ∀ id data writeErr,
        (Op.run r s (.backendDatagram id data writeErr)).toClient ≠ s.toClient →
        ∃ sess reg, s.made.find? (fun sess => sess.id = id) = some sess ∧
          s.shared.registrations.lookup sess.playerUUID = some reg ∧ sess.carries reg) := by
  have hstart : Backed ({ now := start } : State).shared := fun key sess hs => by cases hs
  refine ⟨no_orphan_from ops _ hstart, fun hmeets s hrun id data writeErr hdelivered => ?_⟩
  have hbacked : Backed s.shared := System.run_invariant (I := fun s => Backed s.shared)
    (fun s op s' h hsafe hs => Option.some.inj hs ▸ run_backed h hsafe) ops _ s hstart hmeets hrun
  obtain ⟨sess, hsess, hlookup⟩ := lookup_of_delivered hdelivered
  obtain ⟨reg, hreg, hcarries⟩ := hbacked sess.key sess hlookup
  exact ⟨sess, reg, hsess, hreg, hcarries⟩

/-! ## A packet that beats the sweep -/

/-- A player. -/
def alex : UUID := ⟨List.replicate 16 0xa1, rfl⟩

/-- Where the player sends from. -/
def alexAddr : UDPAddr := ⟨⟨[0, 0, 0, 0, 0, 0xFFFF, 0x0A00, 0x0001], rfl⟩, 40000, []⟩

/-- A packet of the player with a payload of one byte. -/
def alexPacket : GoString := magicByte :: (alex.bytes ++ [1, 7])

/-- A runtime with two backends. -/
def demoRuntime : Runtime where
  cfg :=
    { listen := go ":24454", registrationListen := go "127.0.0.1:9091", registrationTTL := 90,
      requestTimeout := 5, maxRegistrations := 10, idleTimeout := 60, backendDialTimeout := 5,
      maxSessions := 10, maxPacketSize := 2048,
      backends := List.toAList [⟨go "lobby", ⟨go "10.0.0.2:24454", go "lobby-token"⟩⟩,
        ⟨go "survival", ⟨go "10.0.0.3:24454", go "survival-token"⟩⟩] }
  backends := List.toAList
    [⟨go "lobby", ⟨go "lobby", ⟨⟨[0, 0, 0, 0, 0, 0xFFFF, 0x0A00, 0x0002], rfl⟩, 24454, []⟩⟩⟩,
      ⟨go "survival", ⟨go "survival", ⟨⟨[0, 0, 0, 0, 0, 0xFFFF, 0x0A00, 0x0003], rfl⟩, 24454, []⟩⟩⟩]
  tokens := [⟨go "lobby", go "lobby-token"⟩, ⟨go "survival", go "survival-token"⟩]

/-- A backend registers the player. -/
def registerAlex (token : GoString) : HTTPRequest where
  method := .put
  authorization := go "Bearer " ++ token
  path := go "/v1/voicechat/registrations/a1a1a1a1-a1a1-a1a1-a1a1-a1a1a1a1a1a1"
  body := some { ownerID := go "owner" }

/-- The player is registered, talks and is talked to; the registration
expires, and the next packet comes before the sweep. -/
def packetBeatsSweep : List Op :=
  [.request (registerAlex (go "lobby-token")) (some (go "lease-1")),
    .datagram alexAddr alexPacket none none, .tick 50, .backendDatagram 0 [8] none, .tick 41,
    .datagram alexAddr alexPacket none none]

/-- **The session is left behind.** The registration is gone and the session
is not; a datagram of its backend still reaches the client, also after the
next sweep. -/
theorem packet_beats_sweep :
    ∃ s, System.run (opStep demoRuntime) { now := 0 } packetBeatsSweep = some s ∧
      ¬ NoOrphan s.shared ∧
      s.shared.registrations.lookup alex = none ∧
      s.shared.sessions.values.map (·.playerUUID) = [alex] ∧
      ((Op.backendDatagram 0 [9] none).run demoRuntime
        (Op.sweep.run demoRuntime s)).toClient.map (·.2) = [[9], [8]] := by
  refine ⟨_, rfl, fun h => ?_, by decide +kernel, by decide +kernel, by decide +kernel⟩
  exact h (dynamicSessionKey alex alexAddr)
    (newSession 0 alex alexAddr ⟨alex, go "lobby", go "owner", go "lease-1", 1, 90⟩)
    (by decide +kernel) (by decide +kernel)

/-- A player who stays registered. -/
theorem no_orphan_session_registered :
    let ops : List Op := [.request (registerAlex (go "lobby-token")) (some (go "lease-1")),
      .datagram alexAddr alexPacket none none, .tick 80,
      .request (registerAlex (go "survival-token")) (some (go "lease-2")),
      .datagram alexAddr alexPacket none none, .tick 91, .sweep]
    System.Meets (opStep demoRuntime) (LookupSafe demoRuntime) { now := 0 } ops ∧
    ∀ pre post s, ops = pre ++ post →
      System.run (opStep demoRuntime) { now := 0 } pre = some s → NoOrphan s.shared := by
  intro ops
  have hmeets : System.Meets (opStep demoRuntime) (LookupSafe demoRuntime) { now := 0 } ops := by
    decide +kernel
  exact ⟨hmeets, (no_orphan_session_iff demoRuntime 0 ops).1.mpr hmeets⟩

end Voice

end McRouter
