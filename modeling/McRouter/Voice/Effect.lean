import McRouter.Voice.Machine

/-!
# What a step of the voice goroutines can do

One statement for every step of `Machine.lean`, whichever goroutine takes
it (`step_effect`). Invariants that are about the tables, the UDP loop and
the readers are read off it, so that the pieces of the goroutines are gone
through here and not for each invariant again.
-/

namespace McRouter

namespace Voice

open Net

/-! ## What the critical sections do -/

section Sections

variable {r : Runtime} {s s' : Shared}

/-- What the first section of `sessionFor` finds. -/
theorem findSession_cases {key : GoString} {reg : Registration} {found : Shared.Found}
    (h : s.findSession key reg = (found, s')) :
    (found = .closed ∧ s' = s) ∨ (found = .absent ∧ s' = s ∧ s.sessions.lookup key = none) ∨
      (∃ sess, found = .current sess ∧ s' = s ∧ s.sessions.lookup key = some sess ∧
        sess.carries reg) ∨
      ∃ sess, found = .replaced sess ∧ s' = { s with sessions := s.sessions.erase key } := by
  unfold Shared.findSession at h
  cases hclosed : s.closed with
  | true =>
    simp only [hclosed, if_true, Prod.mk.injEq] at h
    exact Or.inl ⟨h.1.symm, h.2.symm⟩
  | false =>
    cases hlookup : s.sessions.lookup key with
    | none =>
      simp only [hclosed, hlookup, Bool.false_eq_true, if_false, Prod.mk.injEq] at h
      exact Or.inr (Or.inl ⟨h.1.symm, h.2.symm, rfl⟩)
    | some sess =>
      by_cases hcarries : sess.carries reg
      · simp only [hclosed, hlookup, hcarries, Bool.false_eq_true, if_false, if_true,
          Prod.mk.injEq] at h
        exact Or.inr (Or.inr (Or.inl ⟨sess, h.1.symm, h.2.symm, rfl, hcarries⟩))
      · simp only [hclosed, hlookup, hcarries, Bool.false_eq_true, if_false, Prod.mk.injEq] at h
        exact Or.inr (Or.inr (Or.inr ⟨sess, h.1.symm, h.2.symm⟩))

/-- What the last section of `sessionFor` does. -/
theorem insertSession_cases {sess : Session} {out : Shared.Inserted}
    (h : s.insertSession r sess = (out, s')) :
    (∃ err, out = .failed err) ∨
      (∃ existing, out = .existing existing ∧ s.sessions.lookup sess.key = some existing) ∨
      (out = .created ∧ s.sessions.lookup sess.key = none ∧
        s' = { s with sessions := s.sessions.insert sess.key sess }) := by
  unfold Shared.insertSession at h
  cases hclosed : s.closed with
  | true =>
    simp only [hclosed, if_true, Prod.mk.injEq] at h
    exact Or.inl ⟨_, h.1.symm⟩
  | false =>
    cases hlookup : s.sessions.lookup sess.key with
    | some existing =>
      simp only [hclosed, hlookup, Bool.false_eq_true, if_false, Prod.mk.injEq] at h
      exact Or.inr (Or.inl ⟨existing, h.1.symm, rfl⟩)
    | none =>
      simp only [hclosed, hlookup, Bool.false_eq_true, if_false] at h
      split at h
      · exact Or.inl ⟨_, (congrArg Prod.fst h).symm⟩
      · exact Or.inr (Or.inr ⟨(congrArg Prod.fst h).symm, rfl, (congrArg Prod.snd h).symm⟩)

/-- The generation of a registration that is stored. -/
def nextGeneration : Option Registration → UInt64
  | none => 1
  | some old => old.generation + 1

/-- What a `PUT` does to the table. -/
theorem putRegistration_cases {reg : Registration} {out : Shared.Put}
    (h : s.putRegistration r reg = (out, s')) :
    ((out = .closed ∨ out = .limit) ∧ s' = s) ∨
      ∃ stored replaced, out = .stored stored replaced ∧
        s.registrations.lookup reg.playerUUID = replaced ∧
        stored = { reg with generation := nextGeneration replaced } ∧
        s' = { s with registrations := s.registrations.insert reg.playerUUID stored } := by
  unfold Shared.putRegistration at h
  cases hclosed : s.closed with
  | true =>
    simp only [hclosed, if_true, Prod.mk.injEq] at h
    exact Or.inl ⟨Or.inl h.1.symm, h.2.symm⟩
  | false =>
    cases hlookup : s.registrations.lookup reg.playerUUID with
    | some existing =>
      simp only [hclosed, hlookup, Bool.false_eq_true, if_false, Prod.mk.injEq] at h
      exact Or.inr ⟨_, _, h.1.symm, rfl, rfl, h.2.symm⟩
    | none =>
      simp only [hclosed, hlookup, Bool.false_eq_true, if_false] at h
      split at h
      · exact Or.inl ⟨Or.inr (congrArg Prod.fst h).symm, (congrArg Prod.snd h).symm⟩
      · exact Or.inr ⟨_, _, (congrArg Prod.fst h).symm, rfl, rfl, (congrArg Prod.snd h).symm⟩

/-- What a refresh does to the table. -/
theorem refreshRegistration_cases {now : ℤ} {uuid : UUID}
    {backendID ownerID leaseID : GoString} {out : Option Registration}
    (h : s.refreshRegistration r now uuid backendID ownerID leaseID = (out, s')) :
    (out = none ∧ s' = s ∧
        ∀ reg, s.registrations.lookup uuid = some reg → ¬ reg.heldBy backendID ownerID leaseID) ∨
      ∃ reg, out = some { reg with expiresAt := now + r.cfg.registrationTTL } ∧
        s.registrations.lookup uuid = some reg ∧ reg.heldBy backendID ownerID leaseID ∧
        s' = { s with registrations := s.registrations.insert uuid
                        { reg with expiresAt := now + r.cfg.registrationTTL } } := by
  unfold Shared.refreshRegistration at h
  cases hlookup : s.registrations.lookup uuid with
  | none =>
    simp only [hlookup, Prod.mk.injEq] at h
    exact Or.inl ⟨h.1.symm, h.2.symm, nofun⟩
  | some reg =>
    by_cases hheld : reg.heldBy backendID ownerID leaseID
    · simp only [hlookup, hheld, if_true, Prod.mk.injEq] at h
      exact Or.inr ⟨reg, h.1.symm, rfl, hheld, h.2.symm⟩
    · simp only [hlookup, hheld, if_false, Prod.mk.injEq] at h
      exact Or.inl ⟨h.1.symm, h.2.symm, fun reg' h => Option.some.inj h ▸ hheld⟩

/-- What a `DELETE` does to the table. -/
theorem deleteRegistration_cases {uuid : UUID}
    {backendID ownerID leaseID : GoString} {out : Bool}
    (h : s.deleteRegistration uuid backendID ownerID leaseID = (out, s')) :
    (out = false ∧ s' = s ∧
        ∀ reg, s.registrations.lookup uuid = some reg → ¬ reg.heldBy backendID ownerID leaseID) ∨
      ∃ reg, out = true ∧ s.registrations.lookup uuid = some reg ∧
        reg.heldBy backendID ownerID leaseID ∧
        s' = { s with registrations := s.registrations.erase uuid } := by
  unfold Shared.deleteRegistration at h
  cases hlookup : s.registrations.lookup uuid with
  | none =>
    simp only [hlookup, Prod.mk.injEq] at h
    exact Or.inl ⟨h.1.symm, h.2.symm, nofun⟩
  | some reg =>
    by_cases hheld : reg.heldBy backendID ownerID leaseID
    · simp only [hlookup, hheld, if_true, Prod.mk.injEq] at h
      exact Or.inr ⟨reg, h.1.symm, rfl, hheld, h.2.symm⟩
    · simp only [hlookup, hheld, if_false, Prod.mk.injEq] at h
      exact Or.inl ⟨h.1.symm, h.2.symm, fun reg' h => Option.some.inj h ▸ hheld⟩

/-- What an entry says has become of the registrations. This is the purpose
of the registration table: a `PUT` sets the player's registration, a refresh
by its holder moves its deadline, and only a `DELETE` by its holder, the
deadline or `Close` takes it away. -/
def Entry.applyTo (e : Entry) (table : UUID → Option Registration) (uuid : UUID) :
    Option Registration :=
  match e with
  | .stored _ reg _ => if uuid = reg.playerUUID then some reg else table uuid
  | .refreshed u backendID ownerID leaseID expiresAt =>
    if uuid = u then
      (table uuid).map fun reg =>
        if reg.heldBy backendID ownerID leaseID then { reg with expiresAt } else reg
    else table uuid
  | .deleted u backendID ownerID leaseID =>
    if uuid = u then (table uuid).filter fun reg => ¬ reg.heldBy backendID ownerID leaseID
    else table uuid
  | .looked u now _ =>
    if uuid = u then (table uuid).filter fun reg => ¬ reg.expiresAt < now else table uuid
  | .swept now => (table uuid).filter fun reg => ¬ reg.expiresAt < now
  | .closed => none
  | _ => table uuid

/-- `lookupRegistration` removes what it finds expired. -/
theorem lookupRegistration_applyTo (s : Shared) (now : ℤ) (u : UUID) (found : Option Registration)
    (uuid : UUID) : (s.lookupRegistration now u).2.registrations.lookup uuid =
      (Entry.looked u now found).applyTo (fun u => s.registrations.lookup u) uuid := by
  simp only [Shared.lookupRegistration, Entry.applyTo]
  cases hlookup : s.registrations.lookup u with
  | none =>
    split_ifs with hu
    · subst hu
      simp [hlookup]
    · rfl
  | some reg =>
    by_cases hexpired : reg.expiresAt < now
    · simp only [hexpired, if_true, GoMap.lookup_erase]
      split_ifs with hu
      · subst hu
        simp [hlookup, Option.filter, hexpired]
      · rfl
    · simp only [hexpired, if_false]
      split_ifs with hu
      · subst hu
        simp [hlookup, Option.filter, hexpired]
      · rfl

end Sections

/-! ## Requests -/

section Requests

variable {r : Runtime} {ids : LeaseIDs} {a : Action} {w w' : World}

/-- A request that times out. -/
theorem timeout_eq {i : ℕ} (h : w.timeout i = some w') :
    ∃ q, w.requests[i]? = some q ∧ i ∉ w.timedOut ∧ w' =
      { w with
        timedOut := i :: w.timedOut
        log := match q.replacing with
          | none => w.log
          | some (uuid, older) => .answered uuid older :: w.log } := by
  unfold World.timeout at h
  split at h
  · cases h
  · cases h
  · rename_i q _ hq
    split_ifs at h with hi
    exact ⟨q, hq, hi, (Option.some.inj h).symm⟩

/-- Requests and the sweeper are moved by nobody else, and nothing else
times out. -/
theorem workers_of_other (h : step r ids w a = some w') (hrequest : ∀ req, a ≠ .request req)
    (hhandler : ∀ i, a ≠ .handler i) (hsweeper : a ≠ .sweeper) (htimeout : ∀ i, a ≠ .timeout i) :
    w'.requests = w.requests ∧ w'.sweeper = w.sweeper ∧ w'.timedOut = w.timedOut := by
  cases a with
  | tick d => exact Option.some.inj h ▸ ⟨rfl, rfl, rfl⟩
  | request req => exact absurd rfl (hrequest req)
  | handler i => exact absurd rfl (hhandler i)
  | sweeper => exact absurd rfl hsweeper
  | receive clientAddr data =>
    simp only [step, World.receive] at h
    split_ifs at h
    · exact Option.some.inj h ▸ ⟨rfl, rfl, rfl⟩
    · split at h <;> exact Option.some.inj h ▸ ⟨rfl, rfl, rfl⟩
  | udp fails =>
    simp only [step, World.udpStep] at h
    split at h
    · cases h
    all_goals obtain rfl := Option.some.inj h
    case h_7 =>
      unfold World.udpInsert
      split <;> exact ⟨rfl, rfl, rfl⟩
    case h_6 =>
      unfold World.udpDial
      split_ifs <;> exact ⟨rfl, rfl, rfl⟩
    case h_8 =>
      simp only [World.udpWrite]
      split_ifs <;> exact ⟨rfl, rfl, rfl⟩
    all_goals exact ⟨rfl, rfl, rfl⟩
  | backendRead i result =>
    simp only [step, World.backendRead] at h
    split at h
    · split_ifs at h <;> exact Option.some.inj h ▸ ⟨rfl, rfl, rfl⟩
    · split_ifs at h <;> exact Option.some.inj h ▸ ⟨rfl, rfl, rfl⟩
    · cases h
  | reader i fails =>
    simp only [step, World.readerStep] at h
    split at h
    · split_ifs at h <;> exact Option.some.inj h ▸ ⟨rfl, rfl, rfl⟩
    · split_ifs at h <;> exact Option.some.inj h ▸ ⟨rfl, rfl, rfl⟩
    · exact Option.some.inj h ▸ ⟨rfl, rfl, rfl⟩
    · exact Option.some.inj h ▸ ⟨rfl, rfl, rfl⟩
    · cases h
  | timeout i => exact absurd rfl (htimeout i)
  | close =>
    simp only [step, World.closerStep] at h
    split at h
    · exact Option.some.inj h ▸ ⟨rfl, rfl, rfl⟩
    · exact Option.some.inj h ▸ ⟨rfl, rfl, rfl⟩
    · exact Option.some.inj h ▸ ⟨rfl, rfl, rfl⟩
    · cases h

theorem requests_sweeperStep :
    (w.sweeperStep r).requests = w.requests ∧ (w.sweeperStep r).timedOut = w.timedOut := by
  unfold World.sweeperStep
  split <;> exact ⟨rfl, rfl⟩

/-- A request leaves the sweeper where it is, and what has timed out. -/
theorem sweeper_handlerStep {i : ℕ} (h : w.handlerStep r i = some w') :
    w'.sweeper = w.sweeper ∧ w'.timedOut = w.timedOut := by
  unfold World.handlerStep at h
  split at h
  · obtain rfl := Option.some.inj h
    unfold World.handlerPut
    split <;> exact ⟨rfl, rfl⟩
  · exact Option.some.inj h ▸ ⟨rfl, rfl⟩
  · exact Option.some.inj h ▸ ⟨rfl, rfl⟩
  · exact Option.some.inj h ▸ ⟨rfl, rfl⟩
  · exact Option.some.inj h ▸ ⟨rfl, rfl⟩
  · exact Option.some.inj h ▸ ⟨rfl, rfl⟩
  · cases h

/-- **What a step does to the requests**: nothing, one comes in, or one
moves. -/
theorem requests_of_step (h : step r ids w a = some w') :
    w'.requests = w.requests ∨
      (∃ req, a = .request req ∧ w'.requests = w.requests ++ [w.accept r ids req]) ∨
      ∃ i, a = .handler i ∧ w.handlerStep r i = some w' := by
  cases a with
  | request req => exact Or.inr (Or.inl ⟨req, rfl, Option.some.inj h ▸ rfl⟩)
  | handler i => exact Or.inr (Or.inr ⟨i, rfl, h⟩)
  | sweeper => exact Or.inl (Option.some.inj h ▸ requests_sweeperStep.1)
  | timeout i =>
    obtain ⟨q, -, -, rfl⟩ := timeout_eq h
    exact Or.inl rfl
  | _ => exact Or.inl (workers_of_other h (by nofun) (by nofun) (by nofun) (by nofun)).1

/-- What a step does to the sweeper. -/
theorem sweeper_of_step (h : step r ids w a = some w') :
    w'.sweeper = w.sweeper ∨ (a = .sweeper ∧ w' = w.sweeperStep r) := by
  cases a with
  | request req => exact Or.inl (Option.some.inj h ▸ rfl)
  | handler i => exact Or.inl (sweeper_handlerStep h).1
  | sweeper => exact Or.inr ⟨rfl, (Option.some.inj h).symm⟩
  | timeout i =>
    obtain ⟨q, -, -, rfl⟩ := timeout_eq h
    exact Or.inl rfl
  | _ => exact Or.inl (workers_of_other h (by nofun) (by nofun) (by nofun) (by nofun)).2.1

/-- **A request times out** in the step that says so. -/
theorem timedOut_of_step (h : step r ids w a = some w') {i : ℕ} (hi : i ∈ w'.timedOut) :
    i ∈ w.timedOut ∨ a = .timeout i := by
  cases a with
  | timeout j =>
    obtain ⟨q, -, -, rfl⟩ := timeout_eq h
    rcases List.mem_cons.mp hi with rfl | hi
    · exact Or.inr rfl
    · exact Or.inl hi
  | request req =>
    obtain rfl := Option.some.inj h
    exact Or.inl hi
  | handler j => exact Or.inl ((sweeper_handlerStep h).2 ▸ hi)
  | sweeper =>
    obtain rfl := Option.some.inj h
    exact Or.inl (requests_sweeperStep.2 ▸ hi)
  | _ =>
    exact Or.inl ((workers_of_other h (by nofun) (by nofun) (by nofun) (by nofun)).2.2 ▸ hi)

/-- What a piece of a request does to the request. -/
theorem handlerStep_cases {i : ℕ} (h : w.handlerStep r i = some w') :
    ∃ q, w'.requests = w.requests.set i q ∧
      ((∃ status, q = .answered status) ∨
        (∃ uuid, q = .closing uuid 204 none ∧ w'.shared.registrations.lookup uuid = none) ∨
        (∃ authorization reg₀ reg old, w.requests[i]? = some (.put authorization reg₀) ∧
          q = .closing reg.playerUUID 200 (some (leasesOf reg.playerUUID w.log)) ∧
          reg.leaseID = reg₀.leaseID ∧ w'.log = .stored authorization reg (some old) :: w.log) ∨
        (∃ uuid status older, w.requests[i]? = some (.closing uuid status older) ∧
          q = .sockets (w.shared.closeSessionsForUUID uuid).1 uuid status older ∧
          w' = { w.setRequest i q with shared := (w.shared.closeSessionsForUUID uuid).2 }) ∨
        ∃ sess sessions uuid status older,
          w.requests[i]? = some (.sockets (sess :: sessions) uuid status older) ∧
          q = .sockets sessions uuid status older) := by
  unfold World.handlerStep at h
  split at h
  · rename_i authorization reg hput
    obtain rfl := Option.some.inj h
    unfold World.handlerPut
    rcases hout : w.shared.putRegistration r reg with ⟨out, shared⟩
    rcases putRegistration_cases hout with ⟨rfl | rfl, -⟩ | ⟨stored, _ | old, rfl, -, rfl, rfl⟩
    · exact ⟨_, rfl, Or.inl ⟨_, rfl⟩⟩
    · exact ⟨_, rfl, Or.inl ⟨_, rfl⟩⟩
    · exact ⟨_, rfl, Or.inl ⟨_, rfl⟩⟩
    · exact ⟨_, rfl, Or.inr (Or.inr (Or.inl ⟨authorization, reg, _, old, hput, rfl, rfl, rfl⟩))⟩
  · exact Option.some.inj h ▸ ⟨_, rfl, Or.inl ⟨_, rfl⟩⟩
  · rename_i uuid backendID ownerID leaseID _
    obtain rfl := Option.some.inj h
    unfold World.handlerDelete
    rcases hout : w.shared.deleteRegistration uuid backendID ownerID leaseID with ⟨out, shared⟩
    rcases deleteRegistration_cases hout with ⟨rfl, -, -⟩ | ⟨_, rfl, -, -, rfl⟩
    · exact ⟨_, rfl, Or.inl ⟨_, rfl⟩⟩
    · exact ⟨_, rfl, Or.inr (Or.inl ⟨_, rfl, AList.lookup_erase _ _⟩)⟩
  · rename_i uuid status older hclosing
    obtain rfl := Option.some.inj h
    exact ⟨_, rfl, Or.inr (Or.inr (Or.inr (Or.inl ⟨uuid, status, older, hclosing, rfl, rfl⟩)))⟩
  · rename_i sess sessions uuid status older hsockets
    obtain rfl := Option.some.inj h
    exact ⟨_, rfl, Or.inr (Or.inr (Or.inr (Or.inr ⟨sess, sessions, uuid, status, older, hsockets,
      rfl⟩)))⟩
  · exact Option.some.inj h ▸ ⟨_, rfl, Or.inl ⟨_, rfl⟩⟩
  · cases h

/-- A piece of a request moves that request, and never back to its start. -/
theorem handlerStep_requests {i : ℕ} (h : w.handlerStep r i = some w') :
    ∃ q, w'.requests = w.requests.set i q ∧ ∀ authorization reg, q ≠ .put authorization reg := by
  obtain ⟨q, hq, ⟨_, rfl⟩ | ⟨_, rfl, _⟩ | ⟨_, _, _, _, _, rfl, _⟩ | ⟨_, _, _, _, rfl, _⟩ |
    ⟨_, _, _, _, _, _, rfl⟩⟩ := handlerStep_cases h
  all_goals exact ⟨_, hq, nofun⟩

/-- **A `PUT` that waits for its section** waited before or has just come
in. -/
theorem put_of_step (h : step r ids w a = some w') {i : ℕ} {authorization : GoString}
    {reg : Registration} (hput : w'.requests[i]? = some (.put authorization reg)) :
    w.requests[i]? = some (.put authorization reg) ∨
      (i = w.requests.length ∧ ∃ req, w.accept r ids req = .put authorization reg) := by
  rcases requests_of_step h with hsame | ⟨req, -, hreq⟩ | ⟨j, -, hj⟩
  · exact Or.inl (hsame ▸ hput)
  · rw [hreq] at hput
    rcases System.getElem?_concat_cases hput with hput | ⟨hi, hput⟩
    · exact Or.inl hput
    · exact Or.inr ⟨hi, req, hput.symm⟩
  · obtain ⟨q, hq, hnot⟩ := handlerStep_requests hj
    rw [hq] at hput
    rcases System.getElem?_set_cases hput with ⟨-, hput⟩ | ⟨-, hput⟩
    · exact absurd hput.symm (hnot authorization reg)
    · exact Or.inl hput

/-- What a `PUT` that has come in carries. -/
theorem accept_put {req : HTTPRequest} {authorization : GoString} {reg : Registration}
    (h : w.accept r ids req = .put authorization reg) :
    authorization = req.authorization ∧ ids.newLeaseID w.requests.length = some reg.leaseID ∧
      ∃ ownerID, r.handleRegistration req = .ok (reg.backendID, .put reg.playerUUID ownerID) := by
  unfold World.accept at h
  split at h
  · cases h
  · rename_i backendID uuid ownerID hreq
    split at h
    · cases h
    · rename_i leaseID hlease
      cases h
      exact ⟨rfl, hlease, ownerID, hreq⟩
  · cases h
  · cases h

/-- A request that has come in has not run its section. -/
theorem accept_start (req : HTTPRequest) :
    (∀ uuid status older, w.accept r ids req ≠ .closing uuid status older) ∧
      ∀ sessions uuid status older, w.accept r ids req ≠ .sockets sessions uuid status older := by
  unfold World.accept
  split
  · exact ⟨nofun, nofun⟩
  · split
    · exact ⟨nofun, nofun⟩
    · exact ⟨nofun, nofun⟩
  · exact ⟨nofun, nofun⟩
  · exact ⟨nofun, nofun⟩

end Requests

/-! ## What a step can do -/

/-- The player and the lease of the registration the UDP loop has looked up
and not yet made into a session of the table. -/
def Udp.pending : Udp → Option (UUID × GoString)
  | .finding d reg | .closingOld d reg _ | .limiting d reg | .dialing d reg =>
    some (d.uuid, reg.leaseID)
  | .inserting _ _ sess => some (sess.playerUUID, sess.leaseID)
  | _ => none

/-- The UDP loop is about to write to a backend. -/
def Udp.isWriting : Udp → Bool
  | .writing _ _ _ => true
  | _ => false

/-- The reader is about to write to its client. -/
def Reader.isWriting : Reader → Bool
  | .writing _ _ => true
  | _ => false

/-- The state in which a step writes an entry to the log. -/
def Entry.WrittenIn (a : Action) (w : World) : Entry → Prop
  | .received _ _ => w.udp = .idle
  | .looked uuid now found =>
    w.shared.registrations.lookup uuid = found ∧ ∃ d, w.udp = .looking d now ∧ d.uuid = uuid
  | .inserted sess => ∃ d reg, w.udp = .inserting d reg sess
  | .wroteBackend sess payload =>
    sess.id ∉ w.closedSockets ∧ ∃ d reg, w.udp = .writing d reg sess ∧ d.payload = payload
  | .wroteClient sess payload => .writing sess payload ∈ w.readers
  | .stored authorization reg replaced =>
    w.shared.registrations.lookup reg.playerUUID = replaced ∧
      ∃ (i : ℕ) (reg₀ : Registration), a = .handler i ∧
        w.requests[i]? = some (.put authorization reg₀) ∧
        reg = { reg₀ with generation := nextGeneration replaced }
  | .refreshed uuid backendID ownerID leaseID _ =>
    ∃ i : ℕ, a = .handler i ∧ w.requests[i]? = some (.refresh uuid backendID ownerID leaseID)
  | .answered uuid older =>
    (∃ (i status : ℕ), a = .handler i ∧
      w.requests[i]? = some (.sockets [] uuid status (some older))) ∨
    ∃ (i : ℕ) (q : Request), a = .timeout i ∧ w.requests[i]? = some q ∧
      q.replacing = some (uuid, older)
  | _ => True

/-- The entries that only the UDP loop writes, but for `inserted`. -/
def Entry.ofUdp : Entry → Bool
  | .received _ _ | .looked _ _ _ | .wroteBackend _ _ => true
  | _ => false

/-- The step is one of the UDP loop. -/
def Action.isUdp : Action → Bool
  | .receive _ _ | .udp _ => true
  | _ => false

/-- The step writes at most one entry, and the registrations are what the
entry makes of them. -/
def Logs (a : Action) (w w' : World) : Prop :=
  (w'.log = w.log ∧
    ∀ uuid, w'.shared.registrations.lookup uuid = w.shared.registrations.lookup uuid) ∨
  ∃ e : Entry, w'.log = e :: w.log ∧ e.WrittenIn a w ∧ (a.isUdp = true ∨ e.ofUdp = false) ∧
    ∀ uuid, w'.shared.registrations.lookup uuid =
      e.applyTo (fun u => w.shared.registrations.lookup u) uuid

/-- **What a step can do**, of the UDP loop or of another goroutine.
Sessions come into the table from the UDP loop only; the UDP loop takes up
what is in one of the tables, and a reader may write if its session is in
the table. What happens to the registrations is in the log. -/
structure Effect (a : Action) (w w' : World) : Prop where
  loop : a.isUdp = true ∨ w'.udp = w.udp
  now : w.now ≤ w'.now
  sessions : ∀ key sess, w'.shared.sessions.lookup key = some sess →
    w.shared.sessions.lookup key = some sess ∨
      (a.isUdp = true ∧ ∃ d reg, w.udp = .inserting d reg sess)
  pending : ∀ uuid leaseID, w'.udp.pending = some (uuid, leaseID) →
    w.udp.pending = some (uuid, leaseID) ∨
      ∃ reg, w.shared.registrations.lookup uuid = some reg ∧ reg.leaseID = leaseID
  writing : ∀ d reg sess, w'.udp = .writing d reg sess →
    w.udp = .writing d reg sess ∨ (∃ key, w.shared.sessions.lookup key = some sess) ∨
      w.udp.pending = some (sess.playerUUID, sess.leaseID)
  readers : ∀ sess payload, .writing sess payload ∈ w'.readers →
    .writing sess payload ∈ w.readers ∨ ∃ key, w.shared.sessions.lookup key = some sess
  sockets : ∀ id ∈ w.closedSockets, id ∈ w'.closedSockets
  log : Logs a w w'

section Effects

variable {r : Runtime} {ids : LeaseIDs} {a : Action} {w w' : World}

/-- What is known of an entry that a step has written. -/
theorem Logs.written (h : Logs a w w') {e : Entry} (he : w'.log = e :: w.log) :
    e.WrittenIn a w ∧ (a.isUdp = true ∨ e.ofUdp = false) ∧
      ∀ uuid, w'.shared.registrations.lookup uuid =
        e.applyTo (fun u => w.shared.registrations.lookup u) uuid := by
  rcases h with ⟨hlog, -⟩ | ⟨e', hlog, hwritten⟩
  · rw [hlog] at he
    exact absurd he.symm (List.cons_ne_self e w.log)
  · rw [hlog] at he
    exact (List.cons.inj he).1 ▸ hwritten

theorem pending_of_none {u : Udp} (h : u.pending = none) (uuid : UUID) (leaseID : GoString)
    (hpending : u.pending = some (uuid, leaseID)) :
    w.udp.pending = some (uuid, leaseID) ∨
      ∃ reg, w.shared.registrations.lookup uuid = some reg ∧ reg.leaseID = leaseID := by
  rw [h] at hpending
  cases hpending

theorem writing_of_not {u : Udp} (h : u.isWriting = false) (d : Datagram) (reg : Registration)
    (sess : Session) (hwriting : u = .writing d reg sess) :
    w.udp = .writing d reg sess ∨ (∃ key, w.shared.sessions.lookup key = some sess) ∨
      w.udp.pending = some (sess.playerUUID, sess.leaseID) := by
  rw [hwriting] at h
  cases h

/-- A step that touches neither the UDP loop nor the readers and only takes
out of the tables. -/
theorem Effect.of_shrinking (hnow : w.now ≤ w'.now)
    (hsessions : ∀ key sess, w'.shared.sessions.lookup key = some sess →
      w.shared.sessions.lookup key = some sess)
    (hudp : w'.udp = w.udp) (hreaders : w'.readers = w.readers)
    (hsockets : ∀ id ∈ w.closedSockets, id ∈ w'.closedSockets)
    (hlog : Logs a w w') :
    Effect a w w' where
  loop := Or.inr hudp
  now := hnow
  sessions key sess h := Or.inl (hsessions key sess h)
  pending _ _ h := Or.inl (hudp ▸ h)
  writing _ _ _ h := Or.inl (hudp ▸ h)
  readers _ _ h := Or.inl (hreaders ▸ h)
  sockets := hsockets
  log := hlog

/-- A step of the UDP loop that leaves the tables alone. -/
theorem Effect.of_udp (ha : a.isUdp = true) (hnow : w.now ≤ w'.now)
    (hshared : w'.shared = w.shared) (hreaders : w'.readers = w.readers)
    (hpending : w'.udp.pending = none ∨ w'.udp.pending = w.udp.pending)
    (hwriting : w'.udp.isWriting = false)
    (hsockets : ∀ id ∈ w.closedSockets, id ∈ w'.closedSockets)
    (hlog : Logs a w w') :
    Effect a w w' where
  loop := Or.inl ha
  now := hnow
  sessions _ _ h := Or.inl (hshared ▸ h)
  pending uuid leaseID h := by
    rcases hpending with hpending | hpending
    · exact pending_of_none hpending uuid leaseID h
    · exact Or.inl (hpending ▸ h)
  writing := writing_of_not hwriting
  readers _ _ h := Or.inl (hreaders ▸ h)
  sockets := hsockets
  log := hlog

/-- A reader that moves on, and may write only if its session is in the
table. -/
theorem Effect.of_reader {i : ℕ} {rd : Reader} (hnow : w.now ≤ w'.now)
    (hsessions : ∀ key sess, w'.shared.sessions.lookup key = some sess →
      w.shared.sessions.lookup key = some sess)
    (hudp : w'.udp = w.udp)
    (hreaders : w'.readers = w.readers.set i rd)
    (hrd : rd.isWriting = false ∨
      ∃ sess payload key, rd = .writing sess payload ∧ w.shared.sessions.lookup key = some sess)
    (hsockets : ∀ id ∈ w.closedSockets, id ∈ w'.closedSockets)
    (hlog : Logs a w w') :
    Effect a w w' where
  loop := Or.inr hudp
  now := hnow
  sessions key sess h := Or.inl (hsessions key sess h)
  pending _ _ h := Or.inl (hudp ▸ h)
  writing _ _ _ h := Or.inl (hudp ▸ h)
  readers sess payload h := by
    rw [hreaders] at h
    rcases List.mem_or_eq_of_mem_set h with h | rfl
    · exact Or.inl h
    · rcases hrd with hrd | ⟨sess', payload', key, heq, hsess⟩
      · cases hrd
      · cases heq
        exact Or.inr ⟨key, hsess⟩
  sockets := hsockets
  log := hlog

/-! ### The UDP loop -/

/-- The registration the UDP loop goes on with is in the table. -/
theorem udpLook_effect {fails : Bool} {d : Datagram} {now : ℤ} (hudp : w.udp = .looking d now) :
    Effect (.udp fails) w (w.udpLook d now) := by
  have hlog : Logs (.udp fails) w (w.udpLook d now) := Or.inr ⟨_, rfl, ⟨rfl, d, hudp, rfl⟩,
    Or.inl rfl, lookupRegistration_applyTo w.shared now d.uuid _⟩
  unfold World.udpLook at hlog ⊢
  rcases hout : w.shared.lookupRegistration now d.uuid with ⟨_ | reg, shared⟩
  · rw [hout] at hlog
    refine ⟨Or.inl rfl, le_rfl, fun key sess h => Or.inl ?_, pending_of_none rfl, writing_of_not rfl,
      fun _ _ h => Or.inl h, fun _ h => h, hlog⟩
    rcases lookupRegistration_error hout with rfl | ⟨_, _, _, rfl⟩ <;> exact h
  · rw [hout] at hlog
    obtain ⟨rfl, hreg, -⟩ := lookupRegistration_ok hout
    refine ⟨Or.inl rfl, le_rfl, fun _ _ h => Or.inl h, fun uuid leaseID h => ?_, writing_of_not rfl,
      fun _ _ h => Or.inl h, fun _ h => h, hlog⟩
    obtain ⟨rfl, rfl⟩ := Prod.mk.inj (Option.some.inj h)
    exact Or.inr ⟨reg, hreg, rfl⟩

theorem udpFind_effect {fails : Bool} {d : Datagram} {reg : Registration}
    (hudp : w.udp = .finding d reg) : Effect (.udp fails) w (w.udpFind d reg) := by
  unfold World.udpFind
  rcases hout : w.shared.findSession (dynamicSessionKey d.uuid d.clientAddr) reg with ⟨found, shared⟩
  have hpending : w.udp.pending = some (d.uuid, reg.leaseID) := by rw [hudp]; rfl
  rcases findSession_cases hout with ⟨rfl, rfl⟩ | ⟨rfl, rfl, -⟩ | ⟨sess, rfl, rfl, hsess, -⟩ |
    ⟨sess, rfl, rfl⟩
  · exact .of_udp rfl le_rfl rfl rfl (Or.inl rfl) rfl (fun _ h => h) (Or.inl ⟨rfl, fun _ => rfl⟩)
  · exact .of_udp rfl le_rfl rfl rfl (Or.inr hpending.symm) rfl (fun _ h => h)
      (Or.inl ⟨rfl, fun _ => rfl⟩)
  · refine ⟨Or.inl rfl, le_rfl, fun _ _ h => Or.inl h, pending_of_none rfl,
      fun d' reg' sess' h => ?_, fun _ _ h => Or.inl h, fun _ h => h, Or.inl ⟨rfl, fun _ => rfl⟩⟩
    obtain ⟨-, -, rfl⟩ := Udp.writing.inj h
    exact Or.inr (Or.inl ⟨_, hsess⟩)
  · exact ⟨Or.inl rfl, le_rfl, fun _ _ h => Or.inl (GoMap.lookup_of_erase h),
      fun _ _ h => Or.inl (hpending.trans h), writing_of_not rfl, fun _ _ h => Or.inl h,
      fun _ h => h, Or.inl ⟨rfl, fun _ => rfl⟩⟩

theorem udpInsert_effect {fails : Bool} {d : Datagram} {reg : Registration} {sess : Session}
    (hudp : w.udp = .inserting d reg sess) : Effect (.udp fails) w (w.udpInsert r d reg sess) := by
  unfold World.udpInsert
  rcases hout : w.shared.insertSession r sess with ⟨out, shared⟩
  have hsockets : ∀ id ∈ w.closedSockets, id ∈ sess.id :: w.closedSockets :=
    fun _ h => List.mem_cons_of_mem _ h
  rcases insertSession_cases hout with ⟨err, rfl⟩ | ⟨existing, rfl, hexisting⟩ | ⟨rfl, -, rfl⟩
  · exact .of_udp rfl le_rfl rfl rfl (Or.inl rfl) rfl hsockets (Or.inl ⟨rfl, fun _ => rfl⟩)
  · refine ⟨Or.inl rfl, le_rfl, fun _ _ h => Or.inl h, pending_of_none rfl,
      fun d' reg' sess' h => ?_, fun _ _ h => Or.inl h, hsockets, Or.inl ⟨rfl, fun _ => rfl⟩⟩
    obtain ⟨-, -, rfl⟩ := Udp.writing.inj h
    exact Or.inr (Or.inl ⟨_, hexisting⟩)
  · refine ⟨Or.inl rfl, le_rfl, fun key sess' h => ?_, pending_of_none rfl,
      fun d' reg' sess' h => ?_, fun sess' payload h => ?_, fun _ h => h,
      Or.inr ⟨_, rfl, ⟨d, reg, hudp⟩, Or.inl rfl, fun _ => rfl⟩⟩
    · rcases GoMap.lookup_insert_cases h with h | ⟨-, rfl⟩
      · exact Or.inl h
      · exact Or.inr ⟨rfl, d, reg, hudp⟩
    · obtain ⟨-, -, rfl⟩ := Udp.writing.inj h
      exact Or.inr (Or.inr (by rw [hudp]; rfl))
    · -- the new reader begins by reading
      exact Or.inl (by simpa using h)

theorem udpWrite_effect {d : Datagram} {reg : Registration} {sess : Session} {fails : Bool}
    (hudp : w.udp = .writing d reg sess) : Effect (.udp fails) w (w.udpWrite d sess fails) := by
  unfold World.udpWrite
  dsimp only
  split_ifs with hclosed
  · exact .of_udp rfl le_rfl rfl rfl (Or.inl rfl) rfl (fun _ h => h) (Or.inl ⟨rfl, fun _ => rfl⟩)
  · push Not at hclosed
    exact .of_udp rfl le_rfl rfl rfl (Or.inl rfl) rfl (fun _ h => h)
      (Or.inr ⟨_, rfl, ⟨hclosed.1, d, reg, hudp, rfl⟩, Or.inl rfl, fun _ => rfl⟩)

/-- Every piece of the UDP loop. -/
theorem udpStep_effect {fails : Bool} (h : w.udpStep r fails = some w') :
    Effect (.udp fails) w w' := by
  unfold World.udpStep at h
  cases hudp : w.udp with
  | idle => simp [hudp] at h
  | looking d now =>
    obtain rfl := Option.some.inj (hudp ▸ h)
    exact udpLook_effect hudp
  | finding d reg =>
    obtain rfl := Option.some.inj (hudp ▸ h)
    exact udpFind_effect hudp
  | closingOld d reg old =>
    obtain rfl := Option.some.inj (hudp ▸ h)
    exact .of_udp rfl le_rfl rfl rfl (Or.inr (by rw [hudp]; rfl)) rfl (fun _ h => List.mem_cons_of_mem _ h)
      (Or.inl ⟨rfl, fun _ => rfl⟩)
  | limiting d reg =>
    obtain rfl := Option.some.inj (hudp ▸ h)
    unfold World.udpLimit
    split
    · exact .of_udp rfl le_rfl rfl rfl (Or.inl rfl) rfl (fun _ h => h) (Or.inl ⟨rfl, fun _ => rfl⟩)
    · exact .of_udp rfl le_rfl rfl rfl (Or.inr (by rw [hudp]; rfl)) rfl (fun _ h => h)
        (Or.inl ⟨rfl, fun _ => rfl⟩)
  | dialing d reg =>
    obtain rfl := Option.some.inj (hudp ▸ h)
    unfold World.udpDial
    split_ifs
    · exact .of_udp rfl le_rfl rfl rfl (Or.inl rfl) rfl (fun _ h => h) (Or.inl ⟨rfl, fun _ => rfl⟩)
    · exact .of_udp rfl le_rfl rfl rfl (Or.inr (by rw [hudp]; rfl)) rfl (fun _ h => h)
        (Or.inl ⟨rfl, fun _ => rfl⟩)
  | inserting d reg sess =>
    obtain rfl := Option.some.inj (hudp ▸ h)
    exact udpInsert_effect hudp
  | writing d reg sess =>
    obtain rfl := Option.some.inj (hudp ▸ h)
    exact udpWrite_effect hudp
  | failed sess =>
    obtain rfl := Option.some.inj (hudp ▸ h)
    obtain ⟨hreg, hsub⟩ := closeSession_sub (s := w.shared) sess
    exact ⟨Or.inl rfl, le_rfl, fun key sess h => Or.inl (hsub key sess h), pending_of_none rfl,
      writing_of_not rfl, fun _ _ h => Or.inl h, fun _ h => h,
      Or.inl ⟨rfl, fun _ => by rw [hreg]⟩⟩
  | failedSocket sess =>
    obtain rfl := Option.some.inj (hudp ▸ h)
    exact .of_udp rfl le_rfl rfl rfl (Or.inl rfl) rfl (fun _ h => List.mem_cons_of_mem _ h)
      (Or.inl ⟨rfl, fun _ => rfl⟩)

/-- A datagram that comes in. -/
theorem receive_effect {clientAddr : UDPAddr} {data : GoString}
    (h : w.receive r clientAddr data = some w') : Effect (.receive clientAddr data) w w' := by
  unfold World.receive at h
  split_ifs at h with hidle hsize
  all_goals
    push Not at hidle
    have hwriting : w.udp.isWriting = false := by
      rw [hidle.2]
      rfl
  · obtain rfl := Option.some.inj h
    exact .of_udp rfl le_rfl rfl rfl (Or.inr rfl) hwriting (fun _ h => h)
      (Or.inr ⟨_, rfl, hidle.2, Or.inl rfl, fun _ => rfl⟩)
  · dsimp only at h
    split at h
    · obtain rfl := Option.some.inj h
      exact .of_udp rfl le_rfl rfl rfl (Or.inr rfl) hwriting (fun _ h => h)
        (Or.inr ⟨_, rfl, hidle.2, Or.inl rfl, fun _ => rfl⟩)
    · obtain rfl := Option.some.inj h
      exact .of_udp rfl le_rfl rfl rfl (Or.inl rfl) rfl (fun _ h => h)
        (Or.inr ⟨_, rfl, hidle.2, Or.inl rfl, fun _ => rfl⟩)

/-! ### The readers -/

/-- A reader that moves on to anything but the write. -/
theorem setReader_effect {i : ℕ} {rd : Reader} (hrd : rd.isWriting = false) :
    Effect a w (w.setReader i rd) :=
  .of_reader le_rfl (fun _ _ h => h) rfl rfl (Or.inl hrd) (fun _ h => h) (Or.inl ⟨rfl, fun _ => rfl⟩)

/-- A read that returns. -/
theorem backendRead_effect {i : ℕ} {result : Option GoString}
    (h : w.backendRead r i result = some w') : Effect (.backendRead i result) w w' := by
  unfold World.backendRead at h
  split at h
  · split_ifs at h
    · exact Option.some.inj h ▸ setReader_effect rfl
    · exact Option.some.inj h ▸ setReader_effect rfl
  · split_ifs at h
    · exact Option.some.inj h ▸ .of_shrinking le_rfl (fun _ _ h => h) rfl rfl (fun _ h => h)
        (Or.inl ⟨rfl, fun _ => rfl⟩)
    · exact Option.some.inj h ▸ setReader_effect rfl
  · cases h

/-- Every piece of a reader. -/
theorem readerStep_effect {i : ℕ} {fails : Bool} (h : w.readerStep i fails = some w') :
    Effect (.reader i fails) w w' := by
  unfold World.readerStep at h
  split at h
  · rename_i sess payload _
    split_ifs at h with hcurrent
    · -- `sessionIsCurrent` has seen the session in the table
      simp only [Shared.sessionIsCurrent, Bool.and_eq_true, decide_eq_true_eq] at hcurrent
      exact Option.some.inj h ▸ .of_reader le_rfl (fun _ _ h => h) rfl rfl
        (Or.inr ⟨sess, payload, sess.key, rfl, hcurrent.2⟩) (fun _ h => h)
        (Or.inl ⟨rfl, fun _ => rfl⟩)
    · exact Option.some.inj h ▸ setReader_effect rfl
  · rename_i sess payload hreader
    split_ifs at h
    · exact Option.some.inj h ▸ setReader_effect rfl
    · exact Option.some.inj h ▸ setReader_effect rfl
    · exact Option.some.inj h ▸ .of_reader le_rfl (fun _ _ h => h) rfl rfl (Or.inl rfl) (fun _ h => h)
        (Or.inr ⟨_, rfl, List.mem_of_getElem? hreader, Or.inr rfl, fun _ => rfl⟩)
  · rename_i sess hreader
    obtain ⟨hreg, hsub⟩ := closeSession_sub (s := w.shared) sess
    exact Option.some.inj h ▸ .of_reader le_rfl hsub rfl rfl (Or.inl rfl) (fun _ h => h)
      (Or.inl ⟨rfl, fun _ => by rw [hreg]⟩)
  · exact Option.some.inj h ▸ .of_reader le_rfl (fun _ _ h => h) rfl rfl (Or.inl rfl)
      (fun _ h => List.mem_cons_of_mem _ h) (Or.inl ⟨rfl, fun _ => rfl⟩)
  · cases h

/-! ### Requests, the sweeper and `Close` -/

theorem handlerPut_effect {i : ℕ} {authorization : GoString} {reg : Registration}
    (hput : w.requests[i]? = some (.put authorization reg)) :
    Effect (.handler i) w (w.handlerPut r i authorization reg) := by
  unfold World.handlerPut
  rcases hout : w.shared.putRegistration r reg with ⟨out, shared⟩
  have hkeep : ∀ q : Request, Effect (.handler i) w (w.setRequest i q) := fun q =>
    .of_shrinking le_rfl (fun _ _ h => h) rfl rfl (fun _ h => h) (Or.inl ⟨rfl, fun _ => rfl⟩)
  rcases putRegistration_cases hout with ⟨rfl | rfl, -⟩ | ⟨stored, replaced, rfl, hold, rfl, rfl⟩
  · exact hkeep _
  · exact hkeep _
  cases replaced with
  | none =>
    exact .of_shrinking le_rfl (fun _ _ h => h) rfl rfl (fun _ h => h) (Or.inr ⟨_, rfl,
      ⟨hold, i, reg, rfl, hput, rfl⟩, Or.inr rfl, fun _ => GoMap.lookup_insert _ _ _ _⟩)
  | some old =>
    exact .of_shrinking le_rfl (fun _ _ h => h) rfl rfl (fun _ h => h) (Or.inr ⟨_, rfl,
      ⟨hold, i, reg, rfl, hput, rfl⟩, Or.inr rfl, fun _ => GoMap.lookup_insert _ _ _ _⟩)

theorem handlerRefresh_effect {i : ℕ} {u : UUID} {backendID ownerID leaseID : GoString}
    (hrefresh : w.requests[i]? = some (.refresh u backendID ownerID leaseID)) :
    Effect (.handler i) w (w.handlerRefresh r i u backendID ownerID leaseID) := by
  unfold World.handlerRefresh
  rcases hout : w.shared.refreshRegistration r w.now u backendID ownerID leaseID with ⟨out, shared⟩
  rcases refreshRegistration_cases hout with ⟨rfl, rfl, hnot⟩ | ⟨reg, rfl, hreg, hheld, rfl⟩
  · refine .of_shrinking le_rfl (fun _ _ h => h) rfl rfl (fun _ h => h)
      (Or.inr ⟨_, rfl, ⟨i, rfl, hrefresh⟩, Or.inr rfl, fun uuid => ?_⟩)
    simp only [Entry.applyTo]
    split_ifs with hu
    · subst hu
      cases hlookup : w.shared.registrations.lookup uuid with
      | none => rfl
      | some reg => simp [hnot reg hlookup]
    · rfl
  · refine .of_shrinking le_rfl (fun _ _ h => h) rfl rfl (fun _ h => h)
      (Or.inr ⟨_, rfl, ⟨i, rfl, hrefresh⟩, Or.inr rfl, fun uuid => ?_⟩)
    simp only [Entry.applyTo, GoMap.lookup_insert]
    split_ifs with hu
    · subst hu
      simp [hreg, hheld]
    · rfl

theorem handlerDelete_effect {i : ℕ} {u : UUID} {backendID ownerID leaseID : GoString} :
    Effect (.handler i) w (w.handlerDelete i u backendID ownerID leaseID) := by
  unfold World.handlerDelete
  rcases hout : w.shared.deleteRegistration u backendID ownerID leaseID with ⟨out, shared⟩
  rcases deleteRegistration_cases hout with ⟨rfl, rfl, hnot⟩ | ⟨reg, rfl, hreg, hheld, rfl⟩
  · refine .of_shrinking le_rfl (fun _ _ h => h) rfl rfl (fun _ h => h)
      (Or.inr ⟨_, rfl, trivial, Or.inr rfl, fun uuid => ?_⟩)
    simp only [Entry.applyTo]
    split_ifs with hu
    · subst hu
      cases hlookup : w.shared.registrations.lookup uuid with
      | none => rfl
      | some reg => simp [hnot reg hlookup, Option.filter]
    · rfl
  · refine .of_shrinking le_rfl (fun _ _ h => h) rfl rfl (fun _ h => h)
      (Or.inr ⟨_, rfl, trivial, Or.inr rfl, fun uuid => ?_⟩)
    simp only [Entry.applyTo, GoMap.lookup_erase]
    split_ifs with hu
    · subst hu
      simp [hreg, hheld, Option.filter]
    · rfl

/-- Every piece of a request. -/
theorem handlerStep_effect {i : ℕ} (h : w.handlerStep r i = some w') : Effect (.handler i) w w' := by
  unfold World.handlerStep at h
  split at h
  · rename_i authorization reg hput
    exact Option.some.inj h ▸ handlerPut_effect hput
  · rename_i uuid backendID ownerID leaseID hrefresh
    exact Option.some.inj h ▸ handlerRefresh_effect hrefresh
  · exact Option.some.inj h ▸ handlerDelete_effect
  · exact Option.some.inj h ▸ .of_shrinking le_rfl
      (fun key sess h => ((lookup_closeSessionsForUUID _ key sess).mp h).1) rfl rfl
      (fun _ h => h) (Or.inl ⟨rfl, fun _ => rfl⟩)
  · exact Option.some.inj h ▸ .of_shrinking le_rfl (fun _ _ h => h) rfl rfl
      (fun _ h => List.mem_cons_of_mem _ h) (Or.inl ⟨rfl, fun _ => rfl⟩)
  · rename_i uuid status older hsockets
    obtain rfl := Option.some.inj h
    refine .of_shrinking le_rfl (fun _ _ h => h) rfl rfl (fun _ h => h) ?_
    cases older with
    | none => exact Or.inl ⟨rfl, fun _ => rfl⟩
    | some older =>
      by_cases hi : i ∈ w.timedOut
      · exact Or.inl ⟨if_pos hi, fun _ => rfl⟩
      · exact Or.inr ⟨_, if_neg hi, Or.inl ⟨i, status, rfl, hsockets⟩, Or.inr rfl, fun _ => rfl⟩
  · cases h

theorem timeout_effect {i : ℕ} (h : w.timeout i = some w') : Effect (.timeout i) w w' := by
  obtain ⟨q, hq, -, rfl⟩ := timeout_eq h
  refine .of_shrinking le_rfl (fun _ _ h => h) rfl rfl (fun _ h => h) ?_
  cases hreplacing : q.replacing with
  | none => exact Or.inl ⟨rfl, fun _ => rfl⟩
  | some p =>
    exact Or.inr ⟨.answered p.1 p.2, rfl, Or.inr ⟨i, q, rfl, hq, hreplacing⟩, Or.inr rfl,
      fun _ => rfl⟩

theorem sweeperStep_effect : Effect .sweeper w (w.sweeperStep r) := by
  unfold World.sweeperStep
  split
  · exact .of_shrinking le_rfl (fun _ _ h => h) rfl rfl (fun _ h => h) (Or.inl ⟨rfl, fun _ => rfl⟩)
  · exact .of_shrinking le_rfl (fun _ _ h => h) rfl rfl (fun _ h => h)
      (Or.inr ⟨_, rfl, trivial, Or.inr rfl, fun _ => GoMap.lookup_filter _ _ _⟩)
  · exact .of_shrinking le_rfl (fun _ _ h => h) rfl rfl (fun _ h => h) (Or.inl ⟨rfl, fun _ => rfl⟩)
  · exact .of_shrinking le_rfl (fun key sess h => ((lookup_closeSessionsForUUID _ key sess).mp h).1)
      rfl rfl (fun _ h => h) (Or.inl ⟨rfl, fun _ => rfl⟩)
  · exact .of_shrinking le_rfl (fun _ _ h => h) rfl rfl (fun _ h => h) (Or.inl ⟨rfl, fun _ => rfl⟩)
  · exact .of_shrinking le_rfl (fun _ _ h => h) rfl rfl
      (fun _ h => List.mem_cons_of_mem _ h) (Or.inl ⟨rfl, fun _ => rfl⟩)
  · exact .of_shrinking le_rfl (fun _ _ h => h) rfl rfl (fun _ h => h) (Or.inl ⟨rfl, fun _ => rfl⟩)
  · exact .of_shrinking le_rfl (fun _ _ h => h) rfl rfl (fun _ h => h) (Or.inl ⟨rfl, fun _ => rfl⟩)
  · rename_i sess sessions _
    obtain ⟨hreg, hsub⟩ := closeSession_sub (s := w.shared) sess
    exact .of_shrinking le_rfl hsub rfl rfl (fun _ h => h) (Or.inl ⟨rfl, fun _ => by rw [hreg]⟩)
  · exact .of_shrinking le_rfl (fun _ _ h => h) rfl rfl
      (fun _ h => List.mem_cons_of_mem _ h) (Or.inl ⟨rfl, fun _ => rfl⟩)

theorem closerStep_effect (h : w.closerStep = some w') : Effect .close w w' := by
  unfold World.closerStep at h
  split at h
  · exact Option.some.inj h ▸ .of_shrinking le_rfl (fun _ _ h => by cases h) rfl rfl (fun _ h => h)
      (Or.inr ⟨_, rfl, trivial, Or.inr rfl, fun _ => rfl⟩)
  · exact Option.some.inj h ▸ .of_shrinking le_rfl (fun _ _ h => h) rfl rfl
      (fun _ h => h) (Or.inl ⟨rfl, fun _ => rfl⟩)
  · exact Option.some.inj h ▸ .of_shrinking le_rfl (fun _ _ h => h) rfl rfl
      (fun _ h => List.mem_cons_of_mem _ h) (Or.inl ⟨rfl, fun _ => rfl⟩)
  · cases h

/-- **What a step can do**, whichever goroutine takes it. -/
theorem step_effect (h : step r ids w a = some w') : Effect a w w' := by
  cases a with
  | tick d =>
    obtain rfl := Option.some.inj h
    have hnow : w.now ≤ w.now + d := by omega
    exact .of_shrinking hnow (fun _ _ h => h) rfl rfl (fun _ h => h) (Or.inl ⟨rfl, fun _ => rfl⟩)
  | receive clientAddr data => exact receive_effect h
  | udp fails => exact udpStep_effect h
  | backendRead i result => exact backendRead_effect h
  | reader i fails => exact readerStep_effect h
  | request req =>
    exact Option.some.inj h ▸ .of_shrinking le_rfl (fun _ _ h => h) rfl rfl
      (fun _ h => h) (Or.inl ⟨rfl, fun _ => rfl⟩)
  | handler i => exact handlerStep_effect h
  | timeout i => exact timeout_effect h
  | sweeper => exact Option.some.inj h ▸ sweeperStep_effect
  | close => exact closerStep_effect h

end Effects

end Voice

end McRouter
