import McRouter.Voice.Reassign

/-!
# Housekeeping and the current lease

A `PUT` that replaces a registration, a `DELETE` and a sweep take the
registration away in one critical section and close the player's sessions in
a later one. The later one goes by the player alone. Between the two the
player may be registered anew, by the `PUT` itself or by another, and a
packet may open a session under the new registration: the session is then
taken out and closed with those of the old one
(`housekeeping_closes_current`).

This is the only way it happens. A lease that has been stored and is not the
player's any more never is again (`Gone.step`), so what is in the table when
the first section runs may be closed at any time. As long as no session
under a current registration is stored in between (`Uncrossed`),
**housekeeping spares the current lease** (`housekeeping_spares`).
-/

namespace McRouter

namespace Voice

open Net

/-! ## Who is to close what -/

/-- The request has taken a registration of the player away and is to close
the player's sessions. -/
def Request.waitsFor (uuid : UUID) : Request → Bool
  | .closing u _ _ => u = uuid
  | _ => false

/-- The sessions that the request has taken out and not yet closed. -/
def Request.toClose : Request → List Session
  | .sockets sessions _ _ _ => sessions
  | _ => []

/-- The sweep has removed the player's registration and is to close the
player's sessions. -/
def Sweeper.waitsFor (uuid : UUID) : Sweeper → Bool
  | .closing uuids | .sockets _ uuids => uuid ∈ uuids
  | _ => false

/-- The sessions of expired registrations that the sweep has taken out and
not yet closed. -/
def Sweeper.toClose : Sweeper → List Session
  | .sockets sessions _ => sessions
  | _ => []

namespace World

variable (w : World)

/-- An operation that has taken a registration of the player away is to close
the player's sessions. -/
def Waiting (uuid : UUID) : Prop :=
  (∃ q ∈ w.requests, q.waitsFor uuid = true) ∨ w.sweeper.waitsFor uuid = true

instance decidableWaiting (uuid : UUID) : Decidable (w.Waiting uuid) :=
  inferInstanceAs (Decidable ((∃ q ∈ w.requests, q.waitsFor uuid = true) ∨
    w.sweeper.waitsFor uuid = true))

/-- Such an operation has taken the session out and is to close it. -/
def ToClose (sess : Session) : Prop :=
  (∃ q ∈ w.requests, sess ∈ q.toClose) ∨ sess ∈ w.sweeper.toClose

end World

/-- The sessions that a step takes out of the table, or whose socket it
closes, as the session-closing step of a `PUT`, a `DELETE` or a sweep that
has taken a registration away. -/
def closes (w : World) : Action → List Session
  | .handler i =>
    match w.requests[i]? with
    | some (.closing uuid _ _) => (w.shared.closeSessionsForUUID uuid).1
    | some (.sockets (sess :: _) _ _ _) => [sess]
    | _ => []
  | .sweeper =>
    match w.sweeper with
    | .closing (uuid :: _) => (w.shared.closeSessionsForUUID uuid).1
    | .sockets (sess :: _) _ => [sess]
    | _ => []
  | _ => []

/-- The session that the UDP loop is about to store. -/
def Udp.storing : Udp → Option Session
  | .inserting _ _ sess => some sess
  | _ => none

/-- The UDP loop does not store a session under the player's registration
while an operation is to close the player's sessions. -/
def Uncrossed (w : World) : Action → Prop
  | .udp _ => ∀ sess ∈ w.udp.storing, w.Waiting sess.playerUUID →
      ∀ reg ∈ w.shared.registrations.lookup sess.playerUUID, sess.leaseID ≠ reg.leaseID
  | _ => True

instance decidableUncrossed (w : World) : (a : Action) → Decidable (Uncrossed w a)
  | .udp _ => inferInstanceAs (Decidable (∀ sess ∈ w.udp.storing, w.Waiting sess.playerUUID →
      ∀ reg ∈ w.shared.registrations.lookup sess.playerUUID, sess.leaseID ≠ reg.leaseID))
  | .tick _ | .receive _ _ | .backendRead _ _ | .reader _ _ | .request _ | .handler _ | .timeout _
  | .sweeper | .close => isTrue trivial

/-! ## Leases that are gone -/

/-- The lease was the player's and is not any more. -/
structure Gone (w : World) (uuid : UUID) (leaseID : GoString) : Prop where
  stored : leaseID ∈ leasesOf uuid w.log
  other : ∀ reg, w.shared.registrations.lookup uuid = some reg → leaseID ≠ reg.leaseID

/-- What has a lease has one that was stored. -/
structure Known (w : World) : Prop where
  registrations : ∀ uuid reg, w.shared.registrations.lookup uuid = some reg →
    reg.leaseID ∈ leasesOf uuid w.log
  pending : ∀ uuid leaseID, w.udp.pending = some (uuid, leaseID) → leaseID ∈ leasesOf uuid w.log
  sessions : ∀ key sess, w.shared.sessions.lookup key = some sess →
    sess.leaseID ∈ leasesOf sess.playerUUID w.log

section Leases

variable {r : Runtime} {ids : LeaseIDs} {a : Action} {w w' : World} {uuid : UUID}
  {leaseID : GoString}

/-- What was stored stays stored. -/
theorem leasesOf_step (hstep : step r ids w a = some w') (h : leaseID ∈ leasesOf uuid w.log) :
    leaseID ∈ leasesOf uuid w'.log := by
  rcases (step_effect hstep).log with ⟨hlog, -⟩ | ⟨e, hlog, -⟩ <;> rw [hlog]
  · exact h
  · obtain ⟨authorization, reg, replaced, hmem, hreg⟩ := mem_leasesOf.mp h
    exact mem_leasesOf.mpr ⟨authorization, reg, replaced, List.mem_cons_of_mem e hmem, hreg⟩

/-- **A lease that is gone stays gone.** -/
theorem Gone.step (h : Gone w uuid leaseID) (hfresh : FreshInv ids w)
    (hstep : Voice.step r ids w a = some w') : Gone w' uuid leaseID := by
  refine ⟨leasesOf_step hstep h.stored, fun reg hreg heq => ?_⟩
  rcases registration_of_step hfresh hstep hreg with ⟨reg₁, hreg₁, hlease⟩ | ⟨hnew, -⟩
  · exact h.other reg₁ hreg₁ (heq.trans hlease)
  · exact hnew uuid (heq ▸ h.stored)

theorem Known.step (h : Known w) (hfresh : FreshInv ids w) (hstep : Voice.step r ids w a = some w') :
    Known w' := by
  have he := step_effect hstep
  refine ⟨fun uuid reg hreg => ?_, fun uuid leaseID hpending => ?_, fun key sess hsess => ?_⟩
  · rcases registration_of_step hfresh hstep hreg with ⟨reg₁, hreg₁, hlease⟩ | ⟨-, hstored⟩
    · exact leasesOf_step hstep (hlease ▸ h.registrations uuid reg₁ hreg₁)
    · exact hstored
  · rcases he.pending uuid leaseID hpending with hpending | ⟨reg, hreg, rfl⟩
    · exact leasesOf_step hstep (h.pending uuid leaseID hpending)
    · exact leasesOf_step hstep (h.registrations uuid reg hreg)
  · rcases he.sessions key sess hsess with hsess | ⟨-, d, reg, hudp⟩
    · exact leasesOf_step hstep (h.sessions key sess hsess)
    · refine leasesOf_step hstep (h.pending sess.playerUUID sess.leaseID ?_)
      rw [hudp]
      rfl

end Leases

/-! ## What a step does about it -/

section Steps

variable {r : Runtime} {ids : LeaseIDs} {a : Action} {w w' : World} {uuid : UUID}

theorem mem_closeSessionsForUUID {s : Shared} {sess : Session} :
    sess ∈ (s.closeSessionsForUUID uuid).1 ↔
      sess.playerUUID = uuid ∧ ∃ key, s.sessions.lookup key = some sess := by
  rw [Shared.closeSessionsForUUID, List.mem_filter, GoMap.mem_values, decide_eq_true_eq, and_comm]

/-- An expired player has no registration after the sweep. -/
theorem lookup_expireRegistrations {s : Shared} {now : ℤ}
    (h : uuid ∈ (s.expireRegistrations now).1) :
    (s.expireRegistrations now).2.registrations.lookup uuid = none := by
  obtain ⟨⟨u, reg⟩, hmem, rfl⟩ := List.mem_map.mp h
  obtain ⟨hreg, hexpired⟩ := List.mem_filter.mp hmem
  rw [Shared.expireRegistrations, GoMap.lookup_filter, GoMap.mem_entries.mp hreg,
    Option.filter_some, if_neg (by simpa using hexpired)]

/-- Where the sweeper gets to. -/
theorem sweeperStep_cases (r : Runtime) (w : World) :
    ((∀ uuid, (w.sweeperStep r).sweeper.waitsFor uuid = false) ∧
      (w.sweeperStep r).sweeper.toClose = []) ∨
    (∃ now, w.sweeper = .expiring now ∧
      (w.sweeperStep r).sweeper = .closing (w.shared.expireRegistrations now).1 ∧
      (w.sweeperStep r).shared = (w.shared.expireRegistrations now).2) ∨
    (∃ uuid uuids, w.sweeper = .closing (uuid :: uuids) ∧
      (w.sweeperStep r).sweeper = .sockets (w.shared.closeSessionsForUUID uuid).1 uuids) ∨
    (∃ uuids, w.sweeper = .sockets [] uuids ∧ (w.sweeperStep r).sweeper = .closing uuids) ∨
    ∃ sess sessions uuids, w.sweeper = .sockets (sess :: sessions) uuids ∧
      (w.sweeperStep r).sweeper = .sockets sessions uuids := by
  unfold World.sweeperStep
  split
  · exact Or.inl ⟨fun _ => rfl, rfl⟩
  · rename_i now hold
    exact Or.inr (Or.inl ⟨now, hold, rfl, rfl⟩)
  · exact Or.inl ⟨fun _ => rfl, rfl⟩
  · rename_i uuid uuids hold
    exact Or.inr (Or.inr (Or.inl ⟨uuid, uuids, hold, rfl⟩))
  · rename_i uuids hold
    exact Or.inr (Or.inr (Or.inr (Or.inl ⟨uuids, hold, rfl⟩)))
  · rename_i sess sessions uuids hold
    exact Or.inr (Or.inr (Or.inr (Or.inr ⟨sess, sessions, uuids, hold, rfl⟩)))
  · exact Or.inl ⟨fun _ => rfl, rfl⟩
  · refine Or.inl ⟨fun _ => ?_, ?_⟩ <;> dsimp only <;> split_ifs <;> rfl
  · exact Or.inl ⟨fun _ => rfl, rfl⟩
  · exact Or.inl ⟨fun _ => rfl, rfl⟩

/-- The first section leaves the player without a registration or with one
whose lease is new. -/
def Renewed (w w' : World) (uuid : UUID) : Prop :=
  ∀ reg, w'.shared.registrations.lookup uuid = some reg → reg.leaseID ∉ leasesOf uuid w.log

/-- A request that is to close a player's sessions was to do so before or has
just taken a registration away. -/
theorem requestWaits_of_step (hfresh : FreshInv ids w) (hstep : step r ids w a = some w')
    {q : Request} (hq : q ∈ w'.requests) (hwaits : q.waitsFor uuid = true) :
    q ∈ w.requests ∨ (a.isUdp = false ∧ Renewed w w' uuid) := by
  rcases requests_of_step hstep with hsame | ⟨req, -, hreq⟩ | ⟨i, rfl, hi⟩
  · exact Or.inl (hsame ▸ hq)
  · rw [hreq] at hq
    rcases List.mem_append.mp hq with hq | hq
    · exact Or.inl hq
    · rw [List.mem_singleton] at hq
      cases q with
      | closing u status older => exact absurd hq.symm ((accept_start req).1 u status older)
      | _ => cases hwaits
  · obtain ⟨q', hrequests, hq'⟩ := handlerStep_cases hi
    rw [hrequests] at hq
    rcases List.mem_or_eq_of_mem_set hq with hq | rfl
    · exact Or.inl hq
    refine Or.inr ⟨rfl, fun reg hreg => ?_⟩
    rcases hq' with ⟨_, rfl⟩ | ⟨u, rfl, hnone⟩ |
      ⟨authorization, reg₀, reg', old, hput, rfl, hlease, hlog⟩ | ⟨_, _, _, _, rfl, _⟩ |
      ⟨_, _, _, _, _, _, rfl⟩
    · cases hwaits
    · obtain rfl : u = uuid := of_decide_eq_true hwaits
      rw [hnone] at hreg
      cases hreg
    · obtain rfl : reg'.playerUUID = uuid := of_decide_eq_true hwaits
      obtain ⟨-, -, happly⟩ := (step_effect hstep).log.written hlog
      rw [happly] at hreg
      simp only [Entry.applyTo, if_true, Option.some.injEq] at hreg
      rw [← hreg, hlease]
      exact hfresh.notMem hput reg'.playerUUID
    · cases hwaits
    · cases hwaits

/-- The same for the sweeper. -/
theorem sweeperWaits_of_step (hstep : step r ids w a = some w')
    (hwaits : w'.sweeper.waitsFor uuid = true) :
    w.sweeper.waitsFor uuid = true ∨ (a.isUdp = false ∧ Renewed w w' uuid) := by
  rcases sweeper_of_step hstep with hsame | ⟨rfl, rfl⟩
  · exact Or.inl (hsame ▸ hwaits)
  rcases sweeperStep_cases r w with ⟨hnot, -⟩ | ⟨now, hold, hnew, hshared⟩ |
    ⟨u, uuids, hold, hnew⟩ | ⟨uuids, hold, hnew⟩ | ⟨sess, sessions, uuids, hold, hnew⟩
  · rw [hnot] at hwaits
    cases hwaits
  · -- the expired players have no registration left
    rw [hnew] at hwaits
    refine Or.inr ⟨rfl, fun reg hreg => ?_⟩
    rw [hshared, lookup_expireRegistrations (of_decide_eq_true hwaits)] at hreg
    cases hreg
  · rw [hnew] at hwaits
    rw [hold]
    exact Or.inl (decide_eq_true (List.mem_cons_of_mem u (of_decide_eq_true hwaits)))
  · rw [hnew] at hwaits
    rw [hold]
    exact Or.inl hwaits
  · rw [hnew] at hwaits
    rw [hold]
    exact Or.inl hwaits

theorem waiting_of_step (hfresh : FreshInv ids w) (hstep : step r ids w a = some w')
    (h : w'.Waiting uuid) : w.Waiting uuid ∨ (a.isUdp = false ∧ Renewed w w' uuid) := by
  rcases h with ⟨q, hq, hwaits⟩ | hwaits
  · rcases requestWaits_of_step hfresh hstep hq hwaits with hq | hnew
    · exact Or.inl (Or.inl ⟨q, hq, hwaits⟩)
    · exact Or.inr hnew
  · rcases sweeperWaits_of_step hstep hwaits with hwaits | hnew
    · exact Or.inl (Or.inr hwaits)
    · exact Or.inr hnew

/-- A session that is to be closed was so before, or was in the table when
its player's were taken out. -/
theorem toClose_of_step {sess : Session} (hstep : step r ids w a = some w') (h : w'.ToClose sess) :
    w.ToClose sess ∨
      (w.Waiting sess.playerUUID ∧ ∃ key, w.shared.sessions.lookup key = some sess) := by
  rcases h with ⟨q, hq, hsess⟩ | hsess
  · rcases requests_of_step hstep with hsame | ⟨req, -, hreq⟩ | ⟨i, -, hi⟩
    · exact Or.inl (Or.inl ⟨q, hsame ▸ hq, hsess⟩)
    · rw [hreq] at hq
      rcases List.mem_append.mp hq with hq | hq
      · exact Or.inl (Or.inl ⟨q, hq, hsess⟩)
      · rw [List.mem_singleton] at hq
        cases q with
        | sockets sessions u status older =>
          exact absurd hq.symm ((accept_start req).2 sessions u status older)
        | _ => cases hsess
    · obtain ⟨q', hrequests, hq'⟩ := handlerStep_cases hi
      rw [hrequests] at hq
      rcases List.mem_or_eq_of_mem_set hq with hq | rfl
      · exact Or.inl (Or.inl ⟨q, hq, hsess⟩)
      rcases hq' with ⟨_, rfl⟩ | ⟨_, rfl, _⟩ | ⟨_, _, _, _, _, rfl, _⟩ |
        ⟨u, status, older, hclosing, rfl, -⟩ | ⟨first, sessions, u, status, older, hsockets, rfl⟩
      · cases hsess
      · cases hsess
      · cases hsess
      · obtain ⟨rfl, hkey⟩ := mem_closeSessionsForUUID.mp hsess
        exact Or.inr ⟨Or.inl ⟨_, List.mem_of_getElem? hclosing, decide_eq_true rfl⟩, hkey⟩
      · exact Or.inl (Or.inl ⟨_, List.mem_of_getElem? hsockets, List.mem_cons_of_mem first hsess⟩)
  · rcases sweeper_of_step hstep with hsame | ⟨rfl, rfl⟩
    · exact Or.inl (Or.inr (hsame ▸ hsess))
    rcases sweeperStep_cases r w with ⟨-, hnot⟩ | ⟨_, -, hnew, -⟩ | ⟨u, uuids, hold, hnew⟩ |
      ⟨_, -, hnew⟩ | ⟨first, sessions, uuids, hold, hnew⟩
    · rw [hnot] at hsess
      cases hsess
    · rw [hnew] at hsess
      cases hsess
    · rw [hnew] at hsess
      obtain ⟨rfl, hkey⟩ := mem_closeSessionsForUUID.mp hsess
      refine Or.inr ⟨Or.inr ?_, hkey⟩
      rw [hold]
      exact decide_eq_true List.mem_cons_self
    · rw [hnew] at hsess
      cases hsess
    · rw [hnew] at hsess
      refine Or.inl (Or.inr ?_)
      rw [hold]
      exact List.mem_cons_of_mem first hsess

end Steps

/-! ## The invariant -/

/-- The sessions that an operation is to take out or to close are of leases
that are gone. -/
structure HousekeepingInv (ids : LeaseIDs) (w : World) : Prop where
  fresh : FreshInv ids w
  known : Known w
  waiting : ∀ uuid, w.Waiting uuid → ∀ key sess, w.shared.sessions.lookup key = some sess →
    sess.playerUUID = uuid → Gone w uuid sess.leaseID
  closing : ∀ sess, w.ToClose sess → Gone w sess.playerUUID sess.leaseID

section Invariant

variable {r : Runtime} {ids : LeaseIDs} {a : Action} {w w' : World}

theorem HousekeepingInv.boot (now : ℤ) : HousekeepingInv ids (boot now) where
  fresh := (ReassignInv.boot now).fresh
  known := by
    refine ⟨?_, ?_, ?_⟩
    all_goals
      intro _ _ h
      cases h
  waiting uuid _ key sess h := by cases h
  closing sess h := by simp [World.ToClose, Voice.boot, Sweeper.toClose] at h

/-- A session that comes into the table while its player's are to be closed
is of a lease that is gone. -/
theorem HousekeepingInv.gone_of_inserting (h : HousekeepingInv ids w) (hcond : Uncrossed w a)
    (hstep : Voice.step r ids w a = some w') (ha : a.isUdp = true) {d : Datagram}
    {reg : Registration} {sess : Session} (hudp : w.udp = .inserting d reg sess)
    (hwaiting : w.Waiting sess.playerUUID) : Gone w sess.playerUUID sess.leaseID := by
  cases a with
  | udp fails =>
    refine ⟨h.known.pending sess.playerUUID sess.leaseID (by rw [hudp]; rfl), ?_⟩
    intro reg' hreg'
    exact hcond sess (by rw [hudp]; rfl) hwaiting reg' hreg'
  | receive clientAddr data =>
    -- a datagram is read only when the loop is idle
    simp [step, World.receive, hudp] at hstep
  | _ => cases ha

/-- **The step lemma.** -/
theorem HousekeepingInv.step (h : HousekeepingInv ids w) (hcond : Uncrossed w a)
    (hstep : Voice.step r ids w a = some w') : HousekeepingInv ids w' := by
  refine ⟨h.fresh.step hstep, h.known.step h.fresh hstep, ?_, ?_⟩
  · rintro uuid hwaiting key sess hsess rfl
    have hsessions := (step_effect hstep).sessions key sess hsess
    rcases waiting_of_step h.fresh hstep hwaiting with hwaiting | ⟨ha, hnew⟩
    · refine Gone.step ?_ h.fresh hstep
      rcases hsessions with hsess | ⟨ha, d, reg, hudp⟩
      · exact h.waiting sess.playerUUID hwaiting key sess hsess rfl
      · exact h.gone_of_inserting hcond hstep ha hudp hwaiting
    · rcases hsessions with hsess | ⟨ha', -⟩
      · have hstored := h.known.sessions key sess hsess
        exact ⟨leasesOf_step hstep hstored, fun reg hreg heq => hnew reg hreg (heq ▸ hstored)⟩
      · rw [ha] at ha'
        cases ha'
  · intro sess hclose
    rcases toClose_of_step hstep hclose with hclose | ⟨hwaiting, key, hsess⟩
    · exact (h.closing sess hclose).step h.fresh hstep
    · exact (h.waiting sess.playerUUID hwaiting key sess hsess rfl).step h.fresh hstep

/-- What a step closes is waited for or to be closed. -/
theorem gone_of_closes (h : HousekeepingInv ids w) {sess : Session} (hsess : sess ∈ closes w a) :
    Gone w sess.playerUUID sess.leaseID := by
  cases a with
  | handler i =>
    simp only [closes] at hsess
    split at hsess
    · rename_i uuid status older hclosing
      obtain ⟨rfl, key, hkey⟩ := mem_closeSessionsForUUID.mp hsess
      exact h.waiting _ (Or.inl ⟨_, List.mem_of_getElem? hclosing, decide_eq_true rfl⟩) key sess
        hkey rfl
    · rename_i first sessions uuid status older hsockets
      obtain rfl := List.mem_singleton.mp hsess
      exact h.closing sess (Or.inl ⟨_, List.mem_of_getElem? hsockets, List.mem_cons_self⟩)
    · cases hsess
  | sweeper =>
    simp only [closes] at hsess
    split at hsess
    · rename_i uuid uuids hclosing
      obtain ⟨rfl, key, hkey⟩ := mem_closeSessionsForUUID.mp hsess
      refine h.waiting _ (Or.inr ?_) key sess hkey rfl
      rw [hclosing]
      exact decide_eq_true List.mem_cons_self
    · rename_i first sessions uuids hsockets
      obtain rfl := List.mem_singleton.mp hsess
      refine h.closing sess (Or.inr ?_)
      rw [hsockets]
      exact List.mem_cons_self
    · cases hsess
  | _ => cases hsess

end Invariant

/-- **Housekeeping spares the current lease**, in every run in which no
session under a player's registration is stored between the two sections of
an operation on that player: no step takes a session out, or closes its
socket, on behalf of an earlier registration while the session's own is the
player's. -/
theorem housekeeping_spares (r : Runtime) (ids : LeaseIDs) (now : ℤ) (actions : List Action)
    (hmeets : System.Meets (step r ids) Uncrossed (boot now) actions) (w : World)
    (hrun : System.run (step r ids) (boot now) actions = some w) (a : Action) :
    ∀ sess ∈ closes w a, ∀ reg, w.shared.registrations.lookup sess.playerUUID = some reg →
      sess.leaseID ≠ reg.leaseID := by
  have hinv : HousekeepingInv ids w :=
    System.run_invariant (fun _ _ _ h hcond hstep => h.step hcond hstep) actions _ w (.boot now)
      hmeets hrun
  intro sess hsess reg hreg
  exact (gone_of_closes hinv hsess).other reg hreg

/-- A player is registered with one backend and then with another; before
the second `PUT` has closed the sessions of the first registration, the
player's packet opens one under the second. -/
def packetInBetween : List Action :=
  [.request (registerAlex (go "lobby-token")), .handler 0,
    .request (registerAlex (go "survival-token")), .handler 1, .receive alexAddr alexPacket,
    .udp false, .udp false, .udp false, .udp false, .udp false]

/-- **Housekeeping closes a session of the current lease.** The `PUT` takes
out the session that was opened under the registration it stored itself, and
its socket is closed next. -/
theorem housekeeping_closes_current :
    ∃ w, System.run (step demoRuntime numberedLeases) (boot 0) packetInBetween = some w ∧
      ∃ sess reg, closes w (.handler 1) = [sess] ∧
        w.shared.registrations.lookup sess.playerUUID = some reg ∧ sess.carries reg ∧
        ∃ w', System.run (step demoRuntime numberedLeases) w [.handler 1, .handler 1] = some w' ∧
          w'.shared.registrations.lookup sess.playerUUID = some reg ∧
          w'.shared.sessions.lookup sess.key = none ∧ sess.id ∈ w'.closedSockets := by
  refine ⟨_, rfl, newSession 0 alex alexAddr ⟨alex, go "survival", go "owner", Strings.itoa 1, 2, 90⟩,
    ⟨alex, go "survival", go "owner", Strings.itoa 1, 2, 90⟩, by decide +kernel, by decide +kernel,
    by decide +kernel, _, rfl, by decide +kernel, by decide +kernel, by decide +kernel⟩

/-- A player who is reassigned between two packets: the session of the old
registration goes, and it is of another lease. -/
theorem housekeeping_spares_between :
    let actions : List Action := [.request (registerAlex (go "lobby-token")), .handler 0,
      .receive alexAddr alexPacket, .udp false, .udp false, .udp false, .udp false, .udp false,
      .udp false, .request (registerAlex (go "survival-token")), .handler 1]
    System.Meets (step demoRuntime numberedLeases) Uncrossed (boot 0) actions ∧
    ∃ w, System.run (step demoRuntime numberedLeases) (boot 0) actions = some w ∧
      closes w (.handler 1) =
        [newSession 0 alex alexAddr ⟨alex, go "lobby", go "owner", Strings.itoa 0, 1, 90⟩] ∧
      ∀ sess ∈ closes w (.handler 1), ∀ reg,
        w.shared.registrations.lookup sess.playerUUID = some reg → sess.leaseID ≠ reg.leaseID := by
  intro actions
  have hmeets : System.Meets (step demoRuntime numberedLeases) Uncrossed (boot 0) actions := by
    decide +kernel
  exact ⟨hmeets, _, rfl, by decide +kernel,
    housekeeping_spares demoRuntime numberedLeases 0 actions hmeets _ rfl (.handler 1)⟩

end Voice

end McRouter
