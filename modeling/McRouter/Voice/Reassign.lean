import McRouter.Voice.Lease

/-!
# Reassigning a player

A `PUT` that replaces a player's registration should cut off the old
backend: once it has answered, no session of an older lease is in the table
or comes into it, and nothing is written through one.

The `PUT` swaps the registration and closes the sessions in two critical
sections, and the UDP loop looks the registration up in one and inserts a
session in another, without looking again. So a packet that was looked up
before the swap can put a session of the old lease back after the answer
(`stale_session_after_answer`), and a packet or a reply on its way to the
socket can still be written; and the `TimeoutHandler` may answer before the
sessions are closed. `Undisturbed` says that nothing of this is the case
when it matters, and then **the old backend is cut off**
(`reassignment_cuts_off`).
-/

namespace McRouter

namespace Voice

open Net

/-! ## Older leases -/

/-- The session is one of the player under an older lease. -/
def Session.ofOlder (sess : Session) (uuid : UUID) (older : List GoString) : Prop :=
  sess.playerUUID = uuid ∧ sess.leaseID ∈ older

instance decidableOfOlder (sess : Session) (uuid : UUID) (older : List GoString) :
    Decidable (sess.ofOlder uuid older) := by
  unfold Session.ofOlder
  infer_instance

/-- The entry is about a session of an older lease: it came into the table
or was written through. -/
def Entry.uses (uuid : UUID) (older : List GoString) : Entry → Prop
  | .inserted sess | .wroteBackend sess _ | .wroteClient sess _ => sess.ofOlder uuid older
  | _ => False

/-- A `PUT` replaced the player's registration when these were the leases
that had been stored for the player. -/
def Swapped (log : List Entry) (uuid : UUID) (older : List GoString) : Prop :=
  ∃ later authorization reg old earlier,
    log = later ++ .stored authorization reg (some old) :: earlier ∧ reg.playerUUID = uuid ∧
      older = leasesOf uuid earlier

theorem Swapped.cons {log : List Entry} {uuid : UUID} {older : List GoString}
    (h : Swapped log uuid older) (e : Entry) : Swapped (e :: log) uuid older := by
  obtain ⟨later, authorization, reg, old, earlier, rfl, huuid, holder⟩ := h
  exact ⟨e :: later, authorization, reg, old, earlier, rfl, huuid, holder⟩

theorem mem_leasesOf {uuid : UUID} {log : List Entry} {leaseID : GoString} :
    leaseID ∈ leasesOf uuid log ↔ ∃ authorization reg replaced,
      .stored authorization reg replaced ∈ log ∧ reg.playerUUID = uuid ∧ reg.leaseID = leaseID := by
  unfold leasesOf
  rw [List.mem_filterMap]
  constructor
  · rintro ⟨e, he, hlease⟩
    cases e with
    | stored authorization reg replaced =>
      simp only [Option.ite_none_right_eq_some, Option.some.injEq] at hlease
      exact ⟨authorization, reg, replaced, he, hlease.1, hlease.2⟩
    | _ => cases hlease
  · rintro ⟨authorization, reg, replaced, he, huuid, hlease⟩
    exact ⟨_, he, by simp [huuid, hlease]⟩

/-- The older leases were stored for the player. -/
theorem Swapped.subset {log : List Entry} {uuid : UUID} {older : List GoString}
    (h : Swapped log uuid older) : older ⊆ leasesOf uuid log := by
  obtain ⟨later, authorization, reg, old, earlier, rfl, -, rfl⟩ := h
  intro leaseID hlease
  obtain ⟨authorization', reg', replaced, hmem, huuid, heq⟩ := mem_leasesOf.mp hlease
  exact mem_leasesOf.mpr ⟨authorization', reg', replaced, by simp [hmem], huuid, heq⟩

/-- The session the UDP loop is about to write through. -/
def Udp.writingTo : Udp → Option Session
  | .writing _ _ sess => some sess
  | _ => none

/-- The session whose reader is about to write to the client. -/
def Reader.writingFrom : Reader → Option Session
  | .writing sess _ => some sess
  | _ => none

/-- Nothing is about to be written through a session of an older lease: the
UDP loop only to a closed socket, and no reader is between
`sessionIsCurrent` and `WriteToUDP`. -/
def World.Quiet (w : World) (uuid : UUID) (older : List GoString) : Prop :=
  (∀ sess ∈ w.udp.writingTo, sess.ofOlder uuid older → sess.id ∈ w.closedSockets) ∧
    ∀ rd ∈ w.readers, ∀ sess ∈ rd.writingFrom, ¬ sess.ofOlder uuid older

/-- The UDP loop holds no older registration of the player that it has looked
up and not yet made into a session of the table. -/
def World.NonePending (w : World) (uuid : UUID) (older : List GoString) : Prop :=
  ∀ leaseID ∈ older, w.udp.pending ≠ some (uuid, leaseID)

instance (w : World) (uuid : UUID) (older : List GoString) : Decidable (w.Quiet uuid older) := by
  unfold World.Quiet
  infer_instance

instance (w : World) (uuid : UUID) (older : List GoString) :
    Decidable (w.NonePending uuid older) := by
  unfold World.NonePending
  infer_instance

/-- When a `PUT` is about to close the player's sessions, nothing older of
the player is pending, and when it is about to answer all is quiet. A `PUT`
that times out in between has nothing pending, no session of an older lease
in the table, and all is quiet; one that has timed out before its section
finds no registration to replace. -/
def Undisturbed (w : World) : Action → Prop
  | .handler i =>
    match w.requests[i]? with
    | some (.put _ reg) =>
      i ∈ w.timedOut → w.shared.registrations.lookup reg.playerUUID = none
    | some (.closing uuid _ (some older)) => w.NonePending uuid older
    | some (.sockets [] uuid _ (some older)) => w.Quiet uuid older
    | _ => True
  | .timeout i =>
    match w.requests[i]? with
    | some (.closing uuid _ (some older)) =>
      (∀ sess ∈ w.shared.sessions.values, ¬ sess.ofOlder uuid older) ∧
        w.NonePending uuid older ∧ w.Quiet uuid older
    | some (.sockets _ uuid _ (some older)) => w.Quiet uuid older
    | _ => True
  | _ => True

instance decidableUndisturbed (w : World) (a : Action) : Decidable (Undisturbed w a) := by
  cases a <;> unfold Undisturbed
  case handler =>
    dsimp only
    split <;> infer_instance
  case timeout =>
    dsimp only
    split <;> infer_instance
  all_goals infer_instance

/-! ## Leases are fresh -/

/-- A `PUT` carries the lease it was given; what was stored came from a
request that is past its section. -/
structure FreshInv (ids : LeaseIDs) (w : World) : Prop where
  pending : ∀ (i : ℕ) authorization reg, w.requests[i]? = some (.put authorization reg) →
    ids.newLeaseID i = some reg.leaseID
  stored : ∀ authorization reg replaced, .stored authorization reg replaced ∈ w.log →
    ∃ i < w.requests.length, ids.newLeaseID i = some reg.leaseID ∧
      ∀ authorization' reg', w.requests[i]? ≠ some (.put authorization' reg')

/-- What holds between the closing of the sessions and the answer, and from
then on: nothing of an older lease is in the tables or on its way there. -/
structure Cut (w : World) (uuid : UUID) (older : List GoString) : Prop where
  registration : ∀ reg, w.shared.registrations.lookup uuid = some reg → reg.leaseID ∉ older
  table : ∀ key sess, w.shared.sessions.lookup key = some sess → ¬ sess.ofOlder uuid older
  udp : w.NonePending uuid older

/-- What holds after the answer: nor is anything about to be written. -/
structure Silent (w : World) (uuid : UUID) (older : List GoString) : Prop extends
    Cut w uuid older where
  writing : ∀ d reg sess, w.udp = .writing d reg sess → sess.ofOlder uuid older →
    sess.id ∈ w.closedSockets
  readers : ∀ sess payload, .writing sess payload ∈ w.readers → ¬ sess.ofOlder uuid older

section Fresh

variable {r : Runtime} {ids : LeaseIDs} {a : Action} {w w' : World}

/-- In a world that is cut off and quiet there is silence. -/
theorem Cut.silent {uuid : UUID} {older : List GoString} (h : Cut w uuid older)
    (hquiet : w.Quiet uuid older) : Silent w uuid older where
  toCut := h
  writing d reg sess hudp := hquiet.1 sess (by rw [hudp]; rfl)
  readers sess payload hmem := hquiet.2 _ hmem sess rfl

theorem length_requests (h : step r ids w a = some w') : w.requests.length ≤ w'.requests.length := by
  rcases requests_of_step h with hsame | ⟨req, -, hreq⟩ | ⟨i, -, hi⟩
  · rw [hsame]
  · rw [hreq, List.length_append]
    omega
  · obtain ⟨q, hq, -⟩ := handlerStep_requests hi
    rw [hq, List.length_set]

/-- **The step lemma for leases.** -/
theorem FreshInv.step (h : FreshInv ids w) (hstep : Voice.step r ids w a = some w') :
    FreshInv ids w' := by
  have hlength := length_requests hstep
  -- a request past its section does not come back to it
  have hpast : ∀ i < w.requests.length,
      (∀ authorization reg, w.requests[i]? ≠ some (.put authorization reg)) →
      ∀ authorization reg, w'.requests[i]? ≠ some (.put authorization reg) := by
    intro i hi hnot authorization reg hput
    rcases put_of_step hstep hput with hput | ⟨rfl, -⟩
    · exact hnot authorization reg hput
    · omega
  refine ⟨?_, ?_⟩
  · intro i authorization reg hput
    rcases put_of_step hstep hput with hput | ⟨rfl, req, haccept⟩
    · exact h.pending i authorization reg hput
    · exact (accept_put haccept).2.1
  · intro authorization reg replaced hmem
    have hold : .stored authorization reg replaced ∈ w.log →
        ∃ i < w'.requests.length, ids.newLeaseID i = some reg.leaseID ∧
          ∀ authorization' reg', w'.requests[i]? ≠ some (.put authorization' reg') := by
      intro hmem
      obtain ⟨i, hi, hlease, hnot⟩ := h.stored authorization reg replaced hmem
      exact ⟨i, by omega, hlease, hpast i hi hnot⟩
    rcases (step_effect hstep).log with ⟨hlog, -⟩ | ⟨e, hlog, hwritten, -⟩
    · exact hold (hlog ▸ hmem)
    rw [hlog] at hmem
    rcases List.mem_cons.mp hmem with rfl | hmem
    · obtain ⟨-, i, reg₀, rfl, hput, rfl⟩ := hwritten
      have hi : i < w.requests.length := (List.getElem?_eq_some_iff.mp hput).1
      refine ⟨i, by omega, h.pending i authorization reg₀ hput, fun authorization' reg' hput' => ?_⟩
      obtain ⟨q, hq, hnot⟩ := handlerStep_requests hstep
      rw [hq, List.getElem?_set_self hi] at hput'
      exact hnot authorization' reg' (Option.some.inj hput')
    · exact hold hmem

/-- **A `PUT` brings a lease that was never stored.** -/
theorem FreshInv.notMem (h : FreshInv ids w) {i : ℕ} {authorization : GoString} {reg : Registration}
    (hput : w.requests[i]? = some (.put authorization reg)) (uuid : UUID) :
    reg.leaseID ∉ leasesOf uuid w.log := by
  intro hmem
  obtain ⟨authorization', reg', replaced, hstored, -, hlease⟩ := mem_leasesOf.mp hmem
  obtain ⟨j, -, hj, hnot⟩ := h.stored authorization' reg' replaced hstored
  rw [hlease] at hj
  obtain rfl := ids.fresh i j reg.leaseID (h.pending i authorization reg hput) hj
  exact hnot authorization reg hput

end Fresh

/-! ## What stays cut off -/

section Steps

variable {r : Runtime} {ids : LeaseIDs} {a : Action} {w w' : World} {uuid : UUID}
  {older : List GoString}

/-- **A registration has the lease it had before, or one that was never
stored.** -/
theorem registration_of_step (hfresh : FreshInv ids w) (hstep : step r ids w a = some w')
    {reg : Registration} (hreg : w'.shared.registrations.lookup uuid = some reg) :
    (∃ reg₁, w.shared.registrations.lookup uuid = some reg₁ ∧ reg.leaseID = reg₁.leaseID) ∨
      (∀ u, reg.leaseID ∉ leasesOf u w.log) ∧ reg.leaseID ∈ leasesOf uuid w'.log := by
  rcases (step_effect hstep).log with ⟨-, hsame⟩ | ⟨e, hlog, hwritten, -, happly⟩
  · exact Or.inl ⟨reg, hsame uuid ▸ hreg, rfl⟩
  rw [happly] at hreg
  cases hstores : e.storesFor uuid with
  | false =>
    -- what is left of a registration has its lease
    rw [applyTo_survive hstores] at hreg
    obtain ⟨reg₁, hreg₁, hsurvive⟩ := Option.bind_eq_some_iff.mp hreg
    exact Or.inl ⟨reg₁, hreg₁, by rw [survive_eq hsurvive]⟩
  | true =>
    cases e with
    | stored authorization stored replaced =>
      obtain ⟨-, i, reg₀, -, hput, rfl⟩ := hwritten
      have huuid : reg₀.playerUUID = uuid := of_decide_eq_true hstores
      simp only [Entry.applyTo, huuid, if_true, Option.some.injEq] at hreg
      subst hreg
      refine Or.inr ⟨fun u => hfresh.notMem hput u, mem_leasesOf.mpr ?_⟩
      rw [hlog]
      exact ⟨authorization, _, replaced, List.mem_cons_self, huuid, rfl⟩
    | _ => cases hstores

/-- The player's registration does not come back to an older lease. -/
theorem registration_step (hfresh : FreshInv ids w) (hswapped : Swapped w.log uuid older)
    (h : ∀ reg, w.shared.registrations.lookup uuid = some reg → reg.leaseID ∉ older)
    (hstep : step r ids w a = some w') :
    ∀ reg, w'.shared.registrations.lookup uuid = some reg → reg.leaseID ∉ older := by
  intro reg hreg
  rcases registration_of_step hfresh hstep hreg with ⟨reg₁, hreg₁, hlease⟩ | ⟨hnew, -⟩
  · exact hlease ▸ h reg₁ hreg₁
  · exact fun hmem => hnew uuid (hswapped.subset hmem)

/-- **What is cut off stays cut off.** -/
theorem Cut.step (h : Cut w uuid older) (hfresh : FreshInv ids w)
    (hswapped : Swapped w.log uuid older) (hstep : Voice.step r ids w a = some w') :
    Cut w' uuid older := by
  have he := step_effect hstep
  refine ⟨registration_step hfresh hswapped h.registration hstep, ?_, ?_⟩
  · rintro key sess hsess ⟨huuid, hlease⟩
    rcases he.sessions key sess hsess with hsess | ⟨-, d, reg, hudp⟩
    · exact h.table key sess hsess ⟨huuid, hlease⟩
    · refine h.udp sess.leaseID hlease ?_
      rw [hudp, ← huuid]
      rfl
  · intro leaseID hlease hpending
    rcases he.pending uuid leaseID hpending with hpending | ⟨reg, hreg, rfl⟩
    · exact h.udp leaseID hlease hpending
    · exact h.registration reg hreg hlease

/-- **What is silent stays silent.** -/
theorem Silent.step (h : Silent w uuid older) (hfresh : FreshInv ids w)
    (hswapped : Swapped w.log uuid older) (hstep : Voice.step r ids w a = some w') :
    Silent w' uuid older := by
  have he := step_effect hstep
  refine ⟨h.toCut.step hfresh hswapped hstep, ?_, ?_⟩
  · intro d reg sess hudp holder
    rcases he.writing d reg sess hudp with hudp | ⟨key, hsess⟩ | hpending
    · exact he.sockets sess.id (h.writing d reg sess hudp holder)
    · exact absurd holder (h.table key sess hsess)
    · refine absurd ?_ (h.udp sess.leaseID holder.2)
      rw [hpending, holder.1]
  · intro sess payload hmem holder
    rcases he.readers sess payload hmem with hmem | ⟨key, hsess⟩
    · exact h.readers sess payload hmem holder
    · exact h.table key sess hsess holder

/-- **Nothing of an older lease is written in silence.** -/
theorem Silent.not_uses (h : Silent w uuid older) {e : Entry} (he : e.WrittenIn a w) :
    ¬ e.uses uuid older := by
  intro huses
  cases e with
  | inserted sess =>
    obtain ⟨d, reg, hudp⟩ := he
    refine h.udp sess.leaseID huses.2 ?_
    rw [hudp, ← huses.1]
    rfl
  | wroteBackend sess payload =>
    obtain ⟨hopen, d, reg, hudp, -⟩ := he
    exact hopen (h.writing d reg sess hudp huses)
  | wroteClient sess payload => exact h.readers sess payload he huses
  | _ => exact huses

/-- A `PUT` that is to close sessions was to do so before or has just
replaced a registration. -/
theorem closing_of_step (hstep : step r ids w a = some w') {status : ℕ}
    (hmem : .closing uuid status (some older) ∈ w'.requests) :
    .closing uuid status (some older) ∈ w.requests ∨
      ∃ (i : ℕ) (authorization : GoString) (reg₀ reg old : Registration),
        w.requests[i]? = some (.put authorization reg₀) ∧ reg.playerUUID = uuid ∧
        reg.leaseID = reg₀.leaseID ∧ older = leasesOf uuid w.log ∧
        w'.log = .stored authorization reg (some old) :: w.log := by
  rcases requests_of_step hstep with hsame | ⟨req, -, hreq⟩ | ⟨i, -, hi⟩
  · exact Or.inl (hsame ▸ hmem)
  · rw [hreq] at hmem
    rcases List.mem_append.mp hmem with hmem | hmem
    · exact Or.inl hmem
    · exact absurd (List.mem_singleton.mp hmem).symm ((accept_start req).1 _ _ _)
  · obtain ⟨q, hrequests, hq⟩ := handlerStep_cases hi
    rw [hrequests] at hmem
    rcases List.mem_or_eq_of_mem_set hmem with hmem | rfl
    · exact Or.inl hmem
    rcases hq with ⟨_, hq⟩ | ⟨_, hq, _⟩ | ⟨authorization, reg₀, reg, old, hput, hq, hlease, hlog⟩ |
      ⟨_, _, _, _, hq, _⟩ | ⟨_, _, _, _, _, _, hq⟩
    · cases hq
    · cases hq
    · cases hq
      exact Or.inr ⟨i, authorization, reg₀, reg, old, hput, rfl, hlease, rfl, hlog⟩
    · cases hq
    · cases hq

/-- A `PUT` that is to close sockets was to do so before or has just taken
the sessions out. -/
theorem sockets_of_step (hstep : step r ids w a = some w') {sessions : List Session} {status : ℕ}
    (hmem : .sockets sessions uuid status (some older) ∈ w'.requests) :
    (∃ sessions', .sockets sessions' uuid status (some older) ∈ w.requests) ∨
      ∃ i : ℕ, a = .handler i ∧ w.requests[i]? = some (.closing uuid status (some older)) ∧
        w'.shared = (w.shared.closeSessionsForUUID uuid).2 ∧ w'.udp = w.udp := by
  rcases requests_of_step hstep with hsame | ⟨req, -, hreq⟩ | ⟨i, ha, hi⟩
  · exact Or.inl ⟨sessions, hsame ▸ hmem⟩
  · rw [hreq] at hmem
    rcases List.mem_append.mp hmem with hmem | hmem
    · exact Or.inl ⟨sessions, hmem⟩
    · exact absurd (List.mem_singleton.mp hmem).symm ((accept_start req).2 _ _ _ _)
  · obtain ⟨q, hrequests, hq⟩ := handlerStep_cases hi
    rw [hrequests] at hmem
    rcases List.mem_or_eq_of_mem_set hmem with hmem | rfl
    · exact Or.inl ⟨sessions, hmem⟩
    rcases hq with ⟨_, hq⟩ | ⟨_, hq, _⟩ | ⟨_, _, _, _, _, hq, _⟩ |
      ⟨uuid, status, older, hclosing, hq, rfl⟩ |
      ⟨sess, sessions, uuid, status, older, hsockets, hq⟩
    · cases hq
    · cases hq
    · cases hq
    · cases hq
      exact Or.inr ⟨i, ha, hclosing, rfl, rfl⟩
    · cases hq
      exact Or.inl ⟨sess :: sessions, List.mem_of_getElem? hsockets⟩

/-- A `PUT` that has replaced a registration and not answered had done so
before, or has just replaced it. -/
theorem replacing_of_step (hstep : step r ids w a = some w') {i : ℕ} {q' : Request}
    (hq' : w'.requests[i]? = some q') (hreplacing : q'.replacing = some (uuid, older)) :
    (∃ q, w.requests[i]? = some q ∧ q.replacing = some (uuid, older)) ∨
      ∃ authorization reg₀ old, a = .handler i ∧
        w.requests[i]? = some (.put authorization reg₀) ∧
        w.shared.registrations.lookup reg₀.playerUUID = some old := by
  rcases requests_of_step hstep with hsame | ⟨req, -, hreq⟩ | ⟨j, ha, hj⟩
  · exact Or.inl ⟨q', hsame ▸ hq', hreplacing⟩
  · rw [hreq] at hq'
    rcases System.getElem?_concat_cases hq' with hq' | ⟨-, rfl⟩
    · exact Or.inl ⟨q', hq', hreplacing⟩
    · unfold Request.replacing at hreplacing
      split at hreplacing
      · rename_i heq
        exact absurd heq ((accept_start req).1 _ _ _)
      · rename_i heq
        exact absurd heq ((accept_start req).2 _ _ _ _)
      · cases hreplacing
  · obtain ⟨q, hrequests, hq⟩ := handlerStep_cases hj
    rw [hrequests] at hq'
    rcases System.getElem?_set_cases hq' with ⟨rfl, rfl⟩ | ⟨-, hq'⟩
    · rcases hq with ⟨_, rfl⟩ | ⟨_, rfl, _⟩ | ⟨authorization, reg₀, reg, old, hput, -, -, hlog⟩ |
        ⟨_, _, leases, hclosing, rfl, _⟩ | ⟨_, _, _, _, leases, hsockets, rfl⟩
      · cases hreplacing
      · cases hreplacing
      · obtain ⟨⟨hold, j, reg₁, hj', hput', hreg⟩, -⟩ := (step_effect hstep).log.written hlog
        rw [ha] at hj'
        cases hj'
        rw [hput] at hput'
        cases hput'
        exact Or.inr ⟨authorization, reg₀, old, ha, hput, by rw [← hold, hreg]⟩
      · cases leases <;> exact Or.inl ⟨_, hclosing, hreplacing⟩
      · cases leases <;> exact Or.inl ⟨_, hsockets, hreplacing⟩
    · exact Or.inl ⟨q', hq', hreplacing⟩

end Steps

/-! ## The invariant -/

/-- From the swap to the closing of the sessions the registration has a
newer lease; from then to the answer the player is cut off; after it there
is silence. A `PUT` that has timed out since the swap is one that
answered. -/
structure ReassignInv (ids : LeaseIDs) (w : World) : Prop where
  fresh : FreshInv ids w
  closing : ∀ uuid status older, .closing uuid status (some older) ∈ w.requests →
    Swapped w.log uuid older ∧
      ∀ reg, w.shared.registrations.lookup uuid = some reg → reg.leaseID ∉ older
  sockets : ∀ sessions uuid status older, .sockets sessions uuid status (some older) ∈ w.requests →
    Swapped w.log uuid older ∧ Cut w uuid older
  answered : ∀ uuid older, .answered uuid older ∈ w.log →
    Swapped w.log uuid older ∧ Silent w uuid older
  log : ∀ later uuid older earlier, w.log = later ++ .answered uuid older :: earlier →
    Swapped earlier uuid older ∧ ∀ e ∈ later, ¬ e.uses uuid older
  timedOut : ∀ i ∈ w.timedOut, i < w.requests.length ∧
    ∀ q uuid older, w.requests[i]? = some q → q.replacing = some (uuid, older) →
      .answered uuid older ∈ w.log

section Invariant

variable {r : Runtime} {ids : LeaseIDs} {a : Action} {w w' : World}

theorem ReassignInv.boot (now : ℤ) : ReassignInv ids (boot now) where
  fresh := ⟨fun i authorization reg h => by simp [Voice.boot] at h,
    fun authorization reg replaced h => by simp [Voice.boot] at h⟩
  closing uuid status older h := by simp [Voice.boot] at h
  sockets sessions uuid status older h := by simp [Voice.boot] at h
  answered uuid older h := by simp [Voice.boot] at h
  log later uuid older earlier h := by simp [Voice.boot] at h
  timedOut i h := by simp [Voice.boot] at h

theorem Swapped.step {uuid : UUID} {older : List GoString} (h : Swapped w.log uuid older)
    (hstep : Voice.step r ids w a = some w') : Swapped w'.log uuid older := by
  rcases (step_effect hstep).log with ⟨hlog, -⟩ | ⟨e, hlog, -⟩ <;> rw [hlog]
  · exact h
  · exact h.cons e

/-- The section that swaps the registration. -/
theorem ReassignInv.closing_step (h : ReassignInv ids w) (hstep : Voice.step r ids w a = some w')
    {uuid : UUID} {status : ℕ} {older : List GoString}
    (hmem : .closing uuid status (some older) ∈ w'.requests) :
    Swapped w'.log uuid older ∧
      ∀ reg, w'.shared.registrations.lookup uuid = some reg → reg.leaseID ∉ older := by
  rcases closing_of_step hstep hmem with hmem | ⟨i, authorization, reg₀, reg, old, hput, rfl, hlease,
    rfl, hlog⟩
  · obtain ⟨hswapped, hreg⟩ := h.closing uuid status older hmem
    exact ⟨hswapped.step hstep, registration_step h.fresh hswapped hreg hstep⟩
  · refine ⟨⟨[], authorization, reg, old, w.log, hlog, rfl, rfl⟩, fun reg' hreg' => ?_⟩
    obtain ⟨-, -, happly⟩ := (step_effect hstep).log.written hlog
    rw [happly] at hreg'
    simp only [Entry.applyTo, if_true, Option.some.injEq] at hreg'
    rw [← hreg', hlease]
    exact h.fresh.notMem hput reg.playerUUID

/-- The section that takes the sessions out. -/
theorem ReassignInv.sockets_step (h : ReassignInv ids w) (hcond : Undisturbed w a)
    (hstep : Voice.step r ids w a = some w') {sessions : List Session} {uuid : UUID} {status : ℕ}
    {older : List GoString} (hmem : .sockets sessions uuid status (some older) ∈ w'.requests) :
    Swapped w'.log uuid older ∧ Cut w' uuid older := by
  rcases sockets_of_step hstep hmem with ⟨sessions', hmem⟩ | ⟨i, rfl, hclosing, hshared, hudp⟩
  · obtain ⟨hswapped, hcut⟩ := h.sockets sessions' uuid status older hmem
    exact ⟨hswapped.step hstep, hcut.step h.fresh hswapped hstep⟩
  · obtain ⟨hswapped, hreg⟩ := h.closing uuid status older (List.mem_of_getElem? hclosing)
    simp only [Undisturbed, hclosing] at hcond
    refine ⟨hswapped.step hstep, registration_step h.fresh hswapped hreg hstep, ?_, ?_⟩
    · intro key sess hsess holder
      rw [hshared] at hsess
      exact ((lookup_closeSessionsForUUID uuid key sess).mp hsess).2 holder.1
    · rw [World.NonePending, hudp]
      exact hcond

/-- The answer, of the handler or of the timeout. -/
theorem ReassignInv.silent_of_answer (h : ReassignInv ids w) {uuid : UUID} {older : List GoString}
    (hcond : Undisturbed w a) (hwritten : (Entry.answered uuid older).WrittenIn a w) :
    Swapped w.log uuid older ∧ Silent w uuid older := by
  rcases hwritten with ⟨i, status, rfl, hsockets⟩ | ⟨i, q, rfl, hq, hreplacing⟩
  · obtain ⟨hswapped, hcut⟩ := h.sockets [] uuid status older (List.mem_of_getElem? hsockets)
    simp only [Undisturbed, hsockets] at hcond
    exact ⟨hswapped, hcut.silent hcond⟩
  · unfold Request.replacing at hreplacing
    split at hreplacing
    · -- the sessions are still in the table
      obtain ⟨rfl, rfl⟩ := Prod.mk.inj (Option.some.inj hreplacing)
      obtain ⟨hswapped, hreg⟩ := h.closing _ _ _ (List.mem_of_getElem? hq)
      simp only [Undisturbed, hq] at hcond
      obtain ⟨htable, hpending, hquiet⟩ := hcond
      refine ⟨hswapped, Cut.silent ⟨hreg, fun key sess hsess => ?_, hpending⟩ hquiet⟩
      exact htable sess (GoMap.mem_values.mpr ⟨key, hsess⟩)
    · obtain ⟨rfl, rfl⟩ := Prod.mk.inj (Option.some.inj hreplacing)
      obtain ⟨hswapped, hcut⟩ := h.sockets _ _ _ _ (List.mem_of_getElem? hq)
      simp only [Undisturbed, hq] at hcond
      exact ⟨hswapped, hcut.silent hcond⟩
    · cases hreplacing

/-- **The step lemma for timeouts.** -/
theorem ReassignInv.timedOut_step (h : ReassignInv ids w) (hcond : Undisturbed w a)
    (hstep : Voice.step r ids w a = some w') {i : ℕ} (hi : i ∈ w'.timedOut) :
    i < w'.requests.length ∧ ∀ q uuid older, w'.requests[i]? = some q →
      q.replacing = some (uuid, older) → .answered uuid older ∈ w'.log := by
  have hlength := length_requests hstep
  rcases timedOut_of_step hstep hi with hi | rfl
  · obtain ⟨hlt, hlogged⟩ := h.timedOut i hi
    refine ⟨by omega, fun q' uuid older hq' hreplacing => ?_⟩
    rcases replacing_of_step hstep hq' hreplacing with ⟨q, hq, hq₁⟩ | ⟨_, reg, old, rfl, hput, hold⟩
    · have hmem := hlogged q uuid older hq hq₁
      rcases (step_effect hstep).log with ⟨hlog, -⟩ | ⟨e, hlog, -⟩
      · rwa [hlog]
      · rw [hlog]
        exact List.mem_cons_of_mem e hmem
    · -- a `PUT` that has timed out before replaces nothing
      simp only [Undisturbed, hput] at hcond
      rw [hcond hi] at hold
      cases hold
  · obtain ⟨q, hq, -, rfl⟩ := timeout_eq hstep
    refine ⟨(List.getElem?_eq_some_iff.mp hq).1, fun q' uuid older hq' hreplacing => ?_⟩
    obtain rfl : q = q' := Option.some.inj (hq.symm.trans hq')
    simp only [hreplacing]
    exact List.mem_cons_self

/-- **The step lemma.** -/
theorem ReassignInv.step (h : ReassignInv ids w) (hcond : Undisturbed w a)
    (hstep : Voice.step r ids w a = some w') : ReassignInv ids w' := by
  have hkeep : ∀ uuid older, .answered uuid older ∈ w.log →
      Swapped w'.log uuid older ∧ Silent w' uuid older := by
    intro uuid older hmem
    obtain ⟨hswapped, hsilent⟩ := h.answered uuid older hmem
    exact ⟨hswapped.step hstep, hsilent.step h.fresh hswapped hstep⟩
  have hrest : (∀ uuid older, .answered uuid older ∈ w'.log →
        Swapped w'.log uuid older ∧ Silent w' uuid older) ∧
      ∀ later uuid older earlier, w'.log = later ++ .answered uuid older :: earlier →
        Swapped earlier uuid older ∧ ∀ e ∈ later, ¬ e.uses uuid older := by
    rcases (step_effect hstep).log with ⟨hlog, -⟩ | ⟨e, hlog, hwritten, -⟩
    · rw [hlog]
      exact ⟨fun uuid older hmem => hlog ▸ hkeep uuid older hmem, h.log⟩
    constructor
    · intro uuid older hmem
      rw [hlog] at hmem
      rcases List.mem_cons.mp hmem with rfl | hmem
      · obtain ⟨hswapped, hsilent⟩ := h.silent_of_answer hcond hwritten
        exact ⟨hswapped.step hstep, hsilent.step h.fresh hswapped hstep⟩
      · exact hkeep uuid older hmem
    · intro later uuid older earlier heq
      rw [hlog] at heq
      cases later with
      | nil =>
        obtain ⟨rfl, rfl⟩ := List.cons.inj heq
        exact ⟨(h.silent_of_answer hcond hwritten).1, by simp⟩
      | cons x later =>
        obtain ⟨rfl, htail⟩ := List.cons.inj heq
        obtain ⟨hswapped, hlater⟩ := h.log later uuid older earlier htail
        -- the new entry is written in silence
        have hsilent := (h.answered uuid older (by rw [htail]; simp)).2
        exact ⟨hswapped, List.forall_mem_cons.mpr ⟨hsilent.not_uses hwritten, hlater⟩⟩
  exact
    { fresh := h.fresh.step hstep
      closing := fun uuid status older hmem => h.closing_step hstep hmem
      sockets := fun sessions uuid status older hmem => h.sockets_step hcond hstep hmem
      answered := hrest.1
      log := hrest.2
      timedOut := fun i hi => h.timedOut_step hcond hstep hi }

end Invariant

/-- **Reassignment cuts off the old backend**, in every run in which the
goroutines are undisturbed. Once a `PUT` that replaced a player's
registration has answered, no session of a lease stored for the player
before is in the table, none comes into it, and nothing is written through
one to its backend or to the client. A `PUT` that was answered by the
timeout while its handler goes on is one that has answered. -/
theorem reassignment_cuts_off (r : Runtime) (ids : LeaseIDs) (now : ℤ) (actions : List Action)
    (hmeets : System.Meets (step r ids) Undisturbed (boot now) actions) (w : World)
    (hrun : System.run (step r ids) (boot now) actions = some w) :
    (∀ later uuid older earlier, w.log = later ++ .answered uuid older :: earlier →
      Swapped earlier uuid older ∧
      (∀ key sess, w.shared.sessions.lookup key = some sess → ¬ sess.ofOlder uuid older) ∧
      ∀ e ∈ later, ¬ e.uses uuid older) ∧
    ∀ i ∈ w.timedOut, ∀ q uuid older, w.requests[i]? = some q →
      q.replacing = some (uuid, older) → .answered uuid older ∈ w.log := by
  have hinv : ReassignInv ids w :=
    System.run_invariant (fun _ _ _ h hcond hstep => h.step hcond hstep) actions _ w (.boot now)
      hmeets hrun
  refine ⟨fun later uuid older earlier hlog => ?_, fun i hi => (hinv.timedOut i hi).2⟩
  obtain ⟨hswapped, hlater⟩ := hinv.log later uuid older earlier hlog
  have hsilent := (hinv.answered uuid older (by rw [hlog]; simp)).2
  exact ⟨hswapped, hsilent.table, hlater⟩

/-! ## A packet on its way -/

/-- A player is registered with one backend and talks; while the packet is
on its way another backend registers the player and gets its answer. Then
the packet goes on, and the old backend replies. -/
def packetOnItsWay : List Action :=
  [.request (registerAlex (go "lobby-token")), .handler 0, .receive alexAddr alexPacket, .udp false,
    .udp false, .udp false, .request (registerAlex (go "survival-token")), .handler 1, .handler 1,
    .handler 1, .udp false, .udp false, .udp false, .backendRead 0 (some [9]), .reader 0 false,
    .reader 0 false]

/-- **The old backend is not cut off.** After the answer a session of the
old lease is inserted, the packet is written to the old backend and its
reply to the client, and the session stays in the table. -/
theorem stale_session_after_answer :
    ∃ w, System.run (step demoRuntime numberedLeases) (boot 0) packetOnItsWay = some w ∧
      (w.shared.registrations.lookup alex).map (·.backendID) = some (go "survival") ∧
      ∃ sess older earlier, w.log =
          [.wroteClient sess [9], .wroteBackend sess alexPacket, .inserted sess] ++
            .answered alex older :: earlier ∧
        sess.backendID = go "lobby" ∧ sess.ofOlder alex older ∧
        w.shared.sessions.lookup sess.key = some sess := by
  refine ⟨_, rfl, by decide +kernel,
    newSession 0 alex alexAddr ⟨alex, go "lobby", go "owner", Strings.itoa 0, 1, 90⟩,
    [Strings.itoa 0], _, rfl, rfl, by decide +kernel, by decide +kernel⟩

/-- A player who is reassigned between two packets, by a `PUT` that is slow
to answer. -/
theorem reassignment_cuts_off_between :
    let actions : List Action := [.request (registerAlex (go "lobby-token")), .handler 0,
      .receive alexAddr alexPacket, .udp false, .udp false, .udp false, .udp false, .udp false,
      .udp false, .request (registerAlex (go "survival-token")), .handler 1, .handler 1, .handler 1,
      .timeout 1, .handler 1, .receive alexAddr alexPacket, .udp false, .udp false, .udp false,
      .udp false, .udp false, .udp false]
    System.Meets (step demoRuntime numberedLeases) Undisturbed (boot 0) actions ∧
    ∃ w, System.run (step demoRuntime numberedLeases) (boot 0) actions = some w ∧
      ∃ later earlier, w.log = later ++ .answered alex [Strings.itoa 0] :: earlier ∧
        (∃ sess, .wroteBackend sess alexPacket ∈ later) ∧
        ∀ e ∈ later, ¬ e.uses alex [Strings.itoa 0] := by
  intro actions
  have hmeets : System.Meets (step demoRuntime numberedLeases) Undisturbed (boot 0) actions := by
    decide +kernel
  let sess := newSession 1 alex alexAddr ⟨alex, go "survival", go "owner", Strings.itoa 1, 2, 90⟩
  let reg : Registration := ⟨alex, go "survival", go "owner", Strings.itoa 1, 2, 90⟩
  refine ⟨hmeets, _, rfl, [.wroteBackend sess alexPacket, .inserted sess,
    .looked alex 0 (some reg), .received alexAddr alexPacket], _, rfl, ?_, ?_⟩
  · exact ⟨sess, List.mem_cons_self⟩
  · exact ((reassignment_cuts_off demoRuntime numberedLeases 0 actions hmeets _ rfl).1
      _ _ _ _ rfl).2.2

end Voice

end McRouter
