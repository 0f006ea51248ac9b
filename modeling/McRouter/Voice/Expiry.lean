import McRouter.Voice.Lease

/-!
# Expired leases

A registration whose deadline has passed is dead to `lookupRegistration` and
to `expireRegistrations`, which remove it when they come across it. Nothing
but a `PUT` should bring the player back. `handleRefreshRegistration` does
not look at the deadline: a refresh that comes before the next datagram of
the player and before the next sweep finds the dead registration and gives
it a new one (`expired_lease_revived`). In a run without such a refresh the
player stays unknown until a `PUT` (`expired_lease_stays_dead`).
-/

namespace McRouter

namespace Voice

open Net

/-- The step is the section of a refresh that finds the registration of the
player, held by whoever asks, past its deadline. -/
def lateRefresh (uuid : UUID) (w : World) : Action → Bool
  | .handler i =>
    match w.requests[i]? with
    | some (.refresh u backendID ownerID leaseID) =>
      match w.shared.registrations.lookup u with
      | some reg =>
        decide (u = uuid ∧ reg.heldBy backendID ownerID leaseID ∧ reg.expiresAt < w.now)
      | none => false
    | _ => false
  | _ => false

/-- The refreshes of the player come in time. -/
def RefreshesInTime (uuid : UUID) (w : World) (a : Action) : Prop := lateRefresh uuid w a = false

instance (uuid : UUID) (w : World) (a : Action) : Decidable (RefreshesInTime uuid w a) :=
  inferInstanceAs (Decidable (_ = _))

section Sections

variable {r : Runtime} {ids : LeaseIDs} {a : Action} {w w' : World} {uuid : UUID}

/-- What a late refresh finds. -/
theorem lateRefresh_iff : lateRefresh uuid w a = true ↔
    ∃ (i : ℕ) (backendID ownerID leaseID : GoString) (reg : Registration), a = .handler i ∧
      w.requests[i]? = some (.refresh uuid backendID ownerID leaseID) ∧
      w.shared.registrations.lookup uuid = some reg ∧ reg.heldBy backendID ownerID leaseID ∧
      reg.expiresAt < w.now := by
  constructor
  · intro h
    unfold lateRefresh at h
    split at h
    · rename_i i
      split at h
      · rename_i u backendID ownerID leaseID hrequest
        split at h
        · rename_i reg hreg
          obtain ⟨rfl, hheld, hexpired⟩ := of_decide_eq_true h
          exact ⟨i, backendID, ownerID, leaseID, reg, rfl, hrequest, hreg, hheld, hexpired⟩
        · cases h
      · cases h
    · cases h
  · rintro ⟨i, backendID, ownerID, leaseID, reg, rfl, hrequest, hreg, hheld, hexpired⟩
    simp only [lateRefresh, hrequest, hreg, decide_eq_true_iff]
    exact ⟨trivial, hheld, hexpired⟩

/-- An entry that is not a refresh by the holder leaves a registration as it
is, or takes it away. -/
theorem survive_same {e : Entry} {reg reg' : Registration} (h : e.survive uuid reg = some reg')
    (hnot : ∀ backendID ownerID leaseID expiresAt,
      e = .refreshed uuid backendID ownerID leaseID expiresAt →
      ¬ reg.heldBy backendID ownerID leaseID) : reg' = reg := by
  cases e with
  | refreshed u backendID ownerID leaseID expiresAt =>
    simp only [Entry.survive] at h
    split_ifs at h with hheld
    · obtain ⟨rfl, hheld⟩ := hheld
      exact absurd hheld (hnot _ _ _ _ rfl)
    · exact (Option.some.inj h).symm
  | deleted u backendID ownerID leaseID =>
    simp only [Entry.survive] at h
    split_ifs at h
    exact (Option.some.inj h).symm
  | looked u now found =>
    simp only [Entry.survive] at h
    split_ifs at h
    exact (Option.some.inj h).symm
  | swept now =>
    simp only [Entry.survive] at h
    split_ifs at h
    exact (Option.some.inj h).symm
  | closed => cases h
  | _ => exact (Option.some.inj h).symm

/-- **A dead registration is not touched.** A step that is neither a late
refresh nor a `PUT` of the player leaves an expired registration as it is, or
takes it away. -/
theorem step_expired (hstep : step r ids w a = some w') (hintime : RefreshesInTime uuid w a)
    (hput : ∀ e, w'.log = e :: w.log → e.storesFor uuid = false) {reg' : Registration}
    (hreg' : w'.shared.registrations.lookup uuid = some reg') :
    w.shared.registrations.lookup uuid = some reg' ∨
      ∃ reg, w.shared.registrations.lookup uuid = some reg ∧ ¬ reg.expiresAt < w.now := by
  rcases (step_effect hstep).log with ⟨-, htable⟩ | ⟨e, hlog, hwritten, -, htable⟩
  · exact Or.inl (htable uuid ▸ hreg')
  rw [htable, applyTo_survive (hput e hlog)] at hreg'
  obtain ⟨reg, hreg, hsurvive⟩ := Option.bind_eq_some_iff.mp hreg'
  by_cases hexpired : reg.expiresAt < w.now
  · -- a refresh by the holder would be late
    have hsame : reg' = reg := by
      refine survive_same hsurvive fun backendID ownerID leaseID expiresAt he hheld => ?_
      subst he
      obtain ⟨i, rfl, hrequest⟩ := hwritten
      have hlate : lateRefresh uuid w (.handler i) = true :=
        lateRefresh_iff.mpr ⟨i, _, _, _, reg, rfl, hrequest, hreg, hheld, hexpired⟩
      exact absurd hlate (Bool.eq_false_iff.mp hintime)
    exact Or.inl (hsame ▸ hreg)
  · exact Or.inr ⟨reg, hreg, hexpired⟩

/-- A late refresh brings the player back. -/
theorem lateRefresh_revives (httl : 0 ≤ r.cfg.registrationTTL) (hstep : step r ids w a = some w')
    (hlate : lateRefresh uuid w a = true) :
    w'.now = w.now ∧ ∃ reg', (w'.shared.lookupRegistration w'.now uuid).1 = .ok reg' := by
  obtain ⟨i, backendID, ownerID, leaseID, reg, rfl, hrequest, hreg, hheld, -⟩ :=
    lateRefresh_iff.mp hlate
  have hw' : w.handlerRefresh r i uuid backendID ownerID leaseID = w' := by
    simpa only [step, World.handlerStep, hrequest, Option.some.injEq] using hstep
  subst hw'
  let reg' : Registration := { reg with expiresAt := w.now + r.cfg.registrationTTL }
  have hlookup : (w.handlerRefresh r i uuid backendID ownerID leaseID).shared.registrations.lookup
      uuid = some reg' := by
    simp only [World.handlerRefresh, Shared.refreshRegistration, hreg, hheld, if_true,
      AList.lookup_insert, reg']
  have hnot : ¬ reg'.expiresAt < w.now := by
    have hle : w.now ≤ w.now + r.cfg.registrationTTL := Int.le_add_of_nonneg_right httl
    exact not_lt.mpr hle
  refine ⟨rfl, reg', ?_⟩
  show ((w.handlerRefresh r i uuid backendID ownerID leaseID).shared.lookupRegistration w.now uuid).1
    = .ok reg'
  simp only [Shared.lookupRegistration, hlookup, hnot, if_false]

end Sections

/-! ## Runs -/

/-- What holds from `w₀` on, where the clock has passed the deadline: either
a `PUT` of the player was accepted, or whatever is stored for the player has
a deadline no later than that one. -/
structure DeadSince (uuid : UUID) (deadline : ℤ) (w₀ w : World) : Prop where
  passed : deadline < w.now
  log : ∃ later, w.log = later ++ w₀.log ∧ ((∃ e ∈ later, e.storesFor uuid = true) ∨
    ∀ reg, w.shared.registrations.lookup uuid = some reg → reg.expiresAt ≤ deadline)

section Runs

variable {r : Runtime} {ids : LeaseIDs} {w₀ w : World} {uuid : UUID} {deadline : ℤ}

theorem DeadSince.step {a : Action} {w' : World} (h : DeadSince uuid deadline w₀ w)
    (hintime : RefreshesInTime uuid w a) (hstep : Voice.step r ids w a = some w') :
    DeadSince uuid deadline w₀ w' := by
  obtain ⟨later, hlog, hdead⟩ := h.log
  have heffect := step_effect hstep
  refine ⟨lt_of_lt_of_le h.passed heffect.now, ?_⟩
  -- the entries after the step, and that none is lost
  obtain ⟨new, hnew, hsub⟩ : ∃ new, w'.log = new ++ w₀.log ∧ ∀ e ∈ later, e ∈ new := by
    rcases heffect.log with ⟨hsame, -⟩ | ⟨e, he, -⟩
    · exact ⟨later, hsame.trans hlog, fun e he => he⟩
    · exact ⟨e :: later, by rw [he, hlog]; rfl, fun e' he' => List.mem_cons_of_mem e he'⟩
  refine ⟨new, hnew, ?_⟩
  rcases hdead with ⟨e, he, hstores⟩ | hdead
  · exact Or.inl ⟨e, hsub e he, hstores⟩
  by_cases hput : ∃ e ∈ new, e.storesFor uuid = true
  · exact Or.inl hput
  refine Or.inr fun reg' hreg' => ?_
  have hnone : ∀ e, w'.log = e :: w.log → e.storesFor uuid = false := by
    intro e he
    have happend : new ++ w₀.log = (e :: later) ++ w₀.log := by
      rw [← hnew, he, hlog]
      rfl
    have hcons : new = e :: later := List.append_cancel_right happend
    exact Bool.eq_false_iff.mpr fun hstores => hput ⟨e, by rw [hcons]; simp, hstores⟩
  rcases step_expired hstep hintime hnone hreg' with hreg | ⟨reg, hreg, hnot⟩
  · exact hdead reg' hreg
  · have hle := hdead reg hreg
    have hpassed := h.passed
    omega

/-- **An expired lease stays dead** until a `PUT`, in every run whose
refreshes come in time. From a state in which the clock has passed the
deadline of a player's registration, and as long as no `PUT` of the player
is accepted, no lookup whose clock is past that deadline succeeds for the
player. And the condition is the weakest: a late refresh makes the lookup
succeed. -/
theorem expired_lease_stays_dead (r : Runtime) (ids : LeaseIDs) (w : World) (uuid : UUID)
    (reg : Registration) (hreg : w.shared.registrations.lookup uuid = some reg)
    (hexpired : reg.expiresAt < w.now) :
    (∀ actions w', System.Meets (step r ids) (RefreshesInTime uuid) w actions →
      System.run (step r ids) w actions = some w' →
      ∃ later, w'.log = later ++ w.log ∧ ((∀ e ∈ later, e.storesFor uuid = false) →
        ∀ now, reg.expiresAt < now → ∀ reg', (w'.shared.lookupRegistration now uuid).1 ≠ .ok reg')) ∧
    (0 ≤ r.cfg.registrationTTL → ∀ actions w₁ a w₂, System.run (step r ids) w actions = some w₁ →
      step r ids w₁ a = some w₂ → ¬ RefreshesInTime uuid w₁ a →
      reg.expiresAt < w₂.now ∧ ∃ reg', (w₂.shared.lookupRegistration w₂.now uuid).1 = .ok reg') := by
  have hstart : DeadSince uuid reg.expiresAt w w :=
    ⟨hexpired, [], rfl, Or.inr fun reg' hreg' => by
      obtain rfl := Option.some.inj (hreg.symm.trans hreg')
      exact le_rfl⟩
  constructor
  · intro actions w' hmeets hrun
    have hdead : DeadSince uuid reg.expiresAt w w' :=
      System.run_invariant (fun _ _ _ h hcond hstep => h.step hcond hstep) actions w w' hstart
        hmeets hrun
    obtain ⟨later, hlog, hlater⟩ := hdead.log
    refine ⟨later, hlog, fun hnone now hnow reg' hok => ?_⟩
    rcases hlater with ⟨e, he, hstores⟩ | hbound
    · exact absurd hstores (Bool.eq_false_iff.mp (hnone e he))
    · obtain ⟨-, hreg', hnot⟩ := lookupRegistration_ok (Prod.ext hok rfl)
      have hle := hbound reg' hreg'
      omega
  · intro httl actions w₁ a w₂ hrun hstep hlate
    have hnow : w.now ≤ w₁.now :=
      System.run_invariant_of_step (I := fun w₁ => w.now ≤ w₁.now)
        (fun _ _ _ h hs => le_trans h (step_effect hs).now) le_rfl hrun
    obtain ⟨hnow', hok⟩ := lateRefresh_revives httl hstep (Bool.not_eq_false _ ▸ hlate)
    exact ⟨by omega, hok⟩

end Runs

/-! ## A refresh that beats the sweep -/

/-- The holder refreshes the lease of the player. -/
def refreshAlex : HTTPRequest where
  method := .post
  authorization := go "Bearer lobby-token"
  path := go "/v1/voicechat/registrations/a1a1a1a1-a1a1-a1a1-a1a1-a1a1a1a1a1a1/refresh"
  body := some { ownerID := go "owner", leaseID := Strings.itoa 0 }

/-- The player is registered for 90 seconds, and 91 seconds later the holder
asks for a refresh. -/
def refreshTooLate : List Action :=
  [.request (registerAlex (go "lobby-token")), .handler 0, .tick 91, .request refreshAlex]

/-- **A dead lease comes back to life.** The refresh is answered with 200 if
it is handled first, and then a lookup succeeds; after a datagram of the
player, or a sweep, it is answered with 409. -/
theorem expired_lease_revived :
    ∃ w reg, System.run (step demoRuntime numberedLeases) (boot 0) refreshTooLate = some w ∧
      w.shared.registrations.lookup alex = some reg ∧ reg.expiresAt < w.now ∧
      (∃ w', System.run (step demoRuntime numberedLeases) w [.handler 1] = some w' ∧
        w'.requests[1]? = some (.answered 200) ∧
        ∃ reg', (w'.shared.lookupRegistration w'.now alex).1 = .ok reg') ∧
      (∃ w', System.run (step demoRuntime numberedLeases) w
          [.receive alexAddr alexPacket, .udp false, .handler 1] = some w' ∧
        w'.requests[1]? = some (.answered 409)) ∧
      ∃ w', System.run (step demoRuntime numberedLeases) w [.sweeper, .sweeper, .handler 1] = some w' ∧
        w'.requests[1]? = some (.answered 409) := by
  refine ⟨_, ⟨alex, go "lobby", go "owner", Strings.itoa 0, 1, 90⟩, rfl, by decide +kernel,
    by decide +kernel, ⟨_, rfl, by decide +kernel,
      ⟨alex, go "lobby", go "owner", Strings.itoa 0, 1, 181⟩, by decide +kernel⟩,
    ⟨_, rfl, by decide +kernel⟩, ⟨_, rfl, by decide +kernel⟩⟩

/-- A player whose lease has run out, and a datagram of whom comes before
the refresh. -/
theorem expired_lease_stays_dead_alex :
    ∃ w reg w', System.run (step demoRuntime numberedLeases) (boot 0) refreshTooLate = some w ∧
      w.shared.registrations.lookup alex = some reg ∧ reg.expiresAt < w.now ∧
      System.run (step demoRuntime numberedLeases) w
        [.receive alexAddr alexPacket, .udp false, .handler 1] = some w' ∧
      ∀ reg', (w'.shared.lookupRegistration 91 alex).1 ≠ .ok reg' := by
  let actions : List Action := [.receive alexAddr alexPacket, .udp false, .handler 1]
  obtain ⟨w, hw⟩ : ∃ w, System.run (step demoRuntime numberedLeases) (boot 0) refreshTooLate =
      some w := ⟨_, rfl⟩
  have hreg : w.shared.registrations.lookup alex =
      some ⟨alex, go "lobby", go "owner", Strings.itoa 0, 1, 90⟩ := by
    obtain rfl := Option.some.inj hw
    decide +kernel
  have hexpired : (90 : ℤ) < w.now := by
    obtain rfl := Option.some.inj hw
    decide +kernel
  have hmeets : System.Meets (step demoRuntime numberedLeases) (RefreshesInTime alex) w actions := by
    obtain rfl := Option.some.inj hw
    decide +kernel
  obtain ⟨w', hw', hlog⟩ : ∃ w', System.run (step demoRuntime numberedLeases) w actions = some w' ∧
      ∀ later, w'.log = later ++ w.log → ∀ e ∈ later, e.storesFor alex = false := by
    obtain rfl := Option.some.inj hw
    refine ⟨_, rfl, fun later hlater => ?_⟩
    have hthree : [_, _, _] = later := List.append_cancel_right hlater
    rw [← hthree]
    decide +kernel
  obtain ⟨later, hlater, hdead⟩ := (expired_lease_stays_dead demoRuntime numberedLeases w alex _ hreg
    hexpired).1 actions w' hmeets hw'
  exact ⟨w, _, w', hw, hreg, hexpired, hw', hdead (hlog later hlater) 91 (by decide)⟩

end Voice

end McRouter
