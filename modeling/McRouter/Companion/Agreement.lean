import McRouter.Companion.Ends

/-!
# Companion and gateway agree on the lease

The manager and the gateway agree on the lease of a player once nothing is
under way (`lease_agreement`) if leases come to the map in the order in
which they were granted, no call of `registerBeforeUdp` throws after it was
granted one, and no `DELETE` of the lease that the gateway holds is lost.

None of this is seen to. Two threads that register the same player may come
to the map in the other order than their requests came to the gateway, and
the later one then deletes the lease that the gateway holds; and a `PUT`
that arrives after its call has given up and tried again replaces the lease
that is tracked (`lease_disagreement`).
-/

namespace McRouter

namespace Companion

open Voice Strings Unicode

/-! ## Undisturbed and orderly runs -/

/-- Nothing else touches the player's registration: no other backend
registers the player, and no lease expires. -/
def Alone (p : UUID) (w : World) : Action → Prop
  | .elsewhere shared => shared.registrations.lookup p = w.shared.registrations.lookup p
  | _ => True

/-- The call was granted a lease of the player. -/
def World.Granted (w : World) (p : UUID) (i : ℕ) : Prop :=
  ∃ m ∈ w.messages, m.call = some i ∧ m.grant p ≠ none

/-- The next piece of the call throws before it comes to the map. -/
def World.givesUp (w : World) (i : ℕ) : Bool :=
  match w.calls[i]? with
  | some (.register _ attempt) => 3 ≤ attempt
  | some (.granted _ _) => w.shutdown
  | _ => false

/-- The sender of the request is a `registerBeforeUdp` of the player that has
not come to the map. -/
def World.unsettled (w : World) (p : UUID) (m : Message) : Bool :=
  match m.call with
  | none => false
  | some i => (w.calls[i]?).any (·.pending p)

/-- **What keeps the two ends in order.** A `PUT` is handled only while its
call has not come to the map, and no lease granted before is on its way
there; a call that was granted a lease does not throw before it has come to
the map; and a `DELETE` of the lease that the gateway holds is not lost. -/
def Orderly (p : UUID) (w : World) : Action → Prop
  | .serve n => ∀ m ∈ w.messages[n]?, m.ask = .register p →
      w.unsettled p m = true ∧ ∀ c ∈ w.calls, w.carries p c = none
  | .lose n => ∀ m ∈ w.messages[n]?, ∀ g ∈ w.held p, ¬ m.deletes p g
  | .proceed i => w.givesUp i = true → ¬ w.Granted p i
  | .interrupt i => ¬ w.Granted p i
  | _ => True

instance decidableAlone (p : UUID) (w : World) : ∀ a, Decidable (Alone p w a)
  | .elsewhere shared => inferInstanceAs
      (Decidable (shared.registrations.lookup p = w.shared.registrations.lookup p))
  | .tick _ | .start _ | .proceed _ | .receive _ | .fail _ | .interrupt _ | .refresh _ | .task _
  | .work | .workFails | .serve _ | .lose _ => instDecidableTrue

instance decidableGranted (w : World) (p : UUID) (i : ℕ) : Decidable (w.Granted p i) :=
  inferInstanceAs (Decidable (∃ m ∈ w.messages, m.call = some i ∧ m.grant p ≠ none))

instance decidableOrderly (p : UUID) (w : World) : ∀ a, Decidable (Orderly p w a)
  | .serve n => inferInstanceAs (Decidable (∀ m ∈ w.messages[n]?, m.ask = .register p →
      w.unsettled p m = true ∧ ∀ c ∈ w.calls, w.carries p c = none))
  | .lose n => inferInstanceAs
      (Decidable (∀ m ∈ w.messages[n]?, ∀ g ∈ w.held p, ¬ m.deletes p g))
  | .proceed i => inferInstanceAs (Decidable (w.givesUp i = true → ¬ w.Granted p i))
  | .interrupt i => inferInstanceAs (Decidable (¬ w.Granted p i))
  | .tick _ | .start _ | .receive _ | .fail _ | .refresh _ | .task _ | .work | .workFails
  | .elsewhere _ => instDecidableTrue

/-! ## The invariant -/

/-- What is known of the requests, the calls and the gateway. -/
structure Sound (r : Runtime) (config : CompanionConfig) (bytes : LeaseBytes) (p : UUID)
    (w : World) : Prop where
  /-- A grant is the lease that was made for its request. -/
  named : ∀ (n : ℕ) m leaseID, w.messages[n]? = some m → m.grant p = some leaseID →
    bytes.ids.newLeaseID n = some leaseID
  sender : ∀ m ∈ w.messages, ∀ i, m.call = some i → i < w.calls.length
  waits : ∀ (i : ℕ) q attempt (n : ℕ), w.calls[i]? = some (.putting q attempt n) →
    ∃ m, w.messages[n]? = some m ∧ m.call = some i ∧ m.ask = .register q
  owner : ∀ reg, w.shared.registrations.lookup p = some reg →
    Known r config reg.backendID ∧ reg.ownerID = config.instanceId
  /-- A refresh is answered with the lease it was made for. -/
  refreshes : ∀ m ∈ w.messages, ∀ q lease leaseID expiresAt, m.ask = .refresh q lease →
    m.delivery = .answered (.registration leaseID expiresAt) → leaseID = lease.leaseId
  refreshing : ∀ q tracked n, w.worker = .refreshing q tracked n →
    ∃ m, w.messages[n]? = some m ∧ m.ask = .refresh q tracked.lease
  refreshed : ∀ q tracked lease, w.worker = .refreshed q tracked lease →
    lease.leaseId = tracked.lease.leaseId

section Sound

variable {r : Runtime} {config : CompanionConfig} {bytes : LeaseBytes} {p : UUID} {w w' : World}

theorem Sound.boot (now : ℤ) : Sound r config bytes p (boot now) where
  named n m leaseID hm := by simp [Companion.boot] at hm
  sender m hm := by simp [Companion.boot] at hm
  waits i q attempt n hc := by simp [Companion.boot] at hc
  owner reg hreg := by simp [Companion.boot] at hreg
  refreshes m hm := by simp [Companion.boot] at hm
  refreshing q tracked n h := by simp [Companion.boot] at h
  refreshed q tracked lease h := by simp [Companion.boot] at h

/-- What the invariant does not look at may change. -/
theorem Sound.same (h : Sound r config bytes p w) (hmessages : w'.messages = w.messages)
    (hcalls : w'.calls = w.calls)
    (hworker : w'.worker = w.worker ∨ w'.worker = .idle ∨ ∃ n, w'.worker = .deleting n)
    (hshared : w'.shared.registrations.lookup p = w.shared.registrations.lookup p) :
    Sound r config bytes p w' where
  named := hmessages ▸ h.named
  sender := hmessages ▸ hcalls ▸ h.sender
  waits := hmessages ▸ hcalls ▸ h.waits
  owner := hshared ▸ h.owner
  refreshes := hmessages ▸ h.refreshes
  refreshing q tracked n hw := by
    rcases hworker with hsame | hidle | ⟨n', hdeleting⟩
    · rw [hmessages]
      exact h.refreshing q tracked n (hsame ▸ hw)
    · exact absurd (hidle.symm.trans hw) nofun
    · exact absurd (hdeleting.symm.trans hw) nofun
  refreshed q tracked lease hw := by
    rcases hworker with hsame | hidle | ⟨n', hdeleting⟩
    · exact h.refreshed q tracked lease (hsame ▸ hw)
    · exact absurd (hidle.symm.trans hw) nofun
    · exact absurd (hdeleting.symm.trans hw) nofun

/-- A request is sent. -/
theorem Sound.send (h : Sound r config bytes p w) {call : Option ℕ}
    (hcall : ∀ i, call = some i → i < w.calls.length) (ask : Ask) :
    Sound r config bytes p (w.send call ask) := by
  have hkeep : ∀ n m, w.messages[n]? = some m → (w.send call ask).messages[n]? = some m :=
    fun n m hm => (List.getElem?_append_left (List.getElem?_eq_some_iff.mp hm).1).trans hm
  constructor
  case named =>
    intro n m leaseID hm hgrant
    rcases System.getElem?_concat_cases hm with hm | ⟨-, rfl⟩
    · exact h.named n m leaseID hm hgrant
    · rw [grant_sent rfl] at hgrant
      cases hgrant
  case sender =>
    intro m hm i hi
    rcases List.mem_append.mp hm with hm | hm
    · exact h.sender m hm i hi
    · obtain rfl := List.mem_singleton.mp hm
      exact hcall i hi
  case waits =>
    intro i q attempt n hc
    obtain ⟨m, hm, hrest⟩ := h.waits i q attempt n hc
    exact ⟨m, hkeep n m hm, hrest⟩
  case owner => exact h.owner
  case refreshes =>
    intro m hm q lease leaseID expiresAt hask hanswer
    rcases List.mem_append.mp hm with hm | hm
    · exact h.refreshes m hm q lease leaseID expiresAt hask hanswer
    · obtain rfl := List.mem_singleton.mp hm
      cases hanswer
  case refreshing =>
    intro q tracked n hw
    obtain ⟨m, hm, hask⟩ := h.refreshing q tracked n hw
    exact ⟨m, hkeep n m hm, hask⟩
  case refreshed => exact h.refreshed

/-- A call moves on; it waits only for a request of its own. -/
theorem Sound.setCall (h : Sound r config bytes p w) {i : ℕ} {c c' : Call}
    (hc : w.calls[i]? = some c)
    (hwaits : ∀ q attempt n, c' = .putting q attempt n →
      ∃ m, w.messages[n]? = some m ∧ m.call = some i ∧ m.ask = .register q) :
    Sound r config bytes p (w.setCall i c') where
  named := h.named
  sender m hm j hj := by
    rw [World.setCall, List.length_set]
    exact h.sender m hm j hj
  waits j q attempt n hd := by
    rcases (getElem?_setCall hc).mp hd with ⟨rfl, hput⟩ | ⟨-, hd⟩
    · exact hwaits q attempt n hput.symm
    · exact h.waits j q attempt n hd
  owner := h.owner
  refreshes := h.refreshes
  refreshing := h.refreshing
  refreshed := h.refreshed

/-- A request is settled: a grant is the lease made for it, and a refresh is
answered with its own. -/
theorem Sound.settle (h : Sound r config bytes p w) {n : ℕ} {m : Message} {d : Delivery}
    (hm : w.messages[n]? = some m)
    (hgrant : ∀ leaseID, { m with delivery := d }.grant p = some leaseID →
      bytes.ids.newLeaseID n = some leaseID)
    (hrefresh : ∀ q lease leaseID expiresAt, m.ask = .refresh q lease →
      d = .answered (.registration leaseID expiresAt) → leaseID = lease.leaseId) :
    Sound r config bytes p (w.settle n d) := by
  have hkeep : ∀ (k : ℕ) m', w.messages[k]? = some m' →
      ∃ m'', (w.settle n d).messages[k]? = some m'' ∧ m''.call = m'.call ∧ m''.ask = m'.ask := by
    intro k m' hk
    by_cases hkn : k = n
    · subst hkn
      obtain rfl := Option.some.inj (hm.symm.trans hk)
      exact ⟨_, (getElem?_settle hm).mpr (Or.inl ⟨rfl, rfl⟩), rfl, rfl⟩
    · exact ⟨m', (getElem?_settle hm).mpr (Or.inr ⟨hkn, hk⟩), rfl, rfl⟩
  constructor
  case named =>
    intro k m' leaseID hk hg
    rcases (getElem?_settle hm).mp hk with ⟨rfl, rfl⟩ | ⟨-, hk⟩
    · exact hgrant leaseID hg
    · exact h.named k m' leaseID hk hg
  case sender =>
    intro m' hm' i hi
    rcases mem_settle hm hm' with hm' | rfl
    · exact h.sender m' hm' i hi
    · exact h.sender m (List.mem_of_getElem? hm) i hi
  case waits =>
    intro i q attempt k hc
    obtain ⟨m', hk, hcall, hask⟩ := h.waits i q attempt k hc
    obtain ⟨m'', hk', hcall', hask'⟩ := hkeep k m' hk
    exact ⟨m'', hk', hcall'.trans hcall, hask'.trans hask⟩
  case owner => exact h.owner
  case refreshes =>
    intro m' hm' q lease leaseID expiresAt hask hanswer
    rcases mem_settle hm hm' with hm' | rfl
    · exact h.refreshes m' hm' q lease leaseID expiresAt hask hanswer
    · exact hrefresh q lease leaseID expiresAt hask hanswer
  case refreshing =>
    intro q tracked k hw
    obtain ⟨m', hk, hask⟩ := h.refreshing q tracked k hw
    obtain ⟨m'', hk', -, hask'⟩ := hkeep k m' hk
    exact ⟨m'', hk', hask'.trans hask⟩
  case refreshed => exact h.refreshed

/-- The gateway's registration of the player is one of the companion's. -/
theorem Sound.shared (h : Sound r config bytes p w) {shared : Shared}
    (howner : ∀ reg, shared.registrations.lookup p = some reg →
      Known r config reg.backendID ∧ reg.ownerID = config.instanceId) :
    Sound r config bytes p { w with shared } where
  named := h.named
  sender := h.sender
  waits := h.waits
  owner := howner
  refreshes := h.refreshes
  refreshing := h.refreshing
  refreshed := h.refreshed

end Sound

/-- **The invariant.** -/
structure Inv (r : Runtime) (config : CompanionConfig) (bytes : LeaseBytes) (p : UUID)
    (w : World) : Prop where
  ends : Grants.Consistent (view p w)
  sound : Sound r config bytes p w

section Steps

variable {r : Runtime} {config : CompanionConfig} {bytes : LeaseBytes} {p : UUID} {w w' : World}

theorem Inv.same (h : Inv r config bytes p w) (hmessages : w'.messages = w.messages)
    (hcalls : w'.calls = w.calls)
    (hworker : w'.worker = w.worker ∨ w'.worker = .idle ∨ ∃ n, w'.worker = .deleting n)
    (htasks : ∀ lease, (p, lease) ∈ w'.tasks → w.GivenUp p lease.leaseId)
    (htracked : w'.tracked p = w.tracked p)
    (hshared : w'.shared.registrations.lookup p = w.shared.registrations.lookup p) :
    Inv r config bytes p w' where
  ends := h.ends.quiet (quiet_same hcalls hmessages htasks htracked (congrArg _ hshared))
  sound := h.sound.same hmessages hcalls hworker hshared

theorem Inv.send (h : Inv r config bytes p w) {call : Option ℕ} {ask : Ask}
    (hcall : ∀ i, call = some i → i < w.calls.length)
    (hask : ∀ lease, ask = .unregister p lease → w.GivenUp p lease.leaseId) :
    Inv r config bytes p (w.send call ask) where
  ends := h.ends.quiet (quiet_send call ask hask)
  sound := h.sound.send hcall ask

/-- A call moves on to a point where it carries nothing. -/
theorem Inv.setCall (h : Inv r config bytes p w) {i : ℕ} {c c' : Call} (hc : w.calls[i]? = some c)
    (hpending : c'.pending p = c.pending p ∨ c'.pending p = false ∧ ¬ w.Granted p i)
    (hcarries : ∀ g, w.carries p c' = some g → w.carries p c = some g)
    (hdisplaced : ∀ previous, c' ≠ .displaced p previous)
    (hwaits : ∀ q attempt n, c' = .putting q attempt n →
      ∃ m, w.messages[n]? = some m ∧ m.call = some i ∧ m.ask = .register q) :
    Inv r config bytes p (w.setCall i c') where
  ends := by
    refine h.ends.quiet (quiet_setCall hc (hpending.imp_right fun ⟨hno, hgranted⟩ => ⟨hno, ?_⟩)
      hcarries hdisplaced)
    rintro g ⟨m, hm, hcall, hg⟩
    exact hgranted ⟨m, hm, hcall, by rw [hg]; nofun⟩
  sound := h.sound.setCall hc hwaits

/-- The call neither waits for a `PUT` nor has a lease in hand. -/
def Call.Bare : Call → Prop
  | .putting _ _ _ | .granted _ _ | .scheduled _ _ | .displaced _ _ => False
  | _ => True

/-- A call moves on to a point where it has nothing in hand. -/
theorem Inv.setBare (h : Inv r config bytes p w) {i : ℕ} {c c' : Call} (hc : w.calls[i]? = some c)
    (hpending : c'.pending p = c.pending p ∨ c'.pending p = false ∧ ¬ w.Granted p i)
    (hbare : c'.Bare) : Inv r config bytes p (w.setCall i c') := by
  refine h.setCall hc hpending ?_ ?_ ?_
  · intro g hg
    cases c' <;> first | exact hbare.elim | cases hg
  · rintro previous rfl
    exact hbare
  · rintro q attempt n rfl
    exact hbare.elim

/-- A lease that waits for its `DELETE`. -/
theorem givenUp_of_task {lease : Lease} (h : (p, lease) ∈ w.tasks) : w.GivenUp p lease.leaseId :=
  Or.inr (Or.inl ⟨lease, h, rfl⟩)

/-- What is tracked is given up when its `DELETE` is sent. -/
theorem Inv.remove (h : Inv r config bytes p w) {i : ℕ} {q : UUID} {c done : Call} {rest : ℕ → Call}
    (hc : w.calls[i]? = some c) (hpending : c.pending p = false)
    (hend : ∀ c', c' = done ∨ (∃ n, c' = rest n) → c'.pending p = false ∧ c'.Bare) :
    Inv r config bytes p (w.remove i q rest done) := by
  have hmove : ∀ {w₁ : World}, Inv r config bytes p w₁ → w₁.calls[i]? = some c → ∀ {c'},
      c' = done ∨ (∃ n, c' = rest n) → Inv r config bytes p (w₁.setCall i c') := by
    intro w₁ h₁ hc₁ c' hc'
    obtain ⟨hno, hbare⟩ := hend c' hc'
    exact h₁.setBare hc₁ (Or.inl (hno.trans hpending.symm)) hbare
  unfold World.remove
  cases hlookup : w.leases.lookup q with
  | none => exact hmove h hc (Or.inl rfl)
  | some tracked =>
    have hcall : ∀ j, some i = some j → j < w.calls.length := by
      intro j hj
      obtain rfl := Option.some.inj hj
      exact (List.getElem?_eq_some_iff.mp hc).1
    let w₁ : World := { w with leases := w.leases.erase q }.cancel tracked
    have h₁ : Inv r config bytes p (w₁.send (some i) (.unregister q tracked.lease)) := by
      by_cases hq : q = p
      · subst hq
        have hsound : Sound r config bytes q w₁ := h.sound.same rfl rfl (Or.inl rfl) rfl
        exact ⟨h.ends.giveBack (givingBack_remove hlookup), hsound.send hcall _⟩
      · have htracked : w₁.tracked p = w.tracked p := by
          simp only [w₁, World.tracked, World.cancel, AList.lookup_erase_ne (Ne.symm hq)]
        have h₁ : Inv r config bytes p w₁ :=
          h.same rfl rfl (Or.inl rfl) (fun _ => givenUp_of_task) htracked rfl
        exact h₁.send hcall fun lease heq => absurd (Ask.unregister.inj heq).1 hq
    exact hmove h₁ hc (Or.inr ⟨_, rfl⟩)

/-- A `PUT` is sent, or the call throws. -/
theorem Inv.attempt (h : Inv r config bytes p w) {i attempt : ℕ} {q : UUID}
    (hc : w.calls[i]? = some (.register q attempt))
    (horderly : 3 ≤ attempt → ¬ w.Granted p i) :
    Inv r config bytes p (w.attempt i q attempt) := by
  unfold World.attempt
  split
  · have hi : i < w.calls.length := (List.getElem?_eq_some_iff.mp hc).1
    have h₁ : Inv r config bytes p (w.send (some i) (.register q)) :=
      h.send (fun j hj => Option.some.inj hj ▸ hi) (by rintro _ ⟨⟩)
    have hnew : (w.send (some i) (.register q)).messages[w.messages.length]? =
        some { call := some i, ask := .register q } := List.getElem?_concat_length
    refine h₁.setCall hc (Or.inl rfl) (fun g hg => ?_) (by rintro _ ⟨⟩) ?_
    · rw [World.carries, hnew] at hg
      cases hg
    · rintro q' attempt' n heq
      obtain ⟨rfl, rfl, rfl⟩ := Call.putting.inj heq
      exact ⟨_, hnew, rfl, rfl⟩
  · rename_i hlast
    exact h.setBare hc (Or.inr ⟨rfl, horderly (Nat.le_of_not_lt hlast)⟩) trivial

/-- The refresh task is scheduled, or the call throws. -/
theorem Inv.schedule (h : Inv r config bytes p w) {i : ℕ} {q : UUID} {lease : Lease}
    (hc : w.calls[i]? = some (.granted q lease))
    (horderly : w.shutdown = true → ¬ w.Granted p i) :
    Inv r config bytes p (w.schedule i q lease) := by
  unfold World.schedule
  split
  · rename_i hshutdown
    exact h.setBare hc (Or.inr ⟨rfl, horderly hshutdown⟩) trivial
  · have h₁ : Inv r config bytes p (w.setCall i (.scheduled q ⟨lease, w.futures.length⟩)) :=
      h.setCall hc (Or.inl rfl) (fun g hg => hg) nofun nofun
    exact h₁.same rfl rfl (Or.inl rfl) (fun _ => givenUp_of_task) rfl rfl

/-- A lease comes to the map. -/
theorem Inv.put (h : Inv r config bytes p w) {i : ℕ} {q : UUID} {tracked : TrackedLease}
    (hc : w.calls[i]? = some (.scheduled q tracked)) : Inv r config bytes p (w.put i q tracked) := by
  by_cases hq : q = p
  · subst hq
    refine ⟨h.ends.keep (keeping_put hc), ?_⟩
    have hwaits : ∀ c', (∀ q attempt n, c' ≠ .putting q attempt n) →
        Sound r config bytes q (w.setCall i c') := fun c' hc' =>
      h.sound.setCall hc fun q attempt n heq => absurd heq (hc' q attempt n)
    refine Sound.same (hwaits _ ?_) rfl rfl (Or.inl rfl) rfl
    cases w.leases.lookup q <;> nofun
  · -- the lease is another player's
    have h₁ : ∀ c', c' = .returned ∨ (∃ previous, c' = .displaced q previous) →
        Inv r config bytes p (w.setCall i c') := by
      rintro c' (rfl | ⟨previous, rfl⟩)
      · exact h.setBare hc (Or.inl (by simp [Call.pending, hq])) trivial
      · refine h.setCall hc (Or.inl (by simp [Call.pending, hq])) nofun (fun previous' heq => ?_) nofun
        exact hq (Call.displaced.inj heq).1
    have htracked : (w.put i q tracked).tracked p = w.tracked p := by
      simp only [World.put, World.tracked, AList.lookup_insert_ne (Ne.symm hq)]
    refine Inv.same (h₁ _ ?_) rfl rfl (Or.inl rfl) (fun _ => givenUp_of_task) htracked rfl
    cases w.leases.lookup q with
    | none => exact Or.inl rfl
    | some previous => exact Or.inr ⟨previous, rfl⟩

/-- The `DELETE` of a displaced lease goes to the executor, if it takes it. -/
theorem Inv.displace (h : Inv r config bytes p w) {i : ℕ} {q : UUID} {previous : TrackedLease}
    (hc : w.calls[i]? = some (.displaced q previous)) :
    Inv r config bytes p (w.displace i q previous) := by
  have hcancel : Inv r config bytes p (w.cancel previous) :=
    h.same rfl rfl (Or.inl rfl) (fun _ => givenUp_of_task) rfl rfl
  unfold World.displace
  split
  · exact hcancel.setBare hc (Or.inl rfl) trivial
  · let w₁ : World := { w.cancel previous with tasks := w.tasks ++ [(q, previous.lease)] }
    have h₁ : Inv r config bytes p w₁ := by
      refine h.same rfl rfl (Or.inl rfl) (fun lease hlease => ?_) rfl rfl
      rcases List.mem_append.mp hlease with hlease | hlease
      · exact givenUp_of_task hlease
      · obtain ⟨rfl, rfl⟩ := Prod.mk.inj (List.mem_singleton.mp hlease)
        exact Or.inr (Or.inr ⟨previous, List.mem_of_getElem? hc, rfl⟩)
    exact h₁.setBare (w := w₁) hc (Or.inl rfl) trivial

theorem Inv.proceed (h : Inv r config bytes p w) {i : ℕ} (horderly : Orderly p w (.proceed i))
    (hstep : w.proceed i = some w') : Inv r config bytes p w' := by
  unfold World.proceed at hstep
  split at hstep
  · rename_i q attempt hc
    obtain rfl := Option.some.inj hstep
    exact h.attempt hc fun hlast => horderly (by simp [World.givesUp, hc, hlast])
  · rename_i q lease hc
    obtain rfl := Option.some.inj hstep
    exact h.schedule hc fun hshutdown => horderly (by simp [World.givesUp, hc, hshutdown])
  · rename_i q tracked hc
    obtain rfl := Option.some.inj hstep
    exact h.put hc
  · rename_i q previous hc
    obtain rfl := Option.some.inj hstep
    exact h.displace hc
  · rename_i q hc
    obtain rfl := Option.some.inj hstep
    refine h.remove hc rfl ?_
    rintro c' (rfl | ⟨n, rfl⟩) <;> exact ⟨rfl, trivial⟩
  · rename_i q players hc
    obtain rfl := Option.some.inj hstep
    refine h.remove hc rfl ?_
    rintro c' (rfl | ⟨n, rfl⟩) <;> exact ⟨rfl, trivial⟩
  · rename_i hc
    obtain rfl := Option.some.inj hstep
    have h₁ : Inv r config bytes p (w.setCall i .returned) :=
      h.setBare hc (Or.inl rfl) trivial
    exact h₁.same rfl rfl (Or.inl rfl) (fun lease hlease => nomatch hlease) rfl rfl
  · cases hstep

/-- An answer is in the request it is the answer to. -/
theorem answerTo_eq_some {n : ℕ} {response : Response} (h : w.answerTo n = some response) :
    ∃ m, w.messages[n]? = some m ∧ m.delivery = .answered response := by
  unfold World.answerTo at h
  split at h
  · rename_i hm
    obtain rfl := Option.some.inj h
    exact ⟨_, hm, rfl⟩
  · cases h

theorem Inv.receive (h : Inv r config bytes p w) {i : ℕ} (hstep : w.receive i = some w') :
    Inv r config bytes p w' := by
  unfold World.receive at hstep
  split at hstep
  · rename_i q attempt n hc
    obtain ⟨response, hresponse, rfl⟩ := Option.map_eq_some_iff.mp hstep
    cases response with
    | registration leaseID expiresAt =>
      obtain ⟨m, hm, hdelivery⟩ := answerTo_eq_some hresponse
      obtain ⟨m', hm', -, hask⟩ := h.sound.waits i q attempt n hc
      obtain rfl := Option.some.inj (hm.symm.trans hm')
      -- the lease was on its way already
      have hsame : w.carries p (.granted q ⟨n, q, leaseID, expiresAt⟩) =
          w.carries p (.putting q attempt n) := by
        simp only [World.carries, hm, Option.bind_some, Message.grant, hask, hdelivery]
      exact h.setCall hc (Or.inl rfl) (fun g hg => hsame ▸ hg) (by rintro _ ⟨⟩) (by rintro _ _ _ ⟨⟩)
    | status code => exact h.setBare hc (Or.inl rfl) trivial
  · rename_i n hc
    obtain ⟨response, -, rfl⟩ := Option.map_eq_some_iff.mp hstep
    exact h.setBare hc (Or.inl rfl) trivial
  · rename_i n players hc
    obtain ⟨response, -, rfl⟩ := Option.map_eq_some_iff.mp hstep
    exact h.setBare hc (Or.inl rfl) trivial
  · cases hstep

theorem Inv.fail (h : Inv r config bytes p w) {i : ℕ} (hstep : w.fail i = some w') :
    Inv r config bytes p w' := by
  unfold World.fail at hstep
  split at hstep
  · rename_i hc
    obtain rfl := Option.some.inj hstep
    exact h.setBare hc (Or.inl rfl) trivial
  · rename_i hc
    obtain rfl := Option.some.inj hstep
    exact h.setBare hc (Or.inl rfl) trivial
  · rename_i hc
    obtain rfl := Option.some.inj hstep
    exact h.setBare hc (Or.inl rfl) trivial
  · cases hstep

theorem Inv.interrupt (h : Inv r config bytes p w) {i : ℕ} (horderly : ¬ w.Granted p i)
    (hstep : w.interrupt i = some w') : Inv r config bytes p w' := by
  unfold World.interrupt at hstep
  split at hstep
  · rename_i hc
    obtain rfl := Option.some.inj hstep
    exact h.setBare hc (Or.inr ⟨rfl, horderly⟩) trivial
  · rename_i hc
    obtain rfl := Option.some.inj hstep
    exact h.setBare hc (Or.inr ⟨rfl, horderly⟩) trivial
  · cases hstep

/-- A call starts. -/
theorem Inv.start (h : Inv r config bytes p w) (start : Start) :
    Inv r config bytes p { w with calls := w.calls ++ [w.start config start] } := by
  obtain ⟨hcarries, hdisplaced, hputting⟩ : w.carries p (w.start config start) = none ∧
      (∀ previous, w.start config start ≠ .displaced p previous) ∧
      ∀ q attempt n, w.start config start ≠ .putting q attempt n := by
    cases start with
    | registerBeforeUdp q =>
      simp only [World.start]
      split_ifs
      · exact ⟨rfl, nofun, nofun⟩
      · exact ⟨rfl, nofun, nofun⟩
    | unregister q => exact ⟨rfl, nofun, nofun⟩
    | close => exact ⟨rfl, nofun, nofun⟩
  have hfresh : ∀ g, ¬ (view p w).granted w.calls.length g := by
    rintro g ⟨m, hm, hcall, -⟩
    exact Nat.lt_irrefl _ (h.sound.sender m hm _ hcall)
  refine ⟨h.ends.quiet (quiet_start hcarries hfresh hdisplaced), ?_⟩
  constructor
  case named => exact h.sound.named
  case sender =>
    intro m hm i hi
    have hlt := h.sound.sender m hm i hi
    rw [List.length_append, List.length_singleton]
    omega
  case waits =>
    intro i q attempt n hc
    rcases System.getElem?_concat_cases hc with hc | ⟨-, heq⟩
    · exact h.sound.waits i q attempt n hc
    · exact absurd heq.symm (hputting q attempt n)
  case owner => exact h.sound.owner
  case refreshes => exact h.sound.refreshes
  case refreshing => exact h.sound.refreshing
  case refreshed => exact h.sound.refreshed

/-- The executor starts on a refresh or on a `DELETE`. -/
theorem Inv.refresh (h : Inv r config bytes p w) {f : ℕ} (hstep : w.refresh f = some w') :
    Inv r config bytes p w' := by
  unfold World.refresh at hstep
  split at hstep
  · rename_i q hworker hshutdown hfuture
    split at hstep
    · exact Option.some.inj hstep ▸ h
    · rename_i tracked htracked
      obtain rfl := Option.some.inj hstep
      have h₁ : Inv r config bytes p (w.send none (.refresh q tracked.lease)) := h.send nofun nofun
      have hends : Grants.Quiet (view p (w.send none (.refresh q tracked.lease)))
          (view p { w.send none (.refresh q tracked.lease) with
            worker := .refreshing q tracked w.messages.length }) :=
        quiet_same rfl rfl (fun _ => givenUp_of_task) rfl rfl
      refine ⟨h₁.ends.quiet hends, ?_⟩
      constructor
      case named => exact h₁.sound.named
      case sender => exact h₁.sound.sender
      case waits => exact h₁.sound.waits
      case owner => exact h₁.sound.owner
      case refreshes => exact h₁.sound.refreshes
      case refreshing =>
        intro q' tracked' n hw
        obtain ⟨rfl, rfl, rfl⟩ := Worker.refreshing.inj hw
        exact ⟨_, List.getElem?_concat_length, rfl⟩
      case refreshed => exact fun q' tracked' lease hw => nomatch hw
  · cases hstep

theorem Inv.task (h : Inv r config bytes p w) {j : ℕ} (hstep : w.task j = some w') :
    Inv r config bytes p w' := by
  unfold World.task at hstep
  split at hstep
  · rename_i q lease hworker htask
    obtain rfl := Option.some.inj hstep
    have h₁ : Inv r config bytes p (w.send none (.unregister q lease)) := by
      refine h.send nofun fun lease' heq => ?_
      obtain ⟨rfl, rfl⟩ := Ask.unregister.inj heq
      exact givenUp_of_task (List.mem_of_getElem? htask)
    refine h₁.same rfl rfl (Or.inr (Or.inr ⟨_, rfl⟩)) (fun lease' hlease' => ?_) rfl rfl
    exact givenUp_of_task (w := w.send none (.unregister q lease)) (List.mem_of_mem_eraseIdx hlease')
  · cases hstep

/-- The executor goes on. A refresh leaves the name of the lease as it is. -/
theorem Inv.work (h : Inv r config bytes p w) (hstep : w.work = some w') :
    Inv r config bytes p w' := by
  have hidle : Inv r config bytes p { w with worker := .idle } :=
    h.same rfl rfl (Or.inr (Or.inl rfl)) (fun _ => givenUp_of_task) rfl rfl
  unfold World.work at hstep
  split at hstep
  · rename_i q tracked n hworker
    obtain ⟨response, hresponse, rfl⟩ := Option.map_eq_some_iff.mp hstep
    cases response with
    | registration leaseID expiresAt =>
      obtain ⟨m, hm, hdelivery⟩ := answerTo_eq_some hresponse
      obtain ⟨m', hm', hask⟩ := h.sound.refreshing q tracked n hworker
      obtain rfl := Option.some.inj (hm.symm.trans hm')
      have hname := h.sound.refreshes m (List.mem_of_getElem? hm) q tracked.lease leaseID expiresAt
        hask hdelivery
      have hends : Grants.Quiet (view p w)
          (view p { w with worker := .refreshed q tracked ⟨n, q, leaseID, expiresAt⟩ }) :=
        quiet_same rfl rfl (fun _ => givenUp_of_task) rfl rfl
      refine ⟨h.ends.quiet hends, ?_⟩
      constructor
      case named => exact h.sound.named
      case sender => exact h.sound.sender
      case waits => exact h.sound.waits
      case owner => exact h.sound.owner
      case refreshes => exact h.sound.refreshes
      case refreshing => exact fun q' tracked' n' hw => nomatch hw
      case refreshed =>
        intro q' tracked' lease hw
        obtain ⟨rfl, rfl, rfl⟩ := Worker.refreshed.inj hw
        exact hname
    | status code => exact hidle
  · rename_i q tracked lease hworker
    split at hstep
    · rename_i hcurrent
      obtain rfl := Option.some.inj hstep
      have hname := h.sound.refreshed q tracked lease hworker
      refine h.same rfl rfl (Or.inr (Or.inl rfl)) (fun _ => givenUp_of_task) ?_ rfl
      by_cases hq : p = q
      · subst hq
        simp only [World.tracked, AList.lookup_insert, hcurrent, Option.map_some, hname]
      · simp only [World.tracked, AList.lookup_insert_ne hq]
    · exact Option.some.inj hstep ▸ hidle
  · obtain ⟨response, -, rfl⟩ := Option.map_eq_some_iff.mp hstep
    exact hidle
  · cases hstep

theorem Inv.workFails (h : Inv r config bytes p w) (hstep : w.workFails = some w') :
    Inv r config bytes p w' := by
  have hidle : Inv r config bytes p { w with worker := .idle } :=
    h.same rfl rfl (Or.inr (Or.inl rfl)) (fun _ => givenUp_of_task) rfl rfl
  unfold World.workFails at hstep
  split at hstep
  · exact Option.some.inj hstep ▸ hidle
  · exact Option.some.inj hstep ▸ hidle
  · cases hstep

/-- The gateway changes a registration, but not its lease. -/
theorem Inv.shared (h : Inv r config bytes p w) {shared : Shared}
    (hheld : (shared.registrations.lookup p).map (·.leaseID) = w.held p)
    (howner : ∀ reg, shared.registrations.lookup p = some reg →
      Known r config reg.backendID ∧ reg.ownerID = config.instanceId) :
    Inv r config bytes p { w with shared } where
  ends := h.ends.quiet (quiet_same rfl rfl (fun _ => givenUp_of_task) rfl hheld)
  sound := h.sound.shared howner

/-- A request is settled without a grant. -/
theorem Inv.settle (h : Inv r config bytes p w) {n : ℕ} {m : Message} {d : Delivery}
    (hm : w.messages[n]? = some m) (hsent : m.delivery = .sent)
    (hgrant : { m with delivery := d }.grant p = none)
    (hheld : ∀ g, m.deletes p g → w.held p ≠ some g)
    (hrefresh : ∀ q lease leaseID expiresAt, m.ask = .refresh q lease →
      d = .answered (.registration leaseID expiresAt) → leaseID = lease.leaseId) :
    Inv r config bytes p (w.settle n d) where
  ends := h.ends.quiet (quiet_settle hm hsent hgrant hheld)
  sound := h.sound.settle hm (fun _ hg => absurd (hgrant.symm.trans hg) nofun) hrefresh

/-- A `PUT` of the player is handled. -/
theorem Inv.serveRegister (h : Inv r config bytes p w) {n : ℕ} {m : Message} {resp : Response}
    {shared : Shared} (hm : w.messages[n]? = some m) (hsent : m.delivery = .sent)
    (hask : m.ask = .register p)
    (horderly : w.unsettled p m = true ∧ ∀ c ∈ w.calls, w.carries p c = none)
    (hanswer : answer r bytes.ids w.now n (config.requestFor m.ask) w.shared = (resp, shared)) :
    Inv r config bytes p { w.settle n (.answered resp) with shared } := by
  have hrefresh : ∀ q lease leaseID expiresAt, m.ask = .refresh q lease →
      Delivery.answered resp = .answered (.registration leaseID expiresAt) →
      leaseID = lease.leaseId := by
    intro q lease leaseID expiresAt heq
    rw [hask] at heq
    cases heq
  rw [hask] at hanswer
  rcases answer_register hanswer with ⟨rfl, code, rfl⟩ | ⟨reg, hknown, howner, hid, rfl, rfl⟩
  · refine h.settle hm hsent (by simp [Message.grant, hask]) (fun g hdeletes => ?_) hrefresh
    obtain ⟨lease, heq, -⟩ := hdeletes
    rw [hask] at heq
    cases heq
  · obtain ⟨hunsettled, halone⟩ := horderly
    obtain ⟨i, hcall, c, hc, hpending⟩ : ∃ i, m.call = some i ∧ ∃ c, w.calls[i]? = some c ∧
        c.pending p = true := by
      unfold World.unsettled at hunsettled
      split at hunsettled
      · cases hunsettled
      · rename_i i hcall
        exact ⟨i, hcall, (Option.any_eq_true _ _).mp hunsettled⟩
    have hgrant : { m with delivery := .answered (writeRegistrationResponse reg) }.grant p =
        some reg.leaseID := by
      simp [Message.grant, hask, writeRegistrationResponse]
    have hwaits : ∀ j q attempt, w.calls[j]? = some (.putting q attempt n) → j = i := by
      intro j q attempt hj
      obtain ⟨m', hm', hcall', -⟩ := h.sound.waits j q attempt n hj
      obtain rfl := Option.some.inj (hm.symm.trans hm')
      exact Option.some.inj (hcall'.symm.trans hcall)
    -- no other request was given this lease, and this one has had none yet
    have hfresh : ∀ j, ¬ (view p w).granted j reg.leaseID := by
      rintro j ⟨m', hm', -, hg⟩
      obtain ⟨k, hk⟩ := List.mem_iff_getElem?.mp hm'
      have hkn : k = n := bytes.ids.fresh k n _ (h.sound.named k m' _ hk hg) hid
      obtain rfl := Option.some.inj (hm.symm.trans (hkn ▸ hk))
      rw [grant_sent hsent] at hg
      cases hg
    have hheld : (AList.lookup p (w.shared.registrations.insert p reg)).map (·.leaseID) =
        some reg.leaseID := by
      rw [AList.lookup_insert, Option.map_some]
    have hsound : Sound r config bytes p (w.settle n (.answered (writeRegistrationResponse reg))) :=
      h.sound.settle hm (fun leaseID hg => Option.some.inj (hgrant.symm.trans hg) ▸ hid) hrefresh
    refine ⟨h.ends.grant (granting_serve hm hsent hcall hask hgrant hwaits ⟨c, hc, hpending⟩ halone
      hfresh hheld), ?_⟩
    refine hsound.shared fun reg' hreg' => ?_
    rw [AList.lookup_insert] at hreg'
    exact Option.some.inj hreg' ▸ ⟨hknown, howner⟩

/-- A refresh of the player is handled. -/
theorem Inv.serveRefresh (h : Inv r config bytes p w) {n : ℕ} {m : Message} {lease : Lease}
    {resp : Response} {shared : Shared} (hm : w.messages[n]? = some m) (hsent : m.delivery = .sent)
    (hask : m.ask = .refresh p lease)
    (hanswer : answer r bytes.ids w.now n (config.requestFor m.ask) w.shared = (resp, shared)) :
    Inv r config bytes p { w.settle n (.answered resp) with shared } := by
  rw [hask] at hanswer
  have hgrant : { m with delivery := .answered resp }.grant p = none := by
    simp [Message.grant, hask]
  have hdeletes : ∀ g, m.deletes p g → w.held p ≠ some g := by
    rintro g ⟨lease', heq, -⟩
    rw [hask] at heq
    cases heq
  rcases answer_refresh hanswer with ⟨rfl, code, rfl⟩ | ⟨reg, expiresAt, hreg, rfl, rfl⟩
  · exact h.settle hm hsent hgrant hdeletes nofun
  · have h₁ := h.settle hm hsent hgrant hdeletes fun q lease' leaseID expiresAt' heq hresp => by
      obtain ⟨-, rfl⟩ := Ask.refresh.inj (hask.symm.trans heq)
      exact ((Response.registration.inj (Delivery.answered.inj hresp)).1).symm
    refine h₁.shared ?_ fun reg' hreg' => ?_
    · simp only [World.held, World.settle, AList.lookup_insert, hreg, Option.map_some]
    · rw [AList.lookup_insert] at hreg'
      obtain rfl := Option.some.inj hreg'
      exact h.sound.owner reg hreg

/-- A `DELETE` of the player is handled. -/
theorem Inv.serveUnregister (h : Inv r config bytes p w) {n : ℕ} {m : Message} {lease : Lease}
    {resp : Response} {shared : Shared} (hm : w.messages[n]? = some m) (hsent : m.delivery = .sent)
    (hask : m.ask = .unregister p lease)
    (hanswer : answer r bytes.ids w.now n (config.requestFor m.ask) w.shared = (resp, shared)) :
    Inv r config bytes p { w.settle n (.answered resp) with shared } := by
  have hgiven : w.GivenUp p lease.leaseId := Or.inl ⟨m, List.mem_of_getElem? hm, lease, hask, rfl⟩
  have hgrant : { m with delivery := .answered resp }.grant p = none := by
    simp [Message.grant, hask]
  have hrefresh : ∀ q lease leaseID expiresAt, m.ask = .refresh q lease →
      Delivery.answered resp = .answered (.registration leaseID expiresAt) →
      leaseID = lease.leaseId := by
    intro q lease leaseID expiresAt heq
    rw [hask] at heq
    cases heq
  have hdeletes : ∀ g, m.deletes p g → g = lease.leaseId := by
    rintro g ⟨lease', heq, rfl⟩
    obtain ⟨-, rfl⟩ := Ask.unregister.inj (hask.symm.trans heq)
    rfl
  -- the lease was granted, so that it has a name
  obtain ⟨-, i, ⟨m', hm', -, hg⟩, -⟩ := h.ends.returned_settled _ hgiven
  obtain ⟨k, hk⟩ := List.mem_iff_getElem?.mp hm'
  have hblank : trimSpace lease.leaseId ≠ [] := LeaseBytes.not_blank (h.sound.named k m' _ hk hg)
  rw [hask] at hanswer
  rcases answer_unregister hblank hanswer with ⟨reg, hreg, hname, rfl⟩ | ⟨rfl, hnot⟩
  · have herase : AList.lookup p (w.shared.registrations.erase p) = none := AList.lookup_erase _ _
    have hheld : w.held p = some lease.leaseId := by
      simp only [World.held, hreg, Option.map_some, hname]
    let w₁ : World :=
      { w with shared := { w.shared with registrations := w.shared.registrations.erase p } }
    have h₁ : Inv r config bytes p w₁ :=
      { ends := h.ends.takeBack (takingBack_erase hgiven hheld herase)
        sound := h.sound.shared fun reg' hreg' => by cases herase.symm.trans hreg' }
    refine h₁.settle (w := w₁) hm hsent hgrant (fun g _ hheld' => ?_) hrefresh
    simp only [w₁, World.held, herase, Option.map_none] at hheld'
    cases hheld'
  · refine h.settle hm hsent hgrant (fun g hg hheld => ?_) hrefresh
    obtain rfl := hdeletes g hg
    obtain ⟨reg, hreg, hname⟩ := Option.map_eq_some_iff.mp hheld
    obtain ⟨hknown, howner⟩ := h.sound.owner reg hreg
    exact hnot reg hreg hknown howner hname

/-- A request about another player is handled. -/
theorem Inv.serveOther (h : Inv r config bytes p w) {n : ℕ} {m : Message} {resp : Response}
    {shared : Shared} (hm : w.messages[n]? = some m) (hsent : m.delivery = .sent)
    (hother : p ≠ m.ask.player)
    (hanswer : answer r bytes.ids w.now n (config.requestFor m.ask) w.shared = (resp, shared)) :
    Inv r config bytes p { w.settle n (.answered resp) with shared } := by
  have hlookup := answer_other hanswer hother
  have hgrant : { m with delivery := .answered resp }.grant p = none := by
    unfold Message.grant
    split
    · rename_i q leaseID expiresAt hask hdelivery
      have hq : q ≠ p := fun hq => hother (by rw [show m.ask = .register q from hask]; exact hq.symm)
      rw [if_neg hq]
    · rfl
  have h₁ : Inv r config bytes p (w.settle n (.answered resp)) := by
    refine h.settle hm hsent hgrant ?_ ?_
    · rintro g ⟨lease, hask, -⟩
      rw [hask] at hother
      exact absurd rfl hother
    · intro q lease leaseID expiresAt hask hresp
      rw [hask] at hanswer
      obtain rfl := Delivery.answered.inj hresp
      rcases answer_refresh hanswer with ⟨-, code, hcode⟩ | ⟨reg, expiresAt', -, hresp, -⟩
      · cases hcode
      · exact (Response.registration.inj hresp).1
  refine h₁.shared (congrArg _ hlookup) fun reg hreg => ?_
  exact h.sound.owner reg (hlookup ▸ hreg)

theorem Inv.serve (h : Inv r config bytes p w) {n : ℕ} (horderly : Orderly p w (.serve n))
    (hstep : w.serve r bytes.ids config n = some w') : Inv r config bytes p w' := by
  unfold World.serve at hstep
  split at hstep
  · rename_i call ask hm
    obtain rfl := Option.some.inj hstep
    by_cases hother : p = ask.player
    · cases ask with
      | register q =>
        obtain rfl : p = q := hother
        exact h.serveRegister hm rfl rfl (horderly _ hm rfl) rfl
      | refresh q lease =>
        obtain rfl : p = q := hother
        exact h.serveRefresh hm rfl rfl rfl
      | unregister q lease =>
        obtain rfl : p = q := hother
        exact h.serveUnregister hm rfl rfl rfl
    · exact h.serveOther hm rfl hother rfl
  · cases hstep

theorem Inv.lose (h : Inv r config bytes p w) {n : ℕ} (horderly : Orderly p w (.lose n))
    (hstep : w.lose n = some w') : Inv r config bytes p w' := by
  unfold World.lose at hstep
  split at hstep
  · rename_i call ask hm
    obtain rfl := Option.some.inj hstep
    refine h.settle hm rfl (by cases ask <;> rfl) (fun g hdeletes hheld => ?_) nofun
    exact horderly _ hm g hheld hdeletes
  · cases hstep

/-- **The step lemma.** -/
theorem Inv.step (h : Inv r config bytes p w) {a : Action} (halone : Alone p w a)
    (horderly : Orderly p w a) (hstep : step r bytes.ids config w a = some w') :
    Inv r config bytes p w' := by
  cases a with
  | tick d =>
    obtain rfl := Option.some.inj hstep
    exact h.same rfl rfl (Or.inl rfl) (fun _ => givenUp_of_task) rfl rfl
  | start start => exact Option.some.inj hstep ▸ h.start start
  | proceed i => exact h.proceed horderly hstep
  | receive i => exact h.receive hstep
  | fail i => exact h.fail hstep
  | interrupt i => exact h.interrupt horderly hstep
  | refresh f => exact h.refresh hstep
  | task j => exact h.task hstep
  | work => exact h.work hstep
  | workFails => exact h.workFails hstep
  | serve n => exact h.serve horderly hstep
  | lose n => exact h.lose horderly hstep
  | elsewhere shared =>
    obtain rfl := Option.some.inj hstep
    exact h.same rfl rfl (Or.inl rfl) (fun _ => givenUp_of_task) rfl halone

theorem Inv.boot (now : ℤ) : Inv r config bytes p (boot now) := by
  have hnone : ∀ m, m ∉ (Companion.boot now).messages := fun m => List.not_mem_nil
  refine ⟨?_, .boot now⟩
  constructor
  case unique =>
    rintro i j g ⟨m, hm, -⟩
    exact absurd hm (hnone m)
  case carried_granted =>
    rintro i g ⟨c, hc, -⟩
    simp [Companion.boot] at hc
  case carried_held =>
    rintro i g ⟨c, hc, -⟩
    simp [Companion.boot] at hc
  case kept_settled => exact fun g hg => by simp [view, World.tracked, Companion.boot] at hg
  case returned_settled => exact fun g hg => by simp [view, World.GivenUp, Companion.boot] at hg
  case returning_returned =>
    rintro g ⟨m, hm, -⟩
    exact absurd hm (hnone m)
  case kept_held => exact fun g hg => by simp [view, World.tracked, Companion.boot] at hg
  case held_kept => exact fun g hg => by simp [view, World.held, Companion.boot] at hg

end Steps

/-! ## Agreement -/

/-- Every call has returned, the executor has nothing to do, and no request
is on its way. -/
def World.Quiescent (w : World) : Prop :=
  (∀ c ∈ w.calls, c = .returned ∨ c = .threw) ∧ w.tasks = [] ∧ w.worker = .idle ∧
    ∀ m ∈ w.messages, m.delivery ≠ .sent

instance decidableQuiescent (w : World) : Decidable w.Quiescent :=
  inferInstanceAs (Decidable ((∀ c ∈ w.calls, c = .returned ∨ c = .threw) ∧ w.tasks = [] ∧
    w.worker = .idle ∧ ∀ m ∈ w.messages, m.delivery ≠ .sent))

/-- **Companion and gateway agree on the lease**, in every run that is
orderly for the player, if nothing else touches its registration. Once every
call has returned and no request is on its way, the manager tracks the
player if the gateway holds a registration of the player, and the lease it
tracks is the one that the gateway holds. -/
theorem lease_agreement (r : Runtime) (config : CompanionConfig) (bytes : LeaseBytes) (p : UUID)
    (now : ℤ) (actions : List Action) (w : World)
    (hmeets : System.Meets (step r bytes.ids config) (fun w a => Alone p w a ∧ Orderly p w a)
      (boot now) actions)
    (hrun : System.run (step r bytes.ids config) (boot now) actions = some w) (hquiet : w.Quiescent) :
    w.tracked p = w.held p := by
  have hinv : Inv r config bytes p w :=
    System.run_invariant (fun _ _ _ h hcond hstep => h.step hcond.1 hcond.2 hstep) actions _ w
      (.boot now) hmeets hrun
  obtain ⟨hcalls, -, -, hmessages⟩ := hquiet
  refine hinv.ends.agree ?_ ?_
  · rintro i ⟨c, hc, hpending⟩
    rcases hcalls c (List.mem_of_getElem? hc) with rfl | rfl <;> cases hpending
  · rintro g ⟨m, hm, -, hsent⟩
    exact hmessages m hm hsent

/-! ## Two threads, and a late request -/

/-- The companion of the lobby. -/
def demoConfig : CompanionConfig where
  token := go "lobby-token"
  instanceId := go "owner"
  maxTrackedPlayers := 8

/-- Sixteen bytes, of which only the last one is used. -/
def lastByte (i : ℕ) : { bytes : List UInt8 // bytes.length = 16 } :=
  ⟨List.replicate 15 0 ++ [UInt8.ofNat i], rfl⟩

/-- Bytes for 256 leases. -/
def demoBytes : LeaseBytes where
  random i := if i < 256 then some (lastByte i) else none
  fresh i j bytes hi hj := by
    split_ifs at hi with hi'
    split_ifs at hj with hj'
    have hbytes : lastByte i = lastByte j := (Option.some.inj hi).trans (Option.some.inj hj).symm
    have hbyte : UInt8.ofNat i = UInt8.ofNat j := by
      have hlists := List.append_cancel_left (congrArg Subtype.val hbytes)
      exact List.singleton_inj.mp hlists
    have hnat := congrArg UInt8.toNat hbyte
    rw [UInt8.toNat_ofNat', UInt8.toNat_ofNat', Nat.mod_eq_of_lt hi', Nat.mod_eq_of_lt hj'] at hnat
    exact hnat

/-- Two threads register the player. The gateway handles their requests in
one order, the manager stores the answers in the other, and deletes the
lease that it has displaced. -/
def twoThreads : List Action :=
  [.start (.registerBeforeUdp alex), .start (.registerBeforeUdp alex), .proceed 0, .proceed 1,
    .serve 0, .serve 1, .receive 1, .proceed 1, .proceed 1, .receive 0, .proceed 0, .proceed 0,
    .proceed 0, .task 0, .serve 2, .work]

/-- One thread registers the player. Its first request comes to the gateway
after it has been given up, and after the second one was answered. -/
def lateRequest : List Action :=
  [.start (.registerBeforeUdp alex), .proceed 0, .fail 0, .proceed 0, .serve 1, .receive 0,
    .proceed 0, .proceed 0, .serve 0]

/-- **Companion and gateway may disagree.** With two threads the manager is
left with a lease, and the gateway with none; with a late request they are
left with two different leases. -/
theorem lease_disagreement :
    (∃ w, System.Meets (step demoRuntime demoBytes.ids demoConfig) (Alone alex) (boot 0) twoThreads ∧
      System.run (step demoRuntime demoBytes.ids demoConfig) (boot 0) twoThreads = some w ∧
      w.Quiescent ∧ w.tracked alex = demoBytes.ids.newLeaseID 0 ∧ w.tracked alex ≠ none ∧
      w.held alex = none) ∧
    ∃ w, System.Meets (step demoRuntime demoBytes.ids demoConfig) (Alone alex) (boot 0) lateRequest ∧
      System.run (step demoRuntime demoBytes.ids demoConfig) (boot 0) lateRequest = some w ∧
      w.Quiescent ∧ w.tracked alex = demoBytes.ids.newLeaseID 1 ∧
      w.held alex = demoBytes.ids.newLeaseID 0 ∧ w.tracked alex ≠ w.held alex := by
  refine ⟨⟨_, by decide +kernel, rfl, by decide +kernel, by decide +kernel, by decide +kernel,
    by decide +kernel⟩, ⟨_, by decide +kernel, rfl, by decide +kernel, by decide +kernel,
    by decide +kernel, by decide +kernel⟩⟩

/-- A player is registered by the second request, after the first one timed
out, and the lease is refreshed. Another thread registers the player again,
and the `DELETE` of the lease it displaces is lost. -/
def orderlyLeases : List Action :=
  [.start (.registerBeforeUdp alex), .proceed 0, .fail 0, .serve 0, .proceed 0, .serve 1, .receive 0,
    .proceed 0, .proceed 0, .refresh 0, .serve 2, .work, .work, .start (.registerBeforeUdp alex),
    .proceed 1, .serve 3, .receive 1, .proceed 1, .proceed 1, .proceed 1, .task 0, .lose 4, .workFails]

theorem lease_agreement_orderly :
    ∃ w, System.Meets (step demoRuntime demoBytes.ids demoConfig)
        (fun w a => Alone alex w a ∧ Orderly alex w a) (boot 0) orderlyLeases ∧
      System.run (step demoRuntime demoBytes.ids demoConfig) (boot 0) orderlyLeases = some w ∧
      w.Quiescent ∧ w.tracked alex = demoBytes.ids.newLeaseID 3 ∧ w.tracked alex = w.held alex := by
  have hmeets : System.Meets (step demoRuntime demoBytes.ids demoConfig)
      (fun w a => Alone alex w a ∧ Orderly alex w a) (boot 0) orderlyLeases := by decide +kernel
  obtain ⟨w, hw⟩ : ∃ w, System.run (step demoRuntime demoBytes.ids demoConfig) (boot 0)
      orderlyLeases = some w := ⟨_, rfl⟩
  have hquiet : w.Quiescent := by
    obtain rfl := Option.some.inj hw
    decide +kernel
  refine ⟨w, hmeets, hw, hquiet, ?_,
    lease_agreement demoRuntime demoConfig demoBytes alex 0 orderlyLeases w hmeets hw hquiet⟩
  obtain rfl := Option.some.inj hw
  decide +kernel

end Companion

end McRouter
