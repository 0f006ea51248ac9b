import McRouter.Companion.Manager
import McRouter.Common.Grants

/-!
# The two ends of a lease

For one player, the manager and the gateway are the two ends of `Grants`:
the gateway grants a lease to a `registerBeforeUdp`, the manager keeps the
one it has put into its map last, and a `DELETE` gives one back. `view` says
what of the world makes up the two ends. The rest of the module says what
each change of the world means for them: most are `Quiet`, and one change
each is a grant, a lease that comes to the map, one that is taken out of it,
and one that the gateway lets go.
-/

namespace McRouter

namespace Companion

open Voice Strings Unicode

/-! ## The two ends -/

/-- The lease that a request for the player was granted. -/
def Message.grant (p : UUID) (m : Message) : Option GoString :=
  match m.ask, m.delivery with
  | .register q, .answered (.registration leaseID _) => if q = p then some leaseID else none
  | _, _ => none

/-- A `registerBeforeUdp` of the player that has not come to `leases.put`. -/
def Call.pending (p : UUID) : Call → Bool
  | .register q _ => q = p
  | .putting q _ _ => q = p
  | .granted q _ => q = p
  | .scheduled q _ => q = p
  | _ => false

/-- The lease of the player that a call brings to the map. -/
def World.carries (w : World) (p : UUID) : Call → Option GoString
  | .putting _ _ n => w.messages[n]?.bind (·.grant p)
  | .granted q lease => if q = p then some lease.leaseId else none
  | .scheduled q tracked => if q = p then some tracked.lease.leaseId else none
  | _ => none

/-- The lease of the player that the manager tracks. -/
def World.tracked (w : World) (p : UUID) : Option GoString :=
  (w.leases.lookup p).map (·.lease.leaseId)

/-- The lease of the player that the gateway holds. -/
def World.held (w : World) (p : UUID) : Option GoString :=
  (w.shared.registrations.lookup p).map (·.leaseID)

/-- A `DELETE` of the lease was sent. -/
def Message.deletes (p : UUID) (leaseID : GoString) (m : Message) : Prop :=
  ∃ lease, m.ask = .unregister p lease ∧ lease.leaseId = leaseID

instance decidableDeletes (p : UUID) (leaseID : GoString) (m : Message) :
    Decidable (m.deletes p leaseID) :=
  match h : m.ask with
  | .unregister q lease =>
    decidable_of_iff (q = p ∧ lease.leaseId = leaseID) (by simp [Message.deletes, h])
  | .register _ => isFalse (by simp [Message.deletes, h])
  | .refresh _ _ => isFalse (by simp [Message.deletes, h])

/-- The manager does not want the lease any more: a `DELETE` was sent or
waits for the executor, or the lease has just been displaced. -/
def World.GivenUp (w : World) (p : UUID) (leaseID : GoString) : Prop :=
  (∃ m ∈ w.messages, m.deletes p leaseID) ∨ (∃ lease, (p, lease) ∈ w.tasks ∧ lease.leaseId = leaseID) ∨
    ∃ previous, .displaced p previous ∈ w.calls ∧ previous.lease.leaseId = leaseID

/-- The two ends, for one player. -/
def view (p : UUID) (w : World) : Grants.View ℕ GoString where
  pending i := ∃ c, w.calls[i]? = some c ∧ c.pending p = true
  granted i leaseID := ∃ m ∈ w.messages, m.call = some i ∧ m.grant p = some leaseID
  carried i leaseID := ∃ c, w.calls[i]? = some c ∧ w.carries p c = some leaseID
  kept := w.tracked p
  returned := w.GivenUp p
  returning leaseID := ∃ m ∈ w.messages, m.deletes p leaseID ∧ m.delivery = .sent
  held := w.held p

/-! ## What keeps the ends consistent -/

section Mutations

variable {p : UUID} {w : World}

/-- A `DELETE` on its way was sent. -/
theorem givenUp_of_returning {leaseID : GoString} (h : (view p w).returning leaseID) :
    (view p w).returned leaseID := by
  obtain ⟨m, hm, hdeletes, -⟩ := h
  exact Or.inl ⟨m, hm, hdeletes⟩

/-- A request that has just been sent is granted nothing. -/
theorem carries_send (call : Option ℕ) (ask : Ask) (c : Call) :
    (w.send call ask).carries p c = w.carries p c := by
  cases c with
  | putting q attempt n =>
    simp only [World.carries, World.send]
    by_cases hn : n < w.messages.length
    · rw [List.getElem?_append_left hn]
    · rw [List.getElem?_append_right (by omega),
        List.getElem?_eq_none (by omega : w.messages.length ≤ n)]
      cases hsub : n - w.messages.length with
      | zero => cases ask <;> rfl
      | succ k => rfl
  | _ => rfl

/-- A request is sent; a `DELETE` only of a lease that is given up. -/
theorem quiet_send (call : Option ℕ) (ask : Ask)
    (hask : ∀ lease, ask = .unregister p lease → w.GivenUp p lease.leaseId) :
    Grants.Quiet (view p w) (view p (w.send call ask)) where
  starts i h := Or.inl h
  ends i h := Or.inl h
  granted i g := by
    have hnew : ({ call, ask } : Message).grant p = none := by cases ask <;> rfl
    simp [view, World.send, or_and_right, exists_or, hnew]
  carried i g h := by
    obtain ⟨c, hc, hcarries⟩ := h
    exact ⟨c, hc, (carries_send call ask c).symm.trans hcarries⟩
  kept := rfl
  returned g h := by
    rcases h with ⟨m, hm, hdeletes⟩ | h
    · rcases List.mem_append.mp hm with hm | hm
      · exact Or.inl ⟨m, hm, hdeletes⟩
      · obtain rfl := List.mem_singleton.mp hm
        obtain ⟨lease, hlease, rfl⟩ := hdeletes
        exact hask lease hlease
    · exact Or.inr h
  returning g h := givenUp_of_returning h
  lost g h := by
    obtain ⟨m, hm, hdeletes, hsent⟩ := h
    exact Or.inl ⟨m, List.mem_append_left _ hm, hdeletes, hsent⟩
  held := rfl

/-- The calls after one has moved on. -/
theorem getElem?_setCall {i j : ℕ} {c c' d : Call} (hc : w.calls[i]? = some c) :
    (w.setCall i c').calls[j]? = some d ↔ (j = i ∧ d = c') ∨ (j ≠ i ∧ w.calls[j]? = some d) :=
  System.getElem?_set_iff hc

/-- A call moves on: it settles only if it was granted nothing, and brings
no other lease to the map than before. -/
theorem quiet_setCall {i : ℕ} {c c' : Call} (hc : w.calls[i]? = some c)
    (hpending : c'.pending p = c.pending p ∨
      c'.pending p = false ∧ ∀ g, ¬ (view p w).granted i g)
    (hcarries : ∀ g, w.carries p c' = some g → w.carries p c = some g)
    (hdisplaced : ∀ previous, c' ≠ .displaced p previous) :
    Grants.Quiet (view p w) (view p (w.setCall i c')) where
  starts j h := by
    obtain ⟨d, hd, hd'⟩ := h
    rcases (getElem?_setCall hc).mp hd with ⟨rfl, rfl⟩ | ⟨-, hd⟩
    · rcases hpending with hsame | ⟨hno, -⟩
      · exact Or.inl ⟨c, hc, hsame ▸ hd'⟩
      · rw [hno] at hd'
        cases hd'
    · exact Or.inl ⟨d, hd, hd'⟩
  ends j h := by
    obtain ⟨d, hd, hd'⟩ := h
    by_cases hj : j = i
    · subst hj
      obtain rfl := Option.some.inj (hc.symm.trans hd)
      rcases hpending with hsame | ⟨-, hnone⟩
      · exact Or.inl ⟨c', (getElem?_setCall hc).mpr (Or.inl ⟨rfl, rfl⟩), hsame ▸ hd'⟩
      · exact Or.inr hnone
    · exact Or.inl ⟨d, (getElem?_setCall hc).mpr (Or.inr ⟨hj, hd⟩), hd'⟩
  granted j g := Iff.rfl
  carried j g h := by
    obtain ⟨d, hd, hd'⟩ := h
    rcases (getElem?_setCall hc).mp hd with ⟨rfl, rfl⟩ | ⟨-, hd⟩
    · exact ⟨c, hc, hcarries g hd'⟩
    · exact ⟨d, hd, hd'⟩
  kept := rfl
  returned g h := by
    rcases h with h | h | ⟨previous, hmem, hlease⟩
    · exact Or.inl h
    · exact Or.inr (Or.inl h)
    · rcases List.mem_or_eq_of_mem_set hmem with hmem | heq
      · exact Or.inr (Or.inr ⟨previous, hmem, hlease⟩)
      · exact absurd heq.symm (hdisplaced previous)
  returning g h := givenUp_of_returning h
  lost g h := Or.inl h
  held := rfl

/-- What the two ends do not see. -/
theorem quiet_same {w' : World} (hcalls : w'.calls = w.calls) (hmessages : w'.messages = w.messages)
    (htasks : ∀ lease, (p, lease) ∈ w'.tasks → w.GivenUp p lease.leaseId)
    (htracked : w'.tracked p = w.tracked p) (hheld : w'.held p = w.held p) :
    Grants.Quiet (view p w) (view p w') where
  starts i h := Or.inl (by simpa only [view, hcalls] using h)
  ends i h := Or.inl (by simpa only [view, hcalls] using h)
  granted i g := by simp only [view, hmessages]
  carried i g h := by
    obtain ⟨c, hc, hcarries⟩ := h
    refine ⟨c, hcalls ▸ hc, ?_⟩
    cases c <;> simpa only [World.carries, hmessages] using hcarries
  kept := htracked
  returned g h := by
    rcases h with ⟨m, hm, hdeletes⟩ | ⟨lease, hlease, rfl⟩ | ⟨previous, hmem, hlease⟩
    · exact Or.inl ⟨m, hmessages ▸ hm, hdeletes⟩
    · exact htasks lease hlease
    · exact Or.inr (Or.inr ⟨previous, hcalls ▸ hmem, hlease⟩)
  returning g h := givenUp_of_returning h
  lost g h := Or.inl (by simpa only [view, hmessages] using h)
  held := hheld

/-- The requests after one has been settled. -/
theorem getElem?_settle {n k : ℕ} {m m' : Message} {d : Delivery} (hm : w.messages[n]? = some m) :
    (w.settle n d).messages[k]? = some m' ↔
      (k = n ∧ m' = { m with delivery := d }) ∨ (k ≠ n ∧ w.messages[k]? = some m') := by
  simp only [World.settle, List.getElem?_modify]
  by_cases hk : k = n
  · subst hk
    simp [hm, eq_comm]
  · simp [hk, Ne.symm hk]

/-- A request that is still there, or was settled. -/
theorem mem_settle {n : ℕ} {m m' : Message} {d : Delivery} (hm : w.messages[n]? = some m)
    (h : m' ∈ (w.settle n d).messages) : m' ∈ w.messages ∨ m' = { m with delivery := d } := by
  obtain ⟨k, hk⟩ := List.mem_iff_getElem?.mp h
  rcases (getElem?_settle hm).mp hk with ⟨-, rfl⟩ | ⟨-, hk⟩
  · exact Or.inr rfl
  · exact Or.inl (List.mem_iff_getElem?.mpr ⟨k, hk⟩)

/-- A request other than the settled one is still there. -/
theorem mem_settle_of_mem {n : ℕ} {m m' : Message} {d : Delivery} (hm : w.messages[n]? = some m)
    (h : m' ∈ w.messages) : m' ∈ (w.settle n d).messages ∨ m' = m := by
  obtain ⟨k, hk⟩ := List.mem_iff_getElem?.mp h
  by_cases hkn : k = n
  · subst hkn
    exact Or.inr (Option.some.inj (hk.symm.trans hm))
  · exact Or.inl (List.mem_iff_getElem?.mpr ⟨k, (getElem?_settle hm).mpr (Or.inr ⟨hkn, hk⟩)⟩)

/-- What `grant` looks at. -/
theorem grant_sent {m : Message} (hsent : m.delivery = .sent) : m.grant p = none := by
  unfold Message.grant
  split
  · rename_i hask hdelivery
    rw [hsent] at hdelivery
    cases hdelivery
  · rfl

/-- A request is settled without a grant; a `DELETE` only of a lease that
the gateway does not hold. -/
theorem quiet_settle {n : ℕ} {m : Message} {d : Delivery} (hm : w.messages[n]? = some m)
    (hsent : m.delivery = .sent) (hgrant : { m with delivery := d }.grant p = none)
    (hheld : ∀ g, m.deletes p g → w.held p ≠ some g) :
    Grants.Quiet (view p w) (view p (w.settle n d)) where
  starts i h := Or.inl h
  ends i h := Or.inl h
  granted i g := by
    constructor
    · rintro ⟨m', hm', hcall, hg⟩
      rcases mem_settle hm hm' with hm' | rfl
      · exact ⟨m', hm', hcall, hg⟩
      · rw [hgrant] at hg
        cases hg
    · rintro ⟨m', hm', hcall, hg⟩
      rcases mem_settle_of_mem hm hm' with hm' | rfl
      · exact ⟨m', hm', hcall, hg⟩
      · rw [grant_sent hsent] at hg
        cases hg
  carried i g h := by
    obtain ⟨c, hc, hcarries⟩ := h
    refine ⟨c, hc, ?_⟩
    cases c with
    | putting q attempt k =>
      obtain ⟨m', hk, hg⟩ := Option.bind_eq_some_iff.mp hcarries
      rcases (getElem?_settle hm).mp hk with ⟨-, rfl⟩ | ⟨-, hk⟩
      · rw [hgrant] at hg
        cases hg
      · exact Option.bind_eq_some_iff.mpr ⟨m', hk, hg⟩
    | _ => exact hcarries
  kept := rfl
  returned g h := by
    rcases h with ⟨m', hm', hdeletes⟩ | h
    · rcases mem_settle hm hm' with hm' | rfl
      · exact Or.inl ⟨m', hm', hdeletes⟩
      · exact Or.inl ⟨m, List.mem_iff_getElem?.mpr ⟨n, hm⟩, hdeletes⟩
    · exact Or.inr h
  returning g h := givenUp_of_returning h
  lost g h := by
    obtain ⟨m', hm', hdeletes, hsent'⟩ := h
    rcases mem_settle_of_mem hm hm' with hm' | rfl
    · exact Or.inl ⟨m', hm', hdeletes, hsent'⟩
    · exact Or.inr (hheld g hdeletes)
  held := rfl

/-- A call starts. -/
theorem quiet_start {c : Call} (hcarries : w.carries p c = none)
    (hfresh : ∀ g, ¬ (view p w).granted w.calls.length g)
    (hdisplaced : ∀ previous, c ≠ .displaced p previous) :
    Grants.Quiet (view p w) (view p { w with calls := w.calls ++ [c] }) where
  starts i h := by
    obtain ⟨d, hd, hpending⟩ := h
    rcases System.getElem?_concat_cases hd with hd | ⟨rfl, -⟩
    · exact Or.inl ⟨d, hd, hpending⟩
    · exact Or.inr hfresh
  ends i h := by
    obtain ⟨d, hd, hpending⟩ := h
    have hi := (List.getElem?_eq_some_iff.mp hd).1
    exact Or.inl ⟨d, (List.getElem?_append_left hi).trans hd, hpending⟩
  granted i g := Iff.rfl
  carried i g h := by
    obtain ⟨d, hd, hd'⟩ := h
    rcases System.getElem?_concat_cases hd with hd | ⟨-, rfl⟩
    · exact ⟨d, hd, hd'⟩
    · exact absurd (hcarries.symm.trans hd') nofun
  kept := rfl
  returned g h := by
    rcases h with h | h | ⟨previous, hmem, hlease⟩
    · exact Or.inl h
    · exact Or.inr (Or.inl h)
    · rcases List.mem_append.mp hmem with hmem | hmem
      · exact Or.inr (Or.inr ⟨previous, hmem, hlease⟩)
      · exact absurd (List.mem_singleton.mp hmem).symm (hdisplaced previous)
  returning g h := givenUp_of_returning h
  lost g h := Or.inl h
  held := rfl

/-- A lease comes to the map. -/
theorem keeping_put {i : ℕ} {tracked : TrackedLease} (hc : w.calls[i]? = some (.scheduled p tracked)) :
    Grants.Keeping i tracked.lease.leaseId (view p w) (view p (w.put i p tracked)) := by
  -- what the call does next is not pending, carries nothing and has the displaced lease
  obtain ⟨c', hput, hpending, hcarries, hdisplaced⟩ : ∃ c', w.put i p tracked =
        { w.setCall i c' with leases := w.leases.insert p tracked } ∧ c'.pending p = false ∧
      w.carries p c' = none ∧
      ∀ previous, c' = .displaced p previous → w.leases.lookup p = some previous := by
    unfold World.put
    cases w.leases.lookup p with
    | none => exact ⟨.returned, rfl, rfl, rfl, nofun⟩
    | some previous => exact ⟨.displaced p previous, rfl, rfl, rfl, fun _ h => by cases h; rfl⟩
  rw [hput]
  constructor
  case arrives => exact ⟨_, hc, by simp [World.carries]⟩
  case pending =>
    intro j
    constructor
    · rintro ⟨d, hd, hd'⟩
      rcases (getElem?_setCall hc).mp hd with ⟨-, rfl⟩ | ⟨hj, hd⟩
      · rw [hpending] at hd'
        cases hd'
      · exact ⟨⟨d, hd, hd'⟩, hj⟩
    · rintro ⟨⟨d, hd, hd'⟩, hj⟩
      exact ⟨d, (getElem?_setCall hc).mpr (Or.inr ⟨hj, hd⟩), hd'⟩
  case granted => exact fun j k => Iff.rfl
  case carried =>
    rintro j k ⟨d, hd, hd'⟩
    rcases (getElem?_setCall hc).mp hd with ⟨-, rfl⟩ | ⟨hj, hd⟩
    · exact absurd (hcarries.symm.trans hd') nofun
    · exact ⟨⟨d, hd, hd'⟩, hj⟩
  case kept => simp [view, World.tracked]
  case returned =>
    rintro k (h | h | ⟨previous, hmem, rfl⟩)
    · exact Or.inl (Or.inl h)
    · exact Or.inl (Or.inr (Or.inl h))
    · rcases List.mem_or_eq_of_mem_set hmem with hmem | heq
      · exact Or.inl (Or.inr (Or.inr ⟨previous, hmem, rfl⟩))
      · right
        simp [view, World.tracked, hdisplaced previous heq.symm]
  case returning => exact fun k h => givenUp_of_returning h
  case held => rfl

/-- A lease is taken out of the map and its `DELETE` sent. -/
theorem givingBack_remove {call : Option ℕ} {tracked : TrackedLease}
    (htracked : w.leases.lookup p = some tracked) :
    Grants.GivingBack (view p w) (view p (({ w with leases := w.leases.erase p }.cancel tracked).send
      call (.unregister p tracked.lease))) := by
  have hkept : (view p w).kept = some tracked.lease.leaseId := by
    simp [view, World.tracked, htracked]
  have hquiet : ∀ c : Call, (({ w with leases := w.leases.erase p }.cancel tracked).send call
      (.unregister p tracked.lease)).carries p c = w.carries p c := by
    intro c
    rw [carries_send]
    cases c <;> rfl
  constructor
  case pending => exact fun j => Iff.rfl
  case granted =>
    intro j k
    have hnew : ({ call, ask := .unregister p tracked.lease } : Message).grant p = none := rfl
    simp [view, World.send, World.cancel, or_and_right, exists_or, hnew]
  case carried =>
    rintro j k ⟨c, hc, hcarries⟩
    exact ⟨c, hc, (hquiet c).symm.trans hcarries⟩
  case kept => simp [view, World.tracked, World.send, World.cancel]
  case returned =>
    rintro k (⟨m, hm, hdeletes⟩ | h)
    · rcases List.mem_append.mp hm with hm | hm
      · exact Or.inl (Or.inl ⟨m, hm, hdeletes⟩)
      · obtain rfl := List.mem_singleton.mp hm
        obtain ⟨lease, hlease, rfl⟩ := hdeletes
        obtain ⟨-, rfl⟩ := Ask.unregister.inj hlease
        exact Or.inr hkept
    · exact Or.inl (Or.inr h)
  case returning => exact fun k h => givenUp_of_returning h
  case sent =>
    rintro k (⟨m, hm, hdeletes, hsent⟩ | hk)
    · exact ⟨m, List.mem_append_left _ hm, hdeletes, hsent⟩
    · obtain rfl := Option.some.inj (hkept.symm.trans hk)
      exact ⟨_, List.mem_append_right _ (List.mem_singleton.mpr rfl), ⟨_, rfl, rfl⟩, rfl⟩
  case held => rfl

/-- The gateway lets go of a lease that is given up. -/
theorem takingBack_erase {g : GoString} {shared : Shared} (hgiven : w.GivenUp p g)
    (hheld : w.held p = some g) (herase : shared.registrations.lookup p = none) :
    Grants.TakingBack g (view p w) (view p { w with shared }) where
  arrives := hgiven
  pending j := Iff.rfl
  granted j k := Iff.rfl
  carried j k h := h
  kept := rfl
  returned k h := h
  returning k h := givenUp_of_returning h
  rest k h := Or.inl h
  held := Or.inl ⟨hheld, by simp [view, World.held, herase]⟩

/-- The gateway grants a lease to a call that has not come to the map, and
none is on its way there. -/
theorem granting_serve {n i : ℕ} {m : Message} {d : Delivery} {g : GoString} {shared : Shared}
    (hm : w.messages[n]? = some m) (hsent : m.delivery = .sent) (hcall : m.call = some i)
    (hask : m.ask = .register p) (hgrant : { m with delivery := d }.grant p = some g)
    (hwaits : ∀ j q attempt, w.calls[j]? = some (.putting q attempt n) → j = i)
    (hpending : ∃ c, w.calls[i]? = some c ∧ c.pending p = true)
    (halone : ∀ c ∈ w.calls, w.carries p c = none) (hfresh : ∀ j, ¬ (view p w).granted j g)
    (hheld : (shared.registrations.lookup p).map (·.leaseID) = some g) :
    Grants.Granting i g (view p w) (view p { w.settle n d with shared }) where
  unsettled := hpending
  alone j k h := by
    obtain ⟨c, hc, hcarries⟩ := h
    exact absurd ((halone c (List.mem_of_getElem? hc)).symm.trans hcarries) nofun
  fresh := hfresh
  pending j := Iff.rfl
  granted j k := by
    constructor
    · rintro ⟨m', hm', hcall', hk⟩
      rcases mem_settle hm hm' with hm' | rfl
      · exact Or.inl ⟨m', hm', hcall', hk⟩
      · have hij : some i = some j := hcall.symm.trans hcall'
        have hgk : some g = some k := hgrant.symm.trans hk
        exact Or.inr ⟨(Option.some.inj hij).symm, (Option.some.inj hgk).symm⟩
    · rintro (⟨m', hm', hcall', hk⟩ | ⟨rfl, rfl⟩)
      · rcases mem_settle_of_mem hm hm' with hm' | rfl
        · exact ⟨m', hm', hcall', hk⟩
        · rw [grant_sent hsent] at hk
          cases hk
      · have hnew : (w.settle n d).messages[n]? = some { m with delivery := d } :=
          (getElem?_settle hm).mpr (Or.inl ⟨rfl, rfl⟩)
        exact ⟨_, List.mem_of_getElem? hnew, hcall, hgrant⟩
  carried j k h := by
    obtain ⟨c, hc, hcarries⟩ := h
    have hnone := halone c (List.mem_of_getElem? hc)
    cases c with
    | putting q attempt n' =>
      obtain ⟨m', hk, hg⟩ := Option.bind_eq_some_iff.mp hcarries
      rcases (getElem?_settle hm).mp hk with ⟨rfl, rfl⟩ | ⟨-, hk⟩
      · exact ⟨hwaits j q attempt hc, Option.some.inj (hg.symm.trans hgrant)⟩
      · -- another request was granted before
        have hsome : w.carries p (.putting q attempt n') = some k :=
          Option.bind_eq_some_iff.mpr ⟨m', hk, hg⟩
        exact absurd (hnone.symm.trans hsome) nofun
    | _ => exact absurd (hnone.symm.trans hcarries) nofun
  kept := rfl
  returned k h := by
    rcases h with ⟨m', hm', hdeletes⟩ | h
    · rcases mem_settle hm hm' with hm' | rfl
      · exact Or.inl ⟨m', hm', hdeletes⟩
      · obtain ⟨lease, hlease, -⟩ := hdeletes
        rw [hask] at hlease
        cases hlease
    · exact Or.inr h
  returning k h := givenUp_of_returning h
  held := hheld

end Mutations

end Companion

end McRouter
