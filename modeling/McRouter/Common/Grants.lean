import Mathlib.Logic.Basic

/-!
# Grants

A client obtains grants from a server by calls and keeps the one that came
last; the ones it no longer wants it gives back. The server holds one grant
for the client, the one it has granted last. Neither end sees the other:
between them grants and give-backs are on their way.

`View` is what both ends and the way between them look like. A step is
`Quiet`, or one of `Granting`, `Keeping`, `GivingBack` and `TakingBack`, when
the grants come to the client in the order in which they were made and no
call ends without its grant. Each keeps the ends consistent, and once
nothing is under way **consistent ends agree** (`Consistent.agree`).
-/

namespace McRouter

namespace Grants

/-- The two ends, for calls `ι` and grants `γ`. -/
structure View (ι γ : Type) where
  /-- The calls that have not settled yet. -/
  pending : ι → Prop
  /-- The server has made this grant for this call. -/
  granted : ι → γ → Prop
  /-- A grant on its way from the server to what the client keeps. -/
  carried : ι → γ → Prop
  /-- What the client keeps. -/
  kept : Option γ
  /-- The grants that the client does not want any more. -/
  returned : γ → Prop
  /-- The give-backs on their way to the server. -/
  returning : γ → Prop
  /-- What the server holds. -/
  held : Option γ

variable {ι γ : Type} {v v' : View ι γ}

/-- A call is under way for which a grant was made. -/
def View.Owing (v : View ι γ) : Prop := ∃ i g, v.pending i ∧ v.granted i g

/-- The call of the grant has settled. -/
def View.Settled (v : View ι γ) (g : γ) : Prop := ∃ i, v.granted i g ∧ ¬ v.pending i

/-- **The invariant.** A grant that is on its way is the one the server
holds; a grant that is kept or given back is not on its way. Where the ends
differ, a call is under way that has been granted something, or a give-back
of what the server holds. -/
structure Consistent (v : View ι γ) : Prop where
  unique : ∀ i j g, v.granted i g → v.granted j g → i = j
  carried_granted : ∀ i g, v.carried i g → v.granted i g ∧ v.pending i
  carried_held : ∀ i g, v.carried i g → v.held = some g
  kept_settled : ∀ g, v.kept = some g → v.Settled g
  returned_settled : ∀ g, v.returned g → v.kept ≠ some g ∧ v.Settled g
  returning_returned : ∀ g, v.returning g → v.returned g
  kept_held : ∀ g, v.kept = some g → v.held = some g ∨ v.Owing
  held_kept : ∀ g, v.held = some g → v.kept = some g ∨ v.Owing ∨ v.returning g

/-- **The ends agree** once no call and no give-back is under way. -/
theorem Consistent.agree (h : Consistent v) (hpending : ∀ i, ¬ v.pending i)
    (hreturning : ∀ g, ¬ v.returning g) : v.kept = v.held := by
  have howing : ¬ v.Owing := fun ⟨i, _, hi, _⟩ => hpending i hi
  ext g
  constructor
  · intro hkept
    exact (h.kept_held g hkept).resolve_right howing
  · intro hheld
    rcases h.held_kept g hheld with hkept | howing' | hreturning'
    · exact hkept
    · exact absurd howing' howing
    · exact absurd hreturning' (hreturning g)

/-- A grant whose call has settled is not on its way. -/
theorem Consistent.not_carried (h : Consistent v) {g : γ} (hg : v.Settled g) (i : ι) :
    ¬ v.carried i g := by
  intro hcarried
  obtain ⟨j, hgranted, hsettled⟩ := hg
  obtain ⟨hgranted', hpending⟩ := h.carried_granted i g hcarried
  exact hsettled (h.unique i j g hgranted' hgranted ▸ hpending)

/-! ## Steps -/

/-- A call starts, goes on, or ends without a grant; grants and give-backs
are lost on their way, but not a give-back of what the server holds. -/
structure Quiet (v v' : View ι γ) : Prop where
  starts : ∀ i, v'.pending i → v.pending i ∨ ∀ g, ¬ v.granted i g
  ends : ∀ i, v.pending i → v'.pending i ∨ ∀ g, ¬ v.granted i g
  granted : ∀ i g, v'.granted i g ↔ v.granted i g
  carried : ∀ i g, v'.carried i g → v.carried i g
  kept : v'.kept = v.kept
  returned : ∀ g, v'.returned g → v.returned g
  returning : ∀ g, v'.returning g → v'.returned g
  lost : ∀ g, v.returning g → v'.returning g ∨ v.held ≠ some g
  held : v'.held = v.held

/-- The server makes a grant for a call that has not settled, while no other
grant is on its way. -/
structure Granting (i : ι) (g : γ) (v v' : View ι γ) : Prop where
  unsettled : v.pending i
  alone : ∀ j k, ¬ v.carried j k
  fresh : ∀ j, ¬ v.granted j g
  pending : ∀ j, v'.pending j ↔ v.pending j
  granted : ∀ j k, v'.granted j k ↔ v.granted j k ∨ (j = i ∧ k = g)
  carried : ∀ j k, v'.carried j k → j = i ∧ k = g
  kept : v'.kept = v.kept
  returned : ∀ k, v'.returned k → v.returned k
  returning : ∀ k, v'.returning k → v'.returned k
  held : v'.held = some g

/-- A grant arrives and is kept in place of the one before. -/
structure Keeping (i : ι) (g : γ) (v v' : View ι γ) : Prop where
  arrives : v.carried i g
  pending : ∀ j, v'.pending j ↔ v.pending j ∧ j ≠ i
  granted : ∀ j k, v'.granted j k ↔ v.granted j k
  carried : ∀ j k, v'.carried j k → v.carried j k ∧ j ≠ i
  kept : v'.kept = some g
  returned : ∀ k, v'.returned k → v.returned k ∨ v.kept = some k
  returning : ∀ k, v'.returning k → v'.returned k
  held : v'.held = v.held

/-- The client gives back what it keeps. -/
structure GivingBack (v v' : View ι γ) : Prop where
  pending : ∀ j, v'.pending j ↔ v.pending j
  granted : ∀ j k, v'.granted j k ↔ v.granted j k
  carried : ∀ j k, v'.carried j k → v.carried j k
  kept : v'.kept = none
  returned : ∀ k, v'.returned k → v.returned k ∨ v.kept = some k
  returning : ∀ k, v'.returning k → v'.returned k
  sent : ∀ k, v.returning k ∨ v.kept = some k → v'.returning k
  held : v'.held = v.held

/-- A give-back arrives at the server. -/
structure TakingBack (g : γ) (v v' : View ι γ) : Prop where
  arrives : v.returned g
  pending : ∀ j, v'.pending j ↔ v.pending j
  granted : ∀ j k, v'.granted j k ↔ v.granted j k
  carried : ∀ j k, v'.carried j k → v.carried j k
  kept : v'.kept = v.kept
  returned : ∀ k, v'.returned k → v.returned k
  returning : ∀ k, v'.returning k → v'.returned k
  rest : ∀ k, v.returning k → v'.returning k ∨ k = g
  held : v.held = some g ∧ v'.held = none ∨ v.held ≠ some g ∧ v'.held = v.held

/-! ## What steps keep -/

/-- A call that has settled stays settled. -/
theorem settled_mono (hgranted : ∀ i g, v.granted i g → v'.granted i g)
    (hpending : ∀ i, v'.pending i → v.pending i ∨ ∀ g, ¬ v.granted i g) {g : γ}
    (h : v.Settled g) : v'.Settled g := by
  obtain ⟨i, hi, hsettled⟩ := h
  refine ⟨i, hgranted i g hi, fun hpending' => ?_⟩
  rcases hpending i hpending' with hpending | hnone
  · exact hsettled hpending
  · exact hnone g hi

/-- A grant that is owed is owed until its call has settled. -/
theorem owing_mono (hgranted : ∀ i g, v.granted i g → v'.granted i g)
    (hpending : ∀ i, v.pending i → v'.pending i ∨ ∀ g, ¬ v.granted i g)
    (h : v.Owing) : v'.Owing := by
  obtain ⟨i, g, hi, hg⟩ := h
  rcases hpending i hi with hpending | hnone
  · exact ⟨i, g, hpending, hgranted i g hg⟩
  · exact absurd hg (hnone g)

theorem Consistent.quiet (h : Consistent v) (hs : Quiet v v') : Consistent v' := by
  have hsettled : ∀ g, v.Settled g → v'.Settled g := fun g =>
    settled_mono (fun i g => (hs.granted i g).mpr) hs.starts
  have howing : v.Owing → v'.Owing := owing_mono (fun i g => (hs.granted i g).mpr) hs.ends
  constructor
  case unique =>
    intro i j g hi hj
    exact h.unique i j g ((hs.granted i g).mp hi) ((hs.granted j g).mp hj)
  case carried_granted =>
    intro i g hcarried
    obtain ⟨hgranted, hpending⟩ := h.carried_granted i g (hs.carried i g hcarried)
    exact ⟨(hs.granted i g).mpr hgranted,
      (hs.ends i hpending).resolve_right fun hnone => hnone g hgranted⟩
  case carried_held =>
    intro i g hcarried
    exact hs.held ▸ h.carried_held i g (hs.carried i g hcarried)
  case kept_settled => exact fun g hkept => hsettled g (h.kept_settled g (hs.kept ▸ hkept))
  case returned_settled =>
    intro g hreturned
    obtain ⟨hne, hg⟩ := h.returned_settled g (hs.returned g hreturned)
    exact ⟨hs.kept ▸ hne, hsettled g hg⟩
  case returning_returned => exact hs.returning
  case kept_held =>
    intro g hkept
    exact (h.kept_held g (hs.kept ▸ hkept)).imp (fun hheld => hs.held ▸ hheld) howing
  case held_kept =>
    intro g hheld
    rcases h.held_kept g (hs.held ▸ hheld) with hkept | hkept | hreturning
    · exact Or.inl (hs.kept ▸ hkept)
    · exact Or.inr (Or.inl (howing hkept))
    · exact Or.inr (Or.inr ((hs.lost g hreturning).resolve_right fun hne => hne (hs.held ▸ hheld)))

theorem Consistent.grant (h : Consistent v) {i : ι} {g : γ} (hs : Granting i g v v') :
    Consistent v' := by
  have hgranted : ∀ j k, v.granted j k → v'.granted j k := fun j k hk =>
    (hs.granted j k).mpr (Or.inl hk)
  have hsettled : ∀ k, v.Settled k → v'.Settled k := fun k =>
    settled_mono hgranted fun j hj => Or.inl ((hs.pending j).mp hj)
  have hnew : v'.granted i g := (hs.granted i g).mpr (Or.inr ⟨rfl, rfl⟩)
  have hpending : v'.pending i := (hs.pending i).mpr hs.unsettled
  constructor
  case unique =>
    intro j j' k hj hj'
    rcases (hs.granted j k).mp hj with hj | ⟨rfl, rfl⟩
    · rcases (hs.granted j' k).mp hj' with hj' | ⟨rfl, rfl⟩
      · exact h.unique j j' k hj hj'
      · exact absurd hj (hs.fresh j)
    · rcases (hs.granted j' k).mp hj' with hj' | ⟨rfl, -⟩
      · exact absurd hj' (hs.fresh j')
      · rfl
  case carried_granted =>
    intro j k hcarried
    obtain ⟨rfl, rfl⟩ := hs.carried j k hcarried
    exact ⟨hnew, hpending⟩
  case carried_held =>
    intro j k hcarried
    obtain ⟨rfl, rfl⟩ := hs.carried j k hcarried
    exact hs.held
  case kept_settled => exact fun k hkept => hsettled k (h.kept_settled k (hs.kept ▸ hkept))
  case returned_settled =>
    intro k hreturned
    obtain ⟨hne, hk⟩ := h.returned_settled k (hs.returned k hreturned)
    exact ⟨hs.kept ▸ hne, hsettled k hk⟩
  case returning_returned => exact hs.returning
  -- until the call has settled the ends may differ
  case kept_held => exact fun k _ => Or.inr ⟨i, g, hpending, hnew⟩
  case held_kept => exact fun k _ => Or.inr (Or.inl ⟨i, g, hpending, hnew⟩)

theorem Consistent.keep (h : Consistent v) {i : ι} {g : γ} (hs : Keeping i g v v') :
    Consistent v' := by
  obtain ⟨hgranted, -⟩ := h.carried_granted i g hs.arrives
  have hheld : v'.held = some g := hs.held.trans (h.carried_held i g hs.arrives)
  have hsettled : ∀ k, v.Settled k → v'.Settled k := fun k =>
    settled_mono (fun j k => (hs.granted j k).mpr) fun j hj => Or.inl ((hs.pending j).mp hj).1
  have hkept : v'.Settled g :=
    ⟨i, (hs.granted i g).mpr hgranted, fun hi => ((hs.pending i).mp hi).2 rfl⟩
  have hold : ∀ k, v.Settled k → k ≠ g := fun k hk hkg => h.not_carried (hkg ▸ hk) i hs.arrives
  constructor
  case unique =>
    intro j j' k hj hj'
    exact h.unique j j' k ((hs.granted j k).mp hj) ((hs.granted j' k).mp hj')
  case carried_granted =>
    intro j k hcarried
    obtain ⟨hcarried, hne⟩ := hs.carried j k hcarried
    obtain ⟨hk, hj⟩ := h.carried_granted j k hcarried
    exact ⟨(hs.granted j k).mpr hk, (hs.pending j).mpr ⟨hj, hne⟩⟩
  case carried_held =>
    intro j k hcarried
    exact hs.held.trans (h.carried_held j k (hs.carried j k hcarried).1)
  case kept_settled =>
    intro k hk
    obtain rfl := Option.some.inj (hs.kept.symm.trans hk)
    exact hkept
  case returned_settled =>
    intro k hreturned
    -- what is given back was settled before
    have hk : v.Settled k := by
      rcases hs.returned k hreturned with hreturned | hk
      · exact (h.returned_settled k hreturned).2
      · exact h.kept_settled k hk
    refine ⟨fun hk' => ?_, hsettled k hk⟩
    exact hold k hk (Option.some.inj (hk'.symm.trans hs.kept))
  case returning_returned => exact hs.returning
  case kept_held => exact fun k hk => Or.inl (hheld.trans (hs.kept.symm.trans hk))
  case held_kept => exact fun k hk => Or.inl (hs.kept.trans (hheld.symm.trans hk))

theorem Consistent.giveBack (h : Consistent v) (hs : GivingBack v v') : Consistent v' := by
  have hsettled : ∀ k, v.Settled k → v'.Settled k := fun k =>
    settled_mono (fun j k => (hs.granted j k).mpr) fun j hj => Or.inl ((hs.pending j).mp hj)
  have howing : v.Owing → v'.Owing :=
    owing_mono (fun j k => (hs.granted j k).mpr) fun j hj => Or.inl ((hs.pending j).mpr hj)
  have hnone : ∀ k, v'.kept ≠ some k := by
    rw [hs.kept]
    nofun
  constructor
  case unique =>
    intro j j' k hj hj'
    exact h.unique j j' k ((hs.granted j k).mp hj) ((hs.granted j' k).mp hj')
  case carried_granted =>
    intro j k hcarried
    obtain ⟨hk, hj⟩ := h.carried_granted j k (hs.carried j k hcarried)
    exact ⟨(hs.granted j k).mpr hk, (hs.pending j).mpr hj⟩
  case carried_held =>
    intro j k hcarried
    exact hs.held.trans (h.carried_held j k (hs.carried j k hcarried))
  case kept_settled => exact fun k hk => absurd hk (hnone k)
  case returned_settled =>
    intro k hreturned
    rcases hs.returned k hreturned with hreturned | hk
    · exact ⟨hnone k, hsettled k (h.returned_settled k hreturned).2⟩
    · exact ⟨hnone k, hsettled k (h.kept_settled k hk)⟩
  case returning_returned => exact hs.returning
  case kept_held => exact fun k hk => absurd hk (hnone k)
  case held_kept =>
    intro k hheld
    rcases h.held_kept k (hs.held ▸ hheld) with hk | hk | hk
    · exact Or.inr (Or.inr (hs.sent k (Or.inr hk)))
    · exact Or.inr (Or.inl (howing hk))
    · exact Or.inr (Or.inr (hs.sent k (Or.inl hk)))

theorem Consistent.takeBack (h : Consistent v) {g : γ} (hs : TakingBack g v v') :
    Consistent v' := by
  obtain ⟨hne, hg⟩ := h.returned_settled g hs.arrives
  have hsettled : ∀ k, v.Settled k → v'.Settled k := fun k =>
    settled_mono (fun j k => (hs.granted j k).mpr) fun j hj => Or.inl ((hs.pending j).mp hj)
  have howing : v.Owing → v'.Owing :=
    owing_mono (fun j k => (hs.granted j k).mpr) fun j hj => Or.inl ((hs.pending j).mpr hj)
  -- only the grant that is given back is let go
  have hheld : ∀ k, k ≠ g → v.held = some k → v'.held = some k := by
    intro k hk hv
    rcases hs.held with ⟨hv', -⟩ | ⟨-, hsame⟩
    · exact absurd (Option.some.inj (hv.symm.trans hv')) hk
    · exact hsame.trans hv
  constructor
  case unique =>
    intro j j' k hj hj'
    exact h.unique j j' k ((hs.granted j k).mp hj) ((hs.granted j' k).mp hj')
  case carried_granted =>
    intro j k hcarried
    obtain ⟨hk, hj⟩ := h.carried_granted j k (hs.carried j k hcarried)
    exact ⟨(hs.granted j k).mpr hk, (hs.pending j).mpr hj⟩
  case carried_held =>
    intro j k hcarried
    have hcarried := hs.carried j k hcarried
    have hkg : k ≠ g := fun hkg => h.not_carried hg j (hkg ▸ hcarried)
    exact hheld k hkg (h.carried_held j k hcarried)
  case kept_settled => exact fun k hkept => hsettled k (h.kept_settled k (hs.kept ▸ hkept))
  case returned_settled =>
    intro k hreturned
    obtain ⟨hne, hk⟩ := h.returned_settled k (hs.returned k hreturned)
    exact ⟨hs.kept ▸ hne, hsettled k hk⟩
  case returning_returned => exact hs.returning
  case kept_held =>
    intro k hkept
    rw [hs.kept] at hkept
    have hkg : k ≠ g := fun hkg => hne (hkg ▸ hkept)
    exact (h.kept_held k hkept).imp (hheld k hkg) howing
  case held_kept =>
    intro k hk
    obtain ⟨hv, hkg⟩ : v.held = some k ∧ k ≠ g := by
      rcases hs.held with ⟨-, hnone⟩ | ⟨hv, hsame⟩
      · rw [hnone] at hk
        cases hk
      · rw [hsame] at hk
        exact ⟨hk, fun hkg => hv (hkg ▸ hk)⟩
    rcases h.held_kept k hv with hkept | hkept | hreturning
    · exact Or.inl (hs.kept.trans hkept)
    · exact Or.inr (Or.inl (howing hkept))
    · exact Or.inr (Or.inr ((hs.rest k hreturning).resolve_right hkg))

end Grants

end McRouter
