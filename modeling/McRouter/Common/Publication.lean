import Mathlib.Order.Basic
import Mathlib.Logic.Function.Basic

/-!
# Publishing what was read

A source takes on newer and newer versions. Workers read it, each at its
own moment, and publish what they have read at a later one. What is
published is that of the last to publish, not of the last to read: a worker
that holds an old version while another publishes a newer one takes the
published version back. **In the order of their reads** they never do
(`Ordered.publish`), and with nothing dropped and nothing held the newest
version read is the published one (`Settled.published_eq`).
-/

namespace McRouter

namespace Publication

variable {ι α : Type*}

/-- A source, its readers and what is published. -/
structure State (ι α : Type*) where
  /-- The version the source is at. -/
  current : α
  /-- The newest version somebody has read. -/
  newest : α
  published : α
  /-- What each worker has read and not yet published. -/
  held : ι → Option α

/-- The newest version read is published, or somebody still holds it. -/
def Settled (s : State ι α) : Prop :=
  s.published = s.newest ∨ ∃ i, s.held i = some s.newest

/-- With nothing held, the newest version is the published one. -/
theorem Settled.published_eq {s : State ι α} (h : Settled s) (hidle : ∀ i, s.held i = none) :
    s.published = s.newest := by
  rcases h with h | ⟨i, hi⟩
  · exact h
  · rw [hidle i] at hi
    cases hi

/-! ## What workers do -/

section Steps

variable [DecidableEq ι]

/-- A worker reads the source. -/
def State.take (s : State ι α) (i : ι) : State ι α :=
  { s with newest := s.current, held := Function.update s.held i (some s.current) }

/-- A worker gives up what it has read. -/
def State.drop (s : State ι α) (i : ι) : State ι α :=
  { s with held := Function.update s.held i none }

/-- A worker publishes what it has read. -/
def State.publish (s : State ι α) (i : ι) (v : α) : State ι α :=
  { s.drop i with published := v }

/-- What is held once a worker holds nothing. -/
theorem held_drop {s : State ι α} {i j : ι} {v : α} (h : (s.drop i).held j = some v) :
    j ≠ i ∧ s.held j = some v := by
  by_cases hj : j = i
  · subst hj
    simp [State.drop] at h
  · exact ⟨hj, by simpa [State.drop, hj] using h⟩

theorem settled_take (s : State ι α) (i : ι) : Settled (s.take i) :=
  Or.inr ⟨i, by simp [State.take]⟩

end Steps

/-! ## The order -/

variable [PartialOrder α]

/-- What is published is no newer than what is held, and that no newer than
the source. -/
structure Ordered (s : State ι α) : Prop where
  newest_le : s.newest ≤ s.current
  published_le : s.published ≤ s.newest
  held_le : ∀ i v, s.held i = some v → s.published ≤ v ∧ v ≤ s.newest

/-- The source moves on. -/
theorem Ordered.advance {s : State ι α} (h : Ordered s) {v : α} (hv : s.current ≤ v) :
    Ordered { s with current := v } :=
  { h with newest_le := le_trans h.newest_le hv }

variable [DecidableEq ι]

theorem Ordered.take {s : State ι α} (h : Ordered s) (i : ι) : Ordered (s.take i) := by
  have hcurrent : s.published ≤ s.current := le_trans h.published_le h.newest_le
  refine ⟨le_refl _, hcurrent, fun j v hv => ?_⟩
  by_cases hj : j = i
  · subst hj
    obtain rfl : s.current = v := by simpa [State.take] using hv
    exact ⟨hcurrent, le_refl _⟩
  · have hheld : s.held j = some v := by simpa [State.take, hj] using hv
    exact ⟨(h.held_le j v hheld).1, le_trans (h.held_le j v hheld).2 h.newest_le⟩

theorem Ordered.drop {s : State ι α} (h : Ordered s) (i : ι) : Ordered (s.drop i) :=
  { newest_le := h.newest_le
    published_le := h.published_le
    held_le := fun j v hv => h.held_le j v (held_drop hv).2 }

/-- **Publishing in the order of the reads.** If nobody else holds an older
version, the published one does not go back, and the order is kept. -/
theorem Ordered.publish {s : State ι α} (h : Ordered s) {i : ι} {v : α}
    (hheld : s.held i = some v) (hfirst : ∀ j v', s.held j = some v' → v ≤ v') :
    Ordered (s.publish i v) ∧ s.published ≤ v := by
  obtain ⟨hle, hnewest⟩ := h.held_le i v hheld
  refine ⟨⟨h.newest_le, hnewest, fun j v' hv' => ?_⟩, hle⟩
  have hother := (held_drop hv').2
  exact ⟨hfirst j v' hother, (h.held_le j v' hother).2⟩

theorem Settled.publish {s : State ι α} (h : Settled s) (ho : Ordered s) {i : ι} {v : α}
    (hheld : s.held i = some v) : Settled (s.publish i v) := by
  obtain ⟨hle, hnewest⟩ := ho.held_le i v hheld
  rcases h with h | ⟨j, hj⟩
  · -- the newest one is published already, so this is it once more
    exact Or.inl (le_antisymm hnewest (h ▸ hle))
  · by_cases hji : j = i
    · subst hji
      exact Or.inl (Option.some.inj (hheld.symm.trans hj))
    · exact Or.inr ⟨j, by simpa [State.publish, State.drop, hji] using hj⟩

end Publication

end McRouter
