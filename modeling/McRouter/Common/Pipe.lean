import Mathlib.Algebra.Order.Ring.Nat
import Mathlib.Data.List.Basic
import Mathlib.Logic.Function.Basic

/-!
# Copying between two ends

A copier reads from a source and writes to a sink. Of what the source has
sent, some is written, some is in the copier's hands and some still waits to
be read; `Conserves` says that these are all of it, in this order. Sending,
reading and writing keep it, and it makes what was written a beginning of
what was sent. A proxy has two ends and a copier from each to the other:
`Side` names both an end and the direction that leads away from it.
-/

namespace McRouter

namespace Pipe

/-! ## The two ends -/

/-- One of the two ends of a proxy. As a direction it is the copying from
this end to the other. -/
inductive Side where
  | client
  | backend
deriving DecidableEq, Repr

namespace Side

/-- The end a direction leads to. -/
def other : Side → Side
  | client => backend
  | backend => client

@[simp] theorem other_other (s : Side) : s.other.other = s := by
  cases s <;> rfl

@[simp] theorem other_ne (s : Side) : s.other ≠ s := by
  cases s <;> decide

@[simp] theorem ne_other (s : Side) : s ≠ s.other := s.other_ne.symm

theorem eq_or_eq_other (d s : Side) : d = s ∨ d = s.other := by
  cases d <;> cases s <;> simp [other]

protected theorem «forall» {p : Side → Prop} : (∀ s, p s) ↔ p client ∧ p backend :=
  ⟨fun h => ⟨h client, h backend⟩, fun h s => by cases s; exacts [h.1, h.2]⟩

end Side

/-- What the two ends weigh together. -/
def both {β : Type} (weight : β → ℕ) (f : Side → β) : ℕ := weight (f .client) + weight (f .backend)

theorem both_update {β : Type} (weight : β → ℕ) (f : Side → β) (s : Side) (b : β) :
    both weight (Function.update f s b) + weight (f s) = both weight f + weight b := by
  cases s
  · simp only [both, Function.update_self,
      Function.update_of_ne (show Side.backend ≠ .client by decide)]
    omega
  · simp only [both, Function.update_self,
      Function.update_of_ne (show Side.client ≠ .backend by decide)]
    omega

/-! ## One direction -/

variable {α : Type} {sent unread held written : List α}

/-- What was sent is what was written, what is held and what is unread. -/
def Conserves (sent unread held written : List α) : Prop := written ++ held ++ unread = sent

namespace Conserves

/-- The source sends some more. -/
theorem send (h : Conserves sent unread held written) (new : List α) :
    Conserves (sent ++ new) (unread ++ new) held written := by
  rw [Conserves, ← List.append_assoc, h]

/-- The copier, with empty hands, reads the next `n`. -/
theorem take (h : Conserves sent unread [] written) (n : ℕ) :
    Conserves sent (unread.drop n) (unread.take n) written := by
  rw [Conserves, List.append_assoc, List.take_append_drop, ← h, List.append_nil]

/-- The copier writes the first `n` of what it holds. -/
theorem put (h : Conserves sent unread held written) (n : ℕ) :
    Conserves sent unread (held.drop n) (written ++ held.take n) := by
  rw [Conserves, List.append_assoc written, List.take_append_drop]
  exact h

/-- What was written is a beginning of what was sent. -/
theorem written_isPrefix (h : Conserves sent unread held written) : written <+: sent :=
  ⟨held ++ unread, by rw [← List.append_assoc]; exact h⟩

/-- With nothing held and nothing unread everything is through. -/
theorem eq_of_nil (h : Conserves sent [] [] written) : written = sent := by
  rw [← h, List.append_nil, List.append_nil]

end Conserves

end Pipe

end McRouter
