import McRouter.Common.System

/-!
# Systems that come to rest

Some steps of a system are *due*: the program takes them by itself, and
nothing outside has to happen first. A system settles when every due step
lowers a rank that no other step raises, and when a due step is left as long
as the goal is not reached (`Settling`). Then no run holds more due steps
than the rank it starts from (`Settling.dueSteps_le`), and due steps alone
lead to the goal (`Settling.reaches`): whatever the outside does and however
the workers take turns, the program gets there unless it is stopped from
running altogether.
-/

namespace McRouter

namespace System

variable {σ α : Type}

/-- How many steps of a run are due, each looked at in the state before it. -/
def dueSteps (step : σ → α → Option σ) (due : σ → α → Prop) [∀ s a, Decidable (due s a)] :
    σ → List α → ℕ
  | _, [] => 0
  | s, a :: as =>
    (if due s a then 1 else 0) +
      match step s a with
      | none => 0
      | some s' => dueSteps step due s' as

/-- The goal is reached by due steps alone. `cond` is what is asked of the
other steps. -/
structure Settling (step : σ → α → Option σ) (cond due : σ → α → Prop) (I goal : σ → Prop)
    (rank : σ → ℕ) : Prop where
  keeps : ∀ s a s', I s → step s a = some s' → I s'
  never_raises : ∀ s a s', I s → cond s a → step s a = some s' → rank s' ≤ rank s
  lowers : ∀ s a s', I s → due s a → step s a = some s' → rank s' < rank s
  enabled : ∀ s, I s → ¬ goal s → ∃ a s', due s a ∧ step s a = some s'

namespace Settling

variable {step : σ → α → Option σ} {cond due : σ → α → Prop} {I goal : σ → Prop} {rank : σ → ℕ}

/-- **No run holds more due steps than the rank it starts from.** -/
theorem dueSteps_le [∀ s a, Decidable (due s a)] (h : Settling step cond due I goal rank) :
    ∀ (as : List α) (s s' : σ), I s → Meets step cond s as → run step s as = some s' →
      dueSteps step due s as + rank s' ≤ rank s := by
  intro as
  induction as with
  | nil =>
    intro s s' _ _ hrun
    obtain rfl : s = s' := Option.some.inj hrun
    simp [dueSteps]
  | cons a as ih =>
    intro s s' hI hmeets hrun
    obtain ⟨s₁, hs₁, hrun⟩ := run_cons.mp hrun
    have hrest := ih s₁ s' (h.keeps s a s₁ hI hs₁) (hmeets.2 s₁ hs₁) hrun
    have hle := h.never_raises s a s₁ hI hmeets.1 hs₁
    simp only [dueSteps, hs₁]
    split_ifs with hdue
    · have hlt := h.lowers s a s₁ hI hdue hs₁
      omega
    · omega

/-- **Due steps alone lead to the goal.** -/
theorem reaches (h : Settling step cond due I goal rank) : ∀ s, I s →
    ∃ as s', Meets step due s as ∧ run step s as = some s' ∧ goal s' := by
  intro s
  -- by induction on the rank: a due step is left, and it lowers the rank
  induction hr : rank s using Nat.strong_induction_on generalizing s with
  | _ r ih =>
    intro hI
    by_cases hgoal : goal s
    · exact ⟨[], s, trivial, rfl, hgoal⟩
    · obtain ⟨a, s₁, hdue, hs₁⟩ := h.enabled s hI hgoal
      have hlt := h.lowers s a s₁ hI hdue hs₁
      obtain ⟨as, s', hmeets, hrun, hs'⟩ := ih (rank s₁) (by omega) s₁ rfl (h.keeps s a s₁ hI hs₁)
      refine ⟨a :: as, s', ⟨hdue, fun s₂ hs₂ => ?_⟩, run_cons.mpr ⟨s₁, hs₁, hrun⟩, hs'⟩
      obtain rfl : s₁ = s₂ := Option.some.inj (hs₁.symm.trans hs₂)
      exact hmeets

/-- Both, where nothing is asked of the other steps. -/
theorem settles [∀ s a, Decidable (due s a)]
    (h : Settling step (fun _ _ => True) due I goal rank) {s : σ} (hI : I s) {n : ℕ}
    (hn : rank s ≤ n) :
    (∀ as s', run step s as = some s' → dueSteps step due s as ≤ n) ∧
      ∃ as s', Meets step due s as ∧ run step s as = some s' ∧ goal s' := by
  refine ⟨fun as s' hrun => ?_, h.reaches s hI⟩
  have hdue := h.dueSteps_le as s s' hI (meets_true as s) hrun
  omega

end Settling

end System

end McRouter
