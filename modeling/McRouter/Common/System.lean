import Mathlib.Algebra.Order.BigOperators.Group.List
import Mathlib.Algebra.Order.Ring.Nat

/-!
# Transition systems

A system is a step function on states that says, for each action, whether
it is enabled and where it leads. A run is a list of actions. What one step
keeps, a run keeps (`run_invariant`, `run_relation`); `Meets` is for what is
kept only as long as each step, looked at in the state before it, meets a
condition. Where several workers make up a state, they stand in a list:
`getElem?_set_cases` and `getElem?_concat_cases` say who stands where once
one has moved or one has been added, `sum_set` what they then have together.
-/

namespace McRouter

namespace System

variable {σ α : Type} (step : σ → α → Option σ)

/-- The state after a run; `none` if one of its actions was not enabled. -/
def run : σ → List α → Option σ
  | s, [] => some s
  | s, a :: as =>
    match step s a with
    | none => none
    | some s' => run s' as

/-- Each step of the run meets the condition in the state before it. -/
def Meets (cond : σ → α → Prop) : σ → List α → Prop
  | _, [] => True
  | s, a :: as => cond s a ∧ ∀ s', step s a = some s' → Meets cond s' as

/-- Whether a run meets a condition can be computed. -/
instance decidableMeets (cond : σ → α → Prop) [∀ s a, Decidable (cond s a)] :
    ∀ (s : σ) (as : List α), Decidable (Meets step cond s as)
  | _, [] => isTrue trivial
  | s, a :: as =>
    match h : step s a with
    | none => decidable_of_iff (cond s a) (by simp [Meets, h])
    | some s' =>
      have := decidableMeets cond s' as
      decidable_of_iff (cond s a ∧ Meets step cond s' as) (by simp [Meets, h])

variable {step}

/-- The first step of a run. -/
theorem run_cons {s s' : σ} {a : α} {as : List α} :
    run step s (a :: as) = some s' ↔ ∃ s₁, step s a = some s₁ ∧ run step s₁ as = some s' := by
  rw [run]
  cases step s a with
  | none => simp
  | some s₁ => simp

/-- A run that goes on. -/
theorem run_append {s s₁ s' : σ} : ∀ {as bs : List α}, run step s as = some s₁ →
    run step s₁ bs = some s' → run step s (as ++ bs) = some s' := by
  intro as
  induction as generalizing s with
  | nil =>
    intro bs has hbs
    exact Option.some.inj has ▸ hbs
  | cons a as ih =>
    intro bs has hbs
    obtain ⟨s₂, hs₂, has⟩ := run_cons.mp has
    exact run_cons.mpr ⟨s₂, hs₂, ih has hbs⟩

/-- **The invariant rule.** -/
theorem run_invariant {C : σ → α → Prop} {I : σ → Prop}
    (hstep : ∀ s a s', I s → C s a → step s a = some s' → I s') :
    ∀ (as : List α) (s s' : σ), I s → Meets step C s as → run step s as = some s' → I s' := by
  intro as
  induction as with
  | nil =>
    intro s s' hI _ hrun
    exact Option.some.inj hrun ▸ hI
  | cons a as ih =>
    intro s s' hI hmeets hrun
    obtain ⟨s₁, hs₁, hrun⟩ := run_cons.mp hrun
    exact ih s₁ s' (hstep s a s₁ hI hmeets.1 hs₁) (hmeets.2 s₁ hs₁) hrun

/-- Without a condition every run will do. -/
theorem meets_true : ∀ (as : List α) (s : σ), Meets step (fun _ _ => True) s as := by
  intro as
  induction as with
  | nil =>
    intro s
    trivial
  | cons a as ih =>
    intro s
    exact ⟨trivial, fun s' _ => ih s'⟩

/-- The invariant rule when every step keeps the invariant. -/
theorem run_invariant_of_step {I : σ → Prop} (hstep : ∀ s a s', I s → step s a = some s' → I s')
    {as : List α} {s s' : σ} (hI : I s) (hrun : run step s as = some s') : I s' :=
  run_invariant (C := fun _ _ => True) (fun s a s' hI _ hs => hstep s a s' hI hs) as s s' hI
    (meets_true as s) hrun

/-- **The relation rule**: what relates the states around each step, given
the invariant, relates the ends of a run. -/
theorem run_relation {cond : σ → α → Prop} {I : σ → Prop} {R : σ → σ → Prop}
    (hrefl : ∀ s, R s s) (htrans : ∀ s₁ s₂ s₃, R s₁ s₂ → R s₂ s₃ → R s₁ s₃)
    (hstep : ∀ s a s', I s → cond s a → step s a = some s' → I s' ∧ R s s') :
    ∀ (as : List α) (s s' : σ), I s → Meets step cond s as → run step s as = some s' → R s s' := by
  intro as
  induction as with
  | nil =>
    intro s s' _ _ hrun
    exact Option.some.inj hrun ▸ hrefl s
  | cons a as ih =>
    intro s s' hI hmeets hrun
    obtain ⟨s₁, hs₁, hrun⟩ := run_cons.mp hrun
    obtain ⟨hI₁, hR⟩ := hstep s a s₁ hI hmeets.1 hs₁
    exact htrans s s₁ s' hR (ih s₁ s' hI₁ (hmeets.2 s₁ hs₁) hrun)

/-- Two conditions that say the same in every state of a run. -/
theorem meets_congr {C D : σ → α → Prop} {I : σ → Prop}
    (hstep : ∀ s a s', I s → step s a = some s' → I s') (h : ∀ s a, I s → (C s a ↔ D s a)) :
    ∀ (as : List α) (s : σ), I s → (Meets step C s as ↔ Meets step D s as) := by
  intro as
  induction as with
  | nil =>
    intro s _
    rfl
  | cons a as ih =>
    intro s hI
    refine and_congr (h s a hI) (forall_congr' fun s' => ?_)
    exact imp_congr_right fun hs => ih s' (hstep s a s' hI hs)

/-! ## Workers in a list -/

section Workers

variable {β : Type} {l : List β} {i j : ℕ} {x y b : β}

/-- Who stands at a position after the worker at `i` has moved. -/
theorem getElem?_set_cases (h : (l.set i b)[j]? = some y) :
    (j = i ∧ y = b) ∨ (j ≠ i ∧ l[j]? = some y) := by
  rw [List.getElem?_set] at h
  split_ifs at h with hij hlt
  · exact Or.inl ⟨hij.symm, (Option.some.inj h).symm⟩
  · exact Or.inr ⟨fun hji => hij hji.symm, h⟩

/-- What holds of all workers, after the one at `i` has moved. -/
theorem forall_set {Q : ℕ → β → Prop} (h : ∀ j y, l[j]? = some y → Q j y) (hb : Q i b) :
    ∀ j y, (l.set i b)[j]? = some y → Q j y := by
  intro j y hj
  rcases getElem?_set_cases hj with ⟨rfl, rfl⟩ | ⟨-, hj⟩
  · exact hb
  · exact h j y hj

theorem getElem?_set_eq (h : l[i]? = some x) : (l.set i b)[i]? = some b :=
  List.getElem?_set_self (List.getElem?_eq_some_iff.mp h).1

theorem getElem?_set_iff (h : l[i]? = some x) :
    (l.set i b)[j]? = some y ↔ (j = i ∧ y = b) ∨ (j ≠ i ∧ l[j]? = some y) := by
  refine ⟨getElem?_set_cases, ?_⟩
  rintro (⟨rfl, rfl⟩ | ⟨hne, hj⟩)
  · exact getElem?_set_eq h
  · rw [List.getElem?_set_ne hne.symm, hj]

/-- Who stands at a position after a worker has been added. -/
theorem getElem?_concat_cases (h : (l ++ [b])[i]? = some y) :
    l[i]? = some y ∨ (i = l.length ∧ y = b) := by
  rcases Nat.lt_or_ge i l.length with hi | hi
  · rw [List.getElem?_append_left hi] at h
    exact Or.inl h
  · have hlt := (List.getElem?_eq_some_iff.mp h).1
    rw [List.length_append, List.length_singleton] at hlt
    obtain rfl : i = l.length := by omega
    rw [List.getElem?_concat_length] at h
    exact Or.inr ⟨rfl, (Option.some.inj h).symm⟩

theorem forall_concat {Q : ℕ → β → Prop} (h : ∀ j y, l[j]? = some y → Q j y) (hb : Q l.length b) :
    ∀ j y, (l ++ [b])[j]? = some y → Q j y := by
  intro j y hj
  rcases getElem?_concat_cases hj with hj | ⟨rfl, rfl⟩
  · exact h j y hj
  · exact hb

/-- What the workers have together, after the one at `i` has moved. -/
theorem sum_set (f : β → ℕ) : ∀ {l : List β} {i : ℕ} {x : β}, l[i]? = some x → ∀ b,
    ((l.set i b).map f).sum + f x = (l.map f).sum + f b := by
  intro l
  induction l with
  | nil =>
    intro i x h
    simp at h
  | cons y l ih =>
    intro i x h b
    cases i with
    | zero =>
      obtain rfl : y = x := Option.some.inj h
      simp only [List.set_cons_zero, List.map_cons, List.sum_cons]
      omega
    | succ i =>
      have hrest := ih (i := i) h b
      simp only [List.set_cons_succ, List.map_cons, List.sum_cons]
      omega

/-- A worker's share of what they have together. -/
theorem le_sum (f : β → ℕ) (h : l[i]? = some x) : f x ≤ (l.map f).sum :=
  List.single_le_sum (fun _ _ => Nat.zero_le _) _ (List.mem_map_of_mem (List.mem_of_getElem? h))

/-- The shares of two of them; `b` has none. -/
theorem add_le_sum (f : β → ℕ) (hb : f b = 0) (h : l[i]? = some x) (hne : j ≠ i)
    (hj : l[j]? = some y) : f x + f y ≤ (l.map f).sum := by
  have hset := sum_set f h b
  have hle := le_sum f (l := l.set i b) (by rw [List.getElem?_set_ne hne.symm, hj])
  omega

end Workers

end System

end McRouter
