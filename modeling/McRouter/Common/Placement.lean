import Mathlib.Algebra.BigOperators.Group.Finset.Piecewise
import Mathlib.Data.List.NodupEquivFin

/-!
# Every element in one place

A pass over a list that puts each element in one of two output lists, and
counts by a label of what it puts there. Nothing is lost and nothing is
there twice: the lengths add up, and so do the counts.
-/

namespace McRouter

namespace Placement

variable {α : Type}

/-- Two passes over a list that keep different elements keep together what
one pass keeps. -/
theorem filterMap_append_perm {β : Type} {f g both : α → Option β} : ∀ {l : List α},
    (∀ a ∈ l, f a = none ∧ both a = g a ∨ g a = none ∧ both a = f a) →
      (l.filterMap f ++ l.filterMap g).Perm (l.filterMap both) := by
  intro l
  induction l with
  | nil => intro _; exact List.Perm.nil
  | cons a l ih =>
    intro h
    have ih := ih fun b hb => h b (List.mem_cons_of_mem a hb)
    rcases h a List.mem_cons_self with ⟨hf, hboth⟩ | ⟨hg, hboth⟩
    · rw [List.filterMap_cons_none hf, List.filterMap_cons, List.filterMap_cons, hboth]
      cases g a with
      | none => exact ih
      | some b => exact List.perm_middle.trans (ih.cons b)
    · rw [List.filterMap_cons_none hg, List.filterMap_cons, List.filterMap_cons, hboth]
      cases f a with
      | none => exact ih
      | some b => exact ih.cons b

/-- Every element goes one way or the other. -/
theorem length_getLeft_add_getRight {β γ : Type} (way : α → β ⊕ γ) (l : List α) :
    (l.filterMap fun a => (way a).getLeft?).length +
      (l.filterMap fun a => (way a).getRight?).length = l.length := by
  induction l with
  | nil => rfl
  | cons a l ih =>
    cases h : way a with
    | inl b =>
      simp only [List.filterMap_cons, h, Sum.getLeft?_inl, Sum.getRight?_inl, List.length_cons]
      omega
    | inr c =>
      simp only [List.filterMap_cons, h, Sum.getLeft?_inr, Sum.getRight?_inr, List.length_cons]
      omega

/-- Counting by a label counts every element once. -/
theorem sum_countP_eq_length {ρ : Type} [Fintype ρ] [DecidableEq ρ] (label : α → ρ) (l : List α) :
    ∑ r, l.countP (fun a => label a = r) = l.length := by
  induction l with
  | nil => simp
  | cons a l ih => simp [List.countP_cons, Finset.sum_add_distrib, ih]

/-- A value that comes up twice comes from two positions. -/
theorem one_lt_count_filterMap {β : Type} [BEq β] [LawfulBEq β] {f : α → Option β} {l : List α}
    {b : β} : 1 < (l.filterMap f).count b ↔ ∃ (i j : ℕ) (x y : α), i ≠ j ∧ l[i]? = some x ∧ f x = some b ∧
      l[j]? = some y ∧ f y = some b := by
  have hcount : (l.map f).count (some b) = (l.filterMap f).count b := by
    rw [List.count, List.countP_map, List.count, List.countP_filterMap]
    refine List.countP_congr fun a _ => ?_
    cases h : f a <;> simp [h]
  have hdup : (l.map f).Duplicate (some b) ↔ 1 < (l.filterMap f).count b := by
    rw [List.duplicate_iff_sublist, ← hcount]
    exact List.replicate_sublist_iff (n := 2)
  rw [← hdup, List.duplicate_iff_exists_distinct_get]
  constructor
  · rintro ⟨⟨n, hn⟩, ⟨m, hm⟩, hlt, hfn, hfm⟩
    rw [List.length_map] at hn hm
    refine ⟨n, m, l[n], l[m], Nat.ne_of_lt hlt, List.getElem?_eq_getElem hn, ?_,
      List.getElem?_eq_getElem hm, ?_⟩
    · simpa using hfn.symm
    · simpa using hfm.symm
  · rintro ⟨i, j, x, y, hij, hx, hfx, hy, hfy⟩
    obtain ⟨hi, rfl⟩ := List.getElem?_eq_some_iff.mp hx
    obtain ⟨hj, rfl⟩ := List.getElem?_eq_some_iff.mp hy
    -- the smaller position comes first
    rcases Nat.lt_or_gt_of_ne hij with hlt | hgt
    · exact ⟨⟨i, by simpa using hi⟩, ⟨j, by simpa using hj⟩, hlt, by simp [hfx], by simp [hfy]⟩
    · exact ⟨⟨j, by simpa using hj⟩, ⟨i, by simpa using hi⟩, hgt, by simp [hfy], by simp [hfx]⟩

end Placement

end McRouter
