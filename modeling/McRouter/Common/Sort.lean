import McRouter.Common.Strings
import Mathlib.Data.List.Sort
import Mathlib.Data.List.Lex

/-!
# Stable sorting

`sort.SliceStable` with a `less` that compares a few string fields in
turn. **When the fields determine the element, the sorted list does not
depend on the order of the input** (`sortStable_eq_of_perm`).
-/

namespace McRouter

namespace Sorting

open Strings

variable {α : Type}

/-- The first pair of fields that differ decides. -/
def lessFields : List (GoString × GoString) → Bool
  | [] => false
  | (left, right) :: rest => if left ≠ right then less left right else lessFields rest

/-- `sort.SliceStable`. -/
def sortStable (less : α → α → Bool) (l : List α) : List α :=
  l.insertionSort fun a b => less b a = false

/-- Comparing fields in turn is comparing the lists of fields. -/
theorem lessFields_zip : ∀ (ls rs : List GoString), ls.length = rs.length →
    (lessFields (ls.zip rs) = true ↔ ls.map key < rs.map key) := by
  intro ls
  induction ls with
  | nil =>
    intro rs hlen
    cases rs with
    | nil => simp [lessFields]
    | cons r rs => simp at hlen
  | cons l ls ih =>
    intro rs hlen
    cases rs with
    | nil => simp at hlen
    | cons r rs =>
      have ih := ih rs (by simpa using hlen)
      by_cases h : l = r
      · subst h
        simp [lessFields, ih]
      · have hk : key l ≠ key r := fun hk => h (key_injective hk)
        simp [lessFields, h, less, List.cons_lt_cons_iff, hk]

theorem map_key_injective : Function.Injective (List.map (key : GoString → _)) :=
  List.map_injective_iff.mpr key_injective

theorem sortStable_perm (less : α → α → Bool) (l : List α) : (sortStable less l).Perm l :=
  List.perm_insertionSort _ l

variable {K : Type} [LinearOrder K] {less : α → α → Bool} (key : α → K)

/-- The result is in order. -/
theorem sortStable_pairwise (hless : ∀ a b, less a b = true ↔ key a < key b) (l : List α) :
    (sortStable less l).Pairwise fun a b => key a ≤ key b := by
  have hrel : ∀ a b, less b a = false ↔ key a ≤ key b := by
    intro a b
    rw [← not_lt, ← hless, Bool.not_eq_true]
  have : Std.Total fun a b : α => less b a = false :=
    ⟨fun a b => by simpa only [hrel] using le_total (key a) (key b)⟩
  have : IsTrans α fun a b : α => less b a = false :=
    ⟨fun a b c h h' => by
      rw [hrel] at h h' ⊢
      exact h.trans h'⟩
  exact (List.pairwise_insertionSort (fun a b : α => less b a = false) l).imp
    fun h => (hrel _ _).mp h

/-- **Sorting forgets the order of the input**, as long as elements with
the same key are the same. -/
theorem sortStable_eq_of_perm (hless : ∀ a b, less a b = true ↔ key a < key b) {l l' : List α}
    (hperm : l.Perm l') (hinj : ∀ a ∈ l, ∀ b ∈ l, key a = key b → a = b) :
    sortStable less l = sortStable less l' := by
  have hl := sortStable_perm less l
  have hl' := sortStable_perm less l'
  have hanti : ∀ a b, a ∈ sortStable less l → b ∈ sortStable less l' → key a ≤ key b →
      key b ≤ key a → a = b := by
    intro a b ha hb hab hba
    exact hinj a (hl.mem_iff.mp ha) b (hperm.mem_iff.mpr (hl'.mem_iff.mp hb)) (le_antisymm hab hba)
  exact List.Perm.eq_of_pairwise hanti (sortStable_pairwise key hless l)
    (sortStable_pairwise key hless l') (hl.trans (hperm.trans hl'.symm))

/-- Where the first fields are distinct they alone are in order. -/
theorem pairwise_less_of_fields {l : List α} {first : α → GoString} {rest : α → List GoString}
    (hsorted : l.Pairwise fun a b =>
      (first a :: rest a).map Strings.key ≤ (first b :: rest b).map Strings.key)
    (hdistinct : (l.map first).Nodup) :
    l.Pairwise fun a b => Strings.less (first a) (first b) = true := by
  have hne : l.Pairwise fun a b => first a ≠ first b := List.pairwise_map.mp hdistinct
  refine (hsorted.and hne).imp fun {a b} ⟨hle, hab⟩ => decide_eq_true ?_
  have hkey : Strings.key (first a) ≠ Strings.key (first b) := fun h => hab (key_injective h)
  rcases hle.lt_or_eq with hlt | heq
  · exact (List.cons_lt_cons_iff.mp hlt).resolve_right fun h => hkey h.1
  · exact absurd (List.cons.inj heq).1 hkey

end Sorting

end McRouter
