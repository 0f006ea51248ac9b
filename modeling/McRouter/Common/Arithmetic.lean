import Mathlib.Algebra.Order.Field.Rat
import Mathlib.Tactic.Linarith
import Mathlib.Tactic.Positivity
import Mathlib.Tactic.Ring

/-!
# Rounded numbers

`float64` by what is known of its rounding: it keeps the order, whole
numbers are exact up to a bound, and so is taking one from a number up to
there. Results over every `Arithmetic` hold of `float64` however it rounds,
and whether or not the compiler fuses a product with a sum.

Where no arithmetic is named, it is that of the rationals themselves
(`exact`).
-/

namespace McRouter

/-- What the results of operations are rounded to. -/
class Arithmetic where
  float64 : ℚ → ℚ
  /-- Whether `z + x*y` is rounded once only, as the compiler may choose. -/
  fused : Bool
  mono : Monotone float64
  idem : ∀ x, float64 (float64 x) = float64 x
  /-- The whole numbers up to which ones are counted exactly. -/
  counts : ℤ → Prop
  /-- These are the whole numbers up to `2 ^ 53` at least. -/
  counts_of_le : ∀ n, n ≤ 9007199254740992 → counts n
  whole : ∀ n m : ℤ, counts n → 0 ≤ m → m ≤ n → float64 m = m
  pred : ∀ (n : ℤ) (x : ℚ), counts n → float64 x = x → 1 ≤ x → x ≤ n → float64 (x - 1) = x - 1
  /-- A nanosecond is more than nothing. -/
  tiny : 0 < float64 (1 / 1000000000)

namespace Arithmetic

/-- Nothing is rounded. -/
instance exact : Arithmetic where
  float64 := id
  fused := false
  mono := monotone_id
  idem _ := rfl
  counts _ := True
  counts_of_le _ _ := trivial
  whole _ _ _ _ _ := rfl
  pred _ _ _ _ _ _ := rfl
  tiny := one_div_pos.mpr Nat.ofNat_pos

section Rounded

variable [Arithmetic]

/-- `time.Duration.Seconds`. -/
def seconds (d : ℤ) : ℚ := float64 (d.tdiv 1000000000 + float64 (d.tmod 1000000000 / 1000000000))

/-- `z + x*y`. -/
def mulAdd (x y z : ℚ) : ℚ := float64 (z + if fused then x * y else float64 (x * y))

/-! ## Rounding -/

theorem float64_whole {n : ℤ} (h0 : 0 ≤ n) (hn : n ≤ 9007199254740992) : float64 (n : ℚ) = n :=
  whole n n (counts_of_le n hn) h0 le_rfl

@[simp] theorem float64_zero : float64 0 = 0 := by exact_mod_cast float64_whole le_rfl (by norm_num)

@[simp] theorem float64_one : float64 1 = 1 := by
  exact_mod_cast float64_whole zero_le_one (by norm_num)

theorem float64_nonneg {x : ℚ} (h : 0 ≤ x) : 0 ≤ float64 x := by
  rw [← float64_zero]
  exact mono h

theorem float64_nonpos {x : ℚ} (h : x ≤ 0) : float64 x ≤ 0 := by
  rw [← float64_zero]
  exact mono h

/-! ## Durations -/

/-- The part of a second. -/
theorem fraction_bounds {d : ℤ} (h : 0 ≤ d) :
    0 ≤ float64 ((d.tmod 1000000000 : ℤ) / 1000000000 : ℚ) ∧
      float64 ((d.tmod 1000000000 : ℤ) / 1000000000 : ℚ) ≤ 1 := by
  rw [Int.tmod_eq_emod_of_nonneg h]
  have hlo : (0 : ℚ) ≤ (d % 1000000000 : ℤ) := by exact_mod_cast Int.emod_nonneg d (by norm_num)
  have hhi : ((d % 1000000000 : ℤ) : ℚ) ≤ 1000000000 := by
    exact_mod_cast (Int.emod_lt_of_pos d (by norm_num)).le
  refine ⟨float64_nonneg (by positivity), ?_⟩
  rw [← float64_one]
  exact mono (by rw [div_le_one (by norm_num)]; exact hhi)

theorem seconds_mono {d d' : ℤ} (h0 : 0 ≤ d) (h : d ≤ d') : seconds d ≤ seconds d' := by
  obtain ⟨hlo, -⟩ := fraction_bounds (h0.trans h)
  obtain ⟨-, hhi⟩ := fraction_bounds h0
  unfold seconds
  refine mono ?_
  rw [Int.tdiv_eq_ediv_of_nonneg h0, Int.tdiv_eq_ediv_of_nonneg (h0.trans h)]
  rcases (Int.ediv_le_ediv (by norm_num : (0 : ℤ) < 1000000000) h).lt_or_eq with hlt | heq
  · -- another second is more than any part of one
    have hsec : ((d / 1000000000 : ℤ) : ℚ) + 1 ≤ (d' / 1000000000 : ℤ) := by exact_mod_cast hlt
    linarith
  · have hrest : ((d.tmod 1000000000 : ℤ) : ℚ) ≤ (d'.tmod 1000000000 : ℤ) := by
      rw [Int.tmod_eq_emod_of_nonneg h0, Int.tmod_eq_emod_of_nonneg (h0.trans h)]
      have hle : d % 1000000000 ≤ d' % 1000000000 := by omega
      exact_mod_cast hle
    have hround := mono (div_le_div_of_nonneg_right hrest (by norm_num : (0 : ℚ) ≤ 1000000000))
    rw [heq]
    linarith

theorem seconds_nonpos {d : ℤ} (h : d ≤ 0) : seconds d ≤ 0 := by
  obtain ⟨n, hn, rfl⟩ : ∃ n : ℤ, 0 ≤ n ∧ d = -n := ⟨-d, by omega, by omega⟩
  have hsec : (0 : ℚ) ≤ (n.tdiv 1000000000 : ℤ) := by
    exact_mod_cast Int.tdiv_nonneg hn (by norm_num)
  have hrest : (0 : ℚ) ≤ (n.tmod 1000000000 : ℤ) := by
    exact_mod_cast Int.tmod_nonneg _ hn
  have hfraction : float64 (((-n).tmod 1000000000 : ℤ) / 1000000000 : ℚ) ≤ 0 := by
    refine float64_nonpos ?_
    rw [Int.neg_tmod, Int.cast_neg, neg_div]
    exact neg_nonpos.mpr (by positivity)
  refine float64_nonpos ?_
  rw [Int.neg_tdiv, Int.cast_neg]
  linarith

theorem seconds_pos {d : ℤ} : 0 < seconds d ↔ 0 < d := by
  constructor
  · intro h
    by_contra hd
    exact absurd h (not_lt.mpr (seconds_nonpos (not_lt.mp hd)))
  · intro h
    -- no less than a nanosecond
    have hone : seconds 1 = float64 (1 / 1000000000) := by
      simp [seconds, idem]
    exact lt_of_lt_of_le (hone ▸ tiny) (seconds_mono zero_le_one h)

/-! ## Products -/

section Products

variable {x x' y z : ℚ}

theorem mulAdd_mono (hy : 0 ≤ y) (hx : x ≤ x') : mulAdd x y z ≤ mulAdd x' y z := by
  have hmul := mul_le_mul_of_nonneg_right hx hy
  have hround := mono hmul
  unfold mulAdd
  split_ifs
  · exact mono (by linarith)
  · exact mono (by linarith)

theorem mulAdd_nonneg (hx : 0 ≤ x) (hy : 0 ≤ y) (hz : 0 ≤ z) : 0 ≤ mulAdd x y z := by
  have hmul := mul_nonneg hx hy
  have hround := float64_nonneg hmul
  unfold mulAdd
  split_ifs
  · exact float64_nonneg (by linarith)
  · exact float64_nonneg (by linarith)

theorem float64_mulAdd : float64 (mulAdd x y z) = mulAdd x y z := idem _

end Products

end Rounded

/-! ## Exact numbers -/

theorem seconds_exact (d : ℤ) : seconds d = d / 1000000000 := by
  have hsplit : ((d.tdiv 1000000000 : ℤ) : ℚ) * 1000000000 + (d.tmod 1000000000 : ℤ) = d := by
    exact_mod_cast Int.tdiv_mul_add_tmod d 1000000000
  change ((d.tdiv 1000000000 : ℤ) : ℚ) + (d.tmod 1000000000 : ℤ) / 1000000000 = d / 1000000000
  rw [← hsplit]
  ring

theorem mulAdd_exact (x y z : ℚ) : mulAdd x y z = z + x * y := rfl

end Arithmetic

end McRouter
