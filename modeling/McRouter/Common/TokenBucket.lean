import Mathlib.Algebra.Order.Ring.Defs
import Mathlib.Algebra.Order.Group.MinMax
import Mathlib.Tactic.Linarith
import Mathlib.Tactic.Ring

/-!
# Token buckets

A bucket holds tokens and the time it was last refilled at. An attempt
refills it up to its capacity and takes one token, if there is a whole one.
Time is any linear order: only what a bucket holds is a number, and how it
is computed, rounded or not, is up to the meter.

What a bucket hands out is paid for. Against a pace that is no slower than
the gain, tokens less pace never rise, and each token handed out lowers
them by one (`attempt_pays`). Where ones are taken exactly, attempts at one
time are granted as long as whole tokens are left (`run_same_time`).
-/

namespace McRouter

namespace TokenBucket

/-- A bucket. -/
structure Bucket (T K : Type) where
  tokens : K
  refilled : T

/-- What a bucket can hold, what it holds at a later time if it is not
full, and what is left of it when a token is taken. -/
structure Meter (T K : Type) where
  capacity : K
  gain : K → T → T → K
  less : K → K

variable {T K : Type} [LinearOrder T] [LinearOrder K]

/-! ## Refilling -/

/-- The bucket at a later time; an earlier one changes nothing. -/
def Meter.refill (m : Meter T K) (b : Bucket T K) (now : T) : Bucket T K :=
  if b.refilled < now then ⟨min m.capacity (m.gain b.tokens b.refilled now), now⟩ else b

variable {m : Meter T K} {b : Bucket T K} {now : T}

@[simp] theorem refilled_refill : (m.refill b now).refilled = max b.refilled now := by
  unfold Meter.refill
  split_ifs with h
  · exact (max_eq_right h.le).symm
  · exact (max_eq_left (not_lt.mp h)).symm

theorem refill_of_le (h : now ≤ b.refilled) : m.refill b now = b := if_neg (not_lt.mpr h)

/-- A bucket that has gained enough is full. -/
theorem refill_of_full (h : b.refilled < now)
    (hfull : m.capacity ≤ m.gain b.tokens b.refilled now) :
    m.refill b now = ⟨m.capacity, now⟩ := by
  rw [Meter.refill, if_pos h, min_eq_left hfull]

theorem tokens_refill_le (h : b.tokens ≤ m.capacity) : (m.refill b now).tokens ≤ m.capacity := by
  unfold Meter.refill
  split_ifs
  · exact min_le_left _ _
  · exact h

/-- Refilling adds no more than what accrued. -/
theorem tokens_refill_le_gain (h : b.refilled < now) :
    (m.refill b now).tokens ≤ m.gain b.tokens b.refilled now := by
  rw [Meter.refill, if_pos h]
  exact min_le_right _ _

/-! ## Taking -/

variable [CommRing K]

/-- One token, if there is a whole one. -/
def Meter.take (m : Meter T K) (b : Bucket T K) : Bool × Bucket T K :=
  if b.tokens < 1 then (false, b) else (true, ⟨m.less b.tokens, b.refilled⟩)

/-- An attempt. -/
def Meter.attempt (m : Meter T K) (b : Bucket T K) (now : T) : Bool × Bucket T K :=
  m.take (m.refill b now)

/-- The answers to a run of attempts, and the bucket after it. -/
def Meter.run (m : Meter T K) (b : Bucket T K) : List T → List Bool × Bucket T K
  | [] => ([], b)
  | now :: times =>
    let answer := m.attempt b now
    let rest := m.run answer.2 times
    (answer.1 :: rest.1, rest.2)

/-- An admitted attempt counts one. -/
def charge (answer : Bool) : ℕ := if answer then 1 else 0

omit [LinearOrder T] in
@[simp] theorem refilled_take : (m.take b).2.refilled = b.refilled := by
  unfold Meter.take
  split_ifs <;> rfl

@[simp] theorem refilled_attempt : (m.attempt b now).2.refilled = max b.refilled now := by
  rw [Meter.attempt, refilled_take, refilled_refill]

/-- Refilling ahead of an attempt at the same time changes nothing. -/
theorem attempt_refill : m.attempt (m.refill b now) now = m.attempt b now := by
  rw [Meter.attempt, refill_of_le (by rw [refilled_refill]; exact le_max_right _ _), Meter.attempt]

/-- What keeps the buckets of a meter between nothing and full. -/
structure Meter.Fair (m : Meter T K) : Prop where
  one_le : 1 ≤ m.capacity
  gain_nonneg : ∀ x t u, 0 ≤ x → t < u → 0 ≤ m.gain x t u
  less_nonneg : ∀ x, 1 ≤ x → 0 ≤ m.less x
  less_lt : ∀ x, 1 ≤ x → x ≤ m.capacity → m.less x < m.capacity

variable [IsStrictOrderedRing K]

section Fair

variable (hm : m.Fair)

include hm

theorem Meter.Fair.tokens_refill (h : 0 ≤ b.tokens) : 0 ≤ (m.refill b now).tokens := by
  unfold Meter.refill
  split_ifs with hlt
  · exact le_min (zero_le_one.trans hm.one_le) (hm.gain_nonneg _ _ _ h hlt)
  · exact h

theorem Meter.Fair.tokens_attempt (h : 0 ≤ b.tokens) : 0 ≤ (m.attempt b now).2.tokens := by
  unfold Meter.attempt Meter.take
  split_ifs with hlt
  · exact hm.tokens_refill h
  · exact hm.less_nonneg _ (not_lt.mp hlt)

omit [IsStrictOrderedRing K] in
/-- **No bucket is full after an attempt.** -/
theorem Meter.Fair.tokens_attempt_lt (h : b.tokens ≤ m.capacity) :
    (m.attempt b now).2.tokens < m.capacity := by
  unfold Meter.attempt Meter.take
  split_ifs with hlt
  · exact lt_of_lt_of_le hlt hm.one_le
  · exact hm.less_lt _ (not_lt.mp hlt) (tokens_refill_le h)

end Fair

/-! ## What is paid for -/

omit [LinearOrder T] in
theorem take_pays (hless : ∀ x, 1 ≤ x → m.less x ≤ x - 1) :
    (charge (m.take b).1 : K) + (m.take b).2.tokens ≤ b.tokens := by
  by_cases h : b.tokens < 1
  · simp [Meter.take, h, charge]
  · have hle := hless b.tokens (not_lt.mp h)
    simp only [Meter.take, h, if_false, charge, if_true, Nat.cast_one]
    linarith

/-- **An attempt pays.** Tokens less pace never rise, and each token handed
out lowers them by one. -/
theorem attempt_pays (b : Bucket T K) (now : T) {pace : T → K}
    (hgain : ∀ x t u, t < u → m.gain x t u ≤ x + (pace u - pace t))
    (hless : ∀ x, 1 ≤ x → m.less x ≤ x - 1) :
    (charge (m.attempt b now).1 : K) + (m.attempt b now).2.tokens -
      pace (m.attempt b now).2.refilled ≤ b.tokens - pace b.refilled := by
  have hpays := take_pays (b := m.refill b now) hless
  rw [refilled_attempt, Meter.attempt]
  rcases lt_or_ge b.refilled now with hlt | hle
  · have haccrued := hgain b.tokens _ _ hlt
    have hmin := tokens_refill_le_gain (m := m) hlt
    rw [max_eq_right hlt.le]
    linarith
  · rw [refill_of_le hle] at hpays ⊢
    rw [max_eq_left hle]
    linarith

/-! ## Attempts at one time -/

/-- From a bucket that is refilled, attempts at one time are all granted
exactly if there are that many tokens, and then they take as many. What the
bucket holds is among the numbers that ones are taken from exactly. -/
theorem run_of_refilled {Exact : K → Prop}
    (hexact : ∀ x, Exact x → 1 ≤ x → m.less x = x - 1 ∧ Exact (x - 1)) (now : T) :
    ∀ (n : ℕ) (b : Bucket T K), now ≤ b.refilled → 0 ≤ b.tokens → Exact b.tokens →
    ((m.run b (List.replicate n now)).1 = List.replicate n true ↔ (n : K) ≤ b.tokens) ∧
      ((n : K) ≤ b.tokens → (m.run b (List.replicate n now)).2 = ⟨b.tokens - n, b.refilled⟩) := by
  intro n
  induction n with
  | zero =>
    intro b _ hpos _
    simpa [Meter.run] using hpos
  | succ n ih =>
    intro b hnow hpos hb
    have hn : (0 : K) ≤ n := n.cast_nonneg
    rw [List.replicate_succ, List.replicate_succ, Meter.run, List.cons.injEq, Meter.attempt,
      refill_of_le hnow]
    push_cast
    by_cases hlt : b.tokens < 1
    · -- with less than a whole token the first attempt is refused
      refine ⟨⟨fun h => ?_, fun hle => ?_⟩, fun hle => ?_⟩
      · simp [Meter.take, hlt] at h
      · linarith
      · linarith
    · obtain ⟨hless, hnext⟩ := hexact b.tokens hb (not_lt.mp hlt)
      have htake : m.take b = (true, ⟨b.tokens - 1, b.refilled⟩) := by
        rw [Meter.take, if_neg hlt, hless]
      obtain ⟨hall, hleft⟩ := ih ⟨b.tokens - 1, b.refilled⟩ hnow (sub_nonneg.mpr (not_lt.mp hlt)) hnext
      simp only [htake, hall, true_and]
      refine ⟨⟨fun h => by linarith, fun h => by linarith⟩, fun hle => ?_⟩
      rw [hleft (by linarith)]
      exact congrArg (Bucket.mk · b.refilled) (by ring)

/-- **Attempts at one time.** -/
theorem run_same_time {Exact : K → Prop}
    (hexact : ∀ x, Exact x → 1 ≤ x → m.less x = x - 1 ∧ Exact (x - 1)) (n : ℕ)
    (hpos : 0 ≤ (m.refill b now).tokens) (hb : Exact (m.refill b now).tokens) :
    (m.run b (List.replicate n now)).1 = List.replicate n true ↔
      (n : K) ≤ (m.refill b now).tokens := by
  have hrefilled : now ≤ (m.refill b now).refilled := by
    rw [refilled_refill]
    exact le_max_right _ _
  have hrun : (m.run b (List.replicate n now)).1 = (m.run (m.refill b now) (List.replicate n now)).1 := by
    cases n with
    | zero => rfl
    | succ n => rw [List.replicate_succ, Meter.run, Meter.run, attempt_refill]
  rw [hrun]
  exact (run_of_refilled hexact now n _ hrefilled hpos hb).1

end TokenBucket

end McRouter
