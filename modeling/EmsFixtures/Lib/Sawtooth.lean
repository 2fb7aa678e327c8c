import Mathlib.Algebra.Order.Monoid.Defs
import Mathlib.Algebra.Order.Monoid.Unbundled.Pow
import EmsFixtures.Lib.Runs

/-!
# Sawtooths

A sawtooth rises by `step` and falls back to `min` when the next rise would leave the band.  One that starts at `min`
is periodic: after `n` rises it stands `n` modulo the period steps above `min` (`next_value`).  A quantity of a system
that some labels move along a sawtooth and the others leave alone is known from the number of these labels
(`value_of_along`).
-/

namespace EmsFixtures

structure Sawtooth (α : Type*) where
  min : α
  max : α
  step : α

namespace Sawtooth

open Runs

variable {α : Type*} [AddCommMonoid α]

/-- The value after `n` rises from `min`. -/
def value (s : Sawtooth α) (k n : ℕ) : α := s.min + (n % k) • s.step

@[simp] theorem value_zero (s : Sawtooth α) (k : ℕ) : s.value k 0 = s.min := by simp [value]

section Ordered

variable [LinearOrder α]

/-- The value after `x`: `min` if a rise overshoots. -/
def next (s : Sawtooth α) (x : α) : α := if s.max < x + s.step then s.min else x + s.step

/-- The last of `k` values fits the band, one more does not. -/
structure HasPeriod (s : Sawtooth α) (k : ℕ) : Prop where
  pos : 0 < k
  rising : 0 ≤ s.step
  last : s.min + (k - 1) • s.step ≤ s.max
  past : s.max < s.min + k • s.step

variable [IsOrderedAddMonoid α] {s : Sawtooth α} {k : ℕ}

theorem HasPeriod.fits (h : s.HasPeriod k) {j : ℕ} (hj : j < k) : s.min + j • s.step ≤ s.max := by
  have hle : j • s.step ≤ (k - 1) • s.step := nsmul_le_nsmul_left h.rising (by omega)
  exact (add_le_add_right hle s.min).trans h.last

theorem HasPeriod.value_mem (h : s.HasPeriod k) (n : ℕ) : s.min ≤ s.value k n ∧ s.value k n ≤ s.max := by
  have hlt : n % k < k := Nat.mod_lt n h.pos
  exact ⟨le_add_of_nonneg_right (nsmul_nonneg h.rising _), h.fits hlt⟩

theorem next_value (h : s.HasPeriod k) (n : ℕ) : s.next (s.value k n) = s.value k (n + 1) := by
  have hlt : n % k < k := Nat.mod_lt n h.pos
  have hrise : s.value k n + s.step = s.min + (n % k + 1) • s.step := by
    rw [value, succ_nsmul, add_assoc]
  unfold next
  rw [hrise]
  rcases Nat.lt_or_ge (n % k + 1) k with hin | hout
  · have hmod : (n + 1) % k = n % k + 1 := by
      rw [Nat.add_mod_eq_add_mod_right 1 (Nat.mod_mod n k).symm]
      exact Nat.mod_eq_of_lt hin
    rw [if_neg (not_lt.2 (h.fits hin)), value, hmod]
  · -- the last value of the band: the rise overshoots and the count starts again
    have hk : n % k + 1 = k := by omega
    have hmod : (n + 1) % k = 0 := by
      rw [Nat.add_mod_eq_add_mod_right 1 (Nat.mod_mod n k).symm, hk, Nat.mod_self]
    rw [hk, if_pos h.past, value, hmod, zero_nsmul, add_zero]

/-- A quantity that starts at `m` rises, moves along the sawtooth under the labels `ticks` and stays under the
others, is known from the number of ticks. -/
theorem value_of_along {σ ι : Type*} {step : σ → ι → σ → Prop} {view : σ → α} {ticks : ι → Bool} (h : s.HasPeriod k)
    {a b : σ} {is : List ι} (hrun : Run step a is b) {m : ℕ} (ha : view a = s.value k m)
    (hsteps : Along step (fun a i b => view b = if ticks i then s.next (view a) else view a) a is) :
    view b = s.value k (m + is.countP ticks) := by
  induction hrun generalizing m with
  | nil a => simpa using ha
  | @cons a b c i is hi _ ih =>
    obtain ⟨hview, hrest⟩ := hsteps _ hi
    rw [ha, next_value h] at hview
    by_cases ht : ticks i = true
    · rw [if_pos ht] at hview
      rw [ih hview hrest, List.countP_cons_of_pos ht, Nat.add_right_comm, Nat.add_assoc]
    · rw [if_neg ht] at hview
      rw [ih hview hrest, List.countP_cons_of_neg ht]

end Ordered

end Sawtooth

end EmsFixtures
