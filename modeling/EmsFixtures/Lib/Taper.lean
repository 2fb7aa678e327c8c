import Mathlib.Algebra.Order.Field.Basic
import Mathlib.Tactic.FieldSimp
import Mathlib.Tactic.Linarith

/-!
# Linear tapers

A rate that is constant above a level and falls linearly to zero below it.  A store drained at a tapered rate for one
interval, however long, keeps the order of two levels (`drained_mono`): where the interval is so long that the taper
would overshoot, the store is empty.
-/

namespace EmsFixtures

variable {K : Type*} [Field K] [LinearOrder K] [IsStrictOrderedRing K]

/-- The part of the full rate that is left at level `x`, `w` being the width of the taper. -/
def taper (w x : K) : K := max 0 (min (x / w) 1)

variable {w x y m : K}

omit [IsStrictOrderedRing K] in
theorem taper_nonneg (w x : K) : 0 ≤ taper w x := le_max_left _ _

omit [IsStrictOrderedRing K] in
theorem taper_le_one [ZeroLEOneClass K] (w x : K) : taper w x ≤ 1 := max_le zero_le_one (min_le_right _ _)

theorem taper_pos (hw : 0 < w) (hx : 0 < x) : 0 < taper w x :=
  lt_max_of_lt_right (lt_min (div_pos hx hw) one_pos)

theorem taper_of_nonpos (hw : 0 < w) (hx : x ≤ 0) : taper w x = 0 :=
  max_eq_left ((min_le_left _ _).trans (div_nonpos_of_nonpos_of_nonneg hx hw.le))

theorem taper_of_le (hw : 0 < w) (hx : 0 ≤ x) (hxw : x ≤ w) : taper w x = x / w := by
  have hle : x / w ≤ 1 := (div_le_one hw).2 hxw
  rw [taper, min_eq_left hle, max_eq_right (div_nonneg hx hw.le)]

theorem taper_of_ge (hw : 0 < w) (hx : w ≤ x) : taper w x = 1 := by
  have hle : 1 ≤ x / w := (one_le_div hw).2 hx
  rw [taper, min_eq_right hle, max_eq_right zero_le_one]

/-- The taper stays below its line. -/
theorem mul_taper_le (hw : 0 < w) (hx : 0 ≤ x) : w * taper w x ≤ x := by
  have hle : taper w x ≤ x / w := max_le (div_nonneg hx hw.le) (min_le_left _ _)
  have := mul_le_mul_of_nonneg_left hle hw.le
  rwa [mul_div_cancel₀ x hw.ne'] at this

theorem taper_mono (hw : 0 < w) (h : x ≤ y) : taper w x ≤ taper w y :=
  max_le_max le_rfl (min_le_min (div_le_div_of_nonneg_right h hw.le) le_rfl)

/-- What is left of `x` after a drain of at most `m` at the tapered rate. -/
def drained (w m x : K) : K := max 0 (x - m * taper w x)

theorem drained_mono (hw : 0 < w) (hm : 0 ≤ m) (h : x ≤ y) : drained w m x ≤ drained w m y := by
  unfold drained
  rcases le_or_gt (x - m * taper w x) 0 with hempty | hleft
  · rw [max_eq_left hempty]
    exact le_max_left _ _
  · refine max_le_max le_rfl ?_
    have hx : 0 < x := by
      have := mul_nonneg hm (taper_nonneg w x)
      linarith
    rcases le_or_gt w x with hxw | hxw
    · -- both at the full rate
      rw [taper_of_ge hw hxw, taper_of_ge hw (hxw.trans h)]
      linarith
    · rw [taper_of_le hw hx.le hxw.le] at hleft ⊢
      have hscale : x - m * (x / w) = x * (1 - m / w) := by field_simp
      have hrate : 0 < 1 - m / w := by
        rw [hscale] at hleft
        exact (mul_pos_iff_of_pos_left hx).1 hleft
      rcases le_or_gt w y with hyw | hyw
      · have hfull : w * (1 - m / w) = w - m := by field_simp
        have := mul_le_mul_of_nonneg_right hxw.le hrate.le
        rw [taper_of_ge hw hyw, hscale]
        linarith
      · have hscale' : y - m * (y / w) = y * (1 - m / w) := by field_simp
        rw [taper_of_le hw (hx.le.trans h) hyw.le, hscale, hscale']
        exact mul_le_mul_of_nonneg_right h hrate.le

end EmsFixtures
