import Mathlib.Tactic.FieldSimp
import EmsFixtures.Lib.F64

/-!
# `f32` bits and their values

The number an IEEE binary32 stands for, and how far the bits of the nearest one (`F64.f32Bits`) are from the number
that was rounded: half a unit in the last place, so at most the 2^24th part of it (`abs_rounded_sub_le_max`).  Numbers
with at most 24 significant bits, whole numbers up to 2^24 among them, come back exactly (`rounded_of_isF32`), and
rounding keeps the order (`rounded_mono`).
-/

namespace EmsFixtures.Float32

open F64

/-- What the exponent and fraction bits stand for. -/
def magnitude (n : ℕ) : ℚ :=
  if n < 2 ^ 23 then (n : ℚ) * 2 ^ (-149 : ℤ)
  else ((2 ^ 23 + n % 2 ^ 23 : ℕ) : ℚ) * 2 ^ ((n / 2 ^ 23 : ℕ) - 150 : ℤ)

theorem magnitude_of_lt {n : ℕ} (h : n < 2 ^ 23) : magnitude n = (n : ℚ) * 2 ^ (-149 : ℤ) := if_pos h

theorem magnitude_of_ge {n : ℕ} (h : 2 ^ 23 ≤ n) :
    magnitude n = ((2 ^ 23 + n % 2 ^ 23 : ℕ) : ℚ) * 2 ^ ((n / 2 ^ 23 : ℕ) - 150 : ℤ) := if_neg (not_lt.2 h)

/-- The number a binary32 stands for; none if it is infinite or a NaN. -/
def f32Value (bits : UInt32) : Option ℚ :=
  let n := bits.toNat % 2 ^ 31
  if 0x7F800000 ≤ n then none
  else some (if bits.toNat < 2 ^ 31 then magnitude n else -magnitude n)

/-- A significand of 24 bits, or one more than them, at a biased exponent. -/
theorem magnitude_eq {b m : ℕ} (hm : m ≤ 2 ^ 24) (h : b = 0 ∨ 2 ^ 23 ≤ m) :
    magnitude (b * 2 ^ 23 + m) = m * 2 ^ ((b : ℤ) - 149) := by
  rcases Nat.lt_or_ge m (2 ^ 23) with hsub | hnormal
  · -- subnormal, which only the lowest exponent has
    obtain rfl : b = 0 := by omega
    rw [Nat.zero_mul, Nat.zero_add, magnitude_of_lt hsub]
    norm_num
  · rw [magnitude_of_ge (by omega)]
    rcases Nat.lt_or_ge m (2 ^ 24) with hlt | hge
    · have hmod : (b * 2 ^ 23 + m) % 2 ^ 23 = m - 2 ^ 23 := by omega
      have hdiv : (b * 2 ^ 23 + m) / 2 ^ 23 = b + 1 := by omega
      have hsig : 2 ^ 23 + (m - 2 ^ 23) = m := by omega
      have hexp : ((b + 1 : ℕ) : ℤ) - 150 = (b : ℤ) - 149 := by push_cast; ring
      rw [hmod, hdiv, hsig, hexp]
    · -- rounded up to the next power of two: the carry is the next exponent
      obtain rfl : m = 2 ^ 24 := by omega
      have hmod : (b * 2 ^ 23 + 2 ^ 24) % 2 ^ 23 = 0 := by omega
      have hdiv : (b * 2 ^ 23 + 2 ^ 24) / 2 ^ 23 = b + 2 := by omega
      rw [hmod, hdiv]
      have hexp : (((b + 2 : ℕ) : ℤ) - 150) = ((b : ℤ) - 149) + 1 := by push_cast; ring
      rw [hexp, zpow_add_one₀ (by norm_num)]
      push_cast
      ring

/-! ### Rounding to the nearest -/

theorem abs_roundHalfEven_sub_le (x : ℚ) : |(roundHalfEven x : ℚ) - x| ≤ 1 / 2 := by
  have hfloor := Int.floor_le x
  have hlt := Int.lt_floor_add_one x
  unfold roundHalfEven
  split
  · rename_i h
    have hhalf : x - ⌊x⌋ ≤ 1 / 2 := h.elim le_of_lt fun h => h.1.le
    rw [abs_le]
    constructor <;> linarith
  · rename_i h
    have hhalf : 1 / 2 ≤ x - ⌊x⌋ := not_lt.1 fun hx => h (Or.inl hx)
    push_cast
    rw [abs_le]
    constructor <;> linarith

@[simp] theorem roundHalfEven_intCast (k : ℤ) : roundHalfEven k = k := by
  unfold roundHalfEven
  simp

theorem le_roundHalfEven {x : ℚ} {k : ℤ} (h : (k : ℚ) ≤ x) : k ≤ roundHalfEven x := by
  have hfloor : k ≤ ⌊x⌋ := Int.le_floor.2 h
  unfold roundHalfEven
  split <;> omega

theorem roundHalfEven_le {x : ℚ} {k : ℤ} (h : x ≤ k) : roundHalfEven x ≤ k := by
  rcases h.lt_or_eq with hlt | rfl
  · have hfloor : ⌊x⌋ < k := Int.floor_lt.2 hlt
    unfold roundHalfEven
    split <;> omega
  · rw [roundHalfEven_intCast]

/-- An even number is reached from half a unit below it on. -/
theorem even_le_roundHalfEven_iff {x : ℚ} {k : ℤ} (hk : k % 2 = 0) : k ≤ roundHalfEven x ↔ (k : ℚ) - 1 / 2 ≤ x := by
  have hfloor := Int.floor_le x
  have hlt := Int.lt_floor_add_one x
  unfold roundHalfEven
  split
  · rename_i h
    constructor
    · intro hle
      have : (k : ℚ) ≤ ⌊x⌋ := by exact_mod_cast hle
      linarith
    · intro hle
      by_contra hgt
      have hnext : ⌊x⌋ + 1 = k := by
        have hnear : (k : ℚ) < ⌊x⌋ + 2 := by linarith
        have hnear : k < ⌊x⌋ + 2 := by exact_mod_cast hnear
        omega
      have hcast : (⌊x⌋ : ℚ) + 1 = k := by exact_mod_cast hnext
      -- the floor is odd, so half a unit above it is not rounded down
      rcases h with h | ⟨-, h⟩
      · linarith
      · omega
  · rename_i h
    have hhalf : 1 / 2 ≤ x - ⌊x⌋ := not_lt.1 fun hx => h (Or.inl hx)
    constructor
    · intro hle
      have : (k : ℚ) ≤ ⌊x⌋ + 1 := by exact_mod_cast hle
      linarith
    · intro hle
      have : (k : ℚ) < ⌊x⌋ + 2 := by linarith
      have : k < ⌊x⌋ + 2 := by exact_mod_cast this
      omega

/-- The binary exponent `F64.f32Bits` rounds at; that of a subnormal number is the lowest. -/
def exponent (x : ℚ) : ℤ := max (Int.log 2 |x|) (-126)

/-- The significand `F64.f32Bits` rounds to. -/
def significand (x : ℚ) : ℤ := roundHalfEven (|x| / 2 ^ (exponent x - 23))

theorem scaled_bounds {x : ℚ} (hx : x ≠ 0) : 0 ≤ |x| / 2 ^ (exponent x - 23) ∧ |x| / 2 ^ (exponent x - 23) ≤ 2 ^ 24 ∧
    (exponent x = -126 ∨ 2 ^ 23 ≤ |x| / 2 ^ (exponent x - 23)) := by
  have hpos : (0 : ℚ) < 2 ^ (exponent x - 23) := zpow_pos (by norm_num) _
  have hlt : |x| < 2 ^ (Int.log 2 |x| + 1) := Int.lt_zpow_succ_log_self (by norm_num) _
  have hle : (2 : ℚ) ^ Int.log 2 |x| ≤ |x| := Int.zpow_log_le_self (by norm_num) (abs_pos.2 hx)
  refine ⟨div_nonneg (abs_nonneg x) hpos.le, ?_, ?_⟩
  · rw [div_le_iff₀ hpos, ← zpow_natCast, ← zpow_add₀ (by norm_num)]
    refine hlt.le.trans (zpow_le_zpow_right₀ (by norm_num) ?_)
    have : Int.log 2 |x| ≤ exponent x := le_max_left _ _
    push_cast
    omega
  · rcases le_or_gt (Int.log 2 |x|) (-126) with hlow | hhigh
    · exact Or.inl (max_eq_right hlow)
    · right
      have he : exponent x = Int.log 2 |x| := max_eq_left hhigh.le
      rw [le_div_iff₀ hpos, ← zpow_natCast, ← zpow_add₀ (by norm_num), he]
      refine le_trans (le_of_eq ?_) hle
      congr 1
      push_cast
      ring

theorem significand_bounds {x : ℚ} (hx : x ≠ 0) : 0 ≤ significand x ∧ significand x ≤ 2 ^ 24 ∧
    (exponent x = -126 ∨ 2 ^ 23 ≤ significand x) := by
  obtain ⟨h₀, h₁, h₂⟩ := scaled_bounds hx
  refine ⟨le_roundHalfEven (by exact_mod_cast h₀), roundHalfEven_le (by exact_mod_cast h₁), h₂.imp_right fun h => ?_⟩
  exact le_roundHalfEven (by exact_mod_cast h)

/-- What `x` is rounded to, if that is a `f32`. -/
def rounded (x : ℚ) : ℚ :=
  if x = 0 then 0
  else (if x < 0 then -1 else 1) * (significand x * 2 ^ (exponent x - 23))

/-- The smallest magnitude that overflows: halfway from the largest `f32` to 2^128. -/
def overflow : ℚ := 2 ^ 128 - 2 ^ 103

theorem f32Bits_eq {x : ℚ} (hx : x ≠ 0) : f32Bits x = UInt32.ofNat ((if x < 0 then 2 ^ 31 else 0) +
    Min.min ((exponent x + 126) * 2 ^ 23 + significand x) 0x7F800000).toNat := by
  unfold f32Bits significand exponent
  rw [if_neg hx]

/-- The exponent and fraction bits are short of those of infinity iff the number does not overflow. -/
theorem bits_lt_iff {x : ℚ} (hx : x ≠ 0) :
    (exponent x + 126) * 2 ^ 23 + significand x < 0x7F800000 ↔ |x| < overflow := by
  obtain ⟨-, hm, hnormal⟩ := significand_bounds hx
  have hlt : |x| < 2 ^ (Int.log 2 |x| + 1) := Int.lt_zpow_succ_log_self (by norm_num) _
  have hle : (2 : ℚ) ^ Int.log 2 |x| ≤ |x| := Int.zpow_log_le_self (by norm_num) (abs_pos.2 hx)
  have hlog : Int.log 2 |x| ≤ exponent x := le_max_left _ _
  rcases lt_trichotomy (exponent x) 127 with he | he | he
  · -- far below: a carry out of the significand still fits
    have hsmall : |x| < 2 ^ (127 : ℤ) := hlt.trans_le (zpow_le_zpow_right₀ (by norm_num) (by omega))
    refine iff_of_true (by omega) (hsmall.trans_le ?_)
    unfold overflow
    norm_num
  · -- the last binade, where rounding up to the next power of two overflows
    have hscaled : |x| / 2 ^ (exponent x - 23) = |x| / 2 ^ 104 := by
      rw [he]
      norm_num
    have hround := even_le_roundHalfEven_iff (x := |x| / 2 ^ 104) (k := 2 ^ 24) (by norm_num)
    rw [← hscaled] at hround
    change (2 : ℤ) ^ 24 ≤ significand x ↔ _ at hround
    rw [hscaled, le_div_iff₀ (by norm_num)] at hround
    have hover : ((2 ^ 24 : ℤ) - 1 / 2 : ℚ) * 2 ^ 104 = overflow := by unfold overflow; norm_num
    rw [hover] at hround
    rw [he, ← not_le (a := overflow), ← hround]
    omega
  · have hlarge : (2 : ℚ) ^ (128 : ℤ) ≤ |x| := by
      have : exponent x = Int.log 2 |x| := by unfold exponent at he ⊢; omega
      exact (zpow_le_zpow_right₀ (by norm_num) (by omega)).trans hle
    refine iff_of_false (by omega) (not_lt.2 (le_trans ?_ hlarge))
    unfold overflow
    norm_num

/-- Bits below those of infinity, without and with the sign bit. -/
theorem f32Value_ofNat {n : ℕ} (hn : n < 0x7F800000) : f32Value (UInt32.ofNat n) = some (magnitude n) ∧
    f32Value (UInt32.ofNat (2 ^ 31 + n)) = some (-magnitude n) := by
  have hpos : (UInt32.ofNat n).toNat = n := by
    rw [UInt32.toNat_ofNat']
    exact Nat.mod_eq_of_lt (by omega)
  have hneg : (UInt32.ofNat (2 ^ 31 + n)).toNat = 2 ^ 31 + n := by
    rw [UInt32.toNat_ofNat']
    exact Nat.mod_eq_of_lt (by omega)
  have hmod : n % 2 ^ 31 = n := Nat.mod_eq_of_lt (by omega)
  have hmod' : (2 ^ 31 + n) % 2 ^ 31 = n := by omega
  have hlow : n < 2 ^ 31 := by omega
  have hhigh : ¬ 2 ^ 31 + n < 2 ^ 31 := by omega
  unfold f32Value
  constructor
  · simp only [hpos, hmod, not_le.2 hn, hlow, if_true, if_false]
  · simp only [hneg, hmod', not_le.2 hn, hhigh, if_false]

/-- The bits of the nearest `f32` stand for what the number is rounded to. -/
theorem f32Value_f32Bits {x : ℚ} (h : |x| < overflow) : f32Value (f32Bits x) = some (rounded x) := by
  rcases eq_or_ne x 0 with rfl | hx
  · decide +kernel
  have hbits := (bits_lt_iff hx).2 h
  obtain ⟨h₀, h₁, h₂⟩ := significand_bounds hx
  have he : -126 ≤ exponent x := le_max_right _ _
  obtain ⟨b, hb⟩ : ∃ b : ℕ, exponent x + 126 = b := Int.eq_ofNat_of_zero_le (by omega)
  obtain ⟨m, hm⟩ : ∃ m : ℕ, significand x = m := Int.eq_ofNat_of_zero_le h₀
  have hmag := magnitude_eq (b := b) (m := m) (by omega) (by omega)
  have hexp : (b : ℤ) - 149 = exponent x - 23 := by omega
  have hvalue : magnitude (b * 2 ^ 23 + m) = significand x * 2 ^ (exponent x - 23) := by
    rw [hmag, hexp, hm]
    norm_cast
  have hnat : (exponent x + 126) * 2 ^ 23 + significand x = (b * 2 ^ 23 + m : ℕ) := by
    rw [hb, hm]
    norm_cast
  rw [hnat] at hbits
  rw [f32Bits_eq hx, hnat, min_eq_left hbits.le]
  generalize b * 2 ^ 23 + m = n at hbits hvalue
  obtain ⟨hpos, hneg⟩ := f32Value_ofNat (n := n) (by omega)
  unfold rounded
  rw [if_neg hx, ← hvalue]
  split
  · have hsum : ((2 : ℤ) ^ 31 + n).toNat = 2 ^ 31 + n := by omega
    rw [hsum, hneg, neg_one_mul]
  · have hsum : ((0 : ℤ) + n).toNat = n := by omega
    rw [hsum, hpos, one_mul]

/-! ### How far the rounded number is -/

/-- The unit in the last place of the `f32` that `x` is rounded to. -/
def ulp (x : ℚ) : ℚ := 2 ^ (exponent x - 23)

theorem ulp_pos (x : ℚ) : 0 < ulp x := zpow_pos (by norm_num) _

theorem abs_rounded_sub {x : ℚ} (hx : x ≠ 0) : |rounded x - x| = |significand x - |x| / ulp x| * ulp x := by
  have hu := ulp_pos x
  have habs : |x| = |x| / ulp x * ulp x := (div_mul_cancel₀ _ hu.ne').symm
  have hrounded : rounded x = (if x < 0 then -1 else 1) * (significand x * ulp x) := if_neg hx
  rw [hrounded]
  split
  · rename_i hneg
    have hx' : x = -(|x| / ulp x * ulp x) := by rw [← habs, abs_of_neg hneg, neg_neg]
    have hdiff : -1 * (significand x * ulp x) - x = -((significand x - |x| / ulp x) * ulp x) := by
      nth_rewrite 3 [hx']
      ring
    rw [hdiff, abs_neg, abs_mul, abs_of_pos hu]
  · rename_i hpos
    have hx' : x = |x| / ulp x * ulp x := by rw [← habs, abs_of_nonneg (not_lt.1 hpos)]
    have hdiff : 1 * (significand x * ulp x) - x = (significand x - |x| / ulp x) * ulp x := by
      nth_rewrite 3 [hx']
      ring
    rw [hdiff, abs_mul, abs_of_pos hu]

/-- Half a unit in the last place. -/
theorem abs_rounded_sub_le (x : ℚ) : |rounded x - x| ≤ ulp x / 2 := by
  rcases eq_or_ne x 0 with rfl | hx
  · have hzero : rounded 0 - 0 = 0 := by rw [sub_zero]; exact if_pos rfl
    have := ulp_pos 0
    rw [hzero, abs_zero]
    linarith
  have hround : |(significand x : ℚ) - |x| / ulp x| ≤ 1 / 2 := abs_roundHalfEven_sub_le _
  rw [abs_rounded_sub hx]
  have := mul_le_mul_of_nonneg_right hround (ulp_pos x).le
  linarith

/-- At most the 2^24th part of the number, or half the least `f32` above zero. -/
theorem abs_rounded_sub_le_max (x : ℚ) : |rounded x - x| ≤ max (|x| / 2 ^ 24) (1 / 2 ^ 150) := by
  rcases eq_or_ne x 0 with rfl | hx
  · have hzero : rounded 0 = 0 := if_pos rfl
    rw [hzero]
    norm_num
  have hhalf : ulp x / 2 = 2 ^ exponent x / 2 ^ 24 := by
    unfold ulp
    rw [zpow_sub₀ (by norm_num)]
    norm_num
    ring
  refine (abs_rounded_sub_le x).trans ?_
  rw [hhalf]
  rcases le_or_gt (Int.log 2 |x|) (-126) with hlow | hhigh
  · have he : exponent x = -126 := max_eq_right hlow
    rw [he]
    refine le_max_of_le_right (le_of_eq ?_)
    norm_num
  · have he : exponent x = Int.log 2 |x| := max_eq_left hhigh.le
    rw [he]
    exact le_max_of_le_left (div_le_div_of_nonneg_right (Int.zpow_log_le_self (by norm_num) (abs_pos.2 hx))
      (by norm_num))

/-- A number whose magnitude is a whole number of units in the last place is a `f32`. -/
theorem rounded_of_integral {x : ℚ} {k : ℤ} (hk : |x| / ulp x = k) : rounded x = x := by
  rcases eq_or_ne x 0 with rfl | hx
  · exact if_pos rfl
  have hsig : significand x = k := by
    unfold significand
    rw [show |x| / 2 ^ (exponent x - 23) = k from hk, roundHalfEven_intCast]
  have hzero : |rounded x - x| = 0 := by rw [abs_rounded_sub hx, hsig, hk, sub_self, abs_zero, zero_mul]
  exact sub_eq_zero.1 (abs_eq_zero.1 hzero)

/-! ### The numbers that are `f32`s -/

/-- A significand of 24 bits, or one more than them, at an exponent not below the subnormal one. -/
def IsF32 (x : ℚ) : Prop := ∃ m e : ℤ, |m| ≤ 2 ^ 24 ∧ -149 ≤ e ∧ x = m * 2 ^ e

theorem isF32_rounded (x : ℚ) : IsF32 (rounded x) := by
  rcases eq_or_ne x 0 with rfl | hx
  · exact ⟨0, 0, by norm_num, by norm_num, by rw [rounded, if_pos rfl]; norm_num⟩
  obtain ⟨h₀, h₁, -⟩ := significand_bounds hx
  have he : -126 ≤ exponent x := le_max_right _ _
  unfold rounded
  rw [if_neg hx]
  split
  · exact ⟨-significand x, exponent x - 23, by rwa [abs_neg, abs_of_nonneg h₀], by omega, by push_cast; ring⟩
  · exact ⟨significand x, exponent x - 23, by rwa [abs_of_nonneg h₀], by omega, by ring⟩

theorem rounded_of_isF32 {x : ℚ} (h : IsF32 x) : rounded x = x := by
  obtain ⟨m, e, hm, he, rfl⟩ := h
  rcases eq_or_ne m 0 with rfl | hne
  · rw [Int.cast_zero, zero_mul]
    exact if_pos rfl
  have hpos : (0 : ℚ) < 2 ^ e := zpow_pos (by norm_num) _
  have habs : |(m : ℚ) * 2 ^ e| = (|m| : ℤ) * 2 ^ e := by
    rw [abs_mul, abs_of_pos hpos]
    push_cast
    rfl
  have hx : (m : ℚ) * 2 ^ e ≠ 0 := mul_ne_zero (by exact_mod_cast hne) hpos.ne'
  rcases le_or_gt (exponent (m * 2 ^ e) - 23) e with hle | hgt
  · -- the unit in the last place divides the exponent's
    obtain ⟨j, hj⟩ : ∃ j : ℕ, e - (exponent (m * 2 ^ e) - 23) = j := Int.eq_ofNat_of_zero_le (by omega)
    refine rounded_of_integral (k := |m| * 2 ^ j) ?_
    rw [habs, ulp, mul_div_assoc, ← zpow_sub₀ (by norm_num), hj, zpow_natCast]
    push_cast
    rfl
  · -- only the power of two above the 24 bits reaches the next binade
    have hlog : exponent (m * 2 ^ e) = Int.log 2 |(m : ℚ) * 2 ^ e| := by
      unfold exponent at hgt ⊢
      omega
    have hreach : (2 : ℚ) ^ exponent (m * 2 ^ e) ≤ (|m| : ℤ) * 2 ^ e := by
      rw [hlog, ← habs]
      exact Int.zpow_log_le_self (by norm_num) (abs_pos.2 hx)
    have hsplit : (2 : ℚ) ^ exponent (m * 2 ^ e) = 2 ^ (exponent (m * 2 ^ e) - e) * 2 ^ e := by
      rw [← zpow_add₀ (by norm_num), sub_add_cancel]
    have hbits : (2 : ℚ) ^ (exponent (m * 2 ^ e) - e) ≤ (|m| : ℤ) := by
      rw [hsplit] at hreach
      exact le_of_mul_le_mul_right hreach hpos
    have hcap : (|m| : ℤ) ≤ ((2 : ℚ) ^ (24 : ℤ)) := by exact_mod_cast hm
    have h24 : exponent (m * 2 ^ e) - e = 24 := by
      have := (zpow_le_zpow_iff_right₀ (by norm_num : (1 : ℚ) < 2)).1 (hbits.trans hcap)
      omega
    have hm24 : |m| = 2 ^ 24 := by
      rw [h24] at hbits
      exact le_antisymm hm (by exact_mod_cast hbits)
    refine rounded_of_integral (k := 2 ^ 23) ?_
    have hexp : exponent (m * 2 ^ e) - 23 = e + 1 := by omega
    rw [habs, ulp, hexp, hm24, zpow_add_one₀ (by norm_num), mul_comm ((2 : ℚ) ^ e), mul_div_mul_right _ _ hpos.ne']
    norm_num

/-- Whole numbers of up to 24 bits. -/
theorem rounded_intCast {n : ℤ} (h : |n| ≤ 2 ^ 24) : rounded n = n :=
  rounded_of_isF32 ⟨n, 0, h, by norm_num, by norm_num⟩

/-- All are multiples of the least one above zero. -/
theorem IsF32.add_le_of_lt {x y : ℚ} (hx : IsF32 x) (hy : IsF32 y) (h : x < y) : x + 2 ^ (-149 : ℤ) ≤ y := by
  have hmultiple : ∀ {z : ℚ}, IsF32 z → ∃ k : ℤ, z = k * 2 ^ (-149 : ℤ) := by
    rintro z ⟨m, e, -, he, rfl⟩
    obtain ⟨j, hj⟩ : ∃ j : ℕ, e + 149 = j := Int.eq_ofNat_of_zero_le (by omega)
    have hexp : e = j + -149 := by omega
    refine ⟨m * 2 ^ j, ?_⟩
    rw [hexp, zpow_add₀ (by norm_num), zpow_natCast]
    push_cast
    ring
  obtain ⟨a, rfl⟩ := hmultiple hx
  obtain ⟨b, rfl⟩ := hmultiple hy
  have hpos : (0 : ℚ) < 2 ^ (-149 : ℤ) := zpow_pos (by norm_num) _
  have hab : a + 1 ≤ b := Int.add_one_le_iff.2 (by exact_mod_cast lt_of_mul_lt_mul_right h hpos.le)
  calc (a : ℚ) * 2 ^ (-149 : ℤ) + 2 ^ (-149 : ℤ) = ((a + 1 : ℤ) : ℚ) * 2 ^ (-149 : ℤ) := by push_cast; ring
    _ ≤ b * 2 ^ (-149 : ℤ) := mul_le_mul_of_nonneg_right (by exact_mod_cast hab) hpos.le

/-! ### Rounding keeps the order -/

theorem roundHalfEven_mono {x y : ℚ} (h : x ≤ y) : roundHalfEven x ≤ roundHalfEven y := by
  rcases (Int.floor_le_floor h).lt_or_eq with hlt | heq
  · have hup : roundHalfEven x ≤ ⌊x⌋ + 1 := by
      unfold roundHalfEven
      split <;> omega
    have hdown : ⌊y⌋ ≤ roundHalfEven y := le_roundHalfEven (Int.floor_le y)
    omega
  · -- between the same two whole numbers, what rounds up is not below what rounds down
    unfold roundHalfEven
    rw [heq]
    split
    · split <;> omega
    · rename_i hx
      rw [if_neg]
      rintro (hy | ⟨hy, heven⟩)
      · exact hx (Or.inl (by linarith))
      · rcases (show x - ⌊y⌋ ≤ 1 / 2 by linarith).lt_or_eq with hlt | hhalf
        · exact hx (Or.inl hlt)
        · exact hx (Or.inr ⟨hhalf, heven⟩)

theorem rounded_neg (x : ℚ) : rounded (-x) = -rounded x := by
  rcases lt_trichotomy x 0 with hx | rfl | hx
  · have hx' : ¬ -x < 0 := by linarith
    simp [rounded, significand, exponent, hx.ne, hx, hx']
  · simp [rounded]
  · have hx' : ¬ x < 0 := by linarith
    simp [rounded, significand, exponent, hx.ne', hx, hx']

theorem rounded_of_pos {x : ℚ} (hx : 0 < x) : rounded x = significand x * ulp x := by
  unfold rounded
  rw [if_neg hx.ne', if_neg hx.not_gt, one_mul]
  rfl

theorem rounded_nonneg {x : ℚ} (hx : 0 ≤ x) : 0 ≤ rounded x := by
  rcases hx.eq_or_lt with rfl | hx
  · exact (if_pos rfl).ge
  · rw [rounded_of_pos hx]
    have hsig : (0 : ℚ) ≤ significand x := by exact_mod_cast (significand_bounds hx.ne').1
    exact mul_nonneg hsig (ulp_pos x).le

theorem rounded_le_of_pos {x y : ℚ} (hx : 0 < x) (h : x ≤ y) : rounded x ≤ rounded y := by
  have hy : 0 < y := hx.trans_le h
  have hexponent : exponent x ≤ exponent y := by
    have := Int.log_mono_right hx h (b := 2)
    unfold exponent
    rw [abs_of_pos hx, abs_of_pos hy]
    omega
  rw [rounded_of_pos hx, rounded_of_pos hy]
  rcases hexponent.eq_or_lt with heq | hlt
  · have hulp : ulp x = ulp y := by rw [ulp, heq, ulp]
    have hsig : significand x ≤ significand y := by
      unfold significand
      rw [heq, abs_of_pos hx, abs_of_pos hy]
      exact roundHalfEven_mono (div_le_div_of_nonneg_right h (zpow_pos (by norm_num) _).le)
    rw [hulp]
    exact mul_le_mul_of_nonneg_right (by exact_mod_cast hsig) (ulp_pos y).le
  · -- a lower binade ends where the next begins
    obtain ⟨-, hxsig, -⟩ := significand_bounds hx.ne'
    obtain ⟨-, -, hysig⟩ := significand_bounds hy.ne'
    have hnormal : (2 : ℤ) ^ 23 ≤ significand y := by
      have : -126 ≤ exponent x := le_max_right _ _
      omega
    calc (significand x : ℚ) * ulp x ≤ 2 ^ (24 : ℤ) * ulp x :=
          mul_le_mul_of_nonneg_right (by exact_mod_cast hxsig) (ulp_pos x).le
      _ = 2 ^ (exponent x + 1) := by
          rw [ulp, ← zpow_add₀ (by norm_num)]
          congr 1
          ring
      _ ≤ 2 ^ exponent y := zpow_le_zpow_right₀ (by norm_num) (by omega)
      _ = 2 ^ (23 : ℤ) * ulp y := by
          rw [ulp, ← zpow_add₀ (by norm_num)]
          congr 1
          ring
      _ ≤ significand y * ulp y := mul_le_mul_of_nonneg_right (by exact_mod_cast hnormal) (ulp_pos y).le

theorem rounded_mono : Monotone rounded := by
  intro x y h
  rcases lt_or_ge 0 x with hx | hx
  · exact rounded_le_of_pos hx h
  · have hneg : rounded x ≤ 0 := by
      have := rounded_nonneg (neg_nonneg.2 hx)
      rw [rounded_neg] at this
      linarith
    rcases le_or_gt 0 y with hy | hy
    · exact hneg.trans (rounded_nonneg hy)
    · have := rounded_le_of_pos (neg_pos.2 hy) (neg_le_neg h)
      rw [rounded_neg, rounded_neg] at this
      linarith

end EmsFixtures.Float32
