import Mathlib.Algebra.Order.Floor.Ring
import Mathlib.Data.Int.Log
import Mathlib.Data.Rat.Floor
import Mathlib.Tactic.Linarith
import EmsFixtures.Lib.Panic

/-!
# Rust's `f64`

`F64 F` lists the operations of `f64` that a program may use; a program over `F64 F` is the program for every
reading of its numbers.  The instance on `ℚ` is the reading as exact rationals: arithmetic without rounding,
`round` half away from zero, and float-to-int casts that truncate and saturate.
-/

namespace EmsFixtures

/-- The operations of `f64`.  `lit` is a literal, or the conversion of an integer. -/
class F64 (F : Type) extends Add F, Sub F, Mul F, Div F, Neg F where
  lit : ℚ → F
  lt : F → F → Bool
  le : F → F → Bool
  /-- `f64::round`. -/
  round : F → F
  /-- `x as u16`, `x as i32`, `x as i64`. -/
  toU16 : F → UInt16
  toI32 : F → Int32
  toI64 : F → Int64
  /-- `(x as f32).to_bits()`. -/
  toF32Bits : F → UInt32

namespace F64

variable {F : Type} [F64 F]

/-- `x.clamp(min, max)`. -/
def clamp (x min max : F) : Except Panic F :=
  if le min max then
    let x := if lt x min then min else x
    .ok (if lt max x then max else x)
  else .error .clampBounds

/-- `x.is_finite()`: the difference of an infinity with itself, and of a NaN, is NaN. -/
def isFinite (x : F) : Bool := le (x - x) (x - x)

/-- `x.min(y)`, the other one if one is NaN. -/
def min (x y : F) : F := if lt y x ∨ ¬ le x x then y else x

/-- `iter().sum::<f64>()`. -/
def sum (xs : List F) : F := xs.foldl (· + ·) (lit 0)

/-- Rounding to the nearest integer, halves away from zero. -/
def roundHalfAway (x : ℚ) : ℤ := if 0 ≤ x then ⌊x + 1 / 2⌋ else -⌊-x + 1 / 2⌋

/-- Truncation towards zero. -/
def truncate (x : ℚ) : ℤ := if 0 ≤ x then ⌊x⌋ else ⌈x⌉

/-- Rounding to the nearest integer, halves to the even one. -/
def roundHalfEven (x : ℚ) : ℤ :=
  if x - ⌊x⌋ < 1 / 2 ∨ (x - ⌊x⌋ = 1 / 2 ∧ ⌊x⌋ % 2 = 0) then ⌊x⌋ else ⌊x⌋ + 1

/-- The bits of the nearest IEEE binary32: sign, biased exponent and 23 fraction bits; subnormal below `2 ^ -126`,
infinite from the overflow threshold on. -/
def f32Bits (x : ℚ) : UInt32 :=
  let sign : ℤ := if x < 0 then 2 ^ 31 else 0
  if x = 0 then 0 else
    let e := max (Int.log 2 |x|) (-126)
    let bits := (e + 126) * 2 ^ 23 + roundHalfEven (|x| / 2 ^ (e - 23))
    UInt32.ofNat (sign + Min.min bits 0x7F800000).toNat

/-- `f64` read as exact rationals. -/
instance : F64 ℚ where
  lit q := q
  lt x y := decide (x < y)
  le x y := decide (x ≤ y)
  round x := roundHalfAway x
  toU16 x := UInt16.ofNatClamp (truncate x).toNat
  toI32 x := Int32.ofIntClamp (truncate x)
  toI64 x := Int64.ofIntClamp (truncate x)
  toF32Bits := f32Bits

/-! ### The reading as exact rationals -/

@[simp] theorem rat_lit (q : ℚ) : (lit q : ℚ) = q := rfl

@[simp] theorem rat_lt (x y : ℚ) : lt x y = decide (x < y) := rfl

@[simp] theorem rat_le (x y : ℚ) : le x y = decide (x ≤ y) := rfl

@[simp] theorem rat_isFinite (x : ℚ) : isFinite x = true := decide_eq_true (le_refl (x - x))

theorem rat_min (x y : ℚ) : min x y = Min.min x y := by
  unfold min
  simp only [rat_lt, rat_le, decide_eq_true_eq, le_refl, not_true_eq_false, or_false]
  rcases lt_or_ge y x with h | h
  · rw [if_pos h, min_eq_right h.le]
  · rw [if_neg (not_lt.2 h), min_eq_left h]

theorem rat_sum (xs : List ℚ) : sum xs = xs.sum := by
  rw [sum, rat_lit, List.sum_eq_foldl]

/-- `clamp` returns iff its bounds are in order, and then it returns the nearest point of the interval. -/
theorem rat_clamp_eq_ok_iff {x lo hi y : ℚ} : clamp x lo hi = .ok y ↔ lo ≤ hi ∧ y = max lo (Min.min x hi) := by
  unfold clamp
  simp only [rat_le, rat_lt, decide_eq_true_eq]
  by_cases h : lo ≤ hi
  · simp only [h, if_true, true_and, Except.ok.injEq]
    rw [eq_comm]
    by_cases hlo : x < lo
    · rw [if_pos hlo, if_neg (not_lt.2 h), min_eq_left (hlo.le.trans h), max_eq_left hlo.le]
    · rw [if_neg hlo]
      by_cases hhi : hi < x
      · rw [if_pos hhi, min_eq_right hhi.le, max_eq_right h]
      · rw [if_neg hhi, min_eq_left (not_lt.1 hhi), max_eq_right (not_lt.1 hlo)]
  · simp [h]

theorem rat_clamp {x lo hi : ℚ} (h : lo ≤ hi) : clamp x lo hi = .ok (max lo (Min.min x hi)) :=
  rat_clamp_eq_ok_iff.2 ⟨h, rfl⟩

theorem roundHalfAway_neg (x : ℚ) : roundHalfAway (-x) = -roundHalfAway x := by
  unfold roundHalfAway
  rcases lt_trichotomy x 0 with h | rfl | h
  · rw [if_pos (by linarith), if_neg (by linarith), neg_neg]
  · norm_num
  · rw [if_neg (by linarith), if_pos h.le, neg_neg]

theorem roundHalfAway_nonneg {x : ℚ} (h : 0 ≤ x) : 0 ≤ roundHalfAway x := by
  unfold roundHalfAway
  rw [if_pos h]
  exact Int.floor_nonneg.2 (by linarith)

/-- A positive integer is reached by rounding exactly from half a unit below it. -/
theorem le_roundHalfAway_iff {x : ℚ} {n : ℤ} (hn : 0 < n) : n ≤ roundHalfAway x ↔ (n : ℚ) - 1 / 2 ≤ x := by
  have hn' : (1 : ℚ) ≤ n := by exact_mod_cast hn
  unfold roundHalfAway
  split
  · rw [Int.le_floor]
    constructor <;> intro h <;> linarith
  · rename_i hx
    have hneg : 0 ≤ ⌊-x + 1 / 2⌋ := Int.floor_nonneg.2 (by linarith)
    constructor
    · intro h; omega
    · intro h; linarith

theorem roundHalfAway_pos_iff {x : ℚ} : 0 < roundHalfAway x ↔ 1 / 2 ≤ x := by
  have h := le_roundHalfAway_iff (x := x) one_pos
  norm_num at h
  rw [← h]
  omega

theorem roundHalfAway_neg_iff {x : ℚ} : roundHalfAway x < 0 ↔ x ≤ -(1 / 2) := by
  have h := roundHalfAway_pos_iff (x := -x)
  rw [roundHalfAway_neg, neg_pos] at h
  rw [h]
  constructor <;> intro h <;> linarith

theorem abs_roundHalfAway_sub_le (x : ℚ) : |(roundHalfAway x : ℚ) - x| ≤ 1 / 2 := by
  rw [abs_le]
  unfold roundHalfAway
  split
  · have hfloor := Int.floor_le (x + 1 / 2)
    have hlt := Int.lt_floor_add_one (x + 1 / 2)
    constructor <;> linarith
  · have hfloor := Int.floor_le (-x + 1 / 2)
    have hlt := Int.lt_floor_add_one (-x + 1 / 2)
    push_cast
    constructor <;> linarith

theorem roundHalfAway_mono {x y : ℚ} (h : x ≤ y) : roundHalfAway x ≤ roundHalfAway y := by
  rcases lt_or_ge 0 (roundHalfAway x) with hx | hx
  · exact (le_roundHalfAway_iff hx).2 (((le_roundHalfAway_iff hx).1 le_rfl).trans h)
  · rcases le_or_gt 0 y with hy | hy
    · exact hx.trans (roundHalfAway_nonneg hy)
    · -- both negative: compare the roundings of the opposites
      have hlt : 0 ≤ -y := by linarith
      unfold roundHalfAway
      rw [if_neg (by linarith), if_neg (by linarith)]
      exact neg_le_neg (Int.floor_le_floor (by linarith))

@[simp] theorem roundHalfAway_intCast (n : ℤ) : roundHalfAway n = n := by
  unfold roundHalfAway
  split
  · rw [Int.floor_intCast_add]; norm_num
  · rw [← Int.cast_neg, Int.floor_intCast_add]; norm_num

@[simp] theorem truncate_intCast (n : ℤ) : truncate n = n := by
  unfold truncate; split <;> simp

/-- `x.round() as i32`: the nearest integer, saturated to 32 bits. -/
theorem toInt_toI32_round (x : ℚ) :
    (toI32 (round x)).toInt = max (-2 ^ 31) (Min.min (roundHalfAway x) (2 ^ 31 - 1)) := by
  have hmin : Int32.minValue.toInt = -2 ^ 31 := rfl
  have hmax : Int32.maxValue.toInt = 2 ^ 31 - 1 := rfl
  show (Int32.ofIntClamp (truncate ((roundHalfAway x : ℤ) : ℚ))).toInt = _
  rw [truncate_intCast, Int32.ofIntClamp]
  split
  · split
    · rw [Int32.toInt_ofIntLE]; omega
    · rw [hmax]; omega
  · rw [hmin]; omega

theorem toInt_toI32_intCast {n : ℤ} (hlow : -2 ^ 31 ≤ n) (hhigh : n < 2 ^ 31) : (toI32 (n : ℚ)).toInt = n := by
  have hround : (round (n : ℚ) : ℚ) = n := congrArg Int.cast (roundHalfAway_intCast n)
  have h := toInt_toI32_round (n : ℚ)
  rw [hround, roundHalfAway_intCast] at h
  omega

/-- `x.round() as i64`. -/
theorem toInt_toI64_round (x : ℚ) :
    (toI64 (round x)).toInt = max (-2 ^ 63) (Min.min (roundHalfAway x) (2 ^ 63 - 1)) := by
  have hmin : Int64.minValue.toInt = -2 ^ 63 := rfl
  have hmax : Int64.maxValue.toInt = 2 ^ 63 - 1 := rfl
  show (Int64.ofIntClamp (truncate ((roundHalfAway x : ℤ) : ℚ))).toInt = _
  rw [truncate_intCast, Int64.ofIntClamp]
  split
  · split
    · rw [Int64.toInt_ofIntLE]; omega
    · rw [hmax]; omega
  · rw [hmin]; omega

/-- Rounding `x` gives an `i64`. -/
def RoundsToI64 (x : ℚ) : Prop := -2 ^ 63 ≤ roundHalfAway x ∧ roundHalfAway x < 2 ^ 63

theorem RoundsToI64.toInt {x : ℚ} (h : RoundsToI64 x) : (toI64 (round x)).toInt = roundHalfAway x := by
  obtain ⟨hlow, hhigh⟩ := h
  rw [toInt_toI64_round]
  omega

theorem toI64_round_mono {x y : ℚ} (h : x ≤ y) : (toI64 (round x)).toInt ≤ (toI64 (round y)).toInt := by
  have := roundHalfAway_mono h
  rw [toInt_toI64_round, toInt_toI64_round]
  omega

end F64

end EmsFixtures
