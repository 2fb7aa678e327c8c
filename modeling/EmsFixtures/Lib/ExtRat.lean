import EmsFixtures.Lib.F64

/-!
# `f64` as extended rationals

The reading of `f64` as the rationals with both infinities and NaN, under the rules of IEEE 754 for these: arithmetic
on finite numbers is exact, an indeterminate form is NaN, every comparison with a NaN fails.  There is one zero, taken
as positive when it divides.

Away from a zero divisor the finite numbers are closed under every operation and `clamp`, so a program that starts on
finite numbers runs as it does over `ℚ`.
-/

namespace EmsFixtures

inductive ExtRat where
  | nan
  | inf (negative : Bool)
  | finite (q : ℚ)
  deriving DecidableEq

namespace ExtRat

def neg : ExtRat → ExtRat
  | nan => nan
  | inf s => inf (!s)
  | finite q => finite (-q)

def add : ExtRat → ExtRat → ExtRat
  | finite p, finite q => finite (p + q)
  | inf s, inf t => if s = t then inf s else nan
  | inf s, finite _ => inf s
  | finite _, inf t => inf t
  | nan, _ => nan
  | _, nan => nan

/-- An infinity with the sign of `q`, flipped if `negative`; no number if `q` is zero. -/
def infOfSign (negative : Bool) (q : ℚ) : ExtRat :=
  if q = 0 then nan else inf (negative ^^ decide (q < 0))

def mul : ExtRat → ExtRat → ExtRat
  | finite p, finite q => finite (p * q)
  | inf s, inf t => inf (s ^^ t)
  | inf s, finite q => infOfSign s q
  | finite p, inf t => infOfSign t p
  | nan, _ => nan
  | _, nan => nan

def div : ExtRat → ExtRat → ExtRat
  | finite p, finite q => if q = 0 then infOfSign false p else finite (p / q)
  | inf _, inf _ => nan
  | inf s, finite q => inf (s ^^ decide (q < 0))
  | finite _, inf _ => finite 0
  | nan, _ => nan
  | _, nan => nan

def lt : ExtRat → ExtRat → Bool
  | finite p, finite q => decide (p < q)
  | inf s, inf t => s && !t
  | inf s, finite _ => s
  | finite _, inf t => !t
  | nan, _ => false
  | _, nan => false

def le (x y : ExtRat) : Bool := lt x y || (x == y && x != nan)

def map (f : ℚ → ℚ) : ExtRat → ExtRat
  | finite q => finite (f q)
  | x => x

/-- A saturating cast: NaN to 0, infinities to the ends of the range. -/
def cast {α : Type} (zero min max : α) (f : ℚ → α) : ExtRat → α
  | nan => zero
  | inf true => min
  | inf false => max
  | finite q => f q

instance f64 : F64 ExtRat where
  add := add
  sub x y := add x (neg y)
  mul := mul
  div := div
  neg := neg
  lit := finite
  lt := lt
  le := le
  round := map fun q => F64.roundHalfAway q
  toU16 := cast 0 0 0xFFFF F64.toU16
  toI32 := cast 0 Int32.minValue Int32.maxValue F64.toI32
  toI64 := cast 0 Int64.minValue Int64.maxValue F64.toI64
  toF32Bits := cast 0x7FC00000 0xFF800000 0x7F800000 F64.toF32Bits

def IsFinite (x : ExtRat) : Prop := ∃ q, x = finite q

/-! ### `str::parse::<f64>` -/

def digitsValue (digits : List Char) : ℕ := digits.foldl (fun n c => n * 10 + (c.toNat - '0'.toNat)) 0

/-- An optional sign: whether it is a minus, and what follows it. -/
def takeSign : List Char → Bool × List Char
  | '-' :: l => (true, l)
  | '+' :: l => (false, l)
  | l => (false, l)

/-- The exponent of a number, `e` and an integer, or nothing. -/
def parseExponent : List Char → Option ℤ
  | [] => some 0
  | c :: l =>
    if c = 'e' ∨ c = 'E' then
      let (negative, digits) := takeSign l
      if digits ≠ [] ∧ digits.all Char.isDigit then
        some (if negative then -(digitsValue digits : ℤ) else digitsValue digits)
      else none
    else none

/-- Digits with an optional point, at least one of them, and an optional exponent. -/
def parseNumber (l : List Char) : Option ℚ :=
  let (whole, l) := l.span Char.isDigit
  let (fraction, l) := match l with
    | '.' :: l => l.span Char.isDigit
    | l => ([], l)
  if whole = [] ∧ fraction = [] then none
  else (parseExponent l).map fun e => (digitsValue (whole ++ fraction) : ℚ) * 10 ^ (e - (fraction.length : ℤ))

def parse (raw : String) : Option ExtRat :=
  let (negative, l) := takeSign raw.toList
  let x : Option ExtRat :=
    if l.map Char.toLower = ['n', 'a', 'n'] then some nan
    else if l.map Char.toLower = "inf".toList ∨ l.map Char.toLower = "infinity".toList then some (inf false)
    else (parseNumber l).map finite
  if negative then x.map neg else x

example : parse "-12.50e1" = some (finite (-125)) := by decide +kernel

/-! ### Finite numbers -/

@[simp] theorem finite_lit (q : ℚ) : (F64.lit q : ExtRat) = finite q := rfl

@[simp] theorem finite_add (p q : ℚ) : finite p + finite q = finite (p + q) := rfl

@[simp] theorem finite_neg (q : ℚ) : -finite q = finite (-q) := rfl

@[simp] theorem finite_sub (p q : ℚ) : finite p - finite q = finite (p - q) :=
  congrArg finite (sub_eq_add_neg p q).symm

@[simp] theorem finite_mul (p q : ℚ) : finite p * finite q = finite (p * q) := rfl

theorem finite_div (p : ℚ) {q : ℚ} (hq : q ≠ 0) : finite p / finite q = finite (p / q) := if_neg hq

@[simp] theorem finite_lt (p q : ℚ) : F64.lt (finite p) (finite q) = decide (p < q) := rfl

@[simp] theorem finite_le (p q : ℚ) : F64.le (finite p) (finite q) = decide (p ≤ q) := by
  show (decide (p < q) || (finite p == finite q && finite p != nan)) = decide (p ≤ q)
  have heq : (finite p == finite q) = decide (p = q) := by
    by_cases h : p = q <;> simp [h]
  rw [heq, show (finite p != nan) = true from rfl, Bool.and_true, ← Bool.decide_or, decide_eq_decide]
  exact le_iff_lt_or_eq.symm

theorem finite_round (q : ℚ) : F64.round (finite q) = finite (F64.roundHalfAway q) := rfl

theorem finite_min (p q : ℚ) : F64.min (finite p) (finite q) = finite (min p q) := by
  rw [← F64.rat_min]
  unfold F64.min
  simp only [finite_lt, finite_le, F64.rat_lt, F64.rat_le]
  split <;> rfl

theorem finite_clamp (x lo hi : ℚ) : F64.clamp (finite x) (finite lo) (finite hi) = (F64.clamp x lo hi).map finite := by
  unfold F64.clamp
  simp only [finite_le, finite_lt, F64.rat_le, F64.rat_lt, decide_eq_true_eq]
  by_cases hle : lo ≤ hi
  · simp only [hle, if_true, Except.map]
    by_cases hlo : x < lo
    · simp only [hlo, if_true, finite_lt, decide_eq_true_eq]
      split <;> rfl
    · simp only [hlo, if_false, finite_lt, decide_eq_true_eq]
      split <;> rfl
  · simp [hle, Except.map]

/-! ### NaN -/

@[simp] theorem nan_mul (x : ExtRat) : nan * x = nan := by cases x <;> rfl

@[simp] theorem mul_nan (x : ExtRat) : x * nan = nan := by cases x <;> rfl

@[simp] theorem nan_div (x : ExtRat) : nan / x = nan := by cases x <;> rfl

@[simp] theorem sub_nan (x : ExtRat) : x - nan = nan := by cases x <;> rfl

@[simp] theorem nan_le (x : ExtRat) : F64.le nan x = false := by cases x <;> rfl

/-- NaN passes through a `clamp` with finite bounds in order. -/
theorem nan_clamp {lo hi : ℚ} (h : lo ≤ hi) : F64.clamp nan (finite lo) (finite hi) = .ok nan := by
  unfold F64.clamp
  rw [if_pos (by simpa using h)]
  rfl

/-- What lies between finite bounds is finite. -/
theorem isFinite_of_in_range {x : ExtRat} {lo hi : ℚ} (h : F64.le (finite lo) x ∧ F64.le x (finite hi)) :
    x.IsFinite := by
  cases x with
  | nan => exact absurd h.2 (by simp)
  | inf s =>
    cases s with
    | true => exact absurd h.1 (by rintro ⟨⟩)
    | false => exact absurd h.2 (by rintro ⟨⟩)
  | finite q => exact ⟨q, rfl⟩

theorem finite_zero_mul {x : ExtRat} (h : ¬ x.IsFinite) : finite 0 * x = nan := by
  cases x with
  | nan => rfl
  | inf s => rfl
  | finite q => exact absurd ⟨q, rfl⟩ h

end ExtRat

end EmsFixtures
