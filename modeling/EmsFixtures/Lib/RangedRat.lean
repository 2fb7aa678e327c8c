import EmsFixtures.Lib.ExtRat
import Mathlib.Algebra.Order.Monoid.Unbundled.Pow
import Mathlib.Tactic.NormNum

/-!
# Extended rationals in the range of `f64`

The reading of `f64` as extended rationals whose finite numbers end where those of binary64 do: a result of
`2 ^ 1024 - 2 ^ 970` or more, in absolute value, is an infinity of its sign.  Within the range arithmetic is exact, so a
result is finite iff the exact one is in range; the bits a mantissa loses are not modelled.

A number carries its range (`RangedRat.inRange`), and each operation is the one of `ExtRat`, cut to the range.
-/

namespace EmsFixtures

/-- The first number that rounds to an infinity. -/
def RangedRat.overflow : ℚ := 2 ^ 1024 - 2 ^ 970

@[ext]
structure RangedRat where
  val : ExtRat
  inRange : ∀ q, val = .finite q → |q| < RangedRat.overflow

namespace RangedRat

open ExtRat

/-- A number out of range is an infinity. -/
def cut : ExtRat → RangedRat
  | finite q => if h : |q| < overflow then ⟨finite q, fun _ hp => ExtRat.finite.inj hp ▸ h⟩ else ⟨inf (q < 0), nofun⟩
  | inf s => ⟨inf s, nofun⟩
  | nan => ⟨nan, nofun⟩

instance f64 : F64 RangedRat where
  add x y := cut (x.val + y.val)
  sub x y := cut (x.val - y.val)
  mul x y := cut (x.val * y.val)
  div x y := cut (x.val / y.val)
  neg x := cut (-x.val)
  lit q := cut (finite q)
  lt x y := F64.lt x.val y.val
  le x y := F64.le x.val y.val
  round x := cut (F64.round x.val)
  toU16 x := F64.toU16 x.val
  toI32 x := F64.toI32 x.val
  toI64 x := F64.toI64 x.val
  toF32Bits x := F64.toF32Bits x.val

def parse (raw : String) : Option RangedRat := (ExtRat.parse raw).map cut

def IsFinite (x : RangedRat) : Prop := x.val.IsFinite

/-- The number, 0 for what is none. -/
def value (x : RangedRat) : ℚ :=
  match x.val with
  | finite q => q
  | _ => 0

variable {x y : RangedRat} {q r : ℚ}

end RangedRat

end EmsFixtures
