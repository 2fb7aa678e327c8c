import Mathlib.Data.Nat.Bitwise

/-!
# A 32-bit value as two 16-bit words

The high word first, as two consecutive registers carry it.  Joining the words of a value gives it back, so
they determine it, as an unsigned number, as a two's complement number or as bits.  A longer number is concatenated in
the same order (`concat`).
-/

namespace EmsFixtures.Words

/-- The high word, `(raw >> 16) as u16`. -/
def high (raw : UInt32) : UInt16 := (raw >>> 16).toUInt16

/-- The low word, `raw as u16`. -/
def low (raw : UInt32) : UInt16 := raw.toUInt16

/-- `(u32::from(high) << 16) | u32::from(low)`. -/
def join (h l : UInt16) : UInt32 := (h.toUInt32 <<< 16) ||| l.toUInt32

theorem toNat_join (h l : UInt16) : (join h l).toNat = h.toNat * 2 ^ 16 + l.toNat := by
  have hh := h.toNat_lt
  have hl := l.toNat_lt
  have hs : (h.toUInt32 <<< 16).toNat = h.toNat <<< 16 := by
    rw [UInt32.toNat_shiftLeft, UInt16.toNat_toUInt32]
    show h.toNat <<< 16 % 2 ^ 32 = h.toNat <<< 16
    rw [Nat.shiftLeft_eq]
    omega
  rw [join, UInt32.toNat_or, hs, UInt16.toNat_toUInt32, ← Nat.shiftLeft_add_eq_or_of_lt hl, Nat.shiftLeft_eq]

theorem toNat_high (raw : UInt32) : (high raw).toNat = raw.toNat / 2 ^ 16 := by
  have h := raw.toNat_lt
  rw [high, UInt32.toNat_toUInt16, UInt32.toNat_shiftRight]
  show raw.toNat >>> 16 % 2 ^ 16 = raw.toNat / 2 ^ 16
  rw [Nat.shiftRight_eq_div_pow]
  omega

theorem toNat_low (raw : UInt32) : (low raw).toNat = raw.toNat % 2 ^ 16 := by
  rw [low, UInt32.toNat_toUInt16]

@[simp] theorem join_high_low (raw : UInt32) : join (high raw) (low raw) = raw := by
  apply UInt32.toNat_inj.1
  rw [toNat_join, toNat_high, toNat_low]
  omega

/-- The words of a longer number, `(acc << 16) | u64::from(word)` from the highest on. -/
def concat (words : List UInt16) : UInt64 := words.foldl (fun acc word => (acc <<< 16) ||| word.toUInt64) 0

theorem toNat_concat_step {acc : UInt64} (h : acc.toNat < 2 ^ 48) (word : UInt16) :
    ((acc <<< 16) ||| word.toUInt64).toNat = acc.toNat * 2 ^ 16 + word.toNat := by
  have hw := word.toNat_lt
  have hs : (acc <<< 16).toNat = acc.toNat <<< 16 := by
    rw [UInt64.toNat_shiftLeft]
    show acc.toNat <<< 16 % 2 ^ 64 = acc.toNat <<< 16
    rw [Nat.shiftLeft_eq]
    omega
  rw [UInt64.toNat_or, hs, UInt16.toNat_toUInt64, ← Nat.shiftLeft_add_eq_or_of_lt hw, Nat.shiftLeft_eq]

/-- A 32-bit value in the low words of a 64-bit one. -/
theorem toNat_concat_join (h l : UInt16) : (concat [0, 0, h, l]).toNat = (join h l).toNat := by
  have hh := h.toNat_lt
  have hzero : concat [0, 0] = 0 := by decide
  have hhigh : (concat [0, 0, h]).toNat = h.toNat := by
    show ((concat [0, 0] <<< 16) ||| h.toUInt64).toNat = _
    rw [toNat_concat_step (by rw [hzero]; decide), hzero]
    simp
  show ((concat [0, 0, h] <<< 16) ||| l.toUInt64).toNat = _
  rw [toNat_concat_step (by rw [hhigh]; omega), hhigh, toNat_join]

end EmsFixtures.Words
