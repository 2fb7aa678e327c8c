import EmsFixtures.Lib.F64
import EmsFixtures.Lib.Maps
import EmsFixtures.Lib.Words

/-!
# The register map of a rack

`rack_registers.rs` and `derate.rs`: the addresses of the `bess_rack` profile, its int32 word helpers and the
charge/discharge limits.  An int32 is written as a pair or not at all: `putI32` on a pair without driven word is
read back by `readI32`, and it touches no other address.
-/

namespace EmsFixtures.Modbus

open HashMap

/-- A register map, Modbus address to 16-bit word. -/
abbrev Registers := HashMap UInt16 UInt16

def soc : UInt16 := 0
def activePower : UInt16 := 10
def energyDischarged : UInt16 := 30
def operatingState : UInt16 := 40
def setpoint : UInt16 := 50
def maxCharge : UInt16 := 60
def maxDischarge : UInt16 := 62

def standby : UInt16 := 0
def charging : UInt16 := 1
def discharging : UInt16 := 2

/-- Read an int32 (high word first) from two consecutive registers. -/
def readI32 (holding : Registers) (addr : UInt16) : Int32 :=
  let high := (holding.lookup addr).getD 0
  let low := (holding.lookup (addr + 1)).getD 0
  (Words.join high low).toInt32

def put (holding : Registers) (driven : Finset UInt16) (addr value : UInt16) : Registers :=
  if addr ∈ driven then holding else holding.insert addr value

/-- Write an int32 (high word first) unless either word is driven. -/
def putI32 (holding : Registers) (driven : Finset UInt16) (addr : UInt16) (value : Int32) : Registers :=
  if addr ∈ driven ∨ addr + 1 ∈ driven then holding
  else
    let raw := value.toUInt32
    (holding.insert addr (Words.high raw)).insert (addr + 1) (Words.low raw)

section Limits

variable {F : Type} [F64 F]

def dischargeTaperBelowPercent : F := F64.lit 20
def chargeTaperAbovePercent : F := F64.lit 90

def maxDischargeW (ratedW socPercent : F) : Except Panic F := do
  let taper ← F64.clamp (socPercent / dischargeTaperBelowPercent) (F64.lit 0) (F64.lit 1)
  pure (ratedW * taper)

def maxChargeW (ratedW socPercent : F) : Except Panic F := do
  let taperWidth : F := F64.lit 100 - chargeTaperAbovePercent
  let taper ← F64.clamp ((F64.lit 100 - socPercent) / taperWidth) (F64.lit 0) (F64.lit 1)
  pure (ratedW * taper)

def roundI32 (x : F) : Int32 := F64.toI32 (F64.round x)

def roundU16 (x : F) : UInt16 := F64.toU16 (F64.round x)

/-- Initial register map for a rack at `socPercent`: 480.0 V, 60.00 Hz, idle, no reactive power, limits derated from
`ratedW` at that SoC. -/
def initialRegisters (socPercent ratedW : F) : Except Panic Registers := do
  let holding := HashMap.ofList [(soc, roundU16 (socPercent * F64.lit 10)), (10, 0), (11, 0), (12, 0), (13, 0),
    (20, 4800), (22, 6000), (30, 0), (31, 0), (operatingState, standby), (setpoint, 0), (setpoint + 1, 0)]
  let charge ← maxChargeW ratedW socPercent
  let discharge ← maxDischargeW ratedW socPercent
  let holding := putI32 holding ∅ maxCharge (roundI32 charge)
  pure (putI32 holding ∅ maxDischarge (roundI32 discharge))

end Limits

/-! ### What the writes change -/

theorem put_of_driven {holding : Registers} {driven : Finset UInt16} {addr value : UInt16} (h : addr ∈ driven) :
    put holding driven addr value = holding := if_pos h

theorem lookup_put_of_ne {holding : Registers} {driven : Finset UInt16} {addr value a : UInt16} (h : a ≠ addr) :
    (put holding driven addr value).lookup a = holding.lookup a := by
  unfold put
  split
  · rfl
  · rw [Finmap.lookup_insert_of_ne _ h]

theorem putI32_of_driven {holding : Registers} {driven : Finset UInt16} {addr : UInt16} {value : Int32}
    (h : addr ∈ driven ∨ addr + 1 ∈ driven) : putI32 holding driven addr value = holding := if_pos h

theorem lookup_putI32_of_ne {holding : Registers} {driven : Finset UInt16} {addr : UInt16} {value : Int32}
    {a : UInt16} (h : a ≠ addr) (h' : a ≠ addr + 1) :
    (putI32 holding driven addr value).lookup a = holding.lookup a := by
  unfold putI32
  split
  · rfl
  · rw [Finmap.lookup_insert_of_ne _ h', Finmap.lookup_insert_of_ne _ h]

theorem ne_add_one (addr : UInt16) : addr ≠ addr + 1 := by
  intro he
  have := congrArg UInt16.toNat he
  rw [UInt16.toNat_add] at this
  have := addr.toNat_lt
  simp at *

/-- An int32 put into an undriven pair stands in the map as its two words. -/
theorem lookup_putI32 (holding : Registers) {driven : Finset UInt16} {addr : UInt16} (value : Int32)
    (h : addr ∉ driven) (h' : addr + 1 ∉ driven) :
    (putI32 holding driven addr value).lookup addr = some (Words.high value.toUInt32) ∧
      (putI32 holding driven addr value).lookup (addr + 1) = some (Words.low value.toUInt32) := by
  rw [putI32, if_neg (by simp [h, h'])]
  constructor
  · rw [Finmap.lookup_insert_of_ne _ (ne_add_one addr), Finmap.lookup_insert]
  · exact Finmap.lookup_insert _

/-- A pair that holds the two words of an int32 reads it. -/
theorem readI32_of_words {holding : Registers} {addr : UInt16} {value : Int32}
    (h : holding.lookup addr = some (Words.high value.toUInt32))
    (h' : holding.lookup (addr + 1) = some (Words.low value.toUInt32)) : readI32 holding addr = value := by
  rw [readI32, h, h', Option.getD_some, Option.getD_some, Words.join_high_low]
  exact Int32.toInt32_toUInt32 value

theorem readI32_putI32 {holding : Registers} {driven : Finset UInt16} {addr : UInt16} {value : Int32}
    (h : addr ∉ driven) (h' : addr + 1 ∉ driven) : readI32 (putI32 holding driven addr value) addr = value := by
  have hwords := lookup_putI32 holding value h h'
  exact readI32_of_words hwords.1 hwords.2

theorem readI32_congr {holding holding' : Registers} {addr : UInt16} (h : holding'.lookup addr = holding.lookup addr)
    (h' : holding'.lookup (addr + 1) = holding.lookup (addr + 1)) : readI32 holding' addr = readI32 holding addr := by
  unfold readI32
  rw [h, h']

theorem readI32_put {holding : Registers} {driven : Finset UInt16} {addr a value : UInt16} (h : addr ≠ a)
    (h' : addr + 1 ≠ a) : readI32 (put holding driven a value) addr = readI32 holding addr :=
  readI32_congr (lookup_put_of_ne h) (lookup_put_of_ne h')

/-- Two pairs are the same or have no word in common. -/
def SameOrApart (p q : UInt16) : Prop := p = q ∨ (p ≠ q ∧ p ≠ q + 1 ∧ p + 1 ≠ q ∧ p + 1 ≠ q + 1)

instance (p q : UInt16) : Decidable (SameOrApart p q) := inferInstanceAs (Decidable (_ ∨ _))

theorem readI32_putI32_of_ne {holding : Registers} {driven : Finset UInt16} {addr a : UInt16} {value : Int32}
    (h : SameOrApart addr a) (hne : addr ≠ a) : readI32 (putI32 holding driven a value) addr = readI32 holding addr := by
  obtain ⟨h₁, h₂, h₃, h₄⟩ := h.resolve_left hne
  exact readI32_congr (lookup_putI32_of_ne h₁ h₂) (lookup_putI32_of_ne h₃ h₄)

end EmsFixtures.Modbus
