import EmsFixtures.Snmp.Readings
import Mathlib.Tactic.FieldSimp
import Mathlib.Tactic.Ring
import Mathlib.Tactic.NormNum

/-!
# The balance of power and currents

The input power and the three phase currents of a reading are rounded on their own: the power to watts, a current to
hundredths of an amp.  Each current carries a third of the power up to half a hundredth of an amp at its voltage, so
volts times amps add up to the power within half a watt and half a hundredth of an amp a phase (`power_balance`).  The
readings are `i64`: a value outside it is cut to its end, and there the balance is lost.
-/

namespace EmsFixtures.Snmp

open HashMap

/-- A phase voltage in volts. -/
def volts (values : Values) (phase : UInt32) : ℚ := (phaseVoltage values phase).toInt / 10

/-- The current that carries a third of `powerW` at `volts`, in hundredths of an amp. -/
def hundredthsA (powerW volts : ℚ) : ℚ := powerW / 3 / volts * 100

/-- Volts times amps of the three phases add up to the input power, within the rounding of the four readings. -/
def Balanced (values out : Values) : Prop :=
  ∃ (power : Int64) (current : UInt32 → Int64), out.lookup (sentry4 3 []) = some power ∧
    (∀ phase ∈ phases, out.lookup (sentry4 4 [phase]) = some (current phase)) ∧
    |(phases.map fun phase => (current phase).toInt * (1 / 100) * volts values phase).sum - power.toInt| ≤
      1 / 2 + 5 / 1000 * (phases.map (volts values)).sum

/-- The OIDs of a reading: the input power, the phase currents, and what mirrors them in the PDU2-MIB. -/
structure WritesOnlyReadings (out : Values) : Prop where
  keys : ∀ k, k ∈ out ↔ k = sentry4 3 [] ∨ k = inletPower ∨
    ∃ phase ∈ phases, k = sentry4 4 [phase] ∨ k = pole phase rmsCurrent
  no_voltage : ∀ phase ∈ phases, sentry4 5 [phase] ∉ out ∧ pole phase rmsVoltage ∉ out
  inlet : out.lookup inletPower = out.lookup (sentry4 3 [])
  currents : ∀ phase ∈ phases, out.lookup (pole phase rmsCurrent) = (out.lookup (sentry4 4 [phase])).map (· * 10)

theorem volts_pos {values : Values}
    (h : ∀ phase ∈ phases, ∀ v, values.lookup (sentry4 5 [phase]) = some v → 0 < v.toInt) {phase : UInt32}
    (hp : phase ∈ phases) : 0 < volts values phase := by
  have hpos : 0 < (phaseVoltage values phase).toInt := by
    unfold phaseVoltage
    cases hv : values.lookup (sentry4 5 [phase]) with
    | none => decide
    | some v => exact h phase hp v hv
  have hcast : (0 : ℚ) < (phaseVoltage values phase).toInt := by exact_mod_cast hpos
  unfold volts
  positivity

/-- A phase carries a third of the power, up to half a hundredth of an amp at its voltage. -/
theorem phase_balance (powerW : ℚ) {volts : ℚ} (hv : 0 < volts) :
    |(F64.roundHalfAway (hundredthsA powerW volts) : ℚ) * (1 / 100) * volts - powerW / 3| ≤ 5 / 1000 * volts := by
  have hexact : hundredthsA powerW volts * (1 / 100) * volts = powerW / 3 := by
    unfold hundredthsA
    field_simp
  have herror : (F64.roundHalfAway (hundredthsA powerW volts) : ℚ) * (1 / 100) * volts - powerW / 3 =
      ((F64.roundHalfAway (hundredthsA powerW volts) : ℚ) - hundredthsA powerW volts) * (1 / 100 * volts) := by
    rw [← hexact]
    ring
  have hround := F64.abs_roundHalfAway_sub_le (hundredthsA powerW volts)
  have hunit : 0 < 1 / 100 * volts := by positivity
  rw [herror, abs_mul, abs_of_pos hunit]
  calc _ ≤ 1 / 2 * (1 / 100 * volts) := mul_le_mul_of_nonneg_right hround hunit.le
    _ = 5 / 1000 * volts := by ring

theorem writesOnlyReadings (load : PduLoad ℚ) (nodeW : ℚ) (values : Values) :
    WritesOnlyReadings (readings load nodeW values) := by
  have hvoltage : ∀ phase ∈ phases, sentry4 5 [phase] ∉ readingKeys ∧ pole phase rmsVoltage ∉ readingKeys :=
    List.forall_iff_forall_mem.1 (by decide)
  refine ⟨fun k => ?_, fun phase hp => ?_, ?_, fun phase hp => ?_⟩
  · rw [mem_readings_iff, mem_readingKeys]
  · rw [mem_readings_iff, mem_readings_iff]
    exact hvoltage phase hp
  · rw [lookup_readings_inlet, lookup_readings_power]
  · rw [lookup_readings_pole hp, lookup_readings_current hp]
    rfl

/-- Four errors of rounding add up. -/
theorem abs_balance_le {power a b c x e₀ e₁ e₂ e₃ : ℚ} (h₀ : |power - x| ≤ e₀) (h₁ : |a - x / 3| ≤ e₁)
    (h₂ : |b - x / 3| ≤ e₂) (h₃ : |c - x / 3| ≤ e₃) : |a + b + c - power| ≤ e₀ + e₁ + e₂ + e₃ := by
  rw [abs_le] at *
  constructor <;> linarith

/-- Readings that fit `i64` balance, and no reading is of anything else. -/
theorem power_balance (load : PduLoad ℚ) (nodeW : ℚ) (values : Values) :
    WritesOnlyReadings (readings load nodeW values) ∧
      ((∀ phase ∈ phases, ∀ v, values.lookup (sentry4 5 [phase]) = some v → 0 < v.toInt) →
        F64.RoundsToI64 (powerOf load nodeW) →
        (∀ phase ∈ phases, F64.RoundsToI64 (hundredthsA (powerOf load nodeW) (volts values phase))) →
        Balanced values (readings load nodeW values)) := by
  refine ⟨writesOnlyReadings load nodeW values, fun hvolts hpower hcurrents => ?_⟩
  refine ⟨_, fun phase => currentAt (powerOf load nodeW) (phaseVoltage values phase), lookup_readings_power,
    fun phase hp => lookup_readings_current hp, ?_⟩
  have hcurrent : ∀ phase ∈ phases, ((currentAt (powerOf load nodeW) (phaseVoltage values phase)).toInt : ℚ) =
      F64.roundHalfAway (hundredthsA (powerOf load nodeW) (volts values phase)) :=
    fun phase hp => congrArg Int.cast (hcurrents phase hp).toInt
  have hphase : ∀ phase ∈ phases, |((currentAt (powerOf load nodeW) (phaseVoltage values phase)).toInt : ℚ) *
      (1 / 100) * volts values phase - powerOf load nodeW / 3| ≤ 5 / 1000 * volts values phase := by
    intro phase hp
    rw [hcurrent phase hp]
    exact phase_balance _ (volts_pos hvolts hp)
  have hwatts : |(((F64.toI64 (F64.round (powerOf load nodeW))).toInt : ℤ) : ℚ) - powerOf load nodeW| ≤ 1 / 2 := by
    rw [hpower.toInt]
    exact F64.abs_roundHalfAway_sub_le _
  have hsum := abs_balance_le hwatts (hphase 1 (by simp [phases])) (hphase 2 (by simp [phases]))
    (hphase 3 (by simp [phases]))
  simp only [phases, List.map_cons, List.map_nil, List.sum_cons, List.sum_nil, add_zero]
  rw [← add_assoc, mul_add, mul_add, ← add_assoc, ← add_assoc]
  exact hsum

/-- A container's PDU at 10.5 kW a node, L1 driven to 230.0 V and L3 not reported. -/
def unevenValues : Values := ofList [(sentry4 5 [1], 2300), (sentry4 5 [2], 2395)]

theorem power_balance_uneven :
    Balanced unevenValues (readings (PduLoad.defaults : PduLoad ℚ) 10500 unevenValues) := by
  have hvolts : ∀ phase ∈ phases, ∀ v, unevenValues.lookup (sentry4 5 [phase]) = some v → 0 < v.toInt := by
    have h₁ : unevenValues.lookup (sentry4 5 [1]) = some 2300 := by decide +kernel
    have h₂ : unevenValues.lookup (sentry4 5 [2]) = some 2395 := by decide +kernel
    have h₃ : unevenValues.lookup (sentry4 5 [3]) = none := by decide +kernel
    intro phase hp v hv
    rcases mem_phases.1 hp with rfl | rfl | rfl
    · cases h₁.symm.trans hv
      decide
    · cases h₂.symm.trans hv
      decide
    · cases h₃.symm.trans hv
  have hfits : ∀ x ∈ [powerOf (PduLoad.defaults : PduLoad ℚ) 10500,
      hundredthsA (powerOf PduLoad.defaults 10500) (volts unevenValues 1),
      hundredthsA (powerOf PduLoad.defaults 10500) (volts unevenValues 2),
      hundredthsA (powerOf PduLoad.defaults 10500) (volts unevenValues 3)],
      -2 ^ 63 ≤ F64.roundHalfAway x ∧ F64.roundHalfAway x < 2 ^ 63 :=
    List.forall_iff_forall_mem.1 (by decide +kernel)
  refine (power_balance PduLoad.defaults 10500 unevenValues).2 hvolts (hfits _ (by simp)) fun phase hp => ?_
  rcases mem_phases.1 hp with rfl | rfl | rfl <;> exact hfits _ (by simp)

/-- At 10^20 W a node all four readings are `i64::MAX`, and the phases carry 7.2 times the input power. -/
theorem unbalanced_beyond_i64 : ∃ (load : PduLoad ℚ) (nodeW : ℚ) (values : Values), 0 < load.share ∧
    (∀ phase ∈ phases, ∀ v, values.lookup (sentry4 5 [phase]) = some v → 0 < v.toInt) ∧
    ¬ Balanced values (readings load nodeW values) := by
  have hvoltage : (initialValues ℚ).lookup (sentry4 5 [1]) = some 2400 ∧
      (initialValues ℚ).lookup (sentry4 5 [2]) = some 2395 ∧ (initialValues ℚ).lookup (sentry4 5 [3]) = some 2405 := by
    decide +kernel
  have hpower : F64.toI64 (F64.round (powerOf (PduLoad.defaults : PduLoad ℚ) (10 ^ 20))) = Int64.maxValue := by
    decide +kernel
  have hcurrent : ∀ phase ∈ phases, currentAt (powerOf (PduLoad.defaults : PduLoad ℚ) (10 ^ 20))
      (phaseVoltage (initialValues ℚ) phase) = Int64.maxValue := List.forall_iff_forall_mem.1 (by decide +kernel)
  refine ⟨PduLoad.defaults, 10 ^ 20, initialValues ℚ, by decide +kernel, fun phase hp v hv => ?_, fun h => ?_⟩
  · rcases mem_phases.1 hp with rfl | rfl | rfl
    · cases hvoltage.1.symm.trans hv
      decide
    · cases hvoltage.2.1.symm.trans hv
      decide
    · cases hvoltage.2.2.symm.trans hv
      decide
  · obtain ⟨power, current, hp, hc, hle⟩ := h
    rw [lookup_readings_power, hpower] at hp
    cases hp
    have hmax : ∀ phase ∈ phases, current phase = Int64.maxValue := by
      intro phase hphase
      have := hc phase hphase
      rw [lookup_readings_current hphase, hcurrent phase hphase] at this
      exact (Option.some.inj this).symm
    have hvolts : volts (initialValues ℚ) 1 = 240 ∧ volts (initialValues ℚ) 2 = 479 / 2 ∧
        volts (initialValues ℚ) 3 = 481 / 2 := by decide +kernel
    have hend : Int64.maxValue.toInt = 2 ^ 63 - 1 := rfl
    simp only [phases, List.map_cons, List.map_nil, List.sum_cons, List.sum_nil, hmax 1 (by simp [phases]),
      hmax 2 (by simp [phases]), hmax 3 (by simp [phases]), hvolts.1, hvolts.2.1, hvolts.2.2, hend] at hle
    rw [abs_le] at hle
    norm_num at hle

end EmsFixtures.Snmp
