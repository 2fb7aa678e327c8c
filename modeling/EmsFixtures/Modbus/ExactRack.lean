import EmsFixtures.Lib.Taper
import EmsFixtures.Modbus.Server
import Mathlib.Algebra.Order.Group.MinMax
import Mathlib.Tactic.FieldSimp
import Mathlib.Tactic.Ring
import Mathlib.Tactic.NormNum

/-!
# The rack over exact rationals

`Battery::step` with `f64` read as exact rationals: closed forms of the limits, of the power delivered and of the move
of SoC and energy counter, and the registers a step leaves when none of them is driven.
-/

namespace EmsFixtures.Modbus

open HashMap Panics

/-! ### Closed forms -/

def dischargeLimit (ratedW socPercent : ℚ) : ℚ := ratedW * taper 20 socPercent
def chargeLimit (ratedW socPercent : ℚ) : ℚ := ratedW * taper 10 (100 - socPercent)

theorem maxDischargeW_rat (ratedW socPercent : ℚ) :
    maxDischargeW ratedW socPercent = .ok (dischargeLimit ratedW socPercent) := by
  show (F64.clamp (socPercent / 20) (0 : ℚ) 1 >>= fun taper => pure (ratedW * taper)) = _
  rw [F64.rat_clamp (by norm_num)]
  rfl

theorem maxChargeW_rat (ratedW socPercent : ℚ) :
    maxChargeW ratedW socPercent = .ok (chargeLimit ratedW socPercent) := by
  show (F64.clamp ((100 - socPercent) / (100 - 90)) (0 : ℚ) 1 >>= fun taper => pure (ratedW * taper)) = _
  rw [F64.rat_clamp (by norm_num), show (100 : ℚ) - 90 = 10 by norm_num]
  rfl

namespace Battery

variable (b : Battery ℚ)

def delivered (setpointW : ℚ) : ℚ :=
  max (-chargeLimit b.config.powerLimitW b.socPercent)
    (min setpointW (dischargeLimit b.config.powerLimitW b.socPercent))

/-- Where a tick at `power` would move the SoC if it were not bounded. -/
def target (power : ℚ) (dt : Duration) : ℚ :=
  b.socPercent - power * b.simHours dt / 1000 / b.config.capacityKwh * 100

variable {b} {b' : Battery ℚ}

theorem limits_rat : b.limits = .ok (chargeLimit b.config.powerLimitW b.socPercent,
    dischargeLimit b.config.powerLimitW b.socPercent) := by
  unfold limits
  rw [maxChargeW_rat, maxDischargeW_rat]
  rfl

theorem deliverable_rat_iff {setpointW power : ℚ} : b.deliverable setpointW = .ok power ↔
    -chargeLimit b.config.powerLimitW b.socPercent ≤ dischargeLimit b.config.powerLimitW b.socPercent ∧
      power = b.delivered setpointW := by
  unfold deliverable
  rw [limits_rat]
  exact F64.rat_clamp_eq_ok_iff

theorem advance_rat (power : ℚ) (dt : Duration) :
    b.advance power dt = .ok { b with
      socPercent := max 0 (min (b.target power dt) 100)
      energyDischargedWh :=
        if 0 < power then b.energyDischargedWh + power * b.simHours dt else b.energyDischargedWh } := by
  show (F64.clamp (b.target power dt) (0 : ℚ) 100 >>= fun s => pure { b with
      socPercent := s
      energyDischargedWh :=
        if decide (0 < power) = true then b.energyDischargedWh + power * b.simHours dt
        else b.energyDischargedWh }) = _
  rw [F64.rat_clamp (by norm_num)]
  simp only [decide_eq_true_eq]
  rfl

theorem advance_socPercent {power : ℚ} {dt : Duration} (h : b.advance power dt = .ok b') :
    b'.socPercent = max 0 (min (b.target power dt) 100) := by
  rw [advance_rat] at h
  cases h
  rfl

theorem simHours_nonneg (hT : 0 ≤ b.config.timeScale) (dt : Duration) : 0 ≤ b.simHours dt := by
  show 0 ≤ (dt.nanos : ℚ) / 1000000000 * b.config.timeScale / 3600
  positivity

/-- Percent of SoC a watt moves in a tick. -/
def percentPerWatt (b : Battery ℚ) (dt : Duration) : ℚ := b.simHours dt / 1000 / b.config.capacityKwh * 100

theorem target_eq (power : ℚ) (dt : Duration) : b.target power dt = b.socPercent - b.percentPerWatt dt * power := by
  unfold target percentPerWatt
  ring

theorem publish_rat (holding : Registers) (driven : Finset UInt16) (power : ℚ) :
    b.publish holding driven power =
      .ok (put (putI32 (putI32 (putI32 (putI32 (put holding driven soc (roundU16 (b.socPercent * 10)))
        driven activePower (roundI32 power)) driven energyDischarged (roundI32 b.energyDischargedWh))
        driven maxCharge (roundI32 (chargeLimit b.config.powerLimitW b.socPercent)))
        driven maxDischarge (roundI32 (dischargeLimit b.config.powerLimitW b.socPercent)))
        driven operatingState (stateOf power)) :=
  publish_eq_ok_iff.2 ⟨_, _, limits_rat, rfl⟩

def setpointOf (holding : Registers) : ℚ := ((readI32 holding setpoint).toInt : ℚ)

theorem step_rat_iff {holding holding' : Registers} {driven : Finset UInt16} {dt : Duration} (hsoc : soc ∉ driven) :
    b.step holding driven dt = .ok (b', holding') ↔
      -chargeLimit b.config.powerLimitW b.socPercent ≤ dischargeLimit b.config.powerLimitW b.socPercent ∧
      b.advance (b.delivered (setpointOf holding)) dt = .ok b' ∧
      b'.publish holding driven (b.delivered (setpointOf holding)) = .ok holding' := by
  rw [step_eq_ok_iff, takeDrivenSoc_of_notMem hsoc]
  constructor
  · intro h
    obtain ⟨b₁, power, ⟨⟩, hp, ha, hpub⟩ := h
    obtain ⟨hle, rfl⟩ := deliverable_rat_iff.1 hp
    exact ⟨hle, ha, hpub⟩
  · intro h
    obtain ⟨hle, ha, hpub⟩ := h
    exact ⟨b, _, rfl, deliverable_rat_iff.2 ⟨hle, rfl⟩, ha, hpub⟩

end Battery

/-! ### The limits -/

theorem dischargeLimit_nonneg {ratedW : ℚ} (h : 0 ≤ ratedW) (s : ℚ) : 0 ≤ dischargeLimit ratedW s :=
  mul_nonneg h (taper_nonneg _ _)

theorem chargeLimit_nonneg {ratedW : ℚ} (h : 0 ≤ ratedW) (s : ℚ) : 0 ≤ chargeLimit ratedW s :=
  mul_nonneg h (taper_nonneg _ _)

theorem dischargeLimit_le {ratedW : ℚ} (h : 0 ≤ ratedW) (s : ℚ) : dischargeLimit ratedW s ≤ ratedW :=
  mul_le_of_le_one_right h (taper_le_one _ _)

theorem chargeLimit_le {ratedW : ℚ} (h : 0 ≤ ratedW) (s : ℚ) : chargeLimit ratedW s ≤ ratedW :=
  mul_le_of_le_one_right h (taper_le_one _ _)

/-- A rack whose limits are in order has a non-negative rating: at every SoC one of the two is not tapered to 0. -/
theorem rated_nonneg {ratedW s : ℚ} (h : -chargeLimit ratedW s ≤ dischargeLimit ratedW s) : 0 ≤ ratedW := by
  have hpos : 0 < taper 10 (100 - s) + taper 20 s := by
    rcases lt_or_ge 0 s with hs | hs
    · exact add_pos_of_nonneg_of_pos (taper_nonneg _ _) (taper_pos (by norm_num) hs)
    · exact add_pos_of_pos_of_nonneg (taper_pos (by norm_num) (by linarith)) (taper_nonneg _ _)
  have hsum : 0 ≤ ratedW * (taper 10 (100 - s) + taper 20 s) := by
    unfold chargeLimit dischargeLimit at h
    linarith
  exact nonneg_of_mul_nonneg_left hsum hpos

/-! ### A rack under command -/

namespace Battery

variable {b b' : Battery ℚ}

theorem delivered_of_nonneg (hP : 0 ≤ b.config.powerLimitW) {setpointW : ℚ} (h : 0 ≤ setpointW) :
    b.delivered setpointW = min setpointW (dischargeLimit b.config.powerLimitW b.socPercent) :=
  max_eq_right ((neg_nonpos.2 (chargeLimit_nonneg hP _)).trans (le_min h (dischargeLimit_nonneg hP _)))

theorem delivered_of_nonpos (hP : 0 ≤ b.config.powerLimitW) {setpointW : ℚ} (h : setpointW ≤ 0) :
    b.delivered setpointW = -min (-setpointW) (chargeLimit b.config.powerLimitW b.socPercent) := by
  unfold delivered
  rw [min_eq_left (h.trans (dischargeLimit_nonneg hP _)), ← max_neg_neg, neg_neg, max_comm]

/-- A rack as the server configures one, with its SoC in range. -/
structure Valid (b : Battery ℚ) : Prop where
  capacity : 0 < b.config.capacityKwh
  power : 0 ≤ b.config.powerLimitW
  timeScale : 0 < b.config.timeScale
  soc_nonneg : 0 ≤ b.socPercent
  soc_le : b.socPercent ≤ 100

theorem Valid.limits_ordered (hv : b.Valid) :
    -chargeLimit b.config.powerLimitW b.socPercent ≤ dischargeLimit b.config.powerLimitW b.socPercent :=
  (neg_nonpos.2 (chargeLimit_nonneg hv.power _)).trans (dischargeLimit_nonneg hv.power _)

theorem Valid.percentPerWatt_nonneg (hv : b.Valid) (dt : Duration) : 0 ≤ b.percentPerWatt dt := by
  have hhours := simHours_nonneg hv.timeScale.le dt
  have hC := hv.capacity
  unfold percentPerWatt
  positivity

theorem Valid.advance {power : ℚ} {dt : Duration} (hv : b.Valid) (h : b.advance power dt = .ok b') : b'.Valid := by
  rw [advance_rat] at h
  cases h
  exact ⟨hv.capacity, hv.power, hv.timeScale, le_max_left _ _, max_le (by norm_num) (min_le_right _ _)⟩

theorem Valid.step_returns (hv : b.Valid) (holding : Registers) {driven : Finset UInt16} (hsoc : soc ∉ driven)
    (dt : Duration) : ∃ b' holding', b.step holding driven dt = .ok (b', holding') :=
  ⟨_, _, (step_rat_iff hsoc).2 ⟨hv.limits_ordered, advance_rat _ dt, publish_rat _ _ _⟩⟩

theorem rack_valid {timeScale socPercent : ℚ} (ht : 0 < timeScale) (h₀ : 0 ≤ socPercent) (h₁ : socPercent ≤ 100) :
    (rack timeScale socPercent).Valid :=
  ⟨show (0 : ℚ) < 3854 by norm_num, show (0 : ℚ) ≤ 1927000 by norm_num, ht, h₀, h₁⟩

end Battery

/-- The server of a rack with the setpoint words `high`, `low`. -/
def rackServer (timeScale socPercent : ℚ) (high low : UInt16) : Server ℚ :=
  Server.start (HashMap.ofList [(soc, 0), (setpoint, high), (setpoint + 1, low)]) ∅ true
    (Battery.rack timeScale socPercent)

theorem rackServer_steps (timeScale socPercent : ℚ) (ht : 0 < timeScale) (h₀ : 0 ≤ socPercent)
    (h₁ : socPercent ≤ 100) (high low : UInt16) (dt : Duration) :
    ∃ s, (rackServer timeScale socPercent high low).Step (.step dt) s := by
  obtain ⟨b', holding', h⟩ := (Battery.rack_valid ht h₀ h₁).step_returns
    (rackServer timeScale socPercent high low).meter.holding (Finset.notMem_empty soc) dt
  exact ⟨⟨{ (rackServer timeScale socPercent high low).meter with holding := holding' }, b'⟩,
    Server.step_step_iff.2 ⟨h, rfl⟩⟩

end EmsFixtures.Modbus
