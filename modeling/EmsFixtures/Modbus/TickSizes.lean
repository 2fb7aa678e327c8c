import EmsFixtures.Modbus.ConfiguredRack
import EmsFixtures.Modbus.Steps
import Mathlib.Algebra.Order.BigOperators.Group.List

/-!
# Tick size and time scale

Where no limit cuts the setpoint and no bound holds the SoC, a step moves the rack along a straight line: what `secs`
of wall time do is `Battery.after`, and two such moves add up.  On an interval of SoC where the limits are at the
rating a run that starts and ends inside never leaves it, so it does what one step over the whole time would do; two
runs over the same simulated time end in the same state, however they cut it into ticks.
-/

namespace EmsFixtures.Modbus

open HashMap Panics

/-- The wall time of some ticks, in seconds. -/
def seconds (ticks : List Duration) : ℚ := (ticks.map Duration.asSecsF64).sum

theorem asSecsF64_nonneg (dt : Duration) : (0 : ℚ) ≤ dt.asSecsF64 := by
  show (0 : ℚ) ≤ (dt.nanos : ℚ) / 1000000000
  positivity

theorem seconds_nonneg (ticks : List Duration) : 0 ≤ seconds ticks := by
  apply List.sum_nonneg
  intro x hx
  obtain ⟨dt, -, rfl⟩ := List.mem_map.1 hx
  exact asSecsF64_nonneg dt

@[simp] theorem seconds_cons (dt : Duration) (ticks : List Duration) :
    seconds (dt :: ticks) = dt.asSecsF64 + seconds ticks := by
  simp [seconds]

namespace Battery

/-- Where `secs` of wall time at `power` take the battery if nothing bounds it. -/
def after (b : Battery ℚ) (power secs : ℚ) : Battery ℚ :=
  let simHours := secs * b.config.timeScale / 3600
  { b with
    socPercent := b.socPercent - power * simHours / 1000 / b.config.capacityKwh * 100
    energyDischargedWh := if 0 < power then b.energyDischargedWh + power * simHours else b.energyDischargedWh }

variable {b : Battery ℚ} {holding : Registers} {driven : Finset UInt16}

theorem after_after (power x y : ℚ) : (b.after power x).after power y = b.after power (x + y) := by
  have hhours : (x + y) * b.config.timeScale / 3600 =
      x * b.config.timeScale / 3600 + y * b.config.timeScale / 3600 := by ring
  have hsoc : b.socPercent - power * (x * b.config.timeScale / 3600) / 1000 / b.config.capacityKwh * 100 -
      power * (y * b.config.timeScale / 3600) / 1000 / b.config.capacityKwh * 100 =
      b.socPercent - power * ((x + y) * b.config.timeScale / 3600) / 1000 / b.config.capacityKwh * 100 := by
    rw [hhours]
    ring
  unfold after
  simp only [hsoc, hhours]
  split <;> simp only [Battery.mk.injEq, true_and]
  ring

/-- Moving for some time and then on ends no nearer than the first move: it lies between the start and the end. -/
theorem after_between (power : ℚ) {x y lo hi : ℚ} (hx : 0 ≤ x) (hy : 0 ≤ y) (hstart : b.socPercent ∈ Set.Icc lo hi)
    (hend : (b.after power (x + y)).socPercent ∈ Set.Icc lo hi) : (b.after power x).socPercent ∈ Set.Icc lo hi := by
  obtain ⟨hs₀, hs₁⟩ := hstart
  obtain ⟨he₀, he₁⟩ := hend
  have hmove : ∀ t, (b.after power t).socPercent =
      b.socPercent - t * (power * b.config.timeScale / 3600 / 1000 / b.config.capacityKwh * 100) := by
    intro t
    show b.socPercent - power * (t * b.config.timeScale / 3600) / 1000 / b.config.capacityKwh * 100 = _
    ring
  rw [hmove] at he₀ he₁ ⊢
  rw [Set.mem_Icc]
  -- the slope has one sign over the whole time
  rcases le_total 0 (power * b.config.timeScale / 3600 / 1000 / b.config.capacityKwh * 100) with hk | hk
  · have hkx := mul_nonneg hx hk
    have hky := mul_nonneg hy hk
    constructor <;> linarith
  · have hkx := mul_nonpos_of_nonneg_of_nonpos hx hk
    have hky := mul_nonpos_of_nonneg_of_nonpos hy hk
    constructor <;> linarith

/-- A step that neither limit nor bound touches. -/
theorem step_after {power : ℚ} {dt : Duration} (hP : 0 ≤ b.config.powerLimitW) (hsoc : soc ∉ driven)
    (hpower : b.delivered (setpointOf holding) = power) (h : (b.after power dt.asSecsF64).socPercent ∈ Set.Icc 0 100) :
    b.step holding driven dt = .ok (b.after power dt.asSecsF64,
      holding.insertAll ((b.after power dt.asSecsF64).image driven power)) := by
  have hadvance : b.advance power dt = .ok (b.after power dt.asSecsF64) := by
    rw [advance_rat]
    have hsoc : max 0 (min (b.target power dt) 100) = (b.after power dt.asSecsF64).socPercent := by
      have htarget : b.target power dt = (b.after power dt.asSecsF64).socPercent := rfl
      rw [htarget, min_eq_left h.2, max_eq_right h.1]
    rw [hsoc]
    rfl
  rw [step_rat_iff hsoc, hpower]
  exact ⟨limits_ordered hP, hadvance, publish_image _ _ _⟩

/-- Where the limits leave the setpoint alone on an interval of SoC, a run that starts and ends in it is one move. -/
theorem run_after {config : BatteryConfig ℚ} {lo hi power : ℚ} (hrange : Set.Icc lo hi ⊆ Set.Icc 0 100)
    (hP : 0 ≤ config.powerLimitW) (hsoc : soc ∉ driven)
    (huncut : ∀ b : Battery ℚ, b.config = config → b.socPercent ∈ Set.Icc lo hi → b.delivered power = power)
    (dt : Duration) (ticks : List Duration) {b : Battery ℚ} {holding : Registers} (hconfig : b.config = config)
    (hset : setpointOf holding = power) (hstart : b.socPercent ∈ Set.Icc lo hi)
    (hend : (b.after power (seconds (dt :: ticks))).socPercent ∈ Set.Icc lo hi) :
    b.run holding ((dt :: ticks).map fun dt => (driven, dt)) = .ok (b.after power (seconds (dt :: ticks)),
      holding.insertAll ((b.after power (seconds (dt :: ticks))).image driven power)) := by
  induction ticks generalizing b holding dt with
  | nil =>
    have hsecs : seconds [dt] = dt.asSecsF64 := by simp [seconds]
    rw [hsecs] at hend ⊢
    have hpower : b.delivered (setpointOf holding) = power := by rw [hset]; exact huncut b hconfig hstart
    have hstep := step_after (by rw [hconfig]; exact hP) hsoc hpower (hrange hend)
    exact run_cons hstep []
  | cons dt' ticks ih =>
    rw [seconds_cons] at hend ⊢
    have hmid := after_between power (asSecsF64_nonneg dt) (seconds_nonneg (dt' :: ticks)) hstart hend
    have hpower : b.delivered (setpointOf holding) = power := by rw [hset]; exact huncut b hconfig hstart
    have hstep := step_after (by rw [hconfig]; exact hP) hsoc hpower (hrange hmid)
    have hset' : setpointOf (holding.insertAll ((b.after power dt.asSecsF64).image driven power)) = power := by
      rw [setpointOf_insertAll_image]
      exact hset
    rw [← after_after] at hend ⊢
    have hrest := ih dt' (b := b.after power dt.asSecsF64) hconfig hset' hmid hend
    rw [List.map_cons, run_cons hstep, hrest, insertAll_image]

/-! ### The untapered ranges -/

theorem delivered_of_discharging {power : ℚ} (hp : 0 ≤ power) (hrated : power ≤ b.config.powerLimitW)
    (hsoc : b.socPercent ∈ Set.Icc 20 100) : b.delivered power = power := by
  have hP : 0 ≤ b.config.powerLimitW := hp.trans hrated
  have hlimit : dischargeLimit b.config.powerLimitW b.socPercent = b.config.powerLimitW := by
    rw [dischargeLimit, taper_of_ge (by norm_num) hsoc.1, mul_one]
  have hcharge := chargeLimit_nonneg hP b.socPercent
  rw [delivered, hlimit, min_eq_left hrated, max_eq_right (by linarith)]

theorem delivered_of_charging {power : ℚ} (hp : power ≤ 0) (hrated : -power ≤ b.config.powerLimitW)
    (hsoc : b.socPercent ∈ Set.Icc 0 90) : b.delivered power = power := by
  have hP : 0 ≤ b.config.powerLimitW := by linarith
  have hlimit : chargeLimit b.config.powerLimitW b.socPercent = b.config.powerLimitW := by
    rw [chargeLimit, taper_of_ge (by norm_num) (by linarith [hsoc.2]), mul_one]
  have hdischarge := dischargeLimit_nonneg hP b.socPercent
  rw [delivered, hlimit, min_eq_left (by linarith), max_eq_right (by linarith)]

end Battery

/-! ### Two runs over the same simulated time -/

/-- A battery in mid-life, under a time scale of its own. -/
def Battery.scaled (config : BatteryConfig ℚ) (timeScale socPercent energyDischargedWh : ℚ) : Battery ℚ :=
  { config := { config with timeScale }, socPercent, energyDischargedWh }

/-- On its way between two SoC the battery meets no taper on the side of the setpoint. -/
def Untapered (power soc₀ soc₁ : ℚ) : Prop :=
  (0 ≤ power ∧ soc₀ ∈ Set.Icc 20 100 ∧ soc₁ ∈ Set.Icc 20 100) ∨
    (power ≤ 0 ∧ soc₀ ∈ Set.Icc 0 90 ∧ soc₁ ∈ Set.Icc 0 90)

/-- The SoC after `T` simulated seconds at `power`. -/
def socAfter (config : BatteryConfig ℚ) (soc₀ power T : ℚ) : ℚ :=
  soc₀ - 100 * power * T / (3600 * 1000 * config.capacityKwh)

/-- The counter after `T` simulated seconds at `power`. -/
def whAfter (wh power T : ℚ) : ℚ := if 0 < power then wh + power * (T / 3600) else wh

namespace Battery

theorem after_scaled (config : BatteryConfig ℚ) {timeScale secs T : ℚ} (hT : timeScale * secs = T)
    (power soc₀ wh : ℚ) : (scaled config timeScale soc₀ wh).after power secs =
      scaled config timeScale (socAfter config soc₀ power T) (whAfter wh power T) := by
  have hhours : secs * timeScale / 3600 = T / 3600 := by rw [← hT, mul_comm]
  have hsoc : soc₀ - power * (T / 3600) / 1000 / config.capacityKwh * 100 = socAfter config soc₀ power T := by
    unfold socAfter
    rcases eq_or_ne config.capacityKwh 0 with hC | hC
    · rw [hC]
      simp
    · field_simp
  unfold after scaled whAfter
  simp only [hhours, hsoc]

/-- A run of at least one tick over an untapered range: where it ends depends on the simulated time only. -/
theorem run_scaled (config : BatteryConfig ℚ) (wh : ℚ) {timeScale soc₀ T : ℚ} {holding : Registers}
    {driven : Finset UInt16} (hdriven : soc ∉ driven) {ticks : List Duration} (hne : ticks ≠ [])
    (hT : timeScale * seconds ticks = T) (hrated : |setpointOf holding| ≤ config.powerLimitW)
    (hrange : Untapered (setpointOf holding) soc₀ (socAfter config soc₀ (setpointOf holding) T)) :
    (scaled config timeScale soc₀ wh).run holding (ticks.map fun dt => (driven, dt)) =
      .ok (scaled config timeScale (socAfter config soc₀ (setpointOf holding) T) (whAfter wh (setpointOf holding) T),
        holding.insertAll ((scaled config timeScale (socAfter config soc₀ (setpointOf holding) T)
          (whAfter wh (setpointOf holding) T)).image driven (setpointOf holding))) := by
  obtain ⟨dt, rest, rfl⟩ := List.exists_cons_of_ne_nil hne
  obtain ⟨hlow, hhigh⟩ := abs_le.1 hrated
  have hP : 0 ≤ ({ config with timeScale } : BatteryConfig ℚ).powerLimitW := (abs_nonneg _).trans hrated
  have hend := after_scaled config hT (setpointOf holding) soc₀ wh
  rw [← hend]
  rcases hrange with ⟨hp, hstart, hstop⟩ | ⟨hp, hstart, hstop⟩
  · have huncut : ∀ b : Battery ℚ, b.config = { config with timeScale } → b.socPercent ∈ Set.Icc 20 100 →
        b.delivered (setpointOf holding) = setpointOf holding := by
      intro b hb hsoc
      apply delivered_of_discharging hp _ hsoc
      rw [hb]
      exact hhigh
    apply run_after (Set.Icc_subset_Icc (by norm_num) le_rfl) hP hdriven huncut dt rest rfl rfl hstart
    rw [hend]
    exact hstop
  · have huncut : ∀ b : Battery ℚ, b.config = { config with timeScale } → b.socPercent ∈ Set.Icc 0 90 →
        b.delivered (setpointOf holding) = setpointOf holding := by
      intro b hb hsoc
      apply delivered_of_charging hp _ hsoc
      rw [hb]
      exact neg_le.1 hlow
    apply run_after (Set.Icc_subset_Icc le_rfl (by norm_num)) hP hdriven huncut dt rest rfl rfl hstart
    rw [hend]
    exact hstop

end Battery

/-- Two runs from one SoC, counter and register map, under time scales `a` and `b`, over the same simulated time. -/
theorem tick_size_independent (config : BatteryConfig ℚ) (soc₀ wh : ℚ) (holding : Registers)
    (driven : Finset UInt16) (hdriven : soc ∉ driven) (a b T : ℚ) (ticks ticks' : List Duration) (hne : ticks ≠ [])
    (hne' : ticks' ≠ []) (hT : a * seconds ticks = T) (hT' : b * seconds ticks' = T)
    (hrated : |Battery.setpointOf holding| ≤ config.powerLimitW)
    (hrange : Untapered (Battery.setpointOf holding) soc₀
      (soc₀ - 100 * Battery.setpointOf holding * T / (3600 * 1000 * config.capacityKwh))) :
    ∃ x y : Battery ℚ, ∃ holding₁ : Registers,
      (Battery.scaled config a soc₀ wh).run holding (ticks.map fun dt => (driven, dt)) = .ok (x, holding₁) ∧
      (Battery.scaled config b soc₀ wh).run holding (ticks'.map fun dt => (driven, dt)) = .ok (y, holding₁) ∧
      x.socPercent = soc₀ - 100 * Battery.setpointOf holding * T / (3600 * 1000 * config.capacityKwh) ∧
      y.socPercent = x.socPercent ∧ y.energyDischargedWh = x.energyDischargedWh := by
  have hx := Battery.run_scaled config wh hdriven hne hT hrated hrange
  have hy := Battery.run_scaled config wh hdriven hne' hT' hrated hrange
  exact ⟨_, _, _, hx, hy, rfl, rfl, rfl⟩

/-- The rack of the tests, commanded to 400 kW. -/
def testConfig : BatteryConfig ℚ := { capacityKwh := 4000, powerLimitW := 4000000, timeScale := 1 }

/-- An hour at 400 kW in 3600 ticks of a second, and in one tick of a minute at sixty times the pace. -/
theorem tick_size_independent_hour : ∃ x y : Battery ℚ, ∃ holding₁ : Registers,
    (Battery.scaled testConfig 1 50 0).run (ofList [(setpoint, 6), (setpoint + 1, 6784)])
      ((List.replicate 3600 (.fromSecs 1)).map fun dt => (∅, dt)) = .ok (x, holding₁) ∧
    (Battery.scaled testConfig 60 50 0).run (ofList [(setpoint, 6), (setpoint + 1, 6784)])
      ([.fromSecs 60].map fun dt => (∅, dt)) = .ok (y, holding₁) ∧ x.socPercent = 40 ∧ y.socPercent = 40 := by
  have hset : Battery.setpointOf (ofList [(setpoint, 6), (setpoint + 1, 6784)]) = 400000 :=
    congrArg Int.cast (show (readI32 _ setpoint).toInt = 400000 by decide +kernel)
  have hsecond : ((Duration.fromSecs 1).asSecsF64 : ℚ) = 1 := by
    show ((1 * 1000000000 : ℕ) : ℚ) / 1000000000 = 1
    norm_num
  have hreplicate : ∀ n : ℕ, seconds (List.replicate n (.fromSecs 1)) = n := by
    intro n
    simp [seconds, hsecond]
  have hminute : ((Duration.fromSecs 60).asSecsF64 : ℚ) = 60 := by
    show ((60 * 1000000000 : ℕ) : ℚ) / 1000000000 = 60
    norm_num
  obtain ⟨x, y, holding₁, hx, hy, hsoc, hsame, -⟩ := tick_size_independent testConfig 50 0
    (ofList [(setpoint, 6), (setpoint + 1, 6784)]) ∅ (Finset.notMem_empty soc) 1 60 3600
    (List.replicate 3600 (.fromSecs 1)) [.fromSecs 60] (List.cons_ne_nil _ _) (List.cons_ne_nil _ _)
    (by rw [hreplicate]; norm_num) (by simp [seconds, hminute]; norm_num)
    (by rw [hset, abs_of_nonneg (by norm_num)]; show (400000 : ℚ) ≤ 4000000; norm_num)
    (by
      rw [hset]
      refine Or.inl ⟨by norm_num, by norm_num, ?_⟩
      show (50 : ℚ) - 100 * 400000 * 3600 / (3600 * 1000 * 4000) ∈ Set.Icc 20 100
      norm_num)
  have hforty : x.socPercent = 40 := by
    rw [hsoc, hset]
    show (50 : ℚ) - 100 * 400000 * 3600 / (3600 * 1000 * 4000) = 40
    norm_num
  exact ⟨x, y, holding₁, hx, hy, hforty, hsame.trans hforty⟩

end EmsFixtures.Modbus
