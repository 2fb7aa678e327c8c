import EmsFixtures.Modbus.ConfiguredRack
import EmsFixtures.Modbus.Steps

/-!
# The registers at boot

`initial_registers` writes its map from a literal and two limits, `Battery::step` from its image.  Every entry of the
image of an idle battery is in the map it boots with, under the same rounding and word order, so an idle rack never
changes a register (`boot_registers_stable`).
-/

namespace EmsFixtures.Modbus

open HashMap Panics

/-- The entries of the map a rack boots with. -/
def bootEntries (socPercent ratedW : ℚ) : List (UInt16 × UInt16) :=
  let charge := (roundI32 (chargeLimit ratedW socPercent)).toUInt32
  let discharge := (roundI32 (dischargeLimit ratedW socPercent)).toUInt32
  [(soc, roundU16 (socPercent * 10)), (10, 0), (11, 0), (12, 0), (13, 0), (20, 4800), (22, 6000), (30, 0), (31, 0),
    (operatingState, standby), (setpoint, 0), (setpoint + 1, 0), (maxCharge, Words.high charge),
    (maxCharge + 1, Words.low charge), (maxDischarge, Words.high discharge), (maxDischarge + 1, Words.low discharge)]

theorem initialRegisters_rat (socPercent ratedW : ℚ) :
    initialRegisters socPercent ratedW = .ok (ofList (bootEntries socPercent ratedW)) := by
  unfold initialRegisters
  rw [maxChargeW_rat, maxDischargeW_rat]
  rfl

theorem lookup_boot {socPercent ratedW : ℚ} {a w : UInt16} (h : (a, w) ∈ bootEntries socPercent ratedW) :
    (ofList (bootEntries socPercent ratedW)).lookup a = some w := by
  refine (lookup_ofList_eq_some_iff ?_).2 h
  show [soc, 10, 11, 12, 13, 20, 22, 30, 31, operatingState, setpoint, setpoint + 1, maxCharge, maxCharge + 1,
    maxDischarge, maxDischarge + 1].Nodup
  decide

/-- A pair that boots with two zero words reads zero. -/
theorem readI32_boot_zero {socPercent ratedW : ℚ} {a : UInt16} (h : (a, 0) ∈ bootEntries socPercent ratedW)
    (h' : (a + 1, 0) ∈ bootEntries socPercent ratedW) : readI32 (ofList (bootEntries socPercent ratedW)) a = 0 := by
  rw [readI32, lookup_boot h, lookup_boot h']
  rfl

namespace Battery

variable {b : Battery ℚ} {driven : Finset UInt16} {dt : Duration}

theorem delivered_zero (hP : 0 ≤ b.config.powerLimitW) : b.delivered 0 = 0 := by
  have hc := chargeLimit_nonneg hP b.socPercent
  have hd := dischargeLimit_nonneg hP b.socPercent
  rw [delivered, min_eq_left hd, max_eq_right (by linarith)]

theorem advance_zero (h₀ : 0 ≤ b.socPercent) (h₁ : b.socPercent ≤ 100) : b.advance 0 dt = .ok b := by
  have htarget : b.target 0 dt = b.socPercent := by simp [target]
  rw [advance_rat, htarget, min_eq_left h₁, max_eq_right h₀, if_neg (lt_irrefl 0)]

/-- What an idle battery publishes it has booted with. -/
theorem mem_bootEntries_of_mem_image (hwh : b.energyDischargedWh = 0) {e : UInt16 × UInt16}
    (h : e ∈ b.image driven 0) : e ∈ bootEntries b.socPercent b.config.powerLimitW := by
  have hzero : Words.high (roundI32 (0 : ℚ)).toUInt32 = 0 ∧ Words.low (roundI32 (0 : ℚ)).toUInt32 = 0 := by
    decide +kernel
  have hstate : stateOf (0 : ℚ) = standby := by decide +kernel
  simp only [image, List.mem_append] at h
  rcases h with ((((h | h) | h) | h) | h) | h
  · rw [mem_wordEntry h]
    simp [bootEntries]
  · rcases mem_pairEntries h with rfl | rfl
    · simp [bootEntries, hzero, activePower]
    · simp [bootEntries, hzero, activePower]
  · rw [hwh] at h
    rcases mem_pairEntries h with rfl | rfl
    · simp [bootEntries, hzero, energyDischarged]
    · simp [bootEntries, hzero, energyDischarged]
  · rcases mem_pairEntries h with rfl | rfl
    · simp [bootEntries]
    · simp [bootEntries]
  · rcases mem_pairEntries h with rfl | rfl
    · simp [bootEntries]
    · simp [bootEntries]
  · rw [mem_wordEntry h, hstate]
    simp [bootEntries]

/-- An idle step on the boot map. -/
theorem step_boot (hP : 0 ≤ b.config.powerLimitW) (h₀ : 0 ≤ b.socPercent) (h₁ : b.socPercent ≤ 100)
    (hwh : b.energyDischargedWh = 0) (hsoc : soc ∉ driven) :
    b.step (ofList (bootEntries b.socPercent b.config.powerLimitW)) driven dt =
      .ok (b, ofList (bootEntries b.socPercent b.config.powerLimitW)) := by
  have hset : setpointOf (ofList (bootEntries b.socPercent b.config.powerLimitW)) = 0 := by
    rw [setpointOf, readI32_boot_zero (by simp [bootEntries]) (by simp [bootEntries])]
    rfl
  rw [step_rat_iff hsoc, hset, delivered_zero hP]
  refine ⟨limits_ordered hP, advance_zero h₀ h₁, ?_⟩
  rw [publish_image, insertAll_eq_self]
  intro e he
  exact lookup_boot (mem_bootEntries_of_mem_image hwh he)

end Battery

/-- A rack nobody commands leaves the registers it boots with as they are. -/
theorem boot_registers_stable (config : BatteryConfig ℚ) (soc₀ : ℚ) (h₀ : 0 ≤ soc₀) (h₁ : soc₀ ≤ 100)
    (hP : 0 ≤ config.powerLimitW) : ∃ holding, initialRegisters soc₀ config.powerLimitW = .ok holding ∧
      ∀ ticks : List (Finset UInt16 × Duration), (∀ tick ∈ ticks, soc ∉ tick.1) →
        (Battery.new config soc₀).run holding ticks = .ok (Battery.new config soc₀, holding) := by
  refine ⟨_, initialRegisters_rat _ _, fun ticks => ?_⟩
  induction ticks with
  | nil =>
    intro _
    rfl
  | cons tick ticks ih =>
    intro hsoc
    have hstep : (Battery.new config soc₀).step (ofList (bootEntries soc₀ config.powerLimitW)) tick.1 tick.2 =
        .ok (Battery.new config soc₀, ofList (bootEntries soc₀ config.powerLimitW)) :=
      Battery.step_boot hP h₀ h₁ rfl (hsoc tick List.mem_cons_self)
    rw [Battery.run_cons hstep]
    exact ih fun tick' htick => hsoc tick' (List.mem_cons_of_mem _ htick)

/-- A rack in the taper of its charge limit, with the low word of its power driven at the second step. -/
theorem boot_registers_stable_full : ∃ holding, initialRegisters (963 / 10 : ℚ) 1927000 = .ok holding ∧
    (Battery.rack 1 (963 / 10 : ℚ)).run holding [(∅, .fromSecs 1), ({activePower + 1}, .fromSecs 60)] =
      .ok (Battery.rack 1 (963 / 10 : ℚ), holding) := by
  obtain ⟨holding, hboot, hrun⟩ := boot_registers_stable { capacityKwh := 3854, powerLimitW := 1927000, timeScale := 1 }
    (963 / 10) (by norm_num) (by norm_num) (by norm_num)
  refine ⟨holding, hboot, hrun _ ?_⟩
  decide

end EmsFixtures.Modbus
