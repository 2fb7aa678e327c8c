import EmsFixtures.Lib.Runs
import EmsFixtures.Modbus.BootImage
import EmsFixtures.Modbus.DrivenRegisters

/-!
# The lifetime energy register

The counter of a battery never falls, and its register is the counter rounded and saturated, or, once one of its words
is driven, what it was before.  So the register lies at or below the rounded counter in every state (`Metered`), which
is what lets it start again after a pause without going backwards.
-/

namespace EmsFixtures.Modbus

open HashMap Panics Runs

def energyRegister (holding : Registers) : ℤ := (readI32 holding energyDischarged).toInt

/-- Nobody has written the energy register since the last step. -/
def EnergyUntouched (r : Rack ℚ) (c : Call) : Prop :=
  c.holding.lookup energyDischarged = r.holding.lookup energyDischarged ∧
    c.holding.lookup (energyDischarged + 1) = r.holding.lookup (energyDischarged + 1)

/-- The register is not negative, and at or below the counter as it would be published. -/
structure Metered (r : Rack ℚ) : Prop where
  timeScale : 0 ≤ r.battery.config.timeScale
  nonneg : 0 ≤ energyRegister r.holding
  le_counter : energyRegister r.holding ≤ (roundI32 r.battery.energyDischargedWh).toInt

theorem toInt_roundI32_mono {x y : ℚ} (h : x ≤ y) : (roundI32 x).toInt ≤ (roundI32 y).toInt := by
  have := F64.roundHalfAway_mono h
  rw [roundI32, roundI32, F64.toInt_toI32_round, F64.toInt_toI32_round]
  omega

namespace Battery

variable {b b' : Battery ℚ} {holding holding' : Registers} {driven : Finset UInt16} {dt : Duration}

theorem takeDrivenSoc_energy (h : b.takeDrivenSoc holding driven = .ok b') :
    b'.energyDischargedWh = b.energyDischargedWh := by
  obtain ⟨s, rfl⟩ := takeDrivenSoc_eq h
  rfl

/-- Charging takes nothing off the counter. -/
theorem step_energy_mono (hscale : 0 ≤ b.config.timeScale) (h : b.step holding driven dt = .ok (b', holding')) :
    b.energyDischargedWh ≤ b'.energyDischargedWh := by
  obtain ⟨start, power, hstart, -, ha, -⟩ := step_eq_ok_iff.1 h
  have hhours : 0 ≤ start.simHours dt := simHours_nonneg (by rw [takeDrivenSoc_config hstart]; exact hscale) dt
  rw [← takeDrivenSoc_energy hstart]
  rw [advance_rat] at ha
  cases ha
  show start.energyDischargedWh ≤ if 0 < power then _ else _
  split
  · rename_i hp
    have := mul_nonneg hp.le hhours
    linarith
  · exact le_rfl

theorem energyRegister_publish {power : ℚ} (hd : energyDischarged ∉ driven) (hd' : energyDischarged + 1 ∉ driven)
    (h : b.publish holding driven power = .ok holding') :
    energyRegister holding' = (roundI32 b.energyDischargedWh).toInt := by
  have himage : pairEntries driven energyDischarged (roundI32 b.energyDischargedWh) ⊆ b.image driven power :=
    fun e he => by simp [image, he]
  have hwords := lookup_publish_pair h himage hd hd'
  rw [energyRegister, readI32_of_words hwords.1 hwords.2]

end Battery

/-- A step publishes a counter at or above the register it found, or leaves the register alone. -/
theorem Metered.step {r r' : Rack ℚ} {c : Call} (h : Metered r) (hc : EnergyUntouched r c) (hstep : r.Step c r') :
    Metered r' ∧ energyRegister r.holding ≤ energyRegister r'.holding := by
  have hcounter := toInt_roundI32_mono (Battery.step_energy_mono h.timeScale hstep)
  have hscale : 0 ≤ r'.battery.config.timeScale := by
    rw [Battery.step_config hstep]
    exact h.timeScale
  have hbefore := h.le_counter
  have hnonneg := h.nonneg
  by_cases hd : energyDischarged ∈ c.driven ∨ energyDischarged + 1 ∈ c.driven
  · have hpair := Battery.step_keepsPair hstep (by decide) hd
    have hread : readI32 r'.holding energyDischarged = readI32 r.holding energyDischarged :=
      readI32_congr (hpair.1.trans hc.1) (hpair.2.trans hc.2)
    have hregister : energyRegister r'.holding = energyRegister r.holding := congrArg Int32.toInt hread
    exact ⟨⟨hscale, by omega, by omega⟩, by omega⟩
  · obtain ⟨_, power, -, -, -, hpub⟩ := Battery.step_eq_ok_iff.1 hstep
    rw [not_or] at hd
    have hregister := Battery.energyRegister_publish hd.1 hd.2 hpub
    exact ⟨⟨hscale, by omega, by omega⟩, by omega⟩

theorem energyRegister_boot (soc₀ ratedW : ℚ) : energyRegister (ofList (bootEntries soc₀ ratedW)) = 0 := by
  rw [energyRegister, readI32_boot_zero (by simp [bootEntries, energyDischarged])
    (by simp [bootEntries, energyDischarged])]
  rfl

/-- From boot on the register is not negative and no step lowers it, whatever the setpoints, the ticks and the driven
sets, as long as nobody else writes it.  `from_env` refuses a time scale below zero. -/
theorem energy_register_monotone (config : BatteryConfig ℚ) (hscale : 0 ≤ config.timeScale) (soc₀ : ℚ)
    (holding : Registers) (hboot : initialRegisters soc₀ config.powerLimitW = .ok holding) (calls : List Call)
    (hquiet : Along Rack.Step (fun r c _ => EnergyUntouched r c) ⟨Battery.new config soc₀, holding⟩ calls) :
    Along Rack.Step (fun r _ r' => 0 ≤ energyRegister r.holding ∧ 0 ≤ energyRegister r'.holding ∧
      energyRegister r.holding ≤ energyRegister r'.holding) ⟨Battery.new config soc₀, holding⟩ calls := by
  have hboot₀ : energyRegister holding = 0 := by
    rw [initialRegisters_rat] at hboot
    cases hboot
    exact energyRegister_boot _ _
  have hmetered : Metered ⟨Battery.new config soc₀, holding⟩ := by
    refine ⟨hscale, hboot₀.ge, hboot₀.le.trans ?_⟩
    show 0 ≤ (roundI32 (0 : ℚ)).toInt
    decide +kernel
  refine Along.imp (fun r c r' h hc hstep => (h.step hc hstep).1) (fun r c r' h hstep hc => ?_) hmetered hquiet
  obtain ⟨h', hle⟩ := h.step hc hstep
  exact ⟨h.nonneg, h'.nonneg, hle⟩

/-- An hour at 400 kW on the boot map of a rack at 60 %, its power driven. -/
def commandedHour : Call :=
  { holding := (ofList (bootEntries 60 1927000)).insertAll [(setpoint, 6), (setpoint + 1, 6784)]
    driven := {activePower}, dt := .fromSecs 3600 }

private theorem commandedHour_untouched {timeScale : ℚ} :
    EnergyUntouched ⟨Battery.rack timeScale 60, ofList (bootEntries (60 : ℚ) 1927000)⟩ commandedHour := by
  have hnone : ∀ a ∈ [energyDischarged, energyDischarged + 1],
      commandedHour.holding.lookup a = (ofList (bootEntries (60 : ℚ) 1927000)).lookup a := by
    intro a ha
    have hlast : ∀ a ∈ [energyDischarged, energyDischarged + 1],
        lastIn [(setpoint, (6 : UInt16)), (setpoint + 1, 6784)] a = none :=
      List.forall_iff_forall_mem.1 (by decide)
    rw [commandedHour, lookup_insertAll, hlast a ha, Option.none_or]
  exact ⟨hnone _ (by simp), hnone _ (by simp)⟩

theorem energy_register_monotone_hour : ∃ r,
    Rack.Step ⟨Battery.rack (1 : ℚ) 60, ofList (bootEntries 60 1927000)⟩ commandedHour r ∧
      0 ≤ energyRegister r.holding := by
  have hv : (Battery.rack (1 : ℚ) 60).Valid := Battery.rack_valid one_pos (by norm_num) (by norm_num)
  obtain ⟨b', holding', hstep⟩ := hv.step_returns commandedHour.holding (show soc ∉ {activePower} by decide)
    (.fromSecs 3600)
  have hmonotone := energy_register_monotone { capacityKwh := 3854, powerLimitW := 1927000, timeScale := 1 }
    zero_le_one 60 _ (initialRegisters_rat _ _) [commandedHour] fun r _ => ⟨commandedHour_untouched, trivial⟩
  have hrack : Rack.Step ⟨Battery.rack (1 : ℚ) 60, ofList (bootEntries 60 1927000)⟩ commandedHour ⟨b', holding'⟩ :=
    hstep
  exact ⟨⟨b', holding'⟩, hrack, (hmonotone _ hrack).1.2.1⟩

/-- With a time scale of -1 the same hour takes 400 kWh off the counter. -/
theorem energy_register_runs_back : ∃ r, initialRegisters (60 : ℚ) 1927000 = .ok (ofList (bootEntries 60 1927000)) ∧
    Run Rack.Step ⟨Battery.rack (-1 : ℚ) 60, ofList (bootEntries 60 1927000)⟩ [commandedHour] r ∧
    Along Rack.Step (fun r c _ => EnergyUntouched r c) ⟨Battery.rack (-1 : ℚ) 60, ofList (bootEntries 60 1927000)⟩
      [commandedHour] ∧
    energyRegister r.holding = -400000 := by
  set b : Battery ℚ := Battery.rack (-1) 60
  have hset : Battery.setpointOf commandedHour.holding = 400000 :=
    congrArg Int.cast (show (readI32 _ setpoint).toInt = 400000 by decide +kernel)
  have hlimits : dischargeLimit 1927000 60 = 1927000 ∧ chargeLimit 1927000 60 = 1927000 := by
    constructor <;> norm_num [dischargeLimit, chargeLimit, taper]
  have hle : -chargeLimit b.config.powerLimitW b.socPercent ≤ dischargeLimit b.config.powerLimitW b.socPercent := by
    show -chargeLimit 1927000 60 ≤ dischargeLimit 1927000 60
    rw [hlimits.1, hlimits.2]
    norm_num
  have hp : b.delivered (Battery.setpointOf commandedHour.holding) = 400000 := by
    show max (-chargeLimit 1927000 60) (min (Battery.setpointOf commandedHour.holding) (dischargeLimit 1927000 60)) = _
    rw [hset, hlimits.1, hlimits.2]
    norm_num
  obtain ⟨b', holding', hstep⟩ : ∃ b' holding',
      b.step commandedHour.holding commandedHour.driven commandedHour.dt = .ok (b', holding') :=
    ⟨_, _, (Battery.step_rat_iff (by decide)).2 ⟨hle, Battery.advance_rat _ _, Battery.publish_rat _ _ _⟩⟩
  obtain ⟨-, ha, hpub⟩ := (Battery.step_rat_iff (by decide)).1 hstep
  have hrack : Rack.Step ⟨b, ofList (bootEntries 60 1927000)⟩ commandedHour ⟨b', holding'⟩ := hstep
  refine ⟨_, initialRegisters_rat _ _, Run.cons hrack (Run.nil _), fun r _ => ⟨commandedHour_untouched, trivial⟩, ?_⟩
  rw [Battery.energyRegister_publish (by decide) (by decide) hpub]
  rw [hp, Battery.advance_rat] at ha
  cases ha
  have hhours : b.simHours commandedHour.dt = -1 := by
    show ((3600 * 1000000000 : ℕ) : ℚ) / 1000000000 * -1 / 3600 = -1
    norm_num
  show (roundI32 (if (0 : ℚ) < 400000 then 0 + 400000 * b.simHours commandedHour.dt else 0)).toInt = _
  rw [if_pos (by norm_num), hhours]
  decide +kernel

end EmsFixtures.Modbus
