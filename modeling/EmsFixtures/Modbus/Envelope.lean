import EmsFixtures.Lib.Runs
import EmsFixtures.Modbus.ConfiguredRack
import EmsFixtures.Modbus.Limits
import EmsFixtures.Modbus.Steps

/-!
# The envelope of a rack

What holds of every step of a rack, whatever it is called with: the power lies between zero and the setpoint and
within both limits at the SoC the step starts from, and the SoC it leaves is in range.  The SoC a step starts from is
out of range when such a word is driven into its register; the clamp at the end of the step brings it back, so the
invariant of a run is that of the batteries between steps (`Battery.Valid`).
-/

namespace EmsFixtures.Modbus

open HashMap Panics Runs

namespace Battery

variable {b b' : Battery ℚ} {holding holding' : Registers} {driven : Finset UInt16} {dt : Duration}

/-- A step that starts at the SoC of `start`, delivers `power` and stays within the envelope. -/
structure Enveloped (b : Battery ℚ) (c : Call) (start : Battery ℚ) (power : ℚ) (r : Rack ℚ) : Prop where
  starts : b.takeDrivenSoc c.holding c.driven = .ok start
  delivers : start.deliverable (setpointOf c.holding) = .ok power
  advances : start.advance power c.dt = .ok r.battery
  publishes : r.battery.publish c.holding c.driven power = .ok r.holding
  between : min (setpointOf c.holding) 0 ≤ power ∧ power ≤ max (setpointOf c.holding) 0
  discharge : ∃ limit, maxDischargeW b.config.powerLimitW start.socPercent = .ok limit ∧ power ≤ limit
  charge : ∃ limit, maxChargeW b.config.powerLimitW start.socPercent = .ok limit ∧ -power ≤ limit
  soc_range : 0 ≤ r.battery.socPercent ∧ r.battery.socPercent ≤ 100
  soc_register : soc ∉ c.driven → ∃ word, r.holding.lookup soc = some word ∧ word.toNat ≤ 1000
  soc_moves : soc ∉ c.driven → (0 < power → r.battery.socPercent ≤ b.socPercent) ∧
    (power < 0 → b.socPercent ≤ r.battery.socPercent) ∧ (power = 0 → r.battery.socPercent = b.socPercent)

/-! ### One step -/

theorem delivered_le_limits (hP : 0 ≤ b.config.powerLimitW) (setpointW : ℚ) :
    b.delivered setpointW ≤ dischargeLimit b.config.powerLimitW b.socPercent ∧
      -b.delivered setpointW ≤ chargeLimit b.config.powerLimitW b.socPercent := by
  have hordered := limits_ordered (b := b) hP
  unfold delivered
  constructor
  · exact max_le hordered (min_le_right _ _)
  · exact neg_le.1 (le_max_left _ _)

/-- A delivered power moves the SoC against its sign, and none leaves it. -/
theorem advance_moves (hv : b.Valid) {power : ℚ} (h : b.advance power dt = .ok b') :
    (0 < power → b'.socPercent ≤ b.socPercent) ∧ (power < 0 → b.socPercent ≤ b'.socPercent) ∧
      (power = 0 → b'.socPercent = b.socPercent) := by
  have hunit := hv.percentPerWatt_nonneg dt
  have h₀ := hv.soc_nonneg
  have h₁ := hv.soc_le
  rw [advance_socPercent h, target_eq]
  refine ⟨fun hp => ?_, fun hp => ?_, fun hp => ?_⟩
  · have : 0 ≤ b.percentPerWatt dt * power := mul_nonneg hunit hp.le
    exact max_le h₀ ((min_le_left _ _).trans (by linarith))
  · have : b.percentPerWatt dt * power ≤ 0 := mul_nonpos_of_nonneg_of_nonpos hunit hp.le
    exact le_max_of_le_right (le_min (by linarith) h₁)
  · rw [hp, mul_zero, sub_zero, min_eq_left h₁, max_eq_right h₀]

theorem Valid.step (hv : b.Valid) (h : b.step holding driven dt = .ok (b', holding')) : b'.Valid := by
  obtain ⟨start, power, -, -, ha, -⟩ := step_eq_ok_iff.1 h
  have hconfig := step_config h
  have hsoc := advance_socPercent ha
  refine ⟨by rw [hconfig]; exact hv.capacity, by rw [hconfig]; exact hv.power, by rw [hconfig]; exact hv.timeScale,
    ?_, ?_⟩
  · rw [hsoc]
    exact le_max_left _ _
  · rw [hsoc]
    exact max_le (by norm_num) (min_le_right _ _)

/-- A SoC in range is published as a word of at most 1000. -/
theorem roundU16_le {s : ℚ} (h₁ : s ≤ 100) : (roundU16 (s * 10)).toNat ≤ 1000 := by
  have hround : F64.roundHalfAway (s * 10) ≤ 1000 := by
    have hle : s * 10 ≤ ((1000 : ℤ) : ℚ) := by push_cast; linarith
    have := F64.roundHalfAway_mono hle
    rwa [F64.roundHalfAway_intCast] at this
  show (UInt16.ofNatClamp (F64.truncate ((F64.roundHalfAway (s * 10) : ℤ) : ℚ)).toNat).toNat ≤ 1000
  rw [F64.truncate_intCast, UInt16.ofNatClamp]
  split
  · simp only [UInt16.toNat_ofNatLT]
    omega
  · rename_i hlt
    simp only [UInt16.size] at hlt
    omega

theorem lookup_soc_publish {power : ℚ} (hsoc : soc ∉ driven) (h : b.publish holding driven power = .ok holding') :
    holding'.lookup soc = some (roundU16 (b.socPercent * 10)) := by
  apply lookup_publish h
  simp [image, wordEntry, hsoc]

theorem Valid.enveloped (hv : b.Valid) {c : Call} (h : b.step c.holding c.driven c.dt = .ok (b', holding')) :
    ∃ start power, b.Enveloped c start power ⟨b', holding'⟩ := by
  obtain ⟨start, power, hstart, hpower, ha, hpub⟩ := step_eq_ok_iff.1 h
  have hconfig := takeDrivenSoc_config hstart
  have hP : 0 ≤ start.config.powerLimitW := by rw [hconfig]; exact hv.power
  have hpower' : power = start.delivered (setpointOf c.holding) := (deliverable_rat_iff.1 hpower).2
  obtain ⟨hdischarge, hcharge⟩ := delivered_le_limits hP (setpointOf c.holding)
  have hv' := hv.step h
  refine ⟨start, power, ?_⟩
  exact
    { starts := hstart
      delivers := hpower
      advances := ha
      publishes := hpub
      between := by rw [hpower']; exact (delivered_bounds hP _).1
      discharge := ⟨_, maxDischargeW_rat _ _, by rw [hpower', ← hconfig]; exact hdischarge⟩
      charge := ⟨_, maxChargeW_rat _ _, by rw [hpower', ← hconfig]; exact hcharge⟩
      soc_range := ⟨hv'.soc_nonneg, hv'.soc_le⟩
      soc_register := fun hd => ⟨_, lookup_soc_publish hd hpub, roundU16_le hv'.soc_le⟩
      soc_moves := fun hd => by
        rw [takeDrivenSoc_of_notMem hd] at hstart
        cases hstart
        exact advance_moves hv ha }

end Battery

/-! ### Runs -/

/-- From every state that a run reaches, a step that finds its driven SoC returns, and stays within the envelope. -/
theorem battery_envelope (b : Battery ℚ) (hv : b.Valid) (holding : Registers) (calls : List Call) (r : Rack ℚ)
    (h : Run Rack.Step ⟨b, holding⟩ calls r) (c : Call) (hsoc : soc ∈ c.driven → soc ∈ c.holding) :
    ∃ r', r.Step c r' ∧ ∃ start power, r.battery.Enveloped c start power r' := by
  have hkeeps : ∀ (r : Rack ℚ) (c : Call) (r' : Rack ℚ), r.battery.Valid → r.Step c r' → r'.battery.Valid :=
    fun r c r' hr hstep => hr.step hstep
  have hr : r.battery.Valid := h.invariant hkeeps hv
  obtain ⟨b', holding', hstep⟩ := Battery.exists_step c.dt hr.power hsoc
  exact ⟨⟨b', holding'⟩, hstep, hr.enveloped hstep⟩

/-- A SoC of 120 % is driven, and the setpoint is the least there is. -/
def overfull : Call :=
  { holding := ofList [(soc, 1200), (setpoint, 0x8000), (setpoint + 1, 0)], driven := {soc}, dt := .fromSecs 1 }

theorem battery_envelope_overfull : ∃ r r', Run Rack.Step ⟨Battery.rack 1 60, ∅⟩ [overfull] r ∧
    r.Step overfull r' ∧ ∃ start power, r.battery.Enveloped overfull start power r' := by
  have hv : (Battery.rack (1 : ℚ) 60).Valid := Battery.rack_valid one_pos (by norm_num) (by norm_num)
  have hsoc : soc ∈ overfull.driven → soc ∈ overfull.holding := fun _ => mem_ofList.2 (by simp)
  obtain ⟨r, hr, -⟩ := battery_envelope _ hv ∅ [] _ (Run.nil _) overfull hsoc
  have hrun : Run Rack.Step ⟨Battery.rack 1 60, ∅⟩ [overfull] r := Run.cons hr (Run.nil r)
  obtain ⟨r', hr', henv⟩ := battery_envelope _ hv ∅ [overfull] r hrun overfull hsoc
  exact ⟨r, r', hrun, hr', henv⟩

end EmsFixtures.Modbus
