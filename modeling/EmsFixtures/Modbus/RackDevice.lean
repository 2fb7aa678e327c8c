import EmsFixtures.Modbus.BootImage
import EmsFixtures.Modbus.DeviceRegisters
import EmsFixtures.Modbus.Envelope
import EmsFixtures.Modbus.RackPower

/-!
# A rack as the site sees it

The power register of a `bess_rack` device, from boot on: zero until its first step, then the power of the last one,
rounded to watts.  A step never delivers more than the rating whatever SoC and setpoint are driven into the rack, so as
long as the register itself is not written from outside, a meter that reads it finds at most 1927 kW of either sign
(`readPower_of_run`).
-/

namespace EmsFixtures.Modbus

open HashMap Panics Runs

/-- The words of a rack's active power. -/
def rackRegisters : List UInt16 := [activePower, activePower + 1]

/-- The pair holds an int32 within the rating. -/
def HoldsPower (holding : Registers) : Prop :=
  ∃ v : Int32, holding.lookup activePower = some (Words.high v.toUInt32) ∧
    holding.lookup (activePower + 1) = some (Words.low v.toUInt32) ∧ |v.toInt| ≤ 1927000

/-- A rack of the configured rating, whose power register holds a power. -/
structure RatedRack (d : Device ℚ) : Prop where
  wellFormed : d.WellFormed
  profile : d.profile = .bessRack
  rating : ∃ b, d.battery = some b ∧ b.config.powerLimitW = 1927000
  power : HoldsPower d.meter.holding

namespace Battery

/-- Whole watts within the rating. -/
theorem abs_roundI32_delivered_le {b : Battery ℚ} (hP : b.config.powerLimitW = 1927000) (setpointW : ℚ) :
    |(roundI32 (b.delivered setpointW)).toInt| ≤ 1927000 := by
  have hnonneg : 0 ≤ b.config.powerLimitW := by rw [hP]; norm_num
  obtain ⟨hdischarge, hcharge⟩ := delivered_le_limits hnonneg setpointW
  have hle : b.delivered setpointW ≤ ((1927000 : ℤ) : ℚ) := by
    have := dischargeLimit_le hnonneg b.socPercent
    rw [hP] at this hdischarge
    push_cast
    linarith
  have hge : ((-1927000 : ℤ) : ℚ) ≤ b.delivered setpointW := by
    have := chargeLimit_le hnonneg b.socPercent
    rw [hP] at this hcharge
    push_cast
    linarith
  have hupper := F64.roundHalfAway_mono hle
  have hlower := F64.roundHalfAway_mono hge
  rw [F64.roundHalfAway_intCast] at hupper hlower
  rw [roundI32, F64.toInt_toI32_round, abs_le]
  omega

/-- A step leaves the power it delivered in an undriven pair. -/
theorem step_holdsPower {b b' : Battery ℚ} {holding holding' : Registers} {driven : Finset UInt16} {dt : Duration}
    (hP : b.config.powerLimitW = 1927000) (hd : ∀ a ∈ rackRegisters, a ∉ driven)
    (h : b.step holding driven dt = .ok (b', holding')) : HoldsPower holding' := by
  obtain ⟨start, power, hstart, hpower, -, hpub⟩ := step_eq_ok_iff.1 h
  have hP' : start.config.powerLimitW = 1927000 := by rw [takeDrivenSoc_config hstart, hP]
  have hdelivered : power = start.delivered (setpointOf holding) := (deliverable_rat_iff.1 hpower).2
  have himage : pairEntries driven activePower (roundI32 power) ⊆ b'.image driven power :=
    fun e he => by simp [image, he]
  obtain ⟨hhigh, hlow⟩ := lookup_publish_pair hpub himage (hd activePower (by simp [rackRegisters]))
    (hd (activePower + 1) (by simp [rackRegisters]))
  refine ⟨roundI32 power, hhigh, hlow, ?_⟩
  rw [hdelivered]
  exact abs_roundI32_delivered_le hP' _

end Battery

/-! ### Runs of the device -/

theorem ratedRack_of_boot {parse : String → Option ℚ} {env : EnvVars} {d : Device ℚ}
    (h : Device.boot parse env = .ok (.ok d)) (hprofile : d.profile = .bessRack) : RatedRack d := by
  obtain ⟨battery, henv, hb⟩ := Device.boot_bessRack h hprofile
  obtain ⟨timeScale, socPercent, -, -, -, -, hregs, rfl⟩ := (fromEnv_eq_ok_iff parse env).1 henv
  have hregs' := Except.ok.inj (hregs.symm.trans (initialRegisters_rat socPercent (F64.lit 1927000)))
  have hzero : ∀ a ∈ rackRegisters, d.meter.holding.lookup a = some 0 := by
    intro a ha
    rw [hregs']
    refine lookup_boot ?_
    rcases List.mem_cons.1 ha with rfl | ha
    · simp [bootEntries, activePower]
    · obtain rfl := List.mem_singleton.1 ha
      simp [bootEntries, activePower]
  have hwords : Words.high (0 : Int32).toUInt32 = 0 ∧ Words.low (0 : Int32).toUInt32 = 0 := by decide
  refine ⟨(Device.boot_wellFormed h).1, hprofile, ⟨_, hb, rfl⟩, 0, ?_, ?_, by decide⟩
  · rw [hwords.1, hzero activePower (by simp [rackRegisters])]
  · rw [hwords.2, hzero (activePower + 1) (by simp [rackRegisters])]

theorem RatedRack.step {d d' : Device ℚ} {o : DeviceOp ℚ} (h : RatedRack d)
    (hundriven : ∀ a ∈ rackRegisters, a ∉ d.meter.driven) (hspares : o.Spares rackRegisters d.meter.writable)
    (hstep : d.Step o d') : RatedRack d' := by
  obtain ⟨b, hb, hP⟩ := h.rating
  have hf := (Device.Follows.refl d).step h.wellFormed hstep
  have hprofile : d'.profile = .bessRack := hf.profile.trans h.profile
  by_cases hback : (o.onServer d.battery.isSome).Background
  · cases o with
    | put registers => exact hback.elim
    | writeSingle index value => exact hback.elim
    | writeMultiple values => exact hback.elim
    | poi pW =>
      have hpoi : d.profile = .poiMeter := hstep.1
      rw [h.profile] at hpoi
      cases hpoi
    | simulate dt =>
      have hop : d.simulate dt = .ok d' := hstep.2
      unfold Device.simulate at hop
      rw [hb] at hop
      obtain ⟨⟨b', holding⟩, hbattery, hop⟩ := bind_eq_ok_iff.1 hop
      cases hop
      refine ⟨hf.wellFormed h.wellFormed, hprofile, ⟨b', rfl, ?_⟩, Battery.step_holdsPower hP hundriven hbattery⟩
      rw [Battery.step_config hbattery, hP]
  · -- a write from outside touches neither the pair nor the battery
    obtain ⟨v, hhigh, hlow, hv⟩ := h.power
    have hkeep : ∀ a ∈ rackRegisters, d'.meter.holding.lookup a = d.meter.holding.lookup a :=
      fun a ha => Device.lookup_of_external hback hspares hstep ha
    have hbattery : d'.battery = d.battery := by
      obtain ⟨-, hop⟩ := hstep
      cases o with
      | put registers => cases hop; rfl
      | writeSingle index value => cases hop; rfl
      | writeMultiple values => cases hop; rfl
      | poi pW => cases hop; rfl
      | simulate dt =>
        rw [hb] at hback
        exact absurd trivial hback
    refine ⟨hf.wellFormed h.wellFormed, hprofile, ⟨b, hbattery.trans hb, hP⟩, v, ?_, ?_, hv⟩
    · rw [hkeep activePower (by simp [rackRegisters]), hhigh]
    · rw [hkeep (activePower + 1) (by simp [rackRegisters]), hlow]

theorem ratedRack_of_run {d₀ d : Device ℚ} {ops : List (DeviceOp ℚ)} (hd : RatedRack d₀)
    (hdriven : d₀.meter.driven = ∅) (h : Run Device.Step d₀ ops d)
    (hspares : ∀ o ∈ ops, o.Spares rackRegisters d₀.meter.writable) : RatedRack d := by
  induction ops using List.reverseRecOn generalizing d with
  | nil =>
    obtain rfl := run_nil_iff.1 h
    exact hd
  | append_singleton ops o ih =>
    obtain ⟨u, hu, hstep⟩ := run_concat_iff.1 h
    have hpre : ∀ o ∈ ops, o.Spares rackRegisters d₀.meter.writable := fun o ho => hspares o (by simp [ho])
    refine (ih hu hpre).step (fun a ha => Device.undriven_of_spares hd.wellFormed hdriven hu hpre ha) ?_ hstep
    rw [(Device.follows_of_run hd.wellFormed hu).gate]
    exact hspares o (by simp)

/-- What a meter reads off a rack is a power within its rating. -/
theorem readPower_of_run {parse : String → Option ℚ} {env : EnvVars} {d₀ d : Device ℚ} {ops : List (DeviceOp ℚ)}
    (hboot : Device.boot parse env = .ok (.ok d₀)) (hprofile : d₀.profile = .bessRack)
    (h : Run Device.Step d₀ ops d) (hspares : ∀ o ∈ ops, o.Spares rackRegisters d₀.meter.writable) :
    ∃ v : Int32, readRackPower (d.meter.readPair rackActivePower) = some (v.toInt : ℚ) ∧ |v.toInt| ≤ 1927000 := by
  have hrack := ratedRack_of_run (ratedRack_of_boot hboot hprofile) (Device.boot_wellFormed hboot).2 h hspares
  obtain ⟨v, hhigh, hlow, hv⟩ := hrack.power
  have hanswer : d.meter.readPair rackActivePower = some [Words.high v.toUInt32, Words.low v.toUInt32] :=
    readPair_of_lookup hhigh hlow
  refine ⟨v, ?_, hv⟩
  rw [hanswer]
  exact readRackPower_words v

/-- A rack at its defaults boots, and takes a step of any length. -/
theorem boot_default_rack (parse : String → Option ℚ) (dt : Duration) :
    ∃ env d₀ d, Device.boot parse env = .ok (.ok d₀) ∧ d₀.profile = .bessRack ∧ d₀.Step (.simulate dt) d := by
  let env : EnvVars := fun name => if name = "MODBUS_PROFILE" then some "bess_rack" else none
  obtain ⟨holding, hregs⟩ : ∃ holding, initialRegisters (60 : ℚ) 1927000 = .ok holding := ⟨_, initialRegisters_rat _ _⟩
  have henv : fromEnv parse env = .ok (.ok (Battery.rack 1 60, holding)) :=
    (fromEnv_eq_ok_iff parse env).2 ⟨1, 60, rfl, rfl, by decide, by decide, hregs, rfl⟩
  have hsoc : soc ∈ (∅ : Finset UInt16) → soc ∈ holding := fun hd => by cases hd
  obtain ⟨b', holding', hstep⟩ :=
    Battery.exists_step dt (show 0 ≤ (Battery.rack (1 : ℚ) 60).config.powerLimitW by norm_num [Battery.rack, Battery.new])
      hsoc
  let d₀ : Device ℚ :=
    { profile := .bessRack, meter := Device.handler env .bessRack holding ∅, battery := some (Battery.rack 1 60) }
  refine ⟨env, d₀, { d₀ with meter := { d₀.meter with holding := holding' }, battery := some b' }, ?_, rfl,
    Or.inr rfl, ?_⟩
  · show (fromEnv parse env >>= _) = _
    rw [henv]
    rfl
  · exact bind_eq_ok_iff.2 ⟨_, hstep, rfl⟩

end EmsFixtures.Modbus
