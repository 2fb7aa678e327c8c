import EmsFixtures.Modbus.EnergyRegister
import EmsFixtures.Modbus.Envelope

/-!
# Two racks side by side

Two racks of one configuration, stepped for the same times, of which one starts fuller and is never asked for more
power than the other.  Its SoC is never the lower one, for any tick length: the limits taper with the SoC, and a tick
too long for the taper ends at an empty or a full rack.  So a reserve kept by one schedule is kept by every gentler one
(`ordered_racks`).
-/

namespace EmsFixtures.Modbus

open HashMap Panics Runs

namespace Battery

variable {b b₁ b₂ b₁' b₂' : Battery ℚ} {dt : Duration}

/-- Where a tick under a setpoint leaves the SoC. -/
def socUnder (b : Battery ℚ) (setpointW : ℚ) (dt : Duration) : ℚ :=
  max 0 (min (b.socPercent - b.percentPerWatt dt * b.delivered setpointW) 100)

/-- A greater setpoint drains more. -/
theorem socUnder_anti (hκ : 0 ≤ b.percentPerWatt dt) {p q : ℚ} (h : q ≤ p) : b.socUnder p dt ≤ b.socUnder q dt := by
  have hdelivered : b.delivered q ≤ b.delivered p := max_le_max le_rfl (min_le_min h le_rfl)
  have := mul_le_mul_of_nonneg_left hdelivered hκ
  exact max_le_max le_rfl (min_le_min (by linarith) le_rfl)

/-- Discharging, the tapered limit is a drain. -/
theorem socUnder_of_discharge (hP : 0 ≤ b.config.powerLimitW) (hκ : 0 ≤ b.percentPerWatt dt) {q : ℚ}
    (hq : 0 ≤ q) : b.socUnder q dt =
    min (max (drained 20 (b.percentPerWatt dt * b.config.powerLimitW) b.socPercent)
      (max 0 (b.socPercent - b.percentPerWatt dt * q))) 100 := by
  have hdrain : b.socPercent - b.percentPerWatt dt * dischargeLimit b.config.powerLimitW b.socPercent =
      b.socPercent - b.percentPerWatt dt * b.config.powerLimitW * taper 20 b.socPercent := by
    rw [dischargeLimit, mul_assoc]
  unfold socUnder drained
  rw [delivered_of_nonneg hP hq, mul_min_of_nonneg _ _ hκ, ← max_sub_sub_left, hdrain, max_min_distrib_left,
    max_eq_right (by norm_num : (0 : ℚ) ≤ 100), ← max_max_max_comm, max_self, max_comm (_ - _ * q)]

/-- Charging, it is a drain of what is left to a full rack. -/
theorem socUnder_of_charge (hP : 0 ≤ b.config.powerLimitW) (hκ : 0 ≤ b.percentPerWatt dt) {q : ℚ}
    (hq : q ≤ 0) : b.socUnder q dt =
    max 0 (min (100 - drained 10 (b.percentPerWatt dt * b.config.powerLimitW) (100 - b.socPercent))
      (b.socPercent - b.percentPerWatt dt * q)) := by
  have hc := chargeLimit_nonneg hP b.socPercent
  have hd := dischargeLimit_nonneg hP b.socPercent
  have hdelivered : b.delivered q = max (-chargeLimit b.config.powerLimitW b.socPercent) q := by
    unfold delivered
    rw [min_eq_left (hq.trans hd)]
  have hfill : 100 - drained 10 (b.percentPerWatt dt * b.config.powerLimitW) (100 - b.socPercent) =
      min 100 (b.socPercent - b.percentPerWatt dt * -chargeLimit b.config.powerLimitW b.socPercent) := by
    have hlevel : 100 - (100 - b.socPercent - b.percentPerWatt dt * b.config.powerLimitW *
        taper 10 (100 - b.socPercent)) =
        b.socPercent - b.percentPerWatt dt * -chargeLimit b.config.powerLimitW b.socPercent := by
      rw [chargeLimit]
      ring
    unfold drained
    rw [← min_sub_sub_left, sub_zero, hlevel]
  unfold socUnder
  rw [hfill, hdelivered, mul_max_of_nonneg _ _ hκ, ← min_sub_sub_left, min_comm _ (100 : ℚ), min_assoc]

/-- A rack that starts fuller ends fuller. -/
theorem socUnder_mono (hP : 0 ≤ b₁.config.powerLimitW) (hκ : 0 ≤ b₁.percentPerWatt dt)
    (hconfig : b₂.config = b₁.config) (h : b₁.socPercent ≤ b₂.socPercent) (q : ℚ) :
    b₁.socUnder q dt ≤ b₂.socUnder q dt := by
  have hrate : b₂.percentPerWatt dt = b₁.percentPerWatt dt := by
    unfold percentPerWatt simHours
    rw [hconfig]
  have hP₂ : 0 ≤ b₂.config.powerLimitW := by rwa [hconfig]
  have hκ₂ : 0 ≤ b₂.percentPerWatt dt := by rwa [hrate]
  have hm := mul_nonneg hκ hP
  rcases le_total 0 q with hq | hq
  · rw [socUnder_of_discharge hP hκ hq, socUnder_of_discharge hP₂ hκ₂ hq, hrate, hconfig]
    exact min_le_min (max_le_max (drained_mono (by norm_num) hm h) (max_le_max le_rfl (by linarith))) le_rfl
  · have hroom := drained_mono (w := 10) (by norm_num) hm (sub_le_sub_left h 100)
    rw [socUnder_of_charge hP hκ hq, socUnder_of_charge hP₂ hκ₂ hq, hrate, hconfig]
    exact max_le_max le_rfl (min_le_min (by linarith) (by linarith))

/-- The power a step delivers moves the SoC as a tick under its setpoint does. -/
theorem advance_delivered {setpointW : ℚ} (h : b.advance (b.delivered setpointW) dt = .ok b') :
    b'.socPercent = b.socUnder setpointW dt := by
  rw [advance_socPercent h, target_eq]
  rfl

end Battery

/-! ### Step by step -/

/-- The second call takes the same time, asks for no more power and drives no lower SoC. -/
structure Gentler (c₁ c₂ : Call) : Prop where
  dt : c₁.dt = c₂.dt
  setpoint : Battery.setpointOf c₂.holding ≤ Battery.setpointOf c₁.holding
  driven : soc ∈ c₁.driven ↔ soc ∈ c₂.driven
  drivenSoc : soc ∈ c₁.driven → ∀ w₁ w₂, c₁.holding.lookup soc = some w₁ → c₂.holding.lookup soc = some w₂ → w₁ ≤ w₂

/-- Racks of one configuration, the second no emptier. -/
structure NoEmptier (r₁ r₂ : Rack ℚ) : Prop where
  valid : r₁.battery.Valid
  config : r₂.battery.config = r₁.battery.config
  soc : r₁.battery.socPercent ≤ r₂.battery.socPercent

theorem takeDrivenSoc_le {b₁ b₂ s₁ s₂ : Battery ℚ} {c₁ c₂ : Call} (hc : Gentler c₁ c₂)
    (h : b₁.socPercent ≤ b₂.socPercent) (h₁ : b₁.takeDrivenSoc c₁.holding c₁.driven = .ok s₁)
    (h₂ : b₂.takeDrivenSoc c₂.holding c₂.driven = .ok s₂) : s₁.socPercent ≤ s₂.socPercent := by
  unfold Battery.takeDrivenSoc at h₁ h₂
  by_cases hd : soc ∈ c₁.driven
  · rw [if_pos hd] at h₁
    rw [if_pos (hc.driven.1 hd)] at h₂
    cases hw₁ : c₁.holding.lookup soc with
    | none => simp [hw₁] at h₁
    | some w₁ =>
      cases hw₂ : c₂.holding.lookup soc with
      | none => simp [hw₂] at h₂
      | some w₂ =>
        rw [hw₁] at h₁
        rw [hw₂] at h₂
        cases h₁
        cases h₂
        have hle : (w₁.toNat : ℚ) ≤ w₂.toNat := by exact_mod_cast UInt16.le_iff_toNat_le.1 (hc.drivenSoc hd w₁ w₂ hw₁ hw₂)
        show (w₁.toNat : ℚ) * (1 / 10) ≤ w₂.toNat * (1 / 10)
        linarith
  · rw [if_neg hd] at h₁
    rw [if_neg (mt hc.driven.2 hd)] at h₂
    cases h₁
    cases h₂
    exact h

theorem NoEmptier.step {r₁ r₁' r₂ r₂' : Rack ℚ} {c₁ c₂ : Call} (h : NoEmptier r₁ r₂) (hc : Gentler c₁ c₂)
    (h₁ : r₁.Step c₁ r₁') (h₂ : r₂.Step c₂ r₂') : NoEmptier r₁' r₂' := by
  obtain ⟨s₁, p₁, hs₁, hp₁, ha₁, -⟩ := Battery.step_eq_ok_iff.1 h₁
  obtain ⟨s₂, p₂, hs₂, hp₂, ha₂, -⟩ := Battery.step_eq_ok_iff.1 h₂
  have hconfig₁ := Battery.takeDrivenSoc_config hs₁
  have hconfig : s₂.config = s₁.config := by rw [Battery.takeDrivenSoc_config hs₂, h.config, hconfig₁]
  obtain rfl : p₁ = s₁.delivered (Battery.setpointOf c₁.holding) := (Battery.deliverable_rat_iff.1 hp₁).2
  obtain rfl : p₂ = s₂.delivered (Battery.setpointOf c₂.holding) := (Battery.deliverable_rat_iff.1 hp₂).2
  have hrate : s₁.percentPerWatt c₁.dt = r₁.battery.percentPerWatt c₁.dt := by
    unfold Battery.percentPerWatt Battery.simHours
    rw [hconfig₁]
  have hP : 0 ≤ s₁.config.powerLimitW := by rw [hconfig₁]; exact h.valid.power
  have hκ : 0 ≤ s₁.percentPerWatt c₁.dt := by rw [hrate]; exact h.valid.percentPerWatt_nonneg _
  refine ⟨h.valid.step h₁, by rw [Battery.step_config h₂, Battery.step_config h₁, h.config], ?_⟩
  calc r₁'.battery.socPercent
      _ = s₁.socUnder (Battery.setpointOf c₁.holding) c₁.dt := Battery.advance_delivered ha₁
      _ ≤ s₁.socUnder (Battery.setpointOf c₂.holding) c₁.dt := Battery.socUnder_anti hκ hc.setpoint
      _ ≤ s₂.socUnder (Battery.setpointOf c₂.holding) c₁.dt :=
        Battery.socUnder_mono hP hκ hconfig (takeDrivenSoc_le hc h.soc hs₁ hs₂) _
      _ = r₂'.battery.socPercent := by rw [hc.dt]; exact (Battery.advance_delivered ha₂).symm

/-! ### Runs -/

theorem roundU16_mono {x y : ℚ} (h : x ≤ y) : (roundU16 x).toNat ≤ (roundU16 y).toNat := by
  have hround := F64.roundHalfAway_mono h
  show (UInt16.ofNatClamp (F64.truncate ((F64.roundHalfAway x : ℤ) : ℚ)).toNat).toNat ≤
    (UInt16.ofNatClamp (F64.truncate ((F64.roundHalfAway y : ℤ) : ℚ)).toNat).toNat
  rw [F64.truncate_intCast, F64.truncate_intCast]
  have hclamp : ∀ n : ℕ, (UInt16.ofNatClamp n).toNat = min n (2 ^ 16 - 1) := by
    intro n
    unfold UInt16.ofNatClamp
    split
    · rename_i hn
      rw [UInt16.toNat_ofNatLT]
      rw [UInt16.size] at hn
      omega
    · rename_i hn
      rw [UInt16.size] at hn
      show 2 ^ 16 - 1 = _
      omega
  rw [hclamp, hclamp]
  omega

/-- The image of the second rack shows no lower SoC, no lower discharge limit and no higher charge limit. -/
structure ShowsNoEmptier (holding₁ holding₂ : Registers) : Prop where
  level : ∃ w₁ w₂, holding₁.lookup soc = some w₁ ∧ holding₂.lookup soc = some w₂ ∧ w₁.toNat ≤ w₂.toNat
  discharge : (readI32 holding₁ maxDischarge).toInt ≤ (readI32 holding₂ maxDischarge).toInt
  charge : (readI32 holding₂ maxCharge).toInt ≤ (readI32 holding₁ maxCharge).toInt

/-- What a step leaves in the registers of its SoC and its limits when nothing of its image is driven. -/
theorem step_shows {r r' : Rack ℚ} {c : Call} (hd : ∀ a ∈ Battery.published, a ∉ c.driven) (h : r.Step c r') :
    r'.holding.lookup soc = some (roundU16 (r'.battery.socPercent * 10)) ∧
      readI32 r'.holding maxDischarge =
        roundI32 (dischargeLimit r'.battery.config.powerLimitW r'.battery.socPercent) ∧
      readI32 r'.holding maxCharge = roundI32 (chargeLimit r'.battery.config.powerLimitW r'.battery.socPercent) := by
  obtain ⟨_, power, -, -, -, hpub⟩ := Battery.step_eq_ok_iff.1 h
  obtain ⟨-, -, hcharge, hdischarge⟩ := Battery.publish_reads hd Battery.limits_rat hpub
  exact ⟨Battery.lookup_soc_publish (hd soc (by decide)) hpub, hdischarge, hcharge⟩

theorem NoEmptier.shows {r₁ r₁' r₂ r₂' : Rack ℚ} {c₁ c₂ : Call} (h : NoEmptier r₁' r₂')
    (hd : ∀ a ∈ Battery.published, a ∉ c₁.driven ∧ a ∉ c₂.driven) (h₁ : r₁.Step c₁ r₁') (h₂ : r₂.Step c₂ r₂') :
    ShowsNoEmptier r₁'.holding r₂'.holding := by
  obtain ⟨hlevel₁, hdischarge₁, hcharge₁⟩ := step_shows (fun a ha => (hd a ha).1) h₁
  obtain ⟨hlevel₂, hdischarge₂, hcharge₂⟩ := step_shows (fun a ha => (hd a ha).2) h₂
  have hsoc := h.soc
  have hP := h.valid.power
  refine ⟨⟨_, _, hlevel₁, hlevel₂, roundU16_mono (by linarith)⟩, ?_, ?_⟩
  · rw [hdischarge₁, hdischarge₂, h.config, dischargeLimit, dischargeLimit]
    exact toInt_roundI32_mono (mul_le_mul_of_nonneg_left (taper_mono (by norm_num) hsoc) hP)
  · rw [hcharge₁, hcharge₂, h.config, chargeLimit, chargeLimit]
    exact toInt_roundI32_mono (mul_le_mul_of_nonneg_left (taper_mono (by norm_num) (by linarith)) hP)

/-- Of two racks of one configuration the one that starts no emptier and is commanded no harder, step by step, is no
emptier after any run, and its registers show it. -/
theorem ordered_racks (r₁ r₂ : Rack ℚ) (h : NoEmptier r₁ r₂) (calls₁ calls₂ : List Call)
    (hcalls : List.Forall₂ Gentler calls₁ calls₂) (r₁' r₂' : Rack ℚ) (h₁ : Run Rack.Step r₁ calls₁ r₁')
    (h₂ : Run Rack.Step r₂ calls₂ r₂') :
    r₁'.battery.socPercent ≤ r₂'.battery.socPercent ∧
      ∀ pre₁ c₁ pre₂ c₂, calls₁ = pre₁ ++ [c₁] → calls₂ = pre₂ ++ [c₂] →
        (∀ a ∈ Battery.published, a ∉ c₁.driven ∧ a ∉ c₂.driven) → ShowsNoEmptier r₁'.holding r₂'.holding := by
  have hend : NoEmptier r₁' r₂' := h₁.related (fun _ _ _ _ _ _ hr hc hs₁ hs₂ => hr.step hc hs₁ hs₂) h₂ hcalls h
  refine ⟨hend.soc, ?_⟩
  rintro pre₁ c₁ pre₂ c₂ rfl rfl hd
  obtain ⟨u₁, -, hstep₁⟩ := run_concat_iff.1 h₁
  obtain ⟨u₂, -, hstep₂⟩ := run_concat_iff.1 h₂
  exact hend.shows hd hstep₁ hstep₂

/-- An hour at full discharge and an idle hour. -/
theorem ordered_racks_idle : ∃ r₁' r₂' : Rack ℚ,
    Rack.Step ⟨Battery.rack 1 25, ∅⟩
      { holding := ofList [(setpoint, 29), (setpoint + 1, 26456)], driven := ∅, dt := .fromSecs 3600 } r₁' ∧
    Rack.Step ⟨Battery.rack 1 25, ∅⟩ { holding := ∅, driven := ∅, dt := .fromSecs 3600 } r₂' ∧
    r₁'.battery.socPercent ≤ r₂'.battery.socPercent := by
  have hv : (Battery.rack (1 : ℚ) 25).Valid := Battery.rack_valid one_pos (by norm_num) (by norm_num)
  obtain ⟨b₁, h₁, hs₁⟩ := hv.step_returns (ofList [(setpoint, 29), (setpoint + 1, 26456)]) (Finset.notMem_empty soc)
    (.fromSecs 3600)
  obtain ⟨b₂, h₂, hs₂⟩ := hv.step_returns ∅ (Finset.notMem_empty soc) (.fromSecs 3600)
  have hgentler : Gentler
      { holding := ofList [(setpoint, 29), (setpoint + 1, 26456)], driven := ∅, dt := .fromSecs 3600 }
      { holding := ∅, driven := ∅, dt := .fromSecs 3600 } := by
    refine ⟨rfl, ?_, Iff.rfl, fun hd => by cases hd⟩
    decide +kernel
  have hstep₁ : Rack.Step ⟨Battery.rack (1 : ℚ) 25, ∅⟩
      { holding := ofList [(setpoint, 29), (setpoint + 1, 26456)], driven := ∅, dt := .fromSecs 3600 } ⟨b₁, h₁⟩ := hs₁
  have hstep₂ : Rack.Step ⟨Battery.rack (1 : ℚ) 25, ∅⟩
      { holding := ∅, driven := ∅, dt := .fromSecs 3600 } ⟨b₂, h₂⟩ := hs₂
  exact ⟨⟨b₁, h₁⟩, ⟨b₂, h₂⟩, hstep₁, hstep₂,
    (ordered_racks _ _ ⟨hv, rfl, le_rfl⟩ _ _ (.cons hgentler .nil) _ _ (Run.cons hstep₁ (Run.nil _))
      (Run.cons hstep₂ (Run.nil _))).1⟩

end EmsFixtures.Modbus
