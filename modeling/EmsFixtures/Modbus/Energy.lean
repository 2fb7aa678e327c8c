import EmsFixtures.Modbus.ExactRack

/-!
# Energy accounting of the rack

What the rack holds plus what it has discharged, in Wh, is a potential that no discharging step lowers: the counter
adds the energy of the whole tick, the SoC is bounded below by 0.  The step conserves it exactly when the tick does
not ask for more than the rack holds (`Battery.Holds`), so a run accounts for its energy iff every tick of it does.
-/

namespace EmsFixtures.Modbus

open HashMap Panics Runs

namespace Battery

variable {b b' : Battery ℚ}

def heldWh (b : Battery ℚ) : ℚ := b.config.capacityKwh * 1000 * b.socPercent / 100

/-- Held and discharged energy together. -/
def totalWh (b : Battery ℚ) : ℚ := b.heldWh + b.energyDischargedWh

/-- The tick asks for no more than the rack holds: the power the setpoint is cut to, over the simulated hours. -/
def Holds (b : Battery ℚ) (setpointW : ℚ) (dt : Duration) : Prop :=
  min setpointW (dischargeLimit b.config.powerLimitW b.socPercent) * b.simHours dt ≤ b.heldWh

/-- Delivering `power ≥ 0` moves the held energy by what was delivered, but not below zero. -/
theorem advance_discharge {power : ℚ} {dt : Duration} (hv : b.Valid) (hp : 0 ≤ power)
    (h : b.advance power dt = .ok b') :
    b'.heldWh = max 0 (b.heldWh - power * b.simHours dt) ∧
      b'.energyDischargedWh = b.energyDischargedWh + power * b.simHours dt := by
  have hC := hv.capacity
  have hx : 0 ≤ power * b.simHours dt := mul_nonneg hp (simHours_nonneg hv.timeScale.le dt)
  have htarget : b.config.capacityKwh * 1000 * b.target power dt / 100 = b.heldWh - power * b.simHours dt := by
    unfold target heldWh
    field_simp
  have hle : b.target power dt ≤ 100 := by
    have : 0 ≤ power * b.simHours dt / 1000 / b.config.capacityKwh * 100 := by positivity
    have := hv.soc_le
    unfold target
    linarith
  rw [advance_rat, min_eq_left hle] at h
  cases h
  constructor
  · show b.config.capacityKwh * 1000 * max 0 (b.target power dt) / 100 = _
    rw [← htarget, mul_div_assoc, mul_div_assoc, ← max_div_div_right (by norm_num : (0 : ℚ) ≤ 100), zero_div,
      mul_max_of_nonneg _ _ (by positivity), mul_zero]
  · show (if 0 < power then _ else _) = _
    split
    · rfl
    · rw [le_antisymm (not_lt.1 ‹_›) hp, zero_mul, add_zero]

/-- A discharging or idle step lowers the total by nothing, and conserves it iff the rack holds what is asked. -/
theorem step_totalWh {holding holding' : Registers} {driven : Finset UInt16} {dt : Duration} (hv : b.Valid)
    (hsoc : soc ∉ driven) (hset : 0 ≤ setpointOf holding) (h : b.step holding driven dt = .ok (b', holding')) :
    b'.Valid ∧ b.totalWh ≤ b'.totalWh ∧ (b'.totalWh = b.totalWh ↔ b.Holds (setpointOf holding) dt) := by
  obtain ⟨-, ha, -⟩ := (step_rat_iff hsoc).1 h
  rw [delivered_of_nonneg hv.power hset] at ha
  have hp : 0 ≤ min (setpointOf holding) (dischargeLimit b.config.powerLimitW b.socPercent) :=
    le_min hset (dischargeLimit_nonneg hv.power _)
  obtain ⟨hheld, hdis⟩ := advance_discharge hv hp ha
  refine ⟨hv.advance ha, ?_, ?_⟩
  · rw [totalWh, totalWh, hheld, hdis]
    linarith [le_max_right 0 (b.heldWh -
      min (setpointOf holding) (dischargeLimit b.config.powerLimitW b.socPercent) * b.simHours dt)]
  · rw [totalWh, totalWh, hheld, hdis, Holds]
    constructor
    · intro heq
      by_contra hlt
      rw [max_eq_left (by linarith)] at heq
      linarith
    · intro hle
      rw [max_eq_right (by linarith)]
      ring

end Battery

/-! ### Runs -/

def Discharging (s : Server ℚ) (o : Op ℚ) : Prop :=
  ∀ dt, o = .step dt → soc ∉ s.meter.driven ∧ 0 ≤ Battery.setpointOf s.meter.holding

def TickHeld (s : Server ℚ) (o : Op ℚ) : Prop :=
  ∀ dt, o = .step dt → s.battery.Holds (Battery.setpointOf s.meter.holding) dt

theorem Server.battery_of_not_step {F : Type} [F64 F] {s t : Server F} {o : Op F} (ho : ∀ dt, o ≠ .step dt)
    (h : s.Step o t) : t.battery = s.battery := by
  cases o with
  | step dt => exact absurd rfl (ho dt)
  | put registers => cases h; rfl
  | writeSingle index value => cases h; rfl
  | writeMultiple values => cases h; rfl
  | tick => cases h; rfl
  | poi pW => cases h; rfl

private theorem totalWh_step {s t : Server ℚ} {o : Op ℚ} (hv : s.battery.Valid) (hd : Discharging s o)
    (h : s.Step o t) : t.battery.Valid ∧ s.battery.totalWh ≤ t.battery.totalWh ∧
      (t.battery.totalWh = s.battery.totalWh ↔ TickHeld s o) := by
  by_cases ho : ∃ dt, o = .step dt
  · obtain ⟨dt, rfl⟩ := ho
    obtain ⟨hsoc, hset⟩ := hd dt rfl
    obtain ⟨hb, -⟩ := Server.step_step_iff.1 h
    obtain ⟨hv', hle, hiff⟩ := Battery.step_totalWh hv hsoc hset hb
    exact ⟨hv', hle, hiff.trans ⟨fun h dt' hdt => by cases hdt; exact h, fun h => h dt rfl⟩⟩
  · have hne : ∀ dt, o ≠ .step dt := fun dt hdt => ho ⟨dt, hdt⟩
    rw [Server.battery_of_not_step hne h]
    exact ⟨hv, le_rfl, iff_of_true rfl fun dt hdt => absurd hdt (hne dt)⟩

/-- The energy discharged from `s₀` to `s` is the energy of the SoC given up, and no more than the rack held. -/
def Accounts (s₀ s : Server ℚ) : Prop :=
  s.battery.energyDischargedWh - s₀.battery.energyDischargedWh =
      s₀.battery.config.capacityKwh * 1000 * (s₀.battery.socPercent - s.battery.socPercent) / 100 ∧
    s.battery.energyDischargedWh - s₀.battery.energyDischargedWh ≤
      s₀.battery.config.capacityKwh * 1000 * s₀.battery.socPercent / 100

/-- A run of non-negative setpoints accounts for its energy iff no tick of it asks for more than the rack holds. -/
theorem energy_accounting_iff (s₀ s : Server ℚ) (ops : List (Op ℚ)) (hv : s₀.battery.Valid)
    (hd : Along Server.Step (fun s o _ => Discharging s o) s₀ ops) (h : Run Server.Step s₀ ops s) :
    Accounts s₀ s ↔ Along Server.Step (fun s o _ => TickHeld s o) s₀ ops := by
  have hpot := h.potential_eq_iff (Φ := fun s => s.battery.totalWh) (I := fun s => s.battery.Valid)
    Server.step_det (fun s o t hs ho ht => ⟨(totalWh_step hs ho ht).1, (totalWh_step hs ho ht).2.1⟩) hv hd
  have hcfg : s.battery.config = s₀.battery.config := by
    refine h.invariant (I := fun s => s.battery.config = s₀.battery.config) (fun s o t hs ht => ?_) rfl
    by_cases ho : ∃ dt, o = .step dt
    · obtain ⟨dt, rfl⟩ := ho
      rw [Battery.step_config (Server.step_step_iff.1 ht).1, hs]
    · rw [Server.battery_of_not_step (fun dt hdt => ho ⟨dt, hdt⟩) ht, hs]
  have hvalid : s.battery.Valid := h.invariant_along (I := fun s => s.battery.Valid)
    (fun s o t hs ho ht => (totalWh_step hs ho ht).1) hv hd
  have heq : s.battery.totalWh = s₀.battery.totalWh ↔
      s.battery.energyDischargedWh - s₀.battery.energyDischargedWh =
        s₀.battery.config.capacityKwh * 1000 * (s₀.battery.socPercent - s.battery.socPercent) / 100 := by
    unfold Battery.totalWh Battery.heldWh
    rw [hcfg]
    constructor <;> intro h <;> linarith
  have hheld : 0 ≤ s₀.battery.config.capacityKwh * 1000 * s.battery.socPercent / 100 := by
    have := hv.capacity
    have := hvalid.soc_nonneg
    positivity
  calc _ ↔ s.battery.totalWh = s₀.battery.totalWh := by
        rw [heq]
        exact ⟨And.left, fun h => ⟨h, by linarith⟩⟩
    _ ↔ _ := hpot
    _ ↔ _ := along_congr (I := fun s => s.battery.Valid) (fun s o t hs ho ht => (totalWh_step hs ho ht).1)
        (fun s o t hs ho ht => (totalWh_step hs ho ht).2.2) hv hd

private theorem discharging_rackServer {timeScale socPercent : ℚ} {high low : UInt16} {ops : List (Op ℚ)}
    (hops : ops.length = 1) (h : 0 ≤ Battery.setpointOf (rackServer timeScale socPercent high low).meter.holding) :
    Along Server.Step (fun s o _ => Discharging s o) (rackServer timeScale socPercent high low) ops := by
  obtain ⟨o, rfl⟩ := List.length_eq_one_iff.1 hops
  exact fun t _ => ⟨fun dt _ => ⟨Finset.notMem_empty _, h⟩, trivial⟩

theorem energy_accounting_iff_second : ∃ s, Run Server.Step (rackServer 1 60 6 6784) [.step (.fromSecs 1)] s ∧
    Accounts (rackServer 1 60 6 6784) s := by
  obtain ⟨s, hs⟩ := rackServer_steps 1 60 one_pos (by norm_num) (by norm_num) 6 6784
    (.fromSecs 1)
  have hrun := Run.cons hs (Run.nil s)
  have hset : Battery.setpointOf (rackServer 1 60 6 6784).meter.holding = 400000 :=
    congrArg Int.cast (show (readI32 _ setpoint).toInt = 400000 by decide +kernel)
  refine ⟨s, hrun, (energy_accounting_iff _ s _ (Battery.rack_valid one_pos (by norm_num) (by norm_num))
    (discharging_rackServer rfl (by rw [hset]; norm_num)) hrun).2 fun t _ => ⟨fun dt hdt => ?_, trivial⟩⟩
  cases hdt
  rw [Battery.Holds, hset]
  show min 400000 ((1927000 : ℚ) * max 0 (min (60 / 20) 1)) * (((1 * 1000000000 : ℕ) : ℚ) / 1000000000 * 1 / 3600) ≤
    3854 * 1000 * 60 / 100
  norm_num

/-- At `BATTERY_TIME_SCALE=10800` a one-second tick is three hours: the rack discharges 5781 kWh of the 2312.4 kWh it
holds at 60 % SoC, and ends empty. -/
theorem energy_overdrawn : ∃ s, Run Server.Step (rackServer 10800 60 29 26456) [.step (.fromMillis 1000)] s ∧
    (rackServer 10800 60 29 26456).battery.Valid ∧
    Along Server.Step (fun s o _ => Discharging s o) (rackServer 10800 60 29 26456) [.step (.fromMillis 1000)] ∧
    s.battery.energyDischargedWh = 5781000 ∧ s.battery.socPercent = 0 ∧
    ¬ Accounts (rackServer 10800 60 29 26456) s := by
  obtain ⟨s, hs⟩ := rackServer_steps 10800 60 (by norm_num) (by norm_num) (by norm_num)
    29 26456 (.fromMillis 1000)
  have hset : Battery.setpointOf (rackServer 10800 60 29 26456).meter.holding = 1927000 :=
    congrArg Int.cast (show (readI32 _ setpoint).toInt = 1927000 by decide +kernel)
  have hv : (rackServer 10800 60 29 26456).battery.Valid :=
    Battery.rack_valid (by norm_num) (by norm_num) (by norm_num)
  have hlimit : dischargeLimit 1927000 60 = 1927000 := by norm_num [dischargeLimit, taper]
  have hp : (rackServer 10800 60 29 26456).battery.delivered 1927000 = 1927000 := by
    rw [Battery.delivered_of_nonneg hv.power (by norm_num)]
    show min _ (dischargeLimit 1927000 60) = _
    rw [hlimit, min_self]
  obtain ⟨-, ha, -⟩ := (Battery.step_rat_iff (Finset.notMem_empty _)).1 (Server.step_step_iff.1 hs).1
  rw [hset, hp] at ha
  obtain ⟨hheld, hdis⟩ := Battery.advance_discharge hv (by norm_num) ha
  have hcfg : s.battery.config = (rackServer 10800 60 29 26456).battery.config := Battery.advance_config ha
  have hhours : (rackServer 10800 60 29 26456).battery.simHours (.fromMillis 1000) = 3 := by
    show ((1000 * 1000000 : ℕ) : ℚ) / 1000000000 * 10800 / 3600 = 3
    norm_num
  have hE : s.battery.energyDischargedWh = 5781000 := by
    rw [hdis, hhours]
    show (0 : ℚ) + 1927000 * 3 = 5781000
    norm_num
  have hsoc : s.battery.socPercent = 0 := by
    rw [hhours, Battery.heldWh, Battery.heldWh, hcfg] at hheld
    change 3854 * 1000 * s.battery.socPercent / 100 = max 0 (3854 * 1000 * 60 / 100 - 1927000 * 3) at hheld
    norm_num at hheld
    exact hheld
  refine ⟨s, Run.cons hs (Run.nil s), hv, discharging_rackServer rfl (by rw [hset]; norm_num), hE, hsoc, fun hacc => ?_⟩
  have hbound := hacc.2
  rw [hE] at hbound
  change (5781000 : ℚ) - 0 ≤ 3854 * 1000 * 60 / 100 at hbound
  norm_num at hbound

end EmsFixtures.Modbus
