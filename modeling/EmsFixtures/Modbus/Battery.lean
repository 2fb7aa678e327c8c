import EmsFixtures.Modbus.RackRegisters

/-!
# The simulated rack

`battery.rs`: one step takes a SoC driven through the control surface as the new truth, delivers the setpoint within
the present limits, moves SoC and the energy counter by what was delivered, and publishes the result.  The step is cut
at these four points (`takeDrivenSoc`, `deliverable`, `advance`, `publish`); `step_eq_ok_iff` says what a step that
returns has done, and the facts about registers are those of `publish`.
-/

namespace EmsFixtures.Modbus

open HashMap Panics

/-- `std::time::Duration`, in nanoseconds. -/
structure Duration where
  nanos : Nat
  deriving DecidableEq, Repr

namespace Duration

def fromMillis (ms : Nat) : Duration := ⟨ms * 1000000⟩

def fromSecs (s : Nat) : Duration := ⟨s * 1000000000⟩

def asSecsF64 {F : Type} [F64 F] (dt : Duration) : F := F64.lit ((dt.nanos : ℚ) / 1000000000)

end Duration

structure BatteryConfig (F : Type) where
  capacityKwh : F
  powerLimitW : F
  timeScale : F

structure Battery (F : Type) where
  config : BatteryConfig F
  socPercent : F
  energyDischargedWh : F

namespace Battery

variable {F : Type} [F64 F]

/-- Build a rack starting at `initialSocPercent`. -/
def new (config : BatteryConfig F) (initialSocPercent : F) : Battery F :=
  { config, socPercent := initialSocPercent, energyDischargedWh := F64.lit 0 }

/-- Present `(max_charge, max_discharge)` magnitudes at this SoC. -/
def limits (b : Battery F) : Except Panic (F × F) := do
  let charge ← maxChargeW b.config.powerLimitW b.socPercent
  let discharge ← maxDischargeW b.config.powerLimitW b.socPercent
  pure (charge, discharge)

/-- The setpoint the rack can actually deliver: within its present limits. -/
def deliverable (b : Battery F) (setpointW : F) : Except Panic F := do
  let (charge, discharge) ← b.limits
  F64.clamp setpointW (-charge) discharge

/-- A SoC driven through the control surface is the new truth; indexing the map panics if it is absent. -/
def takeDrivenSoc (b : Battery F) (holding : Registers) (driven : Finset UInt16) : Except Panic (Battery F) :=
  if soc ∈ driven then
    match holding.lookup soc with
    | some raw => .ok { b with socPercent := F64.lit raw.toNat * F64.lit (1 / 10) }
    | none => .error .index
  else .ok b

/-- Simulated hours of a tick of wall time. -/
def simHours (b : Battery F) (dt : Duration) : F := dt.asSecsF64 * b.config.timeScale / F64.lit 3600

/-- Move SoC and the energy counter by `power` over `dt`. -/
def advance (b : Battery F) (power : F) (dt : Duration) : Except Panic (Battery F) := do
  let simHours := b.simHours dt
  let energyKwh := power * simHours / F64.lit 1000
  let socPercent ← F64.clamp (b.socPercent - energyKwh / b.config.capacityKwh * F64.lit 100) (F64.lit 0) (F64.lit 100)
  let energyDischargedWh :=
    if F64.lt (F64.lit 0) power then b.energyDischargedWh + power * simHours else b.energyDischargedWh
  pure { b with socPercent, energyDischargedWh }

def stateOf (power : F) : UInt16 :=
  if F64.lt (F64.lit 0) power then discharging
  else if F64.lt power (F64.lit 0) then charging
  else standby

/-- Write the registers of a rack that has just delivered `power`. -/
def publish (b : Battery F) (holding : Registers) (driven : Finset UInt16) (power : F) : Except Panic Registers := do
  let holding := put holding driven soc (roundU16 (b.socPercent * F64.lit 10))
  let holding := putI32 holding driven activePower (roundI32 power)
  let holding := putI32 holding driven energyDischarged (roundI32 b.energyDischargedWh)
  let (charge, discharge) ← b.limits
  let holding := putI32 holding driven maxCharge (roundI32 charge)
  let holding := putI32 holding driven maxDischarge (roundI32 discharge)
  pure (put holding driven operatingState (stateOf power))

/-- Advance the model by `dt` of wall time and write its registers. -/
def step (b : Battery F) (holding : Registers) (driven : Finset UInt16) (dt : Duration) :
    Except Panic (Battery F × Registers) := do
  let b ← b.takeDrivenSoc holding driven
  -- cut to the limits at the SoC before the tick; `publish` writes those after it
  let power ← b.deliverable (F64.lit (readI32 holding setpoint).toInt)
  let b ← b.advance power dt
  let holding ← b.publish holding driven power
  pure (b, holding)

/-- The rack `from_env` builds: 3854 kWh, 1927 kW. -/
def rack (timeScale initialSocPercent : F) : Battery F :=
  new { capacityKwh := F64.lit 3854, powerLimitW := F64.lit 1927000, timeScale } initialSocPercent

/-! ### What a step does -/

theorem step_eq_ok_iff {b b' : Battery F} {holding holding' : Registers} {driven : Finset UInt16} {dt : Duration} :
    b.step holding driven dt = .ok (b', holding') ↔
      ∃ b₁ power, b.takeDrivenSoc holding driven = .ok b₁ ∧
        b₁.deliverable (F64.lit (readI32 holding setpoint).toInt) = .ok power ∧
        b₁.advance power dt = .ok b' ∧ b'.publish holding driven power = .ok holding' := by
  simp only [step, bind_eq_ok_iff]
  constructor
  · intro h
    obtain ⟨b₁, h₁, power, hp, b₂, h₂, hold, hh, he⟩ := h
    cases he
    exact ⟨b₁, power, h₁, hp, h₂, hh⟩
  · intro h
    obtain ⟨b₁, power, h₁, hp, h₂, hh⟩ := h
    exact ⟨b₁, h₁, power, hp, b', h₂, holding', hh, rfl⟩

theorem takeDrivenSoc_of_notMem {b : Battery F} {holding : Registers} {driven : Finset UInt16} (h : soc ∉ driven) :
    b.takeDrivenSoc holding driven = .ok b := if_neg h

/-- A driven SoC replaces the battery's own and nothing else. -/
theorem takeDrivenSoc_eq {b b' : Battery F} {holding : Registers} {driven : Finset UInt16}
    (h : b.takeDrivenSoc holding driven = .ok b') : ∃ s, b' = { b with socPercent := s } := by
  unfold takeDrivenSoc at h
  split at h
  · split at h
    · cases h
      exact ⟨_, rfl⟩
    · cases h
  · cases h
    exact ⟨b.socPercent, rfl⟩

theorem takeDrivenSoc_config {b b' : Battery F} {holding : Registers} {driven : Finset UInt16}
    (h : b.takeDrivenSoc holding driven = .ok b') : b'.config = b.config := by
  obtain ⟨s, rfl⟩ := takeDrivenSoc_eq h
  rfl

theorem advance_config {b b' : Battery F} {power : F} {dt : Duration} (h : b.advance power dt = .ok b') :
    b'.config = b.config := by
  obtain ⟨s, -, hs⟩ := bind_eq_ok_iff.1 h
  cases hs
  rfl

theorem step_config {b b' : Battery F} {holding holding' : Registers} {driven : Finset UInt16} {dt : Duration}
    (h : b.step holding driven dt = .ok (b', holding')) : b'.config = b.config := by
  obtain ⟨b₁, power, h₁, -, h₂, -⟩ := step_eq_ok_iff.1 h
  rw [advance_config h₂, takeDrivenSoc_config h₁]

theorem publish_eq_ok_iff {b : Battery F} {holding holding' : Registers} {driven : Finset UInt16} {power : F} :
    b.publish holding driven power = .ok holding' ↔
      ∃ charge discharge, b.limits = .ok (charge, discharge) ∧
        holding' = put (putI32 (putI32 (putI32 (putI32 (put holding driven soc (roundU16 (b.socPercent * F64.lit 10)))
          driven activePower (roundI32 power)) driven energyDischarged (roundI32 b.energyDischargedWh))
          driven maxCharge (roundI32 charge)) driven maxDischarge (roundI32 discharge))
          driven operatingState (stateOf power) := by
  simp only [publish, bind_eq_ok_iff]
  constructor
  · intro h
    obtain ⟨⟨charge, discharge⟩, hl, he⟩ := h
    cases he
    exact ⟨charge, discharge, hl, rfl⟩
  · intro h
    obtain ⟨charge, discharge, hl, rfl⟩ := h
    exact ⟨(charge, discharge), hl, rfl⟩

/-- The addresses a step writes. -/
def published : List UInt16 := [soc, activePower, activePower + 1, energyDischarged, energyDischarged + 1,
  operatingState, maxCharge, maxCharge + 1, maxDischarge, maxDischarge + 1]

/-- What the int32 registers read after `publish` when none of the addresses it writes is driven. -/
theorem publish_reads {b : Battery F} {holding holding' : Registers} {driven : Finset UInt16}
    {power charge discharge : F} (hd : ∀ a ∈ published, a ∉ driven) (hl : b.limits = .ok (charge, discharge))
    (h : b.publish holding driven power = .ok holding') :
    readI32 holding' activePower = roundI32 power ∧
      readI32 holding' energyDischarged = roundI32 b.energyDischargedWh ∧
      readI32 holding' maxCharge = roundI32 charge ∧ readI32 holding' maxDischarge = roundI32 discharge := by
  obtain ⟨charge', discharge', hl', rfl⟩ := publish_eq_ok_iff.1 h
  obtain ⟨rfl, rfl⟩ : charge' = charge ∧ discharge' = discharge := by simpa [hl, eq_comm] using hl'
  have hstate : ∀ p ∈ [activePower, energyDischarged, maxCharge, maxDischarge],
      p ≠ operatingState ∧ p + 1 ≠ operatingState := List.forall_iff_forall_mem.1 (by decide)
  have hd' : ∀ p ∈ [activePower, energyDischarged, maxCharge, maxDischarge], p ∉ driven ∧ p + 1 ∉ driven := by
    intro p hp
    have : ∀ p ∈ [activePower, energyDischarged, maxCharge, maxDischarge], p ∈ published ∧ p + 1 ∈ published :=
      List.forall_iff_forall_mem.1 (by decide)
    exact ⟨hd _ (this p hp).1, hd _ (this p hp).2⟩
  refine ⟨?_, ?_, ?_, ?_⟩
  · rw [readI32_put (hstate _ (by simp)).1 (hstate _ (by simp)).2, readI32_putI32_of_ne (by decide) (by decide),
      readI32_putI32_of_ne (by decide) (by decide), readI32_putI32_of_ne (by decide) (by decide),
      readI32_putI32 (hd' _ (by simp)).1 (hd' _ (by simp)).2]
  · rw [readI32_put (hstate _ (by simp)).1 (hstate _ (by simp)).2, readI32_putI32_of_ne (by decide) (by decide),
      readI32_putI32_of_ne (by decide) (by decide), readI32_putI32 (hd' _ (by simp)).1 (hd' _ (by simp)).2]
  · rw [readI32_put (hstate _ (by simp)).1 (hstate _ (by simp)).2, readI32_putI32_of_ne (by decide) (by decide),
      readI32_putI32 (hd' _ (by simp)).1 (hd' _ (by simp)).2]
  · rw [readI32_put (hstate _ (by simp)).1 (hstate _ (by simp)).2,
      readI32_putI32 (hd' _ (by simp)).1 (hd' _ (by simp)).2]

end Battery

end EmsFixtures.Modbus
