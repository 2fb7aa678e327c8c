import EmsFixtures.Lib.Runs
import EmsFixtures.Modbus.ConfiguredRack
import EmsFixtures.Modbus.Limits
import EmsFixtures.Modbus.Steps

/-!
# The operating state and the power beside it

`operatingState` is the sign of the power, `activePower` the power rounded to whole watts, so the two part on the
powers below half a watt.  A setpoint is a whole number of watts: only a limit can cut it to such a power, near an
empty or a full battery.  The registers agree after every step of a run iff at no step the limit on the side of the
setpoint is positive and below half a watt (`operating_state_agrees_iff`).
-/

namespace EmsFixtures.Modbus

open HashMap Panics Runs

/-- `operatingState` says what the int32 `activePower` does. -/
def StateAgrees (holding : Registers) : Prop :=
  (holding.lookup operatingState = some discharging ↔ 0 < (readI32 holding activePower).toInt) ∧
    (holding.lookup operatingState = some charging ↔ (readI32 holding activePower).toInt < 0) ∧
    (holding.lookup operatingState = some standby ↔ (readI32 holding activePower).toInt = 0)

namespace Battery

variable {b b' : Battery ℚ} {holding holding' : Registers} {driven : Finset UInt16} {dt : Duration}

/-- The limit that may cut the setpoint leaves nothing of it, or at least half a watt. -/
def HalfWatt (b : Battery ℚ) (setpointW : ℚ) : Prop :=
  (0 < setpointW → dischargeLimit b.config.powerLimitW b.socPercent = 0 ∨
      1 / 2 ≤ dischargeLimit b.config.powerLimitW b.socPercent) ∧
    (setpointW < 0 → chargeLimit b.config.powerLimitW b.socPercent = 0 ∨
      1 / 2 ≤ chargeLimit b.config.powerLimitW b.socPercent)

/-! ### Signs -/

theorem stateOf_rat (power : ℚ) :
    (stateOf power = discharging ↔ 0 < power) ∧ (stateOf power = charging ↔ power < 0) ∧
      (stateOf power = standby ↔ power = 0) := by
  have hne : discharging ≠ charging ∧ discharging ≠ standby ∧ charging ≠ standby := by decide
  unfold stateOf
  simp only [F64.rat_lt, F64.rat_lit, decide_eq_true_eq]
  rcases lt_trichotomy power 0 with h | rfl | h
  · rw [if_neg (by linarith), if_pos h]
    simp [hne.1.symm, hne.2.2, h, h.ne, h.le]
  · simp [hne.2.1.symm, hne.2.2.symm]
  · rw [if_pos h]
    simp [hne.1, hne.2.1, h, h.ne', h.le]

/-- The sign of a power is that of its rounding iff the power is zero or rounds away from it. -/
theorem sign_round_iff {power : ℚ} :
    ((0 < power ↔ 0 < F64.roundHalfAway power) ∧ (power < 0 ↔ F64.roundHalfAway power < 0) ∧
      (power = 0 ↔ F64.roundHalfAway power = 0)) ↔ power = 0 ∨ 1 / 2 ≤ power ∨ power ≤ -(1 / 2) := by
  rw [← F64.roundHalfAway_pos_iff, ← F64.roundHalfAway_neg_iff]
  constructor
  · intro h
    obtain ⟨-, -, hzero⟩ := h
    rw [hzero]
    omega
  · intro h
    have hpos := F64.roundHalfAway_pos_iff (x := power)
    have hneg := F64.roundHalfAway_neg_iff (x := power)
    rcases h with rfl | h | h
    · have hround : F64.roundHalfAway 0 = 0 := by exact_mod_cast F64.roundHalfAway_intCast 0
      simp [hround]
    · have hp : 0 < power := by linarith [hpos.1 h]
      refine ⟨iff_of_true hp h, iff_of_false (by linarith) (by omega), iff_of_false hp.ne' (by omega)⟩
    · have hp : power < 0 := by linarith [hneg.1 h]
      refine ⟨iff_of_false (by linarith) (by omega), iff_of_true hp h, iff_of_false hp.ne (by omega)⟩

/-! ### One step -/

/-- Of a whole number of watts the limits leave nothing or at least half a watt iff the one that counts does. -/
theorem delivered_halfWatt_iff (hP : 0 ≤ b.config.powerLimitW) (n : ℤ) :
    b.delivered n = 0 ∨ 1 / 2 ≤ b.delivered n ∨ b.delivered n ≤ -(1 / 2) ↔ b.HalfWatt n := by
  have hc := chargeLimit_nonneg hP b.socPercent
  have hd := dischargeLimit_nonneg hP b.socPercent
  unfold HalfWatt delivered
  rcases lt_trichotomy n 0 with hn | rfl | hn
  · have hn' : (n : ℚ) ≤ -1 := by exact_mod_cast Int.le_sub_one_of_lt hn
    rw [min_eq_left (by linarith)]
    rcases le_total (n : ℚ) (-chargeLimit b.config.powerLimitW b.socPercent) with hle | hle
    · rw [max_eq_left hle]
      constructor
      · intro h
        refine ⟨fun hpos => absurd hpos (by linarith), fun _ => ?_⟩
        rcases h with h | h | h
        · exact Or.inl (by linarith)
        · exact absurd h (by linarith)
        · exact Or.inr (by linarith)
      · intro h
        rcases h.2 (by linarith) with h | h
        · exact Or.inl (by linarith)
        · exact Or.inr (Or.inr (by linarith))
    · rw [max_eq_right hle]
      exact iff_of_true (Or.inr (Or.inr (by linarith)))
        ⟨fun hpos => absurd hpos (by linarith), fun _ => Or.inr (by linarith)⟩
  · rw [Int.cast_zero, min_eq_left hd, max_eq_right (by linarith)]
    simp
  · have hn' : (1 : ℚ) ≤ n := by exact_mod_cast hn
    rw [max_eq_right (le_min (by linarith) (by linarith))]
    rcases le_total (n : ℚ) (dischargeLimit b.config.powerLimitW b.socPercent) with hle | hle
    · rw [min_eq_left hle]
      exact iff_of_true (Or.inr (Or.inl (by linarith)))
        ⟨fun _ => Or.inr (by linarith), fun hneg => absurd hneg (by linarith)⟩
    · rw [min_eq_right hle]
      constructor
      · intro h
        refine ⟨fun _ => ?_, fun hneg => absurd hneg (by linarith)⟩
        rcases h with h | h | h
        · exact Or.inl h
        · exact Or.inr h
        · exact absurd h (by linarith)
      · intro h
        rcases h.1 (by linarith) with h | h
        · exact Or.inl h
        · exact Or.inr (Or.inl h)

theorem lookup_operatingState_publish {power : ℚ} (hd : operatingState ∉ driven)
    (h : b.publish holding driven power = .ok holding') : holding'.lookup operatingState = some (stateOf power) := by
  apply lookup_publish h
  simp [image, wordEntry, hd]

theorem step_stateAgrees_iff (hd : ∀ a ∈ published, a ∉ driven)
    (h : b.step holding driven dt = .ok (b', holding')) : StateAgrees holding' ↔ b.HalfWatt (setpointOf holding) := by
  obtain ⟨hordered, -, hpub⟩ := (step_rat_iff (hd soc (by decide))).1 h
  have hP := rated_nonneg hordered
  have hstate := lookup_operatingState_publish (hd operatingState (by decide)) hpub
  have hpower := (publish_reads hd limits_rat hpub).1
  have hround := toInt_roundI32_delivered hP holding
  obtain ⟨hdischarging, hcharging, hstandby⟩ := stateOf_rat (b.delivered (setpointOf holding))
  have hiff := delivered_halfWatt_iff hP (readI32 holding setpoint).toInt
  unfold StateAgrees
  rw [hstate, hpower, hround, Option.some_inj, Option.some_inj, Option.some_inj, hdischarging, hcharging, hstandby,
    sign_round_iff]
  exact hiff

end Battery

/-! ### Runs -/

/-- The registers agree after every step of a run that drives none of them, iff no step finds the limit of its setpoint
positive and below half a watt. -/
theorem operating_state_agrees_iff (r : Rack ℚ) (calls : List Call)
    (hnone : ∀ c ∈ calls, ∀ a ∈ Battery.published, a ∉ c.driven) :
    Along Rack.Step (fun _ _ r' => StateAgrees r'.holding) r calls ↔
      Along Rack.Step (fun r c _ => r.battery.HalfWatt (Battery.setpointOf c.holding)) r calls := by
  have hdriven : Along Rack.Step (fun (_ : Rack ℚ) c _ => ∀ a ∈ Battery.published, a ∉ c.driven) r calls :=
    along_of_forall_mem hnone r
  refine along_congr (I := fun _ => True) (fun _ _ _ _ _ _ => trivial) (fun r c r' _ hc hstep => ?_) trivial hdriven
  exact Battery.step_stateAgrees_iff hc hstep

/-- The map of a rack commanded by the words `high`, `low`, and a second to step for. -/
def commanded (high low : UInt16) : Call :=
  { holding := ofList [(setpoint, high), (setpoint + 1, low)], driven := ∅, dt := .fromSecs 1 }

theorem operating_state_agrees_iff_sixty :
    Along Rack.Step (fun _ _ r' => StateAgrees r'.holding) ⟨Battery.rack (1 : ℚ) 60, ∅⟩ [commanded 1 34464] := by
  refine (operating_state_agrees_iff _ _ ?_).2 fun r _ => ⟨?_, trivial⟩
  · intro c hc a _
    rw [List.mem_singleton.1 hc]
    exact Finset.notMem_empty a
  · have hlimits : dischargeLimit 1927000 60 = 1927000 ∧ chargeLimit 1927000 60 = 1927000 := by
      norm_num [dischargeLimit, chargeLimit, taper]
    show (_ → dischargeLimit 1927000 60 = 0 ∨ _ ≤ dischargeLimit 1927000 60) ∧
      (_ → chargeLimit 1927000 60 = 0 ∨ _ ≤ chargeLimit 1927000 60)
    rw [hlimits.1, hlimits.2]
    norm_num

/-- `BATTERY_INITIAL_SOC_PERCENT=0.000001`: a setpoint of 100 kW is cut to 0.09635 W, which is published as 0 W beside
`DISCHARGING`. -/
theorem discharging_at_zero_watts : ∃ r, Run Rack.Step ⟨Battery.rack (1 : ℚ) (1 / 1000000), ∅⟩ [commanded 1 34464] r ∧
    (readI32 r.holding activePower).toInt = 0 ∧ r.holding.lookup operatingState = some discharging ∧
    ¬ StateAgrees r.holding := by
  have hv : (Battery.rack (1 : ℚ) (1 / 1000000)).Valid := Battery.rack_valid one_pos (by norm_num) (by norm_num)
  have hnone : ∀ a ∈ Battery.published, a ∉ (commanded 1 34464).driven := fun a _ => Finset.notMem_empty a
  obtain ⟨b', holding', hstep⟩ := hv.step_returns (commanded 1 34464).holding (hnone soc (by decide)) (.fromSecs 1)
  have hrack : Rack.Step ⟨Battery.rack (1 : ℚ) (1 / 1000000), ∅⟩ (commanded 1 34464) ⟨b', holding'⟩ := hstep
  obtain ⟨-, -, hpub⟩ := (Battery.step_rat_iff (hnone soc (by decide))).1 hstep
  have hset : Battery.setpointOf (commanded 1 34464).holding = 100000 :=
    congrArg Int.cast (show (readI32 _ setpoint).toInt = 100000 by decide +kernel)
  have hp : (Battery.rack (1 : ℚ) (1 / 1000000)).delivered 100000 = 1927 / 20000 := by
    show max (-((1927000 : ℚ) * max 0 (min ((100 - 1 / 1000000) / 10) 1)))
      (min 100000 (1927000 * max 0 (min (1 / 1000000 / 20) 1))) = _
    norm_num
  rw [hset, hp] at hpub
  have hstate := Battery.lookup_operatingState_publish (hnone _ (by decide)) hpub
  have hdischarging : Battery.stateOf (1927 / 20000 : ℚ) = discharging := (Battery.stateOf_rat _).1.2 (by norm_num)
  have hpower : (readI32 holding' activePower).toInt = 0 := by
    rw [(Battery.publish_reads hnone Battery.limits_rat hpub).1]
    decide +kernel
  rw [hdischarging] at hstate
  refine ⟨⟨b', holding'⟩, Run.cons hrack (Run.nil _), hpower, hstate, fun h => ?_⟩
  have hpositive : 0 < (readI32 holding' activePower).toInt := h.1.1 hstate
  omega

end EmsFixtures.Modbus
