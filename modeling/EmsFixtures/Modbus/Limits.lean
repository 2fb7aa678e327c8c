import EmsFixtures.Modbus.ExactRack

/-!
# The register image against its own limits

Power is cut to the limits at the SoC before the tick, the limits in the registers are those at the SoC after it.  In
a taper region the limit shrinks with the move.  A tick sustains its setpoint (`Battery.Sustains`) when the taper at
the SoC it starts from leaves room for the move, and then the image is consistent (`published_within_limits`).  But for
the rounding to whole watts that is all it takes (`sustainable_iff`, `Battery.step_withinLimits_iff`).
-/

namespace EmsFixtures.Modbus

open HashMap Panics Runs

/-- The image satisfies `-MAX_CHARGE <= activePower <= MAX_DISCHARGE`. -/
def WithinLimits (holding : Registers) : Prop :=
  -(readI32 holding maxCharge).toInt ≤ (readI32 holding activePower).toInt ∧
    (readI32 holding activePower).toInt ≤ (readI32 holding maxDischarge).toInt

/-! ### Below a taper -/

/-- On a taper of width `w`, a positive power up to the rating is within the limit at a bounded charge `y` iff it is
below the taper line at `y` itself. -/
private theorem le_taper_iff {w ratedW x y : ℚ} (hw : 0 < w) (hw' : w ≤ 100) (hx : 0 < x) (hr : x ≤ ratedW) :
    x ≤ ratedW * taper w (max 0 (min y 100)) ↔ w * x ≤ ratedW * y := by
  have hP : 0 < ratedW := hx.trans_le hr
  have hs : 0 ≤ max 0 (min y 100) := le_max_left _ _
  have hcut : x ≤ ratedW * taper w (max 0 (min y 100)) ↔ w * x ≤ ratedW * max 0 (min y 100) := by
    rw [taper, max_eq_right (le_min (by positivity) zero_le_one), mul_min_of_nonneg _ _ hP.le, mul_one, le_min_iff,
      and_iff_left hr, ← mul_div_assoc, le_div_iff₀ hw, mul_comm]
  rw [hcut]
  rcases le_or_gt y 0 with hy | hy
  · have hwx : 0 < w * x := mul_pos hw hx
    have hPy : ratedW * y ≤ 0 := mul_nonpos_of_nonneg_of_nonpos hP.le hy
    rw [min_eq_left (by linarith), max_eq_left hy]
    constructor <;> intro h <;> linarith
  · rcases le_or_gt y 100 with hy' | hy'
    · rw [min_eq_left hy', max_eq_right hy.le]
    · -- full: the taper ends at or below 100, so both sides hold
      have h₁ : w * x ≤ 100 * ratedW := mul_le_mul hw' hr hx.le (by norm_num)
      have h₂ : ratedW * 100 ≤ ratedW * y := mul_le_mul_of_nonneg_left hy'.le hP.le
      rw [min_eq_right hy'.le, max_eq_right (by norm_num)]
      constructor <;> intro _ <;> linarith

theorem le_dischargeLimit_iff {ratedW x u : ℚ} (hx : 0 < x) (hr : x ≤ ratedW) :
    x ≤ dischargeLimit ratedW (max 0 (min u 100)) ↔ 20 * x ≤ ratedW * u :=
  le_taper_iff (by norm_num) (by norm_num) hx hr

theorem le_chargeLimit_iff {ratedW x u : ℚ} (hx : 0 < x) (hr : x ≤ ratedW) :
    x ≤ chargeLimit ratedW (max 0 (min u 100)) ↔ 10 * x ≤ ratedW * (100 - u) := by
  have hmissing : 100 - max 0 (min u 100) = max 0 (min (100 - u) 100) := by
    rcases le_total u 0 with h | h
    · rw [min_eq_left (by linarith), max_eq_left h, min_eq_right (by linarith), max_eq_right (by norm_num), sub_zero]
    · rcases le_total u 100 with h' | h'
      · rw [min_eq_left h', max_eq_right h, min_eq_left (by linarith), max_eq_right (by linarith)]
      · rw [min_eq_right h', max_eq_right (by norm_num), min_eq_left (by linarith), max_eq_left (by linarith), sub_self]
  unfold chargeLimit
  rw [hmissing]
  exact le_taper_iff (by norm_num) (by norm_num) hx hr

/-! ### Sustained powers -/

/-- A power asked for at charge `x` can be kept up for a tick that moves `κ` of the charge a watt: cut to the rating, it
stays below the taper line at the charge the tick leaves. -/
def Sustainable (w ratedW κ x asked : ℚ) : Prop :=
  asked ≤ 0 ∨ x = 0 ∨ κ = 0 ∨ min asked ratedW * (w + ratedW * κ) ≤ ratedW * x

/-- What the taper leaves of `asked` is below the taper line at the end of the tick iff `asked` is sustainable. -/
theorem sustainable_iff {w ratedW κ x asked : ℚ} (hw : 0 < w) (hP : 0 ≤ ratedW) (hκ : 0 ≤ κ) (hx : 0 ≤ x) :
    Sustainable w ratedW κ x asked ↔ (0 < min asked (ratedW * taper w x) →
      w * min asked (ratedW * taper w x) ≤ ratedW * (x - κ * min asked (ratedW * taper w x))) := by
  have hcut : ratedW * taper w x ≤ ratedW := mul_le_of_le_one_right hP (taper_le_one w x)
  constructor
  · intro h hpos
    have hline : w * (ratedW * taper w x) ≤ ratedW * x := by
      have := mul_le_mul_of_nonneg_left (mul_taper_le hw hx) hP
      linarith
    have hleft : w * min asked (ratedW * taper w x) ≤ ratedW * x :=
      (mul_le_mul_of_nonneg_left (min_le_right _ _) hw.le).trans hline
    rcases h with h | h | h | h
    · linarith [min_le_left asked (ratedW * taper w x)]
    · rw [h, taper_of_nonpos hw le_rfl, mul_zero] at hpos
      linarith [min_le_right asked (0 : ℚ)]
    · rw [h, zero_mul, sub_zero]
      exact hleft
    · have hle : min asked (ratedW * taper w x) ≤ min asked ratedW := min_le_min le_rfl hcut
      have := mul_le_mul_of_nonneg_right hle (by positivity : 0 ≤ w + ratedW * κ)
      linarith
  · intro h
    by_contra hnot
    obtain ⟨hasked, hx', hκ', hover⟩ : 0 < asked ∧ x ≠ 0 ∧ κ ≠ 0 ∧
        ratedW * x < min asked ratedW * (w + ratedW * κ) := by
      simpa [Sustainable] using hnot
    have hx0 : 0 < x := lt_of_le_of_ne hx (Ne.symm hx')
    have hκ0 : 0 < κ := lt_of_le_of_ne hκ (Ne.symm hκ')
    have hP0 : 0 < ratedW := by
      refine lt_of_le_of_ne hP fun h0 => ?_
      rw [← h0, min_eq_right hasked.le] at hover
      linarith
    have ht := taper_pos hw hx0
    have hkept := h (lt_min hasked (mul_pos hP0 ht))
    rcases le_total asked (ratedW * taper w x) with hle | hle
    · rw [min_eq_left hle] at hkept
      rw [min_eq_left (hle.trans hcut)] at hover
      linarith
    · rw [min_eq_right hle] at hkept
      rcases le_total w x with hwx | hwx
      · rw [taper_of_ge hw hwx, mul_one] at hkept hle
        rw [min_eq_right hle] at hover
        linarith
      · -- on the taper the power is on the line, which any move leaves
        have hline : w * (ratedW * taper w x) = ratedW * x := by
          rw [taper_of_le hw hx hwx]
          field_simp
        have : 0 < ratedW * (κ * (ratedW * taper w x)) := by positivity
        linarith

/-! ### Published powers and limits -/

private theorem le_roundI32_iff {x : ℚ} {n : ℤ} (hn : 0 < n) :
    n ≤ (roundI32 x).toInt ↔ n < 2 ^ 31 ∧ (n : ℚ) - 1 / 2 ≤ x := by
  rw [← F64.le_roundHalfAway_iff hn, roundI32, F64.toInt_toI32_round]
  omega

private theorem roundI32_nonneg {x : ℚ} (hx : 0 ≤ x) : 0 ≤ (roundI32 x).toInt := by
  have := F64.roundHalfAway_nonneg hx
  rw [roundI32, F64.toInt_toI32_round]
  omega

private theorem published_bounds {ratedW power : ℚ} (hn : 0 < F64.roundHalfAway power) (hp : power ≤ ratedW) :
    0 < (F64.roundHalfAway power : ℚ) - 1 / 2 ∧ (F64.roundHalfAway power : ℚ) - 1 / 2 ≤ ratedW := by
  have hx : (F64.roundHalfAway power : ℚ) - 1 / 2 ≤ power := (F64.le_roundHalfAway_iff hn).1 le_rfl
  have hx0 : (1 : ℚ) ≤ (F64.roundHalfAway power : ℚ) := by exact_mod_cast hn
  exact ⟨by linarith, hx.trans hp⟩

theorem published_le_discharge_iff {ratedW power u : ℚ} (hn : 0 < F64.roundHalfAway power) (hp : power ≤ ratedW) :
    F64.roundHalfAway power ≤ (roundI32 (dischargeLimit ratedW (max 0 (min u 100)))).toInt ↔
      F64.roundHalfAway power < 2 ^ 31 ∧ 20 * ((F64.roundHalfAway power : ℚ) - 1 / 2) ≤ ratedW * u := by
  obtain ⟨h₀, h₁⟩ := published_bounds hn hp
  rw [le_roundI32_iff hn, le_dischargeLimit_iff h₀ h₁]

theorem published_le_charge_iff {ratedW power u : ℚ} (hn : F64.roundHalfAway power < 0) (hp : -ratedW ≤ power) :
    -F64.roundHalfAway power ≤ (roundI32 (chargeLimit ratedW (max 0 (min u 100)))).toInt ↔
      -F64.roundHalfAway power < 2 ^ 31 ∧
        10 * (-(F64.roundHalfAway power : ℚ) - 1 / 2) ≤ ratedW * (100 - u) := by
  rw [← F64.roundHalfAway_neg, ← Int.cast_neg, ← F64.roundHalfAway_neg]
  have hn' : 0 < F64.roundHalfAway (-power) := by rw [F64.roundHalfAway_neg]; omega
  obtain ⟨h₀, h₁⟩ := published_bounds hn' (neg_le.1 hp)
  rw [le_roundI32_iff hn', le_chargeLimit_iff h₀ h₁]

/-! ### One step -/

namespace Battery

variable {b b' : Battery ℚ} {holding holding' : Registers} {driven : Finset UInt16} {dt : Duration}

/-- The tick moves the SoC no further than to where the taper still carries the published power, half a watt allowed
for the rounding. -/
def LimitCovers (b : Battery ℚ) (setpointW : ℚ) (dt : Duration) : Prop :=
  let power := b.delivered setpointW
  let published := F64.roundHalfAway power
  (0 < published → 20 * ((published : ℚ) - 1 / 2) ≤ b.config.powerLimitW * b.target power dt) ∧
    (published < 0 → -published < 2 ^ 31 ∧
      10 * (-(published : ℚ) - 1 / 2) ≤ b.config.powerLimitW * (100 - b.target power dt))

theorem delivered_bounds (hP : 0 ≤ b.config.powerLimitW) (setpointW : ℚ) :
    (min setpointW 0 ≤ b.delivered setpointW ∧ b.delivered setpointW ≤ max setpointW 0) ∧
      -b.config.powerLimitW ≤ b.delivered setpointW ∧ b.delivered setpointW ≤ b.config.powerLimitW := by
  have hc := chargeLimit_nonneg hP b.socPercent
  have hd := dischargeLimit_nonneg hP b.socPercent
  have hc' := chargeLimit_le hP b.socPercent
  have hd' := dischargeLimit_le hP b.socPercent
  unfold delivered
  refine ⟨⟨?_, ?_⟩, ?_, ?_⟩
  · exact le_max_of_le_right (le_min (min_le_left _ _) ((min_le_right _ _).trans hd))
  · exact max_le ((neg_nonpos.2 hc).trans (le_max_right _ _)) ((min_le_left _ _).trans (le_max_left _ _))
  · exact (neg_le_neg hc').trans (le_max_left _ _)
  · exact max_le (by linarith) ((min_le_right _ _).trans hd')

/-- A setpoint of either sign that the rack can keep up for the tick; a charge must fit the register too. -/
structure Sustains (b : Battery ℚ) (setpointW : ℚ) (dt : Duration) : Prop where
  discharge : Sustainable 20 b.config.powerLimitW (b.percentPerWatt dt) b.socPercent setpointW
  charge : Sustainable 10 b.config.powerLimitW (b.percentPerWatt dt) (100 - b.socPercent) (-setpointW)
  fits : min (-setpointW) b.config.powerLimitW < 2 ^ 31 - 1 / 2

/-- The power a sustainable setpoint leaves, rounded, is no more than half a watt above the taper line. -/
private theorem rounded_sustained {w ratedW κ x asked : ℚ} (hw : 0 < w) (hP : 0 ≤ ratedW) (hκ : 0 ≤ κ) (hx : 0 ≤ x)
    (h : Sustainable w ratedW κ x asked) (hn : 0 < F64.roundHalfAway (min asked (ratedW * taper w x))) :
    w * ((F64.roundHalfAway (min asked (ratedW * taper w x)) : ℚ) - 1 / 2) ≤
      ratedW * (x - κ * min asked (ratedW * taper w x)) := by
  have hround : (F64.roundHalfAway (min asked (ratedW * taper w x)) : ℚ) - 1 / 2 ≤ min asked (ratedW * taper w x) :=
    (F64.le_roundHalfAway_iff hn).1 le_rfl
  have hpos : 0 < min asked (ratedW * taper w x) := by linarith [F64.roundHalfAway_pos_iff.1 hn]
  exact (mul_le_mul_of_nonneg_left hround hw.le).trans ((sustainable_iff hw hP hκ hx).1 h hpos)

theorem Sustains.limitCovers (hv : b.Valid) {setpointW : ℚ} (h : b.Sustains setpointW dt) :
    b.LimitCovers setpointW dt := by
  have hP := hv.power
  have hκ := hv.percentPerWatt_nonneg dt
  unfold LimitCovers
  simp only [target_eq]
  rcases le_total 0 setpointW with hset | hset
  · rw [delivered_of_nonneg hP hset]
    have hpower := le_min hset (dischargeLimit_nonneg hP b.socPercent)
    refine ⟨fun hn => rounded_sustained (by norm_num) hP hκ hv.soc_nonneg h.discharge hn, fun hn => ?_⟩
    exact absurd (F64.roundHalfAway_nonneg hpower) (not_le.2 hn)
  · rw [delivered_of_nonpos hP hset, F64.roundHalfAway_neg]
    have hpower := le_min (neg_nonneg.2 hset) (chargeLimit_nonneg hP b.socPercent)
    have hround := F64.roundHalfAway_nonneg hpower
    refine ⟨fun hn => by omega, fun hn => ?_⟩
    have hn' : 0 < F64.roundHalfAway (min (-setpointW) (chargeLimit b.config.powerLimitW b.socPercent)) := by omega
    have hfits := (min_le_min_left (-setpointW) (chargeLimit_le hP b.socPercent)).trans_lt h.fits
    have hkept := rounded_sustained (by norm_num) hP hκ (sub_nonneg.2 hv.soc_le) h.charge hn'
    have hhalf := (F64.le_roundHalfAway_iff hn').1 le_rfl
    rw [neg_neg, Int.cast_neg, neg_neg]
    refine ⟨?_, ?_⟩
    · have : (F64.roundHalfAway (min (-setpointW) (chargeLimit b.config.powerLimitW b.socPercent)) : ℚ) <
          ((2 ^ 31 : ℤ) : ℚ) := by
        push_cast
        linarith
      exact_mod_cast this
    · unfold chargeLimit at *
      linarith

/-- The power of an int32 setpoint is published without saturation. -/
theorem toInt_roundI32_delivered (hP : 0 ≤ b.config.powerLimitW) (holding : Registers) :
    (roundI32 (b.delivered (setpointOf holding))).toInt = F64.roundHalfAway (b.delivered (setpointOf holding)) := by
  obtain ⟨⟨hlo, hhi⟩, -⟩ := delivered_bounds hP (setpointOf holding)
  have hlo' := F64.roundHalfAway_mono hlo
  have hhi' := F64.roundHalfAway_mono hhi
  rw [setpointOf, ← Int.cast_zero, ← Int.cast_min, F64.roundHalfAway_intCast] at hlo'
  rw [setpointOf, ← Int.cast_zero, ← Int.cast_max, F64.roundHalfAway_intCast] at hhi'
  have := (readI32 holding setpoint).le_toInt
  have := (readI32 holding setpoint).toInt_lt
  rw [roundI32, F64.toInt_toI32_round]
  simp only [setpointOf] at *
  omega

/-- A step that drives no published register leaves a consistent image iff the limits after it cover its power. -/
theorem step_withinLimits_iff (hd : ∀ a ∈ published, a ∉ driven)
    (h : b.step holding driven dt = .ok (b', holding')) :
    WithinLimits holding' ↔ b.LimitCovers (setpointOf holding) dt := by
  obtain ⟨hle, ha, hpub⟩ := (step_rat_iff (hd soc (by decide))).1 h
  have hP := rated_nonneg hle
  obtain ⟨hact, -, hmc, hmd⟩ := publish_reads hd limits_rat hpub
  have hp := toInt_roundI32_delivered hP holding
  obtain ⟨-, hlo, hhi⟩ := delivered_bounds hP (setpointOf holding)
  rw [WithinLimits, hact, hmc, hmd, advance_config ha, advance_socPercent ha, hp, LimitCovers]
  generalize b.delivered (setpointOf holding) = power at *
  have hn31 : F64.roundHalfAway power < 2 ^ 31 := hp ▸ Int32.toInt_lt _
  have hc := roundI32_nonneg (chargeLimit_nonneg hP (max 0 (min (b.target power dt) 100)))
  have hd := roundI32_nonneg (dischargeLimit_nonneg hP (max 0 (min (b.target power dt) 100)))
  -- the published power is a charge, 0 or a discharge; at most one of the two limits is in question
  rcases lt_trichotomy (F64.roundHalfAway power) 0 with hn | hn | hn
  · have hiff := published_le_charge_iff (u := b.target power dt) hn hlo
    constructor
    · intro h
      obtain ⟨h, -⟩ := h
      exact ⟨fun h' => by omega, fun _ => hiff.1 (by omega)⟩
    · intro h
      obtain ⟨-, h⟩ := h
      have := hiff.2 (h hn)
      exact ⟨by omega, by omega⟩
  · rw [hn]
    exact iff_of_true ⟨by omega, hd⟩ ⟨fun h => absurd h (by omega), fun h => absurd h (by omega)⟩
  · have hiff := published_le_discharge_iff (u := b.target power dt) hn hhi
    constructor
    · intro h
      obtain ⟨-, h⟩ := h
      exact ⟨fun _ => (hiff.1 h).2, fun h' => by omega⟩
    · intro h
      obtain ⟨h, -⟩ := h
      exact ⟨by omega, hiff.2 ⟨hn31, h hn⟩⟩

end Battery

/-! ### Runs -/

def Undriven (s : Server ℚ) (o : Op ℚ) : Prop :=
  ∀ dt, o = .step dt → ∀ a ∈ Battery.published, a ∉ s.meter.driven

def SustainsSetpoint (s : Server ℚ) (o : Op ℚ) : Prop :=
  ∀ dt, o = .step dt → s.battery.Sustains (Battery.setpointOf s.meter.holding) dt

/-- A run that drives no published register, and each of whose steps sustains its setpoint, leaves a consistent image
after each step. -/
theorem published_within_limits (s₀ : Server ℚ) (hv : s₀.battery.Valid) (ops : List (Op ℚ))
    (hd : Along Server.Step (fun s o _ => Undriven s o) s₀ ops)
    (hs : Along Server.Step (fun s o _ => SustainsSetpoint s o) s₀ ops) :
    Along Server.Step (fun _ o t => ∀ dt, o = .step dt → WithinLimits t.meter.holding) s₀ ops := by
  have hkeeps : ∀ s o t, s.battery.Valid → Undriven s o ∧ SustainsSetpoint s o → s.Step o t → t.battery.Valid := by
    intro s o t hvalid ho ht
    cases o with
    | step dt =>
      obtain ⟨hstep, -⟩ := Server.step_step_iff.1 ht
      exact hvalid.advance ((Battery.step_rat_iff (ho.1 dt rfl soc (by decide))).1 hstep).2.1
    | _ => cases ht; exact hvalid
  refine Along.imp hkeeps (fun s o t hvalid ht ho dt hdt => ?_) hv (along_and.2 ⟨hd, hs⟩)
  subst hdt
  have hcovers := (ho.2 dt rfl).limitCovers hvalid
  exact (Battery.step_withinLimits_iff (ho.1 dt rfl) (Server.step_step_iff.1 ht).1).2 hcovers

private theorem undriven_rackServer {timeScale socPercent : ℚ} {high low : UInt16} {o : Op ℚ} :
    Along Server.Step (fun s o _ => Undriven s o) (rackServer timeScale socPercent high low) [o] :=
  fun _ _ => ⟨fun _ _ a _ => Finset.notMem_empty a, trivial⟩

theorem published_within_limits_second :
    Along Server.Step (fun _ o t => ∀ dt, o = .step dt → WithinLimits t.meter.holding) (rackServer 1 60 6 6784)
      [.step (.fromSecs 1)] := by
  have hv : (rackServer 1 60 6 6784).battery.Valid := Battery.rack_valid one_pos (by norm_num) (by norm_num)
  refine published_within_limits _ hv _ undriven_rackServer fun t _ => ⟨fun dt hdt => ?_, trivial⟩
  cases hdt
  have hset : Battery.setpointOf (rackServer 1 60 6 6784).meter.holding = 400000 :=
    congrArg Int.cast (show (readI32 _ setpoint).toInt = 400000 by decide +kernel)
  have hκ : (rackServer 1 60 6 6784).battery.percentPerWatt (.fromSecs 1) = 1 / 138744000 := by
    show ((1 * 1000000000 : ℕ) : ℚ) / 1000000000 * 1 / 3600 / 1000 / 3854 * 100 = _
    norm_num
  rw [hset]
  refine ⟨Or.inr (Or.inr (Or.inr ?_)), Or.inl (by norm_num), ?_⟩
  · rw [hκ]
    show min (400000 : ℚ) 1927000 * (20 + 1927000 * (1 / 138744000)) ≤ 1927000 * 60
    norm_num
  · show min (-400000 : ℚ) 1927000 < 2 ^ 31 - 1 / 2
    norm_num

/-- At 10 % SoC a full discharge setpoint is cut to 963500 W; a second later the image still says 963500 W, beside a
discharge limit of 962831 W. -/
theorem published_above_limit : ∃ s, Run Server.Step (rackServer 1 10 29 26456) [.step (.fromSecs 1)] s ∧
    Along Server.Step (fun s o _ => Undriven s o) (rackServer 1 10 29 26456) [.step (.fromSecs 1)] ∧
    (readI32 s.meter.holding activePower).toInt = 963500 ∧ (readI32 s.meter.holding maxDischarge).toInt = 962831 ∧
    ¬ WithinLimits s.meter.holding := by
  obtain ⟨s, hs⟩ := rackServer_steps 1 10 one_pos (by norm_num) (by norm_num) 29 26456
    (.fromSecs 1)
  have hset : Battery.setpointOf (rackServer 1 10 29 26456).meter.holding = 1927000 :=
    congrArg Int.cast (show (readI32 _ setpoint).toInt = 1927000 by decide +kernel)
  have hp : (rackServer 1 10 29 26456).battery.delivered 1927000 = 963500 := by
    show max (-((1927000 : ℚ) * max 0 (min ((100 - 10) / 10) 1))) (min 1927000 (1927000 * max 0 (min (10 / 20) 1))) = _
    norm_num
  obtain ⟨-, ha, hpub⟩ := (Battery.step_rat_iff (Finset.notMem_empty _)).1 (Server.step_step_iff.1 hs).1
  obtain ⟨hact, -, -, hmd⟩ := Battery.publish_reads (fun a _ => Finset.notMem_empty a) Battery.limits_rat hpub
  rw [hset, hp] at hact ha
  have hsoc := Battery.advance_socPercent ha
  have htarget : (rackServer 1 10 29 26456).battery.target 963500 (.fromSecs 1) = 1439 / 144 := by
    show (10 : ℚ) - 963500 * (((1 * 1000000000 : ℕ) : ℚ) / 1000000000 * 1 / 3600) / 1000 / 3854 * 100 = _
    norm_num
  rw [htarget] at hsoc
  rw [Battery.advance_config ha, hsoc] at hmd
  have hactive : (readI32 s.meter.holding activePower).toInt = 963500 := by
    rw [hact]
    decide +kernel
  have hlimit : (readI32 s.meter.holding maxDischarge).toInt = 962831 := by
    rw [hmd]
    show (roundI32 (dischargeLimit 1927000 _)).toInt = _
    decide +kernel
  refine ⟨s, Run.cons hs (Run.nil s), undriven_rackServer, hactive, hlimit, fun h => ?_⟩
  have := h.2
  omega

end EmsFixtures.Modbus
