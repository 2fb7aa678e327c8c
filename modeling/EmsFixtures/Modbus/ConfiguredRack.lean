import EmsFixtures.Lib.EnvVars
import EmsFixtures.Lib.ExtRat
import EmsFixtures.Modbus.DrivenRegisters
import EmsFixtures.Modbus.ExactRack

/-!
# A rack configured from the environment

`from_env` of `battery.rs`, with `f64` read as extended rationals.  The check on the SoC refuses infinities and NaN,
the check on the time scale lets both through.  A rack with a finite time scale steps as the rack over `ℚ` does
(`Battery.step_lift`) and never panics; with any other, the first step of an idle rack turns its SoC into NaN and the
second finds NaN limits.
-/

namespace EmsFixtures.Modbus

open HashMap Panics Runs ExtRat

/-- The texts `from_env` fails with, by what they say. -/
inductive EnvError (F : Type) where
  | notANumber (e : NotANumber)
  | initialSocPercent (got : F)
  | timeScale (got : F)
  deriving DecidableEq

section FromEnv

variable {F : Type} [F64 F] (parse : String → Option F) (env : EnvVars)

/-- Build a rack and its initial registers from env. -/
def fromEnv : Except Panic (Except (EnvError F) (Battery F × Registers)) :=
  match envF64 parse env "BATTERY_TIME_SCALE" (F64.lit 1) with
  | .error e => pure (.error (.notANumber e))
  | .ok timeScale =>
    match envF64 parse env "BATTERY_INITIAL_SOC_PERCENT" (F64.lit 60) with
    | .error e => pure (.error (.notANumber e))
    | .ok soc =>
      if ¬ (F64.le (F64.lit 0) soc ∧ F64.le soc (F64.lit 100)) then pure (.error (.initialSocPercent soc))
      -- a NaN is not `<= 0`
      else if F64.le timeScale (F64.lit 0) then pure (.error (.timeScale timeScale))
      else do
        let registers ← initialRegisters soc (F64.lit 1927000)
        pure (.ok (Battery.rack timeScale soc, registers))

theorem fromEnv_eq_ok_iff {battery : Battery F} {registers : Registers} :
    fromEnv parse env = .ok (.ok (battery, registers)) ↔
      ∃ timeScale soc, envF64 parse env "BATTERY_TIME_SCALE" (F64.lit 1) = .ok timeScale ∧
        envF64 parse env "BATTERY_INITIAL_SOC_PERCENT" (F64.lit 60) = .ok soc ∧
        (F64.le (F64.lit 0) soc ∧ F64.le soc (F64.lit 100)) ∧ ¬ F64.le timeScale (F64.lit 0) ∧
        initialRegisters soc (F64.lit 1927000) = .ok registers ∧ battery = Battery.rack timeScale soc := by
  unfold fromEnv
  cases ht : envF64 parse env "BATTERY_TIME_SCALE" (F64.lit 1) with
  | error e => simp [pure, Except.pure]
  | ok timeScale =>
    cases hs : envF64 parse env "BATTERY_INITIAL_SOC_PERCENT" (F64.lit 60) with
    | error e => simp [pure, Except.pure]
    | ok soc =>
      simp only
      constructor
      · intro h
        split at h
        · cases h
        · rename_i hsoc
          split at h
          · cases h
          · rename_i hscale
            obtain ⟨r, hr, he⟩ := bind_eq_ok_iff.1 h
            cases he
            exact ⟨timeScale, soc, rfl, rfl, not_not.1 hsoc, hscale, hr, rfl⟩
      · intro h
        obtain ⟨_, _, ⟨⟩, ⟨⟩, hsoc, hscale, hr, rfl⟩ := h
        rw [if_neg (not_not.2 hsoc), if_neg hscale]
        exact bind_eq_ok_iff.2 ⟨registers, hr, rfl⟩

end FromEnv

/-! ### Finite racks -/

theorem maxDischargeW_finite (ratedW socPercent : ℚ) :
    maxDischargeW (finite ratedW) (finite socPercent) = .ok (finite (dischargeLimit ratedW socPercent)) := by
  show (F64.clamp (finite socPercent / finite 20) (finite 0) (finite 1) >>= fun taper =>
    pure (finite ratedW * taper)) = _
  rw [finite_div _ (by norm_num), finite_clamp, F64.rat_clamp (by norm_num)]
  rfl

theorem maxChargeW_finite (ratedW socPercent : ℚ) :
    maxChargeW (finite ratedW) (finite socPercent) = .ok (finite (chargeLimit ratedW socPercent)) := by
  show (F64.clamp ((finite 100 - finite socPercent) / (finite 100 - finite 90)) (finite 0) (finite 1) >>= fun taper =>
    pure (finite ratedW * taper)) = _
  rw [finite_sub, finite_sub, show (100 : ℚ) - 90 = 10 by norm_num, finite_div _ (by norm_num), finite_clamp,
    F64.rat_clamp (by norm_num)]
  rfl

theorem returns_initialRegisters (soc ratedW : ℚ) : Returns (initialRegisters (finite soc) (finite ratedW)) := by
  unfold initialRegisters
  exact returns_bind_iff.2 ⟨_, maxChargeW_finite ratedW soc,
    returns_bind_iff.2 ⟨_, maxDischargeW_finite ratedW soc, returns_pure _⟩⟩

namespace Battery

/-- A rack of finite numbers as a rack of extended ones. -/
def lift (b : Battery ℚ) : Battery ExtRat :=
  { config := { capacityKwh := finite b.config.capacityKwh, powerLimitW := finite b.config.powerLimitW
                timeScale := finite b.config.timeScale }
    socPercent := finite b.socPercent, energyDischargedWh := finite b.energyDischargedWh }

variable {b : Battery ℚ} {holding : Registers} {driven : Finset UInt16} {dt : Duration}

theorem limits_lift : b.lift.limits = .ok (finite (chargeLimit b.config.powerLimitW b.socPercent),
    finite (dischargeLimit b.config.powerLimitW b.socPercent)) := by
  show (maxChargeW (finite b.config.powerLimitW) (finite b.socPercent) >>= fun charge =>
    maxDischargeW (finite b.config.powerLimitW) (finite b.socPercent) >>= fun discharge =>
      pure (charge, discharge)) = _
  rw [maxChargeW_finite, maxDischargeW_finite]
  rfl

theorem deliverable_lift (setpointW : ℚ) :
    b.lift.deliverable (finite setpointW) = (b.deliverable setpointW).map finite := by
  unfold deliverable
  rw [limits_lift, limits_rat]
  exact finite_clamp _ _ _

theorem takeDrivenSoc_lift :
    b.lift.takeDrivenSoc holding driven = (b.takeDrivenSoc holding driven).map lift := by
  unfold takeDrivenSoc
  by_cases h : soc ∈ driven
  · rw [if_pos h, if_pos h]
    cases holding.lookup soc with
    | none => rfl
    | some raw => rfl
  · rw [if_neg h, if_neg h]
    rfl

theorem simHours_lift : b.lift.simHours dt = finite (b.simHours dt) := by
  show finite _ * finite b.config.timeScale / finite 3600 = _
  rw [finite_mul, finite_div _ (by norm_num)]
  rfl

theorem advance_lift (hcap : b.config.capacityKwh ≠ 0) (power : ℚ) :
    b.lift.advance (finite power) dt = (b.advance power dt).map lift := by
  have htarget : finite b.socPercent - finite power * b.lift.simHours dt / finite 1000 /
      finite b.config.capacityKwh * finite 100 = finite (b.target power dt) := by
    rw [simHours_lift, finite_mul, finite_div _ (by norm_num), finite_div _ hcap, finite_mul, finite_sub]
    rfl
  show (F64.clamp (finite b.socPercent - finite power * b.lift.simHours dt / finite 1000 /
    finite b.config.capacityKwh * finite 100) (finite 0) (finite 100) >>= fun socPercent => pure { b.lift with
      socPercent
      energyDischargedWh := if decide (0 < power) = true then finite b.energyDischargedWh +
        finite power * b.lift.simHours dt else finite b.energyDischargedWh }) = _
  rw [htarget, finite_clamp, F64.rat_clamp (by norm_num), advance_rat, simHours_lift]
  by_cases hp : 0 < power <;> simp [hp, Except.map, bind, Except.bind, pure, Except.pure, lift]

theorem publish_lift (power : ℚ) :
    b.lift.publish holding driven (finite power) = b.publish holding driven power := by
  have hpub := publish_rat (b := b) holding driven power
  rw [hpub]
  exact publish_eq_ok_iff.2 ⟨_, _, limits_lift, rfl⟩

/-- A rack of finite numbers steps as the rack over `ℚ`. -/
theorem step_lift {b' : Battery ℚ} {holding' : Registers} (hcap : b.config.capacityKwh ≠ 0)
    (h : b.step holding driven dt = .ok (b', holding')) :
    b.lift.step holding driven dt = .ok (b'.lift, holding') := by
  obtain ⟨b₁, power, h₁, hpower, hadvance, hpub⟩ := step_eq_ok_iff.1 h
  have hcap₁ : b₁.config.capacityKwh ≠ 0 := by rwa [takeDrivenSoc_config h₁]
  refine step_eq_ok_iff.2 ⟨b₁.lift, finite power, ?_, ?_, ?_, ?_⟩
  · rw [takeDrivenSoc_lift, h₁]
    rfl
  · have hpower' := deliverable_lift (b := b₁) ((readI32 holding setpoint).toInt : ℚ)
    rw [show b₁.deliverable ((readI32 holding setpoint).toInt : ℚ) = .ok power from hpower] at hpower'
    exact hpower'
  · rw [advance_lift hcap₁, hadvance]
    rfl
  · rw [publish_lift, hpub]

theorem returns_takeDrivenSoc {F : Type} [F64 F] {b : Battery F} (h : soc ∈ driven → soc ∈ holding) :
    Returns (b.takeDrivenSoc holding driven) := by
  unfold takeDrivenSoc
  split
  · rename_i hd
    obtain ⟨raw, hraw⟩ := Finmap.mem_iff.1 (h hd)
    rw [hraw]
    exact returns_ok _
  · exact returns_ok _

theorem limits_ordered (hP : 0 ≤ b.config.powerLimitW) :
    -chargeLimit b.config.powerLimitW b.socPercent ≤ dischargeLimit b.config.powerLimitW b.socPercent :=
  (neg_nonpos.2 (chargeLimit_nonneg hP _)).trans (dischargeLimit_nonneg hP _)

/-- A rack over `ℚ` with a non-negative rating panics only on the index of a driven SoC that is absent. -/
theorem exists_step (dt : Duration) (hP : 0 ≤ b.config.powerLimitW) (h : soc ∈ driven → soc ∈ holding) :
    ∃ b' holding', b.step holding driven dt = .ok (b', holding') := by
  obtain ⟨b₁, h₁⟩ := returns_takeDrivenSoc (b := b) h
  have hP₁ : 0 ≤ b₁.config.powerLimitW := by rwa [takeDrivenSoc_config h₁]
  exact ⟨_, _, step_eq_ok_iff.2 ⟨b₁, _, h₁, deliverable_rat_iff.2 ⟨limits_ordered hP₁, rfl⟩, advance_rat _ dt,
    publish_rat _ _ _⟩⟩

end Battery

/-! ### The server of a finite rack -/

/-- The battery is one of finite numbers, with a capacity and a non-negative rating. -/
def FiniteRack (s : Server ExtRat) : Prop :=
  ∃ b : Battery ℚ, s.battery = b.lift ∧ b.config.capacityKwh ≠ 0 ∧ 0 ≤ b.config.powerLimitW

/-- No operation panics, and the step of the battery indexes a SoC that is there and clamps to limits in order. -/
structure NeverPanics (s : Server ExtRat) : Prop where
  returns : ∀ o, Returns (s.op o)
  soc_present : soc ∈ s.meter.driven → soc ∈ s.meter.holding
  limits : ∀ b, s.battery.takeDrivenSoc s.meter.holding s.meter.driven = .ok b →
    ∃ charge discharge, b.limits = .ok (charge, discharge) ∧ F64.le (-charge) discharge

theorem FiniteRack.step {s t : Server ExtRat} {o : Op ExtRat} (hs : FiniteRack s)
    (hsoc : soc ∈ s.meter.driven → soc ∈ s.meter.holding) (h : s.Step o t) : FiniteRack t := by
  obtain ⟨b, hb, hcap, hP⟩ := hs
  cases o with
  | step dt =>
    obtain ⟨b', holding', hstep⟩ := Battery.exists_step dt hP hsoc
    have hconfig := Battery.step_config hstep
    have ht := (Server.step_step_iff.1 h).1
    rw [hb, Battery.step_lift hcap hstep] at ht
    have hbattery : t.battery = b'.lift := (congrArg Prod.fst (Except.ok.inj ht)).symm
    exact ⟨b', hbattery, by rwa [hconfig], by rwa [hconfig]⟩
  | put registers => cases h; exact ⟨b, hb, hcap, hP⟩
  | writeSingle index value => cases h; exact ⟨b, hb, hcap, hP⟩
  | writeMultiple values => cases h; exact ⟨b, hb, hcap, hP⟩
  | tick => cases h; exact ⟨b, hb, hcap, hP⟩
  | poi pW => cases h; exact ⟨b, hb, hcap, hP⟩

theorem FiniteRack.neverPanics {s : Server ExtRat} (hs : FiniteRack s)
    (hsoc : soc ∈ s.meter.driven → soc ∈ s.meter.holding) : NeverPanics s := by
  obtain ⟨b, hb, hcap, hP⟩ := hs
  refine ⟨fun o => ?_, hsoc, fun b₁ h₁ => ?_⟩
  · cases o with
    | step dt =>
      obtain ⟨b', holding', hstep⟩ := Battery.exists_step dt hP hsoc
      refine returns_bind_iff.2 ⟨(b'.lift, holding'), ?_, returns_pure _⟩
      rw [hb]
      exact Battery.step_lift hcap hstep
    | put registers => exact returns_ok _
    | writeSingle index value => exact returns_ok _
    | writeMultiple values => exact returns_ok _
    | tick => exact returns_ok _
    | poi pW => exact returns_ok _
  · obtain ⟨b₂, h₂⟩ := Battery.returns_takeDrivenSoc (b := b) hsoc
    have hP₂ : 0 ≤ b₂.config.powerLimitW := by rwa [Battery.takeDrivenSoc_config h₂]
    rw [hb, Battery.takeDrivenSoc_lift, h₂] at h₁
    cases h₁
    refine ⟨_, _, Battery.limits_lift, ?_⟩
    rw [finite_neg, finite_le, decide_eq_true_eq]
    exact Battery.limits_ordered hP₂

/-! ### A time scale that is not finite -/

namespace Battery

/-- On a SoC that is no number the limits are none either. -/
theorem limits_nan {b : Battery ExtRat} (hsoc : b.socPercent = nan) : b.limits = .ok (nan, nan) := by
  have hclamp : F64.clamp nan (F64.lit 0 : ExtRat) (F64.lit 1) = .ok nan := nan_clamp (by norm_num)
  have hcharge : maxChargeW b.config.powerLimitW nan = .ok nan := by
    show (F64.clamp ((F64.lit 100 - nan) / (F64.lit 100 - chargeTaperAbovePercent)) (F64.lit 0 : ExtRat) (F64.lit 1) >>=
      fun taper => pure (b.config.powerLimitW * taper)) = .ok nan
    rw [sub_nan, nan_div, hclamp]
    exact congrArg Except.ok (mul_nan _)
  have hdischarge : maxDischargeW b.config.powerLimitW nan = .ok nan := by
    show (F64.clamp (nan / dischargeTaperBelowPercent) (F64.lit 0 : ExtRat) (F64.lit 1) >>=
      fun taper => pure (b.config.powerLimitW * taper)) = .ok nan
    rw [nan_div, hclamp]
    exact congrArg Except.ok (mul_nan _)
  unfold limits
  rw [hsoc, hcharge, hdischarge]
  rfl

/-- An idle tick at a time scale that is not finite loses the SoC. -/
theorem advance_nan {b : Battery ExtRat} (hscale : ¬ b.config.timeScale.IsFinite) (dt : Duration) :
    ∃ b', b.advance (finite 0) dt = .ok b' ∧ b'.socPercent = nan := by
  have hhours : ¬ (b.simHours dt).IsFinite := by
    show ¬ (finite _ * b.config.timeScale / finite 3600).IsFinite
    generalize ((dt.nanos : ℚ) / 1000000000) = secs
    cases hs : b.config.timeScale with
    | nan => rintro ⟨q, ⟨⟩⟩
    | finite q => exact absurd ⟨q, hs⟩ hscale
    | inf sign =>
      rintro ⟨q, hq⟩
      have hmul : finite secs * inf sign = infOfSign sign secs := rfl
      rw [hmul, infOfSign] at hq
      split at hq <;> cases hq
  refine ⟨_, bind_eq_ok_iff.2 ⟨nan, ?_, rfl⟩, rfl⟩
  rw [finite_zero_mul hhours, nan_div, nan_div, nan_mul, sub_nan]
  exact nan_clamp (by norm_num)

end Battery

private theorem lookup_booted (w a : UInt16) (ha : a = setpoint ∨ a = setpoint + 1) :
    (ofList [(soc, w), (10, 0), (11, 0), (12, 0), (13, 0), (20, 4800), (22, 6000), (30, 0), (31, 0),
      (operatingState, standby), (setpoint, 0), (setpoint + 1, 0)]).lookup a = some 0 := by
  refine (lookup_ofList_eq_some_iff ?_).2 ?_
  · show [soc, 10, 11, 12, 13, 20, 22, 30, 31, operatingState, setpoint, setpoint + 1].Nodup
    decide
  rcases ha with rfl | rfl <;> simp

theorem setpoint_initialRegisters {soc ratedW : ExtRat} {registers : Registers}
    (h : initialRegisters soc ratedW = .ok registers) : readI32 registers setpoint = 0 := by
  obtain ⟨charge, -, h⟩ := bind_eq_ok_iff.1 h
  obtain ⟨discharge, -, h⟩ := bind_eq_ok_iff.1 h
  cases h
  rw [readI32_putI32_of_ne (by decide) (by decide), readI32_putI32_of_ne (by decide) (by decide), readI32,
    lookup_booted _ _ (Or.inl rfl), lookup_booted _ _ (Or.inr rfl)]
  rfl

/-- A rack just booted at a time scale that is not finite panics on its second idle step. -/
theorem second_step_panics {timeScale : ExtRat} {q : ℚ} {registers : Registers}
    (hscale : ¬ timeScale.IsFinite) (hr : initialRegisters (finite q) (finite 1927000) = .ok registers)
    (dt : Duration) :
    ∃ s, Run Server.Step (Server.start registers ∅ true (Battery.rack timeScale (finite q))) [.step dt] s ∧
      s.op (.step dt) = .error .clampBounds := by
  have hboot : (Battery.rack timeScale (finite q)).limits =
      .ok (finite (chargeLimit 1927000 q), finite (dischargeLimit 1927000 q)) := by
    show (maxChargeW (finite 1927000) (finite q) >>= fun charge =>
      maxDischargeW (finite 1927000) (finite q) >>= fun discharge => pure (charge, discharge)) = _
    rw [maxChargeW_finite, maxDischargeW_finite]
    rfl
  have hidle : (Battery.rack timeScale (finite q)).deliverable (finite 0) = .ok (finite 0) := by
    unfold Battery.deliverable
    rw [hboot]
    show F64.clamp (finite 0) (finite (-chargeLimit 1927000 q)) (finite (dischargeLimit 1927000 q)) = _
    have hrated : (0 : ℚ) ≤ 1927000 := by norm_num
    have hc := chargeLimit_nonneg hrated q
    have hd := dischargeLimit_nonneg hrated q
    rw [finite_clamp, F64.rat_clamp (by linarith), min_eq_left hd, max_eq_right (by linarith)]
    rfl
  -- the tick itself returns, with a SoC that is no number
  obtain ⟨b', hadvance, hsoc⟩ := Battery.advance_nan (b := Battery.rack timeScale (finite q)) hscale dt
  have hlimits := Battery.limits_nan hsoc
  have hset : (F64.lit (readI32 registers setpoint).toInt : ExtRat) = finite 0 := by
    rw [setpoint_initialRegisters hr]
    rfl
  obtain ⟨holding', hpub⟩ : ∃ holding', b'.publish registers ∅ (finite 0) = .ok holding' :=
    ⟨_, Battery.publish_eq_ok_iff.2 ⟨nan, nan, hlimits, rfl⟩⟩
  have hstep := Battery.step_eq_ok_iff.2 ⟨_, finite 0, Battery.takeDrivenSoc_of_notMem (Finset.notMem_empty soc),
    by rw [hset]; exact hidle, hadvance, hpub⟩
  have hfirst : (Server.start registers ∅ true (Battery.rack timeScale (finite q))).Step (.step dt)
      ⟨{ holding := holding', input := ∅, driven := ∅, writable := true }, b'⟩ :=
    Server.step_step_iff.2 ⟨hstep, rfl⟩
  refine ⟨_, Run.cons hfirst (Run.nil _), ?_⟩
  have hpanic : b'.deliverable (F64.lit (readI32 holding' setpoint).toInt) = .error .clampBounds := by
    unfold Battery.deliverable
    rw [hlimits]
    rfl
  show (b'.step holding' ∅ dt >>= _) = _
  unfold Battery.step
  rw [Battery.takeDrivenSoc_of_notMem (Finset.notMem_empty soc)]
  show (b'.deliverable _ >>= _) >>= _ = _
  rw [hpanic]
  rfl

/-- Whatever the strings `from_env` accepts, no run of the rack's server panics, with the SoC it indexes present and
the limits it clamps to in order, iff the time scale is finite. -/
theorem configured_rack_iff (parse : String → Option ExtRat) (env : EnvVars) {battery : Battery ExtRat}
    {registers : Registers} (h : fromEnv parse env = .ok (.ok (battery, registers))) :
    (∀ ops s, Run Server.Step (Server.start registers ∅ true battery) ops s → NeverPanics s) ↔
      ∃ q, envF64 parse env "BATTERY_TIME_SCALE" (finite 1) = .ok (finite q) := by
  obtain ⟨timeScale, soc, hscale, -, hsoc, -, hr, rfl⟩ := (fromEnv_eq_ok_iff parse env).1 h
  obtain ⟨q, rfl⟩ := isFinite_of_in_range hsoc
  have hfinite : (∃ T, envF64 parse env "BATTERY_TIME_SCALE" (finite 1) = .ok (finite T)) ↔ timeScale.IsFinite := by
    rw [show envF64 parse env "BATTERY_TIME_SCALE" (finite 1) = .ok timeScale from hscale]
    simp [ExtRat.IsFinite]
  rw [hfinite]
  constructor
  · intro hall
    by_contra hnot
    obtain ⟨s, hs, hpanic⟩ := second_step_panics hnot hr (.fromSecs 1)
    obtain ⟨t, ht⟩ := (hall _ s hs).returns (.step (.fromSecs 1))
    rw [hpanic] at ht
    cases ht
  · rintro ⟨T, rfl⟩ ops s hs
    have hpresent : ∀ {ops : List (Op ExtRat)} {s : Server ExtRat},
        Run Server.Step (Server.start registers ∅ true (Battery.rack (finite T) (finite q))) ops s →
        Modbus.soc ∈ s.meter.driven → Modbus.soc ∈ s.meter.holding := by
      intro ops s hs hd
      obtain ⟨v, -, hv⟩ := Server.driven_agree hs _ hd
      exact mem_of_lookup hv
    have hrack : FiniteRack s := by
      induction ops using List.reverseRecOn generalizing s with
      | nil =>
        obtain rfl := run_nil_iff.1 hs
        exact ⟨Battery.rack T q, rfl, by norm_num [Battery.rack, Battery.new], by norm_num [Battery.rack, Battery.new]⟩
      | append_singleton ops o ih =>
        obtain ⟨u, hu, hv⟩ := run_concat_iff.1 hs
        exact (ih u hu).step (hpresent hu) hv
    exact hrack.neverPanics (hpresent hs)

/-- An environment that sets both variables. -/
def bothSet (timeScale soc : String) : EnvVars := fun name =>
  if name = "BATTERY_TIME_SCALE" then some timeScale
  else if name = "BATTERY_INITIAL_SOC_PERCENT" then some soc
  else none

theorem configured_rack_iff_sixty : ∃ battery registers,
    fromEnv ExtRat.parse (bothSet "60" "12.5") = .ok (.ok (battery, registers)) ∧
      ∀ ops s, Run Server.Step (Server.start registers ∅ true battery) ops s → NeverPanics s := by
  have hscale : envF64 ExtRat.parse (bothSet "60" "12.5") "BATTERY_TIME_SCALE" (finite 1) = .ok (finite 60) := by
    decide +kernel
  have hsoc : envF64 ExtRat.parse (bothSet "60" "12.5") "BATTERY_INITIAL_SOC_PERCENT" (finite 60) =
      .ok (finite (25 / 2)) := by decide +kernel
  obtain ⟨registers, hr⟩ := returns_initialRegisters (25 / 2) 1927000
  have henv := (fromEnv_eq_ok_iff ExtRat.parse (bothSet "60" "12.5")).2
    ⟨_, _, hscale, hsoc, by simp; norm_num, by simp, hr, rfl⟩
  exact ⟨_, _, henv, (configured_rack_iff _ _ henv).2 ⟨60, hscale⟩⟩

/-- `BATTERY_TIME_SCALE=NaN` is accepted; the second tick of the idle rack panics. -/
theorem nan_time_scale_panics : ∃ battery registers s,
    fromEnv ExtRat.parse (bothSet "NaN" "60") = .ok (.ok (battery, registers)) ∧
      Run Server.Step (Server.start registers ∅ true battery) [.step (.fromSecs 1)] s ∧
      s.op (.step (.fromSecs 1)) = .error .clampBounds ∧ ¬ NeverPanics s := by
  have hscale : envF64 ExtRat.parse (bothSet "NaN" "60") "BATTERY_TIME_SCALE" (finite 1) = .ok nan := by
    decide +kernel
  have hsoc : envF64 ExtRat.parse (bothSet "NaN" "60") "BATTERY_INITIAL_SOC_PERCENT" (finite 60) =
      .ok (finite 60) := by decide +kernel
  obtain ⟨registers, hr⟩ := returns_initialRegisters 60 1927000
  have hnan : ¬ nan.IsFinite := by rintro ⟨q, ⟨⟩⟩
  obtain ⟨s, hs, hpanic⟩ := second_step_panics hnan hr (.fromSecs 1)
  refine ⟨_, _, s, (fromEnv_eq_ok_iff _ _).2 ⟨_, _, hscale, hsoc, ?_, ?_, hr, rfl⟩, hs, hpanic, fun h => ?_⟩
  · rw [finite_lit, finite_lit, finite_le, finite_le]
    norm_num
  · rw [nan_le]
    exact Bool.false_ne_true
  · obtain ⟨t, ht⟩ := h.returns (.step (.fromSecs 1))
    rw [hpanic] at ht
    cases ht

end EmsFixtures.Modbus
