import EmsFixtures.Lib.Float32
import EmsFixtures.Modbus.DeviceRegisters

/-!
# The power a POI meter shows

The tracker publishes P_poi as the two words of a float32.  The pair belongs to it alone, so between two publishes the
meter shows the last one, whatever else runs on the server; a client that decodes the words gets the published power to
half a unit in the last place, and a whole number of watts up to 2^24 exactly (`poi_register_decodes`).
-/

namespace EmsFixtures.Modbus

open HashMap Panics Runs

/-- The words of active_power. -/
def poiRegisters : List UInt16 := [poiActivePower, poiActivePower + 1]

/-- The power an operation publishes. -/
def DeviceOp.published {F : Type} : DeviceOp F → Option F
  | .poi pW => some pW
  | _ => none

/-- The power published last. -/
def lastPublished {F : Type} (ops : List (DeviceOp F)) : Option F := (ops.filterMap DeviceOp.published).getLast?

theorem lastPublished_concat {F : Type} (ops : List (DeviceOp F)) (o : DeviceOp F) :
    lastPublished (ops ++ [o]) = o.published.or (lastPublished ops) := by
  unfold lastPublished
  rw [List.filterMap_append]
  cases ho : o.published with
  | none => simp [ho]
  | some pW => simp [ho]

section Shown

variable {F : Type} [F64 F] {d₀ d d' : Device F} {o : DeviceOp F}

/-- The bits of the last publish, those of zero before the first. -/
def shownBits (published : Option F) : UInt32 :=
  match published with
  | some pW => F64.toF32Bits pW
  | none => 0

/-- The pair holds the two words of `raw`. -/
structure Shows (d : Device F) (raw : UInt32) : Prop where
  high : d.meter.holding.lookup poiActivePower = some (Words.high raw)
  low : d.meter.holding.lookup (poiActivePower + 1) = some (Words.low raw)

theorem shows_poi {pW : F} (hd : ∀ a ∈ poiRegisters, a ∉ d.meter.driven) (h : d.Step (.poi pW) d') :
    Shows d' (F64.toF32Bits pW) := by
  cases h.2
  have hpair := lookup_putI32 d.meter.holding (F64.toF32Bits pW).toInt32 (hd poiActivePower (by simp [poiRegisters]))
    (hd (poiActivePower + 1) (by simp [poiRegisters]))
  rw [← writePoiPower_eq_putI32] at hpair
  exact ⟨hpair.1, hpair.2⟩

/-- An operation that publishes nothing leaves the pair alone. -/
theorem Shows.step {raw : UInt32} (h : Shows d raw) (hb : d.battery = none)
    (hspares : o.Spares poiRegisters d.meter.writable) (ho : o.published = none) (hstep : d.Step o d') :
    Shows d' raw := by
  have hkeep : ∀ a ∈ poiRegisters, d'.meter.holding.lookup a = d.meter.holding.lookup a := by
    intro a ha
    by_cases hback : (o.onServer d.battery.isSome).Background
    · cases o with
      | put registers => exact hback.elim
      | writeSingle index value => exact hback.elim
      | writeMultiple values => exact hback.elim
      | poi pW => cases ho
      | simulate dt =>
        have hop : d.simulate dt = .ok d' := hstep.2
        unfold Device.simulate at hop
        rw [hb] at hop
        cases hop
        obtain ⟨value, hv⟩ := tick_eq_putI32 d.meter.holding d.meter.driven
        have hapart : ∀ a ∈ poiRegisters, a ≠ 3206 ∧ a ≠ 3206 + 1 := List.forall_iff_forall_mem.1 (by decide)
        show (Simulator.tick d.meter.holding d.meter.driven).lookup a = _
        rw [hv, lookup_putI32_of_ne (hapart a ha).1 (hapart a ha).2]
    · exact Device.lookup_of_external hback hspares hstep ha
  refine ⟨?_, ?_⟩
  · rw [hkeep poiActivePower (by simp [poiRegisters])]
    exact h.high
  · rw [hkeep (poiActivePower + 1) (by simp [poiRegisters])]
    exact h.low

/-- A POI meter as it boots, with zero in the pair. -/
structure BootedMeter (d : Device F) : Prop where
  wellFormed : d.WellFormed
  profile : d.profile = .poiMeter
  undriven : d.meter.driven = ∅
  shows : Shows d 0

theorem bootedMeter {parse : String → Option F} {env : EnvVars} (h : Device.boot parse env = .ok (.ok d))
    (hprofile : d.profile = .poiMeter) : BootedMeter d := by
  obtain ⟨hd, hdriven⟩ := Device.boot_wellFormed h
  have hlookup : ∀ a ∈ poiRegisters, PoiMeter.holdingRegisters.lookup a = some 0 := by
    unfold PoiMeter.holdingRegisters
    simp only [lookup_ofList]
    exact List.forall_iff_forall_mem.1 (by decide)
  have himage := Device.boot_poiMeter h hprofile
  refine ⟨hd, hprofile, hdriven, ?_, ?_⟩
  · rw [himage]
    exact hlookup poiActivePower (by simp [poiRegisters])
  · rw [himage]
    exact hlookup (poiActivePower + 1) (by simp [poiRegisters])

/-- After a run that spares the pair it shows the last publish. -/
theorem shows_of_run {ops : List (DeviceOp F)} (hd : BootedMeter d₀) (h : Run Device.Step d₀ ops d)
    (hspares : ∀ o ∈ ops, o.Spares poiRegisters d₀.meter.writable) : Shows d (shownBits (lastPublished ops)) := by
  induction ops using List.reverseRecOn generalizing d with
  | nil =>
    obtain rfl := run_nil_iff.1 h
    exact hd.shows
  | append_singleton ops o ih =>
    obtain ⟨u, hu, hstep⟩ := run_concat_iff.1 h
    have hpre : ∀ o ∈ ops, o.Spares poiRegisters d₀.meter.writable := fun o ho => hspares o (by simp [ho])
    have hf := Device.follows_of_run hd.wellFormed hu
    rw [lastPublished_concat]
    cases ho : o.published with
    | some pW =>
      have hundriven : ∀ a ∈ poiRegisters, a ∉ u.meter.driven :=
        fun a ha => Device.undriven_of_spares hd.wellFormed hd.undriven hu hpre ha
      have hpoi : o = .poi pW := by
        cases o <;> cases ho
        rfl
      rw [hpoi] at hstep
      exact shows_poi hundriven hstep
    | none =>
      have hb : u.battery = none := by
        have := (hf.wellFormed hd.wellFormed).battery
        rw [hf.profile, hd.profile] at this
        simpa using this
      exact (ih hu hpre).step hb (hf.gate ▸ hspares o (by simp)) ho hstep

end Shown

/-! ### What a client decodes -/

/-- What a client takes two consecutive words for, the high one first. -/
def decodeFloat32 : List UInt16 → Option ℚ
  | [high, low] => Float32.f32Value (Words.join high low)
  | _ => none

/-- `shown` is as near to what was published as a float32 is, zero standing for nothing published. -/
def NearPublished (published : Option ℚ) (shown : Option ℚ) : Prop :=
  match published with
  | none => shown = some 0
  | some pW => |pW| < Float32.overflow → ∃ y, shown = some y ∧ |y - pW| ≤ max (|pW| / 2 ^ 24) (1 / 2 ^ 150) ∧
      ∀ n : ℤ, pW = n → |n| ≤ 2 ^ 24 → y = pW

theorem readHoldingRegisters_of_shows {d : Device ℚ} {raw : UInt32} (h : Shows d raw) :
    d.meter.readHoldingRegisters poiActivePower 2 = .ok [Words.high raw, Words.low raw] := by
  show [0, 1].mapM (fun i => d.meter.readHoldingRegister (poiActivePower + UInt16.ofNat i)) = _
  have h0 : d.meter.readHoldingRegister (poiActivePower + UInt16.ofNat 0) = .ok (Words.high raw) :=
    readHoldingRegister_eq_ok_iff.2 h.high
  have h1 : d.meter.readHoldingRegister (poiActivePower + UInt16.ofNat 1) = .ok (Words.low raw) :=
    readHoldingRegister_eq_ok_iff.2 h.low
  rw [List.mapM_cons, h0, List.mapM_cons, h1]
  rfl

theorem nearPublished_of_shows {d : Device ℚ} {published : Option ℚ} (h : Shows d (shownBits published)) :
    ∃ words, d.meter.readHoldingRegisters poiActivePower 2 = .ok words ∧
      NearPublished published (decodeFloat32 words) := by
  refine ⟨_, readHoldingRegisters_of_shows h, ?_⟩
  have hdecode : decodeFloat32 [Words.high (shownBits published), Words.low (shownBits published)] =
      Float32.f32Value (shownBits published) := congrArg Float32.f32Value (Words.join_high_low _)
  rw [hdecode]
  cases published with
  | none =>
    show Float32.f32Value 0 = some 0
    decide +kernel
  | some pW =>
    intro hfits
    refine ⟨_, Float32.f32Value_f32Bits hfits, Float32.abs_rounded_sub_le_max pW, fun n hn hsmall => ?_⟩
    rw [hn]
    exact Float32.rounded_intCast hsmall

/-- After any run of a POI meter in which nobody writes active_power from outside, its two registers decode to the
power published last. -/
theorem poi_register_decodes (parse : String → Option ℚ) (env : EnvVars) (d₀ : Device ℚ)
    (hboot : Device.boot parse env = .ok (.ok d₀)) (hprofile : d₀.profile = .poiMeter) (ops : List (DeviceOp ℚ))
    (hspares : ∀ o ∈ ops, o.Spares poiRegisters d₀.meter.writable) (d : Device ℚ) (h : Run Device.Step d₀ ops d) :
    ∃ words, d.meter.readHoldingRegisters poiActivePower 2 = .ok words ∧
      NearPublished (lastPublished ops) (decodeFloat32 words) :=
  nearPublished_of_shows (shows_of_run (bootedMeter hboot hprofile) h hspares)

/-- A site that imports 1 234 567 W, read after its frequency was written and the simulator has ticked. -/
theorem poi_register_decodes_import : ∃ d₀ d : Device ℚ,
    Device.boot (fun raw => ExtRat.parseNumber raw.toList) (fun _ => none) = .ok (.ok d₀) ∧
    Run Device.Step d₀ [.poi 1234567, .put [(3110, 7)], .simulate (.fromSecs 1)] d ∧
    ∃ words, d.meter.readHoldingRegisters poiActivePower 2 = .ok words ∧ decodeFloat32 words = some 1234567 := by
  obtain ⟨d₀, hboot, hprofile, hgate, d, hrun⟩ : ∃ d₀ : Device ℚ,
      Device.boot (fun raw => ExtRat.parseNumber raw.toList) (fun _ => none) = .ok (.ok d₀) ∧
      d₀.profile = .poiMeter ∧ d₀.meter.writable = false ∧
      ∃ d, Run Device.Step d₀ [.poi 1234567, .put [(3110, 7)], .simulate (.fromSecs 1)] d :=
    ⟨_, rfl, rfl, rfl, _, Run.cons ⟨rfl, rfl⟩ (Run.cons ⟨trivial, rfl⟩ (Run.cons ⟨Or.inl rfl, rfl⟩ (Run.nil _)))⟩
  have hspares : ∀ o ∈ [DeviceOp.poi (1234567 : ℚ), .put [(3110, 7)], .simulate (.fromSecs 1)],
      o.Spares poiRegisters d₀.meter.writable := by
    rw [hgate]
    decide
  obtain ⟨words, hwords, hnear⟩ := poi_register_decodes _ _ d₀ hboot hprofile _ hspares d hrun
  have hfits : |(1234567 : ℚ)| < Float32.overflow := by
    unfold Float32.overflow
    norm_num
  obtain ⟨y, hy, -, hexact⟩ := hnear hfits
  rw [hexact 1234567 rfl (by norm_num)] at hy
  exact ⟨d₀, d, hboot, hrun, words, hwords, hy⟩

end EmsFixtures.Modbus
