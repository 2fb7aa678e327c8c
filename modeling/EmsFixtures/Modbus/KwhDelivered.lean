import EmsFixtures.Lib.Sawtooth
import EmsFixtures.Modbus.DeviceRegisters

/-!
# The energy a POI meter counts

`kwh_delivered` is an int64 at 3204-3207 of which the simulator moves the low words.  The saturating addition of its
tick falls back to `min` as the sawtooth over the naturals does (`toNat_tick`), so as long as nobody writes the
register, after any run it reads as the number of ticks modulo the period says, with both high words zero
(`kwh_delivered`).
-/

namespace EmsFixtures.Modbus

open HashMap Panics Runs Driven

/-! ### The tick -/

/-- The band of a channel, over the naturals. -/
def Int32SawtoothSim.band (sim : Int32SawtoothSim) : Sawtooth ℕ :=
  { min := sim.min.toNat, max := sim.max.toNat, step := sim.step.toNat }

/-- What a tick makes of a channel's value. -/
def Int32SawtoothSim.advance (sim : Int32SawtoothSim) (value : UInt32) : UInt32 :=
  if saturatingAdd value sim.step > sim.max then sim.min else saturatingAdd value sim.step

theorem toNat_saturatingAdd (x y : UInt32) : (saturatingAdd x y).toNat = min (x.toNat + y.toNat) (2 ^ 32 - 1) := by
  unfold saturatingAdd UInt32.ofNatClamp
  split
  · rename_i h
    rw [UInt32.toNat_ofNatLT]
    rw [UInt32.size] at h
    omega
  · rename_i h
    rw [UInt32.size] at h
    show 2 ^ 32 - 1 = _
    omega

/-- A sum that saturates is above every band but one that ends at the largest `u32`. -/
theorem toNat_advance {sim : Int32SawtoothSim} (h : sim.max.toNat < 2 ^ 32 - 1) (value : UInt32) :
    (sim.advance value).toNat = sim.band.next value.toNat := by
  have hsum := toNat_saturatingAdd value sim.step
  unfold Int32SawtoothSim.advance Sawtooth.next Int32SawtoothSim.band
  simp only [gt_iff_lt, UInt32.lt_iff_toNat_lt, hsum]
  by_cases hover : sim.max.toNat < value.toNat + sim.step.toNat
  · rw [if_pos (by omega), if_pos hover]
  · rw [if_neg (by omega), if_neg hover, hsum]
    omega

/-- The value of a channel, an absent word being zero. -/
def Int32SawtoothSim.read (sim : Int32SawtoothSim) (holding : Registers) : UInt32 :=
  Words.join ((holding.lookup sim.addrHigh).getD 0) ((holding.lookup sim.addrLow).getD 0)

theorem read_tickOne {driven : Finset UInt16} {holding : Registers} (sim : Int32SawtoothSim)
    (hapart : sim.addrHigh ≠ sim.addrLow) (hhigh : sim.addrHigh ∉ driven) (hlow : sim.addrLow ∉ driven) :
    sim.read (Simulator.tickOne driven holding sim) = sim.advance (sim.read holding) := by
  have htick : Simulator.tickOne driven holding sim = (holding.insert sim.addrHigh
      (Words.high (sim.advance (sim.read holding)))).insert sim.addrLow (Words.low (sim.advance (sim.read holding))) :=
    if_neg (by simp [hhigh, hlow])
  rw [Int32SawtoothSim.read, htick, Finmap.lookup_insert_of_ne _ hapart, Finmap.lookup_insert, Finmap.lookup_insert,
    Option.getD_some, Option.getD_some, Words.join_high_low]

/-- `kwh_delivered`'s channel. -/
def kwhDelivered : Int32SawtoothSim := { addrHigh := 3206, addrLow := 3207, min := 1000000, max := 1010000, step := 100 }

theorem kwhDelivered_hasPeriod : kwhDelivered.band.HasPeriod 101 := by
  constructor <;> decide

/-! ### Runs -/

section Runs

variable {F : Type} [F64 F] {d₀ d d' : Device F} {o : DeviceOp F}

/-- An iteration of the simulator's loop. -/
def DeviceOp.isSimulate : DeviceOp F → Bool
  | .simulate _ => true
  | _ => false

/-- The registers of `kwh_delivered`. -/
def kwhRegisters : List UInt16 := [3204, 3205, 3206, 3207]

theorem lookup_of_spares (hspares : o.Spares kwhRegisters d.meter.writable) (ho : o.isSimulate = false) (h : d.Step o d')
    {a : UInt16} (ha : a ∈ kwhRegisters) : d'.meter.holding.lookup a = d.meter.holding.lookup a := by
  by_cases hb : (o.onServer d.battery.isSome).Background
  · cases o with
    | put registers => exact hb.elim
    | writeSingle index value => exact hb.elim
    | writeMultiple values => exact hb.elim
    | simulate dt => cases ho
    | poi pW =>
      have hapart : ∀ a ∈ kwhRegisters, a ≠ poiActivePower ∧ a ≠ poiActivePower + 1 :=
        List.forall_iff_forall_mem.1 (by decide)
      cases h.2
      show (writePoiPower d.meter.holding d.meter.driven pW).lookup a = _
      rw [writePoiPower_eq_putI32, lookup_putI32_of_ne (hapart a ha).1 (hapart a ha).2]
  · exact Device.lookup_of_external hb hspares h ha

theorem read_of_simulate {dt : Duration} (hb : d.battery = none) (hd : 3206 ∉ d.meter.driven)
    (hd' : 3207 ∉ d.meter.driven) (h : d.Step (.simulate dt) d') :
    kwhDelivered.read d'.meter.holding = kwhDelivered.advance (kwhDelivered.read d.meter.holding) := by
  have hop : d.simulate dt = .ok d' := h.2
  unfold Device.simulate at hop
  rw [hb] at hop
  cases hop
  exact read_tickOne kwhDelivered (by decide) hd hd'

/-- After a run that nobody disturbs the channel has risen once for every tick. -/
theorem read_of_run {ops : List (DeviceOp F)} (hd : d₀.WellFormed) (hdriven : d₀.meter.driven = ∅)
    (hprofile : d₀.profile = .poiMeter) (hboot : kwhDelivered.read d₀.meter.holding = 1000000)
    (h : Run Device.Step d₀ ops d) (hspares : ∀ o ∈ ops, o.Spares kwhRegisters d₀.meter.writable) :
    (kwhDelivered.read d.meter.holding).toNat = kwhDelivered.band.value 101 (ops.countP DeviceOp.isSimulate) := by
  have hstart : (kwhDelivered.read d₀.meter.holding).toNat = kwhDelivered.band.value 101 0 := by
    rw [hboot]
    rfl
  have hsteps : Along Device.Step (fun d o d' => (kwhDelivered.read d'.meter.holding).toNat =
      if o.isSimulate then kwhDelivered.band.next (kwhDelivered.read d.meter.holding).toNat
      else (kwhDelivered.read d.meter.holding).toNat) d₀ ops := by
    rw [along_iff_after]
    rintro pre o post rfl d d' hrun hstep
    have hf := Device.follows_of_run hd hrun
    have hpre : ∀ o ∈ pre, o.Spares kwhRegisters d₀.meter.writable := fun o ho => hspares o (by simp [ho])
    have hundriven : ∀ {a : UInt16}, a ∈ kwhRegisters → a ∉ d.meter.driven :=
      fun ha => Device.undriven_of_spares hd hdriven hrun hpre ha
    by_cases ho : o.isSimulate = true
    · cases o with
      | simulate dt =>
        have hb : d.battery = none := by
          have := (hf.wellFormed hd).battery
          rw [hf.profile, hprofile] at this
          simpa using this
        rw [if_pos ho, read_of_simulate hb (hundriven (by decide)) (hundriven (by decide)) hstep]
        exact toNat_advance (by decide) _
      | put registers => cases ho
      | writeSingle index value => cases ho
      | writeMultiple values => cases ho
      | poi pW => cases ho
    · have hkeep : ∀ {a : UInt16}, a ∈ kwhRegisters → d'.meter.holding.lookup a = d.meter.holding.lookup a :=
        fun ha => lookup_of_spares (hf.gate ▸ hspares o (by simp)) (Bool.not_eq_true _ ▸ ho) hstep ha
      have hread : kwhDelivered.read d'.meter.holding = kwhDelivered.read d.meter.holding := by
        unfold Int32SawtoothSim.read kwhDelivered
        rw [hkeep (by decide), hkeep (by decide)]
      rw [if_neg ho, hread]
  have hvalue := Sawtooth.value_of_along kwhDelivered_hasPeriod h hstart hsteps
  rwa [Nat.zero_add] at hvalue

/-- On a POI meter that nobody writes `kwh_delivered` to, its four registers read after any run as an int64 that has
risen by 100 Wh a tick from 1 MWh and started again every 101 ticks. -/
theorem kwh_delivered (parse : String → Option F) (env : EnvVars) (d₀ : Device F)
    (hboot : Device.boot parse env = .ok (.ok d₀)) (hprofile : d₀.profile = .poiMeter) (ops : List (DeviceOp F))
    (hspares : ∀ o ∈ ops, o.Spares kwhRegisters d₀.meter.writable) (d : Device F) (h : Run Device.Step d₀ ops d) :
    ∃ words, d.meter.readHoldingRegisters 3204 4 = .ok words ∧
      (Words.concat words).toInt64.toInt = 1000000 + 100 * ((ops.countP DeviceOp.isSimulate % 101 : ℕ) : ℤ) := by
  obtain ⟨hd, hdriven⟩ := Device.boot_wellFormed hboot
  have himage := Device.boot_poiMeter hboot hprofile
  have hf := Device.follows_of_run hd h
  have hlookup : ∀ e ∈ [((3204 : UInt16), (0 : UInt16)), (3205, 0), (3206, 0x000F), (3207, 0x4240)],
      PoiMeter.holdingRegisters.lookup e.1 = some e.2 := by
    unfold PoiMeter.holdingRegisters
    simp only [lookup_ofList]
    exact List.forall_iff_forall_mem.1 (by decide)
  have hstart : kwhDelivered.read d₀.meter.holding = 1000000 := by
    have h3206 := hlookup (3206, 0x000F) (by simp)
    have h3207 := hlookup (3207, 0x4240) (by simp)
    simp only at h3206 h3207
    unfold Int32SawtoothSim.read kwhDelivered
    rw [himage, h3206, h3207]
    rfl
  -- the high words are static, the low words are mapped
  have hstatic : ∀ a ∈ [(3204 : UInt16), 3205], d.meter.readHoldingRegister a = .ok 0 := by
    intro a ha
    have hkwh : ∀ a ∈ [(3204 : UInt16), 3205], a ∈ kwhRegisters ∧ a ∉ Profile.poiMeter.live ∧
      (a, (0 : UInt16)) ∈ [((3204 : UInt16), (0 : UInt16)), (3205, 0), (3206, 0x000F), (3207, 0x4240)] :=
      List.forall_iff_forall_mem.1 (by decide)
    have hundriven := Device.undriven_of_spares hd hdriven h hspares (hkwh a ha).1
    rw [readHoldingRegister_eq_ok_iff, hf.static a (hprofile ▸ (hkwh a ha).2.1) hundriven, himage]
    exact hlookup _ (hkwh a ha).2.2
  have hmapped : ∀ a ∈ [(3206 : UInt16), 3207], ∃ w, d.meter.holding.lookup a = some w := by
    intro a ha
    have hlive : ∀ a ∈ [(3206 : UInt16), 3207], a ∈ Profile.poiMeter.live := List.forall_iff_forall_mem.1 (by decide)
    exact Finmap.mem_iff.1 (hf.mapped a (hd.live a (hprofile ▸ hlive a ha)))
  obtain ⟨high, hhigh⟩ := hmapped 3206 (by simp)
  obtain ⟨low, hlow⟩ := hmapped 3207 (by simp)
  have hvalue := read_of_run hd hdriven hprofile hstart h hspares
  have hread : kwhDelivered.read d.meter.holding = Words.join high low := by
    unfold Int32SawtoothSim.read kwhDelivered
    rw [hhigh, hlow]
    rfl
  rw [hread] at hvalue
  refine ⟨[0, 0, high, low], ?_, ?_⟩
  · show [0, 1, 2, 3].mapM (fun i => d.meter.readHoldingRegister (3204 + UInt16.ofNat i)) = _
    have h0 : d.meter.readHoldingRegister 3204 = .ok 0 := hstatic 3204 (by simp)
    have h1 : d.meter.readHoldingRegister 3205 = .ok 0 := hstatic 3205 (by simp)
    have h2 : d.meter.readHoldingRegister 3206 = .ok high := readHoldingRegister_eq_ok_iff.2 hhigh
    have h3 : d.meter.readHoldingRegister 3207 = .ok low := readHoldingRegister_eq_ok_iff.2 hlow
    simp [List.mapM_cons, h0, h1, h2, h3]
    rfl
  · have hlt : ops.countP DeviceOp.isSimulate % 101 < 101 := Nat.mod_lt _ (by decide)
    have hnat : (Words.concat [0, 0, high, low]).toNat = 1000000 + (ops.countP DeviceOp.isSimulate % 101) * 100 :=
      (Words.toNat_concat_join high low).trans hvalue
    have hint : (Words.concat [0, 0, high, low]).toInt64.toInt = (Words.concat [0, 0, high, low]).toNat := by
      refine BitVec.toInt_eq_toNat_of_lt ?_
      show 2 * (Words.concat [0, 0, high, low]).toNat < 2 ^ 64
      omega
    rw [hint, hnat]
    omega

end Runs

/-- The default meter, whose frequency is written between its second and its third tick. -/
theorem kwh_delivered_three_ticks : ∃ d₀ d : Device ExtRat,
    Device.boot ExtRat.parse (fun _ => none) = .ok (.ok d₀) ∧
    Run Device.Step d₀ [.simulate (.fromSecs 1), .simulate (.fromSecs 1), .put [(3110, 7)], .simulate (.fromSecs 1)] d ∧
    ∃ words, d.meter.readHoldingRegisters 3204 4 = .ok words ∧ (Words.concat words).toInt64.toInt = 1000300 := by
  obtain ⟨d₀, hboot, hprofile, hgate, d, hrun⟩ : ∃ d₀ : Device ExtRat,
      Device.boot ExtRat.parse (fun _ => none) = .ok (.ok d₀) ∧ d₀.profile = .poiMeter ∧ d₀.meter.writable = false ∧
      ∃ d, Run Device.Step d₀ [.simulate (.fromSecs 1), .simulate (.fromSecs 1), .put [(3110, 7)],
        .simulate (.fromSecs 1)] d :=
    ⟨_, rfl, rfl, rfl, _, Run.cons ⟨Or.inl rfl, rfl⟩ (Run.cons ⟨Or.inl rfl, rfl⟩ (Run.cons ⟨trivial, rfl⟩
      (Run.cons ⟨Or.inl rfl, rfl⟩ (Run.nil _))))⟩
  have hspares : ∀ o ∈ [DeviceOp.simulate (F := ExtRat) (.fromSecs 1), .simulate (.fromSecs 1), .put [(3110, 7)],
      .simulate (.fromSecs 1)], o.Spares kwhRegisters d₀.meter.writable := by
    rw [hgate]
    decide
  exact ⟨d₀, d, hboot, hrun, kwh_delivered _ _ d₀ hboot hprofile _ hspares d hrun⟩

end EmsFixtures.Modbus
