import EmsFixtures.Modbus.Device

/-!
# What a device's registers read

A device is a server whose background tasks are those of its profile (`Device.step_server`).  What it answers a read of
any address is known after every run: the last write accepted for it; else, off the registers its profile keeps live,
what it booted with; on these, some value and never an exception (`device_registers`).
-/

namespace EmsFixtures.Modbus

open HashMap Panics Runs Driven

variable {F : Type} [F64 F]

namespace Device

/-! ### A device is a server -/

/-- The handler and the battery; a device without one is given an idle one, which nothing steps. -/
def server (d : Device F) (idle : Battery F) : Server F := { meter := d.meter, battery := d.battery.getD idle }

def store (d : Device F) : Store UInt16 UInt16 := ⟨d.meter.holding, d.meter.driven⟩

variable {d d' d₀ : Device F} {o : DeviceOp F}

theorem step_server (idle : Battery F) (h : d.Step o d') :
    (d.server idle).Step (o.onServer d.battery.isSome) (d'.server idle) := by
  obtain ⟨-, h⟩ := h
  cases o with
  | put registers => cases h; rfl
  | writeSingle index value => cases h; rfl
  | writeMultiple values => cases h; rfl
  | poi pW => cases h; rfl
  | simulate dt =>
    change d.simulate dt = .ok d' at h
    unfold simulate at h
    cases hb : d.battery with
    | none =>
      rw [hb] at h
      cases h
      simp [Server.Step, Server.op, DeviceOp.onServer, server, hb]
    | some b =>
      rw [hb] at h
      obtain ⟨⟨b', holding⟩, hstep, h⟩ := bind_eq_ok_iff.1 h
      cases h
      refine Server.step_step_iff.2 ⟨?_, rfl⟩
      simpa [server, hb] using hstep

/-- No operation gives a device another profile, or a battery it had none of. -/
theorem step_shape (h : d.Step o d') : d'.profile = d.profile ∧ d'.battery.isSome = d.battery.isSome := by
  obtain ⟨-, h⟩ := h
  cases o with
  | put registers => cases h; exact ⟨rfl, rfl⟩
  | writeSingle index value => cases h; exact ⟨rfl, rfl⟩
  | writeMultiple values => cases h; exact ⟨rfl, rfl⟩
  | poi pW => cases h; exact ⟨rfl, rfl⟩
  | simulate dt =>
    change d.simulate dt = .ok d' at h
    unfold simulate at h
    cases hb : d.battery with
    | none =>
      rw [hb] at h
      cases h
      exact ⟨rfl, rfl⟩
    | some b =>
      rw [hb] at h
      obtain ⟨⟨b', holding⟩, -, h⟩ := bind_eq_ok_iff.1 h
      cases h
      exact ⟨rfl, rfl⟩

/-- A battery for a server whose device has none. -/
def idle : Battery F := Battery.new ⟨F64.lit 0, F64.lit 0, F64.lit 0⟩ (F64.lit 0)

theorem step_writes (h : d.Step o d') : Writes d.store (o.external d.meter.writable) d'.store := by
  have hw := Server.step_writes (step_server idle h)
  rwa [external_onServer] at hw

/-- A write from outside is accepted in full or changes nothing. -/
theorem step_external (ho : ¬ (o.onServer d.battery.isSome).Background) (h : d.Step o d') :
    d'.meter = { d.meter with
      holding := d.meter.holding.insertAll (o.external d.meter.writable)
      driven := d.meter.driven ∪ ((o.external d.meter.writable).map Prod.fst).toFinset } := by
  have hmeter := congrArg Server.meter (Server.external_writes ho (step_server idle h))
  rwa [external_onServer] at hmeter

/-! ### A booted device -/

/-- The battery is the rack's, and the registers the profile keeps live are mapped. -/
structure WellFormed (d : Device F) : Prop where
  battery : d.battery.isSome ↔ d.profile = .bessRack
  live : ∀ a ∈ d.profile.live, a ∈ d.meter.holding

theorem mem_initialRegisters {socPercent ratedW : F} {registers : Registers}
    (h : initialRegisters socPercent ratedW = .ok registers) {a : UInt16} (ha : a ∈ Battery.published) :
    a ∈ registers := by
  obtain ⟨charge, -, h⟩ := bind_eq_ok_iff.1 h
  obtain ⟨discharge, -, h⟩ := bind_eq_ok_iff.1 h
  cases h
  have hmem : ∀ a ∈ Battery.published, a = maxDischarge + 1 ∨ a = maxDischarge ∨ a = maxCharge + 1 ∨ a = maxCharge ∨
      a ∈ [soc, 10, 11, 12, 13, 20, 22, 30, 31, operatingState, setpoint, setpoint + 1] :=
    List.forall_iff_forall_mem.1 (by decide)
  rw [putI32, if_neg (by simp), putI32, if_neg (by simp)]
  simp only [Finmap.mem_insert, mem_ofList]
  exact hmem a ha

/-- The devices `main` boots. -/
theorem boot_cases {parse : String → Option F} {env : EnvVars} (h : boot parse env = .ok (.ok d)) :
    d = { profile := .poiMeter, meter := handler env .poiMeter PoiMeter.holdingRegisters ∅, battery := none } ∨
    (∃ battery holding, fromEnv parse env = .ok (.ok (battery, holding)) ∧
      d = { profile := .bessRack, meter := handler env .bessRack holding ∅, battery := some battery }) ∨
    d = { profile := .dcExternal
          meter := handler env .dcExternal DcExternal.holdingRegisters DcExternal.inputRegisters, battery := none } ∨
    d = { profile := .pvInverter, meter := handler env .pvInverter PvInverter.holdingRegisters ∅, battery := none } := by
  unfold boot at h
  simp only at h
  split at h
  · cases h
    exact Or.inl rfl
  · obtain ⟨r, hr, h⟩ := bind_eq_ok_iff.1 h
    cases r with
    | error e => cases h
    | ok r =>
      cases h
      exact Or.inr (Or.inl ⟨r.1, r.2, hr, rfl⟩)
  · cases h
    exact Or.inr (Or.inr (Or.inl rfl))
  · cases h
    exact Or.inr (Or.inr (Or.inr rfl))
  · cases h

theorem boot_wellFormed {parse : String → Option F} {env : EnvVars} (h : boot parse env = .ok (.ok d)) :
    d.WellFormed ∧ d.meter.driven = ∅ := by
  rcases boot_cases h with rfl | ⟨battery, holding, henv, rfl⟩ | rfl | rfl
  · have hlive : ∀ a ∈ Profile.poiMeter.live, a ∈ PoiMeter.holdingRegisters := by
      unfold PoiMeter.holdingRegisters
      simp only [mem_ofList]
      exact List.forall_iff_forall_mem.1 (by decide)
    exact ⟨⟨by simp, hlive⟩, rfl⟩
  · obtain ⟨_, _, -, -, -, -, hregs, -⟩ := (fromEnv_eq_ok_iff parse env).1 henv
    exact ⟨⟨by simp, fun a ha => mem_initialRegisters hregs ha⟩, rfl⟩
  · exact ⟨⟨by simp, fun a ha => by cases ha⟩, rfl⟩
  · exact ⟨⟨by simp, fun a ha => by cases ha⟩, rfl⟩

theorem boot_poiMeter {parse : String → Option F} {env : EnvVars} (h : boot parse env = .ok (.ok d))
    (hprofile : d.profile = .poiMeter) : d.meter.holding = PoiMeter.holdingRegisters := by
  rcases boot_cases h with rfl | ⟨battery, holding, -, rfl⟩ | rfl | rfl
  · rfl
  · cases hprofile
  · cases hprofile
  · cases hprofile

theorem boot_bessRack {parse : String → Option F} {env : EnvVars} (h : boot parse env = .ok (.ok d))
    (hprofile : d.profile = .bessRack) :
    ∃ battery, fromEnv parse env = .ok (.ok (battery, d.meter.holding)) ∧ d.battery = some battery := by
  rcases boot_cases h with rfl | ⟨battery, holding, henv, rfl⟩ | rfl | rfl
  · cases hprofile
  · exact ⟨battery, henv, rfl⟩
  · cases hprofile
  · cases hprofile

/-! ### One operation -/

/-- A task of the device rewrites registers its profile keeps live and nothing else. -/
theorem step_background (hd : d.WellFormed) (ho : (o.onServer d.battery.isSome).Background) (h : d.Step o d') :
    d'.meter = { d.meter with holding := d'.meter.holding } ∧
      Rewrites d.profile.live d.meter.holding d'.meter.holding := by
  obtain ⟨hspawned, hop⟩ := h
  cases o with
  | put registers => exact ho.elim
  | writeSingle index value => exact ho.elim
  | writeMultiple values => exact ho.elim
  | poi pW =>
    cases hop
    rw [show d.profile = .poiMeter from hspawned]
    exact ⟨rfl, rewrites_writePoiPower _ _ pW⟩
  | simulate dt =>
    change d.simulate dt = .ok d' at hop
    unfold simulate at hop
    cases hb : d.battery with
    | none =>
      have hprofile : d.profile = .poiMeter := by simpa [Spawned, hb] using hspawned
      rw [hb] at hop
      cases hop
      rw [hprofile]
      exact ⟨rfl, rewrites_tick _ _⟩
    | some b =>
      have hprofile : d.profile = .bessRack := hd.battery.1 (by rw [hb]; rfl)
      rw [hb] at hop
      obtain ⟨⟨b', holding⟩, hstep, hop⟩ := bind_eq_ok_iff.1 hop
      cases hop
      rw [hprofile]
      exact ⟨rfl, Battery.step_rewrites hstep⟩

/-- What `d` has kept of `d₀`. -/
structure Follows (d₀ d : Device F) : Prop where
  profile : d.profile = d₀.profile
  battery : d.battery.isSome = d₀.battery.isSome
  gate : d.meter.writable = d₀.meter.writable
  input : d.meter.input = d₀.meter.input
  mapped : ∀ a ∈ d₀.meter.holding, a ∈ d.meter.holding
  static : ∀ a ∉ d₀.profile.live, a ∉ d.meter.driven → d.meter.holding.lookup a = d₀.meter.holding.lookup a

omit [F64 F] in
theorem Follows.refl (d : Device F) : Follows d d := ⟨rfl, rfl, rfl, rfl, fun _ ha => ha, fun _ _ _ => rfl⟩

omit [F64 F] in
theorem Follows.wellFormed (h : Follows d₀ d) (hd : d₀.WellFormed) : d.WellFormed := by
  refine ⟨?_, fun a ha => h.mapped a (hd.live a ?_)⟩
  · rw [h.battery, h.profile]
    exact hd.battery
  · rwa [← h.profile]

theorem Follows.step (h : Follows d₀ d) (hd : d₀.WellFormed) (hstep : d.Step o d') : Follows d₀ d' := by
  obtain ⟨hprofile, hbattery⟩ := step_shape hstep
  by_cases ho : (o.onServer d.battery.isSome).Background
  · obtain ⟨hmeter, hrewrites⟩ := step_background (h.wellFormed hd) ho hstep
    rw [h.profile] at hrewrites
    refine ⟨hprofile.trans h.profile, hbattery.trans h.battery, ?_, ?_, ?_, ?_⟩
    · rw [hmeter]; exact h.gate
    · rw [hmeter]; exact h.input
    · exact fun a ha => hrewrites.mem a (h.mapped a ha)
    · intro a ha hundriven
      rw [hrewrites.keep a ha]
      exact h.static a ha (by rwa [hmeter] at hundriven)
  · have hmeter := step_external ho hstep
    refine ⟨hprofile.trans h.profile, hbattery.trans h.battery, ?_, ?_, ?_, ?_⟩
    · rw [hmeter]; exact h.gate
    · rw [hmeter]; exact h.input
    · rw [hmeter]; exact fun a ha => mem_insertAll.2 (Or.inl (h.mapped a ha))
    · -- what is not driven now was not written
      intro a ha hundriven
      rw [hmeter] at hundriven ⊢
      rw [Finset.mem_union, not_or, List.mem_toFinset] at hundriven
      rw [lookup_insertAll, lastIn_eq_none.2 hundriven.2, Option.none_or]
      exact h.static a ha hundriven.1

/-- A write from outside leaves the registers it spares. -/
theorem lookup_of_external {registers : List UInt16} (ho : ¬ (o.onServer d.battery.isSome).Background)
    (hspares : o.Spares registers d.meter.writable) (h : d.Step o d') {a : UInt16} (ha : a ∈ registers) :
    d'.meter.holding.lookup a = d.meter.holding.lookup a := by
  rw [step_external ho h]
  show (d.meter.holding.insertAll _).lookup a = _
  rw [lookup_insertAll, lastIn_eq_none.2 (hspares a ha), Option.none_or]

/-! ### Runs -/

variable {parse : String → Option F} {env : EnvVars} {ops : List (DeviceOp F)}

theorem follows_of_run (hd : d₀.WellFormed) (h : Run Step d₀ ops d) : Follows d₀ d :=
  h.invariant (fun _ _ _ hf hstep => hf.step hd hstep) (Follows.refl d₀)

theorem along_writes (hd : d₀.WellFormed) :
    Along Step (fun d o d' => Writes d.store (o.external d₀.meter.writable) d'.store) d₀ ops := by
  rw [along_iff_after]
  rintro pre o post - d d' hrun hstep
  rw [← (follows_of_run hd hrun).gate]
  exact step_writes hstep

/-- The driven registers of a run are those with an accepted write, and hold the last one. -/
theorem driven_of_run (hd : d₀.WellFormed) (hdriven : d₀.meter.driven = ∅) (h : Run Step d₀ ops d) :
    (∀ a, a ∈ d.meter.driven ↔ (lastWrite (DeviceOp.external d₀.meter.writable) ops a).isSome) ∧
      Agrees d.store (lastWrite (DeviceOp.external d₀.meter.writable) ops) := by
  have hnone : ∀ a, a ∉ d₀.store.driven := by simp [store, hdriven]
  constructor
  · intro a
    have hmem := mem_driven_of_run store h (along_writes hd) (k := a)
    rw [or_iff_right (hnone a)] at hmem
    exact hmem
  · have hagree : Agrees d.store fun a => (lastWrite (DeviceOp.external d₀.meter.writable) ops a).or none :=
      agrees_of_run store (fun _ => none) h (fun a ha => absurd ha (hnone a)) (along_writes hd)
    simpa using hagree

/-- A register nobody writes is not driven. -/
theorem undriven_of_spares {registers : List UInt16} (hd : d₀.WellFormed) (hdriven : d₀.meter.driven = ∅)
    (h : Run Step d₀ ops d) (hspares : ∀ o ∈ ops, o.Spares registers d₀.meter.writable) {a : UInt16}
    (ha : a ∈ registers) : a ∉ d.meter.driven := by
  have hnone : ∀ {ops : List (DeviceOp F)}, (∀ o ∈ ops, o.Spares registers d₀.meter.writable) →
      lastWrite (DeviceOp.external d₀.meter.writable) ops a = none := by
    intro ops
    induction ops with
    | nil => exact fun _ => rfl
    | cons o ops ih =>
      intro hspares
      have hrest := ih fun o' ho' => hspares o' (List.mem_cons_of_mem _ ho')
      have hfirst := lastIn_eq_none.2 (hspares o List.mem_cons_self a ha)
      rw [lastWrite, hrest, hfirst]
      rfl
  rw [(driven_of_run hd hdriven h).1 a, hnone hspares]
  simp

end Device

/-- A read of `count` consecutive holding registers: their words, or the first exception. -/
def MeterHandler.readHoldingRegisters (h : MeterHandler) (address : UInt16) (count : ℕ) :
    Except ExceptionCode (List UInt16) :=
  (List.range count).mapM fun i => h.readHoldingRegister (address + UInt16.ofNat i)

/-- What a device answers a read of holding register `a` with, `written` being the last write accepted for it: that
value; else what the booted device `d₀` answers, or on a register its profile keeps live some value. -/
def AnswersRead (d₀ d : Device F) (a : UInt16) : Option UInt16 → Prop
  | some v => d.meter.readHoldingRegister a = .ok v
  | none => if a ∈ d₀.profile.live then ∃ v, d.meter.readHoldingRegister a = .ok v
    else d.meter.readHoldingRegister a = d₀.meter.readHoldingRegister a

theorem readHoldingRegister_eq_ok_iff {h : MeterHandler} {a v : UInt16} :
    h.readHoldingRegister a = .ok v ↔ h.holding.lookup a = some v := by
  unfold MeterHandler.readHoldingRegister
  cases h.holding.lookup a <;> simp

theorem readHoldingRegister_eq_error_iff {h : MeterHandler} {a : UInt16} :
    h.readHoldingRegister a = .error .illegalDataAddress ↔ a ∉ h.holding := by
  unfold MeterHandler.readHoldingRegister
  rw [← Finmap.lookup_eq_none]
  cases h.holding.lookup a <;> simp

theorem answersRead_of_run {d₀ d : Device F} (hd : d₀.WellFormed) (hdriven : d₀.meter.driven = ∅)
    {ops : List (DeviceOp F)} (h : Run Device.Step d₀ ops d) (a : UInt16) :
    AnswersRead d₀ d a (lastWrite (DeviceOp.external d₀.meter.writable) ops a) := by
  have hf := Device.follows_of_run hd h
  obtain ⟨hmem, hagree⟩ := Device.driven_of_run hd hdriven h
  cases hw : lastWrite (DeviceOp.external d₀.meter.writable) ops a with
  | some v =>
    obtain ⟨w, hlast, hlookup⟩ := hagree a ((hmem a).2 (by rw [hw]; rfl))
    obtain rfl : v = w := Option.some.inj (hw.symm.trans hlast)
    exact readHoldingRegister_eq_ok_iff.2 hlookup
  | none =>
    by_cases hlive : a ∈ d₀.profile.live
    · obtain ⟨v, hv⟩ := Finmap.mem_iff.1 (hf.mapped a (hd.live a hlive))
      simpa [AnswersRead, hlive] using ⟨v, readHoldingRegister_eq_ok_iff.2 hv⟩
    · have hundriven : a ∉ d.meter.driven := fun ha => by simpa [hw] using (hmem a).1 ha
      simp only [AnswersRead, hlive, if_false]
      unfold MeterHandler.readHoldingRegister
      rw [hf.static a hlive hundriven]

/-- For every environment and every run of the device it boots: holding registers answer by what was last written or
by what the profile maps, so a register is an illegal address exactly if neither names it, and input registers never
change. -/
theorem device_registers (parse : String → Option F) (env : EnvVars) (d₀ : Device F)
    (hboot : Device.boot parse env = .ok (.ok d₀)) (ops : List (DeviceOp F)) (d : Device F)
    (h : Run Device.Step d₀ ops d) :
    (∀ a, AnswersRead d₀ d a (lastWrite (DeviceOp.external d₀.meter.writable) ops a)) ∧
    (∀ a, d.meter.readHoldingRegister a = .error .illegalDataAddress ↔
      lastWrite (DeviceOp.external d₀.meter.writable) ops a = none ∧ a ∉ d₀.meter.holding) ∧
    ∀ a, d.meter.readInputRegister a = d₀.meter.readInputRegister a := by
  obtain ⟨hd, hdriven⟩ := Device.boot_wellFormed hboot
  refine ⟨answersRead_of_run hd hdriven h, fun a => ?_, fun a => ?_⟩
  · have ha := answersRead_of_run hd hdriven h a
    cases hw : lastWrite (DeviceOp.external d₀.meter.writable) ops a with
    | some v =>
      rw [hw, AnswersRead] at ha
      simp [ha]
    | none =>
      rw [hw] at ha
      by_cases hlive : a ∈ d₀.profile.live
      · obtain ⟨v, hv⟩ : ∃ v, d.meter.readHoldingRegister a = .ok v := by simpa [AnswersRead, hlive] using ha
        simp [hv, hd.live a hlive]
      · simp only [AnswersRead, hlive, if_false] at ha
        rw [ha, readHoldingRegister_eq_error_iff]
        simp
  · unfold MeterHandler.readInputRegister
    rw [(Device.follows_of_run hd h).input]

/-- A dry cooler after its setpoint was written over Modbus and an address it does not map through the control
surface. -/
theorem device_registers_cooler : ∃ d₀ d : Device ExtRat,
    Device.boot ExtRat.parse (fun name => if name = "MODBUS_PROFILE" then some "dc_external" else none) =
      .ok (.ok d₀) ∧
    Run Device.Step d₀ [.writeSingle 53257 250, .put [(7, 1)]] d ∧
    d.meter.readHoldingRegister 53257 = .ok 250 ∧ d.meter.readHoldingRegister 7 = .ok 1 ∧
    d.meter.readHoldingRegister 53249 = d₀.meter.readHoldingRegister 53249 ∧
    d.meter.readInputRegister 53508 = d₀.meter.readInputRegister 53508 := by
  obtain ⟨d₀, hboot, hprofile, hgate, d, hrun⟩ : ∃ d₀ : Device ExtRat,
      Device.boot ExtRat.parse (fun name => if name = "MODBUS_PROFILE" then some "dc_external" else none) =
        .ok (.ok d₀) ∧ d₀.profile = .dcExternal ∧ d₀.meter.writable = true ∧
      ∃ d, Run Device.Step d₀ [.writeSingle 53257 250, .put [(7, 1)]] d :=
    ⟨_, rfl, rfl, rfl, _, Run.cons ⟨trivial, rfl⟩ (Run.cons ⟨trivial, rfl⟩ (Run.nil _))⟩
  obtain ⟨hholding, -, hinput⟩ := device_registers _ _ d₀ hboot _ d hrun
  have hset := hholding 53257
  have hput := hholding 7
  have hmode := hholding 53249
  rw [hgate] at hset hput hmode
  refine ⟨d₀, d, hboot, hrun, hset, hput, ?_, hinput 53508⟩
  have hlive : ¬ (53249 : UInt16) ∈ d₀.profile.live := by rw [hprofile]; exact List.not_mem_nil
  exact (if_neg hlive).mp hmode

end EmsFixtures.Modbus
